/-
The limits of a batch. A bulk asks `topology.lastHello()` for the server's limits, which answers with a description of
the server, in which they are not kept: the limits are always the defaults. A batch is cut before an operation is
added, when one more would reach the limit of operations, when the bytes would reach theirs and the batch has an
operation, or when the type differs; so no batch is empty and all stay within these limits. A server's own limits are
kept where they are no smaller, and otherwise a batch can exceed them.
-/
import MongoDriver.Bulk.Lossless
import MongoDriver.Sdam.TopologyDescription
import Mathlib.Algebra.GroupWithZero.Nat
import Mathlib.Data.List.Induction

namespace MongoDriver.Bulk

open Heap (deref)

variable {δ ι : Type} {isOrdered : Bool}

/-! ## The limits of a bulk -/

/-- What `topology.lastHello()` returns: the description of the first server that is known, an object with the common
wire version, or an empty one. -/
inductive LastHello
  | description (sd : Sdam.ServerDescription)
  | commonWireVersion (maxWireVersion : Option Int)
  | empty

/-- `Topology.lastHello`. -/
def lastHello (description : Sdam.TopologyDescription) : LastHello :=
  let serverDescriptions := description.servers.values
  if serverDescriptions.length = 0 then .empty
  else
    match (serverDescriptions.filter (·.type ≠ .unknown)).head? with
    | some sd => .description sd
    | none => .commonWireVersion description.commonWireVersion

/-- `hello.maxBsonObjectSize`. A `ServerDescription` keeps no such field of the server's reply. -/
def LastHello.maxBsonObjectSize : LastHello → Option Nat
  | .description _ => none
  | .commonWireVersion _ => none
  | .empty => none

/-- `hello.maxWriteBatchSize`, which a `ServerDescription` does not keep either. -/
def LastHello.maxWriteBatchSize : LastHello → Option Nat
  | .description _ => none
  | .commonWireVersion _ => none
  | .empty => none

/-- The limits the constructor of `BulkOperationBase` gives a bulk. -/
def BulkOperationBase.limits (description : Sdam.TopologyDescription) (usingAutoEncryption : Bool) : Limits :=
  let hello := lastHello description
  Limits.new hello.maxBsonObjectSize hello.maxWriteBatchSize usingAutoEncryption

/-- Whatever the servers reported, a bulk has the default limits. -/
theorem limits_eq (description : Sdam.TopologyDescription) (usingAutoEncryption : Bool) :
    BulkOperationBase.limits description usingAutoEncryption = Limits.new none none usingAutoEncryption := by
  unfold BulkOperationBase.limits
  cases lastHello description <;> rfl

/-! ## What the limits say -/

section Limits

variable (docs : Documents δ ι) (limits : Limits)

/-- The BSON size of a document that has one. -/
def bsonSizeOf (document : δ) : Nat :=
  match docs.calculateObjectSize document with
  | .ok n => n
  | .error _ => 0

/-- The bytes of a batch: each operation has a key and its document. -/
def Batch.bytes (b : Batch δ) : Nat := (b.operations.map fun d => limits.maxKeySize + bsonSizeOf docs d).sum

structure Batch.WithinLimits (b : Batch δ) : Prop where
  nonempty : b.operations ≠ []
  count : b.operations.length ≤ limits.maxWriteBatchSize
  bytes : b.operations.length = 1 ∨ b.bytes docs limits < limits.maxBatchSizeBytes

/-- What cutting keeps: the batch has one operation less than the limit, since it is cut when one more would reach it. -/
structure Batch.Fits (b : Batch δ) : Prop where
  nonempty : b.operations ≠ []
  count : b.operations.length < limits.maxWriteBatchSize
  bytes : b.operations.length = 1 ∨ b.bytes docs limits < limits.maxBatchSizeBytes

/-- The batch keeps its sizes. -/
structure Batch.Tracked (b : Batch δ) : Prop where
  size : b.size = b.operations.length
  sizeBytes : b.sizeBytes = b.bytes docs limits

/-- The sizes of the current batch, which an ordered bulk keeps itself. -/
structure CountsCurrent (isOrdered : Bool) (s : BulkOperationPrivate δ ι) (b : Batch δ) : Prop where
  ordered : isOrdered = true → s.currentBatchSize = b.operations.length ∧ s.currentBatchSizeBytes = b.bytes docs limits
  unordered : isOrdered = false → b.Tracked docs limits

end Limits

section Batches

variable {docs : Documents δ ι} {limits : Limits} {b : Batch δ} {n : Nat} {batchType : BatchType}

/-- A batch that is cut has an operation. -/
theorem cut_fits (hmax : 1 < limits.maxWriteBatchSize)
    (hcut : needsNewBatch limits b.operations.length (b.bytes docs limits) n b.batchType batchType = true)
    (h : b.Fits docs limits ∨ (b.operations = [] ∧ b.batchType = batchType)) : b.Fits docs limits := by
  rcases h with h | ⟨hnil, htype⟩
  · exact h
  · simp [needsNewBatch, hnil, htype] at hcut
    omega

/-- A batch that is not cut has room. -/
theorem kept_room (hkept : needsNewBatch limits b.operations.length (b.bytes docs limits) n
    b.batchType batchType = false) :
    b.operations.length + 1 < limits.maxWriteBatchSize ∧
      (b.operations = [] ∨ b.bytes docs limits + limits.maxKeySize + n < limits.maxBatchSizeBytes) := by
  simp only [needsNewBatch, Bool.or_eq_false_iff, Bool.and_eq_false_iff, decide_eq_false_iff_not] at hkept
  obtain ⟨⟨hcount, hbytes⟩, -⟩ := hkept
  refine ⟨by omega, ?_⟩
  rcases hbytes with hzero | hbytes
  · exact .inl (List.length_eq_zero_iff.1 (by omega))
  · exact .inr (by omega)

theorem bytes_push {b' : Batch δ} {document : δ} (hn : docs.calculateObjectSize document = .ok n)
    (ho : b'.operations = b.operations ++ [document]) :
    b'.bytes docs limits = b.bytes docs limits + (limits.maxKeySize + n) := by
  have hsize : bsonSizeOf docs document = n := by
    unfold bsonSizeOf
    rw [hn]
  unfold Batch.bytes
  rw [ho, List.map_append, List.sum_append, List.map_singleton, List.sum_singleton, hsize]

/-- An operation joins a batch that has room. -/
theorem fits_push {b' : Batch δ} {document : δ} (hn : docs.calculateObjectSize document = .ok n)
    (ho : b'.operations = b.operations ++ [document]) (hcount : b.operations.length + 1 < limits.maxWriteBatchSize)
    (hbytes : b.operations = [] ∨ b.bytes docs limits + limits.maxKeySize + n < limits.maxBatchSizeBytes) :
    b'.Fits docs limits := by
  have hlen : b'.operations.length = b.operations.length + 1 := by rw [ho]; simp
  refine ⟨by rw [ho]; simp, by omega, ?_⟩
  rcases hbytes with hnil | hbytes
  · exact .inl (by rw [hlen, hnil]; rfl)
  · exact .inr (by rw [bytes_push hn ho]; omega)

end Batches

/-! ## While an operation is added -/

section Adding

variable (docs : Documents δ ι) (limits : Limits)

/-- The batches of the bulk while an operation of the type is added. The current one may have been begun just now. -/
structure Filling (isOrdered : Bool) (batchType : BatchType) (s : BulkOperationPrivate δ ι) : Prop where
  rest : ∀ b ∈ deref s.heap (s.batches ++ s.others isOrdered batchType), b.Fits docs limits
  others : ∀ b ∈ deref s.heap (s.others isOrdered batchType), b.Tracked docs limits
  counts : ∀ b, s.current = some b → CountsCurrent docs limits isOrdered s b
  current : ∀ b, s.current = some b → b.Fits docs limits ∨ (b.operations = [] ∧ b.batchType = batchType)
  fresh : isOrdered = true → s.currentBatch = none → s.currentBatchSize = 0 ∧ s.currentBatchSizeBytes = 0

/-- The current batch has room for an operation of the size. -/
structure Roomy (isOrdered : Bool) (batchType : BatchType) (n : Nat) (s : BulkOperationPrivate δ ι) : Prop where
  rest : ∀ b ∈ deref s.heap (s.batches ++ s.others isOrdered batchType), b.Fits docs limits
  others : ∀ b ∈ deref s.heap (s.others isOrdered batchType), b.Tracked docs limits
  counts : ∀ b, s.current = some b → CountsCurrent docs limits isOrdered s b
  count : ∀ b, s.current = some b → b.operations.length + 1 < limits.maxWriteBatchSize
  bytes : ∀ b, s.current = some b →
    b.operations = [] ∨ b.bytes docs limits + limits.maxKeySize + n < limits.maxBatchSizeBytes

/-- The batches of the bulk between two calls. -/
structure Sized (isOrdered : Bool) (s : BulkOperationPrivate δ ι) : Prop where
  fits : ∀ b ∈ deref s.heap (s.refs isOrdered), b.Fits docs limits
  counts : isOrdered = true → ∀ b, s.current = some b → CountsCurrent docs limits true s b
  fresh : isOrdered = true → s.currentBatch = none → s.currentBatchSize = 0 ∧ s.currentBatchSizeBytes = 0
  tracked : isOrdered = false → ∀ b ∈ deref s.heap (currentBatches false s), b.Tracked docs limits

end Adding

section Steps

variable {docs : Documents δ ι} {limits : Limits} {s : BulkOperationPrivate δ ι} {batchType : BatchType} {n : Nat}
  {accepted : List (BatchType × δ)}

theorem newBatch_current (s : BulkOperationPrivate δ ι) (batchType : BatchType) :
    (s.newBatch batchType).current = some { batchType, originalZeroIndex := s.currentIndex } := by
  simp [BulkOperationPrivate.current, BulkOperationPrivate.newBatch]

/-- A new batch is none of those that exist. -/
theorem deref_newBatch {refs : List Nat} (h : ∀ r ∈ refs, r < s.heap.length) :
    deref (s.newBatch batchType).heap refs = deref s.heap refs :=
  Heap.deref_congr fun r hr => List.getElem?_append_left (h r hr)

/-- The batches other than the current one exist. -/
theorem Adding.bound (h : Adding isOrdered batchType s accepted) :
    ∀ r ∈ s.batches ++ s.others isOrdered batchType, r < s.heap.length := by
  intro r hr
  exact h.held.distinct.bound r (List.mem_append_left _ hr)

theorem Filling.ensureBatch (h : Filling docs limits isOrdered batchType s)
    (hadd : Adding isOrdered batchType s accepted) :
    Filling docs limits isOrdered batchType (s.ensureBatch batchType) := by
  unfold BulkOperationPrivate.ensureBatch
  split
  · rename_i hnone
    have hcur : s.currentBatch = none := by simpa using hnone
    refine ⟨?_, ?_, ?_, ?_, fun _ hc => (by cases hc)⟩
    · show ∀ b ∈ deref (s.newBatch batchType).heap (s.batches ++ s.others isOrdered batchType), _
      rw [deref_newBatch hadd.bound]
      exact h.rest
    · show ∀ b ∈ deref (s.newBatch batchType).heap (s.others isOrdered batchType), _
      rw [deref_newBatch fun r hr => hadd.bound r (List.mem_append_right _ hr)]
      exact h.others
    · intro b hb
      rw [newBatch_current] at hb
      cases hb
      exact ⟨fun ho => h.fresh ho hcur, fun _ => ⟨rfl, rfl⟩⟩
    · intro b hb
      rw [newBatch_current] at hb
      cases hb
      exact .inr ⟨rfl, rfl⟩
  · exact h

/-- The current batch is saved, and the new one has room. -/
theorem Filling.cut (h : Filling docs limits isOrdered batchType s) (hadd : Adding isOrdered batchType s accepted)
    (hmax : 1 < limits.maxWriteBatchSize) (hwithin : ∀ b, s.current = some b → b.Fits docs limits) (n : Nat)
    (s' : BulkOperationPrivate δ ι) (hheap : s'.heap = (s.newBatch batchType).heap)
    (hcur : s'.currentBatch = (s.newBatch batchType).currentBatch)
    (hbatches : s'.batches = s.batches ++ s.currentBatch.toList)
    (hothers : s'.others isOrdered batchType = s.others isOrdered batchType)
    (hsizes : isOrdered = true → s'.currentBatchSize = 0 ∧ s'.currentBatchSizeBytes = 0) :
    Roomy docs limits isOrdered batchType n s' := by
  have hnew : s'.current = some { batchType, originalZeroIndex := s.currentIndex } := by
    unfold BulkOperationPrivate.current
    rw [hcur, hheap]
    exact newBatch_current s batchType
  refine ⟨?_, ?_, ?_, ?_, ?_⟩
  · rw [hheap, hbatches, hothers, List.append_assoc]
    have hperm : (s.batches ++ (s.currentBatch.toList ++ s.others isOrdered batchType)).Perm
        (s.batches ++ s.others isOrdered batchType ++ s.currentBatch.toList) := by
      rw [List.append_assoc]
      exact List.perm_append_comm.append_left _
    have hbound : ∀ r ∈ s.batches ++ s.others isOrdered batchType ++ s.currentBatch.toList, r < s.heap.length :=
      hadd.held.distinct.bound
    intro b hb
    have hb := (Heap.deref_perm hperm).mem_iff.1 hb
    rw [deref_newBatch hbound, Heap.deref_append] at hb
    rcases List.mem_append.1 hb with hb | hb
    · exact h.rest b hb
    · refine hwithin b ?_
      unfold BulkOperationPrivate.current
      cases hc : s.currentBatch with
      | none => rw [hc] at hb; cases hb
      | some r =>
        rw [hc] at hb
        obtain ⟨r', hr', hget⟩ := List.mem_filterMap.1 hb
        obtain rfl := List.mem_singleton.1 hr'
        exact hget
  · rw [hheap, hothers, deref_newBatch fun r hr => hadd.bound r (List.mem_append_right _ hr)]
    exact h.others
  · intro b hb
    rw [hnew] at hb
    cases hb
    exact ⟨hsizes, fun _ => ⟨rfl, rfl⟩⟩
  · intro b hb
    rw [hnew] at hb
    cases hb
    exact hmax
  · intro b hb
    rw [hnew] at hb
    cases hb
    exact .inl rfl

theorem Filling.keep (h : Filling docs limits isOrdered batchType s)
    (hkept : ∀ b, s.current = some b →
      needsNewBatch limits b.operations.length (b.bytes docs limits) n b.batchType batchType = false) :
    Roomy docs limits isOrdered batchType n s :=
  ⟨h.rest, h.others, h.counts, fun b hb => (kept_room (hkept b hb)).1, fun b hb => (kept_room (hkept b hb)).2⟩

/-- An object of the heap that the current batch refers to. -/
theorem mem_deref_of_current {refs : List Nat} {b : Batch δ} (hb : s.current = some b)
    (h : ∀ r, s.currentBatch = some r → r ∈ refs) : b ∈ deref s.heap refs := by
  obtain ⟨r, hr, hb⟩ := Option.bind_eq_some_iff.1 hb
  exact List.mem_filterMap.2 ⟨r, h r hr, hb⟩

theorem deref_subset {heap : List (Batch δ)} {refs refs' : List Nat} (h : refs ⊆ refs') :
    deref heap refs ⊆ deref heap refs' := by
  intro b hb
  obtain ⟨r, hr, hb⟩ := List.mem_filterMap.1 hb
  exact List.mem_filterMap.2 ⟨r, h hr, hb⟩

namespace OrderedBulkOperation

theorem sized_filling (h : Sized docs limits true s) (batchType : BatchType) :
    Filling docs limits true batchType s := by
  have hrest : s.batches ++ s.others true batchType ⊆ s.refs true := by
    rw [show s.others true batchType = [] from rfl, List.append_nil]
    exact List.subset_append_left ..
  refine ⟨fun b hb => h.fits b (deref_subset hrest hb), fun b hb => (by cases hb), h.counts rfl,
    fun b hb => ?_, h.fresh⟩
  refine .inl (h.fits b (mem_deref_of_current hb fun r hr => ?_))
  exact List.mem_append_right _ (by simp [currentBatches, hr])

theorem prepare_roomy (hmax : 1 < limits.maxWriteBatchSize) (h : Sized docs limits true s)
    (hbal : Balanced true s accepted) (batchType : BatchType) (n : Nat) :
    Roomy docs limits true batchType n (prepare limits s batchType n) := by
  have hadd : Adding true batchType s accepted := adding_iff.2 hbal
  have hfill := (sized_filling h batchType).ensureBatch hadd
  have hens := hadd.ensureBatch
  unfold prepare
  simp only
  generalize s.ensureBatch batchType = t at hfill hens
  -- the sizes that are compared are those of the current batch
  have hsame : ∀ b, t.current = some b → startsNewBatch limits t batchType n =
      needsNewBatch limits b.operations.length (b.bytes docs limits) n b.batchType batchType := by
    intro b hb
    unfold startsNewBatch
    rw [hb, Option.any_some, ((hfill.counts b hb).ordered rfl).1, ((hfill.counts b hb).ordered rfl).2]
  split
  · rename_i hcut
    refine hfill.cut hens hmax (fun b hb => ?_) n _ rfl rfl rfl rfl fun _ => ⟨rfl, rfl⟩
    exact cut_fits hmax ((hsame b hb).symm.trans hcut) (hfill.current b hb)
  · rename_i hkept
    exact hfill.keep fun b hb => (hsame b hb).symm.trans (by simpa using hkept)

theorem recordId_roomy {call : Call δ} (h : Roomy docs limits true batchType n s) :
    Roomy docs limits true batchType n (recordId docs s call) := by
  unfold recordId
  split
  · exact ⟨h.rest, h.others, fun b hb => ⟨(h.counts b hb).ordered, (h.counts b hb).unordered⟩, h.count, h.bytes⟩
  · exact h

theorem push_sized {document : δ} (hn : docs.calculateObjectSize document = .ok n)
    (h : Roomy docs limits true batchType n s) (hadd : Adding true batchType s accepted) (hready : Ready s batchType) :
    Sized docs limits true (push limits s document n) := by
  obtain ⟨r, b, hcur, hb, -⟩ := hready
  have hcurrent : s.current = some b := by simp [BulkOperationPrivate.current, hcur, hb]
  have hdistinct := (hadd.current hcur).1.distinct
  have hmod : ∀ f, s.modifyCurrent f = { s with heap := s.heap.modify r f } := fun f => by
    simp [BulkOperationPrivate.modifyCurrent, hcur]
  unfold push
  simp only [hmod]
  refine ⟨?_, ?_, ?_, fun ho => (by cases ho)⟩
  · intro b' hb'
    simp only [BulkOperationPrivate.refs, currentBatches, if_true, hcur, Option.toList_some] at hb'
    rw [show s.batches = s.batches ++ s.others true batchType from (List.append_nil _).symm,
      Heap.deref_modify_last _ hdistinct.last.1 hb] at hb'
    rcases List.mem_append.1 hb' with hb' | hb'
    · exact h.rest b' hb'
    · obtain rfl := List.mem_singleton.1 hb'
      exact fits_push hn rfl (h.count b hcurrent) (h.bytes b hcurrent)
  · intro _ b' hb'
    simp only [BulkOperationPrivate.current, hcur, Option.bind_some, List.getElem?_modify_eq, hb] at hb'
    obtain rfl := Option.some.inj hb'
    obtain ⟨hsize, hbytes⟩ := (h.counts b hcurrent).ordered rfl
    refine ⟨fun _ => ⟨?_, ?_⟩, fun ho => (by cases ho)⟩
    · simp [hsize]
    · rw [bytes_push (b := b) hn rfl, ← hbytes]
  · intro _ hnone
    rw [hcur] at hnone
    cases hnone

end OrderedBulkOperation

namespace UnorderedBulkOperation

theorem batchOf_subset (s : BulkOperationPrivate δ ι) (batchType : BatchType) :
    s.others false batchType ++ (s.batchOf batchType).toList ⊆ currentBatches false s :=
  (currentBatches_perm s batchType).subset

theorem sized_filling (h : Sized docs limits false s) (batchType : BatchType) :
    Filling docs limits false batchType { s with currentBatch := s.batchOf batchType } := by
  have hothers : ({ s with currentBatch := s.batchOf batchType } : BulkOperationPrivate δ ι).others false batchType =
      s.others false batchType := by cases batchType <;> rfl
  have hcurrent : ∀ b, ({ s with currentBatch := s.batchOf batchType } : BulkOperationPrivate δ ι).current = some b →
      b ∈ deref s.heap (currentBatches false s) := by
    intro b hb
    refine mem_deref_of_current (s := { s with currentBatch := s.batchOf batchType }) hb fun r hr => ?_
    refine batchOf_subset s batchType (List.mem_append_right _ ?_)
    have hr : s.batchOf batchType = some r := hr
    rw [hr]
    exact List.mem_singleton_self r
  have hrefs : currentBatches false s ⊆ s.refs false := List.subset_append_right ..
  refine ⟨?_, ?_, ?_, ?_, fun ho => (by cases ho)⟩
  · rw [hothers]
    intro b hb
    refine h.fits b (deref_subset ?_ hb)
    exact List.append_subset.2 ⟨List.subset_append_left .., fun r hr =>
      hrefs (batchOf_subset s batchType (List.mem_append_left _ hr))⟩
  · rw [hothers]
    intro b hb
    exact h.tracked rfl b (deref_subset (fun r hr => batchOf_subset s batchType (List.mem_append_left _ hr)) hb)
  · intro b hb
    exact ⟨fun ho => (by cases ho), fun _ => h.tracked rfl b (hcurrent b hb)⟩
  · intro b hb
    exact .inl (h.fits b (deref_subset hrefs (hcurrent b hb)))

theorem prepare_roomy (hmax : 1 < limits.maxWriteBatchSize) (h : Sized docs limits false s)
    (hbal : Balanced false s accepted) (batchType : BatchType) (n : Nat) :
    Roomy docs limits false batchType n (prepare limits s batchType n) := by
  have hadd : Adding false batchType { s with currentBatch := s.batchOf batchType } accepted := by
    have hlive := live_refs { s with currentBatch := s.batchOf batchType } batchType (by cases batchType <;> rfl)
    exact ⟨hbal.held.rearrange ⟨hlive.perm.symm, fun ho => (by cases ho)⟩, hbal.index, hbal.notExecuted⟩
  have hfill := (sized_filling h batchType).ensureBatch hadd
  have hens := hadd.ensureBatch
  unfold prepare
  simp only
  generalize ({ s with currentBatch := s.batchOf batchType } : BulkOperationPrivate δ ι).ensureBatch batchType = t
    at hfill hens
  have hsame : ∀ b, t.current = some b → startsNewBatch limits t batchType n =
      needsNewBatch limits b.operations.length (b.bytes docs limits) n b.batchType batchType := by
    intro b hb
    have htracked := (hfill.counts b hb).unordered rfl
    unfold startsNewBatch
    rw [hb, Option.any_some, htracked.size, htracked.sizeBytes]
  split
  · rename_i hcut
    refine hfill.cut hens hmax (fun b hb => ?_) n _ rfl rfl rfl ?_ fun ho => (by cases ho)
    · exact cut_fits hmax ((hsame b hb).symm.trans hcut) (hfill.current b hb)
    · cases batchType <;> rfl
  · rename_i hkept
    exact hfill.keep fun b hb => (hsame b hb).symm.trans (by simpa using hkept)

theorem push_others (docs : Documents δ ι) (limits : Limits) (s : BulkOperationPrivate δ ι) (call : Call δ) (n : Nat) :
    (push docs limits s call n).others false call.batchType = s.others false call.batchType ∧
      (push docs limits s call n).currentBatch = s.currentBatch := by
  obtain ⟨heap, currentBatch, _, _, _, _, _, _, _, _, _⟩ := s
  obtain ⟨batchType, document⟩ := call
  cases currentBatch <;> cases batchType <;> exact ⟨rfl, rfl⟩

theorem push_sized {call : Call δ} (hn : docs.calculateObjectSize call.document = .ok n)
    (h : Roomy docs limits false call.batchType n s) (hadd : Adding false call.batchType s accepted)
    (hready : Ready s call.batchType) : Sized docs limits false (push docs limits s call n) := by
  obtain ⟨r, b, hcur, hb, -⟩ := hready
  have hcurrent : s.current = some b := by simp [BulkOperationPrivate.current, hcur, hb]
  have hdistinct := (hadd.current hcur).1.distinct
  obtain ⟨hheap, hlive, hbatch, -, -⟩ := push_fields docs limits call n hcur
  have htracked := (h.counts b hcurrent).unordered rfl
  -- the two updates of the current batch
  have hderef : ∀ refs, r ∉ refs → deref (push docs limits s call n).heap (refs ++ [r]) = deref s.heap refs ++
      [{ b with
        operations := b.operations ++ [call.document]
        originalIndexes := b.originalIndexes ++ [s.currentIndex]
        size := b.size + 1
        sizeBytes := b.sizeBytes + (limits.maxKeySize + n) }] := by
    intro refs hr
    rw [hheap, Heap.deref_modify_last _ hr (by rw [List.getElem?_modify_eq, hb]; rfl), Heap.deref_modify _ hr]
  have hlast : s.live false call.batchType = s.batches ++ s.others false call.batchType ++ [r] := by
    unfold BulkOperationPrivate.live; rw [hcur]; rfl
  refine ⟨?_, fun ho => (by cases ho), fun ho => (by cases ho), fun _ => ?_⟩
  · intro b' hb'
    have hb' := (Heap.deref_perm (live_refs _ call.batchType hbatch).perm).mem_iff.2 hb'
    rw [hlive, hlast, hderef _ hdistinct.last.1] at hb'
    rcases List.mem_append.1 hb' with hb' | hb'
    · exact h.rest b' hb'
    · obtain rfl := List.mem_singleton.1 hb'
      exact fits_push hn rfl (h.count b hcurrent) (h.bytes b hcurrent)
  · intro b' hb'
    have hb' := (Heap.deref_perm (currentBatches_perm _ call.batchType)).mem_iff.2 hb'
    have hof : ((push docs limits s call n).batchOf call.batchType).toList = [r] := by
      rw [← hbatch, (push_others docs limits s call n).2, hcur]
      rfl
    rw [(push_others docs limits s call n).1, hof, hderef _ fun hr =>
      hdistinct.last.1 (List.mem_append_right _ hr)] at hb'
    rcases List.mem_append.1 hb' with hb' | hb'
    · exact h.others b' hb'
    · obtain rfl := List.mem_singleton.1 hb'
      constructor
      · simp [htracked.size]
      · rw [bytes_push (b := b) hn rfl, ← htracked.sizeBytes]

end UnorderedBulkOperation

theorem pushed_sized {call : Call δ} (hmax : 1 < limits.maxWriteBatchSize) (hbal : Balanced isOrdered s accepted)
    (h : Sized docs limits isOrdered s) (hn : Passes docs limits call n) :
    Sized docs limits isOrdered (pushed docs limits isOrdered s call n) := by
  unfold pushed prepared
  cases isOrdered with
  | true =>
    obtain ⟨hadd, hready⟩ := OrderedBulkOperation.checked_adding docs limits call n hbal
    have hroom := OrderedBulkOperation.prepare_roomy hmax h hbal call.batchType n
    exact OrderedBulkOperation.push_sized hn.1 (OrderedBulkOperation.recordId_roomy hroom) hadd hready
  | false =>
    obtain ⟨hadd, hready⟩ := UnorderedBulkOperation.prepare_adding limits call n hbal
    exact UnorderedBulkOperation.push_sized hn.1 (UnorderedBulkOperation.prepare_roomy hmax h hbal call.batchType n)
      hadd hready

theorem sized_init : Sized docs limits isOrdered ({} : BulkOperationPrivate δ ι) := by
  refine ⟨?_, fun _ b hb => (by cases hb), fun _ _ => ⟨rfl, rfl⟩, fun _ b hb => (by cases hb)⟩
  cases isOrdered <;> exact fun b hb => (by cases hb)

end Steps

/-! ## Runs -/

section Runs

variable (docs : Documents δ ι) (limits : Limits)

/-- What a batch that is sent should be: within the limits, and made of accepted operations of its type, in the order
they were accepted. -/
structure Batch.Proper (accepted : List (BatchType × δ)) (b : Batch δ) : Prop where
  within : b.WithinLimits docs limits
  aligned : b.operations.length = b.originalIndexes.length
  typed : b.entries.Sublist accepted.zipIdx

variable {docs limits}

/-- A call that is not rejected late adds its operation or leaves the bulk as it was. -/
theorem step_cases {b : BulkOperationPrivate δ ι × List (BatchType × δ)} {call : Call δ}
    (hlate : ¬ LateArray docs limits isOrdered b.1 call) :
    step docs limits isOrdered b call = b ∨
      ∃ n, Passes docs limits call n ∧ step docs limits isOrdered b call =
        (pushed docs limits isOrdered b.1 call n, b.2 ++ [(call.batchType, call.document)]) := by
  unfold step
  rcases addToOperationsList_cases docs limits isOrdered b.1 call with
    ⟨-, e, hadd⟩ | ⟨n, hn, ⟨harr, hadd⟩ | ⟨-, hadd⟩⟩
  · rw [hadd]
    exact .inl rfl
  · have hsame : prepared docs limits isOrdered b.1 call n = b.1 :=
      (prepared_eq_iff docs limits isOrdered b.1 call n).2 fun ht => hlate ⟨harr, n, hn, ht⟩
    rw [hadd, hsame]
    exact .inl rfl
  · rw [hadd]
    exact .inr ⟨n, hn, rfl⟩

/-- What holds after every call of a run with a limit of two operations or more. -/
structure LimitsKept (docs : Documents δ ι) (limits : Limits) (isOrdered : Bool)
    (b : BulkOperationPrivate δ ι × List (BatchType × δ)) : Prop where
  balanced : Balanced isOrdered b.1 b.2
  sized : Sized docs limits isOrdered b.1

theorem LimitsKept.step {b : BulkOperationPrivate δ ι × List (BatchType × δ)} {call : Call δ}
    (hmax : 1 < limits.maxWriteBatchSize) (h : LimitsKept docs limits isOrdered b)
    (hlate : ¬ LateArray docs limits isOrdered b.1 call) :
    LimitsKept docs limits isOrdered (step docs limits isOrdered b call) := by
  rcases step_cases hlate with hsame | ⟨n, hn, hpush⟩
  · rw [hsame]
    exact h
  · rw [hpush]
    exact ⟨pushed_balanced h.balanced, pushed_sized hmax h.balanced h.sized hn⟩

/-- The batches that are sent fit the limits and hold accepted operations. -/
theorem sentBatches_fit (hmax : 1 < limits.maxWriteBatchSize) {calls : List (Call δ)}
    (hlate : AtEveryCall docs limits isOrdered (fun s call => ¬ LateArray docs limits isOrdered s call) calls) :
    ∀ b ∈ sentBatches isOrdered (run docs limits isOrdered calls).1, b.Fits docs limits ∧
      b.operations.length = b.originalIndexes.length ∧
      b.entries.Sublist (run docs limits isOrdered calls).2.zipIdx := by
  have hkept : LimitsKept docs limits isOrdered (run docs limits isOrdered calls) :=
    Run.exec_inv_meets _ (P := LimitsKept docs limits isOrdered)
      (fun b call t h hc ht => by cases ht; exact h.step hmax hc) ⟨balanced_init, sized_init⟩ hlate
      (Run.exec_total (Bulk.step docs limits isOrdered) calls ({}, []))
  rw [sentBatches_eq hkept.balanced.notExecuted]
  intro b hb
  have hledger := hkept.balanced.held.ledger
  exact ⟨hkept.sized.fits b hb, hledger.aligned b hb, hledger.inOrder b hb⟩

end Runs

/-! ## One full batch -/

section Gathering

/-- The operations, all of them deletes, are those of the current batch, and there is no other batch. -/
structure Gathering (docs : Documents δ ι) (limits : Limits) (isOrdered : Bool) (s : BulkOperationPrivate δ ι)
    (operations : List δ) : Prop where
  batches : s.batches = []
  others : s.others isOrdered .delete = []
  notExecuted : s.executed = false
  begun : ∀ r, s.currentBatch = some r → ∃ b, s.heap[r]? = some b ∧ b.batchType = .delete ∧
    b.operations = operations ∧ CountsCurrent docs limits isOrdered s b
  fresh : s.currentBatch = none → operations = [] ∧
    (isOrdered = true → s.currentBatchSize = 0 ∧ s.currentBatchSizeBytes = 0)

/-- The bulk between two calls: an unordered one keeps the current batch of the type. -/
structure Gathered (docs : Documents δ ι) (limits : Limits) (isOrdered : Bool) (s : BulkOperationPrivate δ ι)
    (operations : List δ) : Prop where
  ordered : isOrdered = true → Gathering docs limits true s operations
  unordered : isOrdered = false →
    Gathering docs limits false { s with currentBatch := s.currentRemoveBatch } operations

/-- The document is a delete statement of the size, and the batch has room for it. -/
structure RoomFor (docs : Documents δ ι) (limits : Limits) (operations : List δ) (document : δ) (n : Nat) : Prop where
  size : docs.calculateObjectSize document = .ok n
  small : n < limits.maxBsonObjectSize
  notArray : docs.isArray document = false
  count : operations.length + 1 < limits.maxWriteBatchSize
  bytes : (operations.map fun d => limits.maxKeySize + bsonSizeOf docs d).sum + limits.maxKeySize + n <
    limits.maxBatchSizeBytes

variable {docs : Documents δ ι} {limits : Limits} {s : BulkOperationPrivate δ ι} {operations : List δ} {document : δ}
  {n : Nat}

theorem getElem?_modify_some {heap : List (Batch δ)} {r : Nat} {b : Batch δ} (h : heap[r]? = some b)
    (f : Batch δ → Batch δ) : (heap.modify r f)[r]? = some (f b) := by
  rw [List.getElem?_modify_eq, h]
  rfl

theorem Gathering.ensureBatch (h : Gathering docs limits isOrdered s operations) :
    Gathering docs limits isOrdered (s.ensureBatch .delete) operations ∧
      ∃ r, (s.ensureBatch .delete).currentBatch = some r := by
  unfold BulkOperationPrivate.ensureBatch
  cases hcur : s.currentBatch with
  | some r =>
    rw [if_neg (by simp)]
    exact ⟨h, r, hcur⟩
  | none =>
    rw [if_pos (by rfl)]
    obtain ⟨rfl, hsizes⟩ := h.fresh hcur
    refine ⟨⟨h.batches, h.others, h.notExecuted, fun r hr => ?_, fun hnone => (by cases hnone)⟩, _, rfl⟩
    cases hr
    refine ⟨{ batchType := .delete, originalZeroIndex := s.currentIndex }, ?_, rfl, rfl, fun ho => hsizes ho,
      fun _ => ⟨rfl, rfl⟩⟩
    simp [BulkOperationPrivate.newBatch]

/-- A batch with room is not cut. -/
theorem RoomFor.kept (h : RoomFor docs limits operations document n) :
    needsNewBatch limits operations.length (operations.map fun d => limits.maxKeySize + bsonSizeOf docs d).sum n
      .delete .delete = false := by
  have hcount := h.count
  have hbytes := h.bytes
  simp only [needsNewBatch, Bool.or_eq_false_iff, Bool.and_eq_false_iff, decide_eq_false_iff_not]
  exact ⟨⟨by omega, .inr (by omega)⟩, by simp⟩

namespace OrderedBulkOperation

theorem prepare_gathering (h : Gathering docs limits true s operations) (hroom : RoomFor docs limits operations document n) :
    Gathering docs limits true (prepare limits s .delete n) operations ∧
      ∃ r, (prepare limits s .delete n).currentBatch = some r := by
  obtain ⟨hens, r, hr⟩ := h.ensureBatch
  obtain ⟨b, hb, htype, hops, hcounts⟩ := hens.begun r hr
  have hkept : startsNewBatch limits (s.ensureBatch .delete) .delete n = false := by
    obtain ⟨hsize, hbytes⟩ := hcounts.ordered rfl
    have hcurrent : (s.ensureBatch .delete).current = some b := by
      unfold BulkOperationPrivate.current
      rw [hr, Option.bind_some, hb]
    unfold startsNewBatch
    rw [hcurrent, Option.any_some, hsize, hbytes, htype, Batch.bytes, hops]
    exact hroom.kept
  unfold prepare
  simp only [hkept, Bool.false_eq_true, if_false]
  exact ⟨hens, r, hr⟩

theorem push_gathering (h : Gathering docs limits true s operations) {r : Nat} (hr : s.currentBatch = some r)
    (hn : docs.calculateObjectSize document = .ok n) :
    Gathering docs limits true (push limits s document n) (operations ++ [document]) := by
  obtain ⟨b, hb, htype, hops, hcounts⟩ := h.begun r hr
  obtain ⟨hsize, hbytes⟩ := hcounts.ordered rfl
  have hmod : ∀ f, s.modifyCurrent f = { s with heap := s.heap.modify r f } := fun f => by
    simp [BulkOperationPrivate.modifyCurrent, hr]
  unfold push
  simp only [hmod]
  refine ⟨h.batches, rfl, h.notExecuted, fun q hq => ?_, fun hnone => ?_⟩
  · obtain rfl : r = q := Option.some.inj (hr.symm.trans hq)
    refine ⟨_, getElem?_modify_some hb _, htype, by rw [hops], fun _ => ⟨?_, ?_⟩, fun ho => (by cases ho)⟩
    · simp [hsize]
    · rw [bytes_push (b := b) hn rfl, ← hbytes]
  · exact absurd (hr.symm.trans hnone) (by simp)

end OrderedBulkOperation

namespace UnorderedBulkOperation

theorem prepare_gathering (h : Gathering docs limits false { s with currentBatch := s.currentRemoveBatch } operations)
    (hroom : RoomFor docs limits operations document n) :
    Gathering docs limits false (prepare limits s .delete n) operations ∧
      ∃ r, (prepare limits s .delete n).currentBatch = some r := by
  obtain ⟨hens, r, hr⟩ := h.ensureBatch
  obtain ⟨b, hb, htype, hops, hcounts⟩ := hens.begun r hr
  have hkept : ∀ t : BulkOperationPrivate δ ι, t.currentBatch = some r → t.heap[r]? = some b →
      startsNewBatch limits t .delete n = false := by
    intro t hr hb
    obtain ⟨hsize, hbytes⟩ := hcounts.unordered rfl
    unfold startsNewBatch BulkOperationPrivate.current
    rw [hr, Option.bind_some, hb, Option.any_some, hsize, hbytes, htype, Batch.bytes, hops]
    exact hroom.kept
  have hprepare : prepare limits s .delete n =
      ({ s with currentBatch := s.currentRemoveBatch } : BulkOperationPrivate δ ι).ensureBatch .delete := by
    unfold prepare
    exact if_neg (Bool.not_eq_true _ ▸ hkept _ hr hb)
  rw [hprepare]
  exact ⟨hens, r, hr⟩

theorem push_gathering (h : Gathering docs limits false s operations) {r : Nat} (hr : s.currentBatch = some r)
    (hn : docs.calculateObjectSize document = .ok n) :
    Gathering docs limits false { push docs limits s ⟨.delete, document⟩ n with
      currentBatch := (push docs limits s ⟨.delete, document⟩ n).currentRemoveBatch } (operations ++ [document]) := by
  obtain ⟨b, hb, htype, hops, hcounts⟩ := h.begun r hr
  have htracked := hcounts.unordered rfl
  obtain ⟨hheap, -, hbatch, -, hexecuted⟩ := push_fields docs limits ⟨.delete, document⟩ n hr
  obtain ⟨hothers, hcurrent⟩ := push_others docs limits s ⟨.delete, document⟩ n
  have hbatches : (push docs limits s ⟨.delete, document⟩ n).batches = s.batches := by
    obtain ⟨heap, currentBatch, _, _, _, _, _, _, _, _, _⟩ := s
    cases hr
    rfl
  have hremove : (push docs limits s ⟨.delete, document⟩ n).currentRemoveBatch = some r :=
    hbatch.symm.trans (hcurrent.trans hr)
  refine ⟨hbatches.trans h.batches, hothers.trans h.others, hexecuted.trans h.notExecuted, fun q hq => ?_,
    fun hnone => ?_⟩
  · obtain rfl : r = q := Option.some.inj (hremove.symm.trans hq)
    have hget := getElem?_modify_some (getElem?_modify_some hb fun b => { b with
      operations := b.operations ++ [document], originalIndexes := b.originalIndexes ++ [s.currentIndex] })
      fun b => { b with size := b.size + 1, sizeBytes := b.sizeBytes + (limits.maxKeySize + n) }
    refine ⟨_, (congrArg (·[r]?) hheap).trans hget, htype, by simp [hops], fun ho => (by cases ho), fun _ => ⟨?_, ?_⟩⟩
    · simp [htracked.size]
    · rw [bytes_push (b := b) hn rfl, ← htracked.sizeBytes]
  · exact absurd (hremove.symm.trans hnone) (by simp)

end UnorderedBulkOperation

theorem Gathered.pushed (h : Gathered docs limits isOrdered s operations)
    (hroom : RoomFor docs limits operations document n) :
    Gathered docs limits isOrdered (pushed docs limits isOrdered s ⟨.delete, document⟩ n) (operations ++ [document]) := by
  cases isOrdered with
  | true =>
    refine ⟨fun _ => ?_, fun ho => (by cases ho)⟩
    obtain ⟨hprepared, r, hr⟩ := OrderedBulkOperation.prepare_gathering (h.ordered rfl) hroom
    exact OrderedBulkOperation.push_gathering hprepared hr hroom.size
  | false =>
    refine ⟨fun ho => (by cases ho), fun _ => ?_⟩
    obtain ⟨hprepared, r, hr⟩ := UnorderedBulkOperation.prepare_gathering (h.unordered rfl) hroom
    exact UnorderedBulkOperation.push_gathering hprepared hr hroom.size

/-- The deletes of documents, one call for each. -/
def deleteCalls (documents : List δ) : List (Call δ) := documents.map fun d => ⟨.delete, d⟩

/-- Deletes that fit one batch are sent in one. -/
theorem run_gathered {documents : List δ} (hsmall : ∀ d ∈ documents, ∃ n, docs.calculateObjectSize d = .ok n ∧
      n < limits.maxBsonObjectSize ∧ docs.isArray d = false)
    (hcount : documents.length < limits.maxWriteBatchSize)
    (hbytes : (documents.map fun d => limits.maxKeySize + bsonSizeOf docs d).sum < limits.maxBatchSizeBytes) :
    Gathered docs limits isOrdered (run docs limits isOrdered (deleteCalls documents)).1 documents := by
  induction documents using List.reverseRecOn with
  | nil =>
    refine ⟨fun _ => ⟨rfl, rfl, rfl, ?_, ?_⟩, fun _ => ⟨rfl, rfl, rfl, ?_, ?_⟩⟩
    · exact fun r hr => (by cases hr)
    · exact fun _ => ⟨rfl, fun _ => ⟨rfl, rfl⟩⟩
    · exact fun r hr => (by cases hr)
    · exact fun _ => ⟨rfl, fun ho => (by cases ho)⟩
  | append_singleton documents d ih =>
    obtain ⟨n, hn, hlt, harr⟩ := hsmall d (List.mem_append_right _ (List.mem_singleton_self d))
    have hsize : bsonSizeOf docs d = n := by
      unfold bsonSizeOf
      rw [hn]
    rw [List.length_append, List.length_singleton] at hcount
    rw [List.map_append, List.sum_append, List.map_singleton, List.sum_singleton, hsize] at hbytes
    have hroom : RoomFor docs limits documents d n := ⟨hn, hlt, harr, hcount, by omega⟩
    have hprevious := ih (fun d hd => hsmall d (List.mem_append_left _ hd)) (by omega) (by omega)
    have hrun : (run docs limits isOrdered (deleteCalls (documents ++ [d]))).1 =
        pushed docs limits isOrdered (run docs limits isOrdered (deleteCalls documents)).1 ⟨.delete, d⟩ n := by
      unfold run deleteCalls
      rw [List.map_append, List.map_singleton, List.foldl_append, List.foldl_cons, List.foldl_nil]
      unfold step
      rw [addToOperationsList_eq]
      simp only [hn, harr, Bool.false_eq_true, if_false]
      rw [if_neg (by omega)]
    rw [hrun]
    exact hprevious.pushed hroom

theorem Gathering.sent (h : Gathering docs limits isOrdered s operations) (hne : operations ≠ [])
    {t : BulkOperationPrivate δ ι} (hheap : t.heap = s.heap)
    (hrefs : t.refs isOrdered = s.batches ++ s.others isOrdered .delete ++ s.currentBatch.toList) :
    ∃ b, deref t.heap (t.refs isOrdered) = [b] ∧ b.operations = operations := by
  cases hcur : s.currentBatch with
  | none => exact absurd (h.fresh hcur).1 hne
  | some r =>
    obtain ⟨b, hb, -, hops, -⟩ := h.begun r hcur
    refine ⟨b, ?_, hops⟩
    rw [hrefs, hheap, h.batches, h.others, hcur]
    show [r].filterMap (s.heap[·]?) = [b]
    rw [List.filterMap_cons_some hb, List.filterMap_nil]

theorem Gathered.sentBatches (h : Gathered docs limits isOrdered s operations) (hne : operations ≠ []) :
    ∃ b, sentBatches isOrdered s = [b] ∧ b.operations = operations := by
  cases isOrdered with
  | true =>
    have hordered := h.ordered rfl
    rw [sentBatches_eq hordered.notExecuted]
    exact hordered.sent hne rfl (by simp [BulkOperationPrivate.refs, currentBatches, BulkOperationPrivate.others])
  | false =>
    have hunordered := h.unordered rfl
    have hexecuted : s.executed = false := hunordered.notExecuted
    rw [sentBatches_eq hexecuted]
    exact hunordered.sent hne rfl (by simp [BulkOperationPrivate.refs, currentBatches, BulkOperationPrivate.others])

end Gathering

/-! ## The server's limits -/

section Reported

variable {docs : Documents δ ι} {limits : Limits}

/-- Every batch that a bulk with the limits `own` sends keeps to `limits`, whatever is added to the bulk, save for
arrays that are rejected late. -/
def AlwaysWithin (own limits : Limits) (isOrdered : Bool) : Prop :=
  ∀ (δ ι : Type) (docs : Documents δ ι) (calls : List (Call δ)),
    AtEveryCall docs own isOrdered (fun s call => ¬ LateArray docs own isOrdered s call) calls →
    ∀ b ∈ sentBatches isOrdered (run docs own isOrdered calls).1,
      b.Proper docs limits (run docs own isOrdered calls).2

/-- The limits leave room for a batch of a bulk, which has at most 999 operations with keys of at most 5 bytes. -/
structure Limits.Roomy (limits own : Limits) : Prop where
  count : 999 ≤ limits.maxWriteBatchSize
  bytes : own.maxBatchSizeBytes + 999 * limits.maxKeySize ≤ limits.maxBatchSizeBytes + 999 * 5

/-- The bytes of a batch are those of its keys and of its documents. -/
theorem bytes_eq (docs : Documents δ ι) (limits : Limits) (b : Batch δ) :
    b.bytes docs limits = b.operations.length * limits.maxKeySize + (b.operations.map (bsonSizeOf docs)).sum := by
  unfold Batch.bytes
  induction b.operations with
  | nil => simp
  | cons d operations ih =>
    rw [List.map_cons, List.map_cons, List.sum_cons, List.sum_cons, ih, List.length_cons, Nat.succ_mul]
    omega

/-- The defaults of a bulk: 1000 operations, whose keys have up to 5 bytes, and documents of 16 megabytes. -/
theorem own_limits (usingAutoEncryption : Bool) :
    (Limits.new none none usingAutoEncryption).maxWriteBatchSize = 1000 ∧
      (Limits.new none none usingAutoEncryption).maxKeySize = 5 ∧
      (Limits.new none none usingAutoEncryption).maxBsonObjectSize = 16777216 ∧
      (Limits.new none none usingAutoEncryption).maxBatchSizeBytes =
        if usingAutoEncryption then 2097152 else 16777216 := by
  cases usingAutoEncryption <;> exact ⟨rfl, rfl, rfl, rfl⟩

/-- The key of a limit of 999 or more has at least three digits. -/
theorem key_of_limit {maxBsonObjectSize maxWriteBatchSize : Option Nat} {usingAutoEncryption : Bool}
    (h : 999 ≤ (Limits.new maxBsonObjectSize maxWriteBatchSize usingAutoEncryption).maxWriteBatchSize) :
    5 ≤ (Limits.new maxBsonObjectSize maxWriteBatchSize usingAutoEncryption).maxKeySize := by
  simp only [Limits.new] at h ⊢
  generalize (maxWriteBatchSize.filter (· ≠ 0)).getD 1000 = count at h
  have hdigits : ¬ (Nat.toDigits 10 (count - 1)).length ≤ 2 := by
    rw [Nat.length_toDigits_le_iff (by decide) (by decide)]
    omega
  omega

/-- A batch that fits a bulk's own limits is within limits that leave room for it. -/
theorem Batch.Fits.within {own : Limits} {b : Batch δ} (h : b.Fits docs own) (hown : own.maxWriteBatchSize = 1000)
    (hkey : own.maxKeySize = 5) (hroomy : limits.Roomy own) (hdigits : 5 ≤ limits.maxKeySize) :
    b.WithinLimits docs limits := by
  have hcount := h.count
  have hmost := hroomy.count
  refine ⟨h.nonempty, by omega, ?_⟩
  rcases h.bytes with hone | hbytes
  · exact .inl hone
  · refine .inr ?_
    rw [bytes_eq, hkey] at hbytes
    rw [bytes_eq]
    -- each of the 999 keys at most can be longer by the difference
    obtain ⟨extra, hextra⟩ := Nat.exists_eq_add_of_le hdigits
    have hkeys : b.operations.length * extra ≤ 999 * extra := Nat.mul_le_mul_right extra (by omega)
    have hroom := hroomy.bytes
    rw [hextra, Nat.mul_add] at hroom ⊢
    omega

/-- Documents by their size. -/
private def sizes : Documents Nat Unit where
  calculateObjectSize n := .ok n
  isArray _ := false
  id _ := none
  withId n _ := n

theorem sizes_not_late (limits : Limits) (isOrdered : Bool) (calls : List (Call Nat)) :
    AtEveryCall sizes limits isOrdered (fun s call => ¬ LateArray sizes limits isOrdered s call) calls := by
  unfold AtEveryCall
  refine Run.meets_of_inv (P := fun _ => True) (C := fun _ _ => True) _ (fun _ _ _ _ _ _ => trivial) ?_ trivial
    (Run.meets_true _ _ _)
  rintro b call - - ⟨harr, -⟩
  cases harr

/-- Documents that fill a batch: 998 of 100 bytes and one of what is left below the limit of bytes. -/
private def filling (maxBatchSizeBytes : Nat) : List Nat :=
  List.replicate 998 100 ++ [maxBatchSizeBytes - 1 - 999 * 5 - 998 * 100]

private theorem length_filling (maxBatchSizeBytes : Nat) : (filling maxBatchSizeBytes).length = 999 := by
  unfold filling
  rw [List.length_append, List.length_replicate, List.length_singleton]

private theorem sum_filling {maxBatchSizeBytes : Nat} (h : 2097152 ≤ maxBatchSizeBytes) :
    ((filling maxBatchSizeBytes).map (bsonSizeOf sizes)).sum = maxBatchSizeBytes - 1 - 999 * 5 := by
  have hsize : bsonSizeOf sizes = id := rfl
  unfold filling
  rw [hsize, List.map_id, List.sum_append, List.sum_replicate_nat, List.sum_singleton]
  omega

/-- A bulk sends a batch of 999 operations that leaves not a byte of its limit. -/
theorem exists_full_batch (usingAutoEncryption isOrdered : Bool) :
    ∃ calls, ∃ b ∈ sentBatches isOrdered (run sizes (Limits.new none none usingAutoEncryption) isOrdered calls).1,
      b.operations.length = 999 ∧ (b.operations.map (bsonSizeOf sizes)).sum =
        (Limits.new none none usingAutoEncryption).maxBatchSizeBytes - 1 - 999 * 5 := by
  obtain ⟨hcount, hkey, hbson, hbytes⟩ := own_limits usingAutoEncryption
  generalize Limits.new none none usingAutoEncryption = own at hcount hkey hbson hbytes
  have hlow : 2097152 ≤ own.maxBatchSizeBytes := by
    rw [hbytes]
    cases usingAutoEncryption <;> decide
  have hhigh : own.maxBatchSizeBytes ≤ 16777216 := by
    rw [hbytes]
    cases usingAutoEncryption <;> decide
  have hgathered : Gathered sizes own isOrdered (run sizes own isOrdered (deleteCalls (filling own.maxBatchSizeBytes))).1
      (filling own.maxBatchSizeBytes) := by
    refine run_gathered (fun n hn => ⟨n, rfl, ?_, rfl⟩) ?_ ?_
    · rw [hbson]
      rcases List.mem_append.1 hn with hn | hn
      · rw [List.eq_of_mem_replicate hn]
        decide
      · rw [List.mem_singleton.1 hn]
        omega
    · rw [length_filling, hcount]
      decide
    · have heq := bytes_eq sizes own { batchType := .delete, originalZeroIndex := 0,
                                       operations := filling own.maxBatchSizeBytes }
      unfold Batch.bytes at heq
      rw [heq, length_filling, sum_filling hlow, hkey]
      omega
  obtain ⟨b, hb, hops⟩ := hgathered.sentBatches (List.append_ne_nil_of_right_ne_nil _ (List.cons_ne_nil _ _))
  refine ⟨deleteCalls (filling own.maxBatchSizeBytes), b, by rw [hb]; exact List.mem_singleton_self b, ?_, ?_⟩
  · rw [hops, length_filling]
  · rw [hops, sum_filling hlow]

/-- A bulk keeps to its own limits, which are the defaults whatever the servers reported; it keeps to the limits that
a server reported exactly when they leave room for the largest batches it sends. -/
theorem batch_limits_iff (description : Sdam.TopologyDescription) (usingAutoEncryption isOrdered : Bool)
    (maxBsonObjectSize maxWriteBatchSize : Option Nat) :
    AlwaysWithin (BulkOperationBase.limits description usingAutoEncryption)
        (BulkOperationBase.limits description usingAutoEncryption) isOrdered ∧
      (AlwaysWithin (BulkOperationBase.limits description usingAutoEncryption)
          (Limits.new maxBsonObjectSize maxWriteBatchSize usingAutoEncryption) isOrdered ↔
        (Limits.new maxBsonObjectSize maxWriteBatchSize usingAutoEncryption).Roomy
          (BulkOperationBase.limits description usingAutoEncryption)) := by
  rw [limits_eq]
  obtain ⟨hcount, hkey, -, hbytes⟩ := own_limits usingAutoEncryption
  have hmax : 1 < (Limits.new none none usingAutoEncryption).maxWriteBatchSize := by
    rw [hcount]
    decide
  refine ⟨fun δ ι docs calls hlate b hb => ?_, fun h => ?_, fun h δ ι docs calls hlate b hb => ?_⟩
  · obtain ⟨hfits, haligned, htyped⟩ := sentBatches_fit hmax hlate b hb
    exact ⟨⟨hfits.nonempty, hfits.count.le, hfits.bytes⟩, haligned, htyped⟩
  · -- the full batch is within the limits
    obtain ⟨calls, b, hb, hlength, hsum⟩ := exists_full_batch usingAutoEncryption isOrdered
    obtain ⟨-, hmost, hwithin⟩ := (h Nat Unit sizes calls (sizes_not_late ..) b hb).within
    refine ⟨by omega, ?_⟩
    rcases hwithin with hone | hwithin
    · omega
    · rw [bytes_eq, hlength, hsum] at hwithin
      have hlow : 2097152 ≤ (Limits.new none none usingAutoEncryption).maxBatchSizeBytes := by
        rw [hbytes]
        cases usingAutoEncryption <;> decide
      omega
  · obtain ⟨hfits, haligned, htyped⟩ := sentBatches_fit hmax hlate b hb
    exact ⟨hfits.within hcount hkey h (key_of_limit h.count), haligned, htyped⟩

/-- A topology of one standalone server. -/
private def standalone : Sdam.TopologyDescription :=
  .new .single (OrderedMap.empty.set "localhost:27017" { address := "localhost:27017", type := .standalone })
    none none none none {}

/-- The limit of operations that servers used to report is kept. -/
theorem thousand_at_a_time :
    AlwaysWithin (BulkOperationBase.limits standalone false) (Limits.new (some 16777216) (some 1000) false) true :=
  (batch_limits_iff standalone false true (some 16777216) (some 1000)).2.2 ⟨by decide, by decide⟩

/-- A server that takes two operations at a time is sent three in one batch. -/
theorem two_at_a_time :
    (sentBatches true (run sizes (BulkOperationBase.limits standalone false) true
        [⟨.insert, 10⟩, ⟨.insert, 20⟩, ⟨.insert, 30⟩]).1).map (·.operations) = [[10, 20, 30]] ∧
      ¬ AlwaysWithin (BulkOperationBase.limits standalone false) (Limits.new none (some 2) false) true := by
  have hsent : (sentBatches true (run sizes (BulkOperationBase.limits standalone false) true
      [⟨.insert, 10⟩, ⟨.insert, 20⟩, ⟨.insert, 30⟩]).1).map (·.operations) = [[10, 20, 30]] := by decide
  refine ⟨hsent, fun h => ?_⟩
  have hmem : [10, 20, 30] ∈ (sentBatches true (run sizes (BulkOperationBase.limits standalone false) true
      [⟨.insert, 10⟩, ⟨.insert, 20⟩, ⟨.insert, 30⟩]).1).map (·.operations) := by
    rw [hsent]
    exact List.mem_singleton_self _
  obtain ⟨b, hb, hops⟩ := List.mem_map.1 hmem
  have hcount := (h Nat Unit sizes _ (sizes_not_late ..) b hb).within.count
  rw [hops] at hcount
  exact absurd hcount (by decide)

end Reported

end MongoDriver.Bulk
