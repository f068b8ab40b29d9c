/-
Bulk batching loses and duplicates nothing, over every sequence of calls of `addToOperationsList`.
While an operation is added, the batches of the bulk are the saved ones, the current ones of the other
types and the current batch; cutting a batch and pushing an operation keep the ledger of these. The one
exception is an array document: it is rejected after the batch was cut.
-/
import MongoDriver.Base.Run
import MongoDriver.Bulk.Ledger

namespace MongoDriver.Bulk

open Heap (deref)

variable {δ ι : Type} {isOrdered : Bool}

/-! ## The batches of a bulk -/

namespace BulkOperationPrivate

variable (isOrdered : Bool) (batchType : BatchType) (s : BulkOperationPrivate δ ι)

/-- The batches that `execute` would send now. -/
def refs : List Nat := s.batches ++ currentBatches isOrdered s

/-- The current batches of the other types. -/
def others : List Nat :=
  if isOrdered then []
  else
    match batchType with
    | .insert => s.currentUpdateBatch.toList ++ s.currentRemoveBatch.toList
    | .update => s.currentInsertBatch.toList ++ s.currentRemoveBatch.toList
    | .delete => s.currentInsertBatch.toList ++ s.currentUpdateBatch.toList

/-- The batches while an operation of the type is added, the current batch last. -/
def live : List Nat := s.batches ++ s.others isOrdered batchType ++ s.currentBatch.toList

end BulkOperationPrivate

section Refs

variable (s : BulkOperationPrivate δ ι) (batchType : BatchType)

/-- The current batch of a type among the current batches. -/
theorem currentBatches_perm : (s.others false batchType ++ (s.batchOf batchType).toList).Perm
    (currentBatches false s) := by
  cases batchType with
  | insert =>
    show (s.currentUpdateBatch.toList ++ s.currentRemoveBatch.toList ++ s.currentInsertBatch.toList).Perm
      (s.currentInsertBatch.toList ++ s.currentUpdateBatch.toList ++ s.currentRemoveBatch.toList)
    rw [List.append_assoc s.currentInsertBatch.toList]
    exact List.perm_append_comm
  | update =>
    show (s.currentInsertBatch.toList ++ s.currentRemoveBatch.toList ++ s.currentUpdateBatch.toList).Perm
      (s.currentInsertBatch.toList ++ s.currentUpdateBatch.toList ++ s.currentRemoveBatch.toList)
    rw [List.append_assoc, List.append_assoc]
    exact List.perm_append_comm.append_left _
  | delete => exact .refl _

/-- In an unordered bulk, once the current batch is the one of the type. -/
theorem live_refs (h : s.currentBatch = s.batchOf batchType) :
    Rearranged false (s.live false batchType) (s.refs false) := by
  refine ⟨?_, nofun⟩
  unfold BulkOperationPrivate.live BulkOperationPrivate.refs
  rw [h, List.append_assoc]
  exact (currentBatches_perm s batchType).append_left _

/-- Cutting the current batch. -/
theorem live_newBatch (isOrdered : Bool) : Rearranged isOrdered (s.live isOrdered batchType ++ [s.heap.length])
    ((s.saveBatch.newBatch batchType).live isOrdered batchType) := by
  have hlive : (s.saveBatch.newBatch batchType).live isOrdered batchType =
      s.batches ++ s.currentBatch.toList ++ s.others isOrdered batchType ++ [s.heap.length] := rfl
  rw [hlive]
  unfold BulkOperationPrivate.live
  refine ⟨?_, fun ho => ?_⟩
  · refine List.Perm.append_right _ ?_
    rw [List.append_assoc, List.append_assoc]
    exact List.perm_append_comm.append_left _
  · subst ho
    simp [BulkOperationPrivate.others]

end Refs

/-! ## Cutting a batch and adding an operation -/

/-- While an operation of the type is added, the batches hold the accepted operations. -/
structure Adding (isOrdered : Bool) (batchType : BatchType) (s : BulkOperationPrivate δ ι)
    (accepted : List (BatchType × δ)) : Prop where
  held : Held isOrdered s.heap (s.live isOrdered batchType) accepted
  index : s.currentIndex = accepted.length
  notExecuted : s.executed = false

/-- Between calls, the batches hold the accepted operations. -/
structure Balanced (isOrdered : Bool) (s : BulkOperationPrivate δ ι) (accepted : List (BatchType × δ)) : Prop where
  held : Held isOrdered s.heap (s.refs isOrdered) accepted
  index : s.currentIndex = accepted.length
  notExecuted : s.executed = false

theorem balanced_init : Balanced isOrdered ({} : BulkOperationPrivate δ ι) [] := by
  refine ⟨⟨⟨?_, ?_⟩, ?_⟩, rfl, rfl⟩ <;> cases isOrdered
  · exact List.nodup_nil
  · exact List.nodup_nil
  · exact nofun
  · exact nofun
  · exact Ledger.nil
  · exact Ledger.nil

section Steps

variable {s : BulkOperationPrivate δ ι} {batchType : BatchType} {accepted : List (BatchType × δ)}

namespace Adding

theorem newBatch (h : Adding isOrdered batchType s accepted) :
    Adding isOrdered batchType (s.saveBatch.newBatch batchType) accepted :=
  ⟨(h.held.alloc batchType s.currentIndex).rearrange (live_newBatch s batchType isOrdered), h.index, h.notExecuted⟩

theorem ensureBatch (h : Adding isOrdered batchType s accepted) :
    Adding isOrdered batchType (s.ensureBatch batchType) accepted := by
  unfold BulkOperationPrivate.ensureBatch
  split
  · rename_i hnone
    have hcur : s.currentBatch = none := by simpa using hnone
    have hkept : s.batches ++ s.currentBatch.toList = s.batches := by simp [hcur]
    have hsave : s.saveBatch = s := by unfold BulkOperationPrivate.saveBatch; rw [hkept]
    have hnew := h.newBatch
    rwa [hsave] at hnew
  · exact h

/-- The current batch exists. -/
theorem current {r : Nat} (h : Adding isOrdered batchType s accepted) (hr : s.currentBatch = some r) :
    Held isOrdered s.heap (s.batches ++ s.others isOrdered batchType ++ [r]) accepted ∧ ∃ b, s.heap[r]? = some b := by
  have hheld := h.held
  unfold BulkOperationPrivate.live at hheld
  rw [hr] at hheld
  exact ⟨hheld, hheld.distinct.last.2⟩

end Adding

/-- The current batch after it was made ready: there is one, and it has the type of the operation. -/
def Ready (s : BulkOperationPrivate δ ι) (batchType : BatchType) : Prop :=
  ∃ r b, s.currentBatch = some r ∧ s.heap[r]? = some b ∧ b.batchType = batchType

theorem ready_newBatch (s : BulkOperationPrivate δ ι) (batchType : BatchType) :
    Ready (s.newBatch batchType) batchType :=
  ⟨s.heap.length, { batchType, originalZeroIndex := s.currentIndex }, rfl, by simp [BulkOperationPrivate.newBatch], rfl⟩

/-- A batch that is not cut has the type of the operation. -/
theorem ready_of_kept {size sizeBytes : Batch δ → Nat} {limits : Limits} {bsonSize r : Nat} {b : Batch δ}
    (hr : s.currentBatch = some r) (hb : s.heap[r]? = some b)
    (h : (s.current.any fun b =>
      needsNewBatch limits (size b) (sizeBytes b) bsonSize b.batchType batchType) = false) : Ready s batchType := by
  refine ⟨r, b, hr, hb, ?_⟩
  have hcur : s.current = some b := by simp [BulkOperationPrivate.current, hr, hb]
  rw [hcur, Option.any_some] at h
  simp only [needsNewBatch, Bool.or_eq_false_iff, decide_eq_false_iff_not, not_not] at h
  exact h.2

theorem ensureBatch_currentBatch (s : BulkOperationPrivate δ ι) (batchType : BatchType) :
    ∃ r, (s.ensureBatch batchType).currentBatch = some r := by
  unfold BulkOperationPrivate.ensureBatch
  split
  · exact ⟨_, rfl⟩
  · rename_i hsome
    exact Option.ne_none_iff_exists'.1 (by simpa using hsome)

/-- An operation joins the current batch. -/
theorem Adding.push {document : δ} (f : Batch δ → Batch δ) (h : Adding isOrdered batchType s accepted)
    (hr : Ready s batchType) (ht : ∀ b, (f b).batchType = b.batchType)
    (ho : ∀ b, (f b).operations = b.operations ++ [document])
    (hi : ∀ b, (f b).originalIndexes = b.originalIndexes ++ [s.currentIndex]) :
    Held isOrdered (s.modifyCurrent f).heap (s.live isOrdered batchType) (accepted ++ [(batchType, document)]) := by
  obtain ⟨r, b, hcur, hb, rfl⟩ := hr
  have hheld := (h.current hcur).1
  have hmod : (s.modifyCurrent f).heap = s.heap.modify r f := by simp [BulkOperationPrivate.modifyCurrent, hcur]
  unfold BulkOperationPrivate.live
  rw [hmod, hcur]
  exact hheld.push f hb (ht b) (ho b) (by rw [hi, h.index])

end Steps

/-! ## A call -/

section Calls

variable {docs : Documents δ ι} {limits : Limits} {s : BulkOperationPrivate δ ι} {call : Call δ}
  {accepted : List (BatchType × δ)}

/-- The document of the call has a size, and a small enough one. -/
def Passes (docs : Documents δ ι) (limits : Limits) (call : Call δ) (bsonSize : Nat) : Prop :=
  docs.calculateObjectSize call.document = .ok bsonSize ∧ bsonSize < limits.maxBsonObjectSize

namespace OrderedBulkOperation

theorem prepare_adding (limits : Limits) (call : Call δ) (n : Nat) (h : Adding true call.batchType s accepted) :
    Adding true call.batchType (prepare limits s call.batchType n) accepted ∧
      Ready (prepare limits s call.batchType n) call.batchType := by
  unfold prepare
  have hens := h.ensureBatch
  obtain ⟨r, hr⟩ := ensureBatch_currentBatch s call.batchType
  simp only
  split
  · have hnew := hens.newBatch
    exact ⟨⟨hnew.held, hnew.index, hnew.notExecuted⟩, ready_newBatch _ _⟩
  · rename_i hkept
    obtain ⟨b, hb⟩ := (hens.current hr).2
    exact ⟨hens, ready_of_kept hr hb (by simpa [startsNewBatch] using hkept)⟩

theorem recordId_adding (h : Adding true call.batchType s accepted) :
    Adding true call.batchType (recordId docs s call) accepted := by
  unfold recordId
  split
  · exact ⟨h.held, h.index, h.notExecuted⟩
  · exact h

theorem recordId_ready {batchType : BatchType} (h : Ready s batchType) : Ready (recordId docs s call) batchType := by
  unfold recordId
  split
  · exact h
  · exact h

theorem live_eq_refs (s : BulkOperationPrivate δ ι) (batchType : BatchType) : s.live true batchType = s.refs true := by
  simp [BulkOperationPrivate.live, BulkOperationPrivate.refs, BulkOperationPrivate.others, currentBatches]

theorem adding_iff {batchType : BatchType} : Adding true batchType s accepted ↔ Balanced true s accepted := by
  constructor
  · rintro ⟨hheld, hindex, hexec⟩
    rw [live_eq_refs] at hheld
    exact ⟨hheld, hindex, hexec⟩
  · rintro ⟨hheld, hindex, hexec⟩
    rw [← live_eq_refs s batchType] at hheld
    exact ⟨hheld, hindex, hexec⟩

/-- An ordered bulk when the array check is made. -/
theorem checked_adding (docs : Documents δ ι) (limits : Limits) (call : Call δ) (n : Nat)
    (h : Balanced true s accepted) :
    Adding true call.batchType (recordId docs (prepare limits s call.batchType n) call) accepted ∧
      Ready (recordId docs (prepare limits s call.batchType n) call) call.batchType := by
  obtain ⟨hadd, hready⟩ := prepare_adding limits call n (adding_iff.2 h)
  exact ⟨recordId_adding hadd, recordId_ready hready⟩

theorem push_balanced {n : Nat} (h : Adding true call.batchType s accepted) (hr : Ready s call.batchType) :
    Balanced true (push limits s call.document n) (accepted ++ [(call.batchType, call.document)]) := by
  have hheld := h.push (fun b => { b with
    originalIndexes := b.originalIndexes ++ [s.currentIndex], operations := b.operations ++ [call.document] }) hr
    (fun _ => rfl) (fun _ => rfl) (fun _ => rfl)
  obtain ⟨r, b, hcur, -, -⟩ := hr
  have hmod : ∀ f, s.modifyCurrent f = { s with heap := s.heap.modify r f } := fun f => by
    simp [BulkOperationPrivate.modifyCurrent, hcur]
  rw [hmod] at hheld
  unfold push
  simp only [hmod]
  refine ⟨?_, by simp [h.index], h.notExecuted⟩
  rw [← live_eq_refs _ call.batchType]
  exact hheld

end OrderedBulkOperation

namespace UnorderedBulkOperation

theorem prepare_adding (limits : Limits) (call : Call δ) (n : Nat) (h : Balanced false s accepted) :
    Adding false call.batchType (prepare limits s call.batchType n) accepted ∧
      Ready (prepare limits s call.batchType n) call.batchType := by
  unfold prepare
  have hlive := live_refs { s with currentBatch := s.batchOf call.batchType } call.batchType
    (by cases call.batchType <;> rfl)
  have hadd : Adding false call.batchType { s with currentBatch := s.batchOf call.batchType } accepted :=
    ⟨h.held.rearrange ⟨hlive.perm.symm, nofun⟩, h.index, h.notExecuted⟩
  have hens := hadd.ensureBatch
  obtain ⟨r, hr⟩ := ensureBatch_currentBatch { s with currentBatch := s.batchOf call.batchType } call.batchType
  simp only
  split
  · exact ⟨hens.newBatch, ready_newBatch _ _⟩
  · rename_i hkept
    obtain ⟨b, hb⟩ := (hens.current hr).2
    exact ⟨hens, ready_of_kept hr hb (by simpa [startsNewBatch] using hkept)⟩

/-- What a push leaves: the current batch is changed, becomes the one of its type, and is still among
the same batches. -/
theorem push_fields (docs : Documents δ ι) (limits : Limits) (call : Call δ) {r : Nat} (n : Nat)
    (hcur : s.currentBatch = some r) :
    (push docs limits s call n).heap =
        (s.heap.modify r fun b => { b with
          operations := b.operations ++ [call.document]
          originalIndexes := b.originalIndexes ++ [s.currentIndex] }).modify r
        (fun b => { b with size := b.size + 1, sizeBytes := b.sizeBytes + (limits.maxKeySize + n) }) ∧
      (push docs limits s call n).live false call.batchType = s.live false call.batchType ∧
      (push docs limits s call n).currentBatch = (push docs limits s call n).batchOf call.batchType ∧
      (push docs limits s call n).currentIndex = s.currentIndex + 1 ∧
      (push docs limits s call n).executed = s.executed := by
  obtain ⟨heap, currentBatch, _, _, _, _, _, _, _, _, _⟩ := s
  cases hcur
  obtain ⟨batchType, document⟩ := call
  cases batchType <;> exact ⟨rfl, rfl, rfl, rfl, rfl⟩

theorem push_balanced {n : Nat} (h : Adding false call.batchType s accepted) (hr : Ready s call.batchType) :
    Balanced false (push docs limits s call n) (accepted ++ [(call.batchType, call.document)]) := by
  have hheld := h.push (fun b => { b with
    operations := b.operations ++ [call.document], originalIndexes := b.originalIndexes ++ [s.currentIndex] }) hr
    (fun _ => rfl) (fun _ => rfl) (fun _ => rfl)
  obtain ⟨r, b, hcur, -, -⟩ := hr
  obtain ⟨hheap, hlive, hbatch, hindex, hexec⟩ := push_fields docs limits call n hcur
  have hmod : ∀ f, (s.modifyCurrent f).heap = s.heap.modify r f := fun f => by
    simp [BulkOperationPrivate.modifyCurrent, hcur]
  have hlast : s.live false call.batchType = s.batches ++ s.others false call.batchType ++ [r] := by
    unfold BulkOperationPrivate.live; rw [hcur]; rfl
  rw [hmod, hlast] at hheld
  refine ⟨?_, by rw [hindex, h.index]; simp, hexec.trans h.notExecuted⟩
  refine Held.rearrange ?_ (live_refs _ call.batchType hbatch)
  rw [hheap, hlive, hlast]
  exact hheld.touch _ (fun _ => rfl) (fun _ => rfl) (fun _ => rfl)

end UnorderedBulkOperation

/-! ## How a call ends -/

/-- The state in which an array is rejected. -/
def prepared (docs : Documents δ ι) (limits : Limits) (isOrdered : Bool) (s : BulkOperationPrivate δ ι) (call : Call δ)
    (bsonSize : Nat) : BulkOperationPrivate δ ι :=
  if isOrdered then
    OrderedBulkOperation.recordId docs (OrderedBulkOperation.prepare limits s call.batchType bsonSize) call
  else UnorderedBulkOperation.prepare limits s call.batchType bsonSize

/-- The state after an operation was accepted. -/
def pushed (docs : Documents δ ι) (limits : Limits) (isOrdered : Bool) (s : BulkOperationPrivate δ ι) (call : Call δ)
    (bsonSize : Nat) : BulkOperationPrivate δ ι :=
  if isOrdered then
    OrderedBulkOperation.push limits (prepared docs limits isOrdered s call bsonSize) call.document bsonSize
  else UnorderedBulkOperation.push docs limits (prepared docs limits isOrdered s call bsonSize) call bsonSize

theorem addToOperationsList_eq (docs : Documents δ ι) (limits : Limits) (isOrdered : Bool)
    (s : BulkOperationPrivate δ ι) (call : Call δ) :
    addToOperationsList docs limits isOrdered s call =
      match docs.calculateObjectSize call.document with
      | .error e => (s, some e)
      | .ok n =>
        if n ≥ limits.maxBsonObjectSize then (s, some (documentTooLarge limits))
        else if docs.isArray call.document then (prepared docs limits isOrdered s call n, some arrayPassedIn)
        else (pushed docs limits isOrdered s call n, none) := by
  cases isOrdered <;> rfl

/-- The three ways a call can end. -/
theorem addToOperationsList_cases (docs : Documents δ ι) (limits : Limits) (isOrdered : Bool)
    (s : BulkOperationPrivate δ ι) (call : Call δ) :
    ((¬ ∃ n, Passes docs limits call n) ∧ ∃ e, addToOperationsList docs limits isOrdered s call = (s, some e)) ∨
      ∃ n, Passes docs limits call n ∧
        ((docs.isArray call.document = true ∧ addToOperationsList docs limits isOrdered s call =
            (prepared docs limits isOrdered s call n, some arrayPassedIn)) ∨
          (docs.isArray call.document = false ∧ addToOperationsList docs limits isOrdered s call =
            (pushed docs limits isOrdered s call n, none))) := by
  rw [addToOperationsList_eq]
  unfold Passes
  cases hsize : docs.calculateObjectSize call.document with
  | error e => exact .inl ⟨by simp, e, rfl⟩
  | ok n =>
    by_cases hmax : n ≥ limits.maxBsonObjectSize
    · refine .inl ⟨?_, _, if_pos hmax⟩
      rintro ⟨m, hm, hlt⟩
      cases hm
      omega
    · refine .inr ⟨n, ⟨rfl, by omega⟩, ?_⟩
      simp only [if_neg hmax]
      cases harr : docs.isArray call.document with
      | true => exact .inl ⟨rfl, if_pos rfl⟩
      | false => exact .inr ⟨rfl, if_neg (by simp)⟩

/-- Making the current batch ready changes the bulk. -/
def Touches (limits : Limits) (isOrdered : Bool) (s : BulkOperationPrivate δ ι) (batchType : BatchType)
    (bsonSize : Nat) : Prop :=
  if isOrdered then
    batchType = .insert ∨ s.currentBatch = none ∨ OrderedBulkOperation.startsNewBatch limits s batchType bsonSize = true
  else
    s.batchOf batchType = none ∨ s.currentBatch ≠ s.batchOf batchType ∨
      UnorderedBulkOperation.startsNewBatch limits { s with currentBatch := s.batchOf batchType }
        batchType bsonSize = true

/-- A bulk that has got a new batch, or recorded an `_id`, is another one. -/
theorem ne_of_heap_lt {t : BulkOperationPrivate δ ι} (h : s.heap.length < t.heap.length) : t ≠ s := by
  rintro rfl
  exact Nat.lt_irrefl _ h

theorem ensureBatch_some (batchType : BatchType) (h : s.currentBatch ≠ none) : s.ensureBatch batchType = s := by
  unfold BulkOperationPrivate.ensureBatch
  rw [if_neg (by simpa using h)]

theorem ensureBatch_none (batchType : BatchType) (h : s.currentBatch = none) :
    (s.ensureBatch batchType).heap.length = s.heap.length + 1 := by
  unfold BulkOperationPrivate.ensureBatch
  rw [if_pos (by simpa using h)]
  simp [BulkOperationPrivate.newBatch]

theorem prepare_insertedIds (batchType : BatchType) (n : Nat) :
    (OrderedBulkOperation.prepare limits s batchType n).insertedIds = s.insertedIds := by
  unfold OrderedBulkOperation.prepare BulkOperationPrivate.ensureBatch
  simp only
  split <;> split <;> rfl

theorem prepared_ordered_iff (n : Nat) :
    prepared docs limits true s call n = s ↔ ¬ Touches limits true s call.batchType n := by
  show OrderedBulkOperation.recordId docs (OrderedBulkOperation.prepare limits s call.batchType n) call = s ↔
    ¬ (call.batchType = .insert ∨ s.currentBatch = none ∨
      OrderedBulkOperation.startsNewBatch limits s call.batchType n = true)
  -- an insert has recorded its `_id`
  by_cases hins : call.batchType = .insert
  · refine iff_of_false (fun h => ?_) (by simp [hins])
    have hlen := congrArg (·.insertedIds.length) h
    simp [OrderedBulkOperation.recordId, hins, prepare_insertedIds] at hlen
  have hrec : ∀ t : BulkOperationPrivate δ ι, OrderedBulkOperation.recordId docs t call = t := fun t => if_neg hins
  rw [hrec]
  unfold OrderedBulkOperation.prepare
  simp only
  by_cases hnone : s.currentBatch = none
  · refine iff_of_false (ne_of_heap_lt ?_) (by simp [hnone])
    have hlen := ensureBatch_none call.batchType hnone
    split
    · simp only [OrderedBulkOperation.cutBatch, BulkOperationPrivate.newBatch, BulkOperationPrivate.saveBatch,
        List.length_append, hlen]
      omega
    · omega
  rw [ensureBatch_some _ hnone]
  by_cases hcut : OrderedBulkOperation.startsNewBatch limits s call.batchType n = true
  · rw [if_pos hcut]
    refine iff_of_false (ne_of_heap_lt ?_) (by simp [hcut])
    simp [OrderedBulkOperation.cutBatch, BulkOperationPrivate.newBatch, BulkOperationPrivate.saveBatch]
  · rw [if_neg hcut]
    exact iff_of_true rfl (by simp [hins, hnone, hcut])

theorem prepared_unordered_iff (n : Nat) :
    prepared docs limits false s call n = s ↔ ¬ Touches limits false s call.batchType n := by
  show UnorderedBulkOperation.prepare limits s call.batchType n = s ↔
    ¬ (s.batchOf call.batchType = none ∨ s.currentBatch ≠ s.batchOf call.batchType ∨
      UnorderedBulkOperation.startsNewBatch limits { s with currentBatch := s.batchOf call.batchType } call.batchType n
        = true)
  unfold UnorderedBulkOperation.prepare
  generalize hs₁ : { s with currentBatch := s.batchOf call.batchType } = s₁
  have hheap : s₁.heap = s.heap := by rw [← hs₁]
  have hcur : s₁.currentBatch = s.batchOf call.batchType := by rw [← hs₁]
  simp only
  -- a first batch and a cut batch are new on the heap
  by_cases hnone : s.batchOf call.batchType = none
  · refine iff_of_false (ne_of_heap_lt ?_) (by simp [hnone])
    have hlen := ensureBatch_none call.batchType (hcur.trans hnone)
    split
    · simp only [BulkOperationPrivate.newBatch, BulkOperationPrivate.saveBatch, List.length_append, hlen, hheap]
      omega
    · rw [hheap] at hlen; omega
  rw [ensureBatch_some _ (by rw [hcur]; exact hnone)]
  by_cases hcut : UnorderedBulkOperation.startsNewBatch limits s₁ call.batchType n = true
  · rw [if_pos hcut]
    refine iff_of_false (ne_of_heap_lt ?_) (by simp [hcut])
    simp [BulkOperationPrivate.newBatch, BulkOperationPrivate.saveBatch, hheap]
  · -- nothing is created, and only the current batch may have moved
    rw [if_neg hcut]
    constructor
    · intro h
      rw [h] at hcur
      simp [hnone, hcut, hcur]
    · intro h
      have hsame : s.currentBatch = s.batchOf call.batchType := by
        by_contra hne
        exact h (.inr (.inl hne))
      rw [← hs₁, ← hsame]

theorem pushed_balanced {n : Nat} (h : Balanced isOrdered s accepted) :
    Balanced isOrdered (pushed docs limits isOrdered s call n) (accepted ++ [(call.batchType, call.document)]) := by
  unfold pushed prepared
  cases isOrdered with
  | true =>
    obtain ⟨hadd, hready⟩ := OrderedBulkOperation.checked_adding docs limits call n h
    exact OrderedBulkOperation.push_balanced hadd hready
  | false =>
    obtain ⟨hadd, hready⟩ := UnorderedBulkOperation.prepare_adding limits call n h
    exact UnorderedBulkOperation.push_balanced hadd hready

end Calls

/-! ## Runs -/

section Runs

variable (docs : Documents δ ι) (limits : Limits) (isOrdered : Bool)

/-- A call, on a bulk with the operations it accepted so far. -/
def step (b : BulkOperationPrivate δ ι × List (BatchType × δ)) (call : Call δ) :
    BulkOperationPrivate δ ι × List (BatchType × δ) :=
  let out := addToOperationsList docs limits isOrdered b.1 call
  (out.1, if out.2.isNone then b.2 ++ [(call.batchType, call.document)] else b.2)

/-- The bulk after a list of calls, with the operations it accepted. -/
def run (calls : List (Call δ)) : BulkOperationPrivate δ ι × List (BatchType × δ) :=
  calls.foldl (step docs limits isOrdered) ({}, [])

/-- The batches that `execute` sends. -/
def sentBatches (s : BulkOperationPrivate δ ι) : List (Batch δ) :=
  match (execute isOrdered s).2 with
  | .ok batches => batches
  | .error _ => []

/-- The condition `C` on the bulk before the call holds at every call. -/
def AtEveryCall (C : BulkOperationPrivate δ ι → Call δ → Prop) (calls : List (Call δ)) : Prop :=
  Run.Meets (fun b call => some (step docs limits isOrdered b call)) (fun b call => C b.1 call) ({}, []) calls

/-- Nothing is lost or duplicated: the batches that `execute` sends hold the accepted operations, and
a call that throws leaves the bulk as it was. -/
structure Lossless (calls : List (Call δ)) : Prop where
  ledger : Ledger isOrdered (sentBatches isOrdered (run docs limits isOrdered calls).1)
    (run docs limits isOrdered calls).2
  unchanged : AtEveryCall docs limits isOrdered
    (fun s call => (addToOperationsList docs limits isOrdered s call).2.isSome →
      (addToOperationsList docs limits isOrdered s call).1 = s) calls

/-- An array that passes the size check is rejected after the bulk was changed. -/
def LateArray (s : BulkOperationPrivate δ ι) (call : Call δ) : Prop :=
  docs.isArray call.document = true ∧ ∃ n, Passes docs limits call n ∧ Touches limits isOrdered s call.batchType n

theorem prepared_eq_iff (s : BulkOperationPrivate δ ι) (call : Call δ) (n : Nat) :
    prepared docs limits isOrdered s call n = s ↔ ¬ Touches limits isOrdered s call.batchType n := by
  cases isOrdered with
  | true => exact prepared_ordered_iff n
  | false => exact prepared_unordered_iff n

/-- A call that throws leaves the bulk as it was, unless it is a late array. -/
theorem unchanged_iff (s : BulkOperationPrivate δ ι) (call : Call δ) :
    ((addToOperationsList docs limits isOrdered s call).2.isSome →
        (addToOperationsList docs limits isOrdered s call).1 = s) ↔ ¬ LateArray docs limits isOrdered s call := by
  unfold LateArray
  rcases addToOperationsList_cases docs limits isOrdered s
    call with ⟨hno, e, hadd⟩ | ⟨n, hn, ⟨harr, hadd⟩ | ⟨harr, hadd⟩⟩
  · rw [hadd]
    refine iff_of_true (fun _ => rfl) ?_
    rintro ⟨-, n, hn, -⟩
    exact hno ⟨n, hn⟩
  · -- the array is thrown in the prepared state
    rw [hadd]
    simp only [Option.isSome_some, true_imp_iff]
    rw [prepared_eq_iff]
    refine not_congr ⟨fun ht => ⟨harr, n, hn, ht⟩, ?_⟩
    rintro ⟨-, m, hm, ht⟩
    obtain rfl : n = m := Except.ok.inj (hn.1.symm.trans hm.1)
    exact ht
  · rw [hadd]
    refine iff_of_true nofun ?_
    rintro ⟨harr', -⟩
    rw [harr] at harr'; cases harr'

variable {docs limits isOrdered}

/-- A call keeps the balance when the state in which it rejects an array is balanced. -/
theorem step_balanced {b : BulkOperationPrivate δ ι × List (BatchType × δ)} {call : Call δ}
    (h : Balanced isOrdered b.1 b.2)
    (hp : ∀ n, docs.isArray call.document = true → Passes docs limits call n →
      Balanced isOrdered (prepared docs limits isOrdered b.1 call n) b.2) :
    Balanced isOrdered (step docs limits isOrdered b call).1 (step docs limits isOrdered b call).2 := by
  unfold step
  rcases addToOperationsList_cases docs limits isOrdered b.1 call with
    ⟨-, e, hadd⟩ | ⟨n, hn, ⟨harr, hadd⟩ | ⟨-, hadd⟩⟩
  · rw [hadd]
    exact h
  · rw [hadd]
    exact hp n harr hn
  · rw [hadd]
    exact pushed_balanced h

theorem sentBatches_eq {s : BulkOperationPrivate δ ι} (h : s.executed = false) :
    sentBatches isOrdered s = deref s.heap (s.refs isOrdered) := by
  unfold sentBatches execute
  rw [if_neg (by simp [h])]
  simp only
  split
  · rename_i heq
    split at heq
    · cases heq
    · cases heq; rfl
  · rename_i heq
    split at heq
    · rename_i hempty
      have hnil : s.refs isOrdered = [] := List.isEmpty_iff.1 hempty
      rw [hnil]
      rfl
    · cases heq

/-- A run whose calls keep the balance. -/
theorem run_ledger {C : BulkOperationPrivate δ ι → Call δ → Prop} {calls : List (Call δ)}
    (hstep : ∀ b call, Balanced isOrdered b.1 b.2 → C b.1 call →
      Balanced isOrdered (step docs limits isOrdered b call).1 (step docs limits isOrdered b call).2)
    (hmeets : AtEveryCall docs limits isOrdered C calls) :
    Ledger isOrdered (sentBatches isOrdered (run docs limits isOrdered calls).1)
      (run docs limits isOrdered calls).2 := by
  have hbal : Balanced isOrdered (run docs limits isOrdered calls).1 (run docs limits isOrdered calls).2 :=
    Run.exec_inv_meets _ (P := fun b => Balanced isOrdered b.1 b.2)
      (fun b call t h hc ht => by cases ht; exact hstep b call h hc) balanced_init hmeets
      (Run.exec_total (step docs limits isOrdered) calls ({}, []))
  rw [sentBatches_eq hbal.notExecuted]
  exact hbal.held.ledger

/-- An ordered bulk sends the accepted operations once and in order, whatever is rejected: a late
array only begins a batch and records an `_id`. -/
theorem ordered_ledger (docs : Documents δ ι) (limits : Limits) (calls : List (Call δ)) :
    Ledger true (sentBatches true (run docs limits true calls).1) (run docs limits true calls).2 := by
  refine run_ledger (C := fun _ _ => True) (fun b call h _ => step_balanced h fun n _ _ => ?_) (Run.meets_true _ _ _)
  exact OrderedBulkOperation.adding_iff.1 (OrderedBulkOperation.checked_adding docs limits call n h).1

/-- For every ordered or unordered bulk, its limits and every list of calls: nothing is lost or
duplicated exactly when no call passes an array that is rejected late. -/
theorem lossless_iff (docs : Documents δ ι) (limits : Limits) (isOrdered : Bool) (calls : List (Call δ)) :
    Lossless docs limits isOrdered calls ↔
      AtEveryCall docs limits isOrdered (fun s call => ¬ LateArray docs limits isOrdered s call) calls := by
  have hiff := Run.meets_congr (fun b call => some (step docs limits isOrdered b call))
    (fun b call => unchanged_iff docs limits isOrdered b.1 call) ({}, []) calls
  constructor
  · rintro ⟨-, hun⟩
    exact hiff.1 hun
  · intro hmeets
    refine ⟨run_ledger (fun b call h hc => step_balanced h fun n harr hn => ?_) hmeets, hiff.2 hmeets⟩
    have hsame : prepared docs limits isOrdered b.1 call n = b.1 :=
      (prepared_eq_iff docs limits isOrdered b.1 call n).2 fun ht => hc ⟨harr, n, hn, ht⟩
    rw [hsame]
    exact h

end Runs

/-! ## An array after a large document -/

section Failing

/-- A document by what is asked of it. -/
private structure Sample where
  isArray : Bool
  size : Nat
  id : Option Nat
deriving DecidableEq

private def samples : Documents Sample Nat where
  calculateObjectSize d := .ok d.size
  isArray d := d.isArray
  id d := d.id
  withId d id := { d with id := some id }

/-- A document of ten megabytes, and then an array of eight. -/
private def largeInserts : List (Call Sample) :=
  [insert samples false 7 { isArray := false, size := 10000000, id := some 1 },
    insert samples false 8 { isArray := true, size := 8000000, id := none }]

/-- The limits of every bulk without automatic encryption. -/
private def serverLimits : Limits := Limits.new none none false

/-- The array does not fit the batch, which is saved and stays the current one: an unordered bulk
sends the first document twice. -/
theorem rejected_array_duplicates :
    (sentBatches false (run samples serverLimits false largeInserts).1).map (·.originalIndexes) = [[0], [0]] ∧
      (run samples serverLimits false largeInserts).2.length = 1 ∧
      ¬ Lossless samples serverLimits false largeInserts := by
  refine ⟨by decide, by decide, fun h => ?_⟩
  have hlen := h.ledger.once.length_eq
  revert hlen
  decide

end Failing

end MongoDriver.Bulk
