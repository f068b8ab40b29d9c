/-
The indices of a bulk result (`mergeBatchResults` of `src/bulk/common.ts`). A write error is put under the index that
the batch keeps for its operation, an upserted document under the index of the batch's first operation plus its own in
the batch. The two agree as long as no operation of another type was added in between, which an ordered bulk begins a
new batch for and an unordered one does not. To tell this from the calls, each batch is followed while it grows: its
operations are all those of its type since the batch was begun.
-/
import MongoDriver.Bulk.Execution
import MongoDriver.Bulk.Lossless

namespace MongoDriver.Bulk

variable {δ ι : Type}

/-! ## Where the operations of a batch were added -/

/-- How many of the operations are of the type. -/
def ofType (batchType : BatchType) (operations : List (BatchType × δ)) : Nat :=
  operations.countP fun op => op.1 = batchType

/-- Each operation of the batch is the one added at the position kept for it, and the number of operations of its type
since the batch was begun is its index in the batch. -/
structure Placed (isOrdered : Bool) (accepted : List (BatchType × δ)) (b : Batch δ) : Prop where
  aligned : b.operations.length = b.originalIndexes.length
  place : ∀ i p, b.originalIndexes[i]? = some p → b.originalZeroIndex ≤ p ∧
    ofType b.batchType ((accepted.take p).drop b.originalZeroIndex) = i ∧
    ∃ op, b.operations[i]? = some op ∧ accepted[p]? = some (b.batchType, op)
  together : isOrdered = true → ∀ i p, b.originalIndexes[i]? = some p → p = b.originalZeroIndex + i

/-- A batch that operations of its type still join: it has all of them since it was begun. -/
structure Joined (isOrdered : Bool) (accepted : List (BatchType × δ)) (b : Batch δ) : Prop where
  placed : Placed isOrdered accepted b
  begun : b.originalZeroIndex ≤ accepted.length
  all : ofType b.batchType (accepted.drop b.originalZeroIndex) = b.originalIndexes.length
  last : isOrdered = true → b.originalZeroIndex + b.originalIndexes.length = accepted.length

section Grow

variable {isOrdered : Bool} {accepted : List (BatchType × δ)} {b : Batch δ} {op : BatchType × δ}

theorem Placed.lt {i p : Nat} (h : Placed isOrdered accepted b) (hi : b.originalIndexes[i]? = some p) :
    p < accepted.length := by
  obtain ⟨-, -, op, -, hop⟩ := h.place i p hi
  exact (List.getElem?_eq_some_iff.1 hop).1

/-- Operations that are added later move nothing. -/
theorem Placed.snoc (h : Placed isOrdered accepted b) (op : BatchType × δ) : Placed isOrdered (accepted ++ [op]) b := by
  refine ⟨h.aligned, fun i p hi => ?_, h.together⟩
  have hlt := h.lt hi
  obtain ⟨hzero, hcount, o, ho, hp⟩ := h.place i p hi
  rw [List.take_append_of_le_length hlt.le, List.getElem?_append_left hlt]
  exact ⟨hzero, hcount, o, ho, hp⟩

theorem ofType_snoc (batchType : BatchType) (operations : List (BatchType × δ)) (op : BatchType × δ) :
    ofType batchType (operations ++ [op]) = ofType batchType operations + if op.1 = batchType then 1 else 0 := by
  unfold ofType
  rw [List.countP_append]
  by_cases h : op.1 = batchType
  · simp [h]
  · simp [h]

/-- An operation of another type leaves an unordered batch as it was. -/
theorem Joined.snoc (h : Joined false accepted b) (hop : op.1 ≠ b.batchType) : Joined false (accepted ++ [op]) b := by
  refine ⟨h.placed.snoc op, ?_, ?_, fun hordered => (by cases hordered)⟩
  · rw [List.length_append]
    exact h.begun.trans (Nat.le_add_right _ _)
  · rw [List.drop_append_of_le_length h.begun, ofType_snoc, if_neg hop, h.all, Nat.add_zero]

/-- A new batch. -/
theorem joined_new (isOrdered : Bool) (accepted : List (BatchType × δ)) (batchType : BatchType) :
    Joined isOrdered accepted { batchType, originalZeroIndex := accepted.length } := by
  refine ⟨⟨rfl, fun i p hi => ?_, fun _ i p hi => ?_⟩, le_rfl, ?_, fun _ => rfl⟩
  · cases hi
  · cases hi
  · simp [ofType]

/-- An operation of its type joins the batch. -/
theorem Joined.push {b' : Batch δ} {document : δ} (h : Joined isOrdered accepted b)
    (htype : b'.batchType = b.batchType) (hzero : b'.originalZeroIndex = b.originalZeroIndex)
    (hops : b'.operations = b.operations ++ [document])
    (hindexes : b'.originalIndexes = b.originalIndexes ++ [accepted.length]) :
    Joined isOrdered (accepted ++ [(b.batchType, document)]) b' := by
  have hsnoc := h.placed.snoc (b.batchType, document)
  have hlen : (accepted ++ [(b.batchType, document)]).length = accepted.length + 1 := List.length_append
  have hindexLen : b'.originalIndexes.length = b.originalIndexes.length + 1 := by
    rw [hindexes, List.length_append, List.length_singleton]
  -- an index of the new batch is one of the old or the last
  have hcases : ∀ i p, b'.originalIndexes[i]? = some p →
      b.originalIndexes[i]? = some p ∨ (i = b.originalIndexes.length ∧ p = accepted.length) := by
    intro i p hi
    rw [hindexes] at hi
    rcases Heap.get_alloc_cases hi with hlast | hold
    · exact .inr hlast
    · exact .inl hold
  refine ⟨⟨?_, fun i p hi => ?_, fun hordered i p hi => ?_⟩, ?_, ?_, fun hordered => ?_⟩
  · rw [hops, hindexes, List.length_append, List.length_append, h.placed.aligned]
    rfl
  · rw [htype, hzero, hops]
    rcases hcases i p hi with hold | ⟨rfl, rfl⟩
    · obtain ⟨hle, hcount, op, hop, hp⟩ := hsnoc.place i p hold
      obtain ⟨hlt, -⟩ := List.getElem?_eq_some_iff.1 hop
      exact ⟨hle, hcount, op, by rw [List.getElem?_append_left hlt]; exact hop, hp⟩
    · refine ⟨h.begun, ?_, document, ?_, List.getElem?_concat_length⟩
      · rw [List.take_append_of_le_length le_rfl, List.take_length]
        exact h.all
      · rw [← h.placed.aligned]
        exact List.getElem?_concat_length
  · rw [hzero]
    rcases hcases i p hi with hold | ⟨rfl, rfl⟩
    · exact h.placed.together hordered i p hold
    · exact (h.last hordered).symm
  · rw [hzero, hlen]
    exact h.begun.trans (Nat.le_succ _)
  · rw [htype, hzero, List.drop_append_of_le_length h.begun, ofType_snoc, if_pos rfl, h.all, hindexLen]
  · have hlast := h.last hordered
    omega

/-- The position of an operation is that of the first plus its index exactly when only operations of the type were
added between them. -/
theorem Placed.contiguous_iff {i p : Nat} (h : Placed isOrdered accepted b) (hi : b.originalIndexes[i]? = some p) :
    p = b.originalZeroIndex + i ↔
      ∀ q, b.originalZeroIndex ≤ q → q < p → (accepted[q]?).map (·.1) = some b.batchType := by
  have hlt := h.lt hi
  obtain ⟨hzero, hcount, -⟩ := h.place i p hi
  have hlen : ((accepted.take p).drop b.originalZeroIndex).length = p - b.originalZeroIndex := by
    rw [List.length_drop, List.length_take, Nat.min_eq_left hlt.le]
  have hall : p = b.originalZeroIndex + i ↔
      ∀ op ∈ (accepted.take p).drop b.originalZeroIndex, op.1 = b.batchType := by
    have hcountP := List.countP_eq_length
      (p := fun op => decide (op.1 = b.batchType)) (l := (accepted.take p).drop b.originalZeroIndex)
    simp only [decide_eq_true_eq] at hcountP
    rw [← hcountP, hlen]
    unfold ofType at hcount
    rw [hcount]
    omega
  rw [hall]
  constructor
  · intro htypes q hle hq
    have hbound : q < accepted.length := hq.trans hlt
    have hmem : accepted[q] ∈ (accepted.take p).drop b.originalZeroIndex := by
      refine List.mem_iff_getElem?.2 ⟨q - b.originalZeroIndex, ?_⟩
      rw [List.getElem?_drop, Nat.add_sub_cancel' hle, List.getElem?_take, if_pos hq]
      exact List.getElem?_eq_getElem _
    rw [List.getElem?_eq_getElem hbound, Option.map_some, htypes _ hmem]
  · intro hbetween op hop
    obtain ⟨k, hk⟩ := List.mem_iff_getElem?.1 hop
    rw [List.getElem?_drop, List.getElem?_take] at hk
    by_cases hkp : b.originalZeroIndex + k < p
    · rw [if_pos hkp] at hk
      have htype := hbetween _ (Nat.le_add_right _ _) hkp
      rw [hk, Option.map_some] at htype
      exact Option.some.inj htype
    · rw [if_neg hkp] at hk
      cases hk

end Grow

/-! ## The batches of a bulk -/

section Track

variable {docs : Documents δ ι} {limits : Limits} {isOrdered : Bool} {s t : BulkOperationPrivate δ ι}
variable {accepted : List (BatchType × δ)} {batchType : BatchType} {call : Call δ}

/-- The reference is to a batch of the type that its operations join. -/
def Serves (isOrdered : Bool) (accepted : List (BatchType × δ)) (heap : List (Batch δ)) (batchType : BatchType)
    (r : Nat) : Prop :=
  ∃ b, heap[r]? = some b ∧ b.batchType = batchType ∧ Joined isOrdered accepted b

/-- Every batch that was created keeps the positions of its operations, and the current ones are joined: that of an
ordered bulk whatever its type, those of an unordered one by the operations of their types. -/
structure Tracked (isOrdered : Bool) (s : BulkOperationPrivate δ ι) (accepted : List (BatchType × δ)) : Prop where
  index : s.currentIndex = accepted.length
  placed : ∀ b ∈ s.heap, Placed isOrdered accepted b
  current : isOrdered = true → ∀ r, s.currentBatch = some r → ∃ batchType, Serves isOrdered accepted s.heap batchType r
  ofTypes : isOrdered = false → ∀ batchType r, s.batchOf batchType = some r →
    Serves isOrdered accepted s.heap batchType r

/-- The bulk is ready for an operation of the type. -/
def Awaits (isOrdered : Bool) (s : BulkOperationPrivate δ ι) (accepted : List (BatchType × δ))
    (batchType : BatchType) : Prop :=
  ∃ r, s.currentBatch = some r ∧ Serves isOrdered accepted s.heap batchType r

theorem Serves.alloc {heap : List (Batch δ)} {r : Nat} (h : Serves isOrdered accepted heap batchType r) (b : Batch δ) :
    Serves isOrdered accepted (heap ++ [b]) batchType r := by
  obtain ⟨c, hc, htype, hjoined⟩ := h
  obtain ⟨hlt, -⟩ := List.getElem?_eq_some_iff.1 hc
  exact ⟨c, by rw [List.getElem?_append_left hlt]; exact hc, htype, hjoined⟩

/-- A new current batch. -/
theorem Tracked.newBatch (h : Tracked isOrdered s accepted) (batchType : BatchType) :
    Tracked isOrdered (s.newBatch batchType) accepted ∧ Awaits isOrdered (s.newBatch batchType) accepted batchType := by
  have hjoined : Joined isOrdered accepted { batchType, originalZeroIndex := s.currentIndex } := by
    rw [h.index]
    exact joined_new isOrdered accepted batchType
  have hserves : Serves isOrdered accepted (s.newBatch batchType).heap batchType s.heap.length :=
    ⟨_, List.getElem?_concat_length, rfl, hjoined⟩
  refine ⟨⟨h.index, ?_, fun _ r hr => ?_, fun hun T r hr => ?_⟩, s.heap.length, rfl, hserves⟩
  · exact List.forall_mem_append.2 ⟨h.placed, List.forall_mem_singleton.2 hjoined.placed⟩
  · cases hr
    exact ⟨batchType, hserves⟩
  · have hold : s.batchOf T = some r := by cases T <;> exact hr
    exact (h.ofTypes hun T r hold).alloc _

/-- The current batch is kept when it is of the type. -/
theorem kept_batchType {size sizeBytes : Batch δ → Nat} {n r : Nat} {b : Batch δ} (hr : s.currentBatch = some r)
    (hb : s.heap[r]? = some b)
    (h : ¬ (s.current.any fun b => needsNewBatch limits (size b) (sizeBytes b) n b.batchType batchType) = true) :
    b.batchType = batchType := by
  rw [Bool.not_eq_true] at h
  obtain ⟨r', b', hr', hb', htype⟩ := ready_of_kept hr hb h
  rw [hr] at hr'
  cases hr'
  rw [hb] at hb'
  cases hb'
  exact htype

theorem Tracked.saveBatch (h : Tracked isOrdered s accepted) : Tracked isOrdered s.saveBatch accepted := by
  refine ⟨h.index, h.placed, h.current, fun hun T r hr => ?_⟩
  have hold : s.batchOf T = some r := by cases T <;> exact hr
  exact h.ofTypes hun T r hold

theorem ordered_prepare_tracked (limits : Limits) (batchType : BatchType) (h : Tracked true s accepted) (n : Nat) :
    Tracked true (OrderedBulkOperation.prepare limits s batchType n) accepted ∧
      Awaits true (OrderedBulkOperation.prepare limits s batchType n) accepted batchType := by
  unfold OrderedBulkOperation.prepare
  have hensure : Tracked true (s.ensureBatch batchType) accepted := by
    unfold BulkOperationPrivate.ensureBatch
    by_cases hnone : s.currentBatch.isNone = true
    · rw [if_pos hnone]
      exact (h.newBatch batchType).1
    · rw [if_neg hnone]
      exact h
  obtain ⟨r, hr⟩ := ensureBatch_currentBatch s batchType
  generalize s.ensureBatch batchType = s₁ at hensure hr
  simp only
  by_cases hcut : OrderedBulkOperation.startsNewBatch limits s₁ batchType n = true
  · rw [if_pos hcut]
    obtain ⟨hnew, hawaits⟩ := hensure.saveBatch.newBatch batchType
    refine ⟨⟨hnew.index, hnew.placed, hnew.current, fun hun => ?_⟩, hawaits⟩
    cases hun
  · rw [if_neg hcut]
    obtain ⟨T, b, hb, htype, hjoined⟩ := hensure.current rfl r hr
    exact ⟨hensure, r, hr, b, hb, kept_batchType hr hb hcut, hjoined⟩

theorem unordered_prepare_tracked (limits : Limits) (batchType : BatchType) (h : Tracked false s accepted) (n : Nat) :
    Tracked false (UnorderedBulkOperation.prepare limits s batchType n) accepted ∧
      Awaits false (UnorderedBulkOperation.prepare limits s batchType n) accepted batchType := by
  unfold UnorderedBulkOperation.prepare
  simp only
  have hset : Tracked false { s with currentBatch := s.batchOf batchType } accepted := by
    refine ⟨h.index, h.placed, fun hordered => (by cases hordered), fun hun T r hr => ?_⟩
    have hold : s.batchOf T = some r := by cases T <;> exact hr
    exact h.ofTypes hun T r hold
  have hkept : ∀ r, s.batchOf batchType = some r → Serves false accepted s.heap batchType r := h.ofTypes rfl batchType
  -- the current batch, new or not, is of the type
  have hensure : Tracked false ({ s with currentBatch := s.batchOf batchType }.ensureBatch batchType) accepted ∧
      Awaits false ({ s with currentBatch := s.batchOf batchType }.ensureBatch batchType) accepted batchType := by
    unfold BulkOperationPrivate.ensureBatch
    cases hbatch : s.batchOf batchType with
    | none =>
      rw [hbatch] at hset
      exact hset.newBatch batchType
    | some r =>
      rw [hbatch] at hset
      exact ⟨hset, r, rfl, hkept r hbatch⟩
  generalize { s with currentBatch := s.batchOf batchType }.ensureBatch batchType = s₁ at hensure ⊢
  by_cases hcut : UnorderedBulkOperation.startsNewBatch limits s₁ batchType n = true
  · rw [if_pos hcut]
    exact hensure.1.saveBatch.newBatch batchType
  · rw [if_neg hcut]
    exact hensure

/-- An operation joins the current batch: the batch it referred to is changed in its place. -/
theorem tracked_joined {heap' : List (Batch δ)} {r : Nat} {b b' : Batch δ} (document : δ)
    (hplaced : ∀ c ∈ s.heap, Placed isOrdered accepted c) (hb : s.heap[r]? = some b)
    (hjoined : Joined isOrdered accepted b) (hheap : heap' = s.heap.set r b') (htype : b'.batchType = b.batchType)
    (hzero : b'.originalZeroIndex = b.originalZeroIndex) (hops : b'.operations = b.operations ++ [document])
    (hindexes : b'.originalIndexes = b.originalIndexes ++ [accepted.length]) :
    (∀ c ∈ heap', Placed isOrdered (accepted ++ [(b.batchType, document)]) c) ∧
      Serves isOrdered (accepted ++ [(b.batchType, document)]) heap' b.batchType r := by
  have hpush := hjoined.push htype hzero hops hindexes
  subst hheap
  constructor
  · intro c hc
    obtain ⟨q, hq⟩ := List.mem_iff_getElem?.1 hc
    rcases Heap.get_set_cases hq with ⟨-, rfl⟩ | ⟨-, hold⟩
    · exact hpush.placed
    · exact (hplaced c (List.mem_of_getElem? hold)).snoc _
  · exact ⟨b', Heap.get_set_self hb, htype, hpush⟩

/-- The bulk in which an array is refused is tracked, and ready for the operation. -/
theorem prepared_tracked (docs : Documents δ ι) (limits : Limits) (call : Call δ) (h : Tracked isOrdered s accepted)
    (n : Nat) :
    Tracked isOrdered (prepared docs limits isOrdered s call n) accepted ∧
      Awaits isOrdered (prepared docs limits isOrdered s call n) accepted call.batchType := by
  unfold prepared
  cases isOrdered with
  | true =>
    rw [if_pos rfl]
    obtain ⟨htracked, hawaits⟩ := ordered_prepare_tracked limits call.batchType h n
    unfold OrderedBulkOperation.recordId
    by_cases hins : call.batchType = .insert
    · rw [if_pos hins]
      refine ⟨⟨htracked.index, htracked.placed, htracked.current, fun hun => ?_⟩, hawaits⟩
      cases hun
    · rw [if_neg hins]
      exact ⟨htracked, hawaits⟩
  | false =>
    rw [if_neg (by simp)]
    exact unordered_prepare_tracked limits call.batchType h n

theorem ordered_push_tracked (h : Tracked true s accepted) (hawaits : Awaits true s accepted call.batchType) (n : Nat) :
    Tracked true (OrderedBulkOperation.push limits s call.document n)
      (accepted ++ [(call.batchType, call.document)]) := by
  obtain ⟨r, hr, b, hb, htype, hjoined⟩ := hawaits
  obtain ⟨hplaced, hserves⟩ := tracked_joined call.document h.placed hb hjoined
    (Heap.modify_eq_set (fun b => { b with
      originalIndexes := b.originalIndexes ++ [s.currentIndex], operations := b.operations ++ [call.document] }) hb)
    rfl rfl rfl (by rw [h.index])
  rw [htype] at hplaced hserves
  have hmod : ∀ f, s.modifyCurrent f = { s with heap := s.heap.modify r f } := fun f => by
    unfold BulkOperationPrivate.modifyCurrent
    rw [hr]
  unfold OrderedBulkOperation.push
  simp only [hmod]
  refine ⟨?_, hplaced, fun _ q hq => ?_, fun hun => ?_⟩
  · rw [List.length_append, List.length_singleton, ← h.index]
  · obtain rfl : r = q := Option.some.inj (hr.symm.trans hq)
    exact ⟨_, hserves⟩
  · cases hun

/-- The current batches of the types after a push. -/
theorem push_batchOf (batchType : BatchType) (n : Nat) :
    (UnorderedBulkOperation.push docs limits s call n).batchOf batchType =
      if batchType = call.batchType then s.currentBatch else s.batchOf batchType := by
  obtain ⟨heap, currentBatch, _, _, _, _, _, _, _, _, _⟩ := s
  obtain ⟨T, document⟩ := call
  cases currentBatch with
  | none => cases batchType <;> cases T <;> rfl
  | some r => cases batchType <;> cases T <;> rfl

theorem unordered_push_tracked (h : Tracked false s accepted) (hawaits : Awaits false s accepted call.batchType)
    (n : Nat) : Tracked false (UnorderedBulkOperation.push docs limits s call n)
      (accepted ++ [(call.batchType, call.document)]) := by
  obtain ⟨r, hr, b, hb, htype, hjoined⟩ := hawaits
  obtain ⟨hheap, -, -, hindex, -⟩ := UnorderedBulkOperation.push_fields docs limits call n hr
  rw [Heap.modify_eq_set _ hb, Heap.modify_eq_set _ (Heap.get_set_self hb), List.set_set] at hheap
  obtain ⟨hplaced, hserves⟩ := tracked_joined call.document h.placed hb hjoined hheap rfl rfl rfl
    (by simp only [h.index])
  rw [htype] at hplaced hserves
  refine ⟨?_, hplaced, fun hordered => (by cases hordered), fun _ T q hq => ?_⟩
  · rw [hindex, List.length_append, List.length_singleton, h.index]
  · rw [push_batchOf] at hq
    by_cases hT : T = call.batchType
    · rw [if_pos hT, hr] at hq
      cases hq
      rw [hT]
      exact hserves
    · -- the batch of another type is another batch
      rw [if_neg hT] at hq
      obtain ⟨c, hc, hctype, hcjoined⟩ := h.ofTypes rfl T q hq
      have hne : r ≠ q := by
        rintro rfl
        rw [hb] at hc
        cases hc
        exact hT (hctype.symm.trans htype)
      refine ⟨c, ?_, hctype, hcjoined.snoc ?_⟩
      · rw [hheap, List.getElem?_set_ne hne]
        exact hc
      · rw [hctype]
        exact fun heq => hT heq.symm

theorem pushed_tracked (h : Tracked isOrdered s accepted) (n : Nat) :
    Tracked isOrdered (pushed docs limits isOrdered s call n) (accepted ++ [(call.batchType, call.document)]) := by
  obtain ⟨htracked, hawaits⟩ := prepared_tracked docs limits call h n
  unfold pushed
  cases isOrdered with
  | true =>
    rw [if_pos rfl]
    exact ordered_push_tracked htracked hawaits n
  | false =>
    rw [if_neg (by simp)]
    exact unordered_push_tracked htracked hawaits n

end Track

section Runs

variable {docs : Documents δ ι} {limits : Limits} {isOrdered : Bool}

theorem step_tracked {b : BulkOperationPrivate δ ι × List (BatchType × δ)} (h : Tracked isOrdered b.1 b.2)
    (call : Call δ) :
    Tracked isOrdered (step docs limits isOrdered b call).1 (step docs limits isOrdered b call).2 := by
  unfold step
  rcases addToOperationsList_cases docs limits isOrdered b.1 call with
    ⟨-, e, hadd⟩ | ⟨n, -, ⟨-, hadd⟩ | ⟨-, hadd⟩⟩
  · rw [hadd]
    exact h
  · rw [hadd]
    exact (prepared_tracked docs limits call h n).1
  · rw [hadd]
    exact pushed_tracked h n

theorem run_tracked (docs : Documents δ ι) (limits : Limits) (isOrdered : Bool) (calls : List (Call δ)) :
    Tracked isOrdered (run docs limits isOrdered calls).1 (run docs limits isOrdered calls).2 := by
  have hstart : Tracked isOrdered ({} : BulkOperationPrivate δ ι) [] := by
    refine ⟨rfl, fun b hb => absurd hb List.not_mem_nil, fun _ r hr => (by cases hr), fun _ T r hr => ?_⟩
    cases T <;> cases hr
  refine Run.exec_inv (fun b call => some (step docs limits isOrdered b call)) (P := fun b => Tracked isOrdered b.1 b.2)
    ?_ hstart (Run.exec_total (step docs limits isOrdered) calls ({}, []))
  intro b call t h ht
  cases ht
  exact step_tracked h call

/-- The batches that are sent are among those that were created. -/
theorem mem_heap_of_sent {s : BulkOperationPrivate δ ι} {batch : Batch δ} (h : batch ∈ sentBatches isOrdered s) :
    batch ∈ s.heap := by
  unfold sentBatches execute at h
  by_cases hexecuted : s.executed = true
  · rw [if_pos hexecuted] at h
    cases h
  · rw [if_neg hexecuted] at h
    simp only at h
    by_cases hempty : (s.batches ++ currentBatches isOrdered s).isEmpty = true
    · rw [if_pos hempty] at h
      cases h
    · rw [if_neg hempty] at h
      obtain ⟨r, -, hr⟩ := List.mem_filterMap.1 h
      exact List.mem_of_getElem? hr

theorem sent_placed {calls : List (Call δ)} {batch : Batch δ}
    (h : batch ∈ sentBatches isOrdered (run docs limits isOrdered calls).1) :
    Placed isOrdered (run docs limits isOrdered calls).2 batch :=
  (run_tracked docs limits isOrdered calls).placed batch (mem_heap_of_sent h)

end Runs

/-! ## Merging a reply -/

/-- The upserted documents of a reply with their indices in the batch; a single `_id` is that of the first operation. -/
def Upserted.entries : Option (Upserted ι) → List (Nat × ι)
  | none => []
  | some (.many docs) => docs
  | some (.one id) => [(0, id)]

/-- What `executeCommands` merges of a reply of the server: nothing when it is an error, and a reply with a
write-concern error without its other error. -/
def Reply.merged (reply : Reply δ ι) : Option (Reply δ ι) :=
  match messageHandler reply with
  | .serverError _ => none
  | .writeConcernError _ result => some result
  | .result result => some result

section Merged

variable {batch : Batch δ} {bulkResult : BulkResult δ ι} {reply result : Reply δ ι}

theorem merged_reply (h : reply.merged = some result) :
    result.ok = true ∧ result.upserted = reply.upserted ∧ result.writeErrors = reply.writeErrors := by
  unfold Reply.merged messageHandler at h
  cases hwce : reply.writeConcernError with
  | some e =>
    rw [hwce] at h
    cases h
    unfold makeWriteConcernResultObject
    by_cases hok : reply.ok = false
    · rw [if_pos hok]
      exact ⟨rfl, rfl, rfl⟩
    · rw [if_neg hok]
      rw [Bool.not_eq_false] at hok
      exact ⟨hok, rfl, rfl⟩
  | none =>
    rw [hwce] at h
    simp only at h
    by_cases herror : (reply.ok = false || reply.err.any (· ≠ "") || reply.errmsg.any (· ≠ "") ||
        reply.code.any (· ≠ 0)) = true
    · rw [if_pos herror] at h
      cases h
    · rw [if_neg herror] at h
      cases h
      refine ⟨?_, rfl, rfl⟩
      by_contra hok
      rw [Bool.not_eq_true] at hok
      exact herror (by simp [hok])

theorem upsertedOf_eq (upserted : Option (Upserted ι)) : upsertedOf batch upserted =
    (Upserted.entries upserted).map fun d => (d.1 + batch.originalZeroIndex, d.2) := by
  cases upserted with
  | none => rfl
  | some u =>
    cases u with
    | many docs => rfl
    | one id => simp [upsertedOf, Upserted.entries]

theorem merge_upserted (batch : Batch δ) (bulkResult : BulkResult δ ι) (h : result.ok = true) :
    (mergeBatchResults batch bulkResult result).upserted =
      bulkResult.upserted ++ upsertedOf batch result.upserted := by
  have hok : ¬ result.ok = false := by rw [h]; simp
  unfold mergeBatchResults
  rw [if_neg hok]
  unfold mergeCounts
  simp only
  by_cases hn : result.n = 0
  · rw [if_pos hn]
  · rw [if_neg hn]
    cases batch.batchType <;> rfl

/-- What is recorded of a reply is under the positions of its operations, and the operations at these positions are
the ones that were added there. -/
structure UnderOriginal (batch : Batch δ) (accepted : List (BatchType × δ)) (bulkResult : BulkResult δ ι)
    (reply result : Reply δ ι) : Prop where
  upserted : (mergeBatchResults batch bulkResult result).upserted.map (fun d => (some d.1, d.2)) =
    bulkResult.upserted.map (fun d => (some d.1, d.2)) ++
      (Upserted.entries reply.upserted).map fun d => (batch.originalIndexes[d.1]?, d.2)
  writeErrors : (mergeBatchResults batch bulkResult result).writeErrors.map (fun e => (e.index, e.op)) =
    bulkResult.writeErrors.map (fun e => (e.index, e.op)) ++
      reply.writeErrors.map fun e => (batch.originalIndexes[e.index]?, batch.operations[e.index]?)
  named : ∀ i p : Nat, batch.originalIndexes[i]? = some p →
    ∃ op, batch.operations[i]? = some op ∧ accepted[p]? = some (batch.batchType, op)

/-- Write errors always are; upserted documents are when their operations are found where the formula says. -/
theorem underOriginal_iff {isOrdered : Bool} {accepted : List (BatchType × δ)}
    (hplaced : Placed isOrdered accepted batch) (h : reply.merged = some result) :
    UnderOriginal batch accepted bulkResult reply result ↔
      ∀ d ∈ Upserted.entries reply.upserted, batch.originalIndexes[d.1]? = some (batch.originalZeroIndex + d.1) := by
  obtain ⟨hok, hupserted, herrors⟩ := merged_reply h
  have hmerged := merge_upserted batch bulkResult hok
  rw [hupserted, upsertedOf_eq] at hmerged
  constructor
  · intro hunder d hd
    have hentries := hunder.upserted
    rw [hmerged, List.map_append, List.map_map] at hentries
    have hsame := List.map_inj_left.1 (List.append_cancel_left hentries) d hd
    rw [← (Prod.mk.inj hsame).1, Nat.add_comm]
  · intro hall
    refine ⟨?_, ?_, fun i p hi => (hplaced.place i p hi).2.2⟩
    · rw [hmerged, List.map_append, List.map_map]
      congr 1
      refine List.map_congr_left fun d hd => ?_
      rw [hall d hd, Nat.add_comm]
      rfl
    · rw [(merge_errors hok).1, herrors, List.map_append, List.map_map]
      rfl

end Merged

/-! ## Main result -/

/-- For every batch that an ordered or unordered bulk sends and every reply of the server that is merged: everything is
recorded under the original position of its operation exactly when each upserted index of the reply is that of an
operation of the batch and only operations of the batch's type were added from its first operation up to that one. -/
theorem result_indices_iff (docs : Documents δ ι) (limits : Limits) (isOrdered : Bool) (calls : List (Call δ))
    (batch : Batch δ) (bulkResult : BulkResult δ ι) (reply result : Reply δ ι)
    (hsent : batch ∈ sentBatches isOrdered (run docs limits isOrdered calls).1) (hmerged : reply.merged = some result) :
    UnderOriginal batch (run docs limits isOrdered calls).2 bulkResult reply result ↔
      ∀ d ∈ Upserted.entries reply.upserted, ∃ p, batch.originalIndexes[d.1]? = some p ∧
        ∀ q, batch.originalZeroIndex ≤ q → q < p →
          ((run docs limits isOrdered calls).2[q]?).map (·.1) = some batch.batchType := by
  have hplaced := sent_placed hsent
  rw [underOriginal_iff hplaced hmerged]
  refine forall₂_congr fun d _ => ?_
  constructor
  · intro hindex
    exact ⟨_, hindex, (hplaced.contiguous_iff hindex).1 rfl⟩
  · rintro ⟨p, hindex, hbetween⟩
    rw [hindex, (hplaced.contiguous_iff hindex).2 hbetween]

/-- An ordered bulk meets the condition with every index of the batch. -/
theorem ordered_indices {docs : Documents δ ι} {limits : Limits} {calls : List (Call δ)} {batch : Batch δ} {i p : Nat}
    (hsent : batch ∈ sentBatches true (run docs limits true calls).1) (hindex : batch.originalIndexes[i]? = some p) :
    ∀ q, batch.originalZeroIndex ≤ q → q < p →
      ((run docs limits true calls).2[q]?).map (·.1) = some batch.batchType := by
  have hplaced := sent_placed hsent
  exact (hplaced.contiguous_iff hindex).1 (hplaced.together rfl i p hindex)

section Failing

/-- Numbers as documents, each with itself as `_id`. -/
private def ids : Documents Nat Nat where
  calculateObjectSize _ := .ok 1
  isArray _ := false
  id d := some d
  withId _ id := id

/-- The second update of a batch upserts. -/
private def secondUpserts : Reply Nat Nat := { n := 2, upserted := some (.many [(1, 9)]) }

private def updates (originalIndexes : List Nat) : Batch Nat :=
  { batchType := .update, originalZeroIndex := 0, originalIndexes, operations := [1, 3], size := 2, sizeBytes := 12 }

/-- Two updates in a row. -/
theorem result_indices_contiguous :
    updates [0, 1] ∈ sentBatches false (run ids (Limits.new none none false) false [⟨.update, 1⟩, ⟨.update, 3⟩]).1 ∧
      (UnderOriginal (updates [0, 1])
          (run ids (Limits.new none none false) false [⟨.update, 1⟩, ⟨.update, 3⟩]).2 {} secondUpserts secondUpserts ↔
        ∀ d ∈ Upserted.entries secondUpserts.upserted, ∃ p, (updates [0, 1]).originalIndexes[d.1]? = some p ∧
          ∀ q, (updates [0, 1]).originalZeroIndex ≤ q → q < p →
            ((run ids (Limits.new none none false) false [⟨.update, 1⟩, ⟨.update, 3⟩]).2[q]?).map (·.1) =
              some (updates [0, 1]).batchType) :=
  ⟨by decide, result_indices_iff ids (Limits.new none none false) false [⟨.update, 1⟩, ⟨.update, 3⟩] (updates [0, 1]) {}
    secondUpserts secondUpserts (by decide) rfl⟩

/-- With an insert between the updates the upserted document is recorded under the insert. -/
theorem upsert_misplaced : ¬ ∀ (docs : Documents Nat Nat) (limits : Limits) (isOrdered : Bool) (calls : List (Call Nat))
    (batch : Batch Nat) (bulkResult : BulkResult Nat Nat) (reply result : Reply Nat Nat),
    batch ∈ sentBatches isOrdered (run docs limits isOrdered calls).1 → reply.merged = some result →
      UnderOriginal batch (run docs limits isOrdered calls).2 bulkResult reply result := by
  intro h
  have hunder := h ids (Limits.new none none false) false [⟨.update, 1⟩, ⟨.insert, 2⟩, ⟨.update, 3⟩] (updates [0, 2]) {}
    secondUpserts secondUpserts (by decide) rfl
  exact absurd hunder.upserted (by decide)

end Failing

end MongoDriver.Bulk
