/-
The ids of inserted documents (`BulkWriteResult.insertedIds` of `src/bulk/common.ts`, recorded by `addToOperationsList`
of `ordered.ts` and `unordered.ts`). An ordered bulk records the `_id` under the position of the operation, but before
it refuses an array; an unordered one after that, but under the number of the inserts so far. So the positions are
those of the inserts exactly when, in an ordered bulk, the next operation accepted after a refused array is an insert,
and, in an unordered one, no other operation is accepted before an insert.
-/
import MongoDriver.Bulk.Lossless
import Mathlib.Logic.Function.Basic

namespace MongoDriver.Bulk

variable {δ ι : Type}

/-! ## The recorded ids -/

/-- `BulkWriteResult.insertedIds`, as the properties of the object: the last `_id` recorded for an index stands. -/
def BulkWriteResult.insertedIds (recorded : List (Nat × Option ι)) : Nat → Option (Option ι) :=
  recorded.foldl (fun inserted doc => Function.update inserted doc.1 (some doc.2)) fun _ => none

/-- One more `_id`, recorded under a condition. -/
theorem insertedIds_add (recorded : List (Nat × Option ι)) (index : Nat) (id : Option ι) (p : Prop) [Decidable p]
    (position : Nat) :
    BulkWriteResult.insertedIds (if p then recorded ++ [(index, id)] else recorded) position =
      if p ∧ position = index then some id else BulkWriteResult.insertedIds recorded position := by
  by_cases hp : p
  · rw [if_pos hp]
    unfold BulkWriteResult.insertedIds
    rw [List.foldl_append, List.foldl_cons, List.foldl_nil]
    by_cases hindex : position = index
    · rw [if_pos ⟨hp, hindex⟩, hindex, Function.update_self]
    · rw [if_neg fun h => hindex h.2, Function.update_of_ne hindex]
  · rw [if_neg hp, if_neg fun h => hp h.1]

section Inserts

variable (docs : Documents δ ι) (limits : Limits)

/-- The `_id` that belongs under a position: that of the insert there. -/
def idAt (accepted : List (BatchType × δ)) (position : Nat) : Option (Option ι) :=
  (accepted[position]?.filter fun op => op.1 = .insert).map fun op => docs.id op.2

/-- The ids are those of the inserts, each under its position. -/
def MapsInserts (b : BulkOperationPrivate δ ι × List (BatchType × δ)) : Prop :=
  ∀ position, BulkWriteResult.insertedIds b.1.insertedIds position = idAt docs b.2 position

/-- The document has a size, and a small enough one. -/
def passes (call : Call δ) : Bool :=
  match docs.calculateObjectSize call.document with
  | .ok bsonSize => bsonSize < limits.maxBsonObjectSize
  | .error _ => false

/-- The call adds its operation. -/
def accepts (call : Call δ) : Bool := passes docs limits call && !docs.isArray call.document

/-- The call passes an array to insert, and throws because of that. -/
def refusesInsert (call : Call δ) : Bool :=
  passes docs limits call && docs.isArray call.document && call.batchType = .insert

/-- The first operation that the calls add is an insert. -/
def InsertNext (calls : List (Call δ)) : Prop :=
  (calls.find? (accepts docs limits)).any (·.batchType = .insert) = true

/-- After every array that insert refuses, the next operation that is added is an insert. -/
def ArraysCovered (calls : List (Call δ)) : Prop :=
  ∀ before call after, calls = before ++ call :: after → refusesInsert docs limits call = true →
    InsertNext docs limits after

/-- No insert is added after another operation. -/
def InsertsFirst (calls : List (Call δ)) : Prop :=
  (calls.filter (accepts docs limits)).Pairwise fun a b => b.batchType = .insert → a.batchType = .insert

end Inserts

/-! ## What a call records -/

section Call

variable {docs : Documents δ ι} {limits : Limits} {s : BulkOperationPrivate δ ι} {call : Call δ}

theorem passes_iff : passes docs limits call = true ↔ ∃ n, Passes docs limits call n := by
  unfold passes Passes
  cases docs.calculateObjectSize call.document with
  | error e => simp
  | ok n =>
    simp only [decide_eq_true_iff]
    constructor
    · intro h
      exact ⟨n, rfl, h⟩
    · rintro ⟨m, hm, hlt⟩
      cases hm
      exact hlt

theorem modifyCurrent_insertedIds (f : Batch δ → Batch δ) :
    (s.modifyCurrent f).insertedIds = s.insertedIds ∧ (s.modifyCurrent f).currentIndex = s.currentIndex := by
  unfold BulkOperationPrivate.modifyCurrent
  cases s.currentBatch with
  | none => exact ⟨rfl, rfl⟩
  | some r => exact ⟨rfl, rfl⟩

theorem ordered_prepare_index (batchType : BatchType) (n : Nat) :
    (OrderedBulkOperation.prepare limits s batchType n).currentIndex = s.currentIndex := by
  unfold OrderedBulkOperation.prepare BulkOperationPrivate.ensureBatch
  simp only
  split <;> split <;> rfl

theorem unordered_prepare_insertedIds (batchType : BatchType) (n : Nat) :
    (UnorderedBulkOperation.prepare limits s batchType n).insertedIds = s.insertedIds := by
  unfold UnorderedBulkOperation.prepare BulkOperationPrivate.ensureBatch
  simp only
  split <;> split <;> rfl

/-- An ordered bulk records the `_id` of an insert under its position before it looks for an array. -/
theorem ordered_prepared (docs : Documents δ ι) (limits : Limits) (s : BulkOperationPrivate δ ι) (call : Call δ)
    (n : Nat) :
    (prepared docs limits true s call n).currentIndex = s.currentIndex ∧
      (prepared docs limits true s call n).insertedIds =
        if call.batchType = .insert then s.insertedIds ++ [(s.currentIndex, docs.id call.document)]
        else s.insertedIds := by
  unfold prepared
  rw [if_pos rfl]
  unfold OrderedBulkOperation.recordId
  by_cases hins : call.batchType = .insert
  · rw [if_pos hins, if_pos hins]
    refine ⟨ordered_prepare_index _ _, ?_⟩
    simp only [prepare_insertedIds, ordered_prepare_index]
  · rw [if_neg hins, if_neg hins]
    exact ⟨ordered_prepare_index _ _, prepare_insertedIds _ _⟩

theorem ordered_pushed (docs : Documents δ ι) (limits : Limits) (s : BulkOperationPrivate δ ι) (call : Call δ)
    (n : Nat) :
    (pushed docs limits true s call n).currentIndex = s.currentIndex + 1 ∧
      (pushed docs limits true s call n).insertedIds =
        if call.batchType = .insert then s.insertedIds ++ [(s.currentIndex, docs.id call.document)]
        else s.insertedIds := by
  obtain ⟨hindex, hids⟩ := ordered_prepared docs limits s call n
  unfold pushed
  rw [if_pos rfl]
  unfold OrderedBulkOperation.push
  simp only [(modifyCurrent_insertedIds _).1, (modifyCurrent_insertedIds _).2, hindex, hids]
  exact ⟨trivial, trivial⟩

/-- An unordered bulk records the `_id` of an insert that it has added, under the number of inserts before it. -/
theorem unordered_prepared (docs : Documents δ ι) (limits : Limits) (s : BulkOperationPrivate δ ι) (call : Call δ)
    (n : Nat) : (prepared docs limits false s call n).insertedIds = s.insertedIds := by
  unfold prepared
  rw [if_neg (by simp)]
  exact unordered_prepare_insertedIds _ _

theorem unordered_pushed (docs : Documents δ ι) (limits : Limits) (s : BulkOperationPrivate δ ι) (call : Call δ)
    (n : Nat) : (pushed docs limits false s call n).insertedIds =
    if call.batchType = .insert then s.insertedIds ++ [(s.insertedIds.length, docs.id call.document)]
    else s.insertedIds := by
  have hids := unordered_prepared docs limits s call n
  unfold pushed
  rw [if_neg (by simp)]
  generalize prepared docs limits false s call n = t at hids
  unfold UnorderedBulkOperation.push UnorderedBulkOperation.recordId BulkOperationPrivate.setBatchOf
  cases hbatch : call.batchType with
  | insert => simp [modifyCurrent_insertedIds, hids]
  | update => simp [modifyCurrent_insertedIds, hids]
  | delete => simp [modifyCurrent_insertedIds, hids]

/-! ## One call -/

variable (isOrdered : Bool) (b : BulkOperationPrivate δ ι × List (BatchType × δ))

theorem step_accepts (h : accepts docs limits call = true) : ∃ n, step docs limits isOrdered b call =
    (pushed docs limits isOrdered b.1 call n, b.2 ++ [(call.batchType, call.document)]) := by
  unfold accepts at h
  rw [Bool.and_eq_true, Bool.not_eq_true', passes_iff] at h
  obtain ⟨hpasses, hnot⟩ := h
  unfold step
  rcases addToOperationsList_cases docs limits isOrdered b.1 call with
    ⟨hno, -⟩ | ⟨n, -, ⟨harr, -⟩ | ⟨-, hadd⟩⟩
  · exact absurd hpasses hno
  · rw [hnot] at harr
    cases harr
  · exact ⟨n, by rw [hadd]; rfl⟩

/-- A call that adds nothing passes an array of a size that is allowed, or leaves the bulk as it was. -/
theorem step_refuses (h : accepts docs limits call = false) :
    ((passes docs limits call = true ∧ docs.isArray call.document = true) ∧
        ∃ n, step docs limits isOrdered b call = (prepared docs limits isOrdered b.1 call n, b.2)) ∨
      (passes docs limits call = false ∧ step docs limits isOrdered b call = b) := by
  unfold step
  rcases addToOperationsList_cases docs limits isOrdered b.1 call with
    ⟨hno, e, hadd⟩ | ⟨n, hn, ⟨harr, hadd⟩ | ⟨hnot, -⟩⟩
  · refine .inr ⟨?_, by rw [hadd]; rfl⟩
    rw [← Bool.not_eq_true, passes_iff]
    exact hno
  · exact .inl ⟨⟨passes_iff.2 ⟨n, hn⟩, harr⟩, n, by rw [hadd]; rfl⟩
  · have hpasses := passes_iff.2 ⟨n, hn⟩
    unfold accepts at h
    rw [hpasses, hnot] at h
    cases h

theorem idAt_snoc_lt {accepted : List (BatchType × δ)} {op : BatchType × δ} {position : Nat}
    (h : position < accepted.length) : idAt docs (accepted ++ [op]) position = idAt docs accepted position := by
  unfold idAt
  rw [List.getElem?_append_left h]

theorem idAt_snoc_length (accepted : List (BatchType × δ)) (op : BatchType × δ) :
    idAt docs (accepted ++ [op]) accepted.length = if op.1 = .insert then some (docs.id op.2) else none := by
  unfold idAt
  rw [List.getElem?_concat_length]
  by_cases h : op.1 = .insert
  · simp [Option.filter, h]
  · simp [Option.filter, h]

theorem idAt_ge {accepted : List (BatchType × δ)} {position : Nat} (h : accepted.length ≤ position) :
    idAt docs accepted position = none := by
  unfold idAt
  rw [List.getElem?_eq_none h]
  rfl

end Call

/-! ## Ordered bulks -/

section Ordered

variable {docs : Documents δ ι} {limits : Limits} {call : Call δ} {calls : List (Call δ)}
variable {b : BulkOperationPrivate δ ι × List (BatchType × δ)}

/-- Nothing is recorded beyond the next position. -/
structure Recorded (b : BulkOperationPrivate δ ι × List (BatchType × δ)) : Prop where
  index : b.1.currentIndex = b.2.length
  ahead : ∀ position, b.2.length < position → BulkWriteResult.insertedIds b.1.insertedIds position = none

/-- The ids are right for the operations added so far. -/
def Settled (docs : Documents δ ι) (b : BulkOperationPrivate δ ι × List (BatchType × δ)) : Prop :=
  ∀ position, position < b.2.length → BulkWriteResult.insertedIds b.1.insertedIds position = idAt docs b.2 position

/-- An `_id` is recorded for the next position. -/
def Pending (b : BulkOperationPrivate δ ι × List (BatchType × δ)) : Prop :=
  BulkWriteResult.insertedIds b.1.insertedIds b.2.length ≠ none

theorem mapsInserts_iff (h : Recorded b) : MapsInserts docs b ↔ Settled docs b ∧ ¬ Pending b := by
  unfold Pending
  rw [not_not]
  constructor
  · intro hmaps
    exact ⟨fun position _ => hmaps position, (hmaps _).trans (idAt_ge le_rfl)⟩
  · rintro ⟨hsettled, hnext⟩ position
    rcases Nat.lt_trichotomy position b.2.length with hlt | rfl | hgt
    · exact hsettled position hlt
    · rw [hnext, idAt_ge le_rfl]
    · rw [h.ahead position hgt, idAt_ge hgt.le]

/-- What an added operation does to the record. -/
theorem ordered_accepts (h : Recorded b) (haccepts : accepts docs limits call = true) :
    Recorded (step docs limits true b call) ∧ ¬ Pending (step docs limits true b call) ∧
      (Settled docs (step docs limits true b call) ↔
        Settled docs b ∧ (Pending b → call.batchType = .insert)) := by
  obtain ⟨n, hstep⟩ := step_accepts true b haccepts
  obtain ⟨hindex, hids⟩ := ordered_pushed docs limits b.1 call n
  have hlen : (b.2 ++ [(call.batchType, call.document)]).length = b.2.length + 1 := List.length_append
  have hrecord := insertedIds_add b.1.insertedIds b.1.currentIndex (docs.id call.document) (call.batchType = .insert)
  rw [← hids, h.index] at hrecord
  have hother : ∀ position, position ≠ b.2.length →
      BulkWriteResult.insertedIds (pushed docs limits true b.1 call n).insertedIds position =
        BulkWriteResult.insertedIds b.1.insertedIds position :=
    fun position hne => (hrecord position).trans (if_neg fun h => hne h.2)
  rw [hstep]
  refine ⟨⟨by rw [hindex, h.index, hlen], ?_⟩, ?_, ?_⟩
  · intro position hgt
    simp only [hlen] at hgt
    rw [hother position (by omega)]
    exact h.ahead position (by omega)
  · unfold Pending
    simp only [hlen]
    rw [not_not, hother _ (by omega)]
    exact h.ahead _ (by omega)
  · unfold Settled
    simp only [hlen]
    constructor
    · intro hsettled
      constructor
      · intro position hlt
        rw [← hother position (by omega), hsettled position (by omega), idAt_snoc_lt hlt]
      · intro hpending
        by_contra hins
        have hnext := hsettled b.2.length (by omega)
        rw [idAt_snoc_length, if_neg hins, hrecord, if_neg fun h => hins h.1] at hnext
        exact hpending hnext
    · rintro ⟨hsettled, hnext⟩ position hlt
      rcases Nat.lt_or_ge position b.2.length with hlt' | hge
      · rw [hother position (by omega), idAt_snoc_lt hlt']
        exact hsettled position hlt'
      · obtain rfl : position = b.2.length := by omega
        rw [idAt_snoc_length, hrecord]
        by_cases hins : call.batchType = .insert
        · rw [if_pos ⟨hins, rfl⟩, if_pos hins]
        · rw [if_neg fun h => hins h.1, if_neg hins]
          by_contra hpending
          exact hins (hnext hpending)

/-- And a call that adds none. -/
theorem ordered_refuses (h : Recorded b) (hrefuses : accepts docs limits call = false) :
    Recorded (step docs limits true b call) ∧
      (Pending (step docs limits true b call) ↔ Pending b ∨ refusesInsert docs limits call = true) ∧
      (Settled docs (step docs limits true b call) ↔ Settled docs b) := by
  unfold refusesInsert
  rcases step_refuses true b hrefuses with ⟨⟨hpasses, harr⟩, n, hstep⟩ | ⟨hno, hstep⟩
  · obtain ⟨hindex, hids⟩ := ordered_prepared docs limits b.1 call n
    have hrecord := insertedIds_add b.1.insertedIds b.1.currentIndex (docs.id call.document) (call.batchType = .insert)
    rw [← hids, h.index] at hrecord
    rw [hstep, hpasses, harr]
    refine ⟨⟨hindex.trans h.index, fun position hgt => ?_⟩, ?_, ?_⟩
    · rw [hrecord, if_neg fun h => Nat.ne_of_gt hgt h.2]
      exact h.ahead position hgt
    · unfold Pending
      simp only [hrecord, and_true, Bool.true_and, decide_eq_true_eq]
      by_cases hins : call.batchType = .insert
      · simp [hins]
      · simp [hins]
    · unfold Settled
      refine forall_congr' fun position => imp_congr_right fun hlt => ?_
      rw [hrecord, if_neg fun h => Nat.ne_of_lt hlt h.2]
  · rw [hstep, hno]
    refine ⟨h, ?_, Iff.rfl⟩
    simp

theorem arraysCovered_cons : ArraysCovered docs limits (call :: calls) ↔
    (refusesInsert docs limits call = true → InsertNext docs limits calls) ∧ ArraysCovered docs limits calls := by
  unfold ArraysCovered
  constructor
  · intro h
    exact ⟨h [] call calls rfl, fun before c after heq => h (call :: before) c after (by rw [heq]; rfl)⟩
  · rintro ⟨hhead, htail⟩ before c after heq
    cases before with
    | nil =>
      cases heq
      exact hhead
    | cons d before =>
      obtain ⟨-, heq⟩ := List.cons.inj heq
      exact htail before c after heq

/-- Over the rest of the calls: an `_id` recorded for the next position needs an insert there. -/
theorem ordered_maps_iff : ∀ (calls : List (Call δ)) {b : BulkOperationPrivate δ ι × List (BatchType × δ)},
    Recorded b → (MapsInserts docs (calls.foldl (step docs limits true) b) ↔
      Settled docs b ∧ (Pending b → InsertNext docs limits calls) ∧ ArraysCovered docs limits calls)
  | [], b, h => by
    have hcovered : ArraysCovered docs limits ([] : List (Call δ)) := by
      intro before call after heq
      cases before with
      | nil => cases heq
      | cons => cases heq
    have hnone : ¬ InsertNext docs limits ([] : List (Call δ)) := fun hnext => (by cases hnext)
    rw [List.foldl_nil, mapsInserts_iff h]
    constructor
    · rintro ⟨hsettled, hnot⟩
      exact ⟨hsettled, fun hpending => absurd hpending hnot, hcovered⟩
    · rintro ⟨hsettled, hnext, -⟩
      exact ⟨hsettled, fun hpending => hnone (hnext hpending)⟩
  | call :: calls, b, h => by
    rw [List.foldl_cons, arraysCovered_cons]
    cases haccepts : accepts docs limits call with
    | true =>
      obtain ⟨hrecorded, hnot, hsettled⟩ := ordered_accepts h haccepts
      have hnext : InsertNext docs limits (call :: calls) ↔ call.batchType = .insert := by
        unfold InsertNext
        rw [List.find?_cons_of_pos haccepts]
        simp
      have hcovered : refusesInsert docs limits call = false := by
        unfold accepts at haccepts
        unfold refusesInsert
        cases harr : docs.isArray call.document with
        | false => simp
        | true =>
          rw [harr] at haccepts
          simp at haccepts
      rw [ordered_maps_iff calls hrecorded, hsettled, hnext, hcovered]
      constructor
      · rintro ⟨⟨hs, hp⟩, -, hc⟩
        exact ⟨hs, hp, fun hfalse => (by cases hfalse), hc⟩
      · rintro ⟨hs, hp, -, hc⟩
        exact ⟨⟨hs, hp⟩, fun hpending => absurd hpending hnot, hc⟩
    | false =>
      obtain ⟨hrecorded, hpending, hsettled⟩ := ordered_refuses h haccepts
      have hnext : InsertNext docs limits (call :: calls) ↔ InsertNext docs limits calls := by
        unfold InsertNext
        rw [List.find?_cons_of_neg (by rw [haccepts]; simp)]
      rw [ordered_maps_iff calls hrecorded, hsettled, hpending, hnext, or_imp]
      constructor
      · rintro ⟨hs, ⟨hp, hr⟩, hc⟩
        exact ⟨hs, hp, hr, hc⟩
      · rintro ⟨hs, hp, hr, hc⟩
        exact ⟨hs, ⟨hp, hr⟩, hc⟩

end Ordered

/-! ## Unordered bulks -/

/-- What passes a filter stands where it stood exactly when all that passes comes first. -/
theorem filter_getElem?_iff {α β : Type*} {p : α → Bool} (f : α → β) (l : List α) :
    (∀ i : Nat, ((l.filter p)[i]?).map f = ((l[i]?).filter p).map f) ↔
      l.Pairwise fun a b => p b = true → p a = true := by
  induction l with
  | nil => simp
  | cons a l ih =>
    rw [List.pairwise_cons, ← ih]
    by_cases ha : p a = true
    · rw [List.filter_cons_of_pos ha]
      constructor
      · intro h
        exact ⟨fun _ _ _ => ha, fun i => h (i + 1)⟩
      · rintro ⟨-, h⟩ i
        cases i with
        | zero => simp [Option.filter, ha]
        | succ i => exact h i
    · rw [List.filter_cons_of_neg ha]
      constructor
      · intro h
        -- the first place is empty, so nothing passes
        have hfirst := h 0
        simp only [List.getElem?_cons_zero, Option.filter_some, if_neg ha, Option.map_none, Option.map_eq_none_iff,
          List.getElem?_eq_none_iff, Nat.le_zero, List.length_eq_zero_iff] at hfirst
        have hnone : ∀ b ∈ l, ¬ p b = true := List.filter_eq_nil_iff.1 hfirst
        refine ⟨fun b hb hpb => absurd hpb (hnone b hb), fun i => ?_⟩
        have hnext := h (i + 1)
        rw [hfirst] at hnext ⊢
        exact hnext
      · rintro ⟨hhead, -⟩ i
        have hnone : ∀ b ∈ l, ¬ p b = true := fun b hb hpb => ha (hhead b hb hpb)
        rw [List.filter_eq_nil_iff.2 hnone]
        cases i with
        | zero => simp [Option.filter, ha]
        | succ i =>
          rw [List.getElem?_cons_succ]
          cases hi : l[i]? with
          | none => rfl
          | some b => simp [Option.filter, hnone b (List.mem_of_getElem? hi)]

section Unordered

variable {docs : Documents δ ι} {limits : Limits} {call : Call δ}
variable {b : BulkOperationPrivate δ ι × List (BatchType × δ)}

/-- The inserts among the added operations. -/
def insertsOf (accepted : List (BatchType × δ)) : List (BatchType × δ) := accepted.filter fun op => op.1 = .insert

/-- The ids are recorded in the order of the inserts. -/
structure Counted (docs : Documents δ ι) (b : BulkOperationPrivate δ ι × List (BatchType × δ)) : Prop where
  length : b.1.insertedIds.length = (insertsOf b.2).length
  ids : ∀ i, BulkWriteResult.insertedIds b.1.insertedIds i = ((insertsOf b.2)[i]?).map fun op => docs.id op.2

theorem insertsOf_snoc (accepted : List (BatchType × δ)) (op : BatchType × δ) :
    insertsOf (accepted ++ [op]) = if op.1 = .insert then insertsOf accepted ++ [op] else insertsOf accepted := by
  unfold insertsOf
  rw [List.filter_append]
  by_cases h : op.1 = .insert
  · rw [if_pos h, List.filter_cons_of_pos (by simpa using h), List.filter_nil]
  · rw [if_neg h, List.filter_cons_of_neg (by simpa using h), List.filter_nil, List.append_nil]

theorem counted_step (h : Counted docs b) (call : Call δ) : Counted docs (step docs limits false b call) := by
  cases haccepts : accepts docs limits call with
  | true =>
    obtain ⟨n, hstep⟩ := step_accepts false b haccepts
    have hids := unordered_pushed docs limits b.1 call n
    have hrecord :=
      insertedIds_add b.1.insertedIds b.1.insertedIds.length (docs.id call.document) (call.batchType = .insert)
    rw [← hids, h.length] at hrecord
    have hinserts := insertsOf_snoc b.2 (call.batchType, call.document)
    rw [hstep]
    by_cases hins : call.batchType = .insert
    · rw [if_pos hins] at hids hinserts
      refine ⟨by simp only [hids, hinserts, List.length_append, h.length, List.length_singleton], fun i => ?_⟩
      rw [hrecord, hinserts]
      rcases Nat.lt_trichotomy i (insertsOf b.2).length with hlt | rfl | hgt
      · rw [if_neg fun h => Nat.ne_of_lt hlt h.2, List.getElem?_append_left hlt]
        exact h.ids i
      · rw [if_pos ⟨hins, rfl⟩, List.getElem?_concat_length]
        rfl
      · rw [if_neg fun h => Nat.ne_of_gt hgt h.2, h.ids i, List.getElem?_eq_none hgt.le,
          List.getElem?_eq_none (by rw [List.length_append, List.length_singleton]; omega)]
    · rw [if_neg hins] at hids hinserts
      exact ⟨by simp only [hids, hinserts, h.length], fun i => by simp only [hids, hinserts, h.ids i]⟩
  | false =>
    rcases step_refuses false b haccepts with ⟨-, n, hstep⟩ | ⟨-, hstep⟩
    · have hids := unordered_prepared docs limits b.1 call n
      rw [hstep]
      exact ⟨by simp only [hids, h.length], fun i => by simp only [hids, h.ids i]⟩
    · rw [hstep]
      exact h

theorem counted_maps_iff (h : Counted docs b) :
    MapsInserts docs b ↔ b.2.Pairwise fun a b => b.1 = .insert → a.1 = .insert := by
  have hfilter := filter_getElem?_iff (p := fun op => decide (op.1 = .insert)) (fun op => docs.id op.2) b.2
  simp only [decide_eq_true_eq] at hfilter
  rw [← hfilter]
  unfold MapsInserts idAt
  exact forall_congr' fun i => by rw [h.ids i]; rfl

end Unordered

/-! ## Main result -/

/-- The operations of a run are those of the calls that add theirs. -/
theorem run_accepted (docs : Documents δ ι) (limits : Limits) (isOrdered : Bool) : ∀ (calls : List (Call δ))
    (b : BulkOperationPrivate δ ι × List (BatchType × δ)), (calls.foldl (step docs limits isOrdered) b).2 =
      b.2 ++ (calls.filter (accepts docs limits)).map fun call => (call.batchType, call.document)
  | [], b => (List.append_nil _).symm
  | call :: calls, b => by
    rw [List.foldl_cons, run_accepted docs limits isOrdered calls]
    cases haccepts : accepts docs limits call with
    | true =>
      obtain ⟨n, hstep⟩ := step_accepts isOrdered b haccepts
      rw [hstep, List.filter_cons_of_pos haccepts, List.map_cons, List.append_assoc]
      rfl
    | false =>
      rw [List.filter_cons_of_neg (by rw [haccepts]; simp)]
      rcases step_refuses isOrdered b haccepts with ⟨-, n, hstep⟩ | ⟨-, hstep⟩
      · rw [hstep]
      · rw [hstep]

theorem counted_run (docs : Documents δ ι) (limits : Limits) (calls : List (Call δ)) :
    Counted docs (run docs limits false calls) := by
  refine List.foldlRecOn calls (step docs limits false) ⟨rfl, fun _ => rfl⟩ ?_
  intro b h call _
  exact counted_step h call

/-- For every bulk and every list of calls, the ids map the positions of the inserts to their `_id`s exactly when, in
an ordered bulk, every array that insert refuses is followed by an insert before any other operation is added, and, in
an unordered bulk, no insert is added after another operation. -/
theorem inserted_ids_iff (docs : Documents δ ι) (limits : Limits) (isOrdered : Bool) (calls : List (Call δ)) :
    MapsInserts docs (run docs limits isOrdered calls) ↔
      if isOrdered then ArraysCovered docs limits calls else InsertsFirst docs limits calls := by
  cases isOrdered with
  | true =>
    rw [if_pos rfl]
    have hstart : Recorded (({}, []) : BulkOperationPrivate δ ι × List (BatchType × δ)) := ⟨rfl, fun _ _ => rfl⟩
    refine (ordered_maps_iff calls hstart).trans ?_
    constructor
    · rintro ⟨-, -, h⟩
      exact h
    · intro h
      exact ⟨fun position hlt => absurd hlt (Nat.not_lt_zero _), fun hpending => absurd rfl hpending, h⟩
  | false =>
    rw [if_neg (by simp), counted_maps_iff (counted_run docs limits calls)]
    unfold run InsertsFirst
    rw [run_accepted, List.nil_append, List.pairwise_map]

section Failing

/-- Numbers as documents, each with itself as `_id`. -/
private def numbers : Documents Nat Nat where
  calculateObjectSize _ := .ok 1
  isArray _ := false
  id d := some d
  withId _ id := id

/-- A delete before an insert: the `_id` is recorded under the position of the delete. -/
theorem delete_shifts_id : ¬ ∀ (docs : Documents Nat Nat) (limits : Limits) (isOrdered : Bool)
    (calls : List (Call Nat)), MapsInserts docs (run docs limits isOrdered calls) := by
  intro h
  have hmaps := h numbers (Limits.new none none false) false [⟨.delete, 3⟩, ⟨.insert, 7⟩] 0
  exact absurd hmaps (by decide)

end Failing

end MongoDriver.Bulk
