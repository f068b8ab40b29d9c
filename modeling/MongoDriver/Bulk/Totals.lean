/-
The counts of a bulk result (`mergeBatchResults` of `src/bulk/common.ts`). Merging the replies of commands that
succeeded adds up what each of them reports for its type of batch, and keeps the last operation time. A time is a
timestamp or a pair of one with a term; the timestamps are read without a sign and the terms with one, so that all are
compared as integers. The result does not depend on the order in which the replies come.
-/
import MongoDriver.Bulk.ResultIndices
import Mathlib.Data.Prod.Lex
import Mathlib.Order.Bounds.Basic

namespace MongoDriver.Bulk

open Bson (Long LongLike)

variable {δ ι : Type}

/-! ## What the replies report -/

/-- The sum over a list. -/
def total {α : Type} (f : α → Int) (l : List α) : Int := l.foldr (fun a sum => f a + sum) 0

/-- A count of the replies to the batches of a type. -/
def count (batchType : BatchType) (f : Reply δ ι → Int) (work : List (Batch δ × Reply δ ι)) : Int :=
  total (fun w => if w.1.batchType = batchType then f w.2 else 0) work

def Reply.upsertedCount (reply : Reply δ ι) : Nat := (Upserted.entries reply.upserted).length

/-- The operation time that is merged. -/
def Reply.time (reply : Reply δ ι) : Option (LongLike × LongLike) := (reply.lastOp <|> reply.opTime).map OpTime.parts

/-- A time as integers, ordered by the timestamp and then by the term. -/
def timeValue (time : LongLike × LongLike) : Int ×ₗ Int := toLex (time.1.toLong.value, time.2.toLong.value)

/-- The timestamp is read without a sign. The term is a 64-bit integer of BSON, which has one. -/
structure TimeSigned (time : LongLike × LongLike) : Prop where
  ts : time.1.toLong.unsigned = true
  t : time.2.toLong.unsigned = false

/-- The reply of a command that succeeded: an update reports how many of the documents it selected were modified and
upserted. -/
structure Reply.Successful (batchType : BatchType) (reply : Reply δ ι) : Prop where
  ok : reply.ok = true
  modified : batchType = .update → ∃ nModified, reply.nModified = some nModified ∧ nModified ≤ reply.n
  upserted : batchType = .update → reply.upsertedCount ≤ reply.n
  time : ∀ time, reply.time = some time → TimeSigned time

/-- The times of the replies. -/
def times (work : List (Batch δ × Reply δ ι)) : Set (Int ×ₗ Int) :=
  {t | ∃ w ∈ work, ∃ time, w.2.time = some time ∧ timeValue time = t}

/-- The counts are the sums over the replies and the time is the greatest. -/
structure Totals (work : List (Batch δ × Reply δ ι)) (bulkResult : BulkResult δ ι) : Prop where
  nInserted : (bulkResult.nInserted : Int) = count .insert (fun reply => reply.n) work
  nRemoved : (bulkResult.nRemoved : Int) = count .delete (fun reply => reply.n) work
  nUpserted : (bulkResult.nUpserted : Int) = count .update (fun reply => reply.upsertedCount) work
  nMatched : bulkResult.nMatched = count .update (fun reply => reply.n - reply.upsertedCount) work
  nModified : (bulkResult.nModified : Int) = count .update (fun reply => (reply.nModified.getD 0 : Nat)) work
  opTime : ∀ t, bulkResult.opTime.map timeValue = some t ↔ IsGreatest (times work) t

/-- The same counts and the same time. -/
structure SameTotals (left right : BulkResult δ ι) : Prop where
  nInserted : left.nInserted = right.nInserted
  nRemoved : left.nRemoved = right.nRemoved
  nUpserted : left.nUpserted = right.nUpserted
  nMatched : left.nMatched = right.nMatched
  nModified : left.nModified = right.nModified
  opTime : left.opTime.map timeValue = right.opTime.map timeValue

/-! ## Sums -/

section Sums

variable {α : Type} {f : α → Int} {l l' : List α} {work work' : List (Batch δ × Reply δ ι)} {w : Batch δ × Reply δ ι}

theorem total_snoc (f : α → Int) (l : List α) (a : α) : total f (l ++ [a]) = total f l + f a := by
  induction l with
  | nil => simp [total]
  | cons b l ih =>
    simp only [total, List.cons_append, List.foldr_cons] at ih ⊢
    rw [ih, Int.add_assoc]

theorem total_perm (h : l.Perm l') : total f l = total f l' := by
  unfold total
  exact h.foldr_eq' (fun a _ b _ sum => by omega) 0

theorem count_snoc (batchType : BatchType) (f : Reply δ ι → Int) (work : List (Batch δ × Reply δ ι))
    (w : Batch δ × Reply δ ι) :
    count batchType f (work ++ [w]) = count batchType f work + if w.1.batchType = batchType then f w.2 else 0 :=
  total_snoc ..

theorem times_snoc : times (work ++ [w]) = times work ∪ {t | ∃ time, w.2.time = some time ∧ timeValue time = t} := by
  ext t
  simp [times, or_and_right, exists_or]

theorem times_perm (h : work.Perm work') : times work = times work' := by
  ext t
  simp only [times, h.mem_iff]

end Sums

/-! ## Times -/

section Times

variable {time last : LongLike × LongLike}

/-- A time replaces the last one exactly when it is greater. -/
theorem laterOpTime_some (h : TimeSigned time) (hlast : TimeSigned last) :
    laterOpTime (some last) time = if timeValue last < timeValue time then some time else some last := by
  have hts := Long.greaterThan_iff (h.ts.trans hlast.ts.symm)
  have heq := Long.equals_iff (h.ts.trans hlast.ts.symm)
  have ht := Long.greaterThan_iff (h.t.trans hlast.t.symm)
  have hlt : timeValue last < timeValue time ↔ last.1.toLong.value < time.1.toLong.value ∨
      last.1.toLong.value = time.1.toLong.value ∧ last.2.toLong.value < time.2.toLong.value := Prod.Lex.toLex_lt_toLex
  unfold laterOpTime
  simp only
  by_cases hgreater : time.1.toLong.greaterThan last.1.toLong = true
  · rw [if_pos hgreater, if_pos (hlt.2 (.inl (hts.1 hgreater)))]
  · have hnlt : ¬ last.1.toLong.value < time.1.toLong.value := fun h => hgreater (hts.2 h)
    rw [if_neg hgreater]
    by_cases hequal : time.1.toLong.equals last.1.toLong = true
    · rw [if_pos hequal]
      by_cases hterm : time.2.toLong.greaterThan last.2.toLong = true
      · rw [if_pos hterm, if_pos (hlt.2 (.inr ⟨(heq.1 hequal).symm, ht.1 hterm⟩))]
      · rw [if_neg hterm, if_neg]
        intro h
        rcases hlt.1 h with h | ⟨-, h⟩
        · exact hnlt h
        · exact hterm (ht.2 h)
    · rw [if_neg hequal, if_neg]
      intro h
      rcases hlt.1 h with h | ⟨h, -⟩
      · exact hnlt h
      · exact hequal (heq.2 h.symm)

/-- The later time is one of the two. -/
theorem laterOpTime_cases (last : Option (LongLike × LongLike)) (time : LongLike × LongLike) :
    (laterOpTime last time = some time ∨ laterOpTime last time = last) ∧ laterOpTime last time ≠ none := by
  unfold laterOpTime
  cases last with
  | none => exact ⟨.inl rfl, fun h => (by cases h)⟩
  | some last =>
    simp only
    split
    · exact ⟨.inl rfl, fun h => (by cases h)⟩
    · split
      · split
        · exact ⟨.inl rfl, fun h => (by cases h)⟩
        · exact ⟨.inr rfl, fun h => (by cases h)⟩
      · exact ⟨.inr rfl, fun h => (by cases h)⟩

/-- The greatest time of a set and one more. -/
theorem laterOpTime_greatest {opTime : Option (LongLike × LongLike)} {s : Set (Int ×ₗ Int)} (h : TimeSigned time)
    (hsigned : ∀ last, opTime = some last → TimeSigned last)
    (hgreatest : ∀ t, opTime.map timeValue = some t ↔ IsGreatest s t) (hempty : opTime = none → s = ∅)
    (t : Int ×ₗ Int) : (laterOpTime opTime time).map timeValue = some t ↔ IsGreatest (s ∪ {timeValue time}) t := by
  cases opTime with
  | none =>
    rw [hempty rfl, Set.empty_union]
    exact Option.some_inj.trans ⟨fun h => h ▸ isGreatest_singleton, fun h => (h.unique isGreatest_singleton).symm⟩
  | some last =>
    have hlast := (hgreatest (timeValue last)).1 rfl
    have hmax : IsGreatest (s ∪ {timeValue time}) (max (timeValue last) (timeValue time)) :=
      hlast.union isGreatest_singleton
    have hvalue : (laterOpTime (some last) time).map timeValue = some (max (timeValue last) (timeValue time)) := by
      rw [laterOpTime_some h (hsigned last rfl)]
      by_cases hlt : timeValue last < timeValue time
      · rw [if_pos hlt, max_eq_right hlt.le]
        rfl
      · rw [if_neg hlt, max_eq_left (not_lt.1 hlt)]
        rfl
    rw [hvalue, Option.some_inj]
    exact ⟨fun h => h ▸ hmax, fun h => hmax.unique h⟩

end Times

/-! ## Merging one reply -/

section Merging

variable {work : List (Batch δ × Reply δ ι)} {batch : Batch δ} {reply : Reply δ ι} {bulkResult : BulkResult δ ι}

/-- The time of a reply is merged. -/
theorem merge_opTime (h : reply.ok = true) : (mergeBatchResults batch bulkResult reply).opTime =
    reply.time.elim bulkResult.opTime (laterOpTime bulkResult.opTime) := by
  have hok : ¬ reply.ok = false := by simp [h]
  have hcounts : ∀ b : BulkResult δ ι, (mergeCounts batch reply b).opTime = b.opTime := by
    intro b
    unfold mergeCounts
    simp only
    split
    · rfl
    · split <;> rfl
  unfold mergeBatchResults Reply.time
  rw [if_neg hok]
  simp only [hcounts]
  cases reply.lastOp <|> reply.opTime with
  | none => rfl
  | some o => rfl

/-- The counts of a successful reply are added. -/
theorem merge_counts (bulkResult : BulkResult δ ι) (h : reply.Successful batch.batchType) :
    ((mergeBatchResults batch bulkResult reply).nInserted : Int) =
        bulkResult.nInserted + (if batch.batchType = .insert then (reply.n : Int) else 0) ∧
      ((mergeBatchResults batch bulkResult reply).nRemoved : Int) =
        bulkResult.nRemoved + (if batch.batchType = .delete then (reply.n : Int) else 0) ∧
      ((mergeBatchResults batch bulkResult reply).nUpserted : Int) =
        bulkResult.nUpserted + (if batch.batchType = .update then (reply.upsertedCount : Int) else 0) ∧
      (mergeBatchResults batch bulkResult reply).nMatched =
        bulkResult.nMatched + (if batch.batchType = .update then (reply.n : Int) - reply.upsertedCount else 0) ∧
      ((mergeBatchResults batch bulkResult reply).nModified : Int) =
        bulkResult.nModified + (if batch.batchType = .update then ((reply.nModified.getD 0 : Nat) : Int) else 0) := by
  have hok : ¬ reply.ok = false := by simp [h.ok]
  have hlen : (upsertedOf batch reply.upserted).length = reply.upsertedCount := by
    rw [upsertedOf_eq, List.length_map]
    rfl
  unfold mergeBatchResults
  rw [if_neg hok]
  unfold mergeCounts
  simp only [hlen]
  cases htype : batch.batchType with
  | insert =>
    by_cases hn : reply.n = 0
    · simp [hn]
    · simp [hn]
  | delete =>
    by_cases hn : reply.n = 0
    · simp [hn]
    · simp [hn]
  | update =>
    obtain ⟨nModified, hmodified, hle⟩ := h.modified htype
    have hupserted := h.upserted htype
    rw [hmodified]
    by_cases hn : reply.n = 0
    · -- an update that selected nothing modified and upserted nothing
      have hu : reply.upsertedCount = 0 := by omega
      have hm : nModified = 0 := by omega
      simp [hn, hu, hm]
    · simp [hn]

/-- What is kept along the merging: the totals, a time once there was one, and its signs. -/
structure Totalled (work : List (Batch δ × Reply δ ι)) (bulkResult : BulkResult δ ι) : Prop where
  totals : Totals work bulkResult
  untimed : bulkResult.opTime = none → times work = ∅
  signed : ∀ last, bulkResult.opTime = some last → TimeSigned last

theorem totalled_start : Totalled ([] : List (Batch δ × Reply δ ι)) {} := by
  have hnone : times ([] : List (Batch δ × Reply δ ι)) = ∅ := by
    ext t
    simp [times]
  refine ⟨⟨rfl, rfl, rfl, rfl, rfl, fun t => ?_⟩, fun _ => hnone, fun last h => (by cases h)⟩
  rw [hnone]
  exact iff_of_false (fun h => (by cases h)) fun h => h.1

/-- The time of a reply becomes the last one or leaves it. -/
theorem Totalled.merge_time (h : Totalled work bulkResult) (hreply : reply.Successful batch.batchType) :
    (∀ t, (mergeBatchResults batch bulkResult reply).opTime.map timeValue = some t ↔
        IsGreatest (times (work ++ [(batch, reply)])) t) ∧
      ((mergeBatchResults batch bulkResult reply).opTime = none → times (work ++ [(batch, reply)]) = ∅) ∧
      ∀ last, (mergeBatchResults batch bulkResult reply).opTime = some last → TimeSigned last := by
  rw [merge_opTime hreply.ok, times_snoc]
  cases hreplied : reply.time with
  | none =>
    have hsame : times work ∪ {t | ∃ time, (none : Option (LongLike × LongLike)) = some time ∧ timeValue time = t} =
        times work := by
      simp
    rw [hsame]
    exact ⟨h.totals.opTime, h.untimed, h.signed⟩
  | some time =>
    have hone : {t | ∃ time', some time = some time' ∧ timeValue time' = t} = {timeValue time} := by
      ext t
      simp [eq_comm]
    have hsigned := hreply.time time hreplied
    rw [hone]
    refine ⟨laterOpTime_greatest hsigned h.signed h.totals.opTime h.untimed, fun hlast => ?_, fun last hlast => ?_⟩
    · obtain ⟨-, hne⟩ := laterOpTime_cases bulkResult.opTime time
      exact absurd hlast hne
    · rcases (laterOpTime_cases bulkResult.opTime time).1 with hnew | hold
      · rw [Option.elim_some, hnew] at hlast
        cases hlast
        exact hsigned
      · rw [Option.elim_some, hold] at hlast
        exact h.signed last hlast

theorem Totalled.merge (h : Totalled work bulkResult) (hreply : reply.Successful batch.batchType) :
    Totalled (work ++ [(batch, reply)]) (mergeBatchResults batch bulkResult reply) := by
  obtain ⟨hinserted, hremoved, hupserted, hmatched, hmodified⟩ := merge_counts bulkResult hreply
  obtain ⟨htime, huntimed, hsigned⟩ := h.merge_time hreply
  refine ⟨⟨?_, ?_, ?_, ?_, ?_, htime⟩, huntimed, hsigned⟩
  · rw [hinserted, h.totals.nInserted, count_snoc]
  · rw [hremoved, h.totals.nRemoved, count_snoc]
  · rw [hupserted, h.totals.nUpserted, count_snoc]
  · rw [hmatched, h.totals.nMatched, count_snoc]
  · rw [hmodified, h.totals.nModified, count_snoc]

end Merging

/-! ## Merging all replies -/

section Runs

variable {work work' : List (Batch δ × Reply δ ι)} {left right : BulkResult δ ι}

theorem merged_snoc (work : List (Batch δ × Reply δ ι)) (w : Batch δ × Reply δ ι) (bulkResult : BulkResult δ ι) :
    merged (work ++ [w]) bulkResult = mergeBatchResults w.1 (merged work bulkResult) w.2 := by
  unfold merged
  rw [List.foldl_append]
  rfl

theorem merged_totalled (h : ∀ w ∈ work, w.2.Successful w.1.batchType) : Totalled work (merged work {}) := by
  induction work using List.reverseRecOn with
  | nil => exact totalled_start
  | append_singleton work w ih =>
    rw [merged_snoc]
    obtain ⟨hwork, hw⟩ := List.forall_mem_append.1 h
    exact (ih hwork).merge (hw w (List.mem_singleton_self w))

/-- The totals of the same replies in another order. -/
theorem Totals.perm (h : Totals work left) (h' : Totals work' right) (hp : work.Perm work') :
    SameTotals left right := by
  have hcount : ∀ (batchType : BatchType) (f : Reply δ ι → Int), count batchType f work = count batchType f work' :=
    fun _ _ => total_perm hp
  refine ⟨?_, ?_, ?_, ?_, ?_, ?_⟩
  · exact Int.ofNat_inj.1 (h.nInserted.trans ((hcount ..).trans h'.nInserted.symm))
  · exact Int.ofNat_inj.1 (h.nRemoved.trans ((hcount ..).trans h'.nRemoved.symm))
  · exact Int.ofNat_inj.1 (h.nUpserted.trans ((hcount ..).trans h'.nUpserted.symm))
  · exact h.nMatched.trans ((hcount ..).trans h'.nMatched.symm)
  · exact Int.ofNat_inj.1 (h.nModified.trans ((hcount ..).trans h'.nModified.symm))
  · refine Option.ext fun t => ?_
    rw [h.opTime, h'.opTime, times_perm hp]

end Runs

/-! ## Main result -/

/-- For every list of batches with the replies of commands that succeeded: merging the replies gives the sums of what
they report and the greatest of their times, whatever their order. -/
theorem merged_totals (work : List (Batch δ × Reply δ ι)) (h : ∀ w ∈ work, w.2.Successful w.1.batchType) :
    Totals work (merged work {}) ∧ ∀ work', work.Perm work' → SameTotals (merged work {}) (merged work' {}) := by
  have htotals := (merged_totalled h).totals
  refine ⟨htotals, fun work' hp => ?_⟩
  exact htotals.perm (merged_totalled fun w hw => h w (hp.mem_iff.2 hw)).totals hp

section Example

private def upserts : Batch Nat :=
  { batchType := .update, originalZeroIndex := 0, originalIndexes := [0, 1], operations := [1, 2] }

/-- The times of two replies, in different representations. -/
private def updates₂ : List (Batch Nat × Reply Nat Nat) :=
  [(upserts, { n := 2, nModified := some 1, upserted := some (.many [(1, 9)]), opTime := some (.timestamp 7) }),
    (upserts, {
      n := 1, nModified := some 0, opTime := some (.object (.timestamp 7) (.number 3))
      lastOp := some (.object (.long { bits := 7, unsigned := true }) (.number 2)) })]

theorem merged_totals_updates : (∀ w ∈ updates₂, w.2.Successful w.1.batchType) ∧
    Totals updates₂ (merged updates₂ {}) ∧
      ∀ work', updates₂.Perm work' → SameTotals (merged updates₂ {}) (merged work' {}) := by
  have h : ∀ w ∈ updates₂, w.2.Successful w.1.batchType := by
    simp only [updates₂, List.forall_mem_cons]
    refine ⟨⟨rfl, fun _ => ⟨1, rfl, by decide⟩, fun _ => by decide, ?_⟩,
      ⟨rfl, fun _ => ⟨0, rfl, by decide⟩, fun _ => by decide, ?_⟩, fun w hw => (by cases hw)⟩
    · intro time htime
      cases htime
      exact ⟨rfl, rfl⟩
    · intro time htime
      cases htime
      exact ⟨rfl, rfl⟩
  exact ⟨h, merged_totals updates₂ h⟩

end Example

end MongoDriver.Bulk
