/-
Parallel iteration over an array (`eachAsync` of `src/utils.ts`): the loop that calls `eachFn` for each item, and the
callback of an item, which may be called while the loop still runs. Both report completion, and neither remembers that
an error was reported.
-/
import Mathlib.Data.List.Induction
import MongoDriver.Base.Run

namespace MongoDriver

section

variable {ε : Type}

/-- The variables of a call of `eachAsync`, the items whose callback is still to be called, and the calls of the final
callback, each with its error if any. -/
structure EachAsync (ε : Type) where
  /-- `arr.length` -/
  length : Nat
  idx : Nat := 0
  awaiting : Int := 0
  /-- the loop still runs -/
  looping : Bool := true
  pending : List Nat := []
  calls : List (Option ε) := []

namespace EachAsync

/-! ## The code -/

/-- What happens next: `eachFn` returns for the item of the loop, or the callback of an item is called. -/
inductive Event (ε : Type)
  | returns
  | completes (item : Nat) (err : Option ε)

/-- `callback(err)`. -/
def callback (s : EachAsync ε) (err : Option ε) : EachAsync ε := { s with calls := s.calls ++ [err] }

/-- The test of the loop: the next item, or the end of the loop and what follows it. -/
def loop (s : EachAsync ε) : EachAsync ε :=
  if s.idx < s.length then
    { s with awaiting := s.awaiting + 1, pending := s.pending ++ [s.idx] }
  else if s.awaiting = 0 then
    { s with looping := false }.callback none
  else
    { s with looping := false }

/-- `eachAsync(arr, eachFn, callback)`, up to the first call of `eachFn`. -/
def start (length : Nat) : EachAsync ε := loop { length }

/-- `eachCallback(err)`. -/
def eachCallback (s : EachAsync ε) (err : Option ε) : EachAsync ε :=
  let s := { s with awaiting := s.awaiting - 1 }
  match err with
  | some err => s.callback (some err)
  | none => if s.idx = s.length ∧ s.awaiting ≤ 0 then s.callback none else s

/-- Each item calls its callback once. -/
def step (s : EachAsync ε) : Event ε → Option (EachAsync ε)
  | .returns => if s.looping then some (loop { s with idx := s.idx + 1 }) else none
  | .completes item err =>
    if item ∈ s.pending then some (eachCallback { s with pending := s.pending.erase item } err) else none

/-! ## Completion -/

/-- The loop is over and every item is completed. -/
def Ended (s : EachAsync ε) : Prop := s.looping = false ∧ s.pending = []

/-- The item failed. -/
def Event.Fails : Event ε → Prop
  | completes _ (some _) => True
  | _ => False

/-- The error of an item that failed. -/
def Event.error? : Event ε → Option ε
  | completes _ err => err
  | returns => none

theorem Event.fails_iff {e : Event ε} : e.Fails ↔ e.error? ≠ none := by
  cases e with
  | returns => exact iff_of_false id fun h => h rfl
  | completes item err =>
    cases err with
    | none => exact iff_of_false id fun h => h rfl
    | some err => exact iff_of_true trivial (Option.some_ne_none err)

/-- The final callback was called once, with an error if and only if an item failed, and was not called without one
before every item was completed. -/
structure CompletesOnce (length : Nat) (events : List (Event ε)) (s : EachAsync ε) : Prop where
  once : s.calls.length = 1
  error : (∃ err, some err ∈ s.calls) ↔ ∃ e ∈ events, e.Fails
  success : ∀ before after u, events = before ++ after → Run.exec step (start length) before = some u →
    none ∈ u.calls → u.Ended

/-- `awaiting` counts the items whose callback is still to be called, the loop runs up to the length, and without an
error the final callback is called at the end only. -/
structure Counted (s : EachAsync ε) : Prop where
  awaiting : s.awaiting = s.pending.length
  idx : if s.looping then s.idx < s.length else s.idx = s.length
  success : none ∈ s.calls → s.Ended

/-- The calls of the final callback after one more event: with its error if it has one, and once more at the end. -/
structure Called (s : EachAsync ε) (err : Option ε) (t : EachAsync ε) : Prop where
  before : ¬ t.Ended → t.calls = s.calls ++ err.toList.map some
  ended : t.Ended → t.calls = s.calls ++ [err]

/-! ## One event -/

section

variable {s t : EachAsync ε} {e : Event ε}

theorem not_ended_of_step (h : step s e = some t) : ¬ s.Ended := by
  rintro ⟨hlooping, hpending⟩
  cases e with
  | returns =>
    rw [step, hlooping] at h
    cases h
  | completes item err =>
    rw [step, hpending, if_neg List.not_mem_nil] at h
    cases h

theorem loop_spec (hawaiting : s.awaiting = s.pending.length) (hidx : s.idx ≤ s.length) (hlooping : s.looping = true)
    (hcalls : none ∉ s.calls) : (loop s).Counted ∧ s.Called none (loop s) := by
  unfold loop
  by_cases hlt : s.idx < s.length
  · rw [if_pos hlt]
    constructor
    · constructor
      · simp [hawaiting]
      · simp [hlooping, hlt]
      · exact fun h => absurd h hcalls
    · constructor
      · simp
      · rintro ⟨hnot, -⟩
        cases hlooping.symm.trans hnot
  · rw [if_neg hlt]
    have hend : s.idx = s.length := by omega
    by_cases hzero : s.awaiting = 0
    · have hpending : s.pending = [] := by
        apply List.eq_nil_of_length_eq_zero
        omega
      rw [if_pos hzero]
      constructor
      · constructor
        · exact hawaiting
        · exact hend
        · exact fun _ => ⟨rfl, hpending⟩
      · constructor
        · exact fun hnot => absurd ⟨rfl, hpending⟩ hnot
        · exact fun _ => rfl
    · rw [if_neg hzero]
      constructor
      · constructor
        · exact hawaiting
        · exact hend
        · exact fun h => absurd h hcalls
      · constructor
        · simp
        · rintro ⟨-, hpending⟩
          apply absurd hawaiting
          rw [show s.pending = [] from hpending]
          exact hzero

/-- The callback of an item after the end of the loop, or before. -/
theorem eachCallback_spec (h : s.Counted) (hcalls : none ∉ s.calls) {item : Nat} (hitem : item ∈ s.pending)
    (err : Option ε) : (eachCallback { s with pending := s.pending.erase item } err).Counted ∧
      s.Called err (eachCallback { s with pending := s.pending.erase item } err) := by
  have hlength : (s.pending.erase item).length + 1 = s.pending.length := by
    rw [List.length_erase_of_mem hitem]
    have hpos := List.length_pos_of_mem hitem
    omega
  have hawaiting : s.awaiting - 1 = ((s.pending.erase item).length : Int) := by
    rw [h.awaiting]
    omega
  unfold eachCallback
  cases err with
  | some err =>
    constructor
    · constructor
      · exact hawaiting
      · exact h.idx
      · intro hnone
        rcases List.mem_append.1 hnone with hold | hnew
        · exact absurd hold hcalls
        · cases List.mem_singleton.1 hnew
    · constructor
      · exact fun _ => rfl
      · exact fun _ => rfl
  | none =>
    simp only
    by_cases hdone : s.idx = s.length ∧ s.awaiting - 1 ≤ 0
    · have hlooping : s.looping = false := by
        by_contra htrue
        have hidx := h.idx
        rw [if_pos (by simpa using htrue)] at hidx
        omega
      have hpending : s.pending.erase item = [] := by
        apply List.eq_nil_of_length_eq_zero
        omega
      rw [if_pos hdone]
      constructor
      · constructor
        · exact hawaiting
        · exact h.idx
        · exact fun _ => ⟨hlooping, hpending⟩
      · constructor
        · exact fun hnot => absurd ⟨hlooping, hpending⟩ hnot
        · exact fun _ => rfl
    · rw [if_neg hdone]
      constructor
      · constructor
        · exact hawaiting
        · exact h.idx
        · exact fun hnone => absurd hnone hcalls
      · constructor
        · simp
        · rintro ⟨hlooping, hpending⟩
          have hidx := h.idx
          rw [if_neg (by simpa using hlooping)] at hidx
          apply absurd ⟨hidx, ?_⟩ hdone
          rw [hawaiting, show s.pending.erase item = [] from hpending]
          simp

theorem step_spec (h : s.Counted) (hstep : step s e = some t) : t.Counted ∧ s.Called e.error? t := by
  have hcalls : none ∉ s.calls := fun hnone => not_ended_of_step hstep (h.success hnone)
  cases e with
  | returns =>
    rw [step] at hstep
    split_ifs at hstep with hlooping
    cases hstep
    have hidx := h.idx
    rw [if_pos hlooping] at hidx
    obtain ⟨hcounted, hcalled⟩ := loop_spec (s := { s with idx := s.idx + 1 }) h.awaiting hidx hlooping hcalls
    exact ⟨hcounted, hcalled.before, hcalled.ended⟩
  | completes item err =>
    rw [step] at hstep
    split_ifs at hstep with hitem
    cases hstep
    exact eachCallback_spec h hcalls hitem err

end

/-! ## Runs -/

section

variable {length : Nat} {events : List (Event ε)} {s : EachAsync ε}

theorem start_spec (length : Nat) : (start length : EachAsync ε).Counted ∧
    (¬ (start length : EachAsync ε).Ended → (start length : EachAsync ε).calls = []) ∧
      ((start length : EachAsync ε).Ended → (start length : EachAsync ε).calls = [none]) := by
  obtain ⟨hcounted, hcalled⟩ := loop_spec (ε := ε) (s := { length }) rfl (Nat.zero_le length) rfl List.not_mem_nil
  exact ⟨hcounted, hcalled.before, hcalled.ended⟩

/-- Before the end the final callback was called for each error, and with nothing else. -/
theorem calls_of_run (hrun : Run.exec step (start length) events = some s) :
    s.Counted ∧ (¬ s.Ended → s.calls = (events.filterMap Event.error?).map some) := by
  induction events using List.reverseRecOn generalizing s with
  | nil =>
    cases hrun
    exact ⟨(start_spec length).1, (start_spec length).2.1⟩
  | append_singleton events e ih =>
    obtain ⟨u, hu, hlast⟩ := (Run.exec_append step).1 hrun
    obtain ⟨t, hstep, hs⟩ := (Run.exec_cons step).1 hlast
    cases hs
    obtain ⟨hcounted, hcalls⟩ := ih hu
    obtain ⟨hcounted', hcalled⟩ := step_spec hcounted hstep
    refine ⟨hcounted', fun hnot => ?_⟩
    rw [hcalled.before hnot, hcalls (not_ended_of_step hstep), List.filterMap_append, List.map_append]
    cases e with
    | returns => rfl
    | completes item err =>
      cases err with
      | none => rfl
      | some err => rfl

/-- At the end it was called once more, with the error of the last event if that is one. -/
theorem calls_at_end {e : Event ε} (hrun : Run.exec step (start length) (events ++ [e]) = some s) (hend : s.Ended) :
    s.calls = (events.filterMap Event.error?).map some ++ [e.error?] := by
  obtain ⟨u, hu, hlast⟩ := (Run.exec_append step).1 hrun
  obtain ⟨t, hstep, hs⟩ := (Run.exec_cons step).1 hlast
  cases hs
  obtain ⟨hcounted, hcalls⟩ := calls_of_run hu
  rw [(step_spec hcounted hstep).2.ended hend, hcalls (not_ended_of_step hstep)]

theorem no_errors_iff : events.filterMap Event.error? = [] ↔ ∀ e ∈ events, ¬ e.Fails := by
  rw [List.filterMap_eq_nil_iff]
  constructor
  · intro h e he hfails
    exact Event.fails_iff.1 hfails (h e he)
  · intro h e he
    by_contra hne
    exact h e he (Event.fails_iff.2 hne)

/-- However `eachFn` calls its callbacks, each once, the final callback is called once, with an error exactly if an item
failed, and without one when all items are completed, exactly when no item fails but the last of all to complete, after
the loop. -/
theorem eachAsync_once_iff (length : Nat) (events : List (Event ε)) (s : EachAsync ε)
    (hrun : Run.exec step (start length) events = some s) (hend : s.Ended) :
    CompletesOnce length events s ↔ ∀ e ∈ events.dropLast, ¬ e.Fails := by
  have hsuccess : ∀ before after u, events = before ++ after → Run.exec step (start length) before = some u →
      none ∈ u.calls → u.Ended := by
    intro before after u _ hu
    exact (calls_of_run hu).1.success
  cases events using List.reverseRecOn with
  | nil =>
    cases hrun
    have hcalls := (start_spec length).2.2 hend
    refine iff_of_true ?_ fun e he => absurd he List.not_mem_nil
    constructor
    · rw [hcalls]
      rfl
    · rw [hcalls]
      simp
    · exact hsuccess
  | append_singleton events e =>
    have hcalls := calls_at_end hrun hend
    rw [List.dropLast_concat, ← no_errors_iff]
    constructor
    · intro h
      have honce := h.once
      rw [hcalls, List.length_append, List.length_map] at honce
      apply List.eq_nil_of_length_eq_zero
      simpa using honce
    · intro hnone
      rw [hnone, List.map_nil, List.nil_append] at hcalls
      have hothers := no_errors_iff.1 hnone
      constructor
      · rw [hcalls]
        rfl
      · rw [hcalls]
        constructor
        · rintro ⟨err, herr⟩
          refine ⟨e, List.mem_append_right events List.mem_cons_self, Event.fails_iff.2 ?_⟩
          rw [← List.mem_singleton.1 herr]
          exact Option.some_ne_none err
        · rintro ⟨e', he', hfails⟩
          rcases List.mem_append.1 he' with hin | hlast
          · exact absurd hfails (hothers e' hin)
          · obtain rfl := List.mem_singleton.1 hlast
            obtain ⟨err, herr⟩ := Option.ne_none_iff_exists'.1 (Event.fails_iff.1 hfails)
            exact ⟨err, by rw [herr]; exact List.mem_cons_self⟩
      · exact hsuccess

/-- Two items complete after the loop without an error. -/
theorem eachAsync_once_iff_two :
    CompletesOnce 2 ([.returns, .returns, .completes 1 none, .completes 0 none] : List (Event String))
      { length := 2, idx := 2, looping := false, calls := [none] } ↔
      ∀ e ∈ ([.returns, .returns, .completes 1 none, .completes 0 none] : List (Event String)).dropLast, ¬ e.Fails :=
  eachAsync_once_iff 2 _ _ rfl ⟨rfl, rfl⟩

/-- The first of two items fails at once: the final callback is called with the error, and again when the second is
completed, without one. -/
theorem failure_calls_twice :
    ∃ s, Run.exec step (start 2)
        ([.completes 0 (some "error"), .returns, .returns, .completes 1 none] : List (Event String)) = some s ∧
      s.Ended ∧ s.calls = [some "error", none] :=
  ⟨_, rfl, ⟨rfl, rfl⟩, rfl⟩

end

end EachAsync

end

end MongoDriver
