/-
Interval timers that can be woken up (`makeInterruptibleAsyncInterval` of `src/utils.ts`): the timer, the calls of
`fn` and their completions, `wake()` and `stop()`, in any order and under any clock. `stop()` resets the time of the
last call, and a call of `wake()` that finds the interval overdue does not ask whether it was stopped.
-/
import MongoDriver.Base.Run
import MongoDriver.Base.Timers

namespace MongoDriver

/-- `InterruptibleAsyncIntervalOptions`, in whole milliseconds. -/
structure IntervalOptions where
  interval : Option Int := none
  minInterval : Option Int := none
  immediate : Bool := false

/-- `ms || otherwise`. -/
def orOtherwise (ms : Option Int) (otherwise : Int) : Int := (ms.filter (· ≠ 0)).getD otherwise

theorem orOtherwise_some (ms otherwise : Int) : orOtherwise (some ms) otherwise = if ms = 0 then otherwise else ms := by
  rw [orOtherwise, Option.filter]
  by_cases h : ms = 0
  · simp [h]
  · simp [h]

/-- `interval` -/
def IntervalOptions.intervalMS (options : IntervalOptions) : Int := orOtherwise options.interval 1000

/-- `minInterval` -/
def IntervalOptions.minIntervalMS (options : IntervalOptions) : Int := orOtherwise options.minInterval 500

/-- The variables of the interval, with the timers it runs on, the calls of `fn` that have not completed, the times of
all of its calls, and the clock. -/
structure AsyncInterval where
  timerId : Option Nat := none
  lastCallTime : Int := 0
  cannotBeExpedited : Bool := false
  stopped : Bool := false
  timers : Timers := {}
  running : Nat := 0
  calls : List Int := []
  clock : Int

namespace AsyncInterval

section

variable (options : IntervalOptions)

/-! ## The code -/

/-- `reschedule(ms)` -/
def reschedule (s : AsyncInterval) (now : Int) (ms : Option Int) : AsyncInterval :=
  if s.stopped then s
  else
    let timers := s.timers.clear s.timerId
    { s with timers := timers.setTimeout now (orOtherwise ms options.intervalMS), timerId := some timers.next }

/-- `executeAndReschedule()`, up to the call of `fn`. -/
def executeAndReschedule (s : AsyncInterval) (now : Int) : AsyncInterval :=
  { s with cannotBeExpedited := false, lastCallTime := now, running := s.running + 1, calls := s.calls ++ [now] }

/-- The callback of `fn`, which throws its error. -/
def complete (s : AsyncInterval) (now : Int) (failed : Bool) : AsyncInterval :=
  let s := { s with running := s.running - 1 }
  if failed then s else reschedule options s now (some options.intervalMS)

/-- `wake()`. The clock is read again, or the timer is set, some time after the first reading. -/
def wake (s : AsyncInterval) (currentTime : Int) (elapsed : Nat) : AsyncInterval :=
  let timeUntilNextCall := s.lastCallTime + options.intervalMS - currentTime
  if timeUntilNextCall < 0 then executeAndReschedule s (currentTime + elapsed)
  else if s.cannotBeExpedited then s
  else if timeUntilNextCall > options.minIntervalMS then
    { reschedule options s (currentTime + elapsed) (some options.minIntervalMS) with cannotBeExpedited := true }
  else s

/-- `stop()` -/
def stop (s : AsyncInterval) : AsyncInterval :=
  { s with stopped := true, timers := s.timers.clear s.timerId, timerId := none, lastCallTime := 0,
           cannotBeExpedited := false }

/-- `makeInterruptibleAsyncInterval(fn, options)` -/
def start (now : Int) (elapsed : Nat) : AsyncInterval :=
  let s : AsyncInterval := { clock := now + elapsed }
  if options.immediate then executeAndReschedule s now
  else reschedule options { s with lastCallTime := now } (now + elapsed) none

inductive Event
  | wake (currentTime : Int) (elapsed : Nat)
  | stop
  /-- The timer calls `executeAndReschedule`. -/
  | fires (handle : Nat) (now : Int)
  /-- A call of `fn` completes. -/
  | completes (now : Int) (failed : Bool)
deriving DecidableEq

def step (s : AsyncInterval) : Event → Option AsyncInterval
  | .wake currentTime elapsed => some { wake options s currentTime elapsed with clock := currentTime + elapsed }
  | .stop => some (stop s)
  | .fires handle now =>
    (s.timers.fire? handle now).map fun timers =>
      { executeAndReschedule { s with timers := timers } now with clock := now }
  | .completes now failed =>
    if 0 < s.running then some { complete options s now failed with clock := now } else none

/-! ## Timers -/

/-- One timer at most is armed, the one in the variable, and none once the interval is stopped. -/
structure Armed (s : AsyncInterval) : Prop where
  held : s.timers.Held s.timerId
  stopped : s.stopped = true → s.timers.armed = []

section

variable {options} {s t : AsyncInterval} {e : Event}

theorem armed_reschedule (h : s.Armed) (now : Int) (ms : Option Int) : (reschedule options s now ms).Armed := by
  unfold reschedule
  split
  · exact h
  · rename_i hstopped
    constructor
    · exact Timers.held_setTimeout h.held.armed_clear
    · exact fun hs => absurd hs hstopped

theorem armed_wake (h : s.Armed) (currentTime : Int) (elapsed : Nat) :
    (wake options s currentTime elapsed).Armed := by
  unfold wake
  dsimp only
  split
  · exact ⟨h.held, h.stopped⟩
  · split
    · exact h
    · split
      · have hnext : (reschedule options s (currentTime + elapsed) (some options.minIntervalMS)).Armed :=
          armed_reschedule h _ _
        exact ⟨hnext.held, hnext.stopped⟩
      · exact h

theorem armed_complete (h : s.Armed) (now : Int) (failed : Bool) : (complete options s now failed).Armed := by
  have hs : { s with running := s.running - 1 }.Armed := ⟨h.held, h.stopped⟩
  unfold complete
  dsimp only
  split
  · exact hs
  · exact armed_reschedule hs now _

theorem armed_step (h : s.Armed) (ht : step options s e = some t) : t.Armed := by
  cases e with
  | wake currentTime elapsed =>
    cases ht
    have hwake : (wake options s currentTime elapsed).Armed := armed_wake h currentTime elapsed
    exact ⟨hwake.held, hwake.stopped⟩
  | stop =>
    cases ht
    exact ⟨Timers.held_of_armed_eq_nil h.held.armed_clear, fun _ => h.held.armed_clear⟩
  | fires handle now =>
    obtain ⟨timers, hfire, rfl⟩ := Option.map_eq_some_iff.1 ht
    obtain ⟨-, hnone, -⟩ := h.held.fire hfire
    exact ⟨Timers.held_of_armed_eq_nil hnone, fun _ => hnone⟩
  | completes now failed =>
    rw [step] at ht
    split at ht
    · cases ht
      have hcomplete : (complete options s now failed).Armed := armed_complete h now failed
      exact ⟨hcomplete.held, hcomplete.stopped⟩
    · cases ht

theorem armed_start (now : Int) (elapsed : Nat) : (start options now elapsed).Armed := by
  have hnew : ∀ (lastCallTime : Int), ({ lastCallTime, clock := now + elapsed } : AsyncInterval).Armed :=
    fun _ => ⟨Timers.held_of_armed_eq_nil rfl, fun _ => rfl⟩
  unfold start
  dsimp only
  split
  · exact ⟨(hnew 0).held, (hnew 0).stopped⟩
  · exact armed_reschedule (hnew now) _ _

/-! ## Stopping -/

theorem stopped_reschedule (now : Int) (ms : Option Int) : (reschedule options s now ms).stopped = s.stopped := by
  unfold reschedule
  split
  · rfl
  · rfl

theorem reschedule_of_stopped (h : s.stopped = true) (now : Int) (ms : Option Int) : reschedule options s now ms = s :=
  if_pos h

theorem wake_of_overdue {currentTime : Int} (h : s.lastCallTime + options.intervalMS < currentTime) (elapsed : Nat) :
    wake options s currentTime elapsed = executeAndReschedule s (currentTime + elapsed) :=
  if_pos (by omega)

/-- `wake()` does nothing in a stopped interval that is not overdue, but for the flag. -/
theorem wake_of_stopped {currentTime : Int} (hdue : currentTime ≤ s.lastCallTime + options.intervalMS)
    (h : s.stopped = true) (elapsed : Nat) :
    (wake options s currentTime elapsed).calls = s.calls ∧ (wake options s currentTime elapsed).timers = s.timers := by
  rw [wake, if_neg (by omega), reschedule_of_stopped h]
  split
  · exact ⟨rfl, rfl⟩
  · split
    · exact ⟨rfl, rfl⟩
    · exact ⟨rfl, rfl⟩

theorem stopped_wake (currentTime : Int) (elapsed : Nat) :
    (wake options s currentTime elapsed).stopped = s.stopped := by
  unfold wake
  dsimp only
  split
  · rfl
  · split
    · rfl
    · split
      · exact stopped_reschedule _ _
      · rfl

theorem stopped_complete (now : Int) (failed : Bool) : (complete options s now failed).stopped = s.stopped := by
  unfold complete
  dsimp only
  split
  · rfl
  · exact stopped_reschedule _ _

theorem stopped_step (ht : step options s e = some t) : t.stopped = true ↔ s.stopped = true ∨ e = .stop := by
  have hsame : t.stopped = s.stopped → e ≠ .stop → (t.stopped = true ↔ s.stopped = true ∨ e = .stop) := by
    rintro hstopped hne
    rw [hstopped, or_iff_left hne]
  cases e with
  | wake currentTime elapsed =>
    cases ht
    exact hsame (stopped_wake _ _) fun h => by cases h
  | stop =>
    cases ht
    exact iff_of_true rfl (.inr rfl)
  | fires handle now =>
    obtain ⟨timers, -, rfl⟩ := Option.map_eq_some_iff.1 ht
    exact hsame rfl fun h => by cases h
  | completes now failed =>
    apply hsame _ (fun h => by cases h)
    rw [step] at ht
    split at ht
    · cases ht
      exact stopped_complete _ _
    · cases ht

theorem stopped_exec : ∀ {events : List Event} {s t : AsyncInterval}, Run.exec (step options) s events = some t →
    (t.stopped = true ↔ s.stopped = true ∨ .stop ∈ events)
  | [], s, t, ht => by
    cases ht
    simp
  | e :: events, s, t, ht => by
    obtain ⟨u, hu, ht⟩ := (Run.exec_cons _).1 ht
    rw [stopped_exec ht, stopped_step hu, List.mem_cons, or_assoc, @eq_comm _ e]

theorem stopped_start (now : Int) (elapsed : Nat) : (start options now elapsed).stopped = false := by
  unfold start
  dsimp only
  split
  · rfl
  · exact stopped_reschedule _ _

variable (options) in
/-- `wake()` does not find a stopped interval overdue. -/
def Quiet (s : AsyncInterval) : Event → Prop
  | .wake currentTime _ => s.stopped = true → currentTime ≤ s.lastCallTime + options.intervalMS
  | _ => True

/-- A step of a stopped interval calls `fn` exactly when it is a call of `wake()` that finds it overdue. -/
theorem quiet_iff (h : s.Armed) (ht : step options s e = some t) :
    Quiet options s e ↔ (s.stopped = true → t.calls = s.calls ∧ t.timers.armed = []) := by
  cases e with
  | wake currentTime elapsed =>
    cases ht
    apply forall_congr'
    intro hstopped
    constructor
    · intro hdue
      obtain ⟨hcalls, htimers⟩ := wake_of_stopped hdue hstopped elapsed
      exact ⟨hcalls, htimers ▸ h.stopped hstopped⟩
    · rintro ⟨hcalls, -⟩
      by_contra hdue
      rw [wake_of_overdue (by omega)] at hcalls
      exact absurd hcalls (by simp [executeAndReschedule])
  | stop =>
    cases ht
    exact iff_of_true trivial fun _ => ⟨rfl, h.held.armed_clear⟩
  | fires handle now =>
    -- a stopped interval has no timer that could be called
    obtain ⟨timers, hfire, rfl⟩ := Option.map_eq_some_iff.1 ht
    obtain ⟨-, -, timer, htimer, -⟩ := h.held.fire hfire
    apply iff_of_true trivial
    intro hstopped
    rw [h.stopped hstopped] at htimer
    exact absurd htimer List.not_mem_nil
  | completes now failed =>
    rw [step] at ht
    split at ht
    · cases ht
      apply iff_of_true trivial
      intro hstopped
      have hstopped' : { s with running := s.running - 1 }.stopped = true := hstopped
      unfold complete
      dsimp only
      split
      · exact ⟨rfl, h.stopped hstopped⟩
      · rw [reschedule_of_stopped hstopped']
        exact ⟨rfl, h.stopped hstopped⟩
    · cases ht

end

/-- After `stop()`, `fn` is never called again and no timer is left armed. -/
def StaysStopped (s : AsyncInterval) (events : List Event) : Prop :=
  ∀ before middle after u v, events = before ++ middle ++ after → Run.exec (step options) s before = some u →
    Run.exec (step options) u middle = some v → .stop ∈ before → v.calls = u.calls ∧ v.timers.armed = []

/-- In every run, `fn` is never called after `stop()` and no timer is left armed exactly when no call of `wake()`
finds the interval both stopped and overdue. -/
theorem staysStopped_iff (now : Int) (elapsed : Nat) {events : List Event} {t : AsyncInterval}
    (ht : Run.exec (step options) (start options now elapsed) events = some t) :
    Run.Meets (step options) (Quiet options) (start options now elapsed) events ↔
      StaysStopped options (start options now elapsed) events := by
  constructor
  · rintro hmeets before middle after u v rfl hu hv hstop
    rw [List.append_assoc] at hmeets
    have harmed : u.Armed := Run.exec_inv _ (fun _ _ _ => armed_step) (armed_start now elapsed) hu
    have hstopped : u.stopped = true := (stopped_exec hu).2 (.inr hstop)
    have hinv : v.Armed ∧ v.stopped = true ∧ v.calls = u.calls := by
      apply Run.exec_inv_meets _ _ ⟨harmed, hstopped, rfl⟩ (hmeets.right hu).left hv
      rintro w e w' ⟨hw, hs, hcalls⟩ hquiet hw'
      have hsame := (quiet_iff hw hw').1 hquiet hs
      exact ⟨armed_step hw hw', (stopped_step hw').2 (.inl hs), hsame.1.trans hcalls⟩
    exact ⟨hinv.2.2, hinv.1.stopped hinv.2.1⟩
  · intro hstays
    rw [Run.meets_iff_steps_inv _ (fun _ _ _ => armed_step) (fun _ _ _ => quiet_iff) (armed_start now elapsed) ht]
    rintro before e after u v rfl hu hv hstopped
    have hstop : Event.stop ∈ before := by
      rcases (stopped_exec hu).1 hstopped with hstart | hstop
      · rw [stopped_start] at hstart
        cases hstart
      · exact hstop
    apply hstays before [e] after u v (by simp) hu _ hstop
    rw [Run.exec, hv]
    rfl

end

/-- Woken up before and after it is stopped. -/
theorem staysStopped_iff_woken :
    Run.Meets (step {}) (Quiet {}) (start {} 0 0) [.wake 100 2, .stop, .wake 900 0] ↔
      StaysStopped {} (start {} 0 0) [.wake 100 2, .stop, .wake 900 0] :=
  staysStopped_iff {} 0 0 rfl

/-- Woken up after it is stopped, when the clock is past the interval, it calls `fn`. -/
theorem called_after_stop :
    (∃ t, Run.exec (step {}) (start {} 5000 0) [.stop, .wake 5100 0] = some t ∧ t.calls = [5100]) ∧
      ¬ StaysStopped {} (start {} 5000 0) [.stop, .wake 5100 0] := by
  constructor
  · exact ⟨_, rfl, rfl⟩
  · intro h
    have hcalls := (h [.stop] [.wake 5100 0] [] _ _ rfl rfl rfl List.mem_cons_self).1
    exact absurd hcalls (by decide)

end AsyncInterval

end MongoDriver
