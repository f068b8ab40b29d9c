/-
The spacing of an interruptible interval (`makeInterruptibleAsyncInterval` of `src/utils.ts`). `fn` is not called
before `minInterval` has passed or while a call of it runs, as long as `wake()` neither sets a timer while `fn` runs
nor executes while `fn` runs, while a timer is armed, or after `stop()`: `wake()` looks at the time of the last call
only.
-/
import MongoDriver.Utils.InterruptibleInterval

namespace MongoDriver

/-- The options keep the calls apart: the interval is no shorter than the minimum and not beyond the longest delay of a
timer, which then is one millisecond. -/
def IntervalOptions.Fits (options : IntervalOptions) : Prop :=
  0 < options.minIntervalMS → options.minIntervalMS ≤ options.intervalMS ∧
    (options.intervalMS ≤ Timers.maxDelay ∨ options.minIntervalMS = 1)

namespace AsyncInterval

section

variable (options : IntervalOptions)

/-- The clock does not go back. -/
def Forward (s : AsyncInterval) : Event → Prop
  | .wake currentTime _ => s.clock ≤ currentTime
  | .stop => True
  | .fires _ now => s.clock ≤ now
  | .completes now _ => s.clock ≤ now

/-- `wake()` executes only while `fn` does not run and no timer is armed, and not after `stop()`, and it sets a timer
only while `fn` does not run. -/
def Timely (s : AsyncInterval) : Event → Prop
  | .wake currentTime _ =>
    if s.lastCallTime + options.intervalMS < currentTime then
      s.stopped = false ∧ s.running = 0 ∧ s.timers.armed = []
    else s.stopped = true ∨ s.cannotBeExpedited = true ∨
      s.lastCallTime + options.intervalMS ≤ currentTime + options.minIntervalMS ∨ s.running = 0
  | _ => True

/-- One call of `fn` at most runs, and then no timer is armed; a timer is due when the minimum has passed after every
call, and the calls are as far apart. -/
structure Spaced (s : AsyncInterval) : Prop where
  armed : s.Armed
  alone : s.running ≤ 1
  idle : 0 < s.running → s.timers.armed = []
  clock : ∀ call ∈ s.calls, call ≤ s.clock
  last : s.stopped = false → ∀ call ∈ s.calls, call ≤ s.lastCallTime
  due : ∀ timer ∈ s.timers.armed, ∀ call ∈ s.calls, call + options.minIntervalMS ≤ timer.due
  calls : s.calls.Pairwise fun a b => a + options.minIntervalMS ≤ b

section

variable {options} {s t : AsyncInterval} {e : Event}

theorem armed_execute (h : s.timers.armed = []) (now : Int) : (executeAndReschedule s now).Armed := by
  constructor
  · exact Timers.held_of_armed_eq_nil h
  · exact fun _ => h

theorem spaced_execute (h : Spaced options s) {now : Int} (hclock : s.clock ≤ now) (hrunning : s.running = 0)
    (hnone : s.timers.armed = []) (hcalls : ∀ call ∈ s.calls, call + options.minIntervalMS ≤ now) :
    Spaced options { executeAndReschedule s now with clock := now } := by
  have hbefore : ∀ call ∈ s.calls ++ [now], call ≤ now := by
    intro call hcall
    rcases List.mem_append.1 hcall with hcall | hcall
    · exact Int.le_trans (h.clock call hcall) hclock
    · exact Int.le_of_eq (List.mem_singleton.1 hcall)
  have harmed := armed_execute hnone now
  constructor
  · exact ⟨harmed.held, harmed.stopped⟩
  · simp [executeAndReschedule, hrunning]
  · exact fun _ => hnone
  · exact hbefore
  · exact fun _ => hbefore
  · intro timer htimer
    have hmem : timer ∈ s.timers.armed := htimer
    rw [hnone] at hmem
    exact absurd hmem List.not_mem_nil
  · rw [executeAndReschedule, List.pairwise_append]
    refine ⟨h.calls, List.pairwise_singleton _ _, ?_⟩
    intro call hcall last hlast
    rw [List.mem_singleton.1 hlast]
    exact hcalls call hcall

theorem spaced_clock (h : Spaced options s) {now : Int} (hclock : s.clock ≤ now) :
    Spaced options { s with clock := now } :=
  ⟨⟨h.armed.held, h.armed.stopped⟩, h.alone, h.idle, fun call hcall => Int.le_trans (h.clock call hcall) hclock, h.last,
    h.due, h.calls⟩

theorem spaced_flag (h : Spaced options s) (cannotBeExpedited : Bool) :
    Spaced options { s with cannotBeExpedited } :=
  ⟨⟨h.armed.held, h.armed.stopped⟩, h.alone, h.idle, h.clock, h.last, h.due, h.calls⟩

/-- With no timer that is armed and `fn` not running, the interval may stop, or start afresh. -/
theorem spaced_timers (h : Spaced options s) {timers : Timers} (hnone : timers.armed = []) :
    Spaced options { s with timers := timers } := by
  constructor
  · exact ⟨Timers.held_of_armed_eq_nil hnone, fun _ => hnone⟩
  · exact h.alone
  · exact fun _ => hnone
  · exact h.clock
  · exact h.last
  · intro timer htimer
    have hmem : timer ∈ timers.armed := htimer
    rw [hnone] at hmem
    exact absurd hmem List.not_mem_nil
  · exact h.calls

theorem spaced_reschedule (h : Spaced options s) {now : Int} {ms : Option Int} (hclock : s.clock ≤ now)
    (hrunning : s.running = 0) (hdelay : options.minIntervalMS ≤ Timers.delayOf (orOtherwise ms options.intervalMS)) :
    Spaced options { reschedule options s now ms with clock := now } := by
  have harmed : (reschedule options s now ms).Armed := armed_reschedule h.armed now ms
  unfold reschedule at harmed ⊢
  split
  · exact spaced_clock h hclock
  · rename_i hstopped
    rw [if_neg hstopped] at harmed
    constructor
    · exact ⟨harmed.held, harmed.stopped⟩
    · exact h.alone
    · intro hpos
      have hrunning' : 0 < s.running := hpos
      omega
    · exact fun call hcall => Int.le_trans (h.clock call hcall) hclock
    · exact h.last
    · intro timer htimer call hcall
      rw [Timers.armed_setTimeout h.armed.held.armed_clear, List.mem_singleton] at htimer
      have hcall' := h.clock call hcall
      rw [htimer]
      dsimp only
      omega
    · exact h.calls

theorem minInterval_le_delayOf (hfits : options.Fits) :
    options.minIntervalMS ≤ Timers.delayOf (orOtherwise (some options.intervalMS) options.intervalMS) ∧
      options.minIntervalMS ≤ Timers.delayOf (orOtherwise (some options.minIntervalMS) options.intervalMS) ∧
      options.minIntervalMS ≤ Timers.delayOf (orOtherwise none options.intervalMS) := by
  have hinterval : options.minIntervalMS ≤ Timers.delayOf options.intervalMS := by
    apply Timers.le_delayOf
    rw [IntervalOptions.Fits] at hfits
    omega
  have hminInterval : options.minIntervalMS ≤ Timers.delayOf options.minIntervalMS := by
    apply Timers.le_delayOf
    rw [IntervalOptions.Fits] at hfits
    omega
  refine ⟨?_, ?_, hinterval⟩
  · rw [orOtherwise_some]
    split
    · exact hinterval
    · exact hinterval
  · rw [orOtherwise_some]
    split
    · exact hinterval
    · exact hminInterval

theorem spaced_step (hfits : options.Fits) (h : Spaced options s) (hforward : Forward s e)
    (htimely : Timely options s e) (ht : step options s e = some t) : Spaced options t := by
  obtain ⟨hinterval, hminInterval, -⟩ := minInterval_le_delayOf hfits
  cases e with
  | wake currentTime elapsed =>
    cases ht
    have hclock : s.clock ≤ currentTime + elapsed := by
      rw [Forward] at hforward
      omega
    rw [Timely] at htimely
    unfold wake
    dsimp only
    split
    · rename_i hoverdue
      rw [if_pos (by omega)] at htimely
      obtain ⟨hstopped, hrunning, hnone⟩ := htimely
      apply spaced_execute h hclock hrunning hnone
      intro call hcall
      have hlast := h.last hstopped call hcall
      have hbefore := h.clock call hcall
      rw [Forward] at hforward
      by_cases hpos : 0 < options.minIntervalMS
      · have hle := (hfits hpos).1
        omega
      · omega
    · rename_i hdue
      rw [if_neg (by omega)] at htimely
      split
      · exact spaced_clock h hclock
      · rename_i hexpedited
        split
        · rename_i hlong
          rcases htimely with hstopped | hflag | hshort | hrunning
          · rw [reschedule_of_stopped hstopped]
            exact spaced_flag (spaced_clock h hclock) true
          · exact absurd hflag hexpedited
          · omega
          · exact spaced_flag (spaced_reschedule h hclock hrunning hminInterval) true
        · exact spaced_clock h hclock
  | stop =>
    cases ht
    have hnone := h.armed.held.armed_clear
    have hspaced := spaced_timers h hnone
    refine ⟨⟨Timers.held_of_armed_eq_nil hnone, fun _ => hnone⟩, hspaced.alone, hspaced.idle, hspaced.clock, ?_,
      hspaced.due, hspaced.calls⟩
    rintro ⟨⟩
  | fires handle now =>
    -- the timer that is armed says that `fn` does not run, and when it may
    obtain ⟨timers, hfire, rfl⟩ := Option.map_eq_some_iff.1 ht
    obtain ⟨-, hnone, timer, htimer, hdue⟩ := h.armed.held.fire hfire
    have hrunning : s.running = 0 := by
      by_contra hpos
      rw [h.idle (by omega)] at htimer
      exact absurd htimer List.not_mem_nil
    apply spaced_execute (spaced_timers h hnone) hforward hrunning hnone
    intro call hcall
    have hspace := h.due timer htimer call hcall
    omega
  | completes now failed =>
    rw [step] at ht
    split at ht
    · rename_i hpos
      cases ht
      have halone := h.alone
      have hnone := h.idle hpos
      have hdone : Spaced options { s with running := s.running - 1 } := by
        refine ⟨⟨h.armed.held, h.armed.stopped⟩, ?_, fun _ => hnone, h.clock, h.last, h.due, h.calls⟩
        dsimp only
        omega
      unfold complete
      dsimp only
      split
      · exact spaced_clock hdone hforward
      · apply spaced_reschedule hdone hforward _ hinterval
        dsimp only
        omega
    · cases ht

theorem spaced_start (hfits : options.Fits) (now : Int) (elapsed : Nat) :
    Spaced options (start options now elapsed) := by
  obtain ⟨-, -, hdelay⟩ := minInterval_le_delayOf hfits
  have hnew : ∀ lastCallTime, Spaced options { lastCallTime, clock := now } := by
    intro lastCallTime
    constructor
    · exact ⟨Timers.held_of_armed_eq_nil rfl, fun _ => rfl⟩
    · exact Nat.zero_le 1
    · exact fun _ => rfl
    · exact fun call hcall => absurd hcall List.not_mem_nil
    · exact fun _ call hcall => absurd hcall List.not_mem_nil
    · exact fun timer htimer => absurd htimer List.not_mem_nil
    · exact List.Pairwise.nil
  have hclock : now ≤ now + elapsed := by omega
  unfold start
  dsimp only
  split
  · have hspaced := spaced_execute (hnew 0) (Int.le_refl now) rfl rfl fun call hcall => absurd hcall List.not_mem_nil
    exact spaced_clock hspaced hclock
  · exact spaced_reschedule (hnew now) hclock rfl hdelay

end

/-- In every run under a clock that does not go back whose calls of `wake()` are all timely, with options that keep
the calls apart, `fn` is not called while a call of it runs, nor before the minimum has passed. -/
theorem spaced_of_timely (hfits : options.Fits) (now : Int) (elapsed : Nat) {events : List Event} {t : AsyncInterval}
    (ht : Run.exec (step options) (start options now elapsed) events = some t)
    (hforward : Run.Meets (step options) Forward (start options now elapsed) events)
    (htimely : Run.Meets (step options) (Timely options) (start options now elapsed) events) :
    t.running ≤ 1 ∧ t.calls.Pairwise fun a b => a + options.minIntervalMS ≤ b := by
  have hspaced : Spaced options t := by
    apply Run.exec_inv_meets _ _ (spaced_start hfits now elapsed) (Run.meets_and _ hforward htimely) ht
    rintro s e s' hs ⟨hforward, htimely⟩ hs'
    exact spaced_step hfits hs hforward htimely hs'
  exact ⟨hspaced.alone, hspaced.calls⟩

/-- Woken up twice, each time while `fn` does not run. -/
theorem spaced_of_timely_twice :
    ∃ t, Run.exec (step {}) (start {} 0 0)
      [.wake 100 0, .fires 1 600, .completes 650 false, .wake 700 0, .fires 3 1200] = some t ∧
      t.calls = [600, 1200] ∧ t.running ≤ 1 ∧
      t.calls.Pairwise fun a b => a + IntervalOptions.minIntervalMS {} ≤ b := by
  have hrun : Run.exec (step {}) (start {} 0 0)
      [.wake 100 0, .fires 1 600, .completes 650 false, .wake 700 0, .fires 3 1200] =
        some { timerId := some 3, lastCallTime := 1200, timers := { next := 4 }, running := 1, calls := [600, 1200],
               clock := 1200 } := by
    rfl
  have hfits : IntervalOptions.Fits {} := fun _ => ⟨by decide, .inl (by decide)⟩
  have hforward : Run.Meets (step {}) Forward (start {} 0 0)
      [.wake 100 0, .fires 1 600, .completes 650 false, .wake 700 0, .fires 3 1200] := by
    apply Run.Meets.cons (by unfold Forward; decide) rfl
    apply Run.Meets.cons (by unfold Forward; decide) rfl
    apply Run.Meets.cons (by unfold Forward; decide) rfl
    apply Run.Meets.cons (by unfold Forward; decide) rfl
    apply Run.Meets.cons (by unfold Forward; decide) rfl
    trivial
  have htimely : Run.Meets (step {}) (Timely {}) (start {} 0 0)
      [.wake 100 0, .fires 1 600, .completes 650 false, .wake 700 0, .fires 3 1200] := by
    apply Run.Meets.cons (by unfold Timely; decide) rfl
    apply Run.Meets.cons (by unfold Timely; decide) rfl
    apply Run.Meets.cons (by unfold Timely; decide) rfl
    apply Run.Meets.cons (by unfold Timely; decide) rfl
    apply Run.Meets.cons (by unfold Timely; decide) rfl
    trivial
  exact ⟨_, hrun, rfl, spaced_of_timely {} hfits 0 0 hrun hforward htimely⟩

/-- The timer runs late: `wake()` calls `fn`, and then the timer does, while the first call still runs. -/
theorem called_twice_at_once :
    ∃ t, Run.exec (step {}) (start {} 0 0) [.wake 1001 0, .fires 0 1001] = some t ∧
      Run.Meets (step {}) Forward (start {} 0 0) [.wake 1001 0, .fires 0 1001] ∧
      t.running = 2 ∧ t.calls = [1001, 1001] := by
  refine ⟨_, rfl, ?_, rfl, rfl⟩
  refine ⟨by unfold Forward; decide, fun s hs => ?_⟩
  cases hs
  refine ⟨by unfold Forward; decide, fun s hs => trivial⟩

end

end AsyncInterval

end MongoDriver
