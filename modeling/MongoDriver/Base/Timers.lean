/-
Timers of the event loop: `setTimeout`, `clearTimeout` and the moment a callback is called. A component keeps the
handle of one timer in a variable and clears it before it sets the next one; `Held` says what that discipline gives.
Times are whole milliseconds.
-/
import Mathlib.Data.List.Basic

namespace MongoDriver

/-- A timer that is armed. -/
structure Timer where
  handle : Nat
  due : Int
deriving DecidableEq

/-- The timers that are armed, and the next handle. -/
structure Timers where
  next : Nat := 0
  armed : List Timer := []
deriving DecidableEq

namespace Timers

/-- The longest delay of a timer. -/
def maxDelay : Int := 2147483647

/-- The delay of a timer: one millisecond in the place of one that is out of range. -/
def delayOf (ms : Int) : Int := if 1 ≤ ms ∧ ms ≤ maxDelay then ms else 1

/-- `setTimeout(callback, ms)` at some time. Its handle is `timers.next`. -/
def setTimeout (timers : Timers) (now ms : Int) : Timers :=
  { next := timers.next + 1, armed := timers.armed ++ [{ handle := timers.next, due := now + delayOf ms }] }

/-- `clearTimeout(handle)`, which does nothing to a timer that has been called. -/
def clearTimeout (timers : Timers) (handle : Nat) : Timers :=
  { timers with armed := timers.armed.filter fun timer => timer.handle ≠ handle }

/-- `if (timerId) clearTimeout(timerId)`. -/
def clear (timers : Timers) (timerId : Option Nat) : Timers := timerId.elim timers timers.clearTimeout

/-- The callback of a timer is called, at its due time or later. -/
def fire? (timers : Timers) (handle : Nat) (now : Int) : Option Timers :=
  if ∃ timer ∈ timers.armed, timer.handle = handle ∧ timer.due ≤ now then some (timers.clearTimeout handle) else none

/-- At most one timer is armed, and then the variable has its handle. -/
structure Held (timers : Timers) (timerId : Option Nat) : Prop where
  one : timers.armed.length ≤ 1
  handle : ∀ timer ∈ timers.armed, timerId = some timer.handle

section

variable {timers : Timers} {timerId : Option Nat}

theorem held_of_armed_eq_nil (h : timers.armed = []) : timers.Held timerId := by
  constructor
  · rw [h]
    exact Nat.zero_le 1
  · rw [h]
    exact fun timer htimer => absurd htimer List.not_mem_nil

@[simp]
theorem armed_setTimeout {now ms : Int} (h : timers.armed = []) :
    (timers.setTimeout now ms).armed = [{ handle := timers.next, due := now + delayOf ms }] := by
  rw [setTimeout, h, List.nil_append]

theorem held_setTimeout {now ms : Int} (h : timers.armed = []) :
    (timers.setTimeout now ms).Held (some timers.next) := by
  constructor
  · rw [armed_setTimeout h]
    exact Nat.le_refl 1
  · intro timer htimer
    rw [armed_setTimeout h, List.mem_singleton] at htimer
    rw [htimer]

/-- Clearing the timer in the variable leaves none. -/
theorem Held.armed_clear (h : timers.Held timerId) : (timers.clear timerId).armed = [] := by
  cases timerId with
  | none =>
    apply List.eq_nil_iff_forall_not_mem.2
    intro timer htimer
    cases h.handle timer htimer
  | some handle =>
    apply List.filter_eq_nil_iff.2
    intro timer htimer
    rw [Option.some.inj (h.handle timer htimer)]
    simp

/-- The timer that is called is the one in the variable, and none is left. -/
theorem Held.fire {timers' : Timers} {handle : Nat} {now : Int} (h : timers.Held timerId)
    (hfire : timers.fire? handle now = some timers') :
    timerId = some handle ∧ timers'.armed = [] ∧ ∃ timer ∈ timers.armed, timer.due ≤ now := by
  unfold fire? at hfire
  split at hfire
  · rename_i hdue
    obtain ⟨timer, htimer, rfl, hle⟩ := hdue
    have hhandle := h.handle timer htimer
    cases hfire
    refine ⟨hhandle, ?_, timer, htimer, hle⟩
    have hclear := h.armed_clear
    rw [hhandle] at hclear
    exact hclear
  · cases hfire

end

/-- A delay is at least some time when it is in range and as long, or when the time is one at most. -/
theorem le_delayOf {ms time : Int} (h : time ≤ 1 ∨ time ≤ ms ∧ ms ≤ maxDelay) : time ≤ delayOf ms := by
  unfold delayOf
  split
  · omega
  · omega

end Timers

end MongoDriver
