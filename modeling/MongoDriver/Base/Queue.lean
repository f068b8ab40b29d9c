/-
Queues that are read in pieces. A queue is the list of the items in it: items are put at its end, and taken, or only
looked at, in front, as many as are asked for or none when there are fewer. A machine whose every call answers as the
queue of what it contains does cannot be told from the queue by any list of calls.
-/
import Mathlib.Logic.Basic

namespace Queue

universe u v

variable {α : Type u}

/-- The calls of a queue. -/
inductive Call (α : Type u)
  | append (items : List α)
  | peek (size : Nat)
  | read (size : Nat)

/-- The first items, or none when there are not as many. -/
def front (items : List α) (size : Nat) : List α := if size ≤ items.length then items.take size else []

/-- What a call returns, if it returns items, and the queue afterwards. -/
def call (items : List α) : Call α → Option (List α) × List α
  | .append new => (none, items ++ new)
  | .peek size => (some (front items size), items)
  | .read size => (some (front items size), items.drop (front items size).length)

/-- What a list of calls returns, and the length after each. -/
def observe (items : List α) : List (Call α) → List (Option (List α) × Nat)
  | [] => []
  | c :: calls => ((call items c).1, (call items c).2.length) :: observe (call items c).2 calls

section

variable {items : List α} {size : Nat}

theorem front_of_le (h : size ≤ items.length) : front items size = items.take size := if_pos h

theorem front_of_lt (h : items.length < size) : front items size = [] := if_neg (by omega)

/-- Where a read stops. -/
theorem drop_front : items.drop (front items size).length = if size ≤ items.length then items.drop size else items := by
  by_cases h : size ≤ items.length
  · rw [front_of_le h, List.length_take, Nat.min_eq_left h, if_pos h]
  · rw [front_of_lt (by omega), if_neg h]
    rfl

end

/-! ## Machines -/

section

variable {σ : Type u} {ε : Type v} (step : σ → Call α → Except ε (Option (List α) × σ)) (length : σ → Nat)

/-- What a list of calls of a machine returns, and its length after each. -/
def observed (s : σ) : List (Call α) → Except ε (List (Option (List α) × Nat))
  | [] => .ok []
  | c :: calls => do
    let (result, t) ← step s c
    return (result, length t) :: (← observed t calls)

/-- A machine whose calls answer as those of the queue of its contents is that queue, over every list of calls. -/
theorem observed_eq {contents : σ → List α}
    (hstep : ∀ s c, ∃ t, step s c = .ok ((call (contents s) c).1, t) ∧ contents t = (call (contents s) c).2)
    (hlength : ∀ s, length s = (contents s).length) :
    ∀ (calls : List (Call α)) (s : σ), observed step length s calls = .ok (observe (contents s) calls)
  | [], s => rfl
  | c :: calls, s => by
    obtain ⟨t, ht, hcontents⟩ := hstep s c
    have ih := observed_eq hstep hlength calls t
    rw [observed, ht, observe, ← hcontents, ← hlength]
    simp only [bind, Except.bind, ih]
    rfl

end

end Queue
