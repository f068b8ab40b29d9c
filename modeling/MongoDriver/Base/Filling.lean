/-
Filling a buffer from the front. A buffer is allocated with the size it will need and its fields are written
one after the other, each at an index kept by hand. As long as each field starts where the one before ended and
fits, the buffer is in the end the concatenation of the fields.
-/
import Mathlib.Data.List.Basic

namespace Filling

variable {α : Type*}

/-- The index is at the end of what was written, after which the buffer has room for `free` elements. -/
structure Filled (buffer : List α) (index : Nat) (written : List α) (free : Nat) : Prop where
  index_eq : index = written.length
  split : ∃ rest, buffer = written ++ rest ∧ rest.length = free

/-- `block` written over the elements from `index` on. -/
def splice (buffer : List α) (index : Nat) (block : List α) : List α :=
  buffer.take index ++ block ++ buffer.drop (index + block.length)

theorem filled_alloc (n : Nat) (a : α) : Filled (List.replicate n a) 0 [] n := ⟨rfl, _, rfl, List.length_replicate⟩

namespace Filled

variable {buffer written : List α} {free index : Nat}

theorem eq (h : Filled buffer index written 0) : buffer = written := by
  obtain ⟨-, rest, rfl, hrest⟩ := h
  rw [List.eq_nil_of_length_eq_zero hrest, List.append_nil]

theorem take_eq (h : Filled buffer index written free) : buffer.take index = written := by
  obtain ⟨rfl, rest, rfl, -⟩ := h
  exact List.take_left

theorem length (h : Filled buffer index written free) : buffer.length = index + free := by
  obtain ⟨rfl, rest, rfl, rfl⟩ := h
  exact List.length_append

theorem splice {block : List α} (h : Filled buffer index written (block.length + free)) :
    Filled (splice buffer index block) (index + block.length) (written ++ block) free := by
  obtain ⟨rfl, rest, rfl, hrest⟩ := h
  refine ⟨List.length_append.symm, rest.drop block.length, ?_, ?_⟩
  · rw [Filling.splice, List.take_left, List.drop_append, List.drop_of_length_le (Nat.le_add_right ..),
      Nat.add_sub_cancel_left, List.nil_append]
  · rw [List.length_drop, hrest, Nat.add_sub_cancel_left]

/-- One element. -/
theorem set (h : Filled buffer index written (free + 1)) (a : α) :
    Filled (buffer.set index a) (index + 1) (written ++ [a]) free := by
  obtain ⟨rfl, rest, rfl, hrest⟩ := h
  match rest, hrest with
  | b :: rest, hrest =>
    refine ⟨by simp, rest, ?_, Nat.succ.inj hrest⟩
    rw [List.set_append_right _ _ (Nat.le_refl _), Nat.sub_self, List.append_assoc]
    rfl

/-- Four elements, the last one first. -/
theorem set_four (h : Filled buffer index written (free + 4)) (a b c d : α) :
    Filled ((((buffer.set (index + 3) d).set (index + 2) c).set (index + 1) b).set index a) (index + 4)
      (written ++ [a, b, c, d]) free := by
  obtain ⟨rfl, rest, rfl, hrest⟩ := h
  match rest, hrest with
  | w :: x :: y :: z :: rest, hrest =>
    refine ⟨by simp, rest, ?_, by simpa using hrest⟩
    have hset : ∀ (l : List α) (k : Nat) (e : α),
        (written ++ l).set (written.length + k) e = written ++ l.set k e := by
      intro l k e
      rw [List.set_append_right _ _ (Nat.le_add_right ..), Nat.add_sub_cancel_left]
    have hfirst : ∀ (l : List α) (e : α), (written ++ l).set written.length e = written ++ l.set 0 e :=
      fun l e => hset l 0 e
    rw [hset, hset, hset, hfirst, List.append_assoc]
    rfl

end Filled

end Filling
