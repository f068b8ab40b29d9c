/-
The BSON values the driver orders: object ids (compared as twelve bytes) and the 64-bit counters
of topology versions, which a reply carries as a `Long` or, when longs are promoted, as a number.
-/
import Mathlib.Data.List.Lex
import Mathlib.Order.Fin.Basic

namespace MongoDriver

/-- A BSON ObjectId: twelve bytes. -/
structure ObjectId where
  id : List (Fin 256)
  size : id.length = 12
deriving DecidableEq

namespace ObjectId

/-- The id whose bytes are all `b`. -/
def replicate (b : Nat) : ObjectId := ⟨List.replicate 12 (Fin.ofNat 256 b), List.length_replicate⟩

/-- `Buffer.compare`: byte by byte, the first difference decides. -/
def compare (a b : ObjectId) : Int :=
  if a.id < b.id then -1 else if b.id < a.id then 1 else 0

theorem compare_pos {a b : ObjectId} : 0 < a.compare b ↔ b.id < a.id := by
  unfold compare
  split
  · rename_i h; simp [h.le]
  · split
    · rename_i h; simp [h]
    · rename_i h; simp [h]

theorem compare_nonpos {a b : ObjectId} : a.compare b ≤ 0 ↔ a.id ≤ b.id := by
  rw [← not_lt, compare_pos, not_lt]

theorem compare_self (a : ObjectId) : a.compare a ≤ 0 := compare_nonpos.2 le_rfl

theorem compare_trans {a b c : ObjectId} (h₁ : a.compare b ≤ 0) (h₂ : b.compare c ≤ 0) : a.compare c ≤ 0 :=
  compare_nonpos.2 ((compare_nonpos.1 h₁).trans (compare_nonpos.1 h₂))

end ObjectId

/-- A 64-bit counter as a reply carries it: a `Long` object or a plain number. -/
structure Counter where
  isLong : Bool
  value : Int
  lo : -9223372036854775808 ≤ value
  hi : value < 9223372036854775808
deriving DecidableEq

namespace Counter

/-- `Long.fromNumber`, exact on the 64-bit range. -/
def fromNumber (c : Counter) : Counter := { c with isLong := true }

/-- `Long.prototype.compare`; an argument that is not a `Long` is converted first. -/
def compare (a b : Counter) : Int :=
  let other := if b.isLong then b else fromNumber b
  if a.value = other.value then 0 else if a.value < other.value then -1 else 1

@[simp] theorem fromNumber_value (c : Counter) : c.fromNumber.value = c.value := rfl

theorem compare_eq (a b : Counter) : a.compare b = (a.value - b.value).sign := by
  have hother : (if b.isLong then b else fromNumber b).value = b.value := by split <;> rfl
  unfold compare
  simp only [hother]
  split
  · rename_i h; rw [h]; simp
  · split
    · rename_i h; exact (Int.sign_eq_neg_one_of_neg (by omega)).symm
    · rename_i h1 h2; exact (Int.sign_eq_one_of_pos (by omega)).symm

end Counter

/-- `TopologyVersion`: the server process and how many state changes it has seen. -/
structure TopologyVersion where
  processId : ObjectId
  counter : Counter
deriving DecidableEq

end MongoDriver
