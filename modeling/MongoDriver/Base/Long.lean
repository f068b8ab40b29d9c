/-
64-bit integers as BSON has them: a `Long` is 64 bits with a flag that tells whether they are read without a sign.
Comparing goes by the signs, by a subtraction that wraps, and by the bits. Two longs that are read alike compare as
the integers they stand for.
-/
namespace Bson

/-- `Long`. -/
structure Long where
  bits : BitVec 64
  unsigned : Bool := false
deriving DecidableEq

namespace Long

variable (a b : Long)

def zero : Long := { bits := 0#64 }

/-- The integer that the bits are read as. -/
def value : Int := if a.unsigned then a.bits.toNat else a.bits.toInt

/-- `Long.fromNumber`: an integer out of range becomes the nearest one. -/
def fromNumber (n : Int) : Long :=
  if n ≤ -9223372036854775808 then { bits := 9223372036854775808#64 }
  else if 9223372036854775807 ≤ n then { bits := 9223372036854775807#64 }
  else { bits := BitVec.ofInt 64 n }

def isNegative : Bool := !a.unsigned && a.bits.msb

/-- `Long.prototype.equals`: a negative one is not the unsigned one with its bits. -/
def equals : Bool :=
  if a.unsigned ≠ b.unsigned ∧ a.bits.msb = true ∧ b.bits.msb = true then false else a.bits = b.bits

def sub : Long := { a with bits := a.bits - b.bits }

/-- `Long.prototype.compare`. -/
def compare : Int :=
  if a.equals b then 0
  else if a.isNegative && !b.isNegative then -1
  else if !a.isNegative && b.isNegative then 1
  else if !a.unsigned then if (a.sub b).isNegative then -1 else 1
  else if a.bits < b.bits then -1 else 1

def greaterThan : Bool := 0 < a.compare b

variable {a b}

theorem value_unsigned (h : a.unsigned = true) : a.value = a.bits.toNat := if_pos h

theorem value_signed (h : a.unsigned = false) : a.value = a.bits.toInt := by
  unfold value
  rw [h]
  rfl

theorem equals_iff (h : a.unsigned = b.unsigned) : a.equals b = true ↔ a.value = b.value := by
  have hbits : a.equals b = true ↔ a.bits = b.bits := by
    unfold equals
    rw [if_neg fun hne => hne.1 h, decide_eq_true_iff]
  rw [hbits]
  cases hb : b.unsigned with
  | true =>
    rw [value_unsigned (h.trans hb), value_unsigned hb, Int.natCast_inj, BitVec.toNat_inj]
  | false => rw [value_signed (h.trans hb), value_signed hb, BitVec.toInt_inj]

/-- The difference of two longs of one sign does not wrap. -/
theorem sub_isNegative (ha : a.unsigned = false) (hsign : a.bits.msb = b.bits.msb) :
    (a.sub b).isNegative = true ↔ a.bits.toInt < b.bits.toInt := by
  have hsub : (a.sub b).isNegative = (a.bits - b.bits).msb := by
    unfold isNegative sub
    rw [ha]
    rfl
  have hx := a.bits.isLt
  have hy := b.bits.isLt
  rw [BitVec.msb_eq_decide, BitVec.msb_eq_decide, decide_eq_decide] at hsign
  rw [hsub, BitVec.msb_eq_decide, decide_eq_true_iff, BitVec.toNat_sub, BitVec.toInt_eq_toNat_cond,
    BitVec.toInt_eq_toNat_cond]
  split <;> split <;> omega

theorem isNegative_signed (h : a.unsigned = false) : a.isNegative = a.bits.msb := by
  unfold isNegative
  rw [h]
  rfl

theorem isNegative_unsigned (h : a.unsigned = true) : a.isNegative = false := by
  unfold isNegative
  rw [h]
  rfl

theorem greaterThan_signed (ha : a.unsigned = false) (hb : b.unsigned = false) :
    a.greaterThan b = true ↔ b.value < a.value := by
  unfold greaterThan compare
  rw [decide_eq_true_iff]
  by_cases heq : a.equals b = true
  · rw [if_pos heq, (equals_iff (ha.trans hb.symm)).1 heq]
    simp
  · have hne : a.value ≠ b.value := fun hv => heq ((equals_iff (ha.trans hb.symm)).2 hv)
    rw [value_signed ha, value_signed hb] at hne
    rw [if_neg heq, isNegative_signed ha, isNegative_signed hb, ha, value_signed ha, value_signed hb]
    by_cases hsign : a.bits.msb = b.bits.msb
    · have hsub := sub_isNegative ha hsign
      by_cases hlt : a.bits.toInt < b.bits.toInt
      · simp [hsign, hsub.2 hlt]
        omega
      · have hn : (a.sub b).isNegative = false := by simpa using fun hs => hlt (hsub.1 hs)
        simp [hsign, hn]
        omega
    · cases hma : a.bits.msb with
      | true =>
        have hmb : b.bits.msb = false := by simpa [hma] using hsign
        have hlow := BitVec.toInt_neg_of_msb_true hma
        have hhigh := BitVec.toInt_nonneg_of_msb_false hmb
        simp [hmb]
        omega
      | false =>
        have hmb : b.bits.msb = true := by simpa [hma] using hsign
        have hhigh := BitVec.toInt_nonneg_of_msb_false hma
        have hlow := BitVec.toInt_neg_of_msb_true hmb
        simp [hmb]
        omega

theorem greaterThan_unsigned (ha : a.unsigned = true) (hb : b.unsigned = true) :
    a.greaterThan b = true ↔ b.value < a.value := by
  unfold greaterThan compare
  rw [decide_eq_true_iff]
  by_cases heq : a.equals b = true
  · rw [if_pos heq, (equals_iff (ha.trans hb.symm)).1 heq]
    simp
  · have hne : a.value ≠ b.value := fun hv => heq ((equals_iff (ha.trans hb.symm)).2 hv)
    rw [value_unsigned ha, value_unsigned hb] at hne
    rw [if_neg heq, isNegative_unsigned ha, isNegative_unsigned hb, ha, value_unsigned ha, value_unsigned hb]
    by_cases hlt : a.bits < b.bits
    · have hn := BitVec.lt_def.1 hlt
      simp [hlt]
      omega
    · have hn : ¬ a.bits.toNat < b.bits.toNat := fun hn => hlt (BitVec.lt_def.2 hn)
      simp [hlt]
      omega

/-- Longs that are read alike compare as their values. -/
theorem greaterThan_iff (h : a.unsigned = b.unsigned) : a.greaterThan b = true ↔ b.value < a.value := by
  cases hb : b.unsigned with
  | true => exact greaterThan_unsigned (h.trans hb) hb
  | false => exact greaterThan_signed (h.trans hb) hb

end Long

/-- A value where a 64-bit integer is expected: a number, a `Long`, or a `Timestamp`, which is an unsigned `Long`. -/
inductive LongLike
  | number (n : Int)
  | long (l : Long)
  | timestamp (bits : BitVec 64)
deriving DecidableEq

/-- The value as a `Long`. -/
def LongLike.toLong : LongLike → Long
  | number n => .fromNumber n
  | long l => l
  | timestamp bits => { bits, unsigned := true }

end Bson
