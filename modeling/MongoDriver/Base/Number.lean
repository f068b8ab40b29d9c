/-
JavaScript's numbers as far as they come out of `parseInt`: `NaN`, the infinities and the doubles without a
fraction, with the text a string conversion gives them.
-/
import Mathlib.Algebra.Group.Nat.Defs
import Mathlib.Data.List.DropRight
import Mathlib.Order.Basic

namespace Js

/-- Both zeros are `int 0`: no conversion or comparison below tells them apart. -/
inductive Number
  | nan
  | infinity (negative : Bool)
  | int (n : Int)
deriving DecidableEq, Repr

/-- The number in a condition. -/
def Number.truthy : Number → Bool
  | .nan => false
  | .infinity _ => true
  | .int n => n ≠ 0

/-- `x < n`. -/
def Number.lt (x : Number) (n : Int) : Bool :=
  match x with
  | .nan => false
  | .infinity negative => negative
  | .int m => m < n

/-! ## From text -/

/-- The double next to `n`, the even one of two. -/
def roundDouble (n : Nat) : Nat :=
  if n < 2 ^ 53 then n
  else
    let unit := 2 ^ (n.log2 - 52)
    let q := n / unit
    if 2 * (n % unit) < unit ∨ 2 * (n % unit) = unit ∧ q % 2 = 0 then q * unit else (q + 1) * unit

/-- The number an integer literal stands for. -/
def Number.ofInt (n : Int) : Number :=
  let magnitude := roundDouble n.natAbs
  if magnitude.log2 < 1024 then .int (if n < 0 then -magnitude else magnitude) else .infinity (n < 0)

/-- The white space and the line terminators of the language. -/
def isWhiteSpace (c : Char) : Bool :=
  c.toNat ∈ [0x09, 0x0a, 0x0b, 0x0c, 0x0d, 0x20, 0xa0, 0x1680, 0x2028, 0x2029, 0x202f, 0x205f, 0x3000, 0xfeff] ||
    (0x2000 ≤ c.toNat && c.toNat ≤ 0x200a)

/-- `parseInt(text, 10)`. -/
def parseInt (text : List Char) : Number :=
  let trimmed := text.dropWhile isWhiteSpace
  let negative := trimmed.head? = some '-'
  let unsigned := if negative ∨ trimmed.head? = some '+' then trimmed.tail else trimmed
  let digits := unsigned.takeWhile Char.isDigit
  if digits = [] then .nan
  else
    let n : Int := Nat.ofDigitChars 10 digits 0
    .ofInt (if negative then -n else n)

example : parseInt " 4096x".toList = .int 4096 ∧ parseInt "-7".toList = .int (-7) ∧ parseInt [] = .nan := by decide

/-! ## To text -/

/-- The two numbers of `k` significant digits around `n`, the closer one first. -/
def neighbours (n k : Nat) : List Nat :=
  let unit := 10 ^ ((Nat.toDigits 10 n).length - k)
  let below := n / unit * unit
  if 2 * (n % unit) < unit then [below, below + unit] else [below + unit, below]

/-- The number with the fewest digits that is read back as the double `n`. -/
def shortest (n : Nat) : Nat :=
  (((List.range' 1 17).flatMap (neighbours n)).find? (roundDouble · = n)).getD n

/-- The digits of a number of more than 21 digits in scientific notation. -/
def exponential (digits : List Char) : List Char :=
  let significant := digits.rdropWhile (· = '0')
  let mantissa := if significant.length ≤ 1 then significant else significant.take 1 ++ '.' :: significant.tail
  mantissa ++ 'e' :: '+' :: Nat.toDigits 10 (digits.length - 1)

def natText (n : Nat) : List Char :=
  if n < 2 ^ 53 then Nat.toDigits 10 n
  else
    let digits := Nat.toDigits 10 (shortest n)
    if digits.length ≤ 21 then digits else exponential digits

/-- `String(number)`. -/
def Number.text : Number → List Char
  | .nan => "NaN".toList
  | .infinity negative => if negative then "-Infinity".toList else "Infinity".toList
  | .int n => if n < 0 then '-' :: natText n.natAbs else natText n.natAbs

theorem Number.text_int (n : Int) :
    (Number.int n).text = if n < 0 then '-' :: natText n.natAbs else natText n.natAbs := rfl

/-! ## No two numbers of one text -/

theorem isDigit_of_mem_toDigits {c : Char} {n : Nat} (h : c ∈ Nat.toDigits 10 n) : c.isDigit = true :=
  Nat.isDigit_of_mem_toDigits (by decide) (by decide) h

theorem toDigits_injective : Function.Injective (Nat.toDigits 10) :=
  Function.LeftInverse.injective fun _ => Nat.ofDigitChars_ten_toDigits

theorem underscore_notMem_exponential (n : Nat) : '_' ∉ exponential (Nat.toDigits 10 n) := by
  have hdigits : '_' ∉ Nat.toDigits 10 n := fun h => absurd (isDigit_of_mem_toDigits h) (by decide)
  have hsignificant : '_' ∉ (Nat.toDigits 10 n).rdropWhile (· = '0') :=
    fun h => hdigits ((List.rdropWhile_prefix _ _).subset h)
  intro h
  rcases List.mem_append.1 h with h | h
  · split at h
    · exact hsignificant h
    · rcases List.mem_append.1 h with h | h
      · exact hsignificant (List.mem_of_mem_take h)
      · rcases List.mem_cons.1 h with h | h
        · exact absurd h (by decide)
        · exact hsignificant (List.mem_of_mem_tail h)
  · simp only [List.mem_cons] at h
    rcases h with h | h | h
    · exact absurd h (by decide)
    · exact absurd h (by decide)
    · exact absurd (isDigit_of_mem_toDigits h) (by decide)

theorem underscore_notMem_natText (n : Nat) : '_' ∉ natText n := by
  intro h
  unfold natText at h
  split at h
  · exact absurd (isDigit_of_mem_toDigits h) (by decide)
  · dsimp only at h
    split at h
    · exact absurd (isDigit_of_mem_toDigits h) (by decide)
    · exact underscore_notMem_exponential _ h

/-- The text of a number has no underscore in it. -/
theorem Number.underscore_notMem_text (x : Number) : '_' ∉ x.text := by
  cases x with
  | nan => decide
  | infinity negative => cases negative <;> decide
  | int n =>
    intro h
    rw [text_int] at h
    split at h
    · rcases List.mem_cons.1 h with h | h
      · exact absurd h (by decide)
      · exact underscore_notMem_natText _ h
    · exact underscore_notMem_natText _ h

theorem roundDouble_shortest_or (n : Nat) : roundDouble (shortest n) = n ∨ shortest n = n := by
  unfold shortest
  cases hfind : ((List.range' 1 17).flatMap (neighbours n)).find? (roundDouble · = n) with
  | none => exact Or.inr rfl
  | some m => exact Or.inl (by simpa using List.find?_some hfind)

/-- A number that is printed in plain digits because it is below `2 ^ 53` is the only one of its text. -/
theorem natText_eq {m n : Nat} (hm : m < 2 ^ 53) (h : natText n = Nat.toDigits 10 m) : n = m := by
  unfold natText at h
  split at h
  · exact toDigits_injective h
  · next hn =>
    dsimp only at h
    split at h
    · have hshort : shortest n = m := toDigits_injective h
      have hround : roundDouble m = m := if_pos hm
      rcases roundDouble_shortest_or n with hr | hr
      · rw [hshort, hround] at hr
        exact hr.symm
      · exact hr.symm.trans hshort
    · have he : 'e' ∈ exponential (Nat.toDigits 10 (shortest n)) :=
        List.mem_append_right _ List.mem_cons_self
      rw [h] at he
      exact absurd (isDigit_of_mem_toDigits he) (by decide)

theorem Number.text_natCast {m : Nat} (hm : m < 2 ^ 53) : (Number.int m).text = Nat.toDigits 10 m := by
  rw [text, if_neg (by omega), Int.natAbs_natCast, natText, if_pos hm]

theorem Number.eq_of_text {m : Nat} (hm : m < 2 ^ 53) {x : Number} (h : x.text = (Number.int m).text) : x = .int m := by
  rw [text_natCast hm] at h
  have hdigit : ∀ c ∈ x.text, c.isDigit = true := fun c hc => isDigit_of_mem_toDigits (h ▸ hc)
  cases x with
  | nan => exact absurd (hdigit 'N' (by decide)) (by decide)
  | infinity negative =>
    have hy : 'y' ∈ (Number.infinity negative).text := by cases negative <;> decide
    exact absurd (hdigit 'y' hy) (by decide)
  | int n =>
    rw [text_int] at h hdigit
    by_cases hn : n < 0
    · rw [if_pos hn] at hdigit
      exact absurd (hdigit '-' List.mem_cons_self) (by decide)
    · rw [if_neg hn] at h
      have habs : n.natAbs = m := natText_eq hm h
      exact congrArg Number.int (by omega)

end Js
