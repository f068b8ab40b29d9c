/-
The finite numbers of the language, which are doubles (binary64), as the rational numbers they stand for: an arithmetic
operation rounds its exact result to the next double, the even one of two. A result is not bounded from above, where
the language has an infinity.
-/
import Mathlib.Algebra.Order.Field.Power
import Mathlib.Data.Int.Log
import Mathlib.Data.Rat.Floor
import Mathlib.Tactic.FieldSimp
import Mathlib.Tactic.Linarith
import Mathlib.Tactic.NormNum
import Mathlib.Tactic.Positivity
import Mathlib.Tactic.Ring

namespace Js

/-- A significand of 53 bits and an exponent. -/
def IsDouble (q : ℚ) : Prop := ∃ m e : ℤ, |m| ≤ 2 ^ 53 ∧ -1074 ≤ e ∧ q = m * 2 ^ e

abbrev Double := { q : ℚ // IsDouble q }

theorem isDouble_int {n : ℤ} (h : |n| ≤ 2 ^ 53) : IsDouble n := ⟨n, 0, h, by decide, by rw [zpow_zero, mul_one]⟩

/-! ## Rounding -/

/-- The exponent of the last place of the doubles next to a positive number. -/
def lastPlace (q : ℚ) : ℤ := max (Int.log 2 q - 52) (-1074)

/-- The integer next to a number, the even one of two. -/
def halfEven (x : ℚ) : ℤ :=
  if x - ⌊x⌋ < 1 / 2 then ⌊x⌋
  else if 1 / 2 < x - ⌊x⌋ then ⌊x⌋ + 1
  else if ⌊x⌋ % 2 = 0 then ⌊x⌋ else ⌊x⌋ + 1

def roundMagnitude (q : ℚ) : ℚ := halfEven (q / 2 ^ lastPlace q) * 2 ^ lastPlace q

/-- The double next to a number. -/
def toDouble (q : ℚ) : ℚ := if q < 0 then -roundMagnitude (-q) else roundMagnitude q

theorem halfEven_cases (x : ℚ) : halfEven x = ⌊x⌋ ∨ halfEven x = ⌊x⌋ + 1 := by
  unfold halfEven
  split_ifs
  · exact .inl rfl
  · exact .inr rfl
  · exact .inl rfl
  · exact .inr rfl

section Bounds

variable {q : ℚ}

theorem scale_pos (e : ℤ) : (0 : ℚ) < 2 ^ e := zpow_pos (by norm_num) e

/-- The significand has at most 53 bits. -/
theorem scaled_lt (q : ℚ) : q / 2 ^ lastPlace q < 2 ^ 53 := by
  have hlog := Int.lt_zpow_succ_log_self (by decide : 1 < 2) q
  have hexp : (2 : ℚ) ^ (Int.log 2 q + 1) ≤ 2 ^ (lastPlace q + 53) := by
    apply zpow_le_zpow_right₀ (by norm_num)
    have := le_max_left (Int.log 2 q - 52) (-1074)
    unfold lastPlace
    omega
  rw [div_lt_iff₀ (scale_pos _)]
  calc q < (2 : ℚ) ^ (Int.log 2 q + 1) := by exact_mod_cast hlog
    _ ≤ 2 ^ (lastPlace q + 53) := hexp
    _ = 2 ^ 53 * 2 ^ lastPlace q := by rw [zpow_add₀ (by norm_num), mul_comm]; norm_num

/-- The significand of a number that is not among the smallest has 53 bits. -/
theorem le_scaled (h : 0 < q) (hlast : -1074 < lastPlace q) : 2 ^ 52 ≤ q / 2 ^ lastPlace q := by
  have hlog := Int.zpow_log_le_self (by decide : 1 < 2) h
  have hplace : lastPlace q = Int.log 2 q - 52 := by
    unfold lastPlace at hlast ⊢
    omega
  rw [le_div_iff₀ (scale_pos _)]
  calc (2 : ℚ) ^ 52 * 2 ^ lastPlace q = 2 ^ (Int.log 2 q) := by
        rw [hplace, zpow_sub₀ (by norm_num)]
        field_simp
    _ ≤ q := by exact_mod_cast hlog

theorem isDouble_roundMagnitude (h : 0 ≤ q) : IsDouble (roundMagnitude q) := by
  refine ⟨halfEven (q / 2 ^ lastPlace q), lastPlace q, ?_, le_max_right .., rfl⟩
  have hnonneg : 0 ≤ ⌊q / 2 ^ lastPlace q⌋ := Int.floor_nonneg.2 (div_nonneg h (scale_pos _).le)
  have hlt : ⌊q / 2 ^ lastPlace q⌋ < 2 ^ 53 := by
    rw [Int.floor_lt]
    exact_mod_cast scaled_lt q
  rcases halfEven_cases (q / 2 ^ lastPlace q) with heq | heq
  · rw [heq, abs_of_nonneg hnonneg]
    omega
  · rw [heq, abs_of_nonneg (by omega)]
    omega

theorem isDouble_toDouble (q : ℚ) : IsDouble (toDouble q) := by
  unfold toDouble
  split_ifs with hneg
  · obtain ⟨m, e, hm, he, heq⟩ := isDouble_roundMagnitude (neg_nonneg.2 hneg.le)
    refine ⟨-m, e, by rwa [abs_neg], he, ?_⟩
    rw [heq]
    push_cast
    ring
  · exact isDouble_roundMagnitude (not_lt.1 hneg)

/-- There is no double between two neighbours. -/
theorem not_between (h : 0 < q) {d : ℚ} (hd : IsDouble d) (hlow : ⌊q / 2 ^ lastPlace q⌋ * 2 ^ lastPlace q < d)
    (hhigh : d < (⌊q / 2 ^ lastPlace q⌋ + 1) * 2 ^ lastPlace q) : False := by
  obtain ⟨m, e, hm, he, rfl⟩ := hd
  by_cases hcoarse : lastPlace q ≤ e
  · -- a multiple of the last place
    obtain ⟨k, hk⟩ := Int.eq_ofNat_of_zero_le (sub_nonneg.2 hcoarse)
    have hscale : (m : ℚ) * 2 ^ e = ((m * 2 ^ k : ℤ) : ℚ) * 2 ^ lastPlace q := by
      have hexp : e = k + lastPlace q := by omega
      rw [hexp, zpow_add₀ (by norm_num), zpow_natCast]
      push_cast
      ring
    rw [hscale, mul_lt_mul_iff_left₀ (scale_pos _)] at hlow hhigh
    have hlow : ⌊q / 2 ^ lastPlace q⌋ < m * 2 ^ k := by exact_mod_cast hlow
    have hhigh : m * 2 ^ k < ⌊q / 2 ^ lastPlace q⌋ + 1 := by exact_mod_cast hhigh
    omega
  · -- a finer number has too many places for its size
    have hlast : -1074 < lastPlace q := by omega
    have hfloor : (2 : ℚ) ^ 52 ≤ ⌊q / 2 ^ lastPlace q⌋ := by
      have hle : (2 : ℤ) ^ 52 ≤ ⌊q / 2 ^ lastPlace q⌋ := by
        rw [Int.le_floor]
        exact_mod_cast le_scaled h hlast
      exact_mod_cast hle
    have hsize : (m : ℚ) * 2 ^ e ≤ 2 ^ 52 * 2 ^ lastPlace q := by
      have habs : (m : ℚ) ≤ 2 ^ 53 := by exact_mod_cast (le_abs_self m).trans hm
      have hexp : (2 : ℚ) ^ (e + 1) ≤ 2 ^ lastPlace q := zpow_le_zpow_right₀ (by norm_num) (by omega)
      calc (m : ℚ) * 2 ^ e ≤ 2 ^ 53 * 2 ^ e := by
            exact mul_le_mul_of_nonneg_right habs (scale_pos e).le
        _ = 2 ^ 52 * 2 ^ (e + 1) := by
            rw [zpow_add₀ (by norm_num)]
            ring
        _ ≤ 2 ^ 52 * 2 ^ lastPlace q := by
            exact mul_le_mul_of_nonneg_left hexp (by positivity)
    have hback : (2 : ℚ) ^ 52 * 2 ^ lastPlace q ≤ ⌊q / 2 ^ lastPlace q⌋ * 2 ^ lastPlace q :=
      mul_le_mul_of_nonneg_right hfloor (scale_pos _).le
    linarith

/-- A double is at most the rounded number exactly when it is at most the number, or what that is rounded to. -/
theorem le_toDouble_iff (h : 0 ≤ q) {d : ℚ} (hd : IsDouble d) : d ≤ toDouble q ↔ d ≤ q ∨ d = toDouble q := by
  have hround : toDouble q = roundMagnitude q := if_neg (not_lt.2 h)
  rcases h.lt_or_eq with hpos | rfl
  swap
  · have hzero : roundMagnitude 0 = 0 := by
      rw [roundMagnitude, zero_div]
      norm_num [halfEven]
    rw [hround, hzero]
    exact ⟨.inl, fun hle => hle.elim id le_of_eq⟩
  have hfloor : ⌊q / 2 ^ lastPlace q⌋ * 2 ^ lastPlace q ≤ q := by
    rw [← le_div_iff₀ (scale_pos _)]
    exact Int.floor_le _
  have hnext : q < (⌊q / 2 ^ lastPlace q⌋ + 1) * 2 ^ lastPlace q := by
    rw [← div_lt_iff₀ (scale_pos _)]
    exact Int.lt_floor_add_one _
  rw [hround]
  unfold roundMagnitude
  rcases halfEven_cases (q / 2 ^ lastPlace q) with heq | heq
  · -- rounded down: what is at most the number is at most its lower neighbour
    rw [heq]
    refine ⟨fun hle => .inl (hle.trans hfloor), ?_⟩
    rintro (hle | rfl)
    · by_contra hgt
      exact not_between hpos hd (not_le.1 hgt) (hle.trans_lt hnext)
    · exact le_rfl
  · rw [heq]
    push_cast
    constructor
    · intro hle
      rcases hle.lt_or_eq with hlt | rfl
      · by_contra hnot
        exact not_between hpos hd (hfloor.trans_lt (not_le.1 fun hle' => hnot (.inl hle'))) hlt
      · exact .inr rfl
    · rintro (hle | rfl)
      · exact hle.trans hnext.le
      · exact le_rfl

end Bounds

/-! ## Arithmetic -/

namespace Double

/-- An integer literal. -/
def ofNat (n : ℕ) : Double := ⟨toDouble n, isDouble_toDouble _⟩

theorem ofNat_nonneg (n : ℕ) : (0 : ℚ) ≤ ofNat n :=
  (le_toDouble_iff (Nat.cast_nonneg n) (isDouble_int (n := 0) (by decide))).2 (.inl (by exact_mod_cast Nat.zero_le n))

def add (a b : Double) : Double := ⟨toDouble (a + b), isDouble_toDouble _⟩

def sub (a b : Double) : Double := ⟨toDouble (a - b), isDouble_toDouble _⟩

def div (a b : Double) : Double := ⟨toDouble (a / b), isDouble_toDouble _⟩

end Double

end Js
