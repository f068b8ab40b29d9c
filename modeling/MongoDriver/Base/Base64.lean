/-
Base64 with padding. Encoding cuts the bytes into groups of six bits and names each by a letter; decoding is
lenient: it also reads the two letters of the URL alphabet and skips everything that is not a letter.
-/
import Mathlib.Data.List.Basic
import Mathlib.Data.List.GetD

namespace Base64

def alphabet : List Char := "ABCDEFGHIJKLMNOPQRSTUVWXYZabcdefghijklmnopqrstuvwxyz0123456789+/".toList

/-- The letter of a group of six bits. -/
def letter (n : Nat) : Char := alphabet.getD n '='

/-- The group of six bits a letter stands for. -/
def value (c : Char) : Option Nat :=
  if c = '-' then some 62 else if c = '_' then some 63 else alphabet.findIdx? (· = c)

/-- The bytes by groups of six bits; the last group is filled up with zeros. -/
def sextets : List UInt8 → List Nat
  | [] => []
  | [a] => [a.toNat / 4, a.toNat % 4 * 16]
  | [a, b] => [a.toNat / 4, a.toNat % 4 * 16 + b.toNat / 16, b.toNat % 16 * 4]
  | a :: b :: c :: rest =>
    a.toNat / 4 :: (a.toNat % 4 * 16 + b.toNat / 16) :: (b.toNat % 16 * 4 + c.toNat / 64) :: c.toNat % 64 ::
      sextets rest

/-- The bytes that the groups fill; bits that are left over are dropped. -/
def bytes : List Nat → List UInt8
  | w :: x :: y :: z :: rest =>
    .ofNat (w * 4 + x / 16) :: .ofNat (x % 16 * 16 + y / 4) :: .ofNat (y % 4 * 64 + z) :: bytes rest
  | [w, x, y] => [.ofNat (w * 4 + x / 16), .ofNat (x % 16 * 16 + y / 4)]
  | [w, x] => [.ofNat (w * 4 + x / 16)]
  | _ => []

def encode (bs : List UInt8) : List Char :=
  (sextets bs).map letter ++ List.replicate ((3 - bs.length % 3) % 3) '='

def decode (text : List Char) : List UInt8 := bytes (text.filterMap value)

/-! ## Letters -/

/-- The alphabet letter by letter, which is faster to compute with than the text. -/
theorem alphabet_eq : alphabet =
    ['A', 'B', 'C', 'D', 'E', 'F', 'G', 'H', 'I', 'J', 'K', 'L', 'M', 'N', 'O', 'P', 'Q', 'R', 'S', 'T', 'U', 'V', 'W',
      'X', 'Y', 'Z', 'a', 'b', 'c', 'd', 'e', 'f', 'g', 'h', 'i', 'j', 'k', 'l', 'm', 'n', 'o', 'p', 'q', 'r', 's', 't',
      'u', 'v', 'w', 'x', 'y', 'z', '0', '1', '2', '3', '4', '5', '6', '7', '8', '9', '+', '/'] :=
  String.toList_ofList

theorem value_letter {n : Nat} (h : n < 64) : value (letter n) = some n := by
  have hall : ∀ n < 64, value (letter n) = some n := by
    unfold value letter
    rw [alphabet_eq]
    decide
  exact hall n h

theorem value_padding : value '=' = none := by
  unfold value
  rw [alphabet_eq]
  decide

theorem letter_ne_underscore (n : Nat) : letter n ≠ '_' := by
  intro h
  by_cases hn : n < alphabet.length
  · have hmem : letter n ∈ alphabet := by
      rw [letter, List.getD_eq_getElem _ _ hn]
      exact List.getElem_mem hn
    rw [h, alphabet_eq] at hmem
    exact absurd hmem (by decide)
  · rw [letter, List.getD_eq_default _ _ (Nat.le_of_not_lt hn)] at h
    exact absurd h (by decide)

theorem sextets_lt (bs : List UInt8) : ∀ n ∈ sextets bs, n < 64 := by
  induction bs using sextets.induct with
  | case1 => simp [sextets]
  | case2 a =>
    have := a.toNat_lt
    simp only [sextets, List.mem_cons, List.not_mem_nil, or_false]
    omega
  | case3 a b =>
    have := a.toNat_lt
    have := b.toNat_lt
    simp only [sextets, List.mem_cons, List.not_mem_nil, or_false]
    omega
  | case4 a b c rest ih =>
    have := a.toNat_lt
    have := b.toNat_lt
    have := c.toNat_lt
    intro n hn
    simp only [sextets, List.mem_cons] at hn
    rcases hn with hn | hn | hn | hn | hn
    case inr.inr.inr.inr => exact ih n hn
    all_goals omega

/-- The text of a number of bytes has no underscore in it. -/
theorem underscore_notMem_encode (bs : List UInt8) : '_' ∉ encode bs := by
  intro h
  rcases List.mem_append.1 h with h | h
  · obtain ⟨n, -, hn⟩ := List.mem_map.1 h
    exact letter_ne_underscore n hn
  · exact absurd (List.eq_of_mem_replicate h) (by decide)

/-! ## Round trip -/

theorem ofNat_eq {n : Nat} {a : UInt8} (h : n = a.toNat) : UInt8.ofNat n = a := by
  rw [h, UInt8.ofNat_toNat]

theorem bytes_sextets (bs : List UInt8) : bytes (sextets bs) = bs := by
  induction bs using sextets.induct with
  | case1 => rfl
  | case2 a =>
    simp only [sextets, bytes]
    rw [ofNat_eq (a := a) (by omega)]
  | case3 a b =>
    have := b.toNat_lt
    simp only [sextets, bytes]
    rw [ofNat_eq (a := a) (by omega), ofNat_eq (a := b) (by omega)]
  | case4 a b c rest ih =>
    have := b.toNat_lt
    have := c.toNat_lt
    simp only [sextets, bytes]
    rw [ofNat_eq (a := a) (by omega), ofNat_eq (a := b) (by omega), ofNat_eq (a := c) (by omega), ih]

theorem filterMap_value_letter (ns : List Nat) (h : ∀ n ∈ ns, n < 64) : (ns.map letter).filterMap value = ns := by
  rw [List.filterMap_map]
  calc ns.filterMap (value ∘ letter) = ns.filterMap some :=
        List.filterMap_congr fun n hn => value_letter (h n hn)
    _ = ns := List.filterMap_some

theorem filterMap_value_padding (n : Nat) : (List.replicate n '=').filterMap value = [] := by
  rw [List.filterMap_replicate_of_none value_padding]

theorem decode_encode (bs : List UInt8) : decode (encode bs) = bs := by
  rw [decode, encode, List.filterMap_append, filterMap_value_letter _ (sextets_lt bs), filterMap_value_padding,
    List.append_nil, bytes_sextets]

theorem encode_injective : Function.Injective encode := Function.LeftInverse.injective decode_encode

/-- `salt`. -/
example : encode [115, 97, 108, 116] = "c2FsdA==".toList := by decide

end Base64
