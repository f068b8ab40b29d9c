/-
Shuffling (`shuffle` of `src/utils.ts`) on arrays that are shared by reference. The loop swaps in a copy of the
sequence, from the end down to a lower bound, so that the arrays that are there stay as they are, and what is selected
is a part of a permutation. Without a limit the draws place every item, the last first, so that any permutation comes
out of some of them.
-/
import Mathlib.Data.List.Perm.Subperm
import MongoDriver.Sdam.SrvHosts

namespace MongoDriver.Sdam

section

variable {α : Type*} (random : Nat → Nat)

/-! ## The code -/

/-- The loop, on the array at a reference. -/
def shuffleLoopAt (lowerBound items : Nat) : Nat → List (List α) → List (List α)
  | 0, heap => heap
  | remainingItemsToShuffle + 1, heap =>
    if remainingItemsToShuffle + 1 > lowerBound then
      let randomIndex := random (remainingItemsToShuffle + 1) % (remainingItemsToShuffle + 1)
      shuffleLoopAt lowerBound items remainingItemsToShuffle
        (heap.modify items (swap · remainingItemsToShuffle randomIndex))
    else heap

/-- `shuffle(sequence, limit)`, of the array at a reference: the reference of the result, and the arrays
afterwards. -/
def shuffleAt (heap : List (List α)) (sequence limit : Nat) : Except AnyError (Nat × List (List α)) :=
  let original := heap[sequence]?.getD []
  -- shallow copy in order to never shuffle the input
  let items := heap.length
  let heap := heap ++ [original]
  if limit > original.length then .error limitTooLarge
  else
    -- of no items the remainder is NaN
    let all := decide (original.length ≠ 0) && limit % original.length == 0
    let lowerBound := if all then 1 else original.length - limit
    let heap := shuffleLoopAt random lowerBound items original.length heap
    if all then .ok (items, heap) else .ok (heap.length, heap ++ [(heap[items]?.getD []).drop lowerBound])

/-! ## The copy -/

section

variable {random} {heap : List (List α)} {r limit : Nat} {sequence : List α}

theorem modify_last (heap : List (List α)) (array : List α) (f : List α → List α) :
    (heap ++ [array]).modify heap.length f = heap ++ [f array] := by
  induction heap with
  | nil => rfl
  | cons first heap ih => simpa using ih

/-- The loop changes the copy alone, as the loop on a list does. -/
theorem shuffleLoopAt_copy (lowerBound : Nat) : ∀ (remaining : Nat) (array : List α),
    shuffleLoopAt random lowerBound heap.length remaining (heap ++ [array]) =
      heap ++ [shuffleLoop random lowerBound remaining array]
  | 0, _ => rfl
  | remaining + 1, array => by
    unfold shuffleLoopAt shuffleLoop
    split
    · dsimp only
      rw [modify_last, shuffleLoopAt_copy lowerBound remaining]
    · rfl

/-- The result is a new array with what is selected of the list, and the arrays before it are as they were. -/
theorem shuffleAt_refines (hsequence : heap[r]? = some sequence) (hle : limit ≤ sequence.length) :
    ∃ result heap' items, shuffleAt random heap r limit = .ok (result, heap') ∧ heap'[result]? = some items ∧
      shuffle random sequence limit = .ok items ∧ ∀ q < heap.length, heap'[q]? = heap[q]? := by
  have hkept : ∀ (rest : List (List α)), ∀ q < heap.length, (heap ++ rest)[q]? = heap[q]? :=
    fun rest q hq => List.getElem?_append_left hq
  have hcopied : ∀ array : List α, (heap ++ [array])[heap.length]? = some array := by
    intro array
    rw [List.getElem?_append_right (Nat.le_refl _), Nat.sub_self]
    rfl
  have hlimit : ¬ limit > sequence.length := by omega
  unfold shuffleAt shuffle
  simp only [hsequence, Option.getD_some, if_neg hlimit, shuffleLoopAt_copy, hcopied]
  by_cases hempty : sequence.length = 0
  · -- a slice of a copy of no items
    obtain rfl := List.eq_nil_of_length_eq_zero hempty
    obtain rfl : limit = 0 := by simpa using hle
    refine ⟨_, _, [], rfl, ?_, rfl, ?_⟩
    · simp [shuffleLoop]
    · intro q hq
      rw [List.append_assoc]
      exact hkept _ q hq
  · by_cases hall : limit % sequence.length = 0
    · have hbool : (decide (sequence.length ≠ 0) && limit % sequence.length == 0) = true := by
        simp [hempty, hall]
      simp only [hbool, if_true, if_pos hall]
      exact ⟨_, _, _, rfl, hcopied _, rfl, hkept _⟩
    · have hbool : (decide (sequence.length ≠ 0) && limit % sequence.length == 0) = false := by
        simp [hall]
      simp only [hbool, Bool.false_eq_true, if_false, if_neg hall]
      refine ⟨_, _, _, rfl, ?_, rfl, ?_⟩
      · simp
      · intro q hq
        rw [List.append_assoc]
        exact hkept _ q hq

end

/-! ## What comes out -/

section

variable {random random' : Nat → Nat} {sequence items target : List α} {limit : Nat}

/-- The items are a part of a permutation of the sequence, as many as the limit, or all. -/
theorem shuffle_subperm (h : shuffle random sequence limit = .ok items) :
    items.Subperm sequence ∧ items.length = if limit = 0 then sequence.length else min limit sequence.length := by
  unfold shuffle at h
  split at h
  · cases h
  · rename_i hlimit
    cases h
    by_cases hall : limit % sequence.length = 0
    · have hperm := shuffleLoop_perm random 1 sequence.length sequence
      rw [if_pos hall, if_pos hall, hperm.length_eq]
      refine ⟨hperm.subperm, ?_⟩
      split
      · rfl
      · rename_i hne
        have hfull : sequence.length ≤ limit := Nat.le_of_dvd (by omega) (Nat.dvd_of_mod_eq_zero hall)
        omega
    · have hperm := shuffleLoop_perm random (sequence.length - limit) sequence.length sequence
      have hne : limit ≠ 0 := by
        rintro rfl
        exact hall (Nat.zero_mod _)
      rw [if_neg hall, if_neg hall, if_neg hne, List.length_drop, hperm.length_eq]
      exact ⟨(List.drop_sublist _ _).subperm.trans hperm.subperm, by omega⟩

/-- The loop looks at the draws among the items that are left. -/
theorem shuffleLoop_congr {lowerBound : Nat} : ∀ {remaining : Nat} {items : List α},
    (∀ k ≤ remaining, random k = random' k) →
      shuffleLoop random lowerBound remaining items = shuffleLoop random' lowerBound remaining items
  | 0, _, _ => rfl
  | remaining + 1, items, h => by
    have hbelow : ∀ k ≤ remaining, random k = random' k := fun k hk => h k (by omega)
    unfold shuffleLoop
    rw [h (remaining + 1) (Nat.le_refl _)]
    split
    · exact shuffleLoop_congr hbelow
    · rfl

/-- Permutations that agree from a position on are permutations up to it. -/
theorem perm_take_of_drop {n : Nat} (hperm : target.Perm items) (hdrop : target.drop n = items.drop n) :
    (target.take n).Perm (items.take n) := by
  rw [← List.take_append_drop n target, ← List.take_append_drop n items, hdrop, List.perm_append_right_iff] at hperm
  exact hperm

theorem drop_eq_of_succ {n : Nat} (hat : target[n]? = items[n]?) (hdrop : target.drop (n + 1) = items.drop (n + 1)) :
    target.drop n = items.drop n :=
  calc target.drop n = target[n]?.toList ++ target.drop (n + 1) := List.drop_eq_getElem?_toList_append
    _ = items[n]?.toList ++ items.drop (n + 1) := by rw [hat, hdrop]
    _ = items.drop n := List.drop_eq_getElem?_toList_append.symm

/-- A swap leaves what is after both positions. -/
theorem drop_swap {n j : Nat} (hj : j ≤ n) : (swap items n j).drop (n + 1) = items.drop (n + 1) := by
  apply List.ext_getElem?
  intro k
  rw [List.getElem?_drop, List.getElem?_drop, getElem?_swap_other (by omega) (by omega)]

/-- Some draws place what is to come out, from the last position down. -/
theorem shuffleLoop_reaches : ∀ {remaining : Nat} {items : List α}, remaining ≤ items.length → target.Perm items →
    target.drop remaining = items.drop remaining → ∃ random, shuffleLoop random 1 remaining items = target
  | 0, items, _, _, hdrop => ⟨fun _ => 0, hdrop.symm⟩
  | remaining + 1, items, hle, hperm, hdrop => by
    have hlength : remaining < items.length := by omega
    have hlt : remaining < target.length := by
      rw [hperm.length_eq]
      exact hlength
    -- what is to come out there is among the items that are left
    have hmem : target[remaining] ∈ items.take (remaining + 1) := by
      rw [← (perm_take_of_drop hperm hdrop).mem_iff]
      exact List.mem_take_iff_getElem.2 ⟨remaining, by omega, rfl⟩
    obtain ⟨j, hj, hdrawn⟩ := List.mem_take_iff_getElem.1 hmem
    have hjlength : j < items.length := by omega
    have hat : target[remaining]? = items[j]? := by
      rw [List.getElem?_eq_getElem hlt, List.getElem?_eq_getElem hjlength, hdrawn]
    by_cases hone : remaining = 0
    · -- one item is left, which stays
      subst hone
      obtain rfl : j = 0 := by omega
      exact ⟨fun _ => 0, (drop_eq_of_succ hat hdrop).symm⟩
    · have hswap : (swap items remaining j).Perm items := swap_perm items remaining j
      have hplaced : target.drop remaining = (swap items remaining j).drop remaining := by
        apply drop_eq_of_succ
        · rw [getElem?_swap_left hlength hjlength, hat]
        · rw [drop_swap (by omega), hdrop]
      have hbelow : remaining ≤ (swap items remaining j).length := by
        rw [hswap.length_eq]
        omega
      obtain ⟨random, hrandom⟩ := shuffleLoop_reaches hbelow (hperm.trans hswap.symm) hplaced
      refine ⟨fun k => if k = remaining + 1 then j else random k, ?_⟩
      unfold shuffleLoop
      rw [if_pos (by omega), if_pos rfl, Nat.mod_eq_of_lt (by omega), ← hrandom]
      apply shuffleLoop_congr
      intro k hk
      rw [if_neg (by omega)]

/-- Without a limit, any permutation is selected by some draws. -/
theorem shuffle_reaches (hperm : target.Perm sequence) : ∃ random, shuffle random sequence 0 = .ok target := by
  have hdrop : target.drop sequence.length = sequence.drop sequence.length := by
    rw [List.drop_length, ← hperm.length_eq, List.drop_length]
  obtain ⟨random, hrandom⟩ := shuffleLoop_reaches (Nat.le_refl _) hperm hdrop
  refine ⟨random, ?_⟩
  unfold shuffle
  rw [if_neg (by omega), Nat.zero_mod]
  simp only [if_true, hrandom]

end

/-- Whatever is drawn, a shuffle gives as many items as the limit, or all, from different positions of the sequence,
and leaves every array that was there, so also the sequence, as it was; without a limit, any permutation of the
sequence comes out of some draws. -/
theorem shuffle_is_subpermutation {heap : List (List α)} {r limit : Nat} {sequence : List α}
    (hsequence : heap[r]? = some sequence) (hle : limit ≤ sequence.length) :
    (∀ random, ∃ result heap' items, shuffleAt random heap r limit = .ok (result, heap') ∧
      heap'[result]? = some items ∧
      items.length = (if limit = 0 then sequence.length else min limit sequence.length) ∧
      items.Subperm sequence ∧ ∀ q < heap.length, heap'[q]? = heap[q]?) ∧
    ∀ permuted : List α, permuted.Perm sequence → ∃ random result heap',
      shuffleAt random heap r 0 = .ok (result, heap') ∧ heap'[result]? = some permuted := by
  constructor
  · intro random
    obtain ⟨result, heap', items, hshuffle, hitems, hselected, hkept⟩ := shuffleAt_refines hsequence hle
    obtain ⟨hsub, hlength⟩ := shuffle_subperm hselected
    exact ⟨result, heap', items, hshuffle, hitems, hlength, hsub, hkept⟩
  · intro permuted hperm
    obtain ⟨random, hrandom⟩ := shuffle_reaches hperm
    obtain ⟨result, heap', items, hshuffle, hitems, hselected, -⟩ := shuffleAt_refines hsequence (Nat.zero_le _)
    obtain rfl : permuted = items := by
      rw [hrandom] at hselected
      exact Except.ok.inj hselected
    exact ⟨random, result, heap', hshuffle, hitems⟩

/-- Two of three items, next to another array, and an order of all three. -/
theorem shuffle_is_subpermutation_three :
    (∃ result heap' items, shuffleAt (fun _ => 0) [[7], [1, 2, 3]] 1 2 = .ok (result, heap') ∧
      heap'[result]? = some items ∧ items.length = 2 ∧ items.Subperm [1, 2, 3] ∧ heap'[1]? = some [1, 2, 3]) ∧
    ∃ random result heap', shuffleAt random [[7], [1, 2, 3]] 1 0 = .ok (result, heap') ∧
      heap'[result]? = some [3, 1, 2] := by
  have h := shuffle_is_subpermutation (show ([[7], [1, 2, 3]] : List (List Nat))[1]? = some [1, 2, 3] from rfl)
    (show 2 ≤ [1, 2, 3].length by decide)
  constructor
  · obtain ⟨result, heap', items, hshuffle, hitems, hlength, hsub, hkept⟩ := h.1 fun _ => 0
    exact ⟨result, heap', items, hshuffle, hitems, hlength, hsub, hkept 1 (by decide)⟩
  · exact h.2 [3, 1, 2] (by decide)

end

end MongoDriver.Sdam
