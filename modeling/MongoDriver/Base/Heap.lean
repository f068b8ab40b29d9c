/-
Objects shared by reference. A heap is the list of the objects created so far and a reference the
position of one; an object is updated in place, so that every holder of the reference sees the update.
The lemmas say what a list of references stands for when an object is created or updated.
-/
import Mathlib.Data.List.Nodup

namespace Heap

variable {α : Type*}

/-- The objects a list of references stands for. -/
def deref (heap : List α) (refs : List Nat) : List α := refs.filterMap (heap[·]?)

/-- The references are to different objects, which all exist. -/
structure Distinct (heap : List α) (refs : List Nat) : Prop where
  nodup : refs.Nodup
  bound : ∀ r ∈ refs, r < heap.length

variable {heap : List α} {refs refs' : List Nat} {r : Nat}

theorem deref_append : deref heap (refs ++ refs') = deref heap refs ++ deref heap refs' := List.filterMap_append

theorem deref_perm (h : refs.Perm refs') : (deref heap refs).Perm (deref heap refs') := h.filterMap _

theorem deref_singleton {a : α} (h : heap[r]? = some a) : deref heap [r] = [a] := by
  simp [deref, h]

/-- Two heaps that agree on the references give the same objects. -/
theorem deref_congr {heap' : List α} (h : ∀ r ∈ refs, heap'[r]? = heap[r]?) : deref heap' refs = deref heap refs :=
  List.filterMap_congr h

theorem deref_modify (f : α → α) (h : r ∉ refs) : deref (heap.modify r f) refs = deref heap refs := by
  refine deref_congr fun q hq => ?_
  have hne : r ≠ q := by rintro rfl; exact h hq
  simp [hne]

/-- The object of the last reference is updated. -/
theorem deref_modify_last {a : α} (f : α → α) (h : r ∉ refs) (ha : heap[r]? = some a) :
    deref (heap.modify r f) (refs ++ [r]) = deref heap refs ++ [f a] := by
  have hr : (heap.modify r f)[r]? = some (f a) := by simp [ha]
  rw [deref_append, deref_modify f h, deref_singleton hr]

/-- A new object. -/
theorem deref_alloc (a : α) (h : ∀ r ∈ refs, r < heap.length) :
    deref (heap ++ [a]) (refs ++ [heap.length]) = deref heap refs ++ [a] := by
  have ha : (heap ++ [a])[heap.length]? = some a := by simp
  rw [deref_append, deref_singleton ha]
  congr 1
  exact deref_congr fun q hq => List.getElem?_append_left (h q hq)

/-! ## Reading an object after an update -/

theorem get_set_cases {q : Nat} {a b : α} (h : (heap.set r a)[q]? = some b) :
    (q = r ∧ b = a) ∨ (q ≠ r ∧ heap[q]? = some b) := by
  rw [List.getElem?_set] at h
  split at h
  · rename_i heq
    split at h
    · exact .inl ⟨heq.symm, (Option.some.inj h).symm⟩
    · cases h
  · rename_i hne
    exact .inr ⟨fun heq => hne heq.symm, h⟩

theorem get_set_self {a b : α} (h : heap[r]? = some b) : (heap.set r a)[r]? = some a :=
  List.getElem?_set_self (List.getElem?_eq_some_iff.1 h).1

theorem get_alloc_cases {q : Nat} {a b : α} (h : (heap ++ [a])[q]? = some b) :
    (q = heap.length ∧ b = a) ∨ heap[q]? = some b := by
  rw [List.getElem?_append] at h
  split at h
  · exact .inr h
  · rename_i hlt
    rw [List.getElem?_singleton] at h
    split at h
    · exact .inl ⟨by omega, (Option.some.inj h).symm⟩
    · cases h

theorem mem_alloc {a b : α} : b ∈ heap ++ [a] ↔ b ∈ heap ∨ b = a := by
  rw [List.mem_append, List.mem_singleton]

theorem modify_eq_set {a : α} (f : α → α) (h : heap[r]? = some a) : heap.modify r f = heap.set r (f a) := by
  have : Inhabited α := ⟨a⟩
  rw [List.modify_eq_set, h, Option.getD_some]

/-- An update that changes nothing. -/
theorem set_get {a : α} (h : heap[r]? = some a) : heap = heap.set r a := by
  obtain ⟨hlt, rfl⟩ := List.getElem?_eq_some_iff.1 h
  exact (List.set_getElem_self hlt).symm

/-- The number of objects of a kind after an update of one of them. -/
theorem countP_set {a b : α} (p : α → Bool) (h : heap[r]? = some a) :
    (heap.set r b).countP p + (if p a then 1 else 0) = heap.countP p + if p b then 1 else 0 := by
  obtain ⟨hlt, rfl⟩ := List.getElem?_eq_some_iff.1 h
  have hle : (if p heap[r] then 1 else 0) ≤ heap.countP p := by
    split
    · exact List.countP_pos_iff.2 ⟨heap[r], List.getElem_mem hlt, by assumption⟩
    · exact Nat.zero_le _
  rw [List.countP_set hlt]
  omega

/-! ## References to different objects -/

namespace Distinct

theorem perm (h : Distinct heap refs) (hp : refs.Perm refs') : Distinct heap refs' :=
  ⟨hp.nodup_iff.1 h.nodup, fun r hr => h.bound r (hp.mem_iff.2 hr)⟩

theorem modify (h : Distinct heap refs) (q : Nat) (f : α → α) : Distinct (heap.modify q f) refs :=
  ⟨h.nodup, fun r hr => by rw [List.length_modify]; exact h.bound r hr⟩

theorem alloc (h : Distinct heap refs) (a : α) : Distinct (heap ++ [a]) (refs ++ [heap.length]) := by
  constructor
  · refine List.nodup_append.2 ⟨h.nodup, List.nodup_singleton _, ?_⟩
    intro q hq q' hq' heq
    have hlt := h.bound q hq
    rw [List.mem_singleton] at hq'
    omega
  · intro q hq
    rw [List.length_append, List.length_singleton]
    rcases List.mem_append.1 hq with hq | hq
    · have := h.bound q hq; omega
    · rw [List.mem_singleton] at hq; omega

/-- The last reference is none of the others, and its object exists. -/
theorem last (h : Distinct heap (refs ++ [r])) : r ∉ refs ∧ ∃ a, heap[r]? = some a := by
  refine ⟨fun hr => ?_, ?_⟩
  · exact (List.nodup_append.1 h.nodup).2.2 r hr r (List.mem_singleton_self r) rfl
  · have hlt := h.bound r (by simp)
    exact ⟨heap[r], List.getElem?_eq_getElem hlt⟩

end Distinct

end Heap
