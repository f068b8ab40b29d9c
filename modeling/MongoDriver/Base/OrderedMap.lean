/-
Finite maps that remember insertion order, with the semantics of the ECMAScript `Map`: `set`
overwrites the value of a present key where it stands and appends an absent one, `erase` removes
the entry, iteration follows the order of first insertion. Keys are unique by construction.
Every law is stated through `get?`, so proofs about programs over maps never look at the entries.
-/
import Mathlib.Data.List.Nodup

/-- An insertion-ordered map with unique keys. -/
structure OrderedMap (κ : Type*) (α : Type*) where
  entries : List (κ × α)
  nodup : (entries.map Prod.fst).Nodup

namespace OrderedMap

variable {κ α β : Type*}

def empty : OrderedMap κ α := ⟨[], List.nodup_nil⟩

def keys (m : OrderedMap κ α) : List κ := m.entries.map Prod.fst

def values (m : OrderedMap κ α) : List α := m.entries.map Prod.snd

def size (m : OrderedMap κ α) : Nat := m.entries.length

theorem nodup_keys (m : OrderedMap κ α) : m.keys.Nodup := m.nodup

theorem length_keys (m : OrderedMap κ α) : m.keys.length = m.size := List.length_map ..

section Ops

variable [DecidableEq κ]

/-- The value stored under `k`. -/
def get? (m : OrderedMap κ α) (k : κ) : Option α :=
  (m.entries.find? fun p => p.1 = k).map Prod.snd

def contains (m : OrderedMap κ α) (k : κ) : Bool := (m.get? k).isSome

/-- Overwrite the value of a present key in place. -/
private def replace (k : κ) (v : α) (l : List (κ × α)) : List (κ × α) :=
  l.map fun p => if p.1 = k then (k, v) else p

private theorem replace_keys (k : κ) (v : α) (l : List (κ × α)) :
    (replace k v l).map Prod.fst = l.map Prod.fst := by
  unfold replace
  rw [List.map_map]
  apply List.map_congr_left
  intro p _
  by_cases h : p.1 = k <;> simp [h]

/-- `map.set(k, v)`: in place for a present key, at the end for an absent one. -/
def set (m : OrderedMap κ α) (k : κ) (v : α) : OrderedMap κ α :=
  if h : k ∈ m.keys then ⟨replace k v m.entries, by rw [replace_keys]; exact m.nodup⟩
  else ⟨m.entries ++ [(k, v)], by
    rw [List.map_append, List.nodup_append]
    refine ⟨m.nodup, List.nodup_singleton _, ?_⟩
    intro a ha b hb
    simp only [List.map_cons, List.map_nil, List.mem_singleton] at hb
    subst hb
    exact fun e => h (e ▸ ha)⟩

/-- `map.delete(k)`. -/
def erase (m : OrderedMap κ α) (k : κ) : OrderedMap κ α :=
  ⟨m.entries.filter fun p => p.1 ≠ k, (List.Sublist.map Prod.fst List.filter_sublist).nodup m.nodup⟩

/-! ## Lookup laws -/

@[simp] theorem get?_empty (k : κ) : (empty : OrderedMap κ α).get? k = none := rfl

theorem get?_eq_some {m : OrderedMap κ α} {k : κ} {v : α} : m.get? k = some v ↔ (k, v) ∈ m.entries := by
  unfold get?
  rw [Option.map_eq_some_iff]
  constructor
  · rintro ⟨p, hp, rfl⟩
    have hk : p.1 = k := by simpa using List.find?_some hp
    rw [← hk]; exact List.mem_of_find?_eq_some hp
  · intro hm
    rcases hf : m.entries.find? (fun p => p.1 = k) with _ | p
    · rw [List.find?_eq_none] at hf
      exact (hf _ hm (by simp)).elim
    · refine ⟨p, hf, ?_⟩
      have hk : p.1 = k := by simpa using List.find?_some hf
      have := List.inj_on_of_nodup_map m.nodup (List.mem_of_find?_eq_some hf) hm hk
      rw [this]

theorem mem_keys {m : OrderedMap κ α} {k : κ} : k ∈ m.keys ↔ ∃ v, m.get? k = some v := by
  unfold keys
  simp only [get?_eq_some, List.mem_map, Prod.exists, exists_and_right, exists_eq_right]

theorem mem_values {m : OrderedMap κ α} {v : α} : v ∈ m.values ↔ ∃ k, m.get? k = some v := by
  unfold values
  simp only [get?_eq_some, List.mem_map, Prod.exists, exists_eq_right]

private theorem find?_append_singleton (l : List (κ × α)) (k k' : κ) (v : α) (h : k ∉ l.map Prod.fst) :
    ((l ++ [(k, v)]).find? fun p => p.1 = k').map Prod.snd =
      if k' = k then some v else (l.find? fun p => p.1 = k').map Prod.snd := by
  rw [List.find?_append]
  by_cases hk : k' = k
  · subst hk
    have hn : (l.find? fun p => p.1 = k') = none := by
      rw [List.find?_eq_none]
      intro p hp
      simp only [decide_eq_true_eq]
      exact fun e => h (e ▸ List.mem_map_of_mem hp)
    simp [hn]
  · have : ¬ k = k' := fun e => hk e.symm
    simp [hk, this]

private theorem find?_replace (l : List (κ × α)) (k k' : κ) (v : α) (h : k ∈ l.map Prod.fst) :
    ((replace k v l).find? fun p => p.1 = k').map Prod.snd =
      if k' = k then some v else (l.find? fun p => p.1 = k').map Prod.snd := by
  induction l with
  | nil => simp at h
  | cons p l ih =>
    unfold replace at ih ⊢
    simp only [List.map_cons, List.mem_cons] at h
    by_cases hp : p.1 = k
    · by_cases hk : k' = k
      · simp [hp, hk]
      · have hpk : ¬ p.1 = k' := fun e => hk (e.symm.trans hp)
        have hkk : ¬ k = k' := fun e => hk e.symm
        by_cases hl : k ∈ l.map Prod.fst
        · simpa [hp, hk, hkk, hpk] using ih hl
        · -- the key does not occur in the tail, which the replacement leaves alone
          have hid : (l.map fun q => if q.1 = k then (k, v) else q) = l := by
            conv_rhs => rw [← List.map_id l]
            apply List.map_congr_left
            intro q hq
            have : ¬ q.1 = k := fun e => hl (e ▸ List.mem_map_of_mem hq)
            simp [this]
          simp [hp, hk, hkk, hid]
    · have hl : k ∈ l.map Prod.fst := h.resolve_left fun e => hp e.symm
      by_cases hpk : p.1 = k'
      · have hk : ¬ k' = k := fun e => hp (hpk.trans e)
        simp [hpk, hk]
      · simpa [hp, hpk] using ih hl

theorem get?_set (m : OrderedMap κ α) (k k' : κ) (v : α) :
    (m.set k v).get? k' = if k' = k then some v else m.get? k' := by
  unfold set get?
  split
  · rename_i h; exact find?_replace _ _ _ _ h
  · rename_i h; exact find?_append_singleton _ _ _ _ h

@[simp] theorem get?_set_self (m : OrderedMap κ α) (k : κ) (v : α) : (m.set k v).get? k = some v := by
  simp [get?_set]

theorem get?_set_ne (m : OrderedMap κ α) {k k' : κ} (v : α) (h : k' ≠ k) : (m.set k v).get? k' = m.get? k' := by
  simp [get?_set, h]

theorem get?_erase (m : OrderedMap κ α) (k k' : κ) :
    (m.erase k).get? k' = if k' = k then none else m.get? k' := by
  cases h : (m.erase k).get? k' with
  | none =>
    by_cases hk : k' = k
    · simp [hk]
    · cases h' : m.get? k' with
      | none => simp
      | some v =>
        have hm : (k', v) ∈ (m.erase k).entries := List.mem_filter.2 ⟨get?_eq_some.1 h', by simpa using hk⟩
        rw [get?_eq_some.2 hm] at h; cases h
  | some v =>
    obtain ⟨hm, hk⟩ := List.mem_filter.1 (get?_eq_some.1 h)
    have hk : k' ≠ k := by simpa using hk
    simp [hk, get?_eq_some.2 hm]

@[simp] theorem get?_erase_self (m : OrderedMap κ α) (k : κ) : (m.erase k).get? k = none := by
  simp [get?_erase]

theorem get?_of_get?_erase {m : OrderedMap κ α} {k k' : κ} {v : α} (h : (m.erase k).get? k' = some v) :
    k' ≠ k ∧ m.get? k' = some v := by
  rw [get?_erase] at h
  split at h
  · cases h
  · rename_i hk; exact ⟨hk, h⟩

/-! ## Keys and values -/

theorem keys_eq_nil {m : OrderedMap κ α} : m.keys = [] ↔ ∀ k, m.get? k = none := by
  rw [List.eq_nil_iff_forall_not_mem]
  refine forall_congr' fun k => ?_
  rw [mem_keys, not_exists]
  constructor
  · intro h
    cases hk : m.get? k with
    | none => rfl
    | some v => exact absurd hk (h v)
  · intro h v hv
    rw [h] at hv; cases hv

private theorem filter_replace (k : κ) (v : α) :
    ∀ l : List (κ × α), (replace k v l).filter (fun p => p.1 ≠ k) = l.filter fun p => p.1 ≠ k
  | [] => rfl
  | p :: l => by
    have ih := filter_replace k v l
    unfold replace at ih ⊢
    by_cases hp : p.1 = k
    · simpa [hp] using ih
    · simpa [hp] using ih

/-- What a key was set to is gone with it. -/
theorem erase_set (m : OrderedMap κ α) (k : κ) (v : α) : (m.set k v).erase k = m.erase k := by
  have hentries : (m.set k v).entries.filter (fun p => p.1 ≠ k) = m.entries.filter fun p => p.1 ≠ k := by
    unfold set
    split
    · exact filter_replace k v m.entries
    · simp
  unfold erase
  congr 1

private theorem perm_filter {k : κ} {v : α} :
    ∀ {l : List (κ × α)}, (l.map Prod.fst).Nodup → (k, v) ∈ l → l.Perm ((k, v) :: l.filter fun p => p.1 ≠ k)
  | p :: l, hn, hm => by
    obtain ⟨hp, hn⟩ := List.nodup_cons.1 hn
    rcases List.mem_cons.1 hm with rfl | hm
    · have hrest : l.filter (fun q => q.1 ≠ k) = l := by
        refine List.filter_eq_self.2 fun q hq => decide_eq_true ?_
        intro hqk
        exact hp (List.mem_map.2 ⟨q, hq, hqk⟩)
      rw [List.filter_cons_of_neg (by simp), hrest]
    · have hne : p.1 ≠ k := by
        intro hpk
        exact hp (List.mem_map.2 ⟨(k, v), hm, hpk.symm⟩)
      rw [List.filter_cons_of_pos (by simpa using hne)]
      exact ((perm_filter hn hm).cons p).trans (List.Perm.swap ..)

/-- An entry is taken out. -/
theorem values_erase {m : OrderedMap κ α} {k : κ} {v : α} (h : m.get? k = some v) :
    m.values.Perm (v :: (m.erase k).values) :=
  (perm_filter m.nodup (get?_eq_some.1 h)).map Prod.snd

theorem values_erase_sublist (m : OrderedMap κ α) (k : κ) : (m.erase k).values.Sublist m.values :=
  List.Sublist.map Prod.snd List.filter_sublist

/-- A set entry replaces the one of its key. -/
theorem values_set (m : OrderedMap κ α) (k : κ) (v : α) : (m.set k v).values.Perm (v :: (m.erase k).values) := by
  have h := values_erase (get?_set_self m k v)
  rwa [erase_set] at h

/-- Storing what is there changes nothing. -/
theorem set_of_get? {m : OrderedMap κ α} {k : κ} {v : α} (h : m.get? k = some v) : m.set k v = m := by
  have hentries : replace k v m.entries = m.entries := by
    unfold replace
    conv_rhs => rw [← List.map_id m.entries]
    apply List.map_congr_left
    intro p hp
    by_cases hk : p.1 = k
    · rw [if_pos hk]
      exact (List.inj_on_of_nodup_map m.nodup hp (get?_eq_some.1 h) hk).symm
    · rw [if_neg hk, id]
  unfold set
  rw [dif_pos (mem_keys.2 ⟨v, h⟩)]
  congr 1

/-- Erasing an absent key changes nothing. -/
theorem erase_of_get?_none {m : OrderedMap κ α} {k : κ} (h : m.get? k = none) : m.erase k = m := by
  have hentries : m.entries.filter (fun p => p.1 ≠ k) = m.entries := by
    refine List.filter_eq_self.2 fun p hp => decide_eq_true ?_
    rintro rfl
    rw [get?_eq_some.2 hp] at h
    cases h
  unfold erase
  congr 1

/-! ## Erasing several keys -/

/-- Erasing a list of keys keeps exactly the other entries. -/
theorem get?_foldl_erase (ks : List κ) (m : OrderedMap κ α) (k : κ) :
    (ks.foldl erase m).get? k = if k ∈ ks then none else m.get? k := by
  induction ks generalizing m with
  | nil => simp
  | cons a ks ih =>
    rw [List.foldl_cons, ih, get?_erase]
    by_cases h1 : k ∈ ks <;> by_cases h2 : k = a <;> simp [h1, h2]

end Ops

end OrderedMap
