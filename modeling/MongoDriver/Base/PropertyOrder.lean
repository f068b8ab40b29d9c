/-
The order of the own properties of a JavaScript object: the array indices come first, by size, and the other names
follow in the order of their first assignment. An object whose names are different and no array indices has its
properties as they were assigned, like a `Map` built from the same entries.
-/
import Mathlib.Data.List.Sort
import MongoDriver.Base.OrderedMap

/-! ## Maps of entries -/

namespace OrderedMap

variable {κ α : Type*} [DecidableEq κ]

/-- `new Map(entries)`. -/
def ofEntries (entries : List (κ × α)) : OrderedMap κ α := entries.foldl (fun m e => m.set e.1 e.2) empty

theorem entries_set_of_notMem {m : OrderedMap κ α} {k : κ} (h : k ∉ m.keys) (v : α) :
    (m.set k v).entries = m.entries ++ [(k, v)] := by
  unfold set
  rw [dif_neg h]

theorem entries_foldl_set : ∀ {entries : List (κ × α)} {m : OrderedMap κ α},
    ((m.entries ++ entries).map Prod.fst).Nodup →
    (entries.foldl (fun m e => m.set e.1 e.2) m).entries = m.entries ++ entries
  | [], m, _ => (List.append_nil _).symm
  | e :: entries, m, h => by
    have hnew : e.1 ∉ m.keys := by
      rw [List.map_append, List.map_cons] at h
      intro hold
      exact (List.nodup_append.1 h).2.2 _ hold _ List.mem_cons_self rfl
    have hentries := entries_set_of_notMem hnew e.2
    rw [List.foldl_cons, entries_foldl_set, hentries, List.append_assoc, List.singleton_append]
    rw [hentries, List.append_assoc, List.singleton_append]
    exact h

/-- Entries with different keys stay as they are. -/
theorem entries_ofEntries {entries : List (κ × α)} (h : (entries.map Prod.fst).Nodup) :
    (ofEntries entries).entries = entries := by
  rw [ofEntries, entries_foldl_set]
  · rfl
  · exact h

end OrderedMap

namespace Js

/-! ## Objects -/

/-- The array index that a property name is: a number below `2^32 - 1` in decimal. -/
def arrayIndex? (name : String) : Option Nat :=
  let n := Nat.ofDigitChars 10 name.toList 0
  if name.toList.all Char.isDigit ∧ Nat.toDigits 10 n = name.toList ∧ n < 4294967295 then some n else none

variable {α : Type*}

/-- The properties in the order in which the language lists them. -/
def ownProperties (object : OrderedMap String α) : List (String × α) :=
  (object.entries.filter fun e => (arrayIndex? e.1).isSome).insertionSort
      (fun a b => (arrayIndex? a.1).getD 0 ≤ (arrayIndex? b.1).getD 0) ++
    object.entries.filter fun e => (arrayIndex? e.1).isNone

/-- Without array indices the properties are in the order of assignment. -/
theorem ownProperties_eq {object : OrderedMap String α} (h : ∀ e ∈ object.entries, arrayIndex? e.1 = none) :
    ownProperties object = object.entries := by
  have hindices : object.entries.filter (fun e => (arrayIndex? e.1).isSome) = [] := by
    rw [List.filter_eq_nil_iff]
    intro e he
    rw [h e he]
    exact Bool.false_ne_true
  have hnames : object.entries.filter (fun e => (arrayIndex? e.1).isNone) = object.entries := by
    rw [List.filter_eq_self]
    intro e he
    rw [h e he]
    rfl
  rw [ownProperties, hindices, hnames, List.insertionSort_nil, List.nil_append]

/-- The object of a list of properties, each name given once and none of them an array index. -/
theorem ownProperties_ofEntries {properties : List (String × α)} (hnames : (properties.map Prod.fst).Nodup)
    (hindex : ∀ e ∈ properties, arrayIndex? e.1 = none) :
    ownProperties (OrderedMap.ofEntries properties) = properties := by
  have hentries := OrderedMap.entries_ofEntries hnames
  rw [ownProperties_eq, hentries]
  rw [hentries]
  exact hindex

example : ownProperties (OrderedMap.ofEntries [("b", 1), ("10", 2), ("9", 3), ("a", 4)]) =
    [("9", 3), ("10", 2), ("b", 1), ("a", 4)] := by
  decide

end Js
