/-
The domain of SRV records (`matchesParentDomain` of `src/sdam/srv_polling.ts`). The check is on the texts of two names
after their first labels; what it decides is a relation of their labels.
-/
import MongoDriver.Sdam.SrvPolling
import Mathlib.Data.List.Infix

namespace MongoDriver

/-! ## Pieces -/

section

variable {α : Type*}

theorem intercalate_append (a : α) {rest : List (List α)} (hrest : rest ≠ []) :
    ∀ {pieces : List (List α)}, pieces ≠ [] →
      [a].intercalate (pieces ++ rest) = [a].intercalate pieces ++ a :: [a].intercalate rest
  | [], h => absurd rfl h
  | [piece], _ => by
    rw [List.singleton_append, List.intercalate_cons_of_ne_nil hrest]
    simp
  | piece :: next :: pieces, _ => by
    have hpieces : next :: pieces ≠ [] := List.cons_ne_nil _ _
    have happend : next :: pieces ++ rest ≠ [] := List.cons_ne_nil _ _
    rw [List.cons_append, List.intercalate_cons_of_ne_nil happend, intercalate_append a hrest hpieces,
      List.intercalate_cons_of_ne_nil hpieces]
    simp

variable [BEq α] [LawfulBEq α]

/-- Behind a separator, a list ends in another exactly when its pieces do. -/
theorem cons_suffix_cons_iff_splitOn (a : α) (xs ys : List α) :
    a :: xs <:+ a :: ys ↔ xs.splitOn a <:+ ys.splitOn a := by
  constructor
  · rintro ⟨front, hfront⟩
    cases front with
    | nil =>
      obtain rfl := (List.cons.inj hfront).2
      exact List.suffix_rfl
    | cons b front =>
      have hys : front ++ a :: xs = ys := (List.cons.inj hfront).2
      rw [← hys, List.splitOn_append_cons_self]
      exact List.suffix_append _ _
  · rintro ⟨pieces, hpieces⟩
    have hxs : [a].intercalate (xs.splitOn a) = xs := List.intercalate_splitOn a
    have hys : [a].intercalate (ys.splitOn a) = ys := List.intercalate_splitOn a
    by_cases hnil : pieces = []
    · rw [hnil, List.nil_append] at hpieces
      rw [hpieces, hys] at hxs
      rw [hxs]
    · refine ⟨a :: [a].intercalate pieces, ?_⟩
      rw [← hys, ← hpieces, intercalate_append a (List.splitOn_ne_nil a xs) hnil, hxs, List.cons_append]

end

namespace Sdam

/-! ## The code -/

/-- What `.` in a regular expression does not stand for. -/
def isLineTerminator (c : Char) : Bool := c = '\n' || c = '\r' || c = '\u2028' || c = '\u2029'

/-- The rest after the match of `/^.*?\./`. -/
def afterFirstDot : List Char → Option (List Char)
  | [] => none
  | c :: cs => if c = '.' then some cs else if isLineTerminator c then none else afterFirstDot cs

/-- `name.replace(/^.*?\./, '')` -/
def removeFirstLabel (name : List Char) : List Char := (afterFirstDot name).getD name

/-- `matchesParentDomain(srvAddress, parentDomain)` -/
def matchesParentDomain (srvAddress parentDomain : String) : Bool :=
  let srv := '.' :: removeFirstLabel srvAddress.toList
  let parent := '.' :: removeFirstLabel parentDomain.toList
  parent.isSuffixOf srv

/-! ## Names and their labels -/

/-- A host name is one line. -/
def IsHostName (name : String) : Prop := ∀ c ∈ name.toList, isLineTerminator c = false

/-- The part of a name after its first dot, all of it when it has none. -/
def tail (name : String) : List Char :=
  if '.' ∈ name.toList then (name.toList.dropWhile (· ≠ '.')).drop 1 else name.toList

/-- The labels between the dots. -/
def labels (name : List Char) : List (List Char) := name.splitOn '.'

/-- The record is in the domain of the parent. -/
def SharesDomain (record parent : String) : Prop := labels (tail parent) <:+ labels (tail record)

theorem afterFirstDot_eq {name : List Char} (h : ∀ c ∈ name, isLineTerminator c = false) :
    afterFirstDot name = if '.' ∈ name then some ((name.dropWhile (· ≠ '.')).drop 1) else none := by
  induction name with
  | nil => rfl
  | cons c cs ih =>
    rw [afterFirstDot]
    by_cases hdot : c = '.'
    · rw [if_pos hdot, if_pos (by simp [hdot]), List.dropWhile_cons_of_neg (by simp [hdot]), List.drop_one,
        List.tail_cons]
    · have hmem : '.' ∈ c :: cs ↔ '.' ∈ cs := by simp [Ne.symm hdot]
      rw [if_neg hdot, h c List.mem_cons_self, if_neg Bool.false_ne_true,
        ih fun c' hc' => h c' (List.mem_cons_of_mem _ hc'), List.dropWhile_cons_of_pos (by simp [hdot])]
      by_cases hrest : '.' ∈ cs
      · rw [if_pos hrest, if_pos (hmem.2 hrest)]
      · rw [if_neg hrest, if_neg fun h => hrest (hmem.1 h)]

theorem removeFirstLabel_eq_tail {name : String} (h : IsHostName name) : removeFirstLabel name.toList = tail name := by
  rw [removeFirstLabel, afterFirstDot_eq h, tail]
  split
  · rfl
  · rfl

/-- A record matches exactly when the labels of its tail end in those of the parent's. -/
theorem matchesParentDomain_iff {record parent : String} (hrecord : IsHostName record) (hparent : IsHostName parent) :
    matchesParentDomain record parent = true ↔ SharesDomain record parent := by
  rw [matchesParentDomain, removeFirstLabel_eq_tail hrecord, removeFirstLabel_eq_tail hparent,
    List.isSuffixOf_iff_suffix]
  exact cons_suffix_cons_iff_splitOn '.' _ _

end Sdam

end MongoDriver
