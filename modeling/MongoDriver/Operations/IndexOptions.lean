/-
Index specifications (`parseIndexOptions` of `src/utils.ts`) and the names that are generated from key documents
(`CreateIndexesOperation` of `src/operations/indexes.ts`). A specification is read element by element, so that a pair
of a field and a direction is taken for two elements; the forms of one list of fields and directions are compared
here.
-/
import MongoDriver.Base.Data
import MongoDriver.Base.PropertyOrder

namespace MongoDriver

open Js

namespace Indexes

section

variable (fractionText : Rat → String)

/-! ## Specifications -/

/-- `IndexOptions`, with the name in parts. -/
structure IndexParts where
  indexes : List String := []
  keys : Option (List String) := none
  fieldHash : OrderedMap String Data := .empty

structure IndexOptions where
  name : String
  keys : Option (List String)
  fieldHash : OrderedMap String Data

/-- `fieldHash[field] = value`, of a value that is no object: a plain object ignores it as its prototype. -/
def setField (fieldHash : OrderedMap String Data) (field : String) (value : Data) : OrderedMap String Data :=
  if field = "__proto__" then fieldHash else fieldHash.set field value

/-- The part of the name for a field. -/
def part (e : String × Data) : String := e.1 ++ "_" ++ e.2.toText fractionText

def addField (parts : IndexParts) (e : String × Data) : IndexParts :=
  { parts with indexes := parts.indexes ++ [part fractionText e], fieldHash := setField parts.fieldHash e.1 e.2 }

/-- `value || 1`. -/
def orOne (value : Data) : Data := if value.truthy then value else .number 1

def addObject (parts : IndexParts) (properties : List (String × Data)) : IndexParts :=
  properties.foldl (addField fractionText) { parts with keys := some (properties.map Prod.fst) }

/-- One element of an array. -/
def addElement (parts : IndexParts) (f : Data) : IndexParts :=
  match f with
  | .text field => addField fractionText parts (field, .number 1)
  | .array values =>
    addField fractionText parts
      ((values.getD 0 .undefined).toText fractionText, orOne (values.getD 1 .undefined))
  | .object properties => addObject fractionText parts properties
  | _ => parts

/-- All the fields. -/
def collectFields (indexSpec : Data) : IndexParts :=
  match indexSpec with
  | .text field => addField fractionText {} (field, .number 1)
  | .array values => values.foldl (addElement fractionText) {}
  | .object properties => addObject fractionText {} properties
  | _ => {}

/-- `indexes.join('_')`. -/
def join (indexes : List String) : String := "_".intercalate indexes

def parseIndexOptions (indexSpec : Data) : IndexOptions :=
  let parts := collectFields fractionText indexSpec
  { name := join parts.indexes, keys := parts.keys, fieldHash := parts.fieldHash }

/-- The name that `CreateIndexesOperation` generates where none is given. -/
def generateName (key : OrderedMap String Data) : String :=
  join ((ownProperties key).map (part fractionText))

/-! ## The fields of a list -/

section

variable {fractionText}

theorem foldl_addField : ∀ (fields : List (String × Data)) (parts : IndexParts),
    fields.foldl (addField fractionText) parts =
      { parts with indexes := parts.indexes ++ fields.map (part fractionText),
                   fieldHash := fields.foldl (fun hash e => setField hash e.1 e.2) parts.fieldHash }
  | [], parts => by rw [List.foldl_nil, List.map_nil, List.append_nil, List.foldl_nil]
  | e :: fields, parts => by
    rw [List.foldl_cons, foldl_addField fields, List.foldl_cons, List.map_cons, addField, List.append_assoc,
      List.singleton_append]

/-- A plain object takes every name but one. -/
theorem foldl_setField (fields : List (String × Data)) (hash : OrderedMap String Data) :
    fields.foldl (fun hash e => setField hash e.1 e.2) hash =
      (fields.filter fun e => e.1 ≠ "__proto__").foldl (fun hash e => hash.set e.1 e.2) hash := by
  rw [List.foldl_filter]
  apply List.foldl_ext
  intro hash e _
  rw [setField]
  by_cases h : e.1 = "__proto__"
  · simp [h]
  · simp [h]

/-- The fields of the list, as a plain object takes them. -/
def fieldsOf (fields : List (String × Data)) : OrderedMap String Data :=
  .ofEntries (fields.filter fun e => e.1 ≠ "__proto__")

theorem entries_fieldsOf {fields : List (String × Data)} (h : (fields.map Prod.fst).Nodup) :
    (fieldsOf fields).entries = fields.filter fun e => e.1 ≠ "__proto__" :=
  OrderedMap.entries_ofEntries ((List.filter_sublist.map Prod.fst).nodup h)

/-- What the forms have in common: the name and the fields, but not the keys. -/
structure Collects (fractionText : Rat → String) (parts : IndexParts) (fields : List (String × Data)) : Prop where
  indexes : parts.indexes = fields.map (part fractionText)
  fieldHash : parts.fieldHash = fieldsOf fields

theorem collects_foldl (fields : List (String × Data)) (keys : Option (List String)) :
    Collects fractionText (fields.foldl (addField fractionText) { keys }) fields := by
  rw [foldl_addField]
  constructor
  · rfl
  · exact foldl_setField fields .empty

theorem collects_object (properties : List (String × Data)) :
    Collects fractionText (collectFields fractionText (.object properties)) properties :=
  collects_foldl properties _

theorem collects_string (field : String) :
    Collects fractionText (collectFields fractionText (.text field)) [(field, .number 1)] :=
  collects_foldl [(field, .number 1)] none

/-- In an array of pairs a direction that is zero or empty becomes one. -/
theorem collects_pairs (pairs : List (String × Data)) :
    Collects fractionText (collectFields fractionText (.array (pairs.map fun e => .array [.text e.1, e.2])))
      (pairs.map fun e => (e.1, orOne e.2)) := by
  have hfold : collectFields fractionText (.array (pairs.map fun e => .array [.text e.1, e.2])) =
      (pairs.map fun e => (e.1, orOne e.2)).foldl (addField fractionText) {} := by
    rw [collectFields, List.foldl_map, List.foldl_map]
    apply List.foldl_ext
    intro parts e _
    rw [addElement, List.getD_cons_zero, Data.toText]
    rfl
  rw [hfold]
  exact collects_foldl _ none

theorem collects_objects (pairs : List (String × Data)) :
    Collects fractionText (collectFields fractionText (.array (pairs.map fun e => .object [(e.1, e.2)]))) pairs := by
  have hfold : ∀ (pairs : List (String × Data)) (parts : IndexParts),
      ((pairs.map fun e => Data.object [(e.1, e.2)]).foldl (addElement fractionText) parts).indexes =
          parts.indexes ++ pairs.map (part fractionText) ∧
        ((pairs.map fun e => Data.object [(e.1, e.2)]).foldl (addElement fractionText) parts).fieldHash =
          pairs.foldl (fun hash e => setField hash e.1 e.2) parts.fieldHash := by
    intro pairs
    induction pairs with
    | nil => exact fun parts => ⟨(List.append_nil _).symm, rfl⟩
    | cons e pairs ih =>
      intro parts
      obtain ⟨hindexes, hfieldHash⟩ := ih (addElement fractionText parts (.object [(e.1, e.2)]))
      rw [List.map_cons, List.foldl_cons]
      constructor
      · rw [hindexes, List.map_cons]
        exact List.append_assoc parts.indexes [part fractionText e] _
      · rw [hfieldHash]
        rfl
  obtain ⟨hindexes, hfieldHash⟩ := hfold pairs {}
  constructor
  · exact hindexes
  · exact hfieldHash.trans (foldl_setField pairs .empty)

/-! ## Directions -/

/-- `IndexDirection`. -/
def IndexDirection (direction : Data) : Prop :=
  direction = .nan ∨ (∃ negative, direction = .infinity negative) ∨ (∃ q, direction = .number q) ∨
    ∃ kind, kind ∈ ["2d", "2dsphere", "text", "geoHaystack"] ∧ direction = .text kind

/-- A pair in the place of an array sets its first element to one, whatever its second one is. -/
theorem get?_pair {field : String} {direction : Data} (hdirection : IndexDirection direction)
    (hfield : field ≠ "__proto__") :
    (collectFields fractionText (.array [.text field, direction])).fieldHash.get? field = some (.number 1) := by
  have hset : (addField fractionText {} (field, .number 1)).fieldHash = OrderedMap.empty.set field (.number 1) :=
    if_neg hfield
  have hfirst : (addField fractionText {} (field, .number 1)).fieldHash.get? field = some (.number 1) := by
    rw [hset]
    exact OrderedMap.get?_set_self _ _ _
  have hfields : collectFields fractionText (.array [.text field, direction]) =
      addElement fractionText (addField fractionText {} (field, .number 1)) direction := rfl
  rw [hfields]
  rcases hdirection with rfl | ⟨negative, rfl⟩ | ⟨q, rfl⟩ | ⟨kind, hkind, rfl⟩
  · exact hfirst
  · exact hfirst
  · exact hfirst
  · have hproto : kind ≠ "__proto__" := by
      rintro rfl
      exact absurd hkind (by decide)
    rw [addElement, addField, setField, if_neg hproto]
    by_cases hsame : field = kind
    · rw [hsame]
      exact OrderedMap.get?_set_self _ _ _
    · rw [OrderedMap.get?_set_ne _ _ hsame]
      exact hfirst

theorem truthy_of_orOne {direction : Data} (h : direction = orOne direction) : direction.truthy = true := by
  by_contra hfalsy
  rw [orOne, if_neg hfalsy] at h
  rw [h] at hfalsy
  exact hfalsy (by decide)

/-! ## Generated names -/

/-- A name is longer with one part more. -/
theorem length_join_lt (before after : List String) {part : String} (h : part ≠ "") :
    (join (before ++ after)).length < (join (before ++ part :: after)).length := by
  have hpos : 0 < part.length := by
    rw [Nat.pos_iff_ne_zero]
    exact fun hzero => h (String.length_eq_zero_iff.1 hzero)
  have htail : (join after).length < (join (part :: after)).length := by
    cases after with
    | nil =>
      rw [join, join, String.intercalate_nil, String.intercalate_singleton]
      exact hpos
    | cons next after =>
      rw [join, join, String.intercalate_cons_cons, String.length_append, String.length_append]
      omega
  cases before with
  | nil => exact htail
  | cons first before =>
    have hbefore : first :: before ≠ [] := List.cons_ne_nil _ _
    have hlong : join ((first :: before) ++ part :: after) = join (first :: before) ++ "_" ++ join (part :: after) :=
      String.intercalate_append_of_ne_nil hbefore (List.cons_ne_nil _ _)
    rw [hlong, String.length_append, String.length_append]
    cases after with
    | nil =>
      rw [List.append_nil]
      omega
    | cons next after =>
      have hshort : join ((first :: before) ++ next :: after) = join (first :: before) ++ "_" ++ join (next :: after) :=
        String.intercalate_append_of_ne_nil hbefore (List.cons_ne_nil _ _)
      rw [hshort, String.length_append, String.length_append]
      omega

variable (fractionText) in
theorem part_ne_empty (e : String × Data) : part fractionText e ≠ "" := by
  intro hempty
  have hlength := congrArg String.length hempty
  rw [part, String.length_append, String.length_append] at hlength
  have hseparator : "_".length = 1 := by decide
  have hzero : "".length = 0 := by decide
  omega

/-- The name that is generated is that of the fields that were taken. -/
theorem generateName_fieldsOf {fields : List (String × Data)} (hnames : (fields.map Prod.fst).Nodup)
    (hindex : ∀ e ∈ fields, arrayIndex? e.1 = none) : generateName fractionText (fieldsOf fields) =
      join ((fields.filter fun e => e.1 ≠ "__proto__").map (part fractionText)) := by
  have htaken : ((fields.filter fun e => e.1 ≠ "__proto__").map Prod.fst).Nodup :=
    (List.filter_sublist.map Prod.fst).nodup hnames
  have hindex' : ∀ e ∈ fields.filter (fun e => e.1 ≠ "__proto__"), arrayIndex? e.1 = none :=
    fun e he => hindex e (List.mem_of_mem_filter he)
  rw [generateName, fieldsOf, ownProperties_ofEntries htaken hindex']

/-- It is the name of all fields only where none is called `__proto__`. -/
theorem generateName_eq_iff {fields : List (String × Data)} (hnames : (fields.map Prod.fst).Nodup)
    (hindex : ∀ e ∈ fields, arrayIndex? e.1 = none) :
    generateName fractionText (fieldsOf fields) = join (fields.map (part fractionText)) ↔
      ∀ e ∈ fields, e.1 ≠ "__proto__" := by
  rw [generateName_fieldsOf hnames hindex]
  constructor
  · intro hsame e he hproto
    obtain ⟨before, after, rfl⟩ := List.append_of_mem he
    rw [List.map_append, List.map_cons, List.nodup_append, List.nodup_cons] at hnames
    obtain ⟨-, ⟨hafter, -⟩, hbefore⟩ := hnames
    have hkeep : (before ++ e :: after).filter (fun e => e.1 ≠ "__proto__") = before ++ after := by
      have hkeepBefore : before.filter (fun e => e.1 ≠ "__proto__") = before := by
        rw [List.filter_eq_self]
        intro e' he'
        have hne := hbefore _ (List.mem_map_of_mem he') _ List.mem_cons_self
        rw [hproto] at hne
        exact decide_eq_true hne
      have hkeepAfter : after.filter (fun e => e.1 ≠ "__proto__") = after := by
        rw [List.filter_eq_self]
        intro e' he'
        apply decide_eq_true
        intro heq
        apply hafter
        rw [hproto, ← heq]
        exact List.mem_map_of_mem he'
      rw [List.filter_append, List.filter_cons_of_neg (by simp [hproto]), hkeepBefore, hkeepAfter]
    have hlt := length_join_lt (before.map (part fractionText)) (after.map (part fractionText))
      (part_ne_empty fractionText e)
    rw [hkeep, List.map_append] at hsame
    rw [hsame, List.map_append, List.map_cons] at hlt
    exact absurd hlt (Nat.lt_irrefl _)
  · intro hproto
    rw [List.filter_eq_self.2 fun e he => decide_eq_true (hproto e he)]

end

/-! ## The forms of a list -/

/-- All forms of the list have the name and the fields, and the name is generated from the fields. -/
structure Agree (pairs : List (String × Data)) (name : String) (fieldHash : OrderedMap String Data) : Prop where
  object : (parseIndexOptions fractionText (.object (ownProperties (.ofEntries pairs)))).name = name ∧
    (parseIndexOptions fractionText (.object (ownProperties (.ofEntries pairs)))).fieldHash = fieldHash
  array : (parseIndexOptions fractionText (.array (pairs.map fun e => .array [.text e.1, e.2]))).name = name ∧
    (parseIndexOptions fractionText (.array (pairs.map fun e => .array [.text e.1, e.2]))).fieldHash = fieldHash
  objects : (parseIndexOptions fractionText (.array (pairs.map fun e => .object [(e.1, e.2)]))).name = name ∧
    (parseIndexOptions fractionText (.array (pairs.map fun e => .object [(e.1, e.2)]))).fieldHash = fieldHash
  pair : ∀ field direction, pairs = [(field, direction)] →
    (parseIndexOptions fractionText (.array [.text field, direction])).name = name ∧
      (parseIndexOptions fractionText (.array [.text field, direction])).fieldHash = fieldHash
  string : ∀ field, pairs = [(field, .number 1)] →
    (parseIndexOptions fractionText (.text field)).name = name ∧
      (parseIndexOptions fractionText (.text field)).fieldHash = fieldHash
  generated : generateName fractionText fieldHash = name

section

variable {fractionText} {pairs : List (String × Data)}

theorem parseIndexOptions_of_collects {indexSpec : Data} {fields : List (String × Data)}
    (h : Collects fractionText (collectFields fractionText indexSpec) fields) :
    (parseIndexOptions fractionText indexSpec).name = join (fields.map (part fractionText)) ∧
      (parseIndexOptions fractionText indexSpec).fieldHash = fieldsOf fields := by
  constructor
  · exact congrArg join h.indexes
  · exact h.fieldHash

/-- Forms that agree do so on a list that every form reads as it is. -/
theorem Agree.conditions {name : String} {fieldHash : OrderedMap String Data}
    (h : Agree fractionText pairs name fieldHash) (hnames : (pairs.map Prod.fst).Nodup)
    (hindex : ∀ e ∈ pairs, arrayIndex? e.1 = none) (hdirections : ∀ e ∈ pairs, IndexDirection e.2) :
    (∀ e ∈ pairs, e.1 ≠ "__proto__" ∧ e.2.truthy = true) ∧
      ∀ field direction, pairs = [(field, direction)] → direction = .number 1 := by
  have hobject := h.object
  rw [ownProperties_ofEntries hnames hindex, (parseIndexOptions_of_collects (collects_object pairs)).1,
    (parseIndexOptions_of_collects (collects_object pairs)).2] at hobject
  obtain ⟨rfl, rfl⟩ := hobject
  have hproto := (generateName_eq_iff hnames hindex).1 h.generated
  have hentries : (fieldsOf pairs).entries = pairs := by
    rw [entries_fieldsOf hnames, List.filter_eq_self]
    exact fun e he => decide_eq_true (hproto e he)
  constructor
  · have harray := h.array.2
    rw [(parseIndexOptions_of_collects (collects_pairs pairs)).2] at harray
    have hones : (fieldsOf (pairs.map fun e => (e.1, orOne e.2))).entries = pairs.map fun e => (e.1, orOne e.2) := by
      rw [entries_fieldsOf, List.filter_eq_self]
      · intro e' he'
        obtain ⟨e, he, rfl⟩ := List.mem_map.1 he'
        exact decide_eq_true (hproto e he)
      · rw [List.map_map]
        exact hnames
    rw [harray, hentries] at hones
    intro e he
    refine ⟨hproto e he, truthy_of_orOne ?_⟩
    obtain ⟨i, hi, rfl⟩ := List.getElem_of_mem he
    have hsame := congrArg (fun l => (l[i]?).map Prod.snd) hones
    simpa [hi] using hsame
  · rintro field direction rfl
    have hpair := h.pair field direction rfl
    have hget : (collectFields fractionText (.array [.text field, direction])).fieldHash.get? field =
        some (.number 1) := get?_pair (hdirections _ List.mem_cons_self) (hproto _ List.mem_cons_self)
    have hmem : (fieldsOf [(field, direction)]).get? field = some direction := by
      rw [OrderedMap.get?_eq_some, hentries]
      exact List.mem_cons_self
    have hhash : (collectFields fractionText (.array [.text field, direction])).fieldHash =
        fieldsOf [(field, direction)] := hpair.2
    rw [hhash, hmem] at hget
    exact Option.some.inj hget

theorem agree_of_conditions (hnames : (pairs.map Prod.fst).Nodup) (hindex : ∀ e ∈ pairs, arrayIndex? e.1 = none)
    (hfields : ∀ e ∈ pairs, e.1 ≠ "__proto__" ∧ e.2.truthy = true)
    (hpair : ∀ field direction, pairs = [(field, direction)] → direction = .number 1) :
    Agree fractionText pairs (join (pairs.map (part fractionText))) (fieldsOf pairs) := by
  have hones : (pairs.map fun e => (e.1, orOne e.2)) = pairs := by
    rw [List.map_congr_left (g := id) fun e he => ?_, List.map_id]
    rw [orOne, if_pos (hfields e he).2]
    rfl
  constructor
  · rw [ownProperties_ofEntries hnames hindex]
    exact parseIndexOptions_of_collects (collects_object pairs)
  · have h := parseIndexOptions_of_collects (@collects_pairs fractionText pairs)
    rw [hones] at h
    exact h
  · exact parseIndexOptions_of_collects (collects_objects pairs)
  · rintro field direction rfl
    obtain rfl := hpair field direction rfl
    exact parseIndexOptions_of_collects (collects_string field)
  · rintro field rfl
    exact parseIndexOptions_of_collects (collects_string field)
  · exact (generateName_eq_iff hnames hindex).2 fun e he => (hfields e he).1

end

/-- All forms of a list of different fields, none of them an array index, and directions give one name and the same
fields, and the name is the one generated from them, exactly when no field is called `__proto__`, no direction is zero
or `NaN`, and a single direction is one. -/
theorem indexForms_iff (pairs : List (String × Data)) (hnames : (pairs.map Prod.fst).Nodup)
    (hindex : ∀ e ∈ pairs, arrayIndex? e.1 = none) (hdirections : ∀ e ∈ pairs, IndexDirection e.2) :
    (∃ name fieldHash, Agree fractionText pairs name fieldHash) ↔
      (∀ e ∈ pairs, e.1 ≠ "__proto__" ∧ e.2.truthy = true) ∧
        ∀ field direction, pairs = [(field, direction)] → direction = .number 1 := by
  constructor
  · rintro ⟨name, fieldHash, h⟩
    exact h.conditions hnames hindex hdirections
  · rintro ⟨hfields, hpair⟩
    exact ⟨_, _, agree_of_conditions hnames hindex hfields hpair⟩

/-- Two fields, one of them with a sphere. -/
theorem indexForms_iff_two :
    (∃ name fieldHash, Agree (fun _ => "") [("place", .text "2dsphere"), ("type", .number (-1))] name fieldHash) ↔
      (∀ e ∈ [("place", Data.text "2dsphere"), ("type", .number (-1))], e.1 ≠ "__proto__" ∧ e.2.truthy = true) ∧
        ∀ field direction, [("place", Data.text "2dsphere"), ("type", .number (-1))] = [(field, direction)] →
          direction = .number 1 := by
  apply indexForms_iff
  · decide
  · intro e he
    simp only [List.mem_cons, List.not_mem_nil, or_false] at he
    rcases he with rfl | rfl
    all_goals decide
  · intro e he
    simp only [List.mem_cons, List.not_mem_nil, or_false] at he
    rcases he with rfl | rfl
    · exact .inr (.inr (.inr ⟨"2dsphere", by decide, rfl⟩))
    · exact .inr (.inr (.inl ⟨-1, rfl⟩))

/-- The pair of a field and a sphere is read as two fields. -/
theorem pair_read_as_fields :
    (parseIndexOptions (fun _ => "") (.array [.text "place", .text "2dsphere"])).name = "place_1_2dsphere_1" ∧
    (parseIndexOptions (fun _ => "") (.array [.text "place", .text "2dsphere"])).fieldHash.keys =
      ["place", "2dsphere"] ∧
    (parseIndexOptions (fun _ => "") (.object [("place", .text "2dsphere")])).name = "place_2dsphere" := by
  have hpair : collectFields (fun _ => "") (.array [.text "place", .text "2dsphere"]) =
      [("place", Data.number 1), ("2dsphere", .number 1)].foldl (addField fun _ => "") {} := rfl
  have hcollects := parseIndexOptions_of_collects
    (hpair ▸ collects_foldl [("place", Data.number 1), ("2dsphere", .number 1)] none :
      Collects (fun _ => "") (collectFields (fun _ => "") (.array [.text "place", .text "2dsphere"])) _)
  rw [hcollects.1, hcollects.2, (parseIndexOptions_of_collects (collects_object _)).1]
  refine ⟨?_, ?_, ?_⟩
  · decide
  · decide
  · decide

end

end Indexes

end MongoDriver
