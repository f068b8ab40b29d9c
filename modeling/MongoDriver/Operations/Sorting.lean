/-
Sort specifications (`src/sort.ts`). A specification comes in several shapes that are told apart by tests on arrays
and objects; the shapes of one list of keys and directions are compared here. All agree but one: the direction of a
pair is prepared inside an array, where an object with `$meta` is not recognised.
-/
import MongoDriver.Base.Data
import MongoDriver.Base.PropertyOrder
import MongoDriver.Base.Run
import MongoDriver.ReadPreference

namespace MongoDriver

open Js

namespace Sorting

section

variable (fractionText : Rat → String)

/-! ## JSON -/

mutual

/-- `JSON.stringify(value)`. -/
def stringify : Data → Option String
  | .undefined => none
  | .null | .nan | .infinity _ => some "null"
  | .boolean b => some (if b then "true" else "false")
  | .number q => some (Data.numberText fractionText q)
  | .text s => some (jsonString s)
  | .array values => some ("[" ++ ",".intercalate (stringifyAll values) ++ "]")
  | .object properties => some ("\x7b" ++ ",".intercalate (stringifyProperties properties) ++ "\x7d")
  | .map _ => some "\x7b\x7d"

def stringifyAll : List Data → List String
  | [] => []
  | value :: values => (stringify value).getD "null" :: stringifyAll values

def stringifyProperties : List (String × Data) → List String
  | [] => []
  | (name, value) :: properties =>
    match stringify value with
    | none => stringifyProperties properties
    | some text => (jsonString name ++ ":" ++ text) :: stringifyProperties properties

end

/-- `JSON.stringify(value)` in a template. -/
def json (value : Data) : String := (stringify fractionText value).getD "undefined"

/-! ## Directions -/

/-- `SortDirectionForCmd`. -/
inductive SortDirectionForCmd
  | ascending
  | descending
  | ofMeta (direction : List (String × Data))

/-- The direction as the command has it. -/
def SortDirectionForCmd.value : SortDirectionForCmd → Data
  | ascending => .number 1
  | descending => .number (-1)
  | ofMeta direction => .object direction

abbrev SortForCmd := OrderedMap String SortDirectionForCmd

def isMeta (properties : List (String × Data)) : Bool :=
  match properties.lookup "$meta" with
  | some (.text _) => true
  | _ => false

/-- `text.toLowerCase()`, as far as the words for directions can tell: no character but those of ASCII has one of
their letters for its lower case. -/
def toLowerCase (text : String) : String := String.ofList (text.toList.map Char.toLower)

/-- The direction of a word. -/
def directionOfWord (word : String) : Option SortDirectionForCmd :=
  if word = "ascending" ∨ word = "asc" ∨ word = "1" then some .ascending
  else if word = "descending" ∨ word = "desc" ∨ word = "-1" then some .descending
  else none

def invalidDirection (direction : Data) : AnyError :=
  invalidArgument ("Invalid sort direction: " ++ json fractionText direction)

/-- The `switch` over the text of a direction. -/
def prepareWord (direction : Data) : Except AnyError SortDirectionForCmd :=
  match directionOfWord (toLowerCase (direction.toText fractionText)) with
  | some prepared => .ok prepared
  | none => .error (invalidDirection fractionText direction)

def prepareGiven (direction : Data) : Except AnyError SortDirectionForCmd :=
  match direction with
  | .object properties =>
    if isMeta properties then .ok (.ofMeta properties) else prepareWord fractionText direction
  | _ => prepareWord fractionText direction

/-- A direction that is not given is `1`. -/
def prepareDirection (direction : Data) : Except AnyError SortDirectionForCmd :=
  match direction with
  | .undefined => prepareGiven fractionText (.number 1)
  | _ => prepareGiven fractionText direction

/-! ## Shapes -/

/-- `isPair(t)`, of an array. -/
def isPair (values : List Data) : Bool :=
  match values with
  | [_, direction] => (prepareDirection fractionText direction).toOption.isSome
  | _ => false

/-- `isDeep(t)`, of an array. -/
def isDeep (values : List Data) : Bool :=
  match values with
  | .array _ :: _ => true
  | _ => false

def pairToMap (key direction : Data) : Except AnyError SortForCmd := do
  let direction ← prepareDirection fractionText (.array [direction])
  return OrderedMap.ofEntries [(key.toText fractionText, direction)]

/-- One entry of the map. -/
def prepareEntry (key direction : Data) : Except AnyError (String × SortDirectionForCmd) := do
  let direction ← prepareDirection fractionText direction
  return (key.toText fractionText, direction)

/-- `const [k, v] = value`. -/
def destructure (value : Data) : Except AnyError (Data × Data) :=
  match value with
  | .array values => .ok (values.getD 0 .undefined, values.getD 1 .undefined)
  | .text s =>
    let chars := s.toList.map fun c => Data.text c.toString
    .ok (chars.getD 0 .undefined, chars.getD 1 .undefined)
  | .map entries =>
    let pairs := entries.map fun e => Data.array [e.1, e.2]
    .ok (pairs.getD 0 .undefined, pairs.getD 1 .undefined)
  | _ => .error { cls := .typeError, message := "object is not iterable" }

def deepToMap (values : List Data) : Except AnyError SortForCmd := do
  let sortEntries ← values.mapM fun value => do
    let (key, direction) ← destructure value
    prepareEntry fractionText key direction
  return OrderedMap.ofEntries sortEntries

def stringsToMap (values : List Data) : SortForCmd :=
  OrderedMap.ofEntries (values.map fun key => (key.toText fractionText, .ascending))

def objectToMap (properties : List (String × Data)) : Except AnyError SortForCmd := do
  let sortEntries ← properties.mapM fun e => prepareEntry fractionText (.text e.1) e.2
  return OrderedMap.ofEntries sortEntries

def mapToMap (entries : List (Data × Data)) : Except AnyError SortForCmd := do
  let sortEntries ← entries.mapM fun e => prepareEntry fractionText e.1 e.2
  return OrderedMap.ofEntries sortEntries

def invalidFormat (sort : Data) : AnyError :=
  invalidArgument ("Invalid sort format: " ++ json fractionText sort ++ " Sort must be a valid object")

/-- `formatSort(sort, direction)`. -/
def formatSort (sort direction : Data) : Except AnyError (Option SortForCmd) :=
  match sort with
  | .undefined | .null => .ok none
  | .text key => do
    let direction ← prepareDirection fractionText direction
    return some (OrderedMap.ofEntries [(key, direction)])
  | .map entries => if entries.isEmpty then .ok none else some <$> mapToMap fractionText entries
  | .object properties => if properties.isEmpty then .ok none else some <$> objectToMap fractionText properties
  | .array [] => .ok none
  | .array (value :: values) =>
    if isDeep (value :: values) then some <$> deepToMap fractionText (value :: values)
    else
      match value :: values with
      | [key, direction] =>
        if isPair fractionText [key, direction] then some <$> pairToMap fractionText key direction
        else .ok (some (stringsToMap fractionText [key, direction]))
      | values => .ok (some (stringsToMap fractionText values))
  | _ => .error (invalidFormat fractionText sort)

/-! ## Prepared directions -/

/-- A direction and what it is in the command: one, minus one, a word in any case, or an object with `$meta`. -/
inductive SortDirection : Data → SortDirectionForCmd → Prop
  | one : SortDirection (.number 1) .ascending
  | minusOne : SortDirection (.number (-1)) .descending
  | ascending {word : String} (h : toLowerCase word = "asc" ∨ toLowerCase word = "ascending") :
    SortDirection (.text word) .ascending
  | descending {word : String} (h : toLowerCase word = "desc" ∨ toLowerCase word = "descending") :
    SortDirection (.text word) .descending
  | ofMeta {properties : List (String × Data)} (h : isMeta properties = true) :
    SortDirection (.object properties) (.ofMeta properties)

section

variable {fractionText}

theorem directionOfWord_ascending {word : String} (h : word = "ascending" ∨ word = "asc" ∨ word = "1") :
    directionOfWord word = some .ascending :=
  if_pos h

theorem directionOfWord_descending {word : String} (h : word = "descending" ∨ word = "desc" ∨ word = "-1") :
    directionOfWord word = some .descending := by
  have hnot : ¬ (word = "ascending" ∨ word = "asc" ∨ word = "1") := by
    rcases h with rfl | rfl | rfl
    all_goals decide
  rw [directionOfWord, if_neg hnot, if_pos h]

theorem toText_one : (Data.number 1).toText fractionText = "1" := by
  rw [Data.toText, Data.numberText, if_pos (by decide)]
  decide

theorem toText_minusOne : (Data.number (-1)).toText fractionText = "-1" := by
  rw [Data.toText, Data.numberText, if_pos (by decide)]
  decide

variable (fractionText) in
/-- A direction that is no object is a word, also as the only element of an array. -/
theorem SortDirection.word {direction : Data} {prepared : SortDirectionForCmd} (h : SortDirection direction prepared) :
    (∃ properties, direction = .object properties ∧ isMeta properties = true ∧ prepared = .ofMeta properties) ∨
      ((∀ properties, direction ≠ .object properties) ∧ direction ≠ .undefined ∧
        direction.elementText fractionText = direction.toText fractionText ∧
        directionOfWord (toLowerCase (direction.toText fractionText)) = some prepared) := by
  cases h with
  | one =>
    refine .inr ⟨fun properties heq => (by cases heq), fun heq => (by cases heq), rfl, ?_⟩
    rw [toText_one]
    exact directionOfWord_ascending (by decide)
  | minusOne =>
    refine .inr ⟨fun properties heq => (by cases heq), fun heq => (by cases heq), rfl, ?_⟩
    rw [toText_minusOne]
    exact directionOfWord_descending (by decide)
  | @ascending word h =>
    refine .inr ⟨fun properties heq => (by cases heq), fun heq => (by cases heq), rfl, ?_⟩
    rw [Data.toText]
    exact directionOfWord_ascending (by tauto)
  | @descending word h =>
    refine .inr ⟨fun properties heq => (by cases heq), fun heq => (by cases heq), rfl, ?_⟩
    rw [Data.toText]
    exact directionOfWord_descending (by tauto)
  | @ofMeta properties h => exact .inl ⟨properties, rfl, h, rfl⟩

theorem prepareDirection_eq {direction : Data} (hobject : ∀ properties, direction ≠ .object properties)
    (hgiven : direction ≠ .undefined) :
    prepareDirection fractionText direction = prepareWord fractionText direction := by
  cases direction with
  | undefined => exact absurd rfl hgiven
  | object properties => exact absurd rfl (hobject properties)
  | _ => rfl

theorem prepareDirection_of_valid {direction : Data} {prepared : SortDirectionForCmd}
    (h : SortDirection direction prepared) : prepareDirection fractionText direction = .ok prepared := by
  obtain ⟨properties, rfl, hmeta, rfl⟩ | ⟨hobject, hgiven, -, hword⟩ := h.word fractionText
  · exact if_pos hmeta
  · rw [prepareDirection_eq hobject hgiven, prepareWord, hword]

/-- In an array a direction stays what it is, but for an object, which is refused. -/
theorem prepareDirection_singleton {direction : Data} {prepared : SortDirectionForCmd}
    (h : SortDirection direction prepared) (hobject : ∀ properties, direction ≠ .object properties) :
    prepareDirection fractionText (.array [direction]) = .ok prepared := by
  obtain ⟨properties, rfl, -⟩ | ⟨-, -, helement, hword⟩ := h.word fractionText
  · exact absurd rfl (hobject properties)
  · rw [prepareDirection_eq (fun properties heq => (by cases heq)) (fun heq => (by cases heq)), prepareWord,
      Data.toText_singleton, helement, hword]

theorem prepareDirection_singleton_object (properties : List (String × Data)) :
    prepareDirection fractionText (.array [.object properties]) =
      .error (invalidDirection fractionText (.array [.object properties])) := by
  have hword : directionOfWord (toLowerCase "[object Object]") = none := by
    rw [directionOfWord, if_neg (by decide), if_neg (by decide)]
  rw [prepareDirection_eq (fun properties heq => (by cases heq)) (fun heq => (by cases heq)), prepareWord,
    Data.toText_singleton, Data.elementText, hword]

/-- The direction of the command is a direction again, and the same. -/
theorem SortDirection.again {direction : Data} {prepared : SortDirectionForCmd} (h : SortDirection direction prepared) :
    SortDirection prepared.value prepared := by
  cases h with
  | one => exact .one
  | minusOne => exact .minusOne
  | ascending => exact .one
  | descending => exact .minusOne
  | ofMeta h => exact .ofMeta h

/-! ## The shapes of a list -/

theorem mapM_map_ok {α β γ ε : Type} {shape : α → β} {f : β → Except ε γ} {g : α → γ} :
    ∀ {l : List α}, (∀ a ∈ l, f (shape a) = .ok (g a)) → (l.map shape).mapM f = .ok (l.map g)
  | [], _ => rfl
  | a :: l, h => by
    rw [List.map_cons, List.mapM_cons, h a List.mem_cons_self,
      mapM_map_ok fun b hb => h b (List.mem_cons_of_mem a hb)]
    rfl

/-- A list of keys and directions, and their directions in the command. -/
structure Prepares (pairs : List (String × Data)) (prepare : Data → SortDirectionForCmd) : Prop where
  ne_nil : pairs ≠ []
  keys : (pairs.map Prod.fst).Nodup
  names : ∀ e ∈ pairs, arrayIndex? e.1 = none
  directions : ∀ e ∈ pairs, SortDirection e.2 (prepare e.2)

/-- The map that the list stands for. -/
def denoted (pairs : List (String × Data)) (prepare : Data → SortDirectionForCmd) : SortForCmd :=
  OrderedMap.ofEntries (pairs.map fun e => (e.1, prepare e.2))

theorem entries_denoted {pairs : List (String × Data)} {prepare : Data → SortDirectionForCmd}
    (h : Prepares pairs prepare) : (denoted pairs prepare).entries = pairs.map fun e => (e.1, prepare e.2) := by
  apply OrderedMap.entries_ofEntries
  rw [List.map_map]
  exact h.keys

variable {pairs : List (String × Data)} {prepare : Data → SortDirectionForCmd}

theorem prepareEntry_of_valid {key : String} {direction : Data} {prepared : SortDirectionForCmd}
    (h : SortDirection direction prepared) :
    prepareEntry fractionText (.text key) direction = .ok (key, prepared) := by
  rw [prepareEntry, prepareDirection_of_valid h, Data.toText]
  rfl

/-- Entries that come out as the list says make its map. -/
theorem toMap_ok {β : Type} (shape : String × Data → β) {f : β → Except AnyError (String × SortDirectionForCmd)}
    (h : ∀ e ∈ pairs, f (shape e) = .ok (e.1, prepare e.2)) :
    (some <$> do
      let sortEntries ← (pairs.map shape).mapM f
      return OrderedMap.ofEntries sortEntries) = Except.ok (some (denoted pairs prepare)) := by
  rw [mapM_map_ok h]
  rfl

theorem formatSort_pairs (h : Prepares pairs prepare) :
    formatSort fractionText (.array (pairs.map fun e => .array [.text e.1, e.2])) .undefined =
      .ok (some (denoted pairs prepare)) := by
  have hdeep : formatSort fractionText (.array (pairs.map fun e => .array [.text e.1, e.2])) .undefined =
      some <$> deepToMap fractionText (pairs.map fun e => .array [.text e.1, e.2]) := by
    cases pairs with
    | nil => exact absurd rfl h.ne_nil
    | cons e pairs =>
      rw [List.map_cons, formatSort]
      exact if_pos rfl
  rw [hdeep]
  exact toMap_ok _ fun e he => prepareEntry_of_valid (h.directions e he)

theorem formatSort_map (h : Prepares pairs prepare) :
    formatSort fractionText (.map (pairs.map fun e => (.text e.1, e.2))) .undefined =
      .ok (some (denoted pairs prepare)) := by
  have hmap : formatSort fractionText (.map (pairs.map fun e => (.text e.1, e.2))) .undefined =
      some <$> mapToMap fractionText (pairs.map fun e => (.text e.1, e.2)) := by
    cases pairs with
    | nil => exact absurd rfl h.ne_nil
    | cons e pairs => rfl
  rw [hmap]
  exact toMap_ok _ fun e he => prepareEntry_of_valid (h.directions e he)

theorem formatSort_object (h : Prepares pairs prepare) :
    formatSort fractionText (.object (ownProperties (.ofEntries pairs))) .undefined =
      .ok (some (denoted pairs prepare)) := by
  have hobject : formatSort fractionText (.object pairs) .undefined = some <$> objectToMap fractionText pairs := by
    cases pairs with
    | nil => exact absurd rfl h.ne_nil
    | cons e pairs => rfl
  have hprepared : ∀ e ∈ pairs, prepareEntry fractionText (.text (id e).1) (id e).2 = .ok (e.1, prepare e.2) :=
    fun e he => prepareEntry_of_valid (h.directions e he)
  have hentries := toMap_ok id (f := fun e => prepareEntry fractionText (.text e.1) e.2) hprepared
  rw [List.map_id] at hentries
  rw [ownProperties_ofEntries h.keys h.names, hobject]
  exact hentries

theorem formatSort_key {key : String} {direction : Data} (h : Prepares [(key, direction)] prepare) :
    formatSort fractionText (.text key) direction = .ok (some (denoted [(key, direction)] prepare)) := by
  have hdirection : prepareDirection fractionText direction = .ok (prepare direction) :=
    prepareDirection_of_valid (h.directions _ List.mem_cons_self)
  rw [formatSort, hdirection]
  rfl

/-- A pair is read as one, but for an object in the place of the direction. -/
theorem formatSort_pair {key : String} {direction : Data} (h : Prepares [(key, direction)] prepare)
    (hobject : ∀ properties, direction ≠ .object properties) :
    formatSort fractionText (.array [.text key, direction]) .undefined =
      .ok (some (denoted [(key, direction)] prepare)) := by
  have hvalid := h.directions _ List.mem_cons_self
  have hpair : isPair fractionText [.text key, direction] = true := by
    rw [isPair, prepareDirection_of_valid hvalid]
    rfl
  have hshape : formatSort fractionText (.array [.text key, direction]) .undefined =
      some <$> pairToMap fractionText (.text key) direction := by
    rw [formatSort, if_neg (fun hdeep => (by cases hdeep))]
    exact if_pos hpair
  rw [hshape, pairToMap, prepareDirection_singleton hvalid hobject, Data.toText]
  rfl

theorem formatSort_pair_object {key : String} {properties : List (String × Data)}
    (h : Prepares [(key, .object properties)] prepare) :
    formatSort fractionText (.array [.text key, .object properties]) .undefined =
      .error (invalidDirection fractionText (.array [.object properties])) := by
  have hvalid := h.directions _ List.mem_cons_self
  have hpair : isPair fractionText [.text key, .object properties] = true := by
    rw [isPair, prepareDirection_of_valid hvalid]
    rfl
  have hshape : formatSort fractionText (.array [.text key, .object properties]) .undefined =
      some <$> pairToMap fractionText (.text key) (.object properties) := by
    rw [formatSort, if_neg (fun hdeep => (by cases hdeep))]
    exact if_pos hpair
  rw [hshape, pairToMap, prepareDirection_singleton_object]
  rfl

/-- The map that comes out, as a specification. -/
def SortForCmd.sort (m : SortForCmd) : Data := .map (m.entries.map fun e => (.text e.1, e.2.value))

theorem formatSort_again (h : Prepares pairs prepare) :
    formatSort fractionText (SortForCmd.sort (denoted pairs prepare)) .undefined =
      .ok (some (denoted pairs prepare)) := by
  rw [SortForCmd.sort, entries_denoted h, List.map_map]
  have hmap : formatSort fractionText
      (.map (pairs.map ((fun e => (.text e.1, e.2.value)) ∘ fun e => (e.1, prepare e.2)))) .undefined =
      some <$> mapToMap fractionText
        (pairs.map ((fun e => (.text e.1, e.2.value)) ∘ fun e => (e.1, prepare e.2))) := by
    cases pairs with
    | nil => exact absurd rfl h.ne_nil
    | cons e pairs => rfl
  rw [hmap]
  exact toMap_ok _ fun e he => prepareEntry_of_valid (h.directions e he).again

/-! ## All shapes -/

/-- All shapes of the list give the map, and the map gives itself. -/
structure Agree (fractionText : Rat → String) (pairs : List (String × Data)) (m : SortForCmd) : Prop where
  entries : List.Forall₂ (fun e c => c.1 = e.1 ∧ SortDirection e.2 c.2) pairs m.entries
  array : formatSort fractionText (.array (pairs.map fun e => .array [.text e.1, e.2])) .undefined = .ok (some m)
  map : formatSort fractionText (.map (pairs.map fun e => (.text e.1, e.2))) .undefined = .ok (some m)
  object : formatSort fractionText (.object (ownProperties (.ofEntries pairs))) .undefined = .ok (some m)
  pair : ∀ key direction, pairs = [(key, direction)] →
    formatSort fractionText (.array [.text key, direction]) .undefined = .ok (some m)
  key : ∀ key direction, pairs = [(key, direction)] →
    formatSort fractionText (.text key) direction = .ok (some m)
  again : formatSort fractionText (SortForCmd.sort m) .undefined = .ok (some m)

end

/-- All shapes of a list of different keys, none of them an array index, and directions give one map, and this map
gives itself, exactly when the list is no single pair with an object for its direction. -/
theorem formatSort_forms_iff (pairs : List (String × Data)) (hne : pairs ≠ []) (hkeys : (pairs.map Prod.fst).Nodup)
    (hnames : ∀ e ∈ pairs, arrayIndex? e.1 = none) (hdirections : ∀ e ∈ pairs, ∃ c, SortDirection e.2 c) :
    (∃ m, Agree fractionText pairs m) ↔ ¬ ∃ key properties, pairs = [(key, .object properties)] := by
  obtain ⟨prepare, h⟩ : ∃ prepare, Prepares pairs prepare := by
    refine ⟨fun direction => (prepareDirection fractionText direction).toOption.getD .ascending, hne, hkeys, hnames,
      fun e he => ?_⟩
    obtain ⟨c, hc⟩ := hdirections e he
    rw [prepareDirection_of_valid hc]
    exact hc
  constructor
  · rintro ⟨m, hagree⟩ ⟨key, properties, rfl⟩
    have hpair := hagree.pair key (.object properties) rfl
    rw [formatSort_pair_object h] at hpair
    cases hpair
  · intro hnot
    refine ⟨denoted pairs prepare, ?_⟩
    constructor
    · rw [entries_denoted h, List.forall₂_map_right_iff, List.forall₂_same]
      exact fun e he => ⟨rfl, h.directions e he⟩
    · exact formatSort_pairs h
    · exact formatSort_map h
    · exact formatSort_object h
    · rintro key direction rfl
      apply formatSort_pair h
      rintro properties rfl
      exact hnot ⟨key, properties, rfl⟩
    · rintro key direction rfl
      exact formatSort_key h
    · exact formatSort_again h

/-- Two keys, one with a word in capitals and one with the score of a text search. -/
theorem formatSort_forms_iff_two :
    (∃ m, Agree (fun _ => "") [("a", .text "DESC"), ("b", .object [("$meta", .text "textScore")])] m) ↔
      ¬ ∃ key properties, [("a", Data.text "DESC"), ("b", .object [("$meta", .text "textScore")])] =
        [(key, .object properties)] := by
  apply formatSort_forms_iff
  · exact List.cons_ne_nil _ _
  · decide
  · intro e he
    simp only [List.mem_cons, List.not_mem_nil, or_false] at he
    rcases he with rfl | rfl
    all_goals decide
  · intro e he
    simp only [List.mem_cons, List.not_mem_nil, or_false] at he
    rcases he with rfl | rfl
    · exact ⟨_, .descending (.inl (by decide))⟩
    · exact ⟨_, .ofMeta rfl⟩

/-- The score of a text search as the direction of a pair is refused, and accepted in a list of one pair. -/
theorem meta_pair_refused :
    formatSort (fun _ => "") (.array [.text "score", .object [("$meta", .text "textScore")]]) .undefined =
      .error (invalidDirection (fun _ => "") (.array [.object [("$meta", .text "textScore")]])) ∧
    formatSort (fun _ => "") (.array [.array [.text "score", .object [("$meta", .text "textScore")]]]) .undefined =
      .ok (some (.ofEntries [("score", .ofMeta [("$meta", .text "textScore")])])) := by
  have h : Prepares [("score", .object [("$meta", .text "textScore")])]
      fun _ => .ofMeta [("$meta", .text "textScore")] := by
    constructor
    · exact List.cons_ne_nil _ _
    · exact List.nodup_singleton _
    · intro e he
      obtain rfl := List.mem_singleton.1 he
      decide
    · intro e he
      obtain rfl := List.mem_singleton.1 he
      exact .ofMeta rfl
  exact ⟨formatSort_pair_object h, formatSort_pairs h⟩

end

end Sorting

end MongoDriver
