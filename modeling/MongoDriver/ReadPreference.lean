/-
Read preferences (`src/read_preference.ts`). A `ReadPreference` is an object: the five static instances are shared by
the whole process, and `fromOptions` returns the very object it was given when that is an instance already. It then
also writes the tags of the options into it. Which calls leave every object as it was is decided here, over all
sequences of calls.
-/
import Mathlib.Algebra.Order.Field.Rat
import MongoDriver.Base.Run
import MongoDriver.Error

namespace MongoDriver

/-! ## The class -/

abbrev TagSet := List (String × String)

inductive ReadPreferenceMode
  | primary
  | primaryPreferred
  | secondary
  | secondaryPreferred
  | nearest
deriving DecidableEq

namespace ReadPreferenceMode

def toString : ReadPreferenceMode → String
  | primary => "primary"
  | primaryPreferred => "primaryPreferred"
  | secondary => "secondary"
  | secondaryPreferred => "secondaryPreferred"
  | nearest => "nearest"

/-- `VALID_MODES`; the type of a mode excludes `null`. -/
def validModes : List ReadPreferenceMode := [primary, primaryPreferred, secondary, secondaryPreferred, nearest]

/-- `ReadPreference.isValid(mode)`, with the mode that the text is. -/
def ofString? (mode : String) : Option ReadPreferenceMode := validModes.find? (·.toString = mode)

end ReadPreferenceMode

structure HedgeOptions where
  enabled : Option Bool := none
deriving DecidableEq

structure ReadPreferenceOptions where
  maxStalenessSeconds : Option ℚ := none
  hedge : Option HedgeOptions := none
deriving DecidableEq

/-- The fields of a `ReadPreference`. -/
structure ReadPreference where
  mode : ReadPreferenceMode
  tags : Option (List TagSet) := none
  hedge : Option HedgeOptions := none
  maxStalenessSeconds : Option ℚ := none
  minWireVersion : Option Int := none
deriving DecidableEq

/-- The second argument of the constructor: the tags, or the options in their place. -/
inductive TagsArgument
  | absent
  | array (tags : List TagSet)
  /-- an object that is no array -/
  | options (options : ReadPreferenceOptions)
  /-- any other truthy value -/
  | other

/-- One character of a string in JSON. -/
def jsonEscape (c : Char) : String :=
  let code := c.toNat
  if code = 34 then "\\\""
  else if code = 92 then "\\\\"
  else if code = 8 then "\\b"
  else if code = 9 then "\\t"
  else if code = 10 then "\\n"
  else if code = 12 then "\\f"
  else if code = 13 then "\\r"
  else if code < 32 then "\\u00" ++ String.ofList [Nat.digitChar (code / 16), Nat.digitChar (code % 16)]
  else c.toString

/-- `JSON.stringify` of a string. -/
def jsonString (text : String) : String := "\"" ++ String.join (text.toList.map jsonEscape) ++ "\""

def invalidArgument (message : String) : AnyError := { cls := .mongoInvalidArgumentError, message }

def invalidMode (mode : String) : AnyError := invalidArgument ("Invalid read preference mode " ++ jsonString mode)

namespace ReadPreference

/-- The checks of the constructor after the fields are set. -/
def checkPrimary (p : ReadPreference) : Except AnyError ReadPreference :=
  if p.mode = .primary then
    if p.tags.any (·.length > 0) then
      .error (invalidArgument "Primary read preference cannot be combined with tags")
    else if p.maxStalenessSeconds.any (· ≠ 0) then
      .error (invalidArgument "Primary read preference cannot be combined with maxStalenessSeconds")
    else if p.hedge.isSome then
      .error (invalidArgument "Primary read preference cannot be combined with hedge")
    else .ok p
  else .ok p

/-- The tags and the options that the constructor was called with. -/
def splitArguments (tags : TagsArgument) (options : Option ReadPreferenceOptions) :
    Except AnyError (Option (List TagSet) × ReadPreferenceOptions) :=
  match tags with
  | .absent => .ok (none, options.getD {})
  | .array ts => .ok (some ts, options.getD {})
  | .options o =>
    if options.isNone then .ok (none, o) else .error (invalidArgument "ReadPreference tags must be an array")
  | .other => .error (invalidArgument "ReadPreference tags must be an array")

/-- `new ReadPreference(mode, tags, options)`. -/
def new (mode : String) (tags : TagsArgument := .absent) (options : Option ReadPreferenceOptions := none) :
    Except AnyError ReadPreference :=
  match ReadPreferenceMode.ofString? mode with
  | none => .error (invalidMode mode)
  | some mode =>
    match splitArguments tags options with
    | .error e => .error e
    | .ok (tags, options) =>
      match options.maxStalenessSeconds with
      | none => checkPrimary { mode, tags, hedge := options.hedge }
      | some seconds =>
        if seconds ≤ 0 then .error (invalidArgument "maxStalenessSeconds must be a positive integer")
        else checkPrimary { mode, tags, hedge := options.hedge, maxStalenessSeconds := some seconds,
                            minWireVersion := some 5 }

/-- `isValid()` of an instance. -/
def isValid (p : ReadPreference) : Bool := p.mode ∈ ReadPreferenceMode.validModes

end ReadPreference

/-! ## Objects -/

/-- An object literal in the place of a `ReadPreference`. -/
structure PlainPreference where
  mode : Option String := none
  preference : Option String := none
  tags : Option (List TagSet) := none
  maxStalenessSeconds : Option ℚ := none
deriving DecidableEq

/-- `mode || preference`, when that is a string that is not empty. -/
def PlainPreference.modeText (p : PlainPreference) : Option String :=
  p.mode.filter (· ≠ "") <|> p.preference.filter (· ≠ "")

/-- An object that options may refer to. -/
inductive PreferenceObject
  | built (preference : ReadPreference)
  | plain (fields : PlainPreference)
deriving DecidableEq

namespace PreferenceObject

def tags : PreferenceObject → Option (List TagSet)
  | built p => p.tags
  | plain p => p.tags

def setTags (object : PreferenceObject) (tags : List TagSet) : PreferenceObject :=
  match object with
  | built p => built { p with tags := some tags }
  | plain p => plain { p with tags := some tags }

/-- The mode of a literal that a new instance is made from; an instance and a literal without one stand for
themselves. -/
def toConvert : PreferenceObject → Option (String × PlainPreference)
  | built _ => none
  | plain p => p.modeText.map fun mode => (mode, p)

end PreferenceObject

/-- What `options.readPreference` may be. -/
inductive PreferenceValue
  /-- `undefined` or `null` -/
  | absent
  | text (mode : String)
  | object (id : Nat)
  /-- a number or a boolean, with its type and how it prints -/
  | primitive (type text : String)
deriving DecidableEq

/-- The objects there are, by identity. -/
structure Preferences where
  objects : List PreferenceObject
deriving DecidableEq

namespace Preferences

def get? (h : Preferences) (id : Nat) : Option PreferenceObject := h.objects[id]?

def alloc (h : Preferences) (object : PreferenceObject) : Preferences := ⟨h.objects ++ [object]⟩

def overwrite (h : Preferences) (id : Nat) (object : PreferenceObject) : Preferences := ⟨h.objects.set id object⟩

/-- What a call leaves and returns. -/
abbrev Returns := Preferences × Except AnyError PreferenceValue

/-- A new instance, unless the constructor throws. -/
def construct (h : Preferences) (mode : String) (tags : TagsArgument) (options : Option ReadPreferenceOptions) :
    Returns :=
  match ReadPreference.new mode tags options with
  | .error e => (h, .error e)
  | .ok p => (h.alloc (.built p), .ok (.object h.objects.length))

end Preferences

def tagsArgument : Option (List TagSet) → TagsArgument
  | none => .absent
  | some tags => .array tags

/-- `ReadPreferenceFromOptions`, with the read preference of the session's transaction. -/
structure ReadPreferenceFromOptions where
  readPreference : PreferenceValue := .absent
  session : PreferenceValue := .absent
  readPreferenceTags : Option (List TagSet) := none
  maxStalenessSeconds : Option ℚ := none
  hedge : Option HedgeOptions := none

/-- `options.readPreference ?? options.session?.transaction.options.readPreference`. -/
def ReadPreferenceFromOptions.value (options : ReadPreferenceFromOptions) : PreferenceValue :=
  if options.readPreference = .absent then options.session else options.readPreference

/-- What assigning a property to a primitive throws. -/
def cannotCreateProperty (type text : String) : AnyError :=
  { cls := .typeError, message := "Cannot create property 'tags' on " ++ type ++ " '" ++ text ++ "'" }

namespace ReadPreference

/-- `fromOptions(options)`. -/
def fromOptions (h : Preferences) (options : Option ReadPreferenceFromOptions) : Preferences.Returns :=
  match options with
  | none => (h, .ok .absent)
  | some options =>
    match options.value with
    | .absent => (h, .ok .absent)
    | .text mode =>
      h.construct mode (tagsArgument options.readPreferenceTags)
        (some { maxStalenessSeconds := options.maxStalenessSeconds, hedge := options.hedge })
    | .object id =>
      match (h.get? id).bind PreferenceObject.toConvert with
      | some (mode, p) =>
        h.construct mode (tagsArgument (p.tags <|> options.readPreferenceTags))
          (some { maxStalenessSeconds := p.maxStalenessSeconds, hedge := options.hedge })
      | none =>
        match options.readPreferenceTags, h.get? id with
        | some tags, some object => (h.overwrite id (object.setTags tags), .ok (.object id))
        | _, _ => (h, .ok (.object id))
    | .primitive type text =>
      if options.readPreferenceTags.isSome then (h, .error (cannotCreateProperty type text))
      else (h, .ok (.primitive type text))

/-- `translate(options)`, with what `options.readPreference` is afterwards. -/
def translate (h : Preferences) (readPreference : PreferenceValue) : Preferences.Returns :=
  match readPreference with
  | .absent => (h, .ok .absent)
  | .text mode => h.construct mode .absent none
  | .object id =>
    match (h.get? id).bind PreferenceObject.toConvert with
    | some (mode, p) =>
      h.construct mode (tagsArgument p.tags) (some { maxStalenessSeconds := p.maxStalenessSeconds })
    | none => (h, .ok (.object id))
  | .primitive _ text => (h, .error (invalidArgument ("Invalid read preference: " ++ text)))

/-- The static instances. -/
def statics : Preferences :=
  ⟨ReadPreferenceMode.validModes.filterMap fun mode => ((new mode.toString).toOption).map .built⟩

end ReadPreference

/-! ## Sequences of calls -/

/-- What code does with read preferences: make one, write a literal, or call one of the two functions. -/
inductive PreferenceCall
  | construct (mode : String) (tags : TagsArgument) (options : Option ReadPreferenceOptions)
  | literal (fields : PlainPreference)
  | fromOptions (options : Option ReadPreferenceFromOptions)
  | translate (readPreference : PreferenceValue)

/-- An object that is referred to exists. -/
def PreferenceValue.Known (h : Preferences) : PreferenceValue → Bool
  | .object id => id < h.objects.length
  | _ => true

namespace PreferenceCall

def run (h : Preferences) : PreferenceCall → Preferences.Returns
  | construct mode tags options => h.construct mode tags options
  | literal fields => (h.alloc (.plain fields), .ok (.object h.objects.length))
  | fromOptions options => ReadPreference.fromOptions h options
  | translate readPreference => ReadPreference.translate h readPreference

/-- The call refers to objects that exist. -/
def Known (h : Preferences) : PreferenceCall → Bool
  | fromOptions (some options) => options.value.Known h
  | translate readPreference => readPreference.Known h
  | _ => true

def step (h : Preferences) (call : PreferenceCall) : Option Preferences :=
  if call.Known h then some (call.run h).1 else none

/-- The call writes tags into an object that it was given, which has others. -/
def Overwrites (h : Preferences) : PreferenceCall → Prop
  | fromOptions (some options) => ∃ id object tags, options.value = .object id ∧ h.get? id = some object ∧
      object.toConvert = none ∧ options.readPreferenceTags = some tags ∧ object.tags ≠ some tags
  | _ => False

end PreferenceCall

/-- What a value is, by its fields. -/
inductive PreferenceContent
  | absent
  | text (mode : String)
  | object (fields : Option PreferenceObject)
  | primitive (type text : String)

def Preferences.content (h : Preferences) : PreferenceValue → PreferenceContent
  | .absent => .absent
  | .text mode => .text mode
  | .object id => .object (h.get? id)
  | .primitive type text => .primitive type text

/-- What a call resolves to, by its fields. -/
def PreferenceCall.resolved (h : Preferences) (call : PreferenceCall) : Except AnyError PreferenceContent :=
  (call.run h).2.map (call.run h).1.content

/-! ## Objects that stay as they are -/

namespace Preferences

variable {h h' : Preferences}

/-- Every object that was there has the fields it had. -/
def Keeps (h h' : Preferences) : Prop := ∀ id object, h.get? id = some object → h'.get? id = some object

theorem Keeps.refl (h : Preferences) : Keeps h h := fun _ _ hget => hget

theorem Keeps.trans {h'' : Preferences} (h₁ : Keeps h h') (h₂ : Keeps h' h'') : Keeps h h'' :=
  fun id object hget => h₂ id object (h₁ id object hget)

theorem get?_lt {id : Nat} (hid : id < h.objects.length) : ∃ object, h.get? id = some object :=
  ⟨_, List.getElem?_eq_getElem hid⟩

theorem lt_of_get? {id : Nat} {object : PreferenceObject} (hget : h.get? id = some object) :
    id < h.objects.length := (List.getElem?_eq_some_iff.1 hget).1

theorem keeps_alloc (h : Preferences) (object : PreferenceObject) : Keeps h (h.alloc object) := by
  intro id old hget
  unfold get? alloc
  rw [List.getElem?_append_left (lt_of_get? hget)]
  exact hget

theorem get?_alloc_new (h : Preferences) (object : PreferenceObject) :
    (h.alloc object).get? h.objects.length = some object := List.getElem?_concat_length ..

theorem get?_overwrite_self {id : Nat} (object : PreferenceObject) (hid : id < h.objects.length) :
    (h.overwrite id object).get? id = some object := List.getElem?_set_self hid

theorem get?_overwrite_ne {id other : Nat} (object : PreferenceObject) (hne : id ≠ other) :
    (h.overwrite id object).get? other = h.get? other := List.getElem?_set_ne hne

theorem keeps_construct (h : Preferences) (mode : String) (tags : TagsArgument)
    (options : Option ReadPreferenceOptions) : Keeps h (h.construct mode tags options).1 := by
  unfold construct
  split
  · exact Keeps.refl h
  · exact keeps_alloc h _

/-- A construction resolves to what the constructor makes, whatever objects there are. -/
theorem construct_content (h : Preferences) (mode : String) (tags : TagsArgument)
    (options : Option ReadPreferenceOptions) :
    (h.construct mode tags options).2.map (h.construct mode tags options).1.content =
      (ReadPreference.new mode tags options).map fun p => .object (some (.built p)) := by
  unfold construct
  split
  · rename_i e hnew
    rw [hnew]
    rfl
  · rename_i p hnew
    rw [hnew]
    show Except.ok (PreferenceContent.object _) = _
    rw [get?_alloc_new]
    rfl

end Preferences

theorem PreferenceObject.setTags_eq_self {object : PreferenceObject} {tags : List TagSet} :
    object.setTags tags = object ↔ object.tags = some tags := by
  cases object with
  | built p => cases p; simp [setTags, PreferenceObject.tags, eq_comm]
  | plain p => cases p; simp [setTags, PreferenceObject.tags, eq_comm]

/-! ## One call -/

section Call

variable {h h' : Preferences} {options : ReadPreferenceFromOptions} {id : Nat} {object : PreferenceObject}

theorem fromOptions_converts (hvalue : options.value = .object id) (hget : h.get? id = some object) {mode : String}
    {p : PlainPreference} (hconvert : object.toConvert = some (mode, p)) :
    ReadPreference.fromOptions h (some options) =
      h.construct mode (tagsArgument (p.tags <|> options.readPreferenceTags))
        (some { maxStalenessSeconds := p.maxStalenessSeconds, hedge := options.hedge }) := by
  simp only [ReadPreference.fromOptions, hvalue, hget, Option.bind_some, hconvert]

theorem fromOptions_passes (hvalue : options.value = .object id) (hget : h.get? id = some object)
    (hconvert : object.toConvert = none) (htags : options.readPreferenceTags = none) :
    ReadPreference.fromOptions h (some options) = (h, .ok (.object id)) := by
  simp only [ReadPreference.fromOptions, hvalue, hget, Option.bind_some, hconvert, htags]

theorem fromOptions_writes (hvalue : options.value = .object id) (hget : h.get? id = some object)
    (hconvert : object.toConvert = none) {tags : List TagSet} (htags : options.readPreferenceTags = some tags) :
    ReadPreference.fromOptions h (some options) = (h.overwrite id (object.setTags tags), .ok (.object id)) := by
  simp only [ReadPreference.fromOptions, hvalue, hget, Option.bind_some, hconvert, htags]

theorem translate_converts (hget : h.get? id = some object) {mode : String} {p : PlainPreference}
    (hconvert : object.toConvert = some (mode, p)) : ReadPreference.translate h (.object id) =
      h.construct mode (tagsArgument p.tags) (some { maxStalenessSeconds := p.maxStalenessSeconds }) := by
  simp only [ReadPreference.translate, hget, Option.bind_some, hconvert]

theorem translate_passes (hget : h.get? id = some object) (hconvert : object.toConvert = none) :
    ReadPreference.translate h (.object id) = (h, .ok (.object id)) := by
  simp only [ReadPreference.translate, hget, Option.bind_some, hconvert]

/-- An object that is passed on keeps its fields when the options have no tags for it but its own. -/
theorem overwrite_keeps_iff (hget : h.get? id = some object) (tags : List TagSet) :
    Preferences.Keeps h (h.overwrite id (object.setTags tags)) ↔ object.tags = some tags := by
  have hself := Preferences.get?_overwrite_self (object.setTags tags) (Preferences.lt_of_get? hget)
  rw [← PreferenceObject.setTags_eq_self]
  constructor
  · intro hkeeps
    rw [hkeeps id object hget] at hself
    exact (Option.some.inj hself).symm
  · intro hsame other old hold
    by_cases hne : id = other
    · subst hne
      rw [hself, hsame, ← hget]
      exact hold
    · rw [Preferences.get?_overwrite_ne _ hne]
      exact hold

/-- `translate` writes to no object. -/
theorem translate_keeps (h : Preferences) (readPreference : PreferenceValue) :
    Preferences.Keeps h (ReadPreference.translate h readPreference).1 := by
  cases readPreference with
  | absent => exact Preferences.Keeps.refl h
  | text mode => exact Preferences.keeps_construct h mode .absent none
  | primitive type text => exact Preferences.Keeps.refl h
  | object id =>
    unfold ReadPreference.translate
    simp only
    split
    · exact Preferences.keeps_construct h _ _ _
    · exact Preferences.Keeps.refl h

/-- `fromOptions` overwrites an object that needs no conversion, when the options have other tags. -/
theorem overwrites_iff (hvalue : options.value = .object id) (hget : h.get? id = some object) :
    (PreferenceCall.fromOptions (some options)).Overwrites h ↔
      object.toConvert = none ∧ ∃ tags, options.readPreferenceTags = some tags ∧ object.tags ≠ some tags := by
  constructor
  · rintro ⟨id', object', tags, hvalue', hget', hconvert, htags, hne⟩
    rw [hvalue] at hvalue'
    cases hvalue'
    rw [hget] at hget'
    cases hget'
    exact ⟨hconvert, tags, htags, hne⟩
  · rintro ⟨hconvert, tags, htags, hne⟩
    exact ⟨id, object, tags, hvalue, hget, hconvert, htags, hne⟩

theorem fromOptions_object_keeps_iff (hvalue : options.value = .object id) (hget : h.get? id = some object) :
    Preferences.Keeps h (ReadPreference.fromOptions h (some options)).1 ↔
      ¬ (PreferenceCall.fromOptions (some options)).Overwrites h := by
  rw [overwrites_iff hvalue hget]
  cases hconvert : object.toConvert with
  | some converted =>
    obtain ⟨mode, p⟩ := converted
    rw [fromOptions_converts hvalue hget hconvert]
    exact iff_of_true (Preferences.keeps_construct h _ _ _) fun hf => by cases hf.1
  | none =>
    cases htags : options.readPreferenceTags with
    | none =>
      rw [fromOptions_passes hvalue hget hconvert htags]
      refine iff_of_true (Preferences.Keeps.refl h) ?_
      rintro ⟨-, tags, hsome, -⟩
      cases hsome
    | some tags =>
      rw [fromOptions_writes hvalue hget hconvert htags, overwrite_keeps_iff hget]
      constructor
      · rintro hsame ⟨-, tags', hsome, hne⟩
        cases hsome
        exact hne hsame
      · intro hnot
        by_contra hne
        exact hnot ⟨rfl, tags, rfl, hne⟩

/-- One call keeps every object unless it writes into the one it was given. -/
theorem run_keeps_iff {call : PreferenceCall} (hknown : call.Known h = true) :
    Preferences.Keeps h (call.run h).1 ↔ ¬ call.Overwrites h := by
  cases call with
  | construct mode tags opts => exact iff_of_true (Preferences.keeps_construct h mode tags opts) fun hf => hf
  | literal fields => exact iff_of_true (Preferences.keeps_alloc h _) fun hf => hf
  | translate readPreference => exact iff_of_true (translate_keeps h readPreference) fun hf => hf
  | fromOptions opts =>
    cases opts with
    | none => exact iff_of_true (Preferences.Keeps.refl h) fun hf => hf
    | some options =>
      show Preferences.Keeps h (ReadPreference.fromOptions h (some options)).1 ↔ _
      have hother : (∀ id, options.value ≠ .object id) →
          ¬ (PreferenceCall.fromOptions (some options)).Overwrites h := by
        rintro hne ⟨id, -, -, hvalue, -⟩
        exact hne id hvalue
      cases hvalue : options.value with
      | absent =>
        refine iff_of_true ?_ (hother (by simp [hvalue]))
        simp only [ReadPreference.fromOptions, hvalue]
        exact Preferences.Keeps.refl h
      | text mode =>
        refine iff_of_true ?_ (hother (by simp [hvalue]))
        simp only [ReadPreference.fromOptions, hvalue]
        exact Preferences.keeps_construct h _ _ _
      | primitive type text =>
        refine iff_of_true ?_ (hother (by simp [hvalue]))
        simp only [ReadPreference.fromOptions, hvalue]
        split
        · exact Preferences.Keeps.refl h
        · exact Preferences.Keeps.refl h
      | object id =>
        have hid : id < h.objects.length := by
          simpa [PreferenceCall.Known, hvalue, PreferenceValue.Known] using hknown
        obtain ⟨object, hget⟩ := Preferences.get?_lt hid
        exact fromOptions_object_keeps_iff hvalue hget

/-- What the constructor makes of its arguments does not depend on the objects there are. -/
theorem construct_resolved (h h' : Preferences) (mode : String) (tags : TagsArgument)
    (opts : Option ReadPreferenceOptions) :
    (h'.construct mode tags opts).2.map (h'.construct mode tags opts).1.content =
      (h.construct mode tags opts).2.map (h.construct mode tags opts).1.content :=
  (Preferences.construct_content h' mode tags opts).trans (Preferences.construct_content h mode tags opts).symm

theorem translate_resolved (hk : Preferences.Keeps h h') {readPreference : PreferenceValue}
    (hknown : readPreference.Known h = true) :
    (ReadPreference.translate h' readPreference).2.map (ReadPreference.translate h' readPreference).1.content =
      (ReadPreference.translate h readPreference).2.map (ReadPreference.translate h readPreference).1.content := by
  cases readPreference with
  | absent => rfl
  | text mode => exact construct_resolved h h' ..
  | primitive type text => rfl
  | object id =>
    obtain ⟨object, hget⟩ := Preferences.get?_lt (of_decide_eq_true hknown)
    have hget' := hk id object hget
    cases hconvert : object.toConvert with
    | some converted =>
      obtain ⟨mode, p⟩ := converted
      rw [translate_converts hget hconvert, translate_converts hget' hconvert]
      exact construct_resolved h h' ..
    | none =>
      rw [translate_passes hget hconvert, translate_passes hget' hconvert]
      show Except.ok (PreferenceContent.object _) = Except.ok (PreferenceContent.object _)
      rw [hget, hget']

theorem fromOptions_resolved (hk : Preferences.Keeps h h') (hknown : options.value.Known h = true) :
    (ReadPreference.fromOptions h' (some options)).2.map (ReadPreference.fromOptions h' (some options)).1.content =
      (ReadPreference.fromOptions h (some options)).2.map
        (ReadPreference.fromOptions h (some options)).1.content := by
  cases hvalue : options.value with
  | absent =>
    simp only [ReadPreference.fromOptions, hvalue]
    rfl
  | text mode =>
    simp only [ReadPreference.fromOptions, hvalue]
    exact construct_resolved h h' ..
  | primitive type text =>
    simp only [ReadPreference.fromOptions, hvalue]
    split
    · rfl
    · rfl
  | object id =>
    rw [hvalue] at hknown
    obtain ⟨object, hget⟩ := Preferences.get?_lt (of_decide_eq_true hknown)
    have hget' := hk id object hget
    cases hconvert : object.toConvert with
    | some converted =>
      obtain ⟨mode, p⟩ := converted
      rw [fromOptions_converts hvalue hget hconvert, fromOptions_converts hvalue hget' hconvert]
      exact construct_resolved h h' ..
    | none =>
      cases htags : options.readPreferenceTags with
      | none =>
        rw [fromOptions_passes hvalue hget hconvert htags, fromOptions_passes hvalue hget' hconvert htags]
        show Except.ok (PreferenceContent.object _) = Except.ok (PreferenceContent.object _)
        rw [hget, hget']
      | some tags =>
        rw [fromOptions_writes hvalue hget hconvert htags, fromOptions_writes hvalue hget' hconvert htags]
        show Except.ok (PreferenceContent.object _) = Except.ok (PreferenceContent.object _)
        rw [Preferences.get?_overwrite_self _ (Preferences.lt_of_get? hget),
          Preferences.get?_overwrite_self _ (Preferences.lt_of_get? hget')]

/-- What a call resolves to depends on the objects it refers to alone. -/
theorem resolved_of_keeps (hk : Preferences.Keeps h h') {call : PreferenceCall} (hknown : call.Known h = true) :
    call.resolved h' = call.resolved h := by
  cases call with
  | construct mode tags opts => exact construct_resolved h h' mode tags opts
  | literal fields =>
    show Except.ok (PreferenceContent.object ((h'.alloc (.plain fields)).get? h'.objects.length)) =
      Except.ok (PreferenceContent.object ((h.alloc (.plain fields)).get? h.objects.length))
    rw [Preferences.get?_alloc_new, Preferences.get?_alloc_new]
  | translate readPreference => exact translate_resolved hk hknown
  | fromOptions opts =>
    cases opts with
    | none => rfl
    | some options => exact fromOptions_resolved hk hknown

end Call

/-! ## Runs -/

/-- Over any sequence of calls that starts with the static instances: no call changes an object that exists, and what a
call resolves to is the same whatever was called before, exactly when no call of `fromOptions` is given an instance (or
a literal without a mode) together with tags that are not already its own. -/
theorem preferences_do_not_leak_iff (calls : List PreferenceCall) (h : Preferences)
    (hrun : Run.exec PreferenceCall.step ReadPreference.statics calls = some h) :
    ((∀ before call after h₁ h₂, calls = before ++ call :: after →
        Run.exec PreferenceCall.step ReadPreference.statics before = some h₁ →
        PreferenceCall.step h₁ call = some h₂ → Preferences.Keeps h₁ h₂) ∧
      ∀ before after h₁ (call : PreferenceCall), calls = before ++ after →
        Run.exec PreferenceCall.step ReadPreference.statics before = some h₁ → call.Known h₁ = true →
        call.resolved h = call.resolved h₁) ↔
      Run.Meets PreferenceCall.step (fun h call => ¬ call.Overwrites h) ReadPreference.statics calls := by
  have hstep : ∀ s call t, PreferenceCall.step s call = some t →
      (¬ call.Overwrites s ↔ Preferences.Keeps s t) := by
    intro s call t ht
    unfold PreferenceCall.step at ht
    split at ht
    · rename_i hknown
      cases ht
      exact (run_keeps_iff hknown).symm
    · cases ht
  have hmeets := Run.meets_iff_steps PreferenceCall.step hstep hrun
  constructor
  · rintro ⟨hkeeps, -⟩
    exact hmeets.2 hkeeps
  · intro hm
    refine ⟨hmeets.1 hm, fun before after h₁ call hcalls hbefore hknown => ?_⟩
    subst hcalls
    obtain ⟨h₁', hbefore', hafter⟩ := (Run.exec_append PreferenceCall.step).1 hrun
    rw [hbefore] at hbefore'
    cases hbefore'
    refine resolved_of_keeps ?_ hknown
    refine Run.exec_inv_meets PreferenceCall.step ?_ (Preferences.Keeps.refl h₁) (hm.right hbefore) hafter
    exact fun s e t hs hc ht => hs.trans ((hstep s e t ht).1 hc)

/-- The tags of one operation. -/
def nyTags : List TagSet := [[("dc", "ny")]]

/-- An operation with tags, and one without, both with `ReadPreference.secondary`. -/
def taggedRead : PreferenceCall :=
  .fromOptions (some { readPreference := .object 2, readPreferenceTags := some nyTags })

def plainRead : PreferenceCall := .fromOptions (some { readPreference := .object 2 })

/-- The tags of the first operation are those of the static instance afterwards, and of the second operation. -/
theorem tags_leak :
    ReadPreference.statics.get? 2 = some (.built { mode := .secondary }) ∧
      ∃ h, Run.exec PreferenceCall.step ReadPreference.statics [taggedRead] = some h ∧
        h.get? 2 = some (.built { mode := .secondary, tags := some nyTags }) ∧
        plainRead.resolved ReadPreference.statics = .ok (.object (some (.built { mode := .secondary }))) ∧
        plainRead.resolved h = .ok (.object (some (.built { mode := .secondary, tags := some nyTags }))) :=
  ⟨rfl, _, rfl, rfl, rfl, rfl⟩

/-- An operation that names its mode. -/
def namedRead : PreferenceCall :=
  .fromOptions (some { readPreference := .text "secondary", readPreferenceTags := some nyTags })

theorem preferences_do_not_leak_named :
    ∃ h, Run.exec PreferenceCall.step ReadPreference.statics [namedRead, plainRead] = some h ∧
      (((∀ before call after h₁ h₂, [namedRead, plainRead] = before ++ call :: after →
          Run.exec PreferenceCall.step ReadPreference.statics before = some h₁ →
          PreferenceCall.step h₁ call = some h₂ → Preferences.Keeps h₁ h₂) ∧
        ∀ before after h₁ (call : PreferenceCall), [namedRead, plainRead] = before ++ after →
          Run.exec PreferenceCall.step ReadPreference.statics before = some h₁ → call.Known h₁ = true →
          call.resolved h = call.resolved h₁) ↔
        Run.Meets PreferenceCall.step (fun h call => ¬ call.Overwrites h) ReadPreference.statics
          [namedRead, plainRead]) :=
  ⟨_, rfl, preferences_do_not_leak_iff _ _ rfl⟩

end MongoDriver
