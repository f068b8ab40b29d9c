/-
The read preference of a client (`maxStalenessSeconds`, `readPreference` and `readPreferenceTags` of
`src/connection_string.ts`, and what they use of `src/read_preference.ts`). The three options are set one after the
other under the one name, each on top of what is there: the staleness makes a preference of its own, which the next
option reads or spreads, and the tags are written into the instance that comes out. An instance has all fields of its
own, so that spreading it leaves nothing of what was there, and one of them is the default.
-/
import MongoDriver.Base.PropertyOrder
import MongoDriver.Options.Precedence
import MongoDriver.Options.Spellings
import MongoDriver.ReadPreference

namespace MongoDriver.Options

/-! ## The class -/

/-- The own properties of an instance of `ReadPreference`, whatever their types. -/
structure PreferenceFields (ω : Type) where
  mode : String
  tags : Value ω := .undefined
  hedge : Value ω := .undefined
  maxStalenessSeconds : Value ω := .undefined
  minWireVersion : Value ω := .undefined

/-- The instances among the objects, and the comparison of a value with zero. -/
structure PreferenceClass (ω : Type) where
  /-- an instance with these properties -/
  build : PreferenceFields ω → ω
  fields : ω → Option (PreferenceFields ω)
  /-- `value <= 0` -/
  notPositive : Value ω → Bool
  fields_build : ∀ p, fields (build p) = some p

section

variable {ω : Type}

def PreferenceFields.properties (p : PreferenceFields ω) : List (String × Value ω) :=
  [("mode", .text p.mode), ("tags", p.tags), ("hedge", p.hedge), ("maxStalenessSeconds", p.maxStalenessSeconds),
   ("minWireVersion", p.minWireVersion)]

/-- `Array.isArray(value) && value.length > 0` -/
def Value.hasElements : Value ω → Bool
  | .array values => !values.isEmpty
  | _ => false

def Value.isArray : Value ω → Bool
  | .array _ => true
  | _ => false

/-- A text that is not empty. -/
def Value.nonEmptyText : Value ω → Option String
  | .text s => if s ≠ "" then some s else none
  | _ => none

/-- `{ ...a, ...b }` -/
def spread (a b : List (String × Value ω)) : List (String × Value ω) :=
  a.map (fun e => (e.1, (b.lookup e.1).getD e.2)) ++ b.filter fun e => (a.lookup e.1).isNone

end

/-! ## The code -/

section

variable {ω σ : Type} (js : Language ω) (cls : PreferenceClass ω)

/-- The properties that spreading a value copies. -/
def propertiesOf (value : Value ω) : List (String × Value ω) :=
  match value with
  | .object properties => properties
  | .other o => ((cls.fields o).map PreferenceFields.properties).getD []
  | _ => []

/-- `value?.[key]` -/
def field (value : Value ω) (key : String) : Value ω := ((propertiesOf cls value).lookup key).getD .undefined

/-- The checks at the end of the constructor. -/
def checkPrimaryFields (p : PreferenceFields ω) : Except AnyError (PreferenceFields ω) :=
  if p.mode = "primary" then
    if p.tags.hasElements then .error (invalidArgument "Primary read preference cannot be combined with tags")
    else if p.maxStalenessSeconds.truthy js then
      .error (invalidArgument "Primary read preference cannot be combined with maxStalenessSeconds")
    else if p.hedge.truthy js then .error (invalidArgument "Primary read preference cannot be combined with hedge")
    else .ok p
  else .ok p

/-- `new ReadPreference(mode, tags, { maxStalenessSeconds, hedge })` -/
def newReadPreference (mode : String) (tags maxStalenessSeconds hedge : Value ω) :
    Except AnyError (PreferenceFields ω) :=
  if mode ∉ ReadPreferenceMode.validModes.map ReadPreferenceMode.toString then .error (invalidMode mode)
  else if tags.truthy js ∧ ¬ tags.isArray then .error (invalidArgument "ReadPreference tags must be an array")
  else if maxStalenessSeconds.isNullish then checkPrimaryFields js { mode, tags, hedge }
  else if cls.notPositive maxStalenessSeconds then
    .error (invalidArgument "maxStalenessSeconds must be a positive integer")
  else checkPrimaryFields js { mode, tags, hedge, maxStalenessSeconds, minWireVersion := .number (.finite 5) }

def construct (mode : String) (tags maxStalenessSeconds hedge : Value ω) : Except AnyError (Value ω) := do
  return .other (cls.build (← newReadPreference js cls mode tags maxStalenessSeconds hedge))

/-- `mode || preference`, when that is a text that is not empty. -/
def modeText (properties : List (String × Value ω)) : Option String :=
  let mode := (properties.lookup "mode").getD .undefined
  (if mode.truthy js then mode else (properties.lookup "preference").getD .undefined).nonEmptyText

/-- `ReadPreference.fromOptions({ readPreference, readPreferenceTags, maxStalenessSeconds, hedge })`, of a value that
is a text, a record or an instance, if any. -/
def fromOptions (readPreference readPreferenceTags maxStalenessSeconds hedge : Value ω) : Except AnyError (Value ω) :=
  match readPreference with
  | .text mode => construct js cls mode readPreferenceTags maxStalenessSeconds hedge
  | .object properties =>
    match modeText js properties with
    | some mode =>
      construct js cls mode (((properties.lookup "tags").getD .undefined).orElse readPreferenceTags)
        ((properties.lookup "maxStalenessSeconds").getD .undefined) hedge
    | none =>
      if readPreferenceTags.truthy js then .ok (.object (spread properties [("tags", readPreferenceTags)]))
      else .ok readPreference
  | .other o =>
    match cls.fields o with
    | some p =>
      if readPreferenceTags.truthy js then .ok (.other (cls.build { p with tags := readPreferenceTags }))
      else .ok readPreference
    | none => .ok readPreference
  | _ => .ok .undefined

def maxStalenessSecondsTransform (name : String) (readPreference value : Value ω) : Except AnyError (Value ω) := do
  let maxStalenessSeconds ← getUint js name value
  let seconds : Value ω := .number (.ofNumber maxStalenessSeconds)
  if readPreference.truthy js then
    fromOptions js cls (.object (spread (propertiesOf cls readPreference) [("maxStalenessSeconds", seconds)]))
      .undefined .undefined .undefined
  else construct js cls "secondary" .undefined seconds .undefined

/-- `value instanceof ReadPreference` -/
def isReadPreference (value : Value ω) : Bool :=
  match value with
  | .other o => (cls.fields o).isSome
  | _ => false

def readPreferenceTransform (readPreference value : Value ω) : Except AnyError (Value ω) :=
  if isReadPreference cls value ∨ isRecord value ["mode"] then
    fromOptions js cls (.object (spread (propertiesOf cls readPreference) (propertiesOf cls value)))
      .undefined (field cls value "maxStalenessSeconds") (field cls value "hedge")
  else
    match value with
    | .text mode =>
      construct js cls mode (field cls readPreference "tags") (field cls readPreference "maxStalenessSeconds")
        (field cls readPreference "hedge")
    | _ => .ok .undefined

/-- A tag set as a text or a record. -/
def tagSet (tag : Value ω) : Except AnyError (Value ω) :=
  match tag with
  | .text text => do
    return .object ((Js.ownProperties (.ofEntries (← entriesFromString text))).map fun e => (e.1, .text e.2))
  | .object properties => .ok (.object properties)
  | _ => .ok (.object [])

def readPreferenceTagsTransform (readPreference : Value ω) (values : List (Value ω)) : Except AnyError (Value ω) := do
  let readPreferenceTags ← values.mapM tagSet
  fromOptions js cls readPreference (.array readPreferenceTags) .undefined .undefined

/-- The record has a property that `fromOptions` takes for an option of its own. -/
def isForeign (value : Value ω) : Bool :=
  match value with
  | .object properties => properties.any (·.1 ∈ ["preference", "readPreference", "readPreferenceTags", "session"])
  | _ => false

end

section

variable {ω σ : Type} (cls : PreferenceClass ω) (env : Environment ω σ)

/-- The environment with the transforms of the three options. -/
def withReadPreferences : Environment ω σ :=
  { env with
    transform := fun key name options values world =>
      let readPreference := options.get "readPreference"
      let value := values.headD .undefined
      if key = "maxStalenessSeconds" then do
        return (← maxStalenessSecondsTransform env.toLanguage cls name readPreference value, world)
      else if key = "readPreference" ∧ ¬ isForeign value then do
        return (← readPreferenceTransform env.toLanguage cls readPreference value, world)
      else if key = "readPreferenceTags" then do
        return (← readPreferenceTagsTransform env.toLanguage cls readPreference values, world)
      else env.transform key name options values world }

end

/-! ## Fields of their own types -/

section

variable {ω : Type}

def textValue (text : Option String) : Value ω := text.elim .undefined .text

def tagSetsValue (tags : Option (List TagSet)) : Value ω :=
  tags.elim .undefined fun tags => .array (tags.map fun set => .object (set.map fun e => (e.1, .text e.2)))

def secondsValue (seconds : Option ℚ) : Value ω := seconds.elim .undefined fun seconds => .number (.finite seconds)

def hedgeValue (hedge : Option HedgeOptions) : Value ω :=
  hedge.elim .undefined fun hedge => .object (hedge.enabled.elim [] fun enabled => [("enabled", .boolean enabled)])

/-- An instance whose fields have their own types. -/
def fieldsOf (p : ReadPreference) : PreferenceFields ω where
  mode := p.mode.toString
  tags := tagSetsValue p.tags
  hedge := hedgeValue p.hedge
  maxStalenessSeconds := secondsValue p.maxStalenessSeconds
  minWireVersion := p.minWireVersion.elim .undefined fun version => .number (.finite version)

/-- A literal whose fields have their own types. -/
def plainProperties (p : PlainPreference) : List (String × Value ω) :=
  [("mode", textValue p.mode), ("preference", textValue p.preference), ("tags", tagSetsValue p.tags),
   ("maxStalenessSeconds", secondsValue p.maxStalenessSeconds)]

/-- A mode, a literal or an instance as a value. -/
def contentValue (cls : PreferenceClass ω) : PreferenceContent → Value ω
  | .text mode => .text mode
  | .object (some (.built p)) => .other (cls.build (fieldsOf p))
  | .object (some (.plain p)) => .object (plainProperties p)
  | _ => .undefined

variable {js : Language ω} {cls : PreferenceClass ω}

theorem truthy_tagSetsValue (tags : Option (List TagSet)) : (tagSetsValue tags : Value ω).truthy js = tags.isSome := by
  cases tags with
  | none => rfl
  | some tags => rfl

theorem checkPrimaryFields_fieldsOf (p : ReadPreference) :
    checkPrimaryFields js (fieldsOf p : PreferenceFields ω) = p.checkPrimary.map fieldsOf := by
  have hmode : (fieldsOf p : PreferenceFields ω).mode = "primary" ↔ p.mode = .primary := by
    show p.mode.toString = "primary" ↔ _
    cases p.mode <;> decide
  have htags : (fieldsOf p : PreferenceFields ω).tags.hasElements = p.tags.any (·.length > 0) := by
    show (tagSetsValue p.tags : Value ω).hasElements = _
    cases p.tags with
    | none => rfl
    | some tags => cases tags <;> rfl
  have hseconds : (fieldsOf p : PreferenceFields ω).maxStalenessSeconds.truthy js =
      p.maxStalenessSeconds.any (· ≠ 0) := by
    show (secondsValue p.maxStalenessSeconds : Value ω).truthy js = _
    cases p.maxStalenessSeconds <;> rfl
  have hhedge : (fieldsOf p : PreferenceFields ω).hedge.truthy js = p.hedge.isSome := by
    show (hedgeValue p.hedge : Value ω).truthy js = _
    cases p.hedge <;> rfl
  unfold checkPrimaryFields ReadPreference.checkPrimary
  simp only [hmode, htags, hseconds, hhedge]
  split_ifs <;> rfl

theorem mem_validModes (mode : String) :
    mode ∈ ReadPreferenceMode.validModes.map ReadPreferenceMode.toString ↔
      ∃ m, ReadPreferenceMode.ofString? mode = some m := by
  rw [List.mem_map, ReadPreferenceMode.ofString?, ← Option.isSome_iff_exists, List.find?_isSome]
  simp

theorem toString_of_ofString? {mode : String} {m : ReadPreferenceMode}
    (h : ReadPreferenceMode.ofString? mode = some m) : m.toString = mode := by
  simpa using List.find?_some h

/-- On fields of their own types, the constructor is that of `ReadPreference`. -/
theorem newReadPreference_eq (hzero : ∀ q : ℚ, cls.notPositive (.number (.finite q)) = decide (q ≤ 0)) (mode : String)
    (tags : Option (List TagSet)) (options : ReadPreferenceOptions) :
    newReadPreference js cls mode (tagSetsValue tags) (secondsValue options.maxStalenessSeconds)
        (hedgeValue options.hedge) =
      (ReadPreference.new mode (tagsArgument tags) (some options)).map fieldsOf := by
  have harray : ¬ ((tagSetsValue tags : Value ω).truthy js = true ∧ ¬ (tagSetsValue tags : Value ω).isArray = true) := by
    cases tags with
    | none => exact fun h => absurd h.1 Bool.false_ne_true
    | some tags => exact fun h => h.2 rfl
  have hsplit : ReadPreference.splitArguments (tagsArgument tags) (some options) = .ok (tags, options) := by
    cases tags <;> rfl
  have hvalid := mem_validModes mode
  unfold newReadPreference ReadPreference.new
  cases hmode : ReadPreferenceMode.ofString? mode with
  | none =>
    have hnot : mode ∉ ReadPreferenceMode.validModes.map ReadPreferenceMode.toString := by
      rw [hvalid, hmode]
      rintro ⟨m, ⟨⟩⟩
    rw [if_pos hnot]
    rfl
  | some m =>
    have hmem : ¬ mode ∉ ReadPreferenceMode.validModes.map ReadPreferenceMode.toString :=
      not_not.2 (hvalid.2 ⟨m, hmode⟩)
    rw [if_neg hmem, if_neg harray, hsplit]
    obtain rfl := toString_of_ofString? hmode
    cases hseconds : options.maxStalenessSeconds with
    | none =>
      simp only [hseconds]
      exact checkPrimaryFields_fieldsOf ⟨m, tags, options.hedge, none, none⟩
    | some seconds =>
      have hnullish : ¬ (secondsValue (some seconds) : Value ω).isNullish = true := Bool.false_ne_true
      have hzero' : cls.notPositive (secondsValue (some seconds)) = decide (seconds ≤ 0) := hzero seconds
      simp only [hseconds, hzero']
      rw [if_neg hnullish]
      by_cases hpositive : seconds ≤ 0
      · rw [if_pos (decide_eq_true hpositive), if_pos hpositive]
        rfl
      · rw [if_neg (decide_eq_true_iff.not.2 hpositive), if_neg hpositive]
        exact checkPrimaryFields_fieldsOf ⟨m, tags, options.hedge, some seconds, some 5⟩

theorem construct_eq (hzero : ∀ q : ℚ, cls.notPositive (.number (.finite q)) = decide (q ≤ 0)) (h : Preferences)
    (mode : String) (tags : Option (List TagSet)) (options : ReadPreferenceOptions) :
    construct js cls mode (tagSetsValue tags) (secondsValue options.maxStalenessSeconds) (hedgeValue options.hedge) =
      ((h.construct mode (tagsArgument tags) (some options)).2.map
        (h.construct mode (tagsArgument tags) (some options)).1.content).map (contentValue cls) := by
  rw [Preferences.construct_content, construct, newReadPreference_eq hzero]
  cases ReadPreference.new mode (tagsArgument tags) (some options) <;> rfl

theorem modeText_plainProperties (p : PlainPreference) : modeText js (plainProperties p : List (String × Value ω)) =
    p.modeText := by
  have hcases : ∀ mode preference : Option String,
      (if (textValue mode : Value ω).truthy js then textValue mode else (textValue preference : Value ω)).nonEmptyText =
        (mode.filter (· ≠ "") <|> preference.filter (· ≠ "")) := by
    intro mode preference
    have hnonEmpty : ∀ text : Option String, (textValue text : Value ω).nonEmptyText = text.filter (· ≠ "") := by
      intro text
      cases text with
      | none => rfl
      | some text => by_cases h : text = "" <;> simp [textValue, Value.nonEmptyText, Option.filter, h]
    cases mode with
    | none => simpa [textValue, Value.truthy] using hnonEmpty preference
    | some mode =>
      by_cases h : mode = ""
      · simpa [textValue, Value.truthy, Option.filter, h] using hnonEmpty preference
      · simp [textValue, Value.truthy, Value.nonEmptyText, Option.filter, h]
  exact hcases p.mode p.preference

/-- On a mode, an instance or a literal with a mode, all with fields of their own types, `fromOptions` gives what
`ReadPreference.fromOptions` resolves to. -/
theorem fromOptions_eq (hzero : ∀ q : ℚ, cls.notPositive (.number (.finite q)) = decide (q ≤ 0)) (h : Preferences)
    (options : ReadPreferenceFromOptions)
    (hvalue : (∃ mode, options.value = .text mode) ∨ ∃ id object, options.value = .object id ∧
      h.get? id = some object ∧ ((∃ p, object = .built p) ∨ object.toConvert ≠ none)) :
    fromOptions js cls (contentValue cls (h.content options.value)) (tagSetsValue options.readPreferenceTags)
        (secondsValue options.maxStalenessSeconds) (hedgeValue options.hedge) =
      ((PreferenceCall.fromOptions (some options)).resolved h).map (contentValue cls) := by
  unfold PreferenceCall.resolved PreferenceCall.run
  rcases hvalue with ⟨mode, hmode⟩ | ⟨id, object, hid, hget, ⟨p, rfl⟩ | hconvert⟩
  · simp only [ReadPreference.fromOptions, hmode]
    exact construct_eq hzero h mode options.readPreferenceTags
      { maxStalenessSeconds := options.maxStalenessSeconds, hedge := options.hedge }
  · have hcontent : contentValue cls (h.content options.value) = .other (cls.build (fieldsOf p)) := by
      rw [hid, Preferences.content, hget]
      rfl
    rw [hcontent, fromOptions, cls.fields_build]
    simp only [truthy_tagSetsValue]
    cases htags : options.readPreferenceTags with
    | none =>
      simp only [fromOptions_passes hid hget rfl htags, Except.map, Preferences.content, hget]
      rfl
    | some tags =>
      simp only [fromOptions_writes hid hget rfl htags, Except.map, Preferences.content,
        Preferences.get?_overwrite_self _ (Preferences.lt_of_get? hget)]
      rfl
  · obtain ⟨⟨mode, p⟩, hmode⟩ := Option.ne_none_iff_exists'.1 hconvert
    cases object with
    | built p => cases hmode
    | plain fields =>
      obtain ⟨mode', hmode', heq⟩ := Option.map_eq_some_iff.1 hmode
      obtain ⟨rfl, rfl⟩ := Prod.mk.inj heq
      have hcontent : contentValue cls (h.content options.value) = .object (plainProperties fields) := by
        rw [hid, Preferences.content, hget]
        rfl
      have htags : ((tagSetsValue fields.tags : Value ω)).orElse (tagSetsValue options.readPreferenceTags) =
          tagSetsValue (fields.tags <|> options.readPreferenceTags) := by
        cases fields.tags <;> rfl
      rw [hcontent, fromOptions, modeText_plainProperties, hmode']
      simp only [fromOptions_converts hid hget hmode]
      rw [← @construct_eq _ js _ hzero, ← htags]
      rfl

end

/-! ## Spreading -/

section

variable {ω : Type}

theorem lookup_cons_ne {key name : String} (h : key ≠ name) (value : Value ω) (rest : List (String × Value ω)) :
    ((name, value) :: rest).lookup key = rest.lookup key := by
  rw [List.lookup_cons, beq_eq_false_iff_ne.2 h]

theorem lookup_map_getD (a b : List (String × Value ω)) (key : String) :
    (a.map fun e => (e.1, (b.lookup e.1).getD e.2)).lookup key =
      (a.lookup key).map fun value => (b.lookup key).getD value := by
  induction a with
  | nil => rfl
  | cons e a ih =>
    obtain ⟨name, value⟩ := e
    rw [List.map_cons]
    by_cases h : key = name
    · subst h
      rw [List.lookup_cons_self, List.lookup_cons_self]
      rfl
    · rw [lookup_cons_ne h, lookup_cons_ne h, ih]

theorem lookup_filter_keys (b : List (String × Value ω)) (p : String → Bool) (key : String) :
    (b.filter fun e => p e.1).lookup key = if p key then b.lookup key else none := by
  induction b with
  | nil =>
    split
    · rfl
    · rfl
  | cons e b ih =>
    obtain ⟨name, value⟩ := e
    rw [List.filter_cons]
    by_cases hkey : key = name
    · subst hkey
      split
      · rw [List.lookup_cons_self, List.lookup_cons_self]
      · rename_i hp
        rw [ih, if_neg hp]
    · rw [lookup_cons_ne hkey]
      split
      · rw [lookup_cons_ne hkey, ih]
      · exact ih

theorem lookup_spread (a b : List (String × Value ω)) (key : String) :
    (spread a b).lookup key = (b.lookup key).or (a.lookup key) := by
  rw [spread, List.lookup_append, lookup_map_getD, lookup_filter_keys b (fun k => (a.lookup k).isNone)]
  cases ha : a.lookup key with
  | none => simp
  | some value =>
    cases hb : b.lookup key with
    | none => simp
    | some value' => simp

end

/-! ## Each transform -/

section

variable {ω : Type} (js : Language ω) (cls : PreferenceClass ω)

/-- The rule of the constructor: mode `primary` has no tags, no staleness and no hedge. -/
def PrimaryRule (p : PreferenceFields ω) : Prop :=
  p.mode = "primary" → p.tags.hasElements = false ∧ p.maxStalenessSeconds.truthy js = false ∧
    p.hedge.truthy js = false

/-- The mode that a value of `readPreference` gives. -/
def modeOf (value : Value ω) : Option String :=
  match value with
  | .text mode => some mode
  | _ => (field cls value "mode").nonEmptyText

/-- What the staleness leaves for the next option: nothing, or an instance without tags. -/
def Untagged (readPreference : Value ω) : Prop :=
  readPreference = .undefined ∨ ∃ p, readPreference = .other (cls.build p) ∧ p.tags = .undefined

/-- Neither an instance nor what one is made from. -/
def Unnamed (readPreference : Value ω) : Prop :=
  readPreference = .undefined ∨ ∃ properties, readPreference = .object properties ∧ modeText js properties = none

section

variable {js cls}

theorem newReadPreference_ok {mode : String} {tags maxStalenessSeconds hedge : Value ω} {p : PreferenceFields ω}
    (h : newReadPreference js cls mode tags maxStalenessSeconds hedge = .ok p) :
    p.mode = mode ∧ p.tags = tags ∧ p.maxStalenessSeconds = maxStalenessSeconds.orElse .undefined ∧
      PrimaryRule js p := by
  have hcheck : ∀ q : PreferenceFields ω, checkPrimaryFields js q = .ok p → p = q ∧ PrimaryRule js p := by
    intro q hq
    unfold checkPrimaryFields at hq
    split_ifs at hq with hprimary htags hseconds hhedge
    · cases hq
      exact ⟨rfl, fun _ => ⟨by simpa using htags, by simpa using hseconds, by simpa using hhedge⟩⟩
    · cases hq
      exact ⟨rfl, fun hmode => absurd hmode hprimary⟩
  unfold newReadPreference at h
  split_ifs at h with hmode harray hnullish hpositive
  · obtain ⟨rfl, hrule⟩ := hcheck _ h
    exact ⟨rfl, rfl, by rw [Value.orElse, if_pos hnullish], hrule⟩
  · obtain ⟨rfl, hrule⟩ := hcheck _ h
    exact ⟨rfl, rfl, by rw [Value.orElse, if_neg hnullish], hrule⟩

theorem construct_ok {mode : String} {tags maxStalenessSeconds hedge result : Value ω}
    (h : construct js cls mode tags maxStalenessSeconds hedge = .ok result) :
    ∃ p, result = .other (cls.build p) ∧ p.mode = mode ∧ p.tags = tags ∧
      p.maxStalenessSeconds = maxStalenessSeconds.orElse .undefined ∧ PrimaryRule js p := by
  obtain ⟨p, hp, h⟩ := Run.bind_ok.1 h
  cases h
  exact ⟨p, rfl, newReadPreference_ok hp⟩

theorem propertiesOf_build (p : PreferenceFields ω) : propertiesOf cls (.other (cls.build p)) = p.properties := by
  rw [propertiesOf, cls.fields_build]
  rfl

/-- Nothing that is there before has a `preference` or tags. -/
theorem Untagged.lookup {readPreference : Value ω} (h : Untagged cls readPreference) :
    (propertiesOf cls readPreference).lookup "preference" = none ∧ field cls readPreference "tags" = .undefined := by
  obtain rfl | ⟨p, rfl, htags⟩ := h
  · exact ⟨rfl, rfl⟩
  · rw [field, propertiesOf_build]
    constructor
    · rfl
    · exact htags

theorem modeOf_of_ne_text {value : Value ω} (h : ∀ mode, value ≠ .text mode) :
    modeOf cls value = (field cls value "mode").nonEmptyText := by
  cases value with
  | text mode => exact absurd rfl (h mode)
  | _ => rfl

/-- The mode of what is spread over something else is its own. -/
theorem modeText_spread {readPreference value mode : Value ω} (hbefore : Untagged cls readPreference)
    (hvalue : (propertiesOf cls value).lookup "preference" = none)
    (hmode : (propertiesOf cls value).lookup "mode" = some mode) :
    modeText js (spread (propertiesOf cls readPreference) (propertiesOf cls value)) = mode.nonEmptyText := by
  rw [modeText, lookup_spread, lookup_spread, hbefore.lookup.1, hvalue, hmode]
  simp only [Option.or_none, Option.some_or, Option.getD_some, Option.getD_none]
  by_cases htruthy : mode.truthy js = true
  · rw [if_pos htruthy]
  · rw [if_neg htruthy]
    cases mode with
    | text mode =>
      have hempty : mode = "" := by simpa [Value.truthy] using htruthy
      rw [hempty]
      rfl
    | _ => rfl

/-- An instance and a record with a mode. -/
theorem propertiesOf_record {value : Value ω} (hvalue : isForeign value = false)
    (hrecord : isReadPreference cls value = true ∨ isRecord value ["mode"] = true) :
    (∀ mode, value ≠ .text mode) ∧ (propertiesOf cls value).lookup "preference" = none ∧
      ∃ mode, (propertiesOf cls value).lookup "mode" = some mode := by
  cases value with
  | object properties =>
    have hany : properties.any (·.1 = "mode") = true := by simpa [isReadPreference, isRecord] using hrecord
    refine ⟨fun mode heq => (by cases heq), ?_, ?_⟩
    · rw [propertiesOf, List.lookup_eq_none_iff]
      intro e he
      have hnot := List.any_eq_false.1 hvalue e he
      rw [decide_eq_true_iff] at hnot
      rw [bne_iff_ne]
      rintro heq
      apply hnot
      rw [← heq]
      exact List.mem_cons_self
    · rw [← Option.isSome_iff_exists, propertiesOf, List.lookup_isSome_iff]
      obtain ⟨e, he, hkey⟩ := List.any_eq_true.1 hany
      exact ⟨e, he, by simpa using (of_decide_eq_true hkey).symm⟩
  | other o =>
    have hinstance : (cls.fields o).isSome = true := by simpa [isReadPreference, isRecord] using hrecord
    obtain ⟨p, hp⟩ := Option.isSome_iff_exists.1 hinstance
    refine ⟨fun mode heq => (by cases heq), ?_, .text p.mode, ?_⟩
    · rw [propertiesOf, hp]
      rfl
    · rw [propertiesOf, hp]
      rfl
  | _ => exact absurd hrecord (by simp [isReadPreference, isRecord])

/-- What the option itself makes of a value: an instance with its mode, or none if it has none. -/
theorem readPreferenceTransform_ok {readPreference value result : Value ω} (hbefore : Untagged cls readPreference)
    (hvalue : isForeign value = false) (h : readPreferenceTransform js cls readPreference value = .ok result) :
    (∀ mode, modeOf cls value = some mode → ∃ p, result = .other (cls.build p) ∧ p.mode = mode ∧
      p.tags = (field cls value "tags").orElse .undefined ∧
      p.maxStalenessSeconds = (((propertiesOf cls value).lookup "maxStalenessSeconds").getD
        (field cls readPreference "maxStalenessSeconds")).orElse .undefined ∧ PrimaryRule js p) ∧
      (modeOf cls value = none → Unnamed js result) := by
  unfold readPreferenceTransform at h
  by_cases hrecord : isReadPreference cls value = true ∨ isRecord value ["mode"] = true
  · rw [if_pos hrecord] at h
    obtain ⟨htext, hforeign, mode, hmode⟩ := propertiesOf_record hvalue hrecord
    have hof : modeOf cls value = mode.nonEmptyText := by
      rw [modeOf_of_ne_text htext, field, hmode]
      rfl
    have hspread : modeText js (spread (propertiesOf cls readPreference) (propertiesOf cls value)) =
        mode.nonEmptyText := modeText_spread hbefore hforeign hmode
    rw [fromOptions, hspread, ← hof, lookup_spread, lookup_spread] at h
    constructor
    · intro mode' hmode'
      rw [hmode'] at h
      obtain ⟨p, hresult, hp, htags, hseconds, hrule⟩ := construct_ok h
      refine ⟨p, hresult, hp, ?_, ?_, hrule⟩
      · rw [htags, field]
        cases (propertiesOf cls value).lookup "tags" with
        | none => exact congrArg (fun tags => tags.orElse .undefined) hbefore.lookup.2
        | some tags => rfl
      · rw [hseconds, field]
        cases (propertiesOf cls value).lookup "maxStalenessSeconds" with
        | none => rfl
        | some seconds => rfl
    · intro hnone
      rw [hnone] at h
      cases h
      refine .inr ⟨_, rfl, ?_⟩
      rw [hspread, ← hof, hnone]
  · rw [if_neg hrecord] at h
    cases value with
    | text mode =>
      constructor
      · intro mode' hmode'
        cases hmode'
        obtain ⟨p, hresult, hp, htags, hseconds, hrule⟩ := construct_ok h
        refine ⟨p, hresult, hp, ?_, hseconds, hrule⟩
        rw [htags, hbefore.lookup.2]
        rfl
      · exact fun hnone => (by cases hnone)
    | object properties =>
      have hany : properties.any (·.1 = "mode") = false := by
        rw [← Bool.not_eq_true]
        exact fun hmode => hrecord (.inr (by simpa [isRecord] using hmode))
      have hmode : properties.lookup "mode" = none := by
        rw [List.lookup_eq_none_iff]
        intro e he
        rw [bne_iff_ne]
        exact fun heq => List.any_eq_false.1 hany e he (decide_eq_true heq.symm)
      refine ⟨fun mode hof => ?_, fun _ => .inl (Except.ok.inj h).symm⟩
      rw [modeOf_of_ne_text (fun mode heq => (by cases heq)), field, propertiesOf, hmode] at hof
      cases hof
    | other o =>
      have hfields : cls.fields o = none := by simpa [isReadPreference, isRecord] using hrecord
      refine ⟨fun mode hof => ?_, fun _ => .inl (Except.ok.inj h).symm⟩
      rw [modeOf_of_ne_text (fun mode heq => (by cases heq)), field, propertiesOf, hfields] at hof
      cases hof
    | _ => exact ⟨fun mode hof => (by cases hof), fun _ => .inl (Except.ok.inj h).symm⟩

/-- Tags are written into an instance, and into a record that none is made from. -/
theorem fromOptions_tags {readPreference result : Value ω} {tags : List (Value ω)}
    (h : fromOptions js cls readPreference (.array tags) .undefined .undefined = .ok result) :
    (∀ p, readPreference = .other (cls.build p) → result = .other (cls.build { p with tags := .array tags })) ∧
      (Unnamed js readPreference → ∀ o, result ≠ .other o) := by
  constructor
  · rintro p rfl
    unfold fromOptions at h
    simp only [cls.fields_build] at h
    cases h
    rfl
  · rintro (rfl | ⟨properties, rfl, hmode⟩) o
    · cases h
      exact fun heq => (by cases heq)
    · unfold fromOptions at h
      simp only [hmode] at h
      cases h
      exact fun heq => (by cases heq)

theorem maxStalenessSecondsTransform_ok {name : String} {value result : Value ω}
    (h : maxStalenessSecondsTransform js cls name .undefined value = .ok result) :
    ∃ n p, getUint js name value = .ok n ∧ result = .other (cls.build p) ∧ p.tags = .undefined ∧
      p.maxStalenessSeconds = .number (.ofNumber n) := by
  obtain ⟨n, hn, h⟩ := Run.bind_ok.1 h
  obtain ⟨p, hresult, -, htags, hseconds, -⟩ := construct_ok h
  exact ⟨n, p, hn, hresult, htags, hseconds⟩

end

end

/-! ## The three options in the loop -/

def maxStalenessSecondsOption : String × OptionDescriptor :=
  ("maxStalenessSeconds", { target := some "readPreference", transform := some .component })

def readPreferenceOption : String × OptionDescriptor :=
  ("readPreference", { transform := some .component, default := some .object })

def readPreferenceTagsOption : String × OptionDescriptor :=
  ("readPreferenceTags", { target := some "readPreference", transform := some .component })

theorem table_preferences : OPTIONS = OPTIONS.take 31 ++ maxStalenessSecondsOption ::
    ((OPTIONS.drop 32).take 18 ++ readPreferenceOption :: readPreferenceTagsOption :: OPTIONS.drop 52) := by
  decide

theorem table_other : ∀ e ∈ OPTIONS.take 31 ++ ((OPTIONS.drop 32).take 18 ++ OPTIONS.drop 52),
    e.2.name e.1 ≠ "readPreference" := by
  decide

theorem not_writes_readPreference {e : String × OptionDescriptor}
    (he : e ∈ OPTIONS.take 31 ++ ((OPTIONS.drop 32).take 18 ++ OPTIONS.drop 52)) : ¬ Writes e "readPreference" := by
  rintro (hname | ⟨-, -, hname⟩)
  · exact table_other e he hname
  · exact absurd hname (by decide)

section

variable {ω σ : Type} {env : Environment ω σ} {allOptions : CaseInsensitiveMap (List (Value ω))} {s s' : Settings ω σ}

/-- One round of the loop with a transform of the environment. -/
theorem setFrom_component {e : String × OptionDescriptor} (htype : e.2.type = none)
    (hcomponent : e.2.transform = some .component) (h : setFrom env allOptions s e = .ok s') :
    (valuesOf env allOptions e.1 = [] ∧ s' = s) ∨
      valuesOf env allOptions e.1 ≠ [] ∧ ∃ value world,
        env.transform e.1 (e.2.name e.1) s.options (valuesOf env allOptions e.1) s.world = .ok (value, world) ∧
        s'.options = s.options.set (e.2.name e.1) value := by
  obtain hnil | ⟨hne, hset⟩ := setFrom_cases h
  · exact .inl hnil
  · obtain ⟨transform, value, next, htransform, hrun, rfl⟩ := setOption_transform htype hset
    obtain rfl := Option.some.inj (htransform.symm.trans hcomponent)
    obtain ⟨⟨value', world⟩, hvalue, hrun⟩ := Run.bind_ok.1 hrun
    cases hrun
    exact .inr ⟨hne, value, world, hvalue, rfl⟩

variable {cls : PreferenceClass ω}

theorem transform_readPreference (name : String) {options : MongoOptions ω} {values : List (Value ω)} {world : σ}
    (h : isForeign (values.headD .undefined) = false) :
    (withReadPreferences cls env).transform "readPreference" name options values world = (do
      return (← readPreferenceTransform env.toLanguage cls (options.get "readPreference") (values.headD .undefined),
        world)) := by
  have hkey : "readPreference" ≠ "maxStalenessSeconds" := by decide
  unfold withReadPreferences
  dsimp only
  rw [if_neg hkey, if_pos ⟨rfl, by rw [h]; exact Bool.false_ne_true⟩]

/-- What the three options make of the field, one after the other. -/
theorem loop_readPreference (h : OPTIONS.foldlM (setFrom (withReadPreferences cls env) allOptions) s = .ok s')
    (hs : s.options.get "readPreference" = .undefined) :
    ∃ r₁ r₂, ((valuesOf (withReadPreferences cls env) allOptions "maxStalenessSeconds" = [] ∧ r₁ = .undefined) ∨
        (valuesOf (withReadPreferences cls env) allOptions "maxStalenessSeconds" ≠ [] ∧
          maxStalenessSecondsTransform env.toLanguage cls "readPreference" .undefined
            ((valuesOf (withReadPreferences cls env) allOptions "maxStalenessSeconds").headD .undefined) = .ok r₁)) ∧
      (valuesOf (withReadPreferences cls env) allOptions "readPreference" ≠ [] →
        isForeign ((valuesOf (withReadPreferences cls env) allOptions "readPreference").headD .undefined) = false →
          readPreferenceTransform env.toLanguage cls r₁
            ((valuesOf (withReadPreferences cls env) allOptions "readPreference").headD .undefined) = .ok r₂) ∧
      ((valuesOf (withReadPreferences cls env) allOptions "readPreferenceTags" = [] ∧
          s'.options.get "readPreference" = r₂) ∨
        (valuesOf (withReadPreferences cls env) allOptions "readPreferenceTags" ≠ [] ∧
          readPreferenceTagsTransform env.toLanguage cls r₂
              (valuesOf (withReadPreferences cls env) allOptions "readPreferenceTags") =
            .ok (s'.options.get "readPreference"))) := by
  have hquiet : ∀ {table : List (String × OptionDescriptor)} {u u' : Settings ω σ},
      (∀ e ∈ table, e ∈ OPTIONS.take 31 ++ ((OPTIONS.drop 32).take 18 ++ OPTIONS.drop 52)) →
      table.foldlM (setFrom (withReadPreferences cls env) allOptions) u = .ok u' →
      u'.options.get "readPreference" = u.options.get "readPreference" := by
    intro table u u' hmem hrun
    exact MongoOptions.get_congr (foldlM_setFrom_frame hrun fun e he _ => not_writes_readPreference (hmem e he))
  rw [table_preferences, List.foldlM_append] at h
  obtain ⟨u₁, hbefore, h⟩ := Run.bind_ok.1 h
  obtain ⟨u₂, hstaleness, h⟩ := Run.foldlM_cons_ok.1 h
  rw [List.foldlM_append] at h
  obtain ⟨u₃, hbetween, h⟩ := Run.bind_ok.1 h
  obtain ⟨u₄, hpreference, h⟩ := Run.foldlM_cons_ok.1 h
  obtain ⟨u₅, htags, hafter⟩ := Run.foldlM_cons_ok.1 h
  have h₁ : u₁.options.get "readPreference" = .undefined :=
    (hquiet (fun e he => List.mem_append_left _ he) hbefore).trans hs
  have h₃ : u₃.options.get "readPreference" = u₂.options.get "readPreference" :=
    hquiet (fun e he => List.mem_append_right _ (List.mem_append_left _ he)) hbetween
  have h₅ : s'.options.get "readPreference" = u₅.options.get "readPreference" :=
    hquiet (fun e he => List.mem_append_right _ (List.mem_append_right _ he)) hafter
  refine ⟨u₂.options.get "readPreference", u₄.options.get "readPreference", ?_, ?_, ?_⟩
  · obtain ⟨hnil, rfl⟩ | ⟨hne, value, world, hrun, hset⟩ := setFrom_component rfl rfl hstaleness
    · exact .inl ⟨hnil, h₁⟩
    · obtain ⟨result, hresult, hrun⟩ := Run.bind_ok.1 hrun
      obtain rfl := (Prod.mk.inj (Except.ok.inj hrun)).1
      rw [h₁] at hresult
      refine .inr ⟨hne, ?_⟩
      rw [hset, maxStalenessSecondsOption, OptionDescriptor.name, Option.getD_some, MongoOptions.get_set_self]
      exact hresult
  · intro hne hforeign
    obtain ⟨hnil, -⟩ | ⟨-, value, world, hrun, hset⟩ := setFrom_component rfl rfl hpreference
    · exact absurd hnil hne
    · obtain ⟨result, hresult, hrun⟩ := Run.bind_ok.1 ((transform_readPreference _ hforeign).symm.trans hrun)
      obtain rfl := (Prod.mk.inj (Except.ok.inj hrun)).1
      rw [h₃] at hresult
      rw [hset, readPreferenceOption, OptionDescriptor.name, Option.getD_none, MongoOptions.get_set_self]
      exact hresult
  · rw [h₅]
    obtain ⟨hnil, rfl⟩ | ⟨hne, value, world, hrun, hset⟩ := setFrom_component rfl rfl htags
    · exact .inl ⟨hnil, rfl⟩
    · obtain ⟨result, hresult, hrun⟩ := Run.bind_ok.1 hrun
      obtain rfl := (Prod.mk.inj (Except.ok.inj hrun)).1
      refine .inr ⟨hne, ?_⟩
      rw [hset, readPreferenceTagsOption, OptionDescriptor.name, Option.getD_some, MongoOptions.get_set_self]
      exact hresult

end

/-! ## What is given, and what comes out -/

section

variable {ω : Type} (js : Language ω) (cls : PreferenceClass ω) (value : Value ω) (staleness : Option (Value ω))
  (tags : List (Value ω))

/-- The tag sets of `readPreferenceTags`, or else those of the value itself. -/
def givenTagSets : Except AnyError (Value ω) :=
  if tags = [] then .ok ((field cls value "tags").orElse .undefined) else do return .array (← tags.mapM tagSet)

/-- The staleness of `maxStalenessSeconds`, or else that of the value itself. -/
def givenStaleness : Except AnyError (Value ω) :=
  match staleness with
  | some seconds => do return .number (.ofNumber (← getUint js "readPreference" seconds))
  | none => .ok ((field cls value "maxStalenessSeconds").orElse .undefined)

/-- An instance with the mode, the tag sets and the staleness that are given, and within the rule of the
constructor. -/
def Resolves (result : Value ω) : Prop :=
  ∃ o p, result = .other o ∧ cls.fields o = some p ∧ modeOf cls value = some p.mode ∧
    givenTagSets cls value tags = .ok p.tags ∧ givenStaleness js cls value staleness = .ok p.maxStalenessSeconds ∧
    PrimaryRule js p

/-- Where the options are kept, of whose tags some are read and some lost: the value has a mode, tags are not given to
mode `primary`, and a staleness is given to a text, to a record without one, or to a value with the same; no tags are
lost, unless those that are given are the value's own and none is read. -/
structure Kept (read lost : List (Value ω)) : Prop where
  named : modeOf cls value ≠ none
  notPrimary : read ≠ [] → modeOf cls value ≠ some "primary"
  staleness : ∀ seconds n, staleness = some seconds → getUint js "readPreference" seconds = .ok n →
    (propertiesOf cls value).lookup "maxStalenessSeconds" = none ∨
      (propertiesOf cls value).lookup "maxStalenessSeconds" = some (.number (.ofNumber n))
  spelled : lost = [] ∨ read = [] ∧ givenTagSets cls value tags = .ok ((field cls value "tags").orElse .undefined)

section

variable {js cls value staleness tags} {read lost : List (Value ω)} {r₁ r₂ final : Value ω}

theorem Resolves.givenStaleness_eq (h : Resolves js cls value staleness tags final) :
    givenStaleness js cls value staleness = .ok (field cls final "maxStalenessSeconds") := by
  obtain ⟨o, p, rfl, hfields, -, -, hgiven, -⟩ := h
  rw [hgiven, field, propertiesOf, hfields]
  rfl

variable (value) in
/-- The staleness that the first option leaves is that which is given exactly when the value has none of its own, or
the same. -/
theorem staleness_iff (h₁ : (staleness = none ∧ r₁ = .undefined) ∨
      ∃ seconds, staleness = some seconds ∧
        maxStalenessSecondsTransform js cls "readPreference" .undefined seconds = .ok r₁) :
    givenStaleness js cls value staleness = .ok ((((propertiesOf cls value).lookup "maxStalenessSeconds").getD
        (field cls r₁ "maxStalenessSeconds")).orElse .undefined) ↔
      ∀ seconds n, staleness = some seconds → getUint js "readPreference" seconds = .ok n →
        (propertiesOf cls value).lookup "maxStalenessSeconds" = none ∨
          (propertiesOf cls value).lookup "maxStalenessSeconds" = some (.number (.ofNumber n)) := by
  obtain ⟨rfl, rfl⟩ | ⟨seconds, rfl, htransform⟩ := h₁
  · refine iff_of_true rfl ?_
    rintro seconds n ⟨⟩
  · obtain ⟨n, p, hn, rfl, -, hseconds⟩ := maxStalenessSecondsTransform_ok htransform
    have hgiven : givenStaleness js cls value (some seconds) = .ok (.number (.ofNumber n)) := by
      rw [givenStaleness, hn]
      rfl
    have hbefore : field cls (.other (cls.build p)) "maxStalenessSeconds" = .number (.ofNumber n) := by
      rw [field, propertiesOf_build]
      exact hseconds
    rw [hgiven, hbefore]
    have hiff : ∀ own : Option (Value ω), Except.ok (Value.number (.ofNumber n)) =
        Except.ok (ε := AnyError) ((own.getD (.number (.ofNumber n))).orElse .undefined) ↔
          own = none ∨ own = some (.number (.ofNumber n)) := by
      intro own
      cases own with
      | none => exact iff_of_true rfl (.inl rfl)
      | some own =>
        rw [Option.getD_some, Value.orElse]
        split
        · rename_i hnullish
          apply iff_of_false
          · intro heq
            cases heq
          · rintro (heq | heq)
            · cases heq
            · cases heq
              cases hnullish
        · constructor
          · intro heq
            rw [Except.ok.inj heq]
            exact .inr rfl
          · rintro (heq | heq)
            · cases heq
            · rw [Option.some.inj heq]
    rw [hiff]
    constructor
    · rintro hown seconds' n' ⟨⟩ hn'
      obtain rfl := Except.ok.inj (hn.symm.trans hn')
      exact hown
    · exact fun hown => hown seconds n rfl hn

theorem length_of_mapM {α β ε : Type} {f : α → Except ε β} {l : List α} {bs : List β} (h : l.mapM f = .ok bs) :
    bs.length = l.length := by
  induction l generalizing bs with
  | nil =>
    cases h
    rfl
  | cons a l ih =>
    rw [List.mapM_cons] at h
    obtain ⟨b, -, h⟩ := Run.bind_ok.1 h
    obtain ⟨rest, hrest, h⟩ := Run.bind_ok.1 h
    cases h
    rw [List.length_cons, List.length_cons, ih hrest]

/-- The tag sets that are given are those that are read exactly where none is lost, or those are the value's own. -/
theorem spelled_iff (hlength : tags.length = read.length + lost.length) (hnone : lost = [] → tags = read)
    {sets : List (Value ω)} (hsets : read.mapM tagSet = .ok sets) :
    (lost = [] ∨ read = [] ∧ givenTagSets cls value tags = .ok ((field cls value "tags").orElse .undefined)) ↔
      givenTagSets cls value tags = givenTagSets cls value read := by
  constructor
  · rintro (hlost | ⟨rfl, hown⟩)
    · rw [hnone hlost]
    · rw [hown, givenTagSets, if_pos rfl]
  · intro heq
    by_cases hread : read = []
    · subst hread
      exact .inr ⟨rfl, heq⟩
    · left
      -- as many tags are given as are read
      have htags : tags ≠ [] := by
        rintro rfl
        rw [List.length_nil] at hlength
        exact hread (List.length_eq_zero_iff.1 (by omega))
      rw [givenTagSets, givenTagSets, if_neg htags, if_neg hread, hsets] at heq
      obtain ⟨sets', hsets', heq⟩ := Run.bind_ok.1 heq
      obtain rfl := Value.array.inj (Except.ok.inj heq)
      have hcount := length_of_mapM hsets
      have hcount' := length_of_mapM hsets'
      exact List.length_eq_zero_iff.1 (by omega)

/-- What comes out is what is given exactly where it is kept. -/
theorem resolves_iff (hvalue : isForeign value = false) (hlength : tags.length = read.length + lost.length)
    (hnone : lost = [] → tags = read)
    (h₁ : (staleness = none ∧ r₁ = .undefined) ∨
      ∃ seconds, staleness = some seconds ∧
        maxStalenessSecondsTransform js cls "readPreference" .undefined seconds = .ok r₁)
    (h₂ : readPreferenceTransform js cls r₁ value = .ok r₂)
    (h₃ : (read = [] ∧ final = r₂) ∨ (read ≠ [] ∧ readPreferenceTagsTransform js cls r₂ read = .ok final)) :
    Resolves js cls value staleness tags final ↔ Kept js cls value staleness tags read lost := by
  have hbefore : Untagged cls r₁ := by
    obtain ⟨-, rfl⟩ | ⟨seconds, -, htransform⟩ := h₁
    · exact .inl rfl
    · obtain ⟨n, p, -, hresult, htags, -⟩ := maxStalenessSecondsTransform_ok htransform
      exact .inr ⟨p, hresult, htags⟩
  obtain ⟨hnamed, hunnamed⟩ := readPreferenceTransform_ok hbefore hvalue h₂
  cases hmode : modeOf cls value with
  | none =>
    have hother : ∀ o, final ≠ .other o := by
      obtain ⟨-, rfl⟩ | ⟨-, htransform⟩ := h₃
      · obtain rfl | ⟨properties, rfl, -⟩ := hunnamed hmode
        · exact fun o heq => (by cases heq)
        · exact fun o heq => (by cases heq)
      · obtain ⟨sets, -, htransform⟩ := Run.bind_ok.1 htransform
        exact (fromOptions_tags htransform).2 (hunnamed hmode)
    apply iff_of_false
    · rintro ⟨o, p, hfinal, -⟩
      exact hother o hfinal
    · exact fun hkept => hkept.named hmode
  | some mode =>
    obtain ⟨p, rfl, rfl, htags, hseconds, hrule⟩ := hnamed mode hmode
    have hstaleness := staleness_iff value h₁
    rw [← hseconds] at hstaleness
    -- the instance that comes out has the mode and the staleness of the second option's
    have hinstance : ∀ q : PreferenceFields ω, final = .other (cls.build q) → q.mode = p.mode →
        q.maxStalenessSeconds = p.maxStalenessSeconds → givenTagSets cls value read = .ok q.tags →
        (PrimaryRule js q ↔ (read ≠ [] → modeOf cls value ≠ some "primary")) →
        ∀ sets, read.mapM tagSet = .ok sets →
        (Resolves js cls value staleness tags final ↔ Kept js cls value staleness tags read lost) := by
      rintro q rfl hqmode hqseconds hqtags hqrule sets hsets
      have hspelled : _ ↔ givenTagSets cls value tags = _ := spelled_iff hlength hnone hsets
      rw [hqtags] at hspelled
      constructor
      · rintro ⟨o, q', hfinal, hfields, -, hqgiven, hgiven, hprimary⟩
        obtain rfl := Value.other.inj hfinal
        obtain rfl := Option.some.inj ((cls.fields_build q).symm.trans hfields)
        constructor
        · rw [hmode]
          exact Option.some_ne_none _
        · exact hqrule.1 hprimary
        · rw [hqseconds] at hgiven
          exact hstaleness.1 hgiven
        · exact hspelled.2 hqgiven
      · rintro ⟨-, hprimary, hgiven, hlost⟩
        refine ⟨_, q, rfl, cls.fields_build q, ?_, hspelled.1 hlost, ?_, hqrule.2 hprimary⟩
        · rw [hmode, hqmode]
        · rw [hqseconds]
          exact hstaleness.2 hgiven
    obtain ⟨rfl, rfl⟩ | ⟨hne, htransform⟩ := h₃
    · apply hinstance p rfl rfl rfl
      · rw [givenTagSets, if_pos rfl, htags]
      · exact iff_of_true hrule fun hne => absurd rfl hne
      · rfl
    · obtain ⟨sets, hsets, htransform⟩ := Run.bind_ok.1 htransform
      apply hinstance { p with tags := .array sets } ((fromOptions_tags htransform).1 p rfl) rfl rfl
      · rw [givenTagSets, if_neg hne, hsets]
        rfl
      · have helements : (Value.array sets).hasElements = true := by
          cases sets with
          | nil => exact absurd (List.length_eq_zero_iff.1 (length_of_mapM hsets).symm) hne
          | cons set sets => rfl
        constructor
        · rintro hprimary - hmode'
          rw [hmode] at hmode'
          have hnone := (hprimary (Option.some.inj hmode')).1
          cases helements.symm.trans hnone
        · rintro hnot hprimary
          exact absurd (hmode.trans (congrArg some hprimary)) (hnot hne)
      · exact hsets

end

end

/-! ## A whole run -/

section

variable {ω σ : Type}

theorem maxStalenessSecondsOption_mem : maxStalenessSecondsOption ∈ OPTIONS :=
  List.mem_of_getElem? (i := 31) (by decide)

theorem readPreferenceOption_mem : readPreferenceOption ∈ OPTIONS :=
  List.mem_of_getElem? (i := 50) (by decide)

theorem readPreferenceTagsOption_mem : readPreferenceTagsOption ∈ OPTIONS :=
  List.mem_of_getElem? (i := 51) (by decide)

section

variable {env : Environment ω σ} {url : ConnectionString env.toLanguage} {options : List (String × Value ω)}
  {sources : Sources ω} {s s' : Settings ω σ}

theorem Looped.head?_maxStalenessSeconds (h : Looped env url options sources s s') :
    (valuesOf env (sources.allOptions env) "maxStalenessSeconds").head? =
      firstValue env url options "maxStalenessSeconds" maxStalenessSecondsOption.2 :=
  @Looped.head?_valuesOf _ _ _ _ _ _ maxStalenessSecondsOption _ _ h maxStalenessSecondsOption_mem (by decide)

theorem Looped.head?_readPreference (h : Looped env url options sources s s') :
    (valuesOf env (sources.allOptions env) "readPreference").head? =
      firstValue env url options "readPreference" readPreferenceOption.2 :=
  @Looped.head?_valuesOf _ _ _ _ _ _ readPreferenceOption _ _ h readPreferenceOption_mem (by decide)

theorem Looped.valuesOf_readPreferenceTags (h : Looped env url options sources s s')
    (hspelled : url.searchParams.Spelled) : valuesOf env (sources.allOptions env) "readPreferenceTags" =
      readValues env.toLanguage url options "readPreferenceTags" := by
  have hname : toLowerCase env.toLanguage "readPreferenceTags" = "readpreferencetags" := by
    rw [toLowerCase_of_ascii env.toLanguage (by decide)]
    decide
  apply @Looped.valuesOf_eq _ _ _ _ _ _ readPreferenceTagsOption _ _ h hspelled readPreferenceTagsOption_mem
  · decide
  · rfl
  · rw [readPreferenceTagsOption, hname, toLowerCase_of_ascii env.toLanguage (by decide)]
    decide
  · rw [readPreferenceTagsOption, hname, toLowerCase_of_ascii env.toLanguage (by decide)]
    decide

end

/-- In every accepted run, the read preference has the mode, all the tag sets and the staleness that are given, and
keeps to the rule of the constructor, exactly where the options are kept: the value of `readPreference` or its default
has a mode, tags are not given to mode `primary`, `maxStalenessSeconds` is given together with a text, a record without
a staleness or a value that has the same, and the tags do not stand under several spellings of their name. -/
theorem readPreference_resolves_iff (cls : PreferenceClass ω) (env : Environment ω σ) {uri : String}
    {url : ConnectionString env.toLanguage} (hurl : env.connectionString uri = .ok url)
    (hspelled : url.searchParams.Spelled) {mongoClient : ClientArgument ω} {options : List (String × Value ω)}
    {world : σ} {s : Settings ω σ}
    (h : parseOptions (withReadPreferences cls env) uri mongoClient options world = .ok s) {value : Value ω}
    (hvalue : firstValue (withReadPreferences cls env) url (mongoClient.optionsOr options) "readPreference"
      readPreferenceOption.2 = some value) (hforeign : isForeign value = false) :
    Resolves env.toLanguage cls value
        (firstValue (withReadPreferences cls env) url (mongoClient.optionsOr options) "maxStalenessSeconds"
          maxStalenessSecondsOption.2)
        (givenValues env.toLanguage url (mongoClient.optionsOr options) "readPreferenceTags")
        (s.options.get "readPreference") ↔
      Kept env.toLanguage cls value
        (firstValue (withReadPreferences cls env) url (mongoClient.optionsOr options) "maxStalenessSeconds"
          maxStalenessSecondsOption.2)
        (givenValues env.toLanguage url (mongoClient.optionsOr options) "readPreferenceTags")
        (readValues env.toLanguage url (mongoClient.optionsOr options) "readPreferenceTags")
        (lostValues env.toLanguage url (mongoClient.optionsOr options) "readPreferenceTags") := by
  have hurl' : (withReadPreferences cls env).connectionString uri = .ok url := hurl
  obtain ⟨sources, s₀, s₁, hlooped, hfinish⟩ := parseOptions_ok hurl' h
  have hfinal : s.options.get "readPreference" = s₁.options.get "readPreference" := by
    have htls : "readPreference" ≠ "tls" := by decide
    have hdbName : "readPreference" ≠ "dbName" := by decide
    rw [get_finish hfinish (by decide), if_neg fun hcond => htls hcond.1, if_neg fun hcond => hdbName hcond.1]
  have hpreference := hlooped.head?_readPreference
  rw [hvalue] at hpreference
  obtain ⟨r₁, r₂, h₁, h₂, h₃⟩ := loop_readPreference hlooped.loop (hlooped.initial _)
  rw [List.headD_eq_head?_getD, hpreference] at h₂
  rw [hlooped.valuesOf_readPreferenceTags hspelled] at h₃
  rw [hfinal, ← hlooped.head?_maxStalenessSeconds]
  have hgiven : valuesOf (withReadPreferences cls env) (sources.allOptions (withReadPreferences cls env))
      "readPreference" ≠ [] := by
    intro hnil
    rw [hnil] at hpreference
    cases hpreference
  refine resolves_iff hforeign length_givenValues givenValues_of_none_lost ?_ (h₂ hgiven hforeign) h₃
  obtain ⟨hnil, hr⟩ | ⟨hne, htransform⟩ := h₁
  · exact .inl ⟨List.head?_eq_none_iff.2 hnil, hr⟩
  · obtain ⟨seconds, rest, hcons⟩ := List.exists_cons_of_ne_nil hne
    rw [hcons] at htransform ⊢
    exact .inr ⟨seconds, rfl, htransform⟩

end

/-! ## A run -/

/-- Objects known by a name, and instances of the class. -/
inductive SampleObject
  | named (name : String)
  | preference (mode : String) (tags hedge maxStalenessSeconds minWireVersion : Value SampleObject)

def sampleClass : PreferenceClass SampleObject where
  build p := .preference p.mode p.tags p.hedge p.maxStalenessSeconds p.minWireVersion
  fields
    | .named _ => none
    | .preference mode tags hedge maxStalenessSeconds minWireVersion =>
      some { mode, tags, hedge, maxStalenessSeconds, minWireVersion }
  notPositive
    | .number (.finite q) => q ≤ 0
    | _ => false
  fields_build _ := rfl

/-- A runtime, for addresses without a port and texts in ASCII. -/
def sampleLanguage : Language SampleObject where
  url text := some (String.ofList (text.toList.drop 10), none)
  decodeURIComponent := some
  toLowerCase text := text
  fractionText _ := ""
  objectText _ := .ok "[object Object]"
  otherText _ := .ok "[object Object]"
  otherTruthy _ := true
  isFunction _ := false

/-- Parameters with the `getAll` that tells spellings apart. -/
def SearchParams.ofEntries {ω : Type} (js : Language ω) (entries : List (String × String)) : SearchParams js where
  entries
  getAll key := (entries.filter (·.1 = key)).map Prod.snd
  first key k value h := by
    rw [List.head?_map, List.head?_filter]
    have hname := List.find?_some h
    rw [decide_eq_true_eq] at hname
    have hfirst : entries.find? (fun e => decide (e.1 = k)) = some (k, value) := by
      obtain ⟨hk, before, after, rfl, hbefore⟩ := List.find?_eq_some_iff_append.1 h
      have hnone : before.find? (fun e => decide (e.1 = k)) = none := by
        rw [List.find?_eq_none]
        intro e he heq
        have hnot := hbefore e he
        rw [of_decide_eq_true heq, hname] at hnot
        simp at hnot
      simp [hnone]
    rw [hfirst]
    rfl

/-- `mongodb://localhost` with parameters. -/
def sampleUrlWith (entries : List (String × String)) : ConnectionString sampleLanguage where
  isSRV := false
  hosts := ["localhost"]
  pathname := ""
  username := ""
  password := none
  searchParams := .ofEntries sampleLanguage entries

def sampleUrl : ConnectionString sampleLanguage := sampleUrlWith []

/-- Two tag sets under one spelling. -/
def taggedUri : String :=
  "mongodb://localhost/?readPreference=secondary&readPreferenceTags=dc:ny&readPreferenceTags=dc:la"

def taggedUrl : ConnectionString sampleLanguage :=
  sampleUrlWith [("readPreference", "secondary"), ("readPreferenceTags", "dc:ny"), ("readPreferenceTags", "dc:la")]

/-- Patterns are words of letters, digits, spaces and hyphens. -/
def sampleEnvironment : Environment SampleObject Unit where
  toLanguage := sampleLanguage
  connectionString uri := .ok (if uri = taggedUri then taggedUrl else sampleUrl)
  readFileSync _ := .error { cls := .error, message := "ENOENT: no such file or directory" }
  processEnv _ := none
  noop := .named "() => undefined"
  wholeWord value :=
    if value.toList.all fun c => c.isAlphanum || c == '-' || c == ' ' then .ok (matchesWord value)
    else .error { cls := .error, message := "Invalid regular expression" }
  instanceOf key :=
    if key = "readPreference" then .preference "primary" .undefined .undefined .undefined .undefined else .named key
  transform _ name _ _ world :=
    .ok (if name = "compressors" then .array [.text "none"] else .other (.named name), world)
  encrypter _ _ := .error { cls := .mongoInvalidArgumentError, message := "" }

/-- Options that the parser accepts: a staleness, which is not in the preference that comes out, a part of the name of
a mechanism, which is selected, and two options of TLS that exclude each other. -/
def acceptedOptions : { options : List (String × Value SampleObject) //
    ((parseOptions (withReadPreferences sampleClass sampleEnvironment) "mongodb://localhost" .absent options
      ()).toOption.any fun s =>
        (field sampleClass (s.options.get "readPreference") "maxStalenessSeconds").isNullish &&
          ((s.options.get "credentials").member "mechanism").isText "SCRAM-SHA-1") = true } :=
  ⟨[("maxStalenessSeconds", .number (.finite 120)), ("tlsInsecure", .boolean true),
    ("tlsAllowInvalidCertificates", .boolean true),
    ("auth", .object [("username", .text "user"), ("password", .text "pencil")]), ("authMechanism", .text "SCRAM")],
   by decide +kernel⟩

def sampleOptions : List (String × Value SampleObject) := acceptedOptions.1

/-- The parser accepts the options, with the default preference and a mechanism. -/
theorem sampleOptions_run : ∃ s, parseOptions (withReadPreferences sampleClass sampleEnvironment)
    "mongodb://localhost" .absent sampleOptions () = .ok s ∧
      (field sampleClass (s.options.get "readPreference") "maxStalenessSeconds").isNullish = true ∧
      ((s.options.get "credentials").member "mechanism").isText "SCRAM-SHA-1" = true := by
  have haccepted := acceptedOptions.2
  rw [sampleOptions]
  generalize parseOptions (withReadPreferences sampleClass sampleEnvironment) "mongodb://localhost" .absent
    acceptedOptions.1 () = run at haccepted ⊢
  cases run with
  | error error => cases haccepted
  | ok s => exact ⟨s, rfl, (Bool.and_eq_true _ _).mp haccepted⟩

/-- The value of `readPreference` is the default, and the staleness that is given is there. -/
theorem sampleOptions_values : ∃ value,
    firstValue (withReadPreferences sampleClass sampleEnvironment) sampleUrl sampleOptions "readPreference"
      readPreferenceOption.2 = some value ∧ isForeign value = false ∧
    ∃ seconds, givenStaleness sampleLanguage sampleClass value
      (firstValue (withReadPreferences sampleClass sampleEnvironment) sampleUrl sampleOptions "maxStalenessSeconds"
        maxStalenessSecondsOption.2) = .ok seconds ∧ seconds.isNullish = false := by
  have htest : ((firstValue (withReadPreferences sampleClass sampleEnvironment) sampleUrl sampleOptions
      "readPreference" readPreferenceOption.2).any fun value => !isForeign value &&
        (givenStaleness sampleLanguage sampleClass value
          (firstValue (withReadPreferences sampleClass sampleEnvironment) sampleUrl sampleOptions
            "maxStalenessSeconds" maxStalenessSecondsOption.2)).toOption.any fun seconds => !seconds.isNullish) =
      true := by
    decide
  rw [Option.any_eq_true] at htest
  obtain ⟨value, hvalue, htest⟩ := htest
  rw [Bool.and_eq_true, Bool.not_eq_true', Option.any_eq_true] at htest
  obtain ⟨hforeign, seconds, hseconds, hnullish⟩ := htest
  refine ⟨value, hvalue, hforeign, seconds, ?_, by simpa using hnullish⟩
  cases hgiven : givenStaleness sampleLanguage sampleClass value
      (firstValue (withReadPreferences sampleClass sampleEnvironment) sampleUrl sampleOptions "maxStalenessSeconds"
        maxStalenessSecondsOption.2) with
  | error error =>
    rw [hgiven] at hseconds
    cases hseconds
  | ok seconds' =>
    rw [hgiven] at hseconds
    cases hseconds
    rfl

/-- An accepted staleness that is given alone is lost. -/
theorem staleness_alone_lost : ∃ s value, parseOptions (withReadPreferences sampleClass sampleEnvironment)
    "mongodb://localhost" .absent sampleOptions () = .ok s ∧
    firstValue (withReadPreferences sampleClass sampleEnvironment) sampleUrl sampleOptions "readPreference"
      readPreferenceOption.2 = some value ∧ isForeign value = false ∧
    ¬ Resolves sampleLanguage sampleClass value
      (firstValue (withReadPreferences sampleClass sampleEnvironment) sampleUrl sampleOptions "maxStalenessSeconds"
        maxStalenessSecondsOption.2)
      (givenValues sampleLanguage sampleUrl sampleOptions "readPreferenceTags") (s.options.get "readPreference") := by
  obtain ⟨s, hrun, hlost, -⟩ := sampleOptions_run
  obtain ⟨value, hvalue, hforeign, seconds, hgiven, hseconds⟩ := sampleOptions_values
  refine ⟨s, value, hrun, hvalue, hforeign, ?_⟩
  intro hresolves
  have heq : seconds = field sampleClass (s.options.get "readPreference") "maxStalenessSeconds" :=
    Except.ok.inj (hgiven.symm.trans hresolves.givenStaleness_eq)
  rw [heq, hlost] at hseconds
  cases hseconds

/-! ## Tags in the connection string -/

theorem Value.eq_of_isText {ω : Type} {value : Value ω} {text : String} (h : value.isText text = true) :
    value = .text text := by
  cases value with
  | text s => exact congrArg Value.text (of_decide_eq_true h)
  | _ => cases h

/-- The connection string is accepted, and gives a mode and no staleness. -/
theorem taggedUri_run :
    (∃ s, parseOptions (withReadPreferences sampleClass sampleEnvironment) taggedUri .absent [] () = .ok s) ∧
      firstValue (withReadPreferences sampleClass sampleEnvironment) taggedUrl [] "readPreference"
        readPreferenceOption.2 = some (.text "secondary") ∧
      firstValue (withReadPreferences sampleClass sampleEnvironment) taggedUrl [] "maxStalenessSeconds"
        maxStalenessSecondsOption.2 = none := by
  have htest : ((parseOptions (withReadPreferences sampleClass sampleEnvironment) taggedUri .absent []
        ()).toOption.isSome &&
      (firstValue (withReadPreferences sampleClass sampleEnvironment) taggedUrl [] "readPreference"
        readPreferenceOption.2).any (·.isText "secondary") &&
      (firstValue (withReadPreferences sampleClass sampleEnvironment) taggedUrl [] "maxStalenessSeconds"
        maxStalenessSecondsOption.2).isNone) = true := by
    decide +kernel
  rw [Bool.and_eq_true, Bool.and_eq_true, Option.isNone_iff_eq_none] at htest
  obtain ⟨⟨hrun, hvalue⟩, hstaleness⟩ := htest
  refine ⟨?_, ?_, hstaleness⟩
  · cases hparse : parseOptions (withReadPreferences sampleClass sampleEnvironment) taggedUri .absent [] () with
    | ok s => exact ⟨s, rfl⟩
    | error error =>
      rw [hparse] at hrun
      cases hrun
  · obtain ⟨value, hvalue, htext⟩ := (Option.any_eq_true _ _).1 hvalue
    rw [hvalue, Value.eq_of_isText htext]

/-- Both tag sets come out. -/
theorem readPreference_resolves_iff_tagged : ∃ s,
    parseOptions (withReadPreferences sampleClass sampleEnvironment) taggedUri .absent [] () = .ok s ∧
      Resolves sampleLanguage sampleClass (.text "secondary") none
        (givenValues sampleLanguage taggedUrl [] "readPreferenceTags") (s.options.get "readPreference") := by
  obtain ⟨⟨s, hrun⟩, hvalue, hstaleness⟩ := taggedUri_run
  have htagged : sampleEnvironment.connectionString taggedUri = .ok taggedUrl := congrArg Except.ok (if_pos rfl)
  have hspelled : taggedUrl.searchParams.Spelled := fun key k value _ => rfl
  have hiff := readPreference_resolves_iff sampleClass sampleEnvironment htagged hspelled hrun hvalue rfl
  have hoptions : (ClientArgument.absent : ClientArgument SampleObject).optionsOr [] = [] := rfl
  rw [hoptions, hstaleness] at hiff
  refine ⟨s, hrun, hiff.2 ⟨Option.some_ne_none _, fun _ => ?_, ?_, .inl (List.isEmpty_iff.1 ?_)⟩⟩
  · simp [modeOf]
  · rintro seconds n ⟨⟩
  · decide +kernel

/-- The tag set under a second spelling is lost. -/
example : (lostValues sampleLanguage (sampleUrlWith [("readPreferenceTags", "dc:ny"), ("readpreferencetags", "dc:la")])
    [] "readPreferenceTags").length = 1 := by
  decide +kernel

end MongoDriver.Options
