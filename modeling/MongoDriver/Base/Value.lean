/-
JavaScript's values as far as code tells them apart that reads properties of plain objects: conditions, comparison
with a number, property access and `Object.keys`.
-/

namespace Js

/-- A value. Both zeros are `number 0`, and a text is its code units. -/
inductive Value
  | undefined
  | null
  | boolean (b : Bool)
  | nan
  | infinity (negative : Bool)
  | number (q : Rat)
  | bigint (n : Int)
  | symbol
  | text (units : List UInt16)
  /-- the own enumerable properties, in the order in which `Object.keys` gives them -/
  | object (properties : List (String × Value))

/-- A plain object: its own enumerable properties. -/
abbrev Document := List (String × Value)

namespace Value

/-- The value in a condition. -/
def truthy : Value → Bool
  | undefined | null | nan => false
  | boolean b => b
  | infinity _ | symbol | object _ => true
  | number q => q ≠ 0
  | bigint n => n ≠ 0
  | text units => units ≠ []

/-- `value === n` for an integer literal `n`. -/
def isNumber (n : Int) : Value → Bool
  | number q => q = n
  | _ => false

/-- The number, when it is one without a fraction. -/
def integer : Value → Option Int
  | number q => if q.den = 1 then some q.num else none
  | _ => none

/-- Property access and `Object.keys` throw for a value without properties. -/
def hasProperties : Value → Bool
  | undefined | null => false
  | _ => true

/-- `Object.keys(value)`. -/
def keys : Value → Except String (List String)
  | undefined | null => .error "TypeError"
  | object properties => .ok (properties.map (·.1))
  | text units => .ok ((List.range units.length).map toString)
  | _ => .ok []

/-- `value[key]`, of an own enumerable property. -/
def member (value : Value) (key : String) : Except String Value :=
  match value with
  | undefined | null => .error "TypeError"
  | object properties => .ok ((properties.lookup key).getD undefined)
  | text units =>
    .ok (((List.range units.length).find? (toString · = key)).elim undefined fun i => text (units.drop i |>.take 1))
  | _ => .ok undefined

theorem isNumber_iff {n : Int} {value : Value} : value.isNumber n = true ↔ value.integer = some n := by
  cases value with
  | number q =>
    simp only [isNumber, integer, decide_eq_true_eq]
    constructor
    · rintro rfl
      rfl
    · intro h
      split at h
      · rename_i hden
        exact Rat.ext (Option.some.inj h) (by rw [hden, Rat.den_intCast])
      · cases h
  | _ => simp [isNumber, integer]

theorem hasProperties_iff {value : Value} : value.hasProperties = true ↔ value ≠ .undefined ∧ value ≠ .null := by
  cases value <;> simp [hasProperties]

theorem keys_ok {value : Value} (h : value.hasProperties = true) : ∃ keys, value.keys = .ok keys := by
  cases value with
  | undefined => cases h
  | null => cases h
  | _ => exact ⟨_, rfl⟩

theorem keys_error {value : Value} (h : value.hasProperties = false) : value.keys = .error "TypeError" := by
  cases value with
  | undefined => rfl
  | null => rfl
  | _ => cases h

theorem member_ok {value : Value} (h : value.hasProperties = true) (key : String) :
    ∃ v, value.member key = .ok v := by
  cases value with
  | undefined => cases h
  | null => cases h
  | _ => exact ⟨_, rfl⟩

end Value

namespace Document

/-- `document[key]`. -/
def get (document : Document) (key : String) : Value := (document.lookup key).getD .undefined

/-- `key in document`. -/
def has (document : Document) (key : String) : Bool := (document.lookup key).isSome

/-- The object with the given properties. -/
def ofFields (fields : List String) (value : String → Value) : Document := fields.map fun key => (key, value key)

theorem lookup_ofFields (fields : List String) (value : String → Value) (key : String) :
    (ofFields fields value).lookup key = if key ∈ fields then some (value key) else none := by
  induction fields with
  | nil => rfl
  | cons field fields ih =>
    have hcons : ofFields (field :: fields) value = (field, value field) :: ofFields fields value := rfl
    rw [hcons, List.lookup_cons]
    by_cases h : key = field
    · simp [h]
    · have hne : (key == field) = false := by simpa using h
      simp [hne, h, ih]

theorem has_ofFields {fields : List String} {value : String → Value} {key : String} :
    (ofFields fields value).has key = decide (key ∈ fields) := by
  unfold has
  rw [lookup_ofFields]
  split
  · rename_i h; simp [h]
  · rename_i h; simp [h]

theorem get_ofFields {fields : List String} {value : String → Value} {key : String} (h : key ∈ fields) :
    (ofFields fields value).get key = value key := by
  unfold get
  rw [lookup_ofFields, if_pos h, Option.getD_some]

theorem get_ofFields_undefined {fields : List String} {value : String → Value} {key : String} (h : key ∉ fields) :
    (ofFields fields value).get key = .undefined := by
  unfold get
  rw [lookup_ofFields, if_neg h, Option.getD_none]

end Document

end Js
