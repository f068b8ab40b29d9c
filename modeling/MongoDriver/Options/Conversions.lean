/-
What the types of the table accept (`getBoolean`, `getInt`, `getUint` and `setOption` of `src/connection_string.ts`):
every default passes the check of its own type, nothing and an array without elements pass only where a text or
anything will do, and the text of an array begins with that of its first element.
-/
import MongoDriver.Options.Sources

namespace MongoDriver.Options

/-! ## Defaults -/

/-- The default is of the type. -/
def Fallback.fits : Fallback → OptionType → Bool
  | .boolean _, .boolean => true
  | .number _, .int | .number _, .uint => true
  | .text s, .string => s ≠ ""
  | _, _ => false

theorem defaults_fit : ∀ e ∈ OPTIONS, (e.2.type.all fun type => e.2.default.all (·.fits type)) = true := by
  decide

section

variable {ω σ : Type} {env : Environment ω σ} {name : String} {type : OptionType}

/-- A default passes its own check and stays as it is. -/
theorem convert_fallback {fallback : Fallback} (h : fallback.fits type = true) (key : String) :
    convert env name type (fallback.value env key) = .ok (fallback.value env key) := by
  have htrunc : ∀ n : Nat, (Double.finite n).trunc = .int n := by
    intro n
    rw [Double.trunc, Rat.num_natCast, Rat.den_natCast]
    exact congrArg Js.Number.int (Int.tdiv_one _)
  cases fallback with
  | boolean b =>
    cases type with
    | boolean => rfl
    | _ => cases h
  | number n =>
    cases type with
    | int =>
      simp only [convert, getInt, Fallback.value, htrunc]
      rfl
    | uint =>
      have hpositive : ¬ (Js.Number.int n).lt 0 = true := by simp [Js.Number.lt]
      simp only [convert, getUint, getInt, Fallback.value, htrunc, bind, Except.bind]
      rw [if_neg hpositive]
      rfl
    | _ => cases h
  | text s =>
    cases type with
    | string => rfl
    | _ => cases h
  | object => cases h

/-! ## Refused values -/

/-- A value whose text is in neither list is no boolean. -/
theorem getBoolean_ne_ok {text : String} {value : Value ω} (hvalue : ∀ b, value ≠ .boolean b)
    (htext : value.toText env.toLanguage = .ok text)
    (hlower : toLowerCase env.toLanguage text ∉ truths ++ falsehoods) (b : Bool) :
    getBoolean env.toLanguage name value ≠ .ok b := by
  rw [List.mem_append, not_or] at hlower
  have hunfold : getBoolean env.toLanguage name value = (do
      let text ← value.toText env.toLanguage
      if toLowerCase env.toLanguage text ∈ truths then
        return true
      else if toLowerCase env.toLanguage text ∈ falsehoods then
        return false
      else
        throw (parseError ("Expected " ++ name ++ " to be stringified boolean value, got: " ++ text))) := by
    cases value with
    | boolean c => exact absurd rfl (hvalue c)
    | _ => rfl
  intro h
  rw [hunfold, htext] at h
  obtain ⟨text', htext', h⟩ := Run.bind_ok.1 h
  cases htext'
  rw [if_neg hlower.1, if_neg hlower.2] at h
  cases h

/-- Nor is it a number if its text does not begin with one. -/
theorem getInt_ne_ok {text : String} {value : Value ω} (hvalue : ∀ x, value ≠ .number x)
    (htext : value.toText env.toLanguage = .ok text) (hnan : Js.parseInt text.toList = .nan) (n : Js.Number) :
    getInt env.toLanguage name value ≠ .ok n := by
  have hunfold : getInt env.toLanguage name value = (do
      let text ← value.toText env.toLanguage
      if Js.parseInt text.toList ≠ .nan then
        return Js.parseInt text.toList
      else
        throw (parseError ("Expected " ++ name ++ " to be stringified int value, got: " ++ text))) := by
    cases value with
    | number x => exact absurd rfl (hvalue x)
    | _ => rfl
  intro h
  rw [hunfold, htext] at h
  obtain ⟨text', htext', h⟩ := Run.bind_ok.1 h
  cases htext'
  rw [if_neg (not_not_intro hnan)] at h
  cases h

/-- A value with a text that is neither a boolean nor a number is refused by all types but two. -/
theorem convert_ne_ok {text : String} {value : Value ω} (hboolean : ∀ b, value ≠ .boolean b)
    (hnumber : ∀ x, value ≠ .number x) (hrecord : isRecord value [] = false)
    (htext : value.toText env.toLanguage = .ok text)
    (hlower : toLowerCase env.toLanguage text ∉ truths ++ falsehoods) (hnan : Js.parseInt text.toList = .nan)
    (hstring : type ≠ .string) (hany : type ≠ .any) (result : Value ω) : convert env name type value ≠ .ok result := by
  intro h
  cases type with
  | boolean =>
    obtain ⟨b, hb, -⟩ := Run.bind_ok.1 h
    exact getBoolean_ne_ok hboolean htext hlower b hb
  | int =>
    obtain ⟨n, hn, -⟩ := Run.bind_ok.1 h
    exact getInt_ne_ok hnumber htext hnan n hn
  | uint =>
    obtain ⟨n, hn, -⟩ := Run.bind_ok.1 h
    obtain ⟨m, hm, -⟩ := Run.bind_ok.1 hn
    exact getInt_ne_ok hnumber htext hnan m hm
  | record =>
    simp only [convert, hrecord, Bool.false_eq_true, if_false] at h
    cases h
  | string => exact hstring rfl
  | any => exact hany rfl

/-- Nothing and an array without elements are refused by all types but two. -/
theorem convert_nullish_ne_ok {value : Value ω} (hnull : value.isNullish = true) (hstring : type ≠ .string)
    (hany : type ≠ .any) (result : Value ω) : convert env name type value ≠ .ok result := by
  cases value with
  | undefined =>
    apply convert_ne_ok (fun b hb => (by cases hb)) (fun x hx => (by cases hx)) rfl rfl _ (by decide) hstring hany
    rw [toLowerCase_of_ascii _ (by decide)]
    decide
  | null =>
    apply convert_ne_ok (fun b hb => (by cases hb)) (fun x hx => (by cases hx)) rfl rfl _ (by decide) hstring hany
    rw [toLowerCase_of_ascii _ (by decide)]
    decide
  | _ => cases hnull

theorem convert_empty_ne_ok (hstring : type ≠ .string) (hany : type ≠ .any) (result : Value ω) :
    convert env name type (.array []) ≠ .ok result := by
  have htext : (Value.array [] : Value ω).toText env.toLanguage = .ok "" := by rw [Value.toText, Value.joinText]
  apply convert_ne_ok (fun b hb => (by cases hb)) (fun x hx => (by cases hx)) rfl htext _ (by decide) hstring hany
  rw [toLowerCase_of_ascii _ (by decide)]
  decide

/-! ## Texts of arrays -/

theorem elementText_eq {js : Language ω} {value : Value ω} (h : ¬ value.isNullish = true) :
    Value.elementText js value = value.toText js := by
  cases value with
  | undefined => exact absurd rfl h
  | null => exact absurd rfl h
  | array values => rw [Value.elementText, Value.toText]
  | _ => rfl

theorem elementText_nullish {js : Language ω} {value : Value ω} (h : value.isNullish = true) :
    Value.elementText js value = .ok "" := by
  cases value with
  | undefined => rfl
  | null => rfl
  | _ => cases h

/-- The text of an array whose first element has no text is empty or begins with a comma. -/
theorem toText_array_ne {js : Language ω} {first : Value ω} {rest : List (Value ω)} {text : String}
    (hfirst : Value.elementText js first = .ok "") (htext : text.toList.head? ≠ some ',' ∧ text ≠ "") :
    (Value.array (first :: rest)).toText js ≠ .ok text := by
  intro h
  rw [Value.toText] at h
  cases rest with
  | nil =>
    rw [Value.joinText, hfirst] at h
    exact htext.2 (Except.ok.inj h).symm
  | cons next rest =>
    rw [Value.joinText, hfirst] at h
    obtain ⟨head, hhead, h⟩ := Run.bind_ok.1 h
    obtain ⟨tail, -, h⟩ := Run.bind_ok.1 h
    cases hhead
    cases h
    apply htext.1
    rw [String.toList_append, String.toList_append]
    rfl

end

end MongoDriver.Options
