/-
JavaScript's data: the values that literals of numbers, texts, arrays, plain objects and maps denote, with their
conditions and their texts. Objects that say themselves what their text is are left out.
-/
import Mathlib.Algebra.Order.Field.Rat
import MongoDriver.Base.Number

namespace Js

/-- Both zeros are `number 0`. -/
inductive Data
  | undefined
  | null
  | boolean (b : Bool)
  | nan
  | infinity (negative : Bool)
  | number (q : Rat)
  | text (s : String)
  | array (values : List Data)
  /-- the own enumerable properties, in the order in which the language lists them -/
  | object (properties : List (String × Data))
  | map (entries : List (Data × Data))

namespace Data

/-- The value in a condition. -/
def truthy : Data → Bool
  | undefined | null | nan => false
  | boolean b => b
  | number q => q ≠ 0
  | text s => s ≠ ""
  | infinity _ | array _ | object _ | map _ => true

/-- The text of a number without a fraction, and of another as the language has it. -/
def numberText (fractionText : Rat → String) (q : Rat) : String :=
  if q.den = 1 then String.ofList (Number.int q.num).text else fractionText q

mutual

/-- `String(value)`. -/
def toText (fractionText : Rat → String) : Data → String
  | undefined => "undefined"
  | null => "null"
  | boolean b => if b then "true" else "false"
  | nan => "NaN"
  | infinity negative => if negative then "-Infinity" else "Infinity"
  | number q => numberText fractionText q
  | text s => s
  | array values => joinText fractionText values
  | object _ => "[object Object]"
  | map _ => "[object Map]"

/-- `values.join(',')`. -/
def joinText (fractionText : Rat → String) : List Data → String
  | [] => ""
  | [value] => elementText fractionText value
  | value :: next :: rest => elementText fractionText value ++ "," ++ joinText fractionText (next :: rest)

/-- An element of an array in its text. -/
def elementText (fractionText : Rat → String) : Data → String
  | undefined => ""
  | null => ""
  | boolean b => if b then "true" else "false"
  | nan => "NaN"
  | infinity negative => if negative then "-Infinity" else "Infinity"
  | number q => numberText fractionText q
  | text s => s
  | array values => joinText fractionText values
  | object _ => "[object Object]"
  | map _ => "[object Map]"

end

theorem toText_singleton (fractionText : Rat → String) (value : Data) :
    toText fractionText (array [value]) = elementText fractionText value := by
  rw [toText, joinText]

end Data

end Js
