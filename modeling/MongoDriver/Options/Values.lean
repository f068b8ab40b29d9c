/-
Values of options and their conversions (`getBoolean`, `getInt`, `getUint`, `toArray` and `CaseInsensitiveMap` of
`src/connection_string.ts`, `isRecord` of `src/utils.ts`). What JavaScript's own conversions make of a number with a
fraction and of an object is the language's, and enters as `Language`.
-/
import MongoDriver.Base.Number
import MongoDriver.Base.OrderedMap
import MongoDriver.Base.Run
import MongoDriver.Sdam.ServerDescription
import Mathlib.Algebra.Order.Field.Rat

namespace MongoDriver.Options

/-! ## Values -/

/-- A number. Both zeros are `finite 0`. -/
inductive Double
  | nan
  | infinity (negative : Bool)
  | finite (q : Rat)
deriving DecidableEq

namespace Double

def ofNumber : Js.Number → Double
  | .nan => nan
  | .infinity negative => infinity negative
  | .int n => finite n

/-- `Math.trunc(x)`. -/
def trunc : Double → Js.Number
  | nan => .nan
  | infinity negative => .infinity negative
  | finite q => .int (q.num.tdiv q.den)

def truthy : Double → Bool
  | nan => false
  | infinity _ => true
  | finite q => q ≠ 0

end Double

/-- A value of an option; `ω` are the objects and functions of which only the runtime knows more. -/
inductive Value (ω : Type)
  | undefined
  | null
  | boolean (b : Bool)
  | number (x : Double)
  | text (s : String)
  | array (values : List (Value ω))
  /-- an object that `isRecord` accepts: its own enumerable properties -/
  | object (properties : List (String × Value ω))
  /-- an instance of `MongoCredentials` -/
  | credentials (username password source mechanism mechanismProperties : Value ω)
  | other (o : ω)

/-- What the code asks of the language about values: the conversions of a number with a fraction and of an object to
a text, the condition on an object, and whether it is a function. -/
structure Language (ω : Type) extends Sdam.Runtime where
  fractionText : Rat → String
  objectText : List (String × Value ω) → Except AnyError String
  otherText : ω → Except AnyError String
  otherTruthy : ω → Bool
  isFunction : ω → Bool

namespace Value

variable {ω : Type}

/-- `value == null`. -/
def isNullish : Value ω → Bool
  | undefined | null => true
  | _ => false

/-- `value === text`. -/
def isText (expected : String) : Value ω → Bool
  | text s => s = expected
  | _ => false

def truthy (js : Language ω) : Value ω → Bool
  | undefined | null => false
  | boolean b => b
  | number x => x.truthy
  | text s => s ≠ ""
  | array _ | object _ | credentials .. => true
  | other o => js.otherTruthy o

/-- `value[key]`, of an own property of a record or of credentials. -/
def member (value : Value ω) (key : String) : Value ω :=
  match value with
  | object properties => (properties.lookup key).getD undefined
  | credentials username password source mechanism mechanismProperties =>
    if key = "username" then username
    else if key = "password" then password
    else if key = "source" then source
    else if key = "mechanism" then mechanism
    else if key = "mechanismProperties" then mechanismProperties
    else undefined
  | _ => undefined

/-- `a ?? b`. -/
def orElse (a b : Value ω) : Value ω := if a.isNullish then b else a

def numberText (js : Language ω) : Double → String
  | .nan => "NaN"
  | .infinity negative => if negative then "-Infinity" else "Infinity"
  | .finite q => if q.den = 1 then String.ofList (Js.Number.int q.num).text else js.fractionText q

mutual

/-- `String(value)`. -/
def toText (js : Language ω) : Value ω → Except AnyError String
  | undefined => .ok "undefined"
  | null => .ok "null"
  | boolean b => .ok (if b then "true" else "false")
  | number x => .ok (numberText js x)
  | text s => .ok s
  | array values => joinText js values
  | object properties => js.objectText properties
  | credentials .. => .ok "[object Object]"
  | other o => js.otherText o

/-- `values.join(',')`. -/
def joinText (js : Language ω) : List (Value ω) → Except AnyError String
  | [] => .ok ""
  | [value] => elementText js value
  | value :: next :: rest => do
    let head ← elementText js value
    let tail ← joinText js (next :: rest)
    return head ++ "," ++ tail

/-- An element of an array in its text. -/
def elementText (js : Language ω) : Value ω → Except AnyError String
  | undefined => .ok ""
  | null => .ok ""
  | boolean b => .ok (if b then "true" else "false")
  | number x => .ok (numberText js x)
  | text s => .ok s
  | array values => joinText js values
  | object properties => js.objectText properties
  | credentials .. => .ok "[object Object]"
  | other o => js.otherText o

end

end Value

/-! ## Names -/

/-- `text.toLowerCase()`. -/
def toLowerCase {ω : Type} (js : Language ω) (text : String) : String :=
  if text.toList.all (·.toNat < 128) then String.ofList (text.toList.map Char.toLower) else js.toLowerCase text

/-- A map whose keys are looked up without regard to case; putting a name in lower case twice is putting it so
once. -/
abbrev CaseInsensitiveMap := OrderedMap String

/-- `map.get(k)`. -/
def CaseInsensitiveMap.lookup {ω α : Type} (js : Language ω) (map : CaseInsensitiveMap α) (k : String) : Option α :=
  map.get? (toLowerCase js k)

def CaseInsensitiveMap.has {ω α : Type} (js : Language ω) (map : CaseInsensitiveMap α) (k : String) : Bool :=
  (map.lookup js k).isSome

/-- `map.set(k, v)`. -/
def CaseInsensitiveMap.put {ω α : Type} (js : Language ω) (map : CaseInsensitiveMap α) (k : String) (v : α) :
    CaseInsensitiveMap α :=
  map.set (toLowerCase js k) v

/-- `new CaseInsensitiveMap(entries)`. -/
def CaseInsensitiveMap.new {ω α : Type} (js : Language ω) (entries : List (String × α)) : CaseInsensitiveMap α :=
  entries.foldl (fun map (e : String × α) => map.put js e.1 e.2) .empty

/-! ## Conversions -/

section

variable {ω : Type} (js : Language ω)

def parseError (message : String) : AnyError := { cls := .mongoParseError, message }

def truths : List String := ["true", "t", "1", "y", "yes"]

def falsehoods : List String := ["false", "f", "0", "n", "no", "-1"]

def getBoolean (name : String) (value : Value ω) : Except AnyError Bool :=
  match value with
  | .boolean b => .ok b
  | _ => do
    let text ← value.toText js
    if toLowerCase js text ∈ truths then
      return true
    else if toLowerCase js text ∈ falsehoods then
      return false
    else
      throw (parseError ("Expected " ++ name ++ " to be stringified boolean value, got: " ++ text))

def getInt (name : String) (value : Value ω) : Except AnyError Js.Number :=
  match value with
  | .number x => .ok x.trunc
  | _ => do
    let text ← value.toText js
    if Js.parseInt text.toList ≠ .nan then
      return Js.parseInt text.toList
    else
      throw (parseError ("Expected " ++ name ++ " to be stringified int value, got: " ++ text))

def getUint (name : String) (value : Value ω) : Except AnyError Js.Number := do
  let parsedValue ← getInt js name value
  if parsedValue.lt 0 then do
    throw (parseError (name ++ " can only be a positive int value, got: " ++ (← value.toText js)))
  else
    return parsedValue

/-- Wrap a single value in an array if the value is not an array -/
def toArray (value : Value ω) : List (Value ω) :=
  match value with
  | .array values => values
  | _ => [value]

def isRecord (value : Value ω) (requiredKeys : List String) : Bool :=
  match value with
  | .object properties => requiredKeys.all fun key => properties.any (·.1 = key)
  | _ => false

end

end MongoDriver.Options
