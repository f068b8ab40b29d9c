/-
What `parseOptions` of `src/connection_string.ts` works on: the parsed connection string, the options that come out,
and what the code takes from elsewhere. The transforms that build the driver's concerns, read preferences, metadata
and so on are fields of `Environment`, with a state of their own to share instances through.
-/
import MongoDriver.Options.Values

namespace MongoDriver.Options

/-- The parameters of a connection string. `getAll` may take names that differ in case for one; in any case it gives
the first value of a name under the name's first spelling. -/
structure SearchParams {ω : Type} (js : Language ω) where
  entries : List (String × String)
  getAll : String → List String
  first : ∀ key k value, entries.find? (fun e => toLowerCase js e.1 = toLowerCase js key) = some (k, value) →
    (getAll k).head? = some value

/-- A parsed connection string. -/
structure ConnectionString {ω : Type} (js : Language ω) where
  isSRV : Bool
  hosts : List String
  pathname : String
  username : String
  password : Option String
  searchParams : SearchParams js

/-- The result of parsing: an object without a prototype. -/
structure MongoOptions (ω : Type) where
  hosts : List Sdam.HostAddress
  properties : OrderedMap String (Value ω)

namespace MongoOptions

variable {ω : Type}

/-- `options[name]`. -/
def get (options : MongoOptions ω) (name : String) : Value ω := (options.properties.get? name).getD .undefined

/-- `Reflect.has(options, name)`. -/
def has (options : MongoOptions ω) (name : String) : Bool := (options.properties.get? name).isSome

def set (options : MongoOptions ω) (name : String) (value : Value ω) : MongoOptions ω :=
  { options with properties := options.properties.set name value }

def delete (options : MongoOptions ω) (name : String) : MongoOptions ω :=
  { options with properties := options.properties.erase name }

@[simp] theorem get_set_self (options : MongoOptions ω) (name : String) (value : Value ω) :
    (options.set name value).get name = value := by
  simp [get, set]

theorem get_set_ne (options : MongoOptions ω) {name t : String} (value : Value ω) (h : t ≠ name) :
    (options.set name value).get t = options.get t := by
  simp [get, set, OrderedMap.get?_set_ne _ _ h]

theorem properties_set_ne (options : MongoOptions ω) {name t : String} (value : Value ω) (h : t ≠ name) :
    (options.set name value).properties.get? t = options.properties.get? t :=
  OrderedMap.get?_set_ne _ _ h

theorem properties_delete_ne (options : MongoOptions ω) {name t : String} (h : t ≠ name) :
    (options.delete name).properties.get? t = options.properties.get? t := by
  simp [delete, OrderedMap.get?_erase, h]

section

variable {options options' : MongoOptions ω} {t : String}

theorem get_congr (h : options'.properties.get? t = options.properties.get? t) : options'.get t = options.get t := by
  rw [get, get, h]

theorem has_congr (h : options'.properties.get? t = options.properties.get? t) : options'.has t = options.has t := by
  rw [has, has, h]

end

end MongoOptions

/-- The options so far, and the state the transforms share. -/
structure Settings (ω σ : Type) where
  options : MongoOptions ω
  world : σ

/-- What is outside this code. -/
structure Environment (ω σ : Type) extends Language ω where
  /-- `new ConnectionString(uri)` -/
  connectionString : String → Except AnyError (ConnectionString toLanguage)
  /-- `fs.readFileSync(path, { encoding: 'ascii' })` -/
  readFileSync : String → Except AnyError String
  /-- `process.env` -/
  processEnv : String → Option String
  /-- `() => undefined` -/
  noop : ω
  /-- `RegExp(String.raw`\b${value}\b`, 'i')`, and what it matches -/
  wholeWord : String → Except AnyError (String → Bool)
  /-- the default of an option that is an instance of a class -/
  instanceOf : String → ω
  /-- the transform of an option that builds such an instance, called with the name, the options so far and the
  possible values in precedence order -/
  transform : String → String → MongoOptions ω → List (Value ω) → σ → Except AnyError (Value ω × σ)
  /-- `new Encrypter(mongoClient, uri, options)`, where `mongodb-client-encryption` is installed, and its
  `autoEncrypter` -/
  encrypter : String → List (String × Value ω) → Except AnyError (Value ω × Value ω)

end MongoDriver.Options
