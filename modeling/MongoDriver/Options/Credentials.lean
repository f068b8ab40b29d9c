/-
Credentials (`MongoCredentials` of `src/cmap/auth/mongo_credentials.ts`, `AuthMechanism` of
`src/cmap/auth/providers.ts`) and the transforms of the options that set them (`auth`, `authMechanism`,
`authMechanismProperties` and `authSource` of `src/connection_string.ts`). Warnings are left out.
-/
import MongoDriver.Options.Environment

namespace MongoDriver.Options

section

variable {ω σ : Type} (env : Environment ω σ)

/-! ## Mechanisms -/

/-- `Object.values(AuthMechanism)`. -/
def AuthMechanism.values : List String :=
  ["MONGODB-AWS", "MONGODB-CR", "DEFAULT", "GSSAPI", "PLAIN", "SCRAM-SHA-1", "SCRAM-SHA-256", "MONGODB-X509"]

/-- `\w`. -/
def isWordCharacter (c : Char) : Bool := c.isAlphanum || c == '_'

/-- `\b`, between the characters before it and after it. -/
def isBoundary (before after : Option Char) : Bool := before.any isWordCharacter != after.any isWordCharacter

/-- A word stands at the start of the text, with boundaries on both sides. -/
def standsAt (word : List Char) (before : Option Char) (text : List Char) : Bool :=
  isBoundary before text.head? && word.isPrefixOf text &&
    isBoundary (word.getLast?.or before) (text.drop word.length).head?

def standsIn (word : List Char) (before : Option Char) : List Char → Bool
  | [] => standsAt word before []
  | c :: text => standsAt word before (c :: text) || standsIn word (some c) text

/-- The letters of a text, whatever their case. -/
def foldCase (text : String) : List Char := text.toList.map Char.toLower

/-- What `RegExp(String.raw`\b${word}\b`, 'i')` matches, for a word whose characters stand for themselves. -/
def matchesWord (word name : String) : Bool := standsIn (foldCase word) none (foldCase name)

/-- `AUTH_MECHS_AUTH_SRC_EXTERNAL`. -/
def authMechsAuthSrcExternal : List String := ["GSSAPI", "MONGODB-AWS", "MONGODB-X509"]

/-- The value is one of the texts. -/
def Value.isOneOf (value : Value ω) (texts : List String) : Bool := texts.any (value.isText ·)

/-! ## `MongoCredentials` -/

/-- `Partial<MongoCredentialsOptions>`. -/
structure MongoCredentialsOptions (ω : Type) where
  username : Value ω := .undefined
  password : Value ω := .undefined
  source : Value ω := .undefined
  mechanism : Value ω := .undefined
  mechanismProperties : Value ω := .undefined

/-- `process.env[key]` where it is not empty. -/
def processEnv (key : String) : Option String := (env.processEnv key).filter (· ≠ "")

/-- `{ ...value, [key]: property }` -/
def Value.with (value : Value ω) (key : String) (property : Value ω) : Value ω :=
  match value with
  | .object properties =>
    .object (if properties.any (·.1 = key) then properties.map fun p => if p.1 = key then (key, property) else p
      else properties ++ [(key, property)])
  | _ => .object [(key, property)]

/-- The text of an AWS variable in the place of a value that is empty. -/
def orProcessEnv (value : Value ω) (key : String) : Value ω :=
  if value.truthy env.toLanguage then value else ((processEnv env key).map .text).getD value

/-- `new MongoCredentials(options)`; `frozen` are properties that were frozen with credentials made before. -/
def newMongoCredentials (options : MongoCredentialsOptions ω) (frozen : Bool) : Except AnyError (Value ω) := do
  let mechanism := if options.mechanism.truthy env.toLanguage then options.mechanism else .text "DEFAULT"
  let mechanismProperties :=
    if options.mechanismProperties.truthy env.toLanguage then options.mechanismProperties else .object []
  -- of the names of mechanisms one has `MONGODB-AWS` in it
  let aws := mechanism.isText "MONGODB-AWS"
  let username := if aws then orProcessEnv env options.username "AWS_ACCESS_KEY_ID" else options.username
  let password := if aws then orProcessEnv env options.password "AWS_SECRET_ACCESS_KEY" else options.password
  let token := (env.processEnv "AWS_SESSION_TOKEN").filter fun _ =>
    aws && (mechanismProperties.member "AWS_SESSION_TOKEN").isNullish
  let (mechanismProperties, frozen) :=
    match token with
    | some token => (mechanismProperties.with "AWS_SESSION_TOKEN" (.text token), false)
    | none => (mechanismProperties, frozen)
  if isRecord mechanismProperties ["gssapiCanonicalizeHostName"] then
    if frozen then
      throw { cls := .typeError, message := "Cannot assign to read only property 'CANONICALIZE_HOST_NAME' of object" }
    return .credentials username password options.source mechanism
      (mechanismProperties.with "CANONICALIZE_HOST_NAME" (mechanismProperties.member "gssapiCanonicalizeHostName"))
  return .credentials username password options.source mechanism mechanismProperties

/-- `MongoCredentials.merge(creds, options)`. -/
def mergeCredentials (creds : Value ω) (options : MongoCredentialsOptions ω) : Except AnyError (Value ω) :=
  newMongoCredentials env
    { username := (options.username.orElse (creds.member "username")).orElse (.text "")
      password := (options.password.orElse (creds.member "password")).orElse (.text "")
      mechanism := (options.mechanism.orElse (creds.member "mechanism")).orElse (.text "DEFAULT")
      mechanismProperties :=
        (options.mechanismProperties.orElse (creds.member "mechanismProperties")).orElse (.object [])
      source := (options.source.orElse (creds.member "source")).orElse (.text "admin") }
    (options.mechanismProperties.isNullish && !(creds.member "mechanismProperties").isNullish)

/-- `Object.values(GSSAPICanonicalizationValue).includes(value)`. -/
def isCanonicalizationValue (value : Value ω) : Bool :=
  match value with
  | .boolean _ => true
  | _ => value.isOneOf ["none", "forward", "forwardAndReverse"]

/-- `credentials.validate()`. -/
def validateCredentials (credentials : Value ω) : Except AnyError Unit := do
  let mechanism := credentials.member "mechanism"
  let source := credentials.member "source"
  let password := credentials.member "password"
  if mechanism.isOneOf ["GSSAPI", "MONGODB-CR", "PLAIN", "SCRAM-SHA-1", "SCRAM-SHA-256"] ∧
      ¬ (credentials.member "username").truthy env.toLanguage then
    throw { cls := .mongoAPIError,
            message := "Username required for mechanism '" ++ (← mechanism.toText env.toLanguage) ++ "'" }
  if mechanism.isOneOf authMechsAuthSrcExternal ∧ ¬ source.isNullish ∧ ¬ source.isText "$external" then
    throw { cls := .mongoAPIError,
            message := "Invalid source '" ++ (← source.toText env.toLanguage) ++ "' for mechanism '" ++
              (← mechanism.toText env.toLanguage) ++ "' specified." }
  if mechanism.isText "PLAIN" ∧ source.isNullish then
    throw { cls := .mongoAPIError, message := "PLAIN Authentication Mechanism needs an auth source" }
  if mechanism.isText "MONGODB-X509" ∧ ¬ password.isNullish then
    -- the credentials are frozen, and an empty password stays
    if password.isText "" then
      return
    throw { cls := .mongoAPIError, message := "Password not allowed for mechanism MONGODB-X509" }
  let canonicalization :=
    ((credentials.member "mechanismProperties").member "CANONICALIZE_HOST_NAME").orElse (.boolean false)
  if isCanonicalizationValue canonicalization then
    return
  throw { cls := .mongoAPIError,
          message := "Invalid CANONICALIZE_HOST_NAME value: " ++ (← canonicalization.toText env.toLanguage) }

/-! ## Transforms -/

def authTransform (name : String) (credentials value : Value ω) : Except AnyError (Value ω) := do
  if isRecord value ["username", "password"] then
    mergeCredentials env credentials { username := value.member "username", password := value.member "password" }
  else
    throw (parseError (name ++ " must be an object with 'username' and 'password' properties"))

def authMechanismTransform (credentials value : Value ω) : Except AnyError (Value ω) := do
  let text ← value.toText env.toLanguage
  let pattern ← env.wholeWord text
  match AuthMechanism.values.filter pattern with
  | [] =>
    throw (parseError
      ("authMechanism one of " ++ ",".intercalate AuthMechanism.values ++ ", got " ++ text))
  | mechanism :: _ =>
    -- some mechanisms have '$external' as the Auth Source
    let source :=
      if mechanism = "PLAIN" ∨ mechanism ∈ authMechsAuthSrcExternal then .text "$external"
      else credentials.member "source"
    let password := credentials.member "password"
    let password := if mechanism = "MONGODB-X509" ∧ password.isText "" then .undefined else password
    mergeCredentials env credentials { mechanism := .text mechanism, source, password }

/-- `text.split(separator)`. -/
def splitText (text : String) (separator : Char) : List String :=
  (text.toList.splitOn separator).map String.ofList

def entriesFromString (value : String) : Except AnyError (List (String × String)) :=
  (splitText value ',').mapM fun keyValue =>
    match splitText keyValue ':' with
    | key :: value :: _ => .ok (key, value)
    | _ => .error (parseError "Cannot have undefined values in key value pairs")

def authMechanismPropertiesTransform (credentials value : Value ω) : Except AnyError (Value ω) :=
  match value with
  | .text optionValue => do
    let entries ← entriesFromString optionValue
    let mechanismProperties := entries.foldl (fun (properties : OrderedMap String (Value ω)) (e : String × String) =>
      properties.set e.1 (match getBoolean env.toLanguage e.1 (.text e.2) with
        | .ok b => .boolean b
        | .error _ => .text e.2)) .empty
    mergeCredentials env credentials { mechanismProperties := .object mechanismProperties.entries }
  | _ =>
    if isRecord value [] then mergeCredentials env credentials { mechanismProperties := value }
    else throw (parseError "AuthMechanismProperties must be an object")

def authSourceTransform (credentials value : Value ω) : Except AnyError (Value ω) := do
  mergeCredentials env credentials { source := .text (← value.toText env.toLanguage) }

end

end MongoDriver.Options
