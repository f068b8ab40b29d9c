/-
The table of the client's options and the setting of one of them (`OPTIONS`, `setOption` of
`src/connection_string.ts`). Warnings are left out.
-/
import MongoDriver.Options.Credentials

namespace MongoDriver.Options

/-! ## The table -/

inductive OptionType
  | boolean
  | int
  | uint
  | record
  | string
  | any
deriving DecidableEq

inductive Transform
  | auth
  | authMechanism
  | authMechanismProperties
  | authSource
  | family
  | file
  | tlsAllowInvalidCertificates
  | tlsAllowInvalidHostnames
  | tlsInsecure
  /-- a transform of `Environment` -/
  | component
deriving DecidableEq

/-- The default of an option. -/
inductive Fallback
  | boolean (b : Bool)
  | number (n : Nat)
  | text (s : String)
  /-- an instance of a class -/
  | object
deriving DecidableEq

structure OptionDescriptor where
  target : Option String := none
  type : Option OptionType := none
  transform : Option Transform := none
  default : Option Fallback := none
deriving DecidableEq

/-- The name under which the option `key` is set. -/
def OptionDescriptor.name (descriptor : OptionDescriptor) (key : String) : String := descriptor.target.getD key

def OPTIONS : List (String × OptionDescriptor) :=
  [("appName", { target := some "metadata", transform := some .component }),
   ("auth", { target := some "credentials", transform := some .auth }),
   ("authMechanism", { target := some "credentials", transform := some .authMechanism }),
   ("authMechanismProperties", { target := some "credentials", transform := some .authMechanismProperties }),
   ("authSource", { target := some "credentials", transform := some .authSource }),
   ("autoEncryption", { type := some .record }),
   ("bsonRegExp", { type := some .boolean }),
   ("serverApi", { target := some "serverApi", transform := some .component }),
   ("checkKeys", { type := some .boolean }),
   ("compressors", { target := some "compressors", transform := some .component, default := some (.text "none") }),
   ("connectTimeoutMS", { type := some .uint, default := some (.number 30000) }),
   ("dbName", { type := some .string }),
   ("directConnection", { type := some .boolean, default := some (.boolean false) }),
   ("driverInfo", { target := some "metadata", transform := some .component, default := some .object }),
   ("enableUtf8Validation", { type := some .boolean, default := some (.boolean true) }),
   ("family", { transform := some .family }),
   ("fieldsAsRaw", { type := some .record }),
   ("forceServerObjectId", { type := some .boolean, default := some (.boolean false) }),
   ("fsync", { target := some "writeConcern", transform := some .component }),
   ("heartbeatFrequencyMS", { type := some .uint, default := some (.number 10000) }),
   ("ignoreUndefined", { type := some .boolean }),
   ("j", { target := some "writeConcern", transform := some .component }),
   ("journal", { target := some "writeConcern", transform := some .component }),
   ("keepAlive", { type := some .boolean, default := some (.boolean true) }),
   ("keepAliveInitialDelay", { type := some .uint, default := some (.number 120000) }),
   ("loadBalanced", { type := some .boolean, default := some (.boolean false) }),
   ("localThresholdMS", { type := some .uint, default := some (.number 15) }),
   ("logger", { transform := some .component, default := some .object }),
   ("loggerLevel", { target := some "logger", transform := some .component }),
   ("maxIdleTimeMS", { type := some .uint, default := some (.number 0) }),
   ("maxPoolSize", { type := some .uint, default := some (.number 100) }),
   ("maxStalenessSeconds", { target := some "readPreference", transform := some .component }),
   ("minInternalBufferSize", { type := some .uint }),
   ("minPoolSize", { type := some .uint, default := some (.number 0) }),
   ("minHeartbeatFrequencyMS", { type := some .uint, default := some (.number 500) }),
   ("monitorCommands", { type := some .boolean, default := some (.boolean false) }),
   ("name", { target := some "driverInfo", transform := some .component }),
   ("noDelay", { type := some .boolean, default := some (.boolean true) }),
   ("pkFactory", { transform := some .component, default := some .object }),
   ("promiseLibrary", { type := some .any }),
   ("promoteBuffers", { type := some .boolean }),
   ("promoteLongs", { type := some .boolean }),
   ("promoteValues", { type := some .boolean }),
   ("proxyHost", { type := some .string }),
   ("proxyPassword", { type := some .string }),
   ("proxyPort", { type := some .uint }),
   ("proxyUsername", { type := some .string }),
   ("raw", { type := some .boolean, default := some (.boolean false) }),
   ("readConcern", { transform := some .component }),
   ("readConcernLevel", { target := some "readConcern", transform := some .component }),
   ("readPreference", { transform := some .component, default := some .object }),
   ("readPreferenceTags", { target := some "readPreference", transform := some .component }),
   ("replicaSet", { type := some .string }),
   ("retryReads", { type := some .boolean, default := some (.boolean true) }),
   ("retryWrites", { type := some .boolean, default := some (.boolean true) }),
   ("serializeFunctions", { type := some .boolean }),
   ("serverSelectionTimeoutMS", { type := some .uint, default := some (.number 30000) }),
   ("servername", { type := some .string }),
   ("socketTimeoutMS", { type := some .uint, default := some (.number 0) }),
   ("srvMaxHosts", { type := some .uint, default := some (.number 0) }),
   ("srvServiceName", { type := some .string, default := some (.text "mongodb") }),
   ("ssl", { target := some "tls", type := some .boolean }),
   ("sslCA", { target := some "ca", transform := some .file }),
   ("sslCRL", { target := some "crl", transform := some .file }),
   ("sslCert", { target := some "cert", transform := some .file }),
   ("sslKey", { target := some "key", transform := some .file }),
   ("sslPass", { target := some "passphrase", type := some .string }),
   ("sslValidate", { target := some "rejectUnauthorized", type := some .boolean }),
   ("tls", { type := some .boolean }),
   ("tlsAllowInvalidCertificates", { target := some "rejectUnauthorized", transform := some .tlsAllowInvalidCertificates }),
   ("tlsAllowInvalidHostnames", { target := some "checkServerIdentity", transform := some .tlsAllowInvalidHostnames }),
   ("tlsCAFile", { target := some "ca", transform := some .file }),
   ("tlsCertificateFile", { target := some "cert", transform := some .file }),
   ("tlsCertificateKeyFile", { target := some "key", transform := some .file }),
   ("tlsCertificateKeyFilePassword", { target := some "passphrase", type := some .any }),
   ("tlsInsecure", { transform := some .tlsInsecure }),
   ("w", { target := some "writeConcern", transform := some .component }),
   ("waitQueueTimeoutMS", { type := some .uint, default := some (.number 0) }),
   ("writeConcern", { target := some "writeConcern", transform := some .component }),
   ("wtimeout", { target := some "writeConcern", transform := some .component }),
   ("wtimeoutMS", { target := some "writeConcern", transform := some .component }),
   ("zlibCompressionLevel", { type := some .int, default := some (.number 0) }),
   ("connectionType", { type := some .any }),
   ("srvPoller", { type := some .any }),
   ("minDHSize", { type := some .any }),
   ("pskCallback", { type := some .any }),
   ("secureContext", { type := some .any }),
   ("enableTrace", { type := some .any }),
   ("requestCert", { type := some .any }),
   ("rejectUnauthorized", { type := some .any }),
   ("checkServerIdentity", { type := some .any }),
   ("ALPNProtocols", { type := some .any }),
   ("SNICallback", { type := some .any }),
   ("session", { type := some .any }),
   ("requestOCSP", { type := some .any }),
   ("localAddress", { type := some .any }),
   ("localPort", { type := some .any }),
   ("hints", { type := some .any }),
   ("lookup", { type := some .any }),
   ("ca", { type := some .any }),
   ("cert", { type := some .any }),
   ("ciphers", { type := some .any }),
   ("crl", { type := some .any }),
   ("ecdhCurve", { type := some .any }),
   ("key", { type := some .any }),
   ("passphrase", { type := some .any }),
   ("pfx", { type := some .any }),
   ("secureProtocol", { type := some .any }),
   ("index", { type := some .any }),
   ("useNewUrlParser", { type := some .boolean }),
   ("useUnifiedTopology", { type := some .boolean })]

/-! ## Setting an option -/

section

variable {ω σ : Type} (env : Environment ω σ)

/-- The default of the option `key`. -/
def Fallback.value (key : String) : Fallback → Value ω
  | .boolean b => .boolean b
  | .number n => .number (.finite n)
  | .text s => .text s
  | .object => .other (env.instanceOf key)

/-- What a value becomes under a type. -/
def convert (name : String) (type : OptionType) (value : Value ω) : Except AnyError (Value ω) :=
  match type with
  | .boolean => return .boolean (← getBoolean env.toLanguage name value)
  | .int => return .number (.ofNumber (← getInt env.toLanguage name value))
  | .uint => return .number (.ofNumber (← getUint env.toLanguage name value))
  | .string => return .text (← value.toText env.toLanguage)
  | .record => if isRecord value [] then return value else throw (parseError (name ++ " must be an object"))
  | .any => return value

/-- `transform({ name, options, values })`. -/
def runTransform (transform : Transform) (key name : String) (values : List (Value ω)) (s : Settings ω σ) :
    Except AnyError (Value ω × Settings ω σ) :=
  let value := values.headD .undefined
  match transform with
  | .auth => return (← authTransform env name (s.options.get "credentials") value, s)
  | .authMechanism => return (← authMechanismTransform env (s.options.get "credentials") value, s)
  | .authMechanismProperties => return (← authMechanismPropertiesTransform env (s.options.get "credentials") value, s)
  | .authSource => return (← authSourceTransform env (s.options.get "credentials") value, s)
  | .family => do
    let transformValue ← getInt env.toLanguage name value
    if transformValue = .int 4 ∨ transformValue = .int 6 then
      return (.number (.ofNumber transformValue), s)
    throw (parseError ("Option 'family' must be 4 or 6 got " ++ String.ofList transformValue.text ++ "."))
  | .file => return (.text (← env.readFileSync (← value.toText env.toLanguage)), s)
  -- allowInvalidCertificates is the inverse of rejectUnauthorized
  | .tlsAllowInvalidCertificates => return (.boolean (!(← getBoolean env.toLanguage name value)), s)
  | .tlsAllowInvalidHostnames =>
    return (if (← getBoolean env.toLanguage name value) then .other env.noop else .undefined, s)
  -- the one transform that sets other options
  | .tlsInsecure => do
    let tlsInsecure ← getBoolean env.toLanguage name value
    let options :=
      if tlsInsecure then
        (s.options.set "checkServerIdentity" (.other env.noop)).set "rejectUnauthorized" (.boolean false)
      else
        let options := s.options.set "checkServerIdentity"
          (if (s.options.get "tlsAllowInvalidHostnames").truthy env.toLanguage then .other env.noop else .undefined)
        options.set "rejectUnauthorized"
          (.boolean !(options.get "tlsAllowInvalidCertificates").truthy env.toLanguage)
    return (.boolean tlsInsecure, { s with options })
  | .component => do
    let (value, world) ← env.transform key name s.options values s.world
    return (value, { s with world })

def setOption (key : String) (descriptor : OptionDescriptor) (values : List (Value ω)) (s : Settings ω σ) :
    Except AnyError (Settings ω σ) :=
  let name := descriptor.name key
  let value := values.headD .undefined
  match descriptor.type with
  | some type =>
    if type = .string ∧ value.isNullish then
      return s
    else do
      return { s with options := s.options.set name (← convert env name type value) }
  | none =>
    match descriptor.transform with
    | none => throw (parseError "Descriptors missing a type must define a transform")
    | some transform => do
      let (value, s) ← runTransform env transform key name values s
      return { s with options := s.options.set name value }

end

end MongoDriver.Options
