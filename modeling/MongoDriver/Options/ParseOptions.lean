/-
The options of a client from its connection string and its options object (`parseOptions`, `checkTLSOptions` and
`validateLoadBalancedOptions` of `src/connection_string.ts`): what each source gives under a name, the list of all
values of a name, the setting of every option in the order of the table, and the checks of the result.
-/
import MongoDriver.Options.Descriptors

namespace MongoDriver.Options

section

variable {ω σ : Type} (env : Environment ω σ)

/-- `mongoClient`: not given, a client, or the options in its place. -/
inductive ClientArgument (ω : Type)
  | absent
  | client
  | options (options : List (String × Value ω))

/-- The options the function goes on with. -/
def ClientArgument.optionsOr (mongoClient : ClientArgument ω) (options : List (String × Value ω)) :
    List (String × Value ω) :=
  match mongoClient with
  | .options options => options
  | _ => options

def apiError (message : String) : AnyError := { cls := .mongoAPIError, message }

/-! ## The sources -/

section

variable (js : Language ω)

def decodeURIComponent (text : String) : Except AnyError String :=
  match js.decodeURIComponent text with
  | some decoded => .ok decoded
  | none => .error { cls := .error, message := "URI malformed" }

/-- The database of the path. -/
def pathDatabase (url : ConnectionString js) : Except AnyError (Option String) :=
  if url.pathname ≠ "/" ∧ url.pathname ≠ "" then do
    let dbName ← decodeURIComponent js
      (if url.pathname.toList.head? = some '/' then String.ofList url.pathname.toList.tail else url.pathname)
    return if dbName ≠ "" then some dbName else none
  else
    return none

/-- The user and the password before the hosts. -/
def urlAuth (url : ConnectionString js) : Except AnyError (Option (Value ω)) :=
  if url.username ≠ "" then do
    let username ← decodeURIComponent js url.username
    match url.password with
    | some password =>
      return some (.object [("username", .text username), ("password", .text (← decodeURIComponent js password))])
    | none => return some (.object [("username", .text username)])
  else
    return none

/-- The options in front of the parameters. -/
def headOptions (dbName : Option String) (auth : Option (Value ω)) : CaseInsensitiveMap (List (Value ω)) :=
  let urlOptions : CaseInsensitiveMap (List (Value ω)) := .empty
  let urlOptions := dbName.elim urlOptions fun dbName => urlOptions.put js "dbName" [.text dbName]
  auth.elim urlOptions fun auth => urlOptions.put js "auth" [auth]

def collectParam (url : ConnectionString js) (urlOptions : CaseInsensitiveMap (List (Value ω))) (key : String) :
    Except AnyError (CaseInsensitiveMap (List (Value ω))) :=
  let values := url.searchParams.getAll key
  if "" ∈ values then
    .error (apiError "URI cannot contain options with no value")
  else
    .ok (if urlOptions.has js key then urlOptions else urlOptions.put js key (values.map .text))

def collectUrlOptions (url : ConnectionString js) : Except AnyError (CaseInsensitiveMap (List (Value ω))) := do
  let dbName ← pathDatabase js url
  let auth ← urlAuth js url
  (url.searchParams.entries.map (·.1)).foldlM (collectParam js url) (headOptions js dbName auth)

def collectObjectOptions (options : List (String × Value ω)) : CaseInsensitiveMap (Value ω) :=
  .new js (options.filter fun e => !e.2.isNullish)

end

/-- `DEFAULT_OPTIONS`. -/
def defaultOptions : CaseInsensitiveMap (Value ω) :=
  .new env.toLanguage (OPTIONS.filterMap fun e => e.2.default.map fun fallback => (e.1, fallback.value env e.1))

/-- What the URI and the object give. -/
structure Sources (ω : Type) where
  urlOptions : CaseInsensitiveMap (List (Value ω))
  objectOptions : CaseInsensitiveMap (Value ω)

namespace Sources

variable (sources : Sources ω)

def allKeys : List String :=
  (sources.urlOptions.keys ++ sources.objectOptions.keys ++ (defaultOptions env).keys).eraseDups

/-- All values under a name, in precedence order. -/
def values (key : String) : List (Value ω) :=
  ((sources.objectOptions.lookup env.toLanguage key).map toArray).getD [] ++
    ((sources.urlOptions.lookup env.toLanguage key).getD [] ++
      (((defaultOptions env).lookup env.toLanguage key).map toArray).getD [])

/-- The values of every key. -/
def collected : CaseInsensitiveMap (List (Value ω)) :=
  (sources.allKeys env).foldl (fun (all : CaseInsensitiveMap (List (Value ω))) key =>
    all.put env.toLanguage key (sources.values env key)) .empty

def allOptions : CaseInsensitiveMap (List (Value ω)) :=
  let allOptions := sources.collected env
  if allOptions.has env.toLanguage "tlsCertificateKeyFile" ∧ ¬ allOptions.has env.toLanguage "tlsCertificateFile" then
    allOptions.put env.toLanguage "tlsCertificateFile"
      ((allOptions.lookup env.toLanguage "tlsCertificateKeyFile").getD [])
  else
    allOptions

/-- The name is given in the URI or, with a value, in the object. -/
def has (key : String) : Bool :=
  sources.objectOptions.has env.toLanguage key || sources.urlOptions.has env.toLanguage key

end Sources

def collectSources (url : ConnectionString env.toLanguage) (options : List (String × Value ω)) :
    Except AnyError (Sources ω) := do
  let urlOptions ← collectUrlOptions env.toLanguage url
  let objectOptions := collectObjectOptions env.toLanguage options
  if urlOptions.has env.toLanguage "serverApi" then
    .error (parseError "URI cannot contain \x60serverApi\x60, it can only be passed to the client")
  else if objectOptions.has env.toLanguage "loadBalanced" then
    .error (parseError "loadBalanced is only a valid option in the URI")
  else
    .ok { urlOptions, objectOptions }

def checkTlsAndSsl (allOptions : CaseInsensitiveMap (List (Value ω))) : Except AnyError Unit := do
  if allOptions.has env.toLanguage "tls" ∨ allOptions.has env.toLanguage "ssl" then
    let tlsAndSslOpts ← ((allOptions.lookup env.toLanguage "tls").getD [] ++
      (allOptions.lookup env.toLanguage "ssl").getD []).mapM (getBoolean env.toLanguage "tls/ssl")
    if tlsAndSslOpts.eraseDups.length ≠ 1 then
      throw (parseError "All values of tls/ssl must be the same.")

def checkSupported (allKeys : List String) : Except AnyError Unit :=
  let unsupportedOptions := allKeys.filter (· ∉ OPTIONS.map fun e => toLowerCase env.toLanguage e.1)
  if unsupportedOptions = [] then
    .ok ()
  else
    let optionWord := if unsupportedOptions.length > 1 then "options" else "option"
    let isOrAre := if unsupportedOptions.length > 1 then "are" else "is"
    .error (parseError
      (optionWord ++ " " ++ ", ".intercalate unsupportedOptions ++ " " ++ isOrAre ++ " not supported"))

/-! ## Setting -/

/-- One round of the loop over the table. -/
def setFrom (allOptions : CaseInsensitiveMap (List (Value ω))) (s : Settings ω σ) (e : String × OptionDescriptor) :
    Except AnyError (Settings ω σ) :=
  match (allOptions.lookup env.toLanguage e.1).getD [] with
  | [] => .ok s
  | value :: values => setOption env e.1 e.2 (value :: values) s

/-! ## The credentials -/

/-- `Object.keys(value).length === 0`. -/
def Value.hasNoKeys : Value ω → Bool
  | .object properties => properties.isEmpty
  | _ => true

/-- The credentials inherit the dbName, unless there was a specific authSource. -/
def inheritDbName (hasAuthSource : Bool) (credentials dbName : Value ω) : Except AnyError (Value ω) :=
  -- unless GSSAPI or X509, then silently ignore dbName
  if ¬ (credentials.member "mechanism").isOneOf authMechsAuthSrcExternal ∧ dbName.truthy env.toLanguage ∧
      ¬ hasAuthSource then
    mergeCredentials env credentials { source := dbName }
  else
    .ok credentials

/-- Only the authSource was given of what has to do with authentication. -/
def isAuthSourceOnly (credentials : Value ω) : Bool :=
  (credentials.member "password").isText "" && (credentials.member "username").isText "" &&
    (credentials.member "mechanism").isText "DEFAULT" && (credentials.member "mechanismProperties").hasNoKeys

def settleCredentials (hasAuthSource : Bool) (options : MongoOptions ω) : Except AnyError (MongoOptions ω) :=
  let credentials := options.get "credentials"
  if credentials.truthy env.toLanguage then
    -- If authSource was explicitly given and its incorrect, we error
    if (credentials.member "mechanism").isOneOf ["GSSAPI", "MONGODB-X509"] ∧ hasAuthSource ∧
        ¬ (credentials.member "source").isText "$external" then do
      throw (parseError ((← credentials.toText env.toLanguage) ++ " can only have authSource set to '$external'"))
    else do
      let credentials ← inheritDbName env hasAuthSource credentials (options.get "dbName")
      let options := options.set "credentials" credentials
      validateCredentials env credentials
      return if isAuthSourceOnly credentials then options.delete "credentials" else options
  else
    .ok options

/-! ## Checks of the result -/

/-- The pairs of options that `checkTLSOptions` excludes. -/
def exclusiveTLSOptions : List (String × String) :=
  [("tlsInsecure", "tlsAllowInvalidCertificates"),
   ("tlsInsecure", "tlsAllowInvalidHostnames"),
   ("tlsInsecure", "tlsDisableCertificateRevocationCheck"),
   ("tlsInsecure", "tlsDisableOCSPEndpointCheck"),
   ("tlsAllowInvalidCertificates", "tlsDisableCertificateRevocationCheck"),
   ("tlsAllowInvalidCertificates", "tlsDisableOCSPEndpointCheck"),
   ("tlsDisableCertificateRevocationCheck", "tlsDisableOCSPEndpointCheck")]

def checkTLSOptions (options : MongoOptions ω) : Except AnyError Unit :=
  match exclusiveTLSOptions.find? fun pair => options.has pair.1 && options.has pair.2 with
  | some (a, b) => .error (parseError ("The '" ++ a ++ "' option cannot be used with '" ++ b ++ "'"))
  | none => .ok ()

/-- `value > 0`, of a number. -/
def Value.positive : Value ω → Bool
  | .number (.infinity negative) => !negative
  | .number (.finite q) => 0 < q
  | _ => false

/-- `typeof value === 'string'`. -/
def Value.isString : Value ω → Bool
  | .text _ => true
  | _ => false

/-- `PromiseProvider.set(options.promiseLibrary)`. -/
def checkPromiseLibrary (options : List (String × Value ω)) : Except AnyError Unit :=
  let lib := (options.lookup "promiseLibrary").getD .undefined
  match lib with
  | .other o =>
    if env.otherTruthy o ∧ ¬ env.isFunction o then do
      throw { cls := .mongoInvalidArgumentError, message := "Promise must be a function, got " ++ (← env.otherText o) }
    else
      .ok ()
  | _ =>
    if lib.truthy env.toLanguage then do
      throw { cls := .mongoInvalidArgumentError,
              message := "Promise must be a function, got " ++ (← lib.toText env.toLanguage) }
    else
      .ok ()

def validateLoadBalancedOptions (hosts : Nat) (options : MongoOptions ω) (isSrv : Bool) : Option AnyError :=
  if (options.get "loadBalanced").truthy env.toLanguage then
    if hosts > 1 then
      some (parseError "loadBalanced option only supported with a single host in the URI")
    else if (options.get "replicaSet").truthy env.toLanguage then
      some (parseError "loadBalanced option not supported with a replicaSet option")
    else if (options.get "directConnection").truthy env.toLanguage then
      some (parseError "loadBalanced option not supported when directConnection is provided")
    else if isSrv ∧ (options.get "srvMaxHosts").positive then
      some (parseError "Cannot limit srv hosts with loadBalanced enabled")
    else
      none
  else
    none

def checkLoadBalanced (hosts : Nat) (options : MongoOptions ω) (isSrv : Bool) : Except AnyError Unit :=
  match validateLoadBalancedOptions env hosts options isSrv with
  | some lbError => .error lbError
  | none => .ok ()

/-- What an SRV connection string adds, and what another one excludes. -/
def settleSrv (url : ConnectionString env.toLanguage) (sources : Sources ω) (options : MongoOptions ω) :
    Except AnyError (MongoOptions ω) :=
  if url.isSRV then
    -- SRV Record is resolved upon connecting
    let options := options.set "srvHost" (url.hosts.head?.elim .undefined .text)
    if (options.get "directConnection").truthy env.toLanguage then
      .error (apiError "SRV URI does not support directConnection")
    else if (options.get "srvMaxHosts").positive ∧ (options.get "replicaSet").isString then
      .error (parseError "Cannot use srvMaxHosts option with replicaSet")
    -- SRV turns on TLS by default, but users can override and turn it off
    else if ¬ sources.has env "tls" ∧ ¬ sources.has env "ssl" then
      .ok (options.set "tls" (.boolean true))
    else
      .ok options
  else if sources.has env "srvMaxHosts" ∨ sources.has env "srvServiceName" then
    .error (parseError "Cannot use srvMaxHosts or srvServiceName with a non-srv connection string")
  else
    .ok options

def proxyOptions : List String := ["proxyHost", "proxyPort", "proxyUsername", "proxyPassword"]

def checkConnection (sources : Sources ω) (options : MongoOptions ω) : Except AnyError Unit := do
  let given (name : String) : Bool := (options.get name).truthy env.toLanguage
  if given "directConnection" ∧ options.hosts.length ≠ 1 then
    throw (parseError "directConnection option requires exactly one host")
  if ¬ given "proxyHost" ∧ (given "proxyPort" ∨ given "proxyUsername" ∨ given "proxyPassword") then
    throw (parseError "Must specify proxyHost if other proxy options are passed")
  if given "proxyUsername" ≠ given "proxyPassword" then
    throw (parseError "Can only specify both of proxy username/password or neither")
  if proxyOptions.any fun key => ((sources.urlOptions.lookup env.toLanguage key).getD []).length > 1 then
    throw (parseError "Proxy options cannot be specified multiple times in the connection string")

/-- The encrypter of a client with `autoEncryption`. -/
def setEncrypter (mongoClient : ClientArgument ω) (uri : String) (options : List (String × Value ω))
    (mongoOptions : MongoOptions ω) : Except AnyError (MongoOptions ω) :=
  match mongoClient with
  | .client =>
    if (mongoOptions.get "autoEncryption").truthy env.toLanguage then do
      let (encrypter, autoEncrypter) ← env.encrypter uri options
      return (mongoOptions.set "encrypter" encrypter).set "autoEncrypter" autoEncrypter
    else
      return mongoOptions
  | _ => return mongoOptions

/-- dbName default is applied here because of the credential validation -/
def applyDbName (mongoOptions : MongoOptions ω) : MongoOptions ω :=
  if (mongoOptions.get "dbName").truthy env.toLanguage then mongoOptions else mongoOptions.set "dbName" (.text "test")

/-- What follows the setting of the options. -/
def finish (mongoClient : ClientArgument ω) (uri : String) (options : List (String × Value ω))
    (url : ConnectionString env.toLanguage) (sources : Sources ω) (mongoOptions : MongoOptions ω) :
    Except AnyError (MongoOptions ω) := do
  let mongoOptions ← settleCredentials env ((sources.allOptions env).has env.toLanguage "authSource") mongoOptions
  let mongoOptions := applyDbName env mongoOptions
  checkTLSOptions mongoOptions
  checkPromiseLibrary env options
  checkLoadBalanced env url.hosts.length mongoOptions url.isSRV
  let mongoOptions ← setEncrypter env mongoClient uri options mongoOptions
  let mongoOptions :=
    (mongoOptions.set "userSpecifiedAuthSource" (.boolean (sources.has env "authSource"))).set
      "userSpecifiedReplicaSet" (.boolean (sources.has env "replicaSet"))
  let mongoOptions ← settleSrv env url sources mongoOptions
  checkConnection env sources mongoOptions
  return mongoOptions

/-- The options, with what the transforms share. -/
def parseOptions (uri : String) (mongoClient : ClientArgument ω) (options : List (String × Value ω)) (world : σ) :
    Except AnyError (Settings ω σ) := do
  let options := mongoClient.optionsOr options
  let url ← env.connectionString uri
  let hosts ← (if url.isSRV then .ok [] else url.hosts.mapM (Sdam.HostAddress.ofString env.toRuntime))
  let sources ← collectSources env url options
  checkTlsAndSsl env (sources.allOptions env)
  checkSupported env (sources.allKeys env)
  let s ← OPTIONS.foldlM (setFrom env (sources.allOptions env)) { options := ⟨hosts, .empty⟩, world }
  let mongoOptions ← finish env mongoClient uri options url sources s.options
  return { s with options := mongoOptions }

end

/-- A `MongoParseError`. -/
def Rejected {α : Type} (result : Except AnyError α) : Prop :=
  ∃ error, result = .error error ∧ error.cls = .mongoParseError

end MongoDriver.Options
