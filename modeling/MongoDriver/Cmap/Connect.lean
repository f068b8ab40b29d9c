/-
Establishing a connection (`connect` of `src/cmap/connect.ts`): a socket is connected, perhaps through a SOCKS5 proxy
and perhaps with TLS, and then the handshake is made and the client authenticates. An event is an answer of the socket,
of the proxy, of the server or of a mechanism, or the token that cancels; what it leads to runs to the next wait.
The options that only go to the socket are left out, the errors of writing the command, and the commands of a mechanism,
which set no socket timeout.
-/
import MongoDriver.Auth.Scram
import MongoDriver.Sdam.TopologyDescription

namespace MongoDriver.Cmap

open Sdam (HostAddress maxSupportedWireVersion minSupportedWireVersion maxSupportedServerVersion minSupportedServerVersion)

/-! ## Credentials -/

/-- `AuthMechanism`; a text that is none of them is `other`. -/
inductive AuthMechanism
  | aws
  | cr
  | default
  | gssapi
  | plain
  | scramSha1
  | scramSha256
  | x509
  | other (name : String)
deriving DecidableEq

def AuthMechanism.name : AuthMechanism → String
  | aws => "MONGODB-AWS"
  | cr => "MONGODB-CR"
  | default => "DEFAULT"
  | gssapi => "GSSAPI"
  | plain => "PLAIN"
  | scramSha1 => "SCRAM-SHA-1"
  | scramSha256 => "SCRAM-SHA-256"
  | x509 => "MONGODB-X509"
  | other name => name

/-- `AUTH_PROVIDERS` has the mechanism. -/
def AuthMechanism.hasProvider : AuthMechanism → Bool
  | default => false
  | other _ => false
  | _ => true

/-- `MongoCredentials`. -/
structure ConnectCredentials extends Auth.MongoCredentials where
  mechanism : AuthMechanism := .default

/-! ## Replies -/

/-- A wire version of a reply: a number or an `Int32`, or something else with the text `JSON.stringify` gives it. -/
inductive WireVersion
  | number (n : Int)
  | other (json : Option String)
deriving DecidableEq

def WireVersion.json : WireVersion → Option String
  | number n => some (toString n)
  | other json => json

/-- What is read of the reply to the handshake. -/
structure HandshakeReply where
  ok : Option Int := some 1
  errmsg : Option String := none
  code : Option Int := none
  isWritablePrimary : Option Bool := none
  ismaster : Option Bool := none
  helloOk : Bool := false
  minWireVersion : WireVersion := .other none
  maxWireVersion : WireVersion := .other none
  serviceId : Option ObjectId := none
  arbiterOnly : Bool := false
  saslSupportedMechs : Option (List String) := none
deriving DecidableEq

/-- `getDefaultAuthMechanism(hello)`. -/
def getDefaultAuthMechanism (hello : HandshakeReply) : AuthMechanism :=
  match hello.saslSupportedMechs with
  | some mechanisms => if "SCRAM-SHA-256" ∈ mechanisms then .scramSha256 else .scramSha1
  | none =>
    match hello.maxWireVersion with
    | .number n => if n ≥ 3 then .scramSha1 else .cr
    | .other _ => .cr

/-- `credentials.resolveAuthMechanism(hello)`. -/
def ConnectCredentials.resolveAuthMechanism (credentials : ConnectCredentials) (hello : HandshakeReply) :
    ConnectCredentials :=
  if credentials.mechanism = .default then { credentials with mechanism := getDefaultAuthMechanism hello } else credentials

/-- What a mechanism adds to the handshake. -/
inductive SpeculativeAuthenticate
  | scram (saslStart : Auth.SaslStart) (db : String)
  | x509 (user : Option String)
deriving DecidableEq

structure HandshakeDocument where
  /-- `hello`, not the legacy name -/
  hello : Bool
  compression : List String
  loadBalanced : Bool
  saslSupportedMechs : Option String := none
  speculativeAuthenticate : Option SpeculativeAuthenticate := none
deriving DecidableEq

/-! ## Options -/

/-- `ConnectionOptions`. -/
structure ConnectOptions where
  hostAddress : HostAddress
  tls : Bool := false
  rejectUnauthorized : Bool := true
  proxyHost : Option String := none
  /-- a cancellation token is given -/
  cancellationToken : Bool := false
  keepAlive : Bool := true
  keepAliveInitialDelay : Option Int := none
  noDelay : Bool := true
  socketTimeoutMS : Option Int := none
  socketTimeout : Option Int := none
  connectTimeoutMS : Option Int := none
  loadBalanced : Bool := false
  compressors : List String := []
  /-- `serverApi.version` is set -/
  serverApi : Bool := false
  credentials : Option ConnectCredentials := none

namespace ConnectOptions

variable (options : ConnectOptions)

/-- The socket timeout that `makeConnection` sets on a socket that is connected. -/
def finalTimeout : Int := (options.socketTimeoutMS <|> options.socketTimeout).getD 0

/-- The socket timeout of the command of the handshake, where it has one of its own. -/
def handshakeTimeout : Option Int := options.connectTimeoutMS <|> options.socketTimeoutMS

/-- The socket timeout after the reply to the handshake: that of the connection, if the handshake had its own. -/
def settledTimeout : Int :=
  if options.handshakeTimeout.isSome then options.socketTimeoutMS.getD 0 else options.finalTimeout

def initialDelay : Int :=
  if options.keepAliveInitialDelay.getD 120000 > options.finalTimeout then (options.finalTimeout + 1) / 2
  else options.keepAliveInitialDelay.getD 120000

/-- The document of `prepareHandshakeDocument`, before a mechanism adds to it. -/
def handshakeDocument : HandshakeDocument where
  hello := options.serverApi
  compression := options.compressors
  loadBalanced := options.loadBalanced

def unsupported (message : String) : AnyError := { cls := .mongoCompatibilityError, message }

/-- `checkSupportedServer(hello, options)`. -/
def checkSupportedServer (hello : HandshakeReply) : Option AnyError :=
  let address := "Server at " ++ options.hostAddress.toString
  let tooOld := unsupported (address ++ " reports maximum wire version " ++ hello.maxWireVersion.json.getD "0" ++
    ", but this version of the Node.js Driver requires at least " ++ toString minSupportedWireVersion ++ " (MongoDB " ++
    minSupportedServerVersion ++ ")")
  let tooNew := unsupported (address ++ " reports minimum wire version " ++ hello.minWireVersion.json.getD "undefined" ++
    ", but this version of the Node.js Driver requires at most " ++ toString maxSupportedWireVersion ++ " (MongoDB " ++
    maxSupportedServerVersion ++ ")")
  match hello.maxWireVersion with
  | .other _ => some tooOld
  | .number max =>
    if max < minSupportedWireVersion then some tooOld
    else match hello.minWireVersion with
      | .other _ => some tooNew
      | .number min => if min ≤ maxSupportedWireVersion then none else some tooNew

end ConnectOptions

/-! ## Sockets -/

/-- A socket. `listening` says that the handlers of `makeConnection` are attached to it and to the token; `ended`, that
the connection was destroyed without force. -/
structure ConnectSocket where
  secure : Bool
  keepAlive : Bool
  initialDelay : Int
  noDelay : Bool
  timeout : Int
  listening : Bool := true
  destroyed : Bool := false
  ended : Bool := false
deriving DecidableEq

/-- The events that fail a socket. -/
inductive SocketFailure
  | error (err : AnyError)
  | close
  | timeout
  | parseError
  | cancel
deriving DecidableEq

/-- `connectionFailureError(type, err)`. -/
def connectionFailureError : SocketFailure → AnyError
  | .error err => { cls := .mongoNetworkError, message := err.message }
  | .timeout => { cls := .mongoNetworkTimeoutError, message := "connection timed out" }
  | .close => { cls := .mongoNetworkError, message := "connection closed" }
  | .cancel => { cls := .mongoNetworkError, message := "connection establishment was cancelled" }
  | .parseError => { cls := .mongoNetworkError, message := "unknown network error" }

/-- What is waited for: a socket, perhaps the one to the proxy; the proxy; the nonce of a mechanism; the reply to the
handshake; the mechanism. -/
inductive ConnectStage
  | waiting (k : Nat) (toProxy : Bool)
  | tunnelling (k : Nat)
  | preparing (k : Nat)
  | commanding (k : Nat)
  | authenticating (k : Nat)
  | done
deriving DecidableEq

/-- A call of `connect`. `ticks` are the sockets whose `connectHandler` waits for the next tick; `hello`, `helloOk` and
`closed` are those of the connection; a connection that is called back is the one on that socket. -/
structure Connecting where
  options : ConnectOptions
  sockets : List ConnectSocket := []
  stage : ConnectStage := .done
  ticks : List Nat := []
  hello : Option HandshakeReply := none
  helloOk : Bool := false
  closed : Bool := false
  sent : List HandshakeDocument := []
  mechanisms : List AuthMechanism := []
  callbacks : List (Except AnyError Nat) := []

namespace Connecting

variable (c : Connecting)

def updateSocket (k : Nat) (f : ConnectSocket → ConnectSocket) : Connecting := { c with sockets := c.sockets.modify k f }

def callback (result : Except AnyError Nat) : Connecting :=
  { c with stage := .done, callbacks := c.callbacks ++ [result] }

/-- An error of `makeConnection`. -/
def fail (k : Nat) (err : AnyError) : Connecting :=
  (c.updateSocket k fun socket => { socket with destroyed := true }).callback (.error err)

/-- An error of `performInitialHandshake`, which ends the stream of the connection. -/
def refuse (k : Nat) (err : AnyError) : Connecting :=
  (c.updateSocket k fun socket => { socket with ended := true }).callback (.error err)

/-- What `makeConnection` sets on a socket. -/
def configured (secure : Bool) : ConnectSocket where
  secure
  keepAlive := c.options.keepAlive
  initialDelay := c.options.initialDelay
  noDelay := c.options.noDelay
  timeout := c.options.connectTimeoutMS.getD 30000

/-- `makeConnection` with a new socket. -/
def openSocket (secure toProxy : Bool) : Connecting :=
  { c with sockets := c.sockets ++ [c.configured secure], stage := .waiting c.sockets.length toProxy }

/-! ## The handshake -/

def setTimeout (k : Nat) (timeout : Int) : Connecting := c.updateSocket k fun socket => { socket with timeout }

/-- The command is written, with its timeout on the socket. -/
def command (k : Nat) (handshakeDoc : HandshakeDocument) : Connecting :=
  { c.setTimeout k (c.options.handshakeTimeout.getD c.options.finalTimeout) with
    sent := c.sent ++ [handshakeDoc], stage := .commanding k }

def noProvider (mechanism : AuthMechanism) : AnyError :=
  { cls := .mongoInvalidArgumentError, message := "No AuthProvider for " ++ mechanism.name ++ " defined." }

/-- The mechanism whose `prepare` is called, and the document it gets. -/
def prepareHandshakeDocument (credentials : ConnectCredentials) : Except AnyError (AuthMechanism × HandshakeDocument) :=
  if credentials.mechanism = .default && credentials.username ≠ "" then
    .ok (.scramSha256, { c.options.handshakeDocument with
      saslSupportedMechs := some (credentials.source ++ "." ++ credentials.username) })
  else if credentials.mechanism.hasProvider then .ok (credentials.mechanism, c.options.handshakeDocument)
  else .error (noProvider credentials.mechanism)

/-- `performInitialHandshake`, up to the nonce of a mechanism or the reply. -/
def performInitialHandshake (k : Nat) : Connecting :=
  match c.options.credentials with
  | none => c.command k c.options.handshakeDocument
  | some credentials =>
    if credentials.mechanism ≠ .default && !credentials.mechanism.hasProvider then
      c.refuse k { cls := .mongoInvalidArgumentError,
                   message := "AuthMechanism '" ++ credentials.mechanism.name ++ "' not supported" }
    else match c.prepareHandshakeDocument credentials with
      | .error err => c.refuse k err
      | .ok (.scramSha1, _) | .ok (.scramSha256, _) => { c with stage := .preparing k }
      | .ok (.x509, handshakeDoc) => c.command k { handshakeDoc with
          speculativeAuthenticate := some (.x509 (some credentials.username |>.filter (· ≠ ""))) }
      | .ok (_, handshakeDoc) => c.command k handshakeDoc

/-- The nonce of SCRAM is there. -/
def prepared (k : Nat) (nonce : Buffer) : Connecting :=
  match c.options.credentials with
  | none => c
  | some credentials =>
    match c.prepareHandshakeDocument credentials with
    | .error err => c.refuse k err
    | .ok (mechanism, handshakeDoc) => c.command k { handshakeDoc with
        speculativeAuthenticate := some (.scram
          (Auth.makeFirstMessage (if mechanism = .scramSha1 then .sha1 else .sha256) credentials.toMongoCredentials nonce)
          credentials.source) }

def serverError (response : HandshakeReply) : AnyError :=
  { cls := .mongoServerError, message := response.errmsg.getD "n/a", code := response.code }

def noLoadBalancing : AnyError :=
  { cls := .mongoCompatibilityError
    message := "Driver attempted to initialize in load balancing mode, but the server does not support this mode." }

/-- The handshake is accepted: the mechanism goes on, when there is one. -/
def accepted (k : Nat) (response : HandshakeReply) : Connecting :=
  let c := { c with hello := some response }
  match c.options.credentials with
  | some credentials =>
    if response.arbiterOnly then c.callback (.ok k)
    else
      let mechanism := (credentials.resolveAuthMechanism response).mechanism
      if mechanism.hasProvider then
        { c with mechanisms := c.mechanisms ++ [mechanism], stage := .authenticating k }
      else c.refuse k (noProvider mechanism)
  | none => c.callback (.ok k)

/-- A reply has come, with which the socket gets the timeout of the connection. -/
def answered (k : Nat) : Connecting := c.setTimeout k c.options.settledTimeout

/-- The reply to the handshake. -/
def replied (k : Nat) (response : HandshakeReply) : Connecting :=
  if response.ok = some 0 then c.refuse k (serverError response)
  else
    let response := { response with isWritablePrimary := response.isWritablePrimary <|> response.ismaster }
    let c := { c with helloOk := c.helloOk || response.helloOk }
    match c.options.checkSupportedServer response with
    | some err => c.refuse k err
    | none =>
      if c.options.loadBalanced && response.serviceId.isNone then c.refuse k noLoadBalancing else c.accepted k response

/-- `handleIssue` of the connection: a command that waits for its reply is called back with the error; a mechanism calls
back by itself. -/
def handleIssue (k : Nat) (destroy : Bool) (err : AnyError) : Connecting :=
  let closed := { c.updateSocket k (fun socket => { socket with destroyed := destroy }) with closed := true }
  match c.stage with
  | .commanding _ => closed.refuse k err
  | _ => closed

/-! ## Sockets -/

/-- `makeConnection` of `connect`. -/
def start : Connecting := if c.options.proxyHost.isSome then c.openSocket false true else c.openSocket c.options.tls false

def notTcp : AnyError :=
  { cls := .mongoInvalidArgumentError, message := "Can only make Socks5 connections to TCP hosts" }

/-- `connectHandler` -/
def connectHandler (k : Nat) (toProxy : Bool) (authorizationError : Option AnyError) : Connecting :=
  let c := c.updateSocket k fun socket => { socket with listening := false }
  match authorizationError.filter fun _ => c.options.rejectUnauthorized with
  | some err => c.fail k err
  | none =>
    let c := c.updateSocket k fun socket => { socket with timeout := c.options.finalTimeout }
    if toProxy then
      match c.options.hostAddress with
      | .tcp .. => { c with stage := .tunnelling k }
      | .socket _ => c.callback (.error notTcp)
    else c.performInitialHandshake k

/-- The proxy has connected: the socket to it is used, or TLS over it, and the handler is called in the next tick. -/
def tunnelled (k : Nat) : Connecting :=
  if c.options.tls then { c.openSocket true false with ticks := c.ticks ++ [c.sockets.length] }
  else { c.updateSocket k (fun _ => c.configured false) with stage := .waiting k false, ticks := c.ticks ++ [k] }

/-! ## Events -/

inductive Event
  | failed (failure : SocketFailure)
  /-- `connect`, or `secureConnect` with an `authorizationError` -/
  | connected (authorizationError : Option AnyError)
  | tick
  | tunnelled (error : Option AnyError)
  | prepared (nonce : Except AnyError Buffer)
  | replied (response : Except AnyError HandshakeReply)
  | authenticated (error : Option AnyError)
  /-- a timeout of the connection, its end or an error of its messages: whether it destroys the stream, and the error for
  the commands -/
  | issue (destroy : Bool) (err : AnyError)

/-- The socket that is waited for. Only a TLS socket has an `authorizationError`, a socket over the tunnel does not wait
for its event, and a connection that is closed gets no reply. -/
def step (c : Connecting) : Event → Option Connecting
  | .failed failure =>
    match c.stage with
    | .waiting k _ =>
      if failure = .cancel ∧ c.options.cancellationToken = false then none
      else some ((c.updateSocket k fun socket => { socket with listening := false }).fail k
        (connectionFailureError failure))
    | _ => none
  | .connected authorizationError =>
    match c.stage with
    | .waiting k toProxy =>
      if k ∈ c.ticks then none
      else some (c.connectHandler k toProxy
        (authorizationError.filter fun _ => (c.sockets[k]?).any (·.secure)))
    | _ => none
  | .tick =>
    match c.ticks with
    | k :: ticks => some (({ c with ticks } : Connecting).connectHandler k false none)
    | [] => none
  | .tunnelled error =>
    match c.stage, error with
    | .tunnelling _, some err => some (c.callback (.error (connectionFailureError (.error err))))
    | .tunnelling k, none => some (c.tunnelled k)
    | _, _ => none
  | .prepared nonce =>
    match c.stage, nonce with
    | .preparing k, .error err => some (c.refuse k err)
    | .preparing k, .ok nonce => some (c.prepared k nonce)
    | _, _ => none
  | .replied response =>
    if c.closed then none else
      match c.stage, response with
      | .commanding k, .error err => some ((c.answered k).refuse k err)
      | .commanding k, .ok response => some ((c.answered k).replied k response)
      | _, _ => none
  | .authenticated error =>
    match c.stage, error with
    | .authenticating k, some err => some (c.refuse k err)
    | .authenticating k, none => if c.closed then none else some (c.callback (.ok k))
    | _, _ => none
  | .issue destroy err =>
    if c.closed then none else
      match c.stage with
      | .preparing k | .commanding k | .authenticating k => some (c.handleIssue k destroy err)
      | _ => none

end Connecting

end MongoDriver.Cmap
