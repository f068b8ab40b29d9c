/-
What a server does with the outcome of an operation (`makeOperationHandler` of `src/sdam/server.ts`):
which errors get a label, clear the pool, or mark the server unknown. The handler is a function from
the outcome to the effects it has, in order, and the error it passes on.
-/
import MongoDriver.Cmap.Connection
import MongoDriver.Sdam.TopologyDescription

namespace MongoDriver.Sdam

open Cmap (Connection Generations)

/-- The part of a `Server` the handler reads. `loadBalanced` is the type of the topology,
`retryWrites` an option of it. -/
structure Server where
  hostAddress : HostAddress
  description : ServerDescription
  loadBalanced : Bool := false
  retryWrites : Bool := true
  pool : Generations := {}

/-- The state of the session an operation runs in. Its server session always exists: reading it
acquires one. -/
structure SessionState where
  hasEnded : Bool := false
  inTransaction : Bool := false
  isPinned : Bool := false

/-- The operation whose outcome is handled: whether its command ends a transaction, its session and
the connection it used. -/
structure Operation where
  isTransactionCommand : Bool := false
  session : Option SessionState := none
  connection : Connection

inductive ServerEffect
  | markSessionDirty
  | clearPool (serviceId : Option ObjectId)
  | resetMonitor
  | descriptionReceived (sd : ServerDescription)
  | requestCheck
  | unpinSession
deriving DecidableEq

/-- `maxWireVersion(server)`: a load balancer is assumed to front the latest version. A server
carries no `hello` of its own. -/
def maxWireVersion (server : Server) : Int :=
  if server.loadBalanced then maxSupportedWireVersion else server.description.maxWireVersion

/-- `supportsRetryableWrites(server)`. -/
def supportsRetryableWrites (server : Server) : Bool :=
  server.loadBalanced ||
    (server.description.maxWireVersion ≥ 6 && (truthyNum server.description.logicalSessionTimeoutMinutes).isSome &&
      server.description.type ≠ .standalone)

/-- `connectionIsStale(pool, connection)` of the server, which looks at the service alone. -/
def connectionIsStale (pool : Generations) (connection : Connection) : Bool :=
  match connection.serviceId with
  | some sid => some connection.generation ≠ pool.serviceGenerations.get? sid
  | none => connection.generation ≠ pool.generation

/-- `shouldHandleStateChangeError(server, err)`. -/
def shouldHandleStateChangeError (server : Server) (err : AnyError) : Bool :=
  compareTopologyVersion server.description.topologyVersion err.topologyVersion < 0

/-- `inActiveTransaction(session, cmd)`. -/
def inActiveTransaction (op : Operation) : Bool := op.session.any (·.inTransaction) && !op.isTransactionCommand

/-- `markServerUnknown(server, error)`. -/
def markServerUnknown (rt : Runtime) (server : Server) (err : AnyError) : List ServerEffect :=
  if server.loadBalanced then []
  else
    (if err.cls = .mongoNetworkError then [.resetMonitor] else []) ++
      [.descriptionReceived (.new rt server.hostAddress none
        { error := some err, topologyVersion := err.topologyVersion <|> server.description.topologyVersion })]

/-- The branch of a network error. -/
def handleNetworkError (rt : Runtime) (server : Server) (op : Operation) (err : AnyError) :
    List ServerEffect × AnyError :=
  let dirty := if op.session.any (!·.hasEnded) then [.markSessionDirty] else []
  let err := if inActiveTransaction op then err.addErrorLabel "TransientTransactionError" else err
  let err :=
    if (server.retryWrites || op.isTransactionCommand) && supportsRetryableWrites server && !inActiveTransaction op
    then err.addErrorLabel "RetryableWriteError" else err
  let reset :=
    if err.cls ≠ .mongoNetworkTimeoutError ∨ err.isNetworkErrorBeforeHandshake then
      .clearPool op.connection.serviceId :: (if server.loadBalanced then [] else markServerUnknown rt server err)
    else []
  (dirty ++ reset, err)

/-- What a state-change error that is handled leads to. -/
def stateChangeEffects (rt : Runtime) (server : Server) (op : Operation) (err : AnyError) : List ServerEffect :=
  (if maxWireVersion server ≤ 7 ∨ err.isNodeShuttingDownError then [.clearPool op.connection.serviceId] else []) ++
    (if server.loadBalanced then [] else markServerUnknown rt server err ++ [.requestCheck])

/-- The branch of every other error. -/
def handleServerError (rt : Runtime) (server : Server) (op : Operation) (err : AnyError) :
    List ServerEffect × AnyError :=
  let err :=
    if (server.retryWrites || op.isTransactionCommand) && maxWireVersion server < 9 && err.isRetryableWriteError &&
      !inActiveTransaction op then err.addErrorLabel "RetryableWriteError" else err
  if err.isSDAMUnrecoverableError ∧ shouldHandleStateChangeError server err then
    (stateChangeEffects rt server op err, err)
  else ([], err)

/-- `makeOperationHandler`: the effects of an outcome and the error its callback receives. -/
def makeOperationHandler (rt : Runtime) (server : Server) (op : Operation) :
    Option AnyError → List ServerEffect × Option AnyError
  | none => ([], none)
  | some err =>
    if connectionIsStale server.pool op.connection then ([], some err)
    else
      let (effects, err) :=
        if err.isNetworkError then handleNetworkError rt server op err else handleServerError rt server op err
      let unpin :=
        if op.session.any (·.isPinned) && err.hasErrorLabel "TransientTransactionError" then [.unpinSession] else []
      (effects ++ unpin, some err)

/-! ## Labels decide nothing about the server's state -/

section Labels

variable (err : AnyError) (label : String)

@[simp] theorem addErrorLabel_topologyVersion : (err.addErrorLabel label).topologyVersion = err.topologyVersion := by
  unfold AnyError.addErrorLabel; split <;> rfl

@[simp] theorem addErrorLabel_isSDAMUnrecoverableError :
    (err.addErrorLabel label).isSDAMUnrecoverableError = err.isSDAMUnrecoverableError := by
  unfold AnyError.addErrorLabel; split <;> rfl

@[simp] theorem addErrorLabel_isNodeShuttingDownError :
    (err.addErrorLabel label).isNodeShuttingDownError = err.isNodeShuttingDownError := by
  unfold AnyError.addErrorLabel; split <;> rfl

end Labels

end MongoDriver.Sdam
