/-
Pinned connections behind a load balancer. A session is given a connection of its own when a command of a
transaction or of a cursor is sent (`Server.command` of `src/sdam/server.ts`), and gives it up in
`maybeClearPinnedConnection` (`src/sessions.ts`), which the sessions, the cursors, the operations and the
handlers of results call with different options. The calls of the pool are written down in the order they are
made, and so are the events a connection emits when it is pinned and unpinned.
-/
import Mathlib.Logic.Function.Basic
import MongoDriver.Sessions.WithTransaction

namespace MongoDriver.Sessions

/-! ## Sessions and the pool -/

/-- What is read of a `ClientSession` behind a load balancer. -/
structure PinSession where
  pinnedConnection : Option Nat := none
  state : TxnState := .noTransaction
  hasEnded : Bool := false
deriving DecidableEq

namespace PinSession

def inTransaction (s : PinSession) : Bool := s.state.isActive

def isPinned (s : PinSession) : Bool := s.pinnedConnection.isSome

end PinSession

/-- The kinds of pins that `ConnectionPoolMetrics` tells apart. -/
inductive PinType
  | txn
  | cursor
  | other
deriving DecidableEq

/-- The events `PINNED` and `UNPINNED` of a connection. -/
inductive PinEmission
  | pinned (connection : Nat) (pinType : PinType)
  | unpinned (connection : Nat) (pinType : PinType)
deriving DecidableEq

/-- The type that `pin` emits. -/
def TxnState.pinnedAs (state : TxnState) : PinType := if state.isActive then .txn else .cursor

/-- The type that `maybeClearPinnedConnection` emits. -/
def TxnState.unpinnedAs (state : TxnState) : PinType := if state ≠ .noTransaction then .txn else .cursor

/-- A call of the pool, and the pins between them. -/
inductive PoolUse
  | checkOut (connection : Nat)
  | pin (session connection : Nat)
  | checkIn (connection : Nat)
  | clear (connection : Nat)
deriving DecidableEq

/-- Who waits for a connection: a command that pins it to its session, or one that only uses it. -/
inductive Waiter
  | pin (session : Nat)
  | plain
deriving DecidableEq

/-- `EndSessionOptions`, also those of `unpin`. -/
structure EndSessionOptions where
  error : Option AnyError := none
  force : Option Bool := none
  forceClear : Bool := false

/-- A `commitTransaction` or `abortTransaction` that was sent. -/
structure EndingCommand where
  session : Nat
  name : EndTransactionName
  retried : Bool := false
  /-- the `endSession` that sent it -/
  endSession : Option EndSessionOptions := none

/-- The error of a `commitTransaction` or `abortTransaction`. -/
structure EndError extends Rejection where
  codeName : Option String := none

/-- The sessions of a client with the pool of its load balancer. -/
structure PinWorld where
  sessions : Nat → PinSession := fun _ => {}
  /-- the connections in the pool -/
  available : List Nat := []
  /-- the connections that will be destroyed when they are checked in: closed or stale ones -/
  spoiled : List Nat := []
  /-- how many connections were established -/
  created : Nat := 0
  /-- the connections that commands use without pinning them -/
  borrowed : List Nat := []
  waiting : List Waiter := []
  endings : List EndingCommand := []
  uses : List PoolUse := []
  emitted : List PinEmission := []

namespace PinWorld

variable (w : PinWorld)

def setSession (k : Nat) (s : PinSession) : PinWorld := { w with sessions := Function.update w.sessions k s }

/-- The transaction of the session is in another state. -/
def setState (k : Nat) (state : TxnState) : PinWorld := w.setSession k { w.sessions k with state }

def note (use : PoolUse) : PinWorld := { w with uses := w.uses ++ [use] }

def emit (emission : PinEmission) : PinWorld := { w with emitted := w.emitted ++ [emission] }

/-- `checkIn(connection)`. -/
def checkIn (connection : Nat) : PinWorld :=
  let w := w.note (.checkIn connection)
  if w.spoiled.contains connection then w else { w with available := connection :: w.available }

/-! ## Pins -/

def cannotPinMultiple : AnyError :=
  { cls := .typeError, message := "Cannot pin multiple connections to the same session" }

/-- `pin(conn)`. -/
def pin (k connection : Nat) : Except AnyError PinWorld :=
  let s := w.sessions k
  if s.isPinned then .error cannotPinMultiple
  else
    let w := (w.setSession k { s with pinnedConnection := some connection }).note (.pin k connection)
    .ok (w.emit (.pinned connection s.state.pinnedAs))

/-- `maybeClearPinnedConnection(session, options)`. -/
def maybeClearPinnedConnection (k : Nat) (options : EndSessionOptions) : PinWorld :=
  let s := w.sessions k
  if s.inTransaction &&
      options.error.any (fun e => e.isMongoError && e.hasErrorLabel "TransientTransactionError") then w
  else
    match s.pinnedConnection with
    | none => w
    | some connection =>
      let w :=
        if options.error.isNone || options.force = some true then
          let w := (w.checkIn connection).emit (.unpinned connection s.state.unpinnedAs)
          if options.forceClear then w.note (.clear connection) else w
        else w
      w.setSession k { s with pinnedConnection := none }

/-- `unpin(options)`. -/
def unpin (k : Nat) (options : EndSessionOptions) : PinWorld := w.maybeClearPinnedConnection k options

/-! ## Ending a transaction and a session -/

/-- What `endSession` adds to its options. -/
def finalOptions (options : EndSessionOptions) : EndSessionOptions :=
  { options with force := some (options.force.getD true) }

/-- `completeEndSession`. -/
def completeEndSession (k : Nat) (options : EndSessionOptions) : PinWorld :=
  let w := w.maybeClearPinnedConnection k (finalOptions options)
  w.setSession k { w.sessions k with hasEnded := true }

/-- How `endTransaction` begins in a state of the transaction. -/
inductive EndStart
  | refused
  | settled (state : TxnState)
  | sent

def endStart : TxnState → EndTransactionName → EndStart
  | .noTransaction, _ => .refused
  | .startingTransaction, .commitTransaction | .transactionCommittedEmpty, .commitTransaction =>
    .settled .transactionCommittedEmpty
  | .transactionAborted, .commitTransaction => .refused
  | .startingTransaction, .abortTransaction => .settled .transactionAborted
  | .transactionAborted, .abortTransaction => .refused
  | .transactionCommitted, .abortTransaction | .transactionCommittedEmpty, .abortTransaction => .refused
  | .transactionInProgress, _ | .transactionCommitted, .commitTransaction => .sent

/-- `endTransaction(session, commandName)` up to its command. -/
def endTransaction (k : Nat) (name : EndTransactionName) : PinWorld :=
  match endStart (w.sessions k).state name with
  | .refused => w
  | .settled state => w.setState k state
  | .sent => { w with endings := w.endings ++ [{ session := k, name }] }

/-- `endSession(options)`. A transaction is aborted first. -/
def endSession (k : Nat) (options : EndSessionOptions) : PinWorld :=
  let s := w.sessions k
  if s.hasEnded then w.maybeClearPinnedConnection k (finalOptions options)
  else if s.inTransaction then
    match endStart s.state .abortTransaction with
    | .refused => w
    | .settled state => (w.setState k state).completeEndSession k options
    | .sent =>
      { w with endings := w.endings ++ [{ session := k, name := .abortTransaction, endSession := some options }] }
  else w.completeEndSession k options

def nonDeterministicWriteConcernErrors : List String :=
  ["CannotSatisfyWriteConcern", "UnknownReplWriteConcern", "UnsatisfiableWriteConcern"]

def unsatisfiableWriteConcern : Int := 100
def unknownReplWriteConcern : Int := 79

def isUnknownTransactionCommitResult (e : EndError) : Bool :=
  let isNonDeterministicWriteConcernError :=
    (e.error.cls = .mongoServerError || e.error.cls = .mongoWriteConcernError) &&
      e.codeName.any (nonDeterministicWriteConcernErrors.contains ·)
  isMaxTimeMSExpiredError e.toRejection ||
    (!isNonDeterministicWriteConcernError && e.error.code ≠ some unsatisfiableWriteConcern &&
      e.error.code ≠ some unknownReplWriteConcern)

/-- The error that `commandHandler` unpins the session with after a `commitTransaction`. -/
def unpinsWith (e : EndError) : Option AnyError :=
  if e.error.isNetworkError || e.error.cls = .mongoWriteConcernError || e.error.isRetryableError ||
      isMaxTimeMSExpiredError e.toRejection then
    if isUnknownTransactionCommitResult e then some (e.error.addErrorLabel "UnknownTransactionCommitResult") else none
  else if e.error.hasErrorLabel "TransientTransactionError" then some e.error
  else none

/-- `commandHandler`. The transition may throw. -/
def commandHandler (c : EndingCommand) (err : Option EndError) : PinWorld :=
  let state := (w.sessions c.session).state
  match c.name with
  | .abortTransaction =>
    if TxnState.transactionAborted ∈ state.stateMachine then
      let w := w.setState c.session .transactionAborted
      let w := w.maybeClearPinnedConnection c.session { force := some false }
      match c.endSession with
      | some options => w.completeEndSession c.session options
      | none => w
    else w
  | .commitTransaction =>
    if TxnState.transactionCommitted ∈ state.stateMachine then
      let w := w.setState c.session .transactionCommitted
      match err.bind unpinsWith with
      | some e => w.unpin c.session { error := some e }
      | none => w
    else w

/-- The command has come back. It is sent a second time on an error that permits it. -/
def endTransactionDone (c : EndingCommand) (err : Option EndError) : PinWorld :=
  if c.retried then w.commandHandler c err
  else
    let w := if c.name = .abortTransaction then w.unpin c.session {} else w
    if err.any (·.error.hasErrorLabel "RetryableWriteError") then
      let w := if c.name = .commitTransaction then w.unpin c.session { force := some true } else w
      { w with endings := w.endings ++ [{ c with retried := true }] }
    else w.commandHandler c err

/-! ## Commands -/

/-- The commands that `isPinnableCommand` tells apart. -/
inductive CommandName
  | aggregate
  | find
  | getMore
  | listCollections
  | listIndexes
  | other
deriving DecidableEq

def isPinnableCommand (command : CommandName) (s : PinSession) : Bool := s.inTransaction || command ≠ .other

/-- `Server.command` with a session, up to the connection it waits for. A pinned connection is used at once. -/
def command (k : Nat) (command : CommandName) : PinWorld :=
  let s := w.sessions k
  if s.isPinned then w
  else if isPinnableCommand command s then { w with waiting := w.waiting ++ [.pin k] }
  else { w with waiting := w.waiting ++ [.plain] }

/-- The connection a waiter is given: one of the pool, or a new one. -/
inductive Handed
  | available (connection : Nat)
  | created
deriving DecidableEq

/-- The pool gives a connection away. -/
def handOut : Handed → Option (Nat × PinWorld)
  | .available connection =>
    if connection ∈ w.available then
      some (connection, { w with available := w.available.erase connection }.note (.checkOut connection))
    else none
  | .created => some (w.created, { w with created := w.created + 1 }.note (.checkOut w.created))

/-- The callback of `checkOut`. When the session cannot be pinned it throws, and the connection is in no one's hands. -/
def connected (waiter : Waiter) (connection : Nat) : PinWorld :=
  match waiter with
  | .plain => { w with borrowed := connection :: w.borrowed }
  | .pin k =>
    match w.pin k connection with
    | .ok w => w
    | .error _ => w

/-! ## Results of operations -/

/-- The end of `makeOperationHandler`, for an error on a connection that is not stale. -/
def operationFailed (k : Nat) (err : AnyError) : PinWorld :=
  if (w.sessions k).isPinned && err.hasErrorLabel "TransientTransactionError" then
    w.unpin k { force := some true }
  else w

/-- The beginning of `executeWithServerSelection`. -/
def beforeSelection (k : Nat) (bypassPinningCheck : Bool) : PinWorld :=
  let s := w.sessions k
  if s.isPinned && s.state.isCommitted && !bypassPinningCheck then w.unpin k {} else w

/-- The second attempt of an operation that creates a cursor, after a network error. -/
def beforeRetry (k : Nat) (err : AnyError) (cursorCreating : Bool) : PinWorld :=
  let s := w.sessions k
  if err.isNetworkError && s.isPinned && !s.inTransaction && cursorCreating then
    w.unpin k { force := some true, forceClear := true }
  else w

/-- What `cleanupCursor` does with the session of the cursor. -/
def cleanupCursor (k : Nat) (owner : Bool) (error : Option AnyError) : PinWorld :=
  if owner then w.endSession k { error }
  else if !(w.sessions k).inTransaction then w.maybeClearPinnedConnection k { error }
  else w

/-- `startTransaction`. The constructor of the transaction throws on an unacknowledged write concern. -/
def startTransaction (k : Nat) (unacknowledged : Bool) : PinWorld :=
  let s := w.sessions k
  if s.inTransaction then w
  else
    let w := if s.isPinned && s.state.isCommitted then w.unpin k {} else w
    if unacknowledged then w else w.setState k .startingTransaction

/-- The transition `applySession` makes with an acknowledged command of the session. -/
def applySession (k : Nat) (isTransactionCommand : Bool) : PinWorld :=
  let s := w.sessions k
  if s.hasEnded then w
  else
    let next :=
      if s.inTransaction || isTransactionCommand then
        if s.state = .startingTransaction then .transactionInProgress else s.state
      else TxnState.noTransaction
    if next = s.state || next ∈ s.state.stateMachine then w.setState k next else w

/-! ## Events -/

inductive PinEvent
  | command (session : Nat) (command : CommandName)
  /-- the waiter at the position is given a connection -/
  | handOut (position : Nat) (connection : Handed)
  /-- it gets an error instead -/
  | checkOutFailed (position : Nat)
  /-- a command that used a connection without pinning it is done -/
  | checkIn (connection : Nat)
  /-- a connection is closed, or the generation it has is over -/
  | spoil (connection : Nat)
  | operationFailed (session : Nat) (err : AnyError)
  | beforeSelection (session : Nat) (bypassPinningCheck : Bool)
  | beforeRetry (session : Nat) (err : AnyError) (cursorCreating : Bool)
  | cleanupCursor (session : Nat) (owner : Bool) (error : Option AnyError)
  | startTransaction (session : Nat) (unacknowledged : Bool)
  | applySession (session : Nat) (isTransactionCommand : Bool)
  | endTransaction (session : Nat) (name : EndTransactionName)
  /-- the end command at the position has come back -/
  | endTransactionDone (position : Nat) (err : Option EndError)
  | unpin (session : Nat) (options : EndSessionOptions)
  | endSession (session : Nat) (options : EndSessionOptions)

def step (w : PinWorld) : PinEvent → Option PinWorld
  | .command k command => some (w.command k command)
  | .handOut position handed => do
    let waiter ← w.waiting[position]?
    let (connection, w) ← w.handOut handed
    some ({ w with waiting := w.waiting.eraseIdx position }.connected waiter connection)
  | .checkOutFailed position =>
    if position < w.waiting.length then some { w with waiting := w.waiting.eraseIdx position } else none
  | .checkIn connection =>
    if connection ∈ w.borrowed then
      some ({ w with borrowed := w.borrowed.erase connection }.checkIn connection)
    else none
  | .spoil connection => some { w with spoiled := connection :: w.spoiled }
  | .operationFailed k err => some (w.operationFailed k err)
  | .beforeSelection k bypassPinningCheck => some (w.beforeSelection k bypassPinningCheck)
  | .beforeRetry k err cursorCreating => some (w.beforeRetry k err cursorCreating)
  | .cleanupCursor k owner error => some (w.cleanupCursor k owner error)
  | .startTransaction k unacknowledged => some (w.startTransaction k unacknowledged)
  | .applySession k isTransactionCommand => some (w.applySession k isTransactionCommand)
  | .endTransaction k name => some (w.endTransaction k name)
  | .endTransactionDone position err => do
    let c ← w.endings[position]?
    some ({ w with endings := w.endings.eraseIdx position }.endTransactionDone c err)
  | .unpin k options => some (w.unpin k options)
  | .endSession k options => some (w.endSession k options)

end PinWorld

end MongoDriver.Sessions
