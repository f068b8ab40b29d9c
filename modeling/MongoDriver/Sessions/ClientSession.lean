/-
Client sessions (`ClientSession` and `applySession` of `src/sessions.ts`). A client session takes a
server session from the pool when one is first read, returns it when it ends, and adds the session
fields to every command. The functions pass the client session and the pool on explicitly; where the
source throws, the state reached so far is returned with the error.
-/
import MongoDriver.Sessions.ServerSession
import MongoDriver.Sessions.Transaction

namespace MongoDriver.Sessions

/-! ## Data -/

/-- `ClientSession`. What a session is pinned to and the cluster time it gossips are left out. -/
structure ClientSession where
  hasEnded : Bool := false
  explicit : Bool := true
  /-- `[kServerSession]` -/
  serverSession : Option Nat := none
  snapshotEnabled : Bool := false
  snapshotTime : Option Nat := none
  causalConsistency : Bool := true
  operationTime : Option Nat := none
  defaultTransactionOptions : TransactionOptions := {}
  clientOptions : TransactionOptions := {}
  transaction : Transaction := {}
deriving DecidableEq

/-- A client session and the pool it shares with others. -/
structure SessionState where
  pool : ServerSessionPool
  session : ClientSession

/-- What is read and written of a command document. A document that comes from the caller may have any
of the fields. -/
structure Command where
  commitTransaction : Bool := false
  abortTransaction : Bool := false
  lsid : Option Nat := none
  txnNumber : Option Nat := none
  autocommit : Option Bool := none
  startTransaction : Option Bool := none
  readConcern : Option ReadConcern := none
  writeConcern : Option WriteConcern := none
  maxTimeMS : Option Nat := none
  recoveryToken : Option Nat := none
  /-- `commandSupportsReadConcern(command, options)` -/
  supportsReadConcern : Bool := false
deriving DecidableEq

/-- The options of a command that its session reads. -/
structure CommandOptions where
  willRetryWrite : Bool := false
  /-- the write concern is `w: 0` -/
  unacknowledged : Bool := false

/-- What the topology tells `startTransaction`. -/
structure Deployment where
  isSharded : Bool := false
  maxWireVersion : Option Nat := none

inductive EndTransactionName
  | commitTransaction
  | abortTransaction
deriving DecidableEq

def isTransactionCommand (command : Command) : Bool := command.commitTransaction || command.abortTransaction

def ClientSession.inTransaction (s : ClientSession) : Bool := s.transaction.state.isActive

/-! ## Errors -/

def expiredSession : AnyError := { cls := .mongoExpiredSessionError, message := "Cannot use a session that has ended" }

def snapshotTransaction : AnyError :=
  { cls := .mongoCompatibilityError, message := "Transactions are not allowed with snapshot sessions" }

def transactionInProgress : AnyError := { cls := .mongoTransactionError, message := "Transaction already in progress" }

def shardedTransaction : AnyError :=
  { cls := .mongoCompatibilityError
    message := "Transactions are not supported on sharded clusters in MongoDB < 4.2." }

def unacknowledgedExplicit : AnyError :=
  { cls := .mongoAPIError, message := "Cannot have explicit session with unacknowledged writes" }

def transactionError (message : String) : AnyError := { cls := .mongoTransactionError, message }

namespace SessionState

variable (env : Env) (s : SessionState)

/-! ## The server session -/

/-- `get serverSession()`: it takes a server session when there is none, whether or not the session has
ended. `id` reads it too. -/
def getServerSession : SessionState × Nat :=
  match s.session.serverSession with
  | some ref => (s, ref)
  | none =>
    ({ pool := (s.pool.acquire env).1, session := { s.session with serverSession := some (s.pool.acquire env).2 } },
      (s.pool.acquire env).2)

/-- `assertAlive(session)`: what the getter returns is never `null`, so that the error is not reached. -/
def assertAlive : SessionState := (s.getServerSession env).1

def modifyServerSession (f : ServerSession → ServerSession) : SessionState :=
  let (s, ref) := s.getServerSession env
  { s with pool := s.pool.modify ref f }

def incrementTransactionNumber : SessionState :=
  s.modifyServerSession env fun x => { x with txnNumber := x.txnNumber + 1 }

/-- The server session is marked dirty after a network error, while the session lives. -/
def markDirty : SessionState :=
  if s.session.hasEnded then s else s.modifyServerSession env fun x => { x with isDirty := true }

/-- `completeEndSession`. -/
def completeEndSession : SessionState :=
  let (s, ref) := s.getServerSession env
  { pool := s.pool.release env ref, session := { s.session with serverSession := none, hasEnded := true } }

/-! ## Transactions -/

def setTransaction (transaction : Transaction) : SessionState := { s with session := { s.session with transaction } }

/-- `options?.x ?? this.defaultTransactionOptions.x ?? this.clientOptions?.x` for each option; the client
has no `maxCommitTimeMS`. -/
def transactionOptions (options : TransactionOptions) : TransactionOptions where
  readConcern := options.readConcern <|> s.session.defaultTransactionOptions.readConcern <|>
    s.session.clientOptions.readConcern
  writeConcern := options.writeConcern <|> s.session.defaultTransactionOptions.writeConcern <|>
    s.session.clientOptions.writeConcern
  maxCommitTimeMS := options.maxCommitTimeMS <|> s.session.defaultTransactionOptions.maxCommitTimeMS

/-- `startTransaction(options)`. The number is incremented before the options are looked at. -/
def startTransaction (deployment : Deployment) (options : TransactionOptions) : SessionState × Except AnyError Unit :=
  if s.session.snapshotEnabled then (s, .error snapshotTransaction)
  else
    let s := s.assertAlive env
    if s.session.inTransaction then (s, .error transactionInProgress)
    else if deployment.isSharded && deployment.maxWireVersion.any (· < 8) then (s, .error shardedTransaction)
    else
      let s := s.incrementTransactionNumber env
      match Transaction.new (s.transactionOptions options) >>= (·.transition .startingTransaction) with
      | .error e => (s, .error e)
      | .ok transaction => (s.setTransaction transaction, .ok ())

/-- What `endTransaction` does before it sends anything: the callback is called, or there is a command
to send. -/
inductive Ending
  | returned (error : Option AnyError)
  | send (command : Command)

/-- The command `endTransaction` sends. A repeated commit asks for a majority. -/
def endCommand (name : EndTransactionName) : Command :=
  let t := s.session.transaction
  let writeConcern := t.writeConcern <|> s.session.clientOptions.writeConcern.map fun wc => { w := wc.w }
  { commitTransaction := name = .commitTransaction
    abortTransaction := name = .abortTransaction
    writeConcern := if t.state = .transactionCommitted then
        let wc := writeConcern.getD {}
        some { wc with w := some (.tag "majority"), wtimeout := wc.wtimeout <|> some 10000 }
      else writeConcern
    maxTimeMS := if name = .commitTransaction then t.maxTimeMS.filter (· ≠ 0) else none
    recoveryToken := t.recoveryToken }

/-- The state is changed without anything being sent. -/
def settle (nextState : TxnState) : SessionState × Ending :=
  match s.session.transaction.transition nextState with
  | .ok transaction => (s.setTransaction transaction, .returned none)
  | .error e => (s, .returned (some e))

/-- `endTransaction` up to its first `executeOperation`. -/
def endTransaction (name : EndTransactionName) : SessionState × Ending :=
  let s := s.assertAlive env
  match s.session.transaction.state, name with
  | .noTransaction, _ => (s, .returned (some (transactionError "No transaction started")))
  | .startingTransaction, .commitTransaction | .transactionCommittedEmpty, .commitTransaction =>
    s.settle .transactionCommittedEmpty
  | .transactionAborted, .commitTransaction =>
    (s, .returned (some (transactionError "Cannot call commitTransaction after calling abortTransaction")))
  | .startingTransaction, .abortTransaction => s.settle .transactionAborted
  | .transactionAborted, .abortTransaction =>
    (s, .returned (some (transactionError "Cannot call abortTransaction twice")))
  | .transactionCommitted, .abortTransaction | .transactionCommittedEmpty, .abortTransaction =>
    (s, .returned (some (transactionError "Cannot call abortTransaction after calling commitTransaction")))
  | .transactionInProgress, _ | .transactionCommitted, .commitTransaction => (s, .send (s.endCommand name))

/-- The command as it is sent the second time. -/
def majorityOnRetry (command : Command) : Command :=
  if command.commitTransaction then
    let wc := command.writeConcern.getD {}
    { command with
      writeConcern := some { wc with w := some (.tag "majority"), wtimeout := wc.wtimeout <|> some 10000 } }
  else command

/-- `commandHandler`: the state it leaves the transaction in, whatever the outcome; the transition may
throw. -/
def commandHandler (name : EndTransactionName) : Except AnyError SessionState :=
  let nextState := match name with
    | .commitTransaction => TxnState.transactionCommitted
    | .abortTransaction => TxnState.transactionAborted
  match s.session.transaction.transition nextState with
  | .ok transaction => .ok (s.setTransaction transaction)
  | .error e => .error e

/-! ## Decorating a command -/

/-- The read concern of a command outside a transaction. -/
def readConcernOutside (command : Command) : Option ReadConcern :=
  match s.session.causalConsistency && command.supportsReadConcern, s.session.operationTime with
  | true, some t => some { command.readConcern.getD {} with afterClusterTime := some t }
  | _, _ =>
    if s.session.snapshotEnabled then
      let rc := command.readConcern.getD { level := some "snapshot" }
      some (match s.session.snapshotTime with
        | some t => { rc with atClusterTime := some t }
        | none => rc)
    else command.readConcern

/-- The read concern of the first command of a transaction. -/
def readConcernStarting (command : Command) : Option ReadConcern :=
  let readConcern := s.session.transaction.readConcern <|> s.session.clientOptions.readConcern <|> command.readConcern
  match s.session.causalConsistency, s.session.operationTime with
  | true, some t => some { readConcern.getD {} with afterClusterTime := some t }
  | _, _ => readConcern

/-- The part of `applySession` for a command in a transaction. -/
def applyTransaction (command : Command) : SessionState × Except AnyError Command :=
  let command := { command with autocommit := some false }
  if s.session.transaction.state = .startingTransaction then
    match s.session.transaction.transition .transactionInProgress with
    | .error e => (s, .error e)
    | .ok transaction => (s.setTransaction transaction,
        .ok { command with startTransaction := some true, readConcern := s.readConcernStarting command })
  else (s, .ok command)

/-- The part of `applySession` for a command outside a transaction. -/
def leaveTransaction (command : Command) : SessionState × Except AnyError Command :=
  let command := { command with readConcern := s.readConcernOutside command }
  if s.session.transaction.state = .noTransaction then (s, .ok command)
  else match s.session.transaction.transition .noTransaction with
    | .error e => (s, .error e)
    | .ok transaction => (s.setTransaction transaction, .ok command)

/-- `applySession(session, command, options)`. -/
def applySession (command : Command) (options : CommandOptions) : SessionState × Except AnyError Command :=
  if s.session.hasEnded then (s, .error expiredSession)
  else
    let (s, ref) := s.getServerSession env
    if options.unacknowledged then
      (s, if s.session.explicit then .error unacknowledgedExplicit else .ok command)
    else
      let s := { s with pool := s.pool.modify ref fun x => { x with lastUse := env.now } }
      let inTransaction := s.session.inTransaction || isTransactionCommand command
      let txnNumber := (s.pool.created[ref]?.map (·.txnNumber)).getD 0
      let command := { command with
        lsid := some ref
        txnNumber := if txnNumber ≠ 0 && (options.willRetryWrite || inTransaction) then some txnNumber
          else command.txnNumber }
      if inTransaction then s.applyTransaction command else s.leaveTransaction command

/-- What `updateSessionFromResponse` reads of a reply. -/
structure ReplyTimes where
  operationTime : Option Nat := none
  recoveryToken : Option Nat := none
  atClusterTime : Option Nat := none

/-- `updateSessionFromResponse(session, document)`, but for the cluster time. -/
def updateSessionFromResponse (reply : ReplyTimes) : SessionState :=
  let t := s.session.transaction
  { s with session := { s.session with
      operationTime := match reply.operationTime with
        | some time => if s.session.causalConsistency && s.session.operationTime.all (· < time) then some time
          else s.session.operationTime
        | none => s.session.operationTime
      transaction := if s.session.inTransaction then { t with recoveryToken := reply.recoveryToken <|> t.recoveryToken }
        else t
      snapshotTime := if s.session.snapshotEnabled then s.session.snapshotTime <|> reply.atClusterTime
        else s.session.snapshotTime } }

end SessionState

end MongoDriver.Sessions
