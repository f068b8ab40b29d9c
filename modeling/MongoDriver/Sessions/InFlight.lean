/-
Client sessions that share one pool, with the operations in flight on them: `executeOperation` of
`src/operations/execute_operation.ts`, `endTransaction` and `endSession` of `src/sessions.ts`, and the
decoration of each command by `Connection.command` (`src/cmap/connection.ts`). An event is a call that
runs to its next wait. What waits is a program of `Operations.Execute` that asks for a server or for the
outcome of an attempt; during an attempt commands are decorated and written. The transaction a command is
for is remembered as it follows from the calls made, apart from the state the code keeps.
-/
import MongoDriver.Sessions.ClientSession
import MongoDriver.Operations.Execute

namespace MongoDriver.Sessions

open Operations (AbstractOperation ExecutionSession Outcome Prog RetryOptions executeWithServerSelection)
open Sdam (Server)

/-! ## State -/

/-- What the calls of an event read of the topology. -/
structure Surroundings extends Env where
  deployment : Deployment := {}
  shouldCheckForSessionSupport : Bool := false
  hasSessionSupport : Bool := true
  supportsSnapshotReads : Bool := true
  retryOptions : RetryOptions := {}
  isPinned : Bool := false

/-- A transaction as its caller sees it: which one it is, the number its server session had when it was
started, and whether it was committed or aborted since. -/
structure Started where
  txn : Nat
  txnNumber : Nat
  closed : Bool := false
deriving DecidableEq

structure Client where
  session : ClientSession
  /-- the transaction started last -/
  started : Option Started := none
deriving DecidableEq

/-- Where an `executeOperation` is: it waits for a server that tells whether sessions are supported, or
it runs. -/
inductive Stage
  | checking (op : AbstractOperation)
  | running (prog : Prog Unit)

/-- What an `executeOperation` is for. An `endTransaction` sends a command, at most twice, and may be part
of `endSession`. -/
inductive Purpose
  | operation
  | endTransaction (name : EndTransactionName) (command : Command) (retried endSession : Bool)

structure Flight where
  client : Nat
  purpose : Purpose
  options : CommandOptions := {}
  /-- the transaction the operation is part of -/
  txn : Option Nat
  stage : Stage := .running .done

/-- The command of an attempt: an operation sends its own. -/
def Flight.command (f : Flight) (command : Command) : Command :=
  match f.purpose with
  | .operation => command
  | .endTransaction _ command _ _ => command

/-- A command handed to the socket. `supported` says whether its connection supports sessions. -/
structure Sent where
  client : Nat
  flight : Nat
  txn : Option Nat
  options : CommandOptions
  supported : Bool
  command : Command

/-- A call of `startTransaction` and what it threw. -/
structure StartCall where
  hasEnded : Bool
  result : Except AnyError Unit

structure World where
  pool : ServerSessionPool := {}
  clients : List Client := []
  flights : List Flight := []
  sent : List Sent := []
  starts : List StartCall := []
  /-- how many transactions were started -/
  txns : Nat := 0

/-! ## Programs -/

def expiredUse : AnyError :=
  { cls := .mongoExpiredSessionError, message := "Use of expired sessions is not permitted" }

def snapshotUnsupported : AnyError :=
  { cls := .mongoCompatibilityError, message := "Snapshot reads require MongoDB 5.0 or later" }

def sessionsUnsupported : AnyError :=
  { cls := .mongoCompatibilityError, message := "Current topology does not support sessions" }

/-- What is read of the session in `executeWithServerSelection`. -/
def Surroundings.view (env : Surroundings) (s : ClientSession) : ExecutionSession where
  inTransaction := s.inTransaction
  isPinned := env.isPinned
  isCommitted := s.transaction.state.isCommitted

/-- Run a program to its next wait, and tell whether the write became retryable on the way. -/
def advance (view : ExecutionSession) : Prog Unit → Bool × Prog Unit
  | .readSession next => advance view (next view)
  | .unpin _ next => advance view next
  | .willRetryWrite next => (true, (advance view next).2)
  | p => (false, p)

/-- `executeOperation` with a session, once session support is known. -/
def executeOperation (env : Surroundings) (s : ClientSession) (op : AbstractOperation) : Prog Unit :=
  if !env.hasSessionSupport then .callback { error := some sessionsUnsupported } .done
  else if s.hasEnded then .callback { error := some expiredUse } .done
  else if s.snapshotEnabled && !env.supportsSnapshotReads then .callback { error := some snapshotUnsupported } .done
  else executeWithServerSelection env.retryOptions (some (env.view s)) op

/-- The `RunAdminCommandOperation` of `endTransaction`. -/
def endOperation : AbstractOperation where
  readPreference := some "primary"
  bypassPinningCheck := true

def isRetryableEndTransactionError (o : Outcome Unit) : Bool := o.error.any (·.hasErrorLabel "RetryableWriteError")

namespace World

variable (env : Surroundings) (w : World)

def stateOf (c : Nat) : Option SessionState := w.clients[c]?.map fun x => ⟨w.pool, x.session⟩

def put (c : Nat) (s : SessionState) : World :=
  { w with pool := s.pool, clients := w.clients.modify c fun x => { x with session := s.session } }

def mark (c : Nat) (f : Option Started → Option Started) : World :=
  { w with clients := w.clients.modify c fun x => { x with started := f x.started } }

def setFlight (i : Nat) (f : Flight) : World := { w with flights := w.flights.set i f }

/-- The flight has called back. -/
def land (i : Nat) (f : Flight) : World := w.setFlight i { f with stage := .running .done }

/-! ## An operation in flight -/

/-- The last callback: of the operation, or `commandHandler` and what `endSession` does after it. When
the transition throws, nothing follows. -/
def finish (i : Nat) (f : Flight) : World :=
  match f.purpose, w.stateOf f.client with
  | .endTransaction name _ _ endSession, some s =>
    match s.commandHandler name with
    | .error _ => w.land i f
    | .ok s => (w.put f.client (if endSession then s.completeEndSession env.toEnv else s)).land i f
  | _, _ => w.land i f

/-- Run a flight to its next wait; `callback` is what its callback does. -/
def resumeWith (callback : World → Flight → Outcome Unit → World) (i : Nat) (f : Flight) (p : Prog Unit) : World :=
  match w.stateOf f.client with
  | none => w
  | some s =>
    let (willRetryWrite, p') := advance (env.view s.session) p
    let w := if willRetryWrite then w.put f.client (s.incrementTransactionNumber env.toEnv) else w
    let f := { f with options := { f.options with willRetryWrite := f.options.willRetryWrite || willRetryWrite } }
    match p' with
    | .callback o _ => callback w f o
    | p' => w.setFlight i { f with stage := .running p' }

/-- Start an `executeOperation`. -/
def enterWith (callback : World → Flight → Outcome Unit → World) (i : Nat) (f : Flight) (op : AbstractOperation) :
    World :=
  match w.stateOf f.client with
  | none => w
  | some s =>
    if env.shouldCheckForSessionSupport then w.setFlight i { f with stage := .checking op }
    else w.resumeWith env callback i f (executeOperation env s.session op)

/-- The callback of a flight. The command of an `endTransaction` is sent once more after a retryable
error. -/
def complete (i : Nat) (f : Flight) (o : Outcome Unit) : World :=
  match f.purpose with
  | .endTransaction name command false endSession =>
    if isRetryableEndTransactionError o then
      w.enterWith env (fun w f _ => w.finish env i f) i
        { f with purpose := .endTransaction name (SessionState.majorityOnRetry command) true endSession } endOperation
    else w.finish env i f
  | _ => w.finish env i f

def resume (i : Nat) (f : Flight) (p : Prog Unit) : World := w.resumeWith env (fun w f o => w.complete env i f o) i f p

/-- A new flight. -/
def launch (f : Flight) (op : AbstractOperation) : World :=
  let i := w.flights.length
  { w with flights := w.flights ++ [f] }.enterWith env (fun w f o => w.complete env i f o) i f op

/-! ## Commands -/

/-- The connection of an attempt: whether it supports sessions, and whether the command that it is given
is written to the socket. -/
structure Connection where
  hasSessionSupport : Bool := true
  writes : Bool := true

/-- `write`: the pause manager reads the id of the session first. -/
def write (i : Nat) (f : Flight) (s : SessionState) (command : Command) (conn : Connection) : World :=
  let w := w.put f.client (s.getServerSession env.toEnv).1
  if conn.writes then
    { w with sent := w.sent ++ [⟨f.client, i, f.txn, f.options, conn.hasSessionSupport, command⟩] }
  else w

/-- `Connection.command`. -/
def command (i : Nat) (f : Flight) (s : SessionState) (command : Command) (conn : Connection) : World :=
  if conn.hasSessionSupport then
    match s.applySession env.toEnv command f.options with
    | (s, .error _) => w.put f.client s
    | (s, .ok command) => w.write env i f s command conn
  else w.write env i f s command conn

/-! ## Calls on a client session -/

/-- `commitTransaction`, `abortTransaction`, and the latter for `endSession`. -/
def endTransaction (c : Nat) (x : Client) (name : EndTransactionName) (endSession : Bool) : World :=
  match SessionState.endTransaction env.toEnv ⟨w.pool, x.session⟩ name with
  | (s, .returned (some _)) => w.put c s
  | (s, .returned none) =>
    let w := w.mark c (·.map ({ · with closed := true }))
    w.put c (if endSession then s.completeEndSession env.toEnv else s)
  | (s, .send command) =>
    let w := (w.put c s).mark c (·.map ({ · with closed := true }))
    w.launch env
      { client := c
        purpose := .endTransaction name command false endSession
        txn := x.started.map (·.txn) }
      endOperation

/-- `endSession`. -/
def endSession (c : Nat) (x : Client) : World :=
  if x.session.hasEnded then w
  else if x.session.inTransaction then w.endTransaction env c x .abortTransaction true
  else w.put c (SessionState.completeEndSession env.toEnv ⟨w.pool, x.session⟩)

end World

/-! ## Events -/

/-- `ClientSessionOptions`. -/
structure ClientSessionOptions where
  explicit : Bool := true
  snapshot : Bool := false
  causalConsistency : Option Bool := none
  defaultTransactionOptions : TransactionOptions := {}

def snapshotAndCausal : AnyError :=
  { cls := .mongoInvalidArgumentError
    message := "Properties \"causalConsistency\" and \"snapshot\" are mutually exclusive" }

/-- The constructor of `ClientSession`. -/
def ClientSession.new (options : ClientSessionOptions) (clientOptions : TransactionOptions) :
    Except AnyError ClientSession :=
  if options.snapshot && options.causalConsistency = some true then .error snapshotAndCausal
  else .ok {
    explicit := options.explicit
    snapshotEnabled := options.snapshot
    causalConsistency := !options.snapshot && options.causalConsistency ≠ some false
    defaultTransactionOptions := options.defaultTransactionOptions
    clientOptions }

/-- What can happen. A call that cannot be made in a state is no step of it. -/
inductive Action
  | startSession (options : ClientSessionOptions) (clientOptions : TransactionOptions)
  /-- `session.id` or `session.serverSession` -/
  | read (c : Nat)
  /-- `session.equals(other)` -/
  | equals (c d : Nat)
  | startTransaction (c : Nat) (options : TransactionOptions)
  | endTransaction (c : Nat) (name : EndTransactionName)
  | endSession (c : Nat)
  | executeOperation (c : Nat) (op : AbstractOperation) (unacknowledged : Bool)
  /-- session support is known, or the selection for it failed -/
  | checked (i : Nat) (result : Except AnyError Unit)
  | selected (i : Nat) (result : Except AnyError Server)
  | command (i : Nat) (command : Command) (conn : World.Connection)
  | outcome (i : Nat) (outcome : Outcome Unit)
  | networkError (c : Nat)
  | response (c : Nat) (reply : SessionState.ReplyTimes)
  /-- `endAllPooledSessions`, when the server has answered -/
  | endAllPooledSessions

structure Event where
  env : Surroundings := {}
  action : Action

/-- The transaction a call on the session is part of. -/
def Client.openTxn (x : Client) : Option Nat := (x.started.filter (!·.closed)).map (·.txn)

namespace World

variable (env : Surroundings) (w : World)

/-- Another transaction is started. -/
def beginTxn (c txnNumber : Nat) : World :=
  { w.mark c (fun _ => some { txn := w.txns, txnNumber }) with txns := w.txns + 1 }

/-- `startTransaction`. -/
def startTransaction (c : Nat) (x : Client) (options : TransactionOptions) : World :=
  let (s, result) := SessionState.startTransaction env.toEnv ⟨w.pool, x.session⟩ env.deployment options
  let w := { w.put c s with starts := w.starts ++ [⟨x.session.hasEnded, result⟩] }
  match result with
  | .error _ => w
  | .ok _ => w.beginTxn c ((s.session.serverSession.bind (s.pool.created[·]?)).elim 0 (·.txnNumber))

/-- One event. -/
def step (w : World) (e : Event) : Option World :=
  match e.action with
  | .startSession options clientOptions =>
    match ClientSession.new options clientOptions with
    | .error _ => some w
    | .ok session => some { w with clients := w.clients ++ [{ session }] }
  | .read c => (w.stateOf c).map fun s => w.put c (s.getServerSession e.env.toEnv).1
  | .equals c d => do
    let s ← w.stateOf c
    let w := w.put c (s.getServerSession e.env.toEnv).1
    let s ← w.stateOf d
    some (w.put d (s.getServerSession e.env.toEnv).1)
  | .startTransaction c options => w.clients[c]?.map fun x => w.startTransaction e.env c x options
  | .endTransaction c name => w.clients[c]?.map fun x => w.endTransaction e.env c x name false
  | .endSession c => w.clients[c]?.map fun x => w.endSession e.env c x
  | .executeOperation c op unacknowledged => w.clients[c]?.map fun x =>
      w.launch e.env { client := c, purpose := .operation, options := { unacknowledged }, txn := x.openTxn } op
  | .checked i result => do
    let f ← w.flights[i]?
    let s ← w.stateOf f.client
    match f.stage, result with
    | .checking _, .error err => some (w.complete e.env i f { error := some err })
    | .checking op, .ok _ => some (w.resume e.env i f (executeOperation e.env s.session op))
    | .running _, _ => none
  | .selected i result => do
    let f ← w.flights[i]?
    match f.stage with
    | .running (.selectServer _ next) => some (w.resume e.env i f (next result))
    | _ => none
  | .command i command conn => do
    let f ← w.flights[i]?
    let s ← w.stateOf f.client
    match f.stage with
    | .running (.execute _ _) => some (w.command e.env i f s (f.command command) conn)
    | _ => none
  | .outcome i o => do
    let f ← w.flights[i]?
    match f.stage with
    | .running (.execute _ next) => some (w.resume e.env i f (next o))
    | _ => none
  | .networkError c => (w.stateOf c).map fun s => w.put c (s.markDirty e.env.toEnv)
  | .response c reply => (w.stateOf c).map fun s => w.put c (s.updateSessionFromResponse reply)
  | .endAllPooledSessions => some { w with pool := { w.pool with sessions := [] } }

/-- What an event finds and what it leaves, by its action. -/
inductive Steps (w : World) : Event → World → Prop
  | refused {env : Surroundings} {options clientOptions err}
    (hnew : ClientSession.new options clientOptions = .error err) :
    Steps w ⟨env, .startSession options clientOptions⟩ w
  | startSession {env : Surroundings} {options clientOptions session}
    (hnew : ClientSession.new options clientOptions = .ok session) :
    Steps w ⟨env, .startSession options clientOptions⟩ { w with clients := w.clients ++ [{ session }] }
  | read {env : Surroundings} {c s} (hs : w.stateOf c = some s) :
    Steps w ⟨env, .read c⟩ (w.put c (s.getServerSession env.toEnv).1)
  | equals {env : Surroundings} {c d s s'} (hs : w.stateOf c = some s)
    (hs' : (w.put c (s.getServerSession env.toEnv).1).stateOf d = some s') :
    Steps w ⟨env, .equals c d⟩
      ((w.put c (s.getServerSession env.toEnv).1).put d (s'.getServerSession env.toEnv).1)
  | startTransaction {env : Surroundings} {c options x} (hx : w.clients[c]? = some x) :
    Steps w ⟨env, .startTransaction c options⟩ (w.startTransaction env c x options)
  | endTransaction {env : Surroundings} {c name x} (hx : w.clients[c]? = some x) :
    Steps w ⟨env, .endTransaction c name⟩ (w.endTransaction env c x name false)
  | endSession {env : Surroundings} {c x} (hx : w.clients[c]? = some x) :
    Steps w ⟨env, .endSession c⟩ (w.endSession env c x)
  | executeOperation {env : Surroundings} {c op unacknowledged x} (hx : w.clients[c]? = some x) :
    Steps w ⟨env, .executeOperation c op unacknowledged⟩
      (w.launch env { client := c, purpose := .operation, options := { unacknowledged }, txn := x.openTxn } op)
  | unchecked {env : Surroundings} {i err f s op} (hf : w.flights[i]? = some f) (hs : w.stateOf f.client = some s)
    (hstage : f.stage = .checking op) :
    Steps w ⟨env, .checked i (.error err)⟩ (w.complete env i f { error := some err })
  | checked {env : Surroundings} {i f s op} (hf : w.flights[i]? = some f) (hs : w.stateOf f.client = some s)
    (hstage : f.stage = .checking op) :
    Steps w ⟨env, .checked i (.ok ())⟩ (w.resume env i f (executeOperation env s.session op))
  | selected {env : Surroundings} {i result f selector next} (hf : w.flights[i]? = some f)
    (hstage : f.stage = .running (.selectServer selector next)) :
    Steps w ⟨env, .selected i result⟩ (w.resume env i f (next result))
  | command {env : Surroundings} {i command conn f s server next} (hf : w.flights[i]? = some f)
    (hs : w.stateOf f.client = some s) (hstage : f.stage = .running (.execute server next)) :
    Steps w ⟨env, .command i command conn⟩ (w.command env i f s (f.command command) conn)
  | outcome {env : Surroundings} {i o f server next} (hf : w.flights[i]? = some f)
    (hstage : f.stage = .running (.execute server next)) :
    Steps w ⟨env, .outcome i o⟩ (w.resume env i f (next o))
  | networkError {env : Surroundings} {c s} (hs : w.stateOf c = some s) :
    Steps w ⟨env, .networkError c⟩ (w.put c (s.markDirty env.toEnv))
  | response {env : Surroundings} {c reply s} (hs : w.stateOf c = some s) :
    Steps w ⟨env, .response c reply⟩ (w.put c (s.updateSessionFromResponse reply))
  | endAllPooledSessions {env : Surroundings} :
    Steps w ⟨env, .endAllPooledSessions⟩ { w with pool := { w.pool with sessions := [] } }

theorem step_steps {w w' : World} {e : Event} (hstep : w.step e = some w') : Steps w e w' := by
  obtain ⟨env, action⟩ := e
  cases action with
  | startSession options clientOptions =>
    simp only [step] at hstep
    split at hstep
    · rename_i hnew
      cases hstep
      exact .refused hnew
    · rename_i hnew
      cases hstep
      exact .startSession hnew
  | read c =>
    obtain ⟨s, hs, rfl⟩ := Option.map_eq_some_iff.1 hstep
    exact .read hs
  | equals c d =>
    simp only [step, Option.bind_eq_bind, Option.bind_eq_some_iff, Option.some.injEq] at hstep
    obtain ⟨s, hs, s', hs', rfl⟩ := hstep
    exact .equals hs hs'
  | startTransaction c options =>
    obtain ⟨x, hx, rfl⟩ := Option.map_eq_some_iff.1 hstep
    exact .startTransaction hx
  | endTransaction c name =>
    obtain ⟨x, hx, rfl⟩ := Option.map_eq_some_iff.1 hstep
    exact .endTransaction hx
  | endSession c =>
    obtain ⟨x, hx, rfl⟩ := Option.map_eq_some_iff.1 hstep
    exact .endSession hx
  | executeOperation c op unacknowledged =>
    obtain ⟨x, hx, rfl⟩ := Option.map_eq_some_iff.1 hstep
    exact .executeOperation hx
  | checked i result =>
    simp only [step, Option.bind_eq_bind, Option.bind_eq_some_iff] at hstep
    obtain ⟨f, hf, s, hs, hstep⟩ := hstep
    split at hstep
    · rename_i hstage
      cases hstep
      exact .unchecked hf hs hstage
    · rename_i hstage
      cases hstep
      exact .checked hf hs hstage
    · cases hstep
  | selected i result =>
    simp only [step, Option.bind_eq_bind, Option.bind_eq_some_iff] at hstep
    obtain ⟨f, hf, hstep⟩ := hstep
    split at hstep
    · rename_i hstage
      cases hstep
      exact .selected hf hstage
    · cases hstep
  | command i command conn =>
    simp only [step, Option.bind_eq_bind, Option.bind_eq_some_iff] at hstep
    obtain ⟨f, hf, s, hs, hstep⟩ := hstep
    split at hstep
    · rename_i hstage
      cases hstep
      exact .command hf hs hstage
    · cases hstep
  | outcome i o =>
    simp only [step, Option.bind_eq_bind, Option.bind_eq_some_iff] at hstep
    obtain ⟨f, hf, hstep⟩ := hstep
    split at hstep
    · rename_i hstage
      cases hstep
      exact .outcome hf hstage
    · cases hstep
  | networkError c =>
    obtain ⟨s, hs, rfl⟩ := Option.map_eq_some_iff.1 hstep
    exact .networkError hs
  | response c reply =>
    obtain ⟨s, hs, rfl⟩ := Option.map_eq_some_iff.1 hstep
    exact .response hs
  | endAllPooledSessions =>
    cases hstep
    exact .endAllPooledSessions

end World

end MongoDriver.Sessions
