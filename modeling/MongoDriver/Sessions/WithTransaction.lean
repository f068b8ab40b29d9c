/-
`withTransaction` (`src/sessions.ts`): a lambda runs between `startTransaction` and `commitTransaction`, and either is
repeated as the labels of the errors permit. What the lambda does with the session are events of their own, so
that here a `withTransaction` is what it waits for and the calls it makes when a promise settles.
-/
import MongoDriver.Sessions.InFlight

namespace MongoDriver.Sessions

/-! ## Deciding what to call next -/

/-- Why a promise was rejected. -/
structure Rejection where
  error : AnyError
  /-- `err.writeConcernError.code` -/
  writeConcernErrorCode : Option Int := none
deriving DecidableEq

def maxTimeMSExpired : Int := 50

def isMaxTimeMSExpiredError (r : Rejection) : Bool :=
  (r.error.cls = .mongoServerError || r.error.cls = .mongoWriteConcernError) &&
    (r.error.code = some maxTimeMSExpired || r.writeConcernErrorCode = some maxTimeMSExpired)

/-- `userExplicitlyEndedTransaction(session)`. -/
def userExplicitlyEndedTransaction (s : ClientSession) : Bool :=
  s.transaction.state = .noTransaction || s.transaction.state = .transactionCommitted ||
    s.transaction.state = .transactionAborted

/-- The promise a `withTransaction` waits for. -/
inductive Awaiting
  | lambda
  | commit
  /-- the lambda failed for this reason -/
  | abort (reason : Rejection)

/-- What it does when the promise settles. -/
inductive Next
  | attemptTransaction
  | attemptTransactionCommit
  | abortTransaction (reason : Rejection)
  | settle (error : Option Rejection)

def maybeRetryOrThrow (hasNotTimedOut : Bool) (r : Rejection) : Next :=
  if r.error.isMongoError && r.error.hasErrorLabel "TransientTransactionError" && hasNotTimedOut then
    .attemptTransaction
  else if isMaxTimeMSExpiredError r then
    .settle (some { r with error := r.error.addErrorLabel "UnknownTransactionCommitResult" })
  else .settle (some r)

/-- The handler of `attemptTransactionCommit`. -/
def commitRejected (hasNotTimedOut : Bool) (r : Rejection) : Next :=
  if r.error.isMongoError && hasNotTimedOut && !isMaxTimeMSExpiredError r then
    if r.error.hasErrorLabel "UnknownTransactionCommitResult" then .attemptTransactionCommit
    else if r.error.hasErrorLabel "TransientTransactionError" then .attemptTransaction
    else .settle (some r)
  else .settle (some r)

def Awaiting.next (s : ClientSession) (hasNotTimedOut : Bool) : Awaiting → Except Rejection Unit → Next
  | .lambda, .ok _ => if userExplicitlyEndedTransaction s then .settle none else .attemptTransactionCommit
  | .lambda, .error r => if s.inTransaction then .abortTransaction r else maybeRetryOrThrow hasNotTimedOut r
  | .commit, .ok _ => .settle none
  | .commit, .error r => commitRejected hasNotTimedOut r
  | .abort reason, .ok _ => maybeRetryOrThrow hasNotTimedOut reason
  | .abort _, .error r => .settle (some r)

/-! ## Calls of `withTransaction` among others -/

/-- A call of `withTransaction`; it has settled when it waits for nothing. -/
structure Attempt where
  client : Nat
  options : TransactionOptions
  awaiting : Option Awaiting

/-- Client sessions and the calls of `withTransaction` on them. -/
structure System where
  world : World := {}
  attempts : List Attempt := []

inductive SystemAction
  | session (action : Action)
  | withTransaction (c : Nat) (options : TransactionOptions)
  /-- the lambda returned no promise -/
  | notPromise (k : Nat)
  | settled (k : Nat) (result : Except Rejection Unit) (hasNotTimedOut : Bool)

structure SystemEvent where
  env : Surroundings := {}
  action : SystemAction

namespace System

variable (s : System)

/-- The attempt `k`, what it waits for and its session. -/
def waiting (k : Nat) : Option (Attempt × Awaiting × ClientSession) := do
  let attempt ← s.attempts[k]?
  let awaiting ← attempt.awaiting
  let x ← s.world.clients[attempt.client]?
  some (attempt, awaiting, x.session)

/-- The attempt `k`, when its lambda has just been called. -/
def called (k : Nat) : Option Attempt := do
  let (attempt, awaiting, _) ← s.waiting k
  match awaiting with
  | .lambda => some attempt
  | _ => none

/-- The call on a session that follows. -/
def nextAction (attempt : Attempt) : Next → Option Action
  | .attemptTransaction => some (.startTransaction attempt.client attempt.options)
  | .attemptTransactionCommit => some (.endTransaction attempt.client .commitTransaction)
  | .abortTransaction _ => some (.endTransaction attempt.client .abortTransaction)
  | .settle _ => none

/-- The call on a session that an event makes. -/
def call (e : SystemEvent) : Option Event :=
  match e.action with
  | .session action => some ⟨e.env, action⟩
  | .withTransaction c options => some ⟨e.env, .startTransaction c options⟩
  | .notPromise k => (s.called k).map fun attempt => ⟨e.env, .endTransaction attempt.client .abortTransaction⟩
  | .settled k result hasNotTimedOut =>
    (s.waiting k).bind fun p => (nextAction p.1 (p.2.1.next p.2.2 hasNotTimedOut result)).map fun a => ⟨e.env, a⟩

/-- The `startTransaction` made last did not throw. -/
def started (w : World) : Bool := w.starts.getLast?.all fun call => call.result.isOk

/-- What an attempt waits for after its call. -/
def awaits (w : World) : Next → Option Awaiting
  | .attemptTransaction => if started w then some .lambda else none
  | .attemptTransactionCommit => some .commit
  | .abortTransaction reason => some (.abort reason)
  | .settle _ => none

/-- The attempts after an event that has left the sessions as in `w`. -/
def attemptsAfter (w : World) (e : SystemEvent) : Option (List Attempt) :=
  match e.action with
  | .session _ => some s.attempts
  | .withTransaction c options => some (if started w then s.attempts ++ [⟨c, options, some .lambda⟩] else s.attempts)
  | .notPromise k => (s.called k).map fun attempt => s.attempts.set k { attempt with awaiting := none }
  | .settled k result hasNotTimedOut => (s.waiting k).map fun p =>
      s.attempts.set k { p.1 with awaiting := awaits w (p.2.1.next p.2.2 hasNotTimedOut result) }

/-- The sessions after an event. -/
def worldAfter (e : SystemEvent) : Option World :=
  match s.call e with
  | some call => s.world.step call
  | none => some s.world

/-- One event: the call it makes, and what an attempt waits for then. -/
def step (e : SystemEvent) : Option System := do
  let world ← s.worldAfter e
  let attempts ← s.attemptsAfter world e
  some { world, attempts }

/-- What an event does to the sessions is one of their events, or nothing. -/
theorem step_world {s s' : System} {e : SystemEvent} (h : s.step e = some s') :
    (∃ call, s.call e = some call ∧ s.world.step call = some s'.world) ∨ s.call e = none ∧ s'.world = s.world := by
  unfold step at h
  simp only [Option.bind_eq_bind, Option.bind_eq_some_iff, Option.some.injEq] at h
  obtain ⟨world, hworld, attempts, -, rfl⟩ := h
  unfold worldAfter at hworld
  cases hcall : s.call e with
  | none =>
    rw [hcall] at hworld
    cases hworld
    exact .inr ⟨rfl, rfl⟩
  | some call =>
    rw [hcall] at hworld
    exact .inl ⟨call, rfl, hworld⟩

end System

end MongoDriver.Sessions
