/-
One call of `withTransaction` from its beginning until the promise it returned settles (`attemptTransaction` and
`attemptTransactionCommit` of `src/sessions.ts`). The promises of its own `commitTransaction` and `abortTransaction`
settle when the commands that these send come back. Meanwhile the lambda, and what it has left running, sends
commands, ends the transaction or the session, and answers come in any order. That a promise has settled and that the
handlers of it run are different events, with others between them.
-/
import MongoDriver.Base.Run
import MongoDriver.Sessions.Pinning
import MongoDriver.Sessions.Transitions

namespace MongoDriver.Sessions

/-! ## State -/

def maxWithTransactionTimeout : Nat := 120000

def hasNotTimedOut (env : Env) (startTime : Nat) : Bool :=
  calculateDurationInMs env.now startTime < maxWithTransactionTimeout

/-- Who called `commitTransaction` or `abortTransaction`: the loops of `withTransaction`, or the user, perhaps by
`endSession`. -/
inductive Caller
  | driver
  | user (endSession : Bool)
deriving DecidableEq

/-- A `commitTransaction` or `abortTransaction` that was sent. -/
structure PendingEnd where
  name : EndTransactionName
  caller : Caller
  retried : Bool := false

/-- Its name, when it is a command of the loops. -/
def PendingEnd.mine (p : PendingEnd) : Option EndTransactionName := if p.caller = .driver then some p.name else none

/-- Where a call of `withTransaction` is: it waits for a promise, the promise has settled and the handlers will run, or
the promise that was returned is settled. -/
inductive Stance
  | awaiting (promise : Awaiting)
  | reacting (promise : Awaiting) (result : Except Rejection Unit)
  | settled (result : Except Rejection Unit)

/-- A call of `withTransaction`, its session, and what became of the transaction. -/
structure TransactionCall where
  state : SessionState
  startTime : Nat
  options : TransactionOptions := {}
  stance : Stance := .awaiting .lambda
  pending : List PendingEnd := []
  /-- the error the lambda or the commit ended with last -/
  failure : Option Rejection := none
  /-- how often the lambda was run -/
  runs : Nat := 1
  /-- how often `commitTransaction` was called since -/
  commits : Nat := 0
  /-- a command was sent in the transaction -/
  begun : Bool := false
  /-- its `commitTransaction` was answered without an error -/
  committed : Bool := false
  /-- it was ended by the user -/
  userEnded : Bool := false

/-- The error of a `commitTransaction`, with the label that `commandHandler` adds. -/
def commitError (e : EndError) : Rejection :=
  if (e.error.isNetworkError || e.error.cls = .mongoWriteConcernError || e.error.isRetryableError ||
      isMaxTimeMSExpiredError e.toRejection) && PinWorld.isUnknownTransactionCommitResult e then
    { e.toRejection with error := e.error.addErrorLabel "UnknownTransactionCommitResult" }
  else e.toRejection

/-- What `commandHandler` calls back with: the errors of an `abortTransaction` are ignored. -/
def endResult : EndTransactionName → Option EndError → Except Rejection Unit
  | .commitTransaction, some e => .error (commitError e)
  | .commitTransaction, none => .ok ()
  | .abortTransaction, _ => .ok ()

namespace TransactionCall

variable (env : Env) (u : TransactionCall)

def inTransaction : Bool := u.state.session.inTransaction

/-! ## The calls of the loops -/

/-- A promise that was waited for has settled. -/
def resolved (promise : Awaiting) (result : Except Rejection Unit) : TransactionCall :=
  { u with
    stance := .reacting promise result
    failure := match promise, result with
      | .lambda, .error r | .commit, .error r => some r
      | _, _ => u.failure }

/-- `attemptTransaction` up to the promise of the lambda. What `startTransaction` throws rejects the promise. -/
def attemptTransaction (deployment : Deployment) : TransactionCall :=
  match u.state.startTransaction env deployment u.options with
  | (s, .error e) => { u with state := s, stance := .settled (.error { error := e }) }
  | (s, .ok _) =>
    { u with
      state := s, stance := .awaiting .lambda, runs := u.runs + 1, commits := 0
      begun := false, committed := false, userEnded := false }

/-- `commitTransaction()` or `abortTransaction()` of the loops, up to the promise. -/
def endTransaction (name : EndTransactionName) (promise : Awaiting) : TransactionCall :=
  match u.state.endTransaction env name with
  | (s, .returned none) => { u with state := s }.resolved promise (.ok ())
  | (s, .returned (some e)) => { u with state := s }.resolved promise (.error { error := e })
  | (s, .send _) =>
    { u with state := s, stance := .awaiting promise, pending := u.pending ++ [{ name, caller := .driver }] }

/-- What the handlers of a promise do. -/
def proceed (deployment : Deployment) : Next → TransactionCall
  | .attemptTransaction => u.attemptTransaction env deployment
  | .attemptTransactionCommit => { u with commits := u.commits + 1 }.endTransaction env .commitTransaction .commit
  | .abortTransaction reason => u.endTransaction env .abortTransaction (.abort reason)
  | .settle none => { u with stance := .settled (.ok ()) }
  | .settle (some r) => { u with stance := .settled (.error r) }

/-! ## The calls of the user -/

/-- `startTransaction` of the user. -/
def userStarts (deployment : Deployment) (options : TransactionOptions) : TransactionCall :=
  match u.state.startTransaction env deployment options with
  | (s, .error _) => { u with state := s }
  | (s, .ok _) => { u with state := s, begun := false, committed := false, userEnded := false }

/-- `commitTransaction` and `abortTransaction` of the user, and the latter for `endSession`. -/
def userEnds (name : EndTransactionName) (endSession : Bool) : TransactionCall :=
  match u.state.endTransaction env name with
  | (s, .returned none) =>
    { u with state := if endSession then s.completeEndSession env else s, userEnded := true }
  | (s, .returned (some _)) => { u with state := s }
  | (s, .send _) => { u with state := s, pending := u.pending ++ [{ name, caller := .user endSession }] }

def endSession : TransactionCall :=
  if u.state.session.hasEnded then u
  else if u.inTransaction then u.userEnds env .abortTransaction true
  else { u with state := u.state.completeEndSession env }

/-- A command of the session is decorated. -/
def command (command : Command) (options : CommandOptions) : TransactionCall :=
  let s := (u.state.applySession env command options).1
  { u with state := s, begun := u.begun || s.session.transaction.state = .transactionInProgress }

/-! ## Answers -/

/-- `commandHandler`. When the transition throws, nothing follows. -/
def handle (p : PendingEnd) (err : Option EndError) : TransactionCall :=
  match u.state.commandHandler p.name with
  | .error _ => u
  | .ok s =>
    match p.caller, u.stance with
    | .user endSession, _ =>
      { u with state := if endSession then s.completeEndSession env else s, userEnded := true }
    | .driver, .awaiting promise =>
      let acknowledged := p.name = .commitTransaction && err.isNone
      { u with state := s, committed := u.committed || acknowledged }.resolved promise (endResult p.name err)
    | .driver, _ => { u with state := s }

/-- The command has come back. It is sent a second time on an error that permits it. -/
def answered (i : Nat) (p : PendingEnd) (err : Option EndError) : TransactionCall :=
  if !p.retried && err.any (·.error.hasErrorLabel "RetryableWriteError") then
    { u with pending := u.pending.set i { p with retried := true } }
  else { u with pending := u.pending.eraseIdx i }.handle env p err

end TransactionCall

/-! ## Events -/

inductive CallAction
  /-- the promise of the lambda settles -/
  | lambda (result : Except Rejection Unit)
  /-- the handlers of the promise that was waited for run -/
  | react (deployment : Deployment)
  /-- the command at the position is answered -/
  | answer (i : Nat) (err : Option EndError)
  | startTransaction (deployment : Deployment) (options : TransactionOptions)
  | endTransaction (name : EndTransactionName)
  | endSession
  | command (command : Command) (options : CommandOptions)
  /-- `session.id` or `session.serverSession` -/
  | read
  | incrementTransactionNumber
  | networkError
  | response (reply : SessionState.ReplyTimes)
  /-- other sessions use the pool -/
  | others (pool : ServerSessionPool)

structure CallEvent where
  env : Env := {}
  action : CallAction

/-- The loops wait for the lambda, or have not yet seen that it is done. -/
def Stance.ofLambda : Stance → Bool
  | .awaiting .lambda | .reacting .lambda _ => true
  | _ => false

namespace TransactionCall

/-- `withTransaction(fn, options)` up to the promise of the first run of the lambda. -/
def withTransaction (env : Env) (s : SessionState) (deployment : Deployment) (options : TransactionOptions) :
    Except AnyError TransactionCall :=
  match s.startTransaction env deployment options with
  | (_, .error e) => .error e
  | (s, .ok _) => .ok { state := s, startTime := env.now, options }

/-- One event. The user starts a transaction only in the lambda. -/
def step (u : TransactionCall) (e : CallEvent) : Option TransactionCall :=
  match e.action with
  | .lambda result =>
    match u.stance with
    | .awaiting .lambda => some (u.resolved .lambda result)
    | _ => none
  | .react deployment =>
    match u.stance with
    | .reacting promise result =>
      some (u.proceed e.env deployment
        (promise.next u.state.session (hasNotTimedOut e.env u.startTime) result))
    | _ => none
  | .answer i err => u.pending[i]?.map fun p => u.answered e.env i p err
  | .startTransaction deployment options =>
    if u.stance.ofLambda then some (u.userStarts e.env deployment options) else none
  | .endTransaction name => some (u.userEnds e.env name false)
  | .endSession => some (u.endSession e.env)
  | .command command options => some (u.command e.env command options)
  | .read => some { u with state := (u.state.getServerSession e.env).1 }
  | .incrementTransactionNumber => some { u with state := u.state.incrementTransactionNumber e.env }
  | .networkError => some { u with state := u.state.markDirty e.env }
  | .response reply => some { u with state := u.state.updateSessionFromResponse reply }
  | .others pool => some { u with state := { u.state with pool } }

/-! ## What an event does -/

/-- The state of the transaction. -/
def txn (u : TransactionCall) : TxnState := u.state.session.transaction.state

theorem inTransaction_eq (u : TransactionCall) : u.inTransaction = u.txn.isActive := rfl

/-- The commands of the loops that are not answered yet. -/
def calls (u : TransactionCall) : List EndTransactionName := u.pending.filterMap PendingEnd.mine

/-- How the user, and what the lambda has left running, moves the transaction: the state, that a command was sent, and
that the user has ended it. -/
inductive Moves (state : TxnState) (begun ended : Bool) : TxnState → Bool → Bool → Prop
  | stays {begun' : Bool} (h : begun' = begun ∨ state = .transactionInProgress) :
      Moves state begun ended state begun' ended
  | begins (h : state = .startingTransaction) : Moves state begun ended .transactionInProgress true ended
  | leaves (h : state.isActive = false) : Moves state begun ended .noTransaction begun ended
  | ends {state' : TxnState} (h : state'.isActive = false)
      (hempty : state' = .transactionCommittedEmpty →
        state = .startingTransaction ∨ state = .transactionCommittedEmpty) :
      Moves state begun ended state' begun true

section Moves

variable {state state' : TxnState} {begun ended begun' ended' : Bool}

/-- Outside of a transaction nothing starts one, and no command is sent in it. -/
theorem Moves.quiet (h : Moves state begun ended state' begun' ended') (hout : state.isActive = false) :
    state'.isActive = false ∧ begun' = begun := by
  cases h with
  | stays h =>
    rcases h with h | h
    · exact ⟨hout, h⟩
    · rw [h] at hout
      cases hout
  | begins h =>
    rw [h] at hout
    cases hout
  | leaves => exact ⟨rfl, rfl⟩
  | ends h => exact ⟨h, rfl⟩

/-- A transaction is open until the user ends it. -/
theorem Moves.accounted (h : Moves state begun ended state' begun' ended') (he : state.isActive = true ∨ ended = true) :
    state'.isActive = true ∨ ended' = true := by
  cases h with
  | stays => exact he
  | begins => exact .inl rfl
  | leaves h =>
    right
    rcases he with he | he
    · rw [h] at he
      cases he
    · exact he
  | ends => exact .inr rfl

theorem Moves.mono (h : Moves state begun ended state' begun' ended') (he : ended = true) : ended' = true := by
  cases h with
  | stays => exact he
  | begins => exact he
  | leaves => exact he
  | ends => rfl

theorem Moves.empty (h : Moves state begun ended state' begun' ended')
    (he : state = .startingTransaction ∨ state = .transactionCommittedEmpty → begun = false)
    (hstate : state' = .startingTransaction ∨ state' = .transactionCommittedEmpty) : begun' = false := by
  cases h with
  | stays h =>
    rcases h with h | h
    · rw [h]
      exact he hstate
    · rw [h] at hstate
      rcases hstate with hstate | hstate <;> cases hstate
  | begins => rcases hstate with hstate | hstate <;> cases hstate
  | leaves => rcases hstate with hstate | hstate <;> cases hstate
  | ends h hempty =>
    rcases hstate with hstate | hstate
    · rw [hstate] at h
      cases h
    · exact he (hempty hstate)

end Moves

/-- An event that the loops do not notice. -/
structure Aside (u v : TransactionCall) : Prop where
  stance : v.stance = u.stance
  startTime : v.startTime = u.startTime
  failure : v.failure = u.failure
  runs : v.runs = u.runs
  commits : v.commits = u.commits
  committed : v.committed = u.committed
  calls : v.calls.Sublist u.calls
  moves : Moves u.txn u.begun u.userEnded v.txn v.begun v.userEnded

/-- The user has started another transaction. -/
structure Restarted (u v : TransactionCall) : Prop where
  stance : v.stance = u.stance
  startTime : v.startTime = u.startTime
  failure : v.failure = u.failure
  runs : v.runs = u.runs
  commits : v.commits = u.commits
  calls : v.calls = u.calls
  txn : v.txn = .startingTransaction
  begun : v.begun = false

section Events

variable {env : Env} {u : TransactionCall} {s : SessionState}

theorem state_of_phase {s s' : SessionState} (h : s'.session.phase = s.session.phase) :
    s'.session.transaction.state = s.session.transaction.state := congrArg Prod.snd h

/-- The session is changed, but not the state of its transaction. -/
theorem aside_phase (h : s.session.phase = u.state.session.phase) : Aside u { u with state := s } where
  stance := rfl
  startTime := rfl
  failure := rfl
  runs := rfl
  commits := rfl
  committed := rfl
  calls := .refl _
  moves := by
    have hstate : ({ u with state := s } : TransactionCall).txn = u.txn := state_of_phase h
    rw [hstate]
    exact .stays (.inl rfl)

theorem completed_phase (env : Env) (s : SessionState) (endSession : Bool) :
    (if endSession then s.completeEndSession env else s).session.phase = s.session.phase := by
  cases endSession with
  | true => exact SessionState.completeEndSession_phase env s
  | false => rfl

/-- The user has ended the transaction. -/
theorem aside_ends {state : TxnState} (endSession : Bool) (hs : s.session.transaction.state = state)
    (hout : state.isActive = false)
    (hempty : state = .transactionCommittedEmpty →
      u.txn = .startingTransaction ∨ u.txn = .transactionCommittedEmpty) :
    Aside u { u with state := if endSession then s.completeEndSession env else s, userEnded := true } where
  stance := rfl
  startTime := rfl
  failure := rfl
  runs := rfl
  commits := rfl
  committed := rfl
  calls := .refl _
  moves := by
    have hstate := (state_of_phase (completed_phase env s endSession)).trans hs
    unfold txn
    rw [hstate]
    exact .ends hout hempty

theorem userEnds_aside (env : Env) (u : TransactionCall) (name : EndTransactionName) (endSession : Bool) :
    Aside u (u.userEnds env name endSession) := by
  unfold userEnds
  rcases SessionState.endTransaction_phase env u.state name with
    ⟨s, err, heq, -, hphase, -⟩ | ⟨s, state, heq, hphase, hbefore, hafter⟩ | ⟨s, heq, hphase, -⟩
  · rw [heq]
    exact aside_phase hphase
  · rw [heq]
    refine aside_ends endSession (congrArg Prod.snd hphase) ?_ fun _ => ?_
    · rcases hafter with rfl | rfl <;> rfl
    · exact hbefore.imp_right And.left
  · rw [heq]
    have ha : Aside u { u with state := s } := aside_phase hphase
    refine { ha with calls := ?_ }
    simp [calls, PendingEnd.mine]

theorem endSession_aside (env : Env) (u : TransactionCall) : Aside u (u.endSession env) := by
  unfold endSession
  split
  · exact aside_phase rfl
  · split
    · exact userEnds_aside env u _ _
    · exact aside_phase (SessionState.completeEndSession_phase env u.state)

theorem command_aside (env : Env) (u : TransactionCall) (command : Command) (options : CommandOptions) :
    Aside u (u.command env command options) where
  stance := rfl
  startTime := rfl
  failure := rfl
  runs := rfl
  commits := rfl
  committed := rfl
  calls := .refl _
  moves := by
    obtain ⟨-, state, hdec, hphase⟩ := SessionState.applySession_phase env u.state command options
    have hstate : (u.state.applySession env command options).1.session.transaction.state = state :=
      congrArg Prod.snd hphase
    simp only [TransactionCall.command, txn, hstate]
    cases hdec with
    | stays =>
      refine .stays ?_
      by_cases hprogress : u.state.session.transaction.state = .transactionInProgress
      · exact .inr hprogress
      · simp [hprogress]
    | begins h =>
      rw [decide_eq_true rfl, Bool.or_true]
      exact .begins h
    | leaves _ hout _ =>
      rw [decide_eq_false (by decide), Bool.or_false]
      exact .leaves hout

theorem userStarts_cases (env : Env) (u : TransactionCall) (deployment : Deployment) (options : TransactionOptions) :
    Aside u (u.userStarts env deployment options) ∨ Restarted u (u.userStarts env deployment options) := by
  unfold userStarts
  rcases SessionState.startTransaction_phase env u.state deployment options with
    ⟨err, hres, -, hphase, -⟩ | ⟨hres, -, -, hphase⟩
  · left
    split
    · rename_i s _ heq
      rw [heq] at hphase
      exact aside_phase hphase
    · rename_i s _ heq
      rw [heq] at hres
      cases hres
  · right
    split
    · rename_i s _ heq
      rw [heq] at hres
      cases hres
    · rename_i s _ heq
      rw [heq] at hphase
      exact ⟨rfl, rfl, rfl, rfl, rfl, rfl, congrArg Prod.snd hphase, rfl⟩

/-- The calls of the loops before and after an answer. -/
theorem calls_split {i : Nat} {p : PendingEnd} (q : PendingEnd) (hp : u.pending[i]? = some p) :
    ∃ before after, u.calls = before ++ p.mine.toList ++ after ∧
      (u.pending.eraseIdx i).filterMap PendingEnd.mine = before ++ after ∧
      (u.pending.set i q).filterMap PendingEnd.mine = before ++ q.mine.toList ++ after := by
  obtain ⟨hi, hp⟩ := List.getElem?_eq_some_iff.1 hp
  have hsplit : u.pending = u.pending.take i ++ p :: u.pending.drop (i + 1) := by
    rw [← hp, List.getElem_cons_drop, List.take_append_drop]
  have hcons : ∀ (x : PendingEnd) (l : List PendingEnd),
      (x :: l).filterMap PendingEnd.mine = x.mine.toList ++ l.filterMap PendingEnd.mine := by
    intro x l
    rw [List.filterMap_cons]
    cases x.mine with
    | none => rfl
    | some name => rfl
  refine ⟨(u.pending.take i).filterMap PendingEnd.mine, (u.pending.drop (i + 1)).filterMap PendingEnd.mine, ?_, ?_, ?_⟩
  · unfold calls
    conv_lhs => rw [hsplit]
    rw [List.filterMap_append, hcons, List.append_assoc]
  · rw [List.eraseIdx_eq_take_drop_succ, List.filterMap_append]
  · rw [List.set_eq_take_append_cons_drop, if_pos hi, List.filterMap_append, hcons, List.append_assoc]

theorem handler_target {name : EndTransactionName} (h : u.state.commandHandler name = .ok s) :
    s.session.transaction.state = name.target := by
  rcases SessionState.commandHandler_phase u.state name with ⟨-, s', heq, hphase⟩ | ⟨-, heq⟩
  · rw [h] at heq
    cases heq
    exact congrArg Prod.snd hphase
  · rw [h] at heq
    cases heq

theorem target_inactive (name : EndTransactionName) :
    name.target.isActive = false ∧ name.target ≠ .transactionCommittedEmpty := by
  cases name with
  | commitTransaction => exact ⟨rfl, by decide⟩
  | abortTransaction => exact ⟨rfl, by decide⟩

end Events

end TransactionCall

/-! ## The loops keep account -/

/-- The command that settles the promise. -/
def Awaiting.ends : Awaiting → Option EndTransactionName
  | .lambda => none
  | .commit => some .commitTransaction
  | .abort _ => some .abortTransaction

namespace Stance

/-- The command that the loops wait for. -/
def ends : Stance → Option EndTransactionName
  | .awaiting promise => promise.ends
  | _ => none

/-- The transaction is over, as far as the loops know. -/
def done : Stance → Bool
  | .awaiting _ | .reacting .lambda _ => false
  | .reacting _ _ | .settled _ => true

/-- The promise that was returned is fulfilled, or about to be. -/
def fulfils : Stance → Bool
  | .reacting .commit (.ok _) | .settled (.ok _) => true
  | _ => false

/-- The error that the loops deal with. -/
def reason : Stance → Option Rejection
  | .reacting .lambda (.error r) | .reacting .commit (.error r) => some r
  | .awaiting (.abort r) | .reacting (.abort r) _ => some r
  | _ => none

theorem done_of_fulfils {stance : Stance} (h : stance.fulfils = true) : stance.done = true := by
  cases stance with
  | awaiting promise => cases h
  | reacting promise result =>
    cases promise with
    | lambda => cases h
    | commit => rfl
    | abort r => rfl
  | settled result => rfl

theorem not_done_of_lambda {stance : Stance} (h : stance.ofLambda = true) : stance.done = false := by
  cases stance with
  | awaiting promise => rfl
  | reacting promise result =>
    cases promise with
    | lambda => rfl
    | commit => cases h
    | abort r => cases h
  | settled result => cases h

end Stance

namespace TransactionCall

/-- The transaction was committed, or nothing was sent in it, or the user has ended it. -/
def Accomplished (u : TransactionCall) : Prop := u.committed = true ∨ u.begun = false ∨ u.userEnded = true

/-- What holds between any two events. -/
structure Steady (u : TransactionCall) : Prop where
  calls : u.calls.Sublist u.stance.ends.toList
  lambda : u.stance.ofLambda = true → u.inTransaction = true ∨ u.userEnded = true
  first : u.stance.ofLambda = true → u.commits = 0
  done : u.stance.done = true → u.inTransaction = false
  fulfils : u.stance.fulfils = true → u.Accomplished
  empty : u.txn = .startingTransaction ∨ u.txn = .transactionCommittedEmpty → u.begun = false
  reason : ∀ r ∈ u.stance.reason, u.failure = some r

section Steady

variable {env : Env} {u v : TransactionCall}

theorem Steady.aside (h : u.Steady) (ha : Aside u v) : v.Steady where
  calls := by
    rw [ha.stance]
    exact ha.calls.trans h.calls
  lambda := by
    rw [ha.stance]
    exact fun hl => ha.moves.accounted (h.lambda hl)
  first := by
    rw [ha.stance, ha.commits]
    exact h.first
  done := by
    rw [ha.stance]
    exact fun ho => (ha.moves.quiet (h.done ho)).1
  fulfils := by
    rw [ha.stance]
    intro hf
    have hout := h.done (Stance.done_of_fulfils hf)
    rcases h.fulfils hf with hc | hb | hu
    · exact .inl (ha.committed.trans hc)
    · exact .inr (.inl ((ha.moves.quiet hout).2.trans hb))
    · exact .inr (.inr (ha.moves.mono hu))
  empty := ha.moves.empty h.empty
  reason := by
    rw [ha.stance, ha.failure]
    exact h.reason

theorem Steady.restarted (h : u.Steady) (hl : u.stance.ofLambda = true) (hr : Restarted u v) : v.Steady where
  calls := by
    rw [hr.stance, hr.calls]
    exact h.calls
  lambda _ := .inl (by rw [inTransaction_eq, hr.txn]; rfl)
  first := by
    rw [hr.stance, hr.commits]
    exact h.first
  done := by
    rw [hr.stance, Stance.not_done_of_lambda hl]
    exact fun ho => (by cases ho)
  fulfils := by
    rw [hr.stance]
    intro hf
    have hdone := Stance.done_of_fulfils hf
    rw [Stance.not_done_of_lambda hl] at hdone
    cases hdone
  empty _ := hr.begun
  reason := by
    rw [hr.stance, hr.failure]
    exact h.reason

theorem calls_nil (h : u.Steady) (hends : u.stance.ends = none) : u.calls = [] := by
  have hcalls := h.calls
  rw [hends] at hcalls
  exact List.sublist_nil.1 hcalls

/-- The promise of the lambda settles. -/
theorem Steady.lambda_resolved (h : u.Steady) (hstance : u.stance = .awaiting .lambda)
    (result : Except Rejection Unit) : (u.resolved .lambda result).Steady where
  calls := by
    show u.calls.Sublist _
    rw [calls_nil h (by rw [hstance]; rfl)]
    exact List.nil_sublist _
  lambda _ := h.lambda (by rw [hstance]; rfl)
  first _ := h.first (by rw [hstance]; rfl)
  done ho := (by cases ho)
  fulfils hf := (by cases hf)
  empty := h.empty
  reason := by
    intro r hr
    cases result with
    | error r' => exact hr
    | ok => cases hr

/-- The promise of a `commitTransaction` or `abortTransaction` settles; then the transaction is over. -/
theorem end_resolved {promise : Awaiting} {name : EndTransactionName} {result : Except Rejection Unit}
    (hname : promise.ends = some name) (hcalls : u.calls = []) (hout : u.inTransaction = false)
    (hfulfils : promise = .commit → result = .ok () → u.Accomplished)
    (hempty : u.txn = .startingTransaction ∨ u.txn = .transactionCommittedEmpty → u.begun = false)
    (hreason : ∀ r ∈ (Stance.awaiting promise).reason, u.failure = some r) : (u.resolved promise result).Steady where
  calls := by
    show u.calls.Sublist _
    rw [hcalls]
    exact List.nil_sublist _
  lambda hl := by
    cases promise with
    | lambda => cases hname
    | commit => cases hl
    | abort r => cases hl
  first hl := by
    cases promise with
    | lambda => cases hname
    | commit => cases hl
    | abort r => cases hl
  done _ := hout
  fulfils hf := by
    cases promise with
    | lambda => cases hname
    | abort r => cases hf
    | commit =>
      cases result with
      | error r => cases hf
      | ok => exact hfulfils rfl rfl
  empty := hempty
  reason r hr := by
    cases promise with
    | lambda => cases hname
    | commit =>
      cases result with
      | error r' => exact hr
      | ok => cases hr
    | abort reason => exact hreason r hr

/-- `commitTransaction` or `abortTransaction` of the loops, after whose promise they wait. -/
theorem end_called {name : EndTransactionName} {promise : Awaiting} (hname : promise.ends = some name)
    (hcalls : u.calls = [])
    (hempty : u.txn = .startingTransaction ∨ u.txn = .transactionCommittedEmpty → u.begun = false)
    (hreason : ∀ r ∈ (Stance.awaiting promise).reason, u.failure = some r) :
    (u.endTransaction env name promise).Steady := by
  unfold TransactionCall.endTransaction
  rcases SessionState.endTransaction_phase env u.state name with
    ⟨s, err, heq, -, hphase, hout⟩ | ⟨s, state, heq, hphase, hbefore, hafter⟩ | ⟨s, heq, hphase, -⟩
  · rw [heq]
    have hstate : ({ u with state := s } : TransactionCall).txn = u.txn := state_of_phase hphase
    refine end_resolved hname hcalls ?_ (fun _ hok => (by cases hok)) ?_ hreason
    · rw [inTransaction_eq, hstate]
      exact hout
    · rw [hstate]
      exact hempty
  · rw [heq]
    have hstate : ({ u with state := s } : TransactionCall).txn = state := congrArg Prod.snd hphase
    -- nothing was sent in a transaction that ends without a command
    have hnothing : u.begun = false := hempty (hbefore.imp_right And.left)
    refine end_resolved hname hcalls ?_ (fun _ _ => .inr (.inl hnothing)) (fun _ => hnothing) hreason
    rw [inTransaction_eq, hstate]
    rcases hafter with rfl | rfl <;> rfl
  · rw [heq]
    have hstate : s.session.transaction.state = u.txn := state_of_phase hphase
    refine ⟨?_, ?_, ?_, fun ho => (by cases ho), fun hf => (by cases hf), ?_, hreason⟩
    · have hnil : u.pending.filterMap PendingEnd.mine = [] := hcalls
      simp [TransactionCall.calls, hnil, PendingEnd.mine, Stance.ends, hname]
    · cases promise with
      | lambda => cases hname
      | commit => exact fun hl => (by cases hl)
      | abort r => exact fun hl => (by cases hl)
    · cases promise with
      | lambda => cases hname
      | commit => exact fun hl => (by cases hl)
      | abort r => exact fun hl => (by cases hl)
    · intro hin
      exact hempty (by rw [← hstate]; exact hin)

/-- The lambda is run again, or what `startTransaction` throws rejects the promise. -/
theorem Steady.attemptTransaction (h : u.Steady) (hcalls : u.calls = []) (hout : u.inTransaction = false)
    (deployment : Deployment) : (u.attemptTransaction env deployment).Steady := by
  unfold TransactionCall.attemptTransaction
  rcases SessionState.startTransaction_phase env u.state deployment u.options with
    ⟨err, hres, -, hphase, -⟩ | ⟨hres, -, -, hphase⟩
  · split
    · rename_i s err' heq
      rw [heq] at hphase
      have hstate : s.session.transaction.state = u.txn := state_of_phase hphase
      refine ⟨?_, fun hl => (by cases hl), fun hl => (by cases hl), fun _ => ?_, fun hf => (by cases hf), ?_,
        fun r hr => (by cases hr)⟩
      · show u.calls.Sublist _
        rw [hcalls]
        exact List.nil_sublist _
      · show s.session.transaction.state.isActive = false
        rw [hstate]
        exact hout
      · intro hin
        exact h.empty (by rw [← hstate]; exact hin)
    · rename_i s _ heq
      rw [heq] at hres
      cases hres
  · split
    · rename_i s _ heq
      rw [heq] at hres
      cases hres
    · rename_i s _ heq
      rw [heq] at hphase
      have hstate : s.session.transaction.state = .startingTransaction := congrArg Prod.snd hphase
      refine ⟨?_, fun _ => .inl ?_, fun _ => rfl, fun ho => (by cases ho), fun hf => (by cases hf), fun _ => rfl,
        fun r hr => (by cases hr)⟩
      · show u.calls.Sublist _
        rw [hcalls]
        exact List.nil_sublist _
      · show s.session.transaction.state.isActive = true
        rw [hstate]
        rfl

theorem Steady.settle (h : u.Steady) (hcalls : u.calls = []) (hout : u.inTransaction = false)
    {result : Except Rejection Unit} (hfulfils : result = .ok () → u.Accomplished) :
    ({ u with stance := .settled result } : TransactionCall).Steady where
  calls := by
    show u.calls.Sublist _
    rw [hcalls]
    exact List.nil_sublist _
  lambda hl := (by cases hl)
  first hl := (by cases hl)
  done _ := hout
  fulfils hf := by
    cases result with
    | error r => cases hf
    | ok => exact hfulfils rfl
  empty := h.empty
  reason r hr := (by cases hr)

/-- A command of the loops is the one that they wait for, and there is no other. -/
theorem Steady.call (h : u.Steady) {i : Nat} {p : PendingEnd} (hp : u.pending[i]? = some p)
    (hmine : p.caller = .driver) : ∃ promise, u.stance = .awaiting promise ∧ promise.ends = some p.name ∧
      (u.pending.eraseIdx i).filterMap PendingEnd.mine = [] := by
  obtain ⟨before, after, hcalls, herase, -⟩ := calls_split p hp
  have hname : p.mine = some p.name := if_pos hmine
  have hsub := h.calls
  rw [hcalls, hname] at hsub
  cases hstance : u.stance with
  | awaiting promise =>
    rw [hstance] at hsub
    cases hends : promise.ends with
    | none => simp [Stance.ends, hends] at hsub
    | some name =>
      have hlen := hsub.length_le
      simp only [Stance.ends, hends, Option.toList_some, List.length_append, List.length_singleton] at hlen
      have hbefore : before = [] := List.eq_nil_of_length_eq_zero (by omega)
      have hafter : after = [] := List.eq_nil_of_length_eq_zero (by omega)
      rw [hbefore, hafter] at hsub herase
      simp only [Stance.ends, hends, Option.toList_some, List.nil_append, List.append_nil,
        List.singleton_sublist, List.mem_singleton] at hsub
      exact ⟨promise, rfl, by rw [hends, hsub], herase⟩
  | reacting promise result => simp [hstance, Stance.ends] at hsub
  | settled result => simp [hstance, Stance.ends] at hsub

/-- The answer is that to a command of the loops, whose promise settles, or they do not notice it. -/
theorem answered_cases (h : u.Steady) {i : Nat} {p : PendingEnd} (err : Option EndError)
    (hp : u.pending[i]? = some p) : Aside u (u.answered env i p err) ∨
      ∃ promise s, u.stance = .awaiting promise ∧ promise.ends = some p.name ∧
        (u.pending.eraseIdx i).filterMap PendingEnd.mine = [] ∧ s.session.transaction.state = p.name.target ∧
        u.answered env i p err = TransactionCall.resolved
          { u with
            pending := u.pending.eraseIdx i, state := s
            committed := u.committed || (decide (p.name = .commitTransaction) && err.isNone) }
          promise (endResult p.name err) := by
  obtain ⟨before, after, hcalls, herase, hset⟩ := calls_split { p with retried := true } hp
  have hfewer : ((u.pending.eraseIdx i).filterMap PendingEnd.mine).Sublist u.calls := by
    rw [herase, hcalls, List.append_assoc]
    exact (List.Sublist.refl before).append (List.sublist_append_right ..)
  unfold TransactionCall.answered
  split
  · refine .inl ⟨rfl, rfl, rfl, rfl, rfl, rfl, ?_, .stays (.inl rfl)⟩
    show ((u.pending.set i _).filterMap PendingEnd.mine).Sublist u.calls
    rw [hset, hcalls]
    exact .refl _
  · unfold handle
    cases hhandler : SessionState.commandHandler u.state p.name with
    | error e =>
      simp only
      exact .inl ⟨rfl, rfl, rfl, rfl, rfl, rfl, hfewer, .stays (.inl rfl)⟩
    | ok s =>
      have htarget := handler_target hhandler
      obtain ⟨hout, hempty⟩ := target_inactive p.name
      simp only
      cases hcaller : p.caller with
      | user endSession =>
        left
        have hends : Aside u { u with
            state := if endSession then s.completeEndSession env else s, userEnded := true } :=
          aside_ends endSession htarget hout fun he => absurd he hempty
        exact { hends with calls := hfewer }
      | driver =>
        right
        obtain ⟨promise, hstance, hname, hnil⟩ := h.call hp hcaller
        refine ⟨promise, s, hstance, hname, hnil, htarget, ?_⟩
        simp only [hstance]

theorem Steady.answered (h : u.Steady) {i : Nat} {p : PendingEnd} (err : Option EndError)
    (hp : u.pending[i]? = some p) : (u.answered env i p err).Steady := by
  rcases answered_cases h err hp with ha | ⟨promise, s, hstance, hname, hnil, htarget, heq⟩
  · exact h.aside ha
  · obtain ⟨hout, hempty⟩ := target_inactive p.name
    rw [heq]
    refine end_resolved hname hnil ?_ (fun hcommit hok => ?_) (fun hin => ?_) ?_
    · show s.session.transaction.state.isActive = false
      rw [htarget]
      exact hout
    · rw [hcommit] at hname
      have hcommitName : p.name = .commitTransaction := (Option.some.inj hname).symm
      rw [hcommitName] at hok
      left
      cases err with
      | some e => cases hok
      | none => simp [hcommitName]
    · replace hin : p.name.target = .startingTransaction ∨ p.name.target = .transactionCommittedEmpty := by
        rw [← htarget]
        exact hin
      rcases hin with hin | hin
      · rw [hin] at hout
        cases hout
      · exact absurd hin hempty
    · rw [← hstance]
      exact h.reason

theorem Steady.maybeRetryOrThrow (h : u.Steady) (hcalls : u.calls = []) (hout : u.inTransaction = false)
    (deployment : Deployment) (hasNotTimedOut : Bool) (r : Rejection) :
    (u.proceed env deployment (Sessions.maybeRetryOrThrow hasNotTimedOut r)).Steady := by
  unfold Sessions.maybeRetryOrThrow
  split
  · exact h.attemptTransaction hcalls hout deployment
  · split
    · exact h.settle hcalls hout fun hok => (by cases hok)
    · exact h.settle hcalls hout fun hok => (by cases hok)

/-- `attemptTransactionCommit`. -/
theorem Steady.commit (h : u.Steady) (hcalls : u.calls = []) (deployment : Deployment) :
    (u.proceed env deployment .attemptTransactionCommit).Steady :=
  end_called (u := { u with commits := u.commits + 1 }) rfl hcalls h.empty fun r hr => (by cases hr)

/-- The handlers of a promise run. -/
theorem Steady.proceed (h : u.Steady) {promise : Awaiting} {result : Except Rejection Unit}
    (hstance : u.stance = .reacting promise result) (deployment : Deployment) (hasNotTimedOut : Bool) :
    (u.proceed env deployment (promise.next u.state.session hasNotTimedOut result)).Steady := by
  have hcalls : u.calls = [] := calls_nil h (by rw [hstance]; rfl)
  cases promise with
  | lambda =>
    cases result with
    | ok =>
      simp only [Awaiting.next]
      split
      · rename_i hended
        have hout : u.inTransaction = false := by
          simp only [userExplicitlyEndedTransaction, Bool.or_eq_true, decide_eq_true_eq] at hended
          rcases hended with (hstate | hstate) | hstate <;>
            simp [inTransaction, ClientSession.inTransaction, hstate, TxnState.isActive]
        refine h.settle hcalls hout fun _ => .inr (.inr ?_)
        rcases h.lambda (by rw [hstance]; rfl) with hin | hended
        · rw [hout] at hin
          cases hin
        · exact hended
      · exact h.commit hcalls deployment
    | error r =>
      simp only [Awaiting.next]
      split
      · refine end_called rfl hcalls h.empty fun r' hr => h.reason r' ?_
        cases hr
        rw [hstance]
        rfl
      · rename_i hout
        exact h.maybeRetryOrThrow hcalls (Bool.eq_false_iff.2 hout) deployment hasNotTimedOut r
  | commit =>
    have hout : u.inTransaction = false := h.done (by rw [hstance]; rfl)
    cases result with
    | ok => exact h.settle hcalls hout fun _ => h.fulfils (by rw [hstance]; rfl)
    | error r =>
      have hrejected : (TransactionCall.proceed env u deployment (.settle (some r))).Steady :=
        h.settle hcalls hout fun hok => (by cases hok)
      simp only [Awaiting.next, commitRejected]
      split
      · split
        · exact h.commit hcalls deployment
        · split
          · exact h.attemptTransaction hcalls hout deployment
          · exact hrejected
      · exact hrejected
  | abort reason =>
    have hout : u.inTransaction = false := h.done (by rw [hstance]; rfl)
    cases result with
    | ok => exact h.maybeRetryOrThrow hcalls hout deployment hasNotTimedOut reason
    | error r => exact h.settle hcalls hout fun hok => (by cases hok)

/-- Everything an event can do. -/
inductive Happens (u : TransactionCall) (e : CallEvent) (v : TransactionCall) : Prop
  | aside (h : Aside u v)
  | restarted (hlambda : u.stance.ofLambda = true) (h : Restarted u v)
  | lambda {result : Except Rejection Unit} (hstance : u.stance = .awaiting .lambda)
      (heq : v = u.resolved .lambda result)
  | reacts {deployment : Deployment} {promise : Awaiting} {result : Except Rejection Unit}
      (hstance : u.stance = .reacting promise result)
      (heq : v = u.proceed e.env deployment
        (promise.next u.state.session (hasNotTimedOut e.env u.startTime) result))
  | answered {i : Nat} {p : PendingEnd} {err : Option EndError} (hp : u.pending[i]? = some p)
      (heq : v = u.answered e.env i p err)

theorem step_happens {e : CallEvent} (hstep : u.step e = some v) : Happens u e v := by
  unfold TransactionCall.step at hstep
  split at hstep
  · split at hstep
    · rename_i hstance
      cases hstep
      exact .lambda hstance rfl
    · cases hstep
  · split at hstep
    · rename_i hstance
      cases hstep
      exact .reacts hstance rfl
    · cases hstep
  · obtain ⟨p, hp, rfl⟩ := Option.map_eq_some_iff.1 hstep
    exact .answered hp rfl
  · split at hstep
    · rename_i hlambda
      cases hstep
      rcases userStarts_cases e.env u _ _ with ha | hr
      · exact .aside ha
      · exact .restarted hlambda hr
    · cases hstep
  · cases hstep
    exact .aside (userEnds_aside ..)
  · cases hstep
    exact .aside (endSession_aside ..)
  · cases hstep
    exact .aside (command_aside ..)
  · cases hstep
    exact .aside (aside_phase (SessionState.getServerSession_phase ..))
  · cases hstep
    exact .aside (aside_phase (SessionState.modifyServerSession_phase ..))
  · cases hstep
    exact .aside (aside_phase (SessionState.markDirty_phase ..))
  · cases hstep
    exact .aside (aside_phase (SessionState.updateSessionFromResponse_phase ..))
  · cases hstep
    exact .aside (aside_phase rfl)

theorem Steady.step {e : CallEvent} (h : u.Steady) (hstep : u.step e = some v) : v.Steady := by
  cases step_happens hstep with
  | aside ha => exact h.aside ha
  | restarted hlambda hr => exact h.restarted hlambda hr
  | lambda hstance heq =>
    rw [heq]
    exact h.lambda_resolved hstance _
  | reacts hstance heq =>
    rw [heq]
    exact h.proceed hstance _ _
  | answered hp heq =>
    rw [heq]
    exact h.answered _ hp

/-- A call of `withTransaction` begins with a transaction in which nothing was sent. -/
theorem withTransaction_steady {s : SessionState} {deployment : Deployment} {options : TransactionOptions}
    (h : withTransaction env s deployment options = .ok u) : u.Steady ∧ u.startTime = env.now := by
  unfold withTransaction at h
  rcases SessionState.startTransaction_phase env s deployment options with
    ⟨err, hres, -, -, -⟩ | ⟨-, -, -, hphase⟩
  · split at h
    · cases h
    · rename_i heq
      rw [heq] at hres
      cases hres
  · split at h
    · cases h
    · rename_i s₁ _ heq
      cases h
      rw [heq] at hphase
      have hstate : s₁.session.transaction.state = .startingTransaction := congrArg Prod.snd hphase
      refine ⟨⟨List.nil_sublist _, fun _ => .inl ?_, fun _ => rfl, fun ho => (by cases ho), fun hf => (by cases hf),
        fun _ => rfl, fun r hr => (by cases hr)⟩, rfl⟩
      show s₁.session.transaction.state.isActive = true
      rw [hstate]
      rfl

end Steady

/-! ## When the loops go round -/

section Rounds

variable {env : Env} {u v : TransactionCall}

theorem maybeRetryOrThrow_attempts {inTime : Bool} {r : Rejection}
    (h : maybeRetryOrThrow inTime r = .attemptTransaction) :
    r.error.isMongoError = true ∧ r.error.hasErrorLabel "TransientTransactionError" = true ∧ inTime = true := by
  unfold maybeRetryOrThrow at h
  split at h
  · rename_i hretry
    simp only [Bool.and_eq_true] at hretry
    exact ⟨hretry.1.1, hretry.1.2, hretry.2⟩
  · split at h <;> cases h

/-- The lambda is run again after a transient error of the lambda or of the commit, and in time. -/
theorem next_attempts {s : ClientSession} {inTime : Bool} {promise : Awaiting} {result : Except Rejection Unit}
    (h : promise.next s inTime result = .attemptTransaction) :
    ∃ r, (Stance.reacting promise result).reason = some r ∧ r.error.isMongoError = true ∧
      r.error.hasErrorLabel "TransientTransactionError" = true ∧ inTime = true := by
  cases promise with
  | lambda =>
    cases result with
    | ok =>
      simp only [Awaiting.next] at h
      split at h <;> cases h
    | error r =>
      simp only [Awaiting.next] at h
      split at h
      · cases h
      · exact ⟨r, rfl, maybeRetryOrThrow_attempts h⟩
  | commit =>
    cases result with
    | ok => cases h
    | error r =>
      simp only [Awaiting.next, commitRejected] at h
      split at h
      · rename_i hagain
        simp only [Bool.and_eq_true] at hagain
        split at h
        · cases h
        · split at h
          · rename_i hlabel
            exact ⟨r, rfl, hagain.1.1, hlabel, hagain.1.2⟩
          · cases h
      · cases h
  | abort reason =>
    cases result with
    | ok => exact ⟨reason, rfl, maybeRetryOrThrow_attempts h⟩
    | error r => cases h

/-- The commit is tried when the lambda is done, and again when its outcome is not known, in time. -/
theorem next_commits {s : ClientSession} {inTime : Bool} {promise : Awaiting} {result : Except Rejection Unit}
    (h : promise.next s inTime result = .attemptTransactionCommit) :
    promise = .lambda ∨ ∃ r, promise = .commit ∧ result = .error r ∧
      r.error.hasErrorLabel "UnknownTransactionCommitResult" = true ∧ isMaxTimeMSExpiredError r = false ∧
      inTime = true := by
  have hretry : ∀ r, maybeRetryOrThrow inTime r ≠ .attemptTransactionCommit := by
    intro r hr
    unfold maybeRetryOrThrow at hr
    split at hr
    · cases hr
    · split at hr <;> cases hr
  cases promise with
  | lambda => exact .inl rfl
  | commit =>
    cases result with
    | ok => cases h
    | error r =>
      simp only [Awaiting.next, commitRejected] at h
      split at h
      · rename_i hagain
        simp only [Bool.and_eq_true, Bool.not_eq_true'] at hagain
        split at h
        · rename_i hlabel
          exact .inr ⟨r, rfl, rfl, hlabel, hagain.2, hagain.1.2⟩
        · split at h <;> cases h
      · cases h
  | abort reason =>
    cases result with
    | ok => exact absurd h (hretry reason)
    | error r => cases h

/-- The counters and the clock of a call. -/
def counters (u : TransactionCall) : Nat × Nat × Nat := (u.startTime, u.runs, u.commits)

theorem endTransaction_counters (env : Env) (u : TransactionCall) (name : EndTransactionName) (promise : Awaiting) :
    (u.endTransaction env name promise).counters = u.counters := by
  unfold endTransaction
  split <;> rfl

theorem attemptTransaction_counters (env : Env) (u : TransactionCall) (deployment : Deployment) :
    (u.attemptTransaction env deployment).startTime = u.startTime ∧
      (u.attemptTransaction env deployment).commits ≤ u.commits := by
  unfold attemptTransaction
  split
  · exact ⟨rfl, Nat.le_refl _⟩
  · exact ⟨rfl, Nat.zero_le _⟩

theorem proceed_counters (env : Env) (u : TransactionCall) (deployment : Deployment) (next : Next) :
    (u.proceed env deployment next).startTime = u.startTime ∧
      (u.runs < (u.proceed env deployment next).runs → next = .attemptTransaction) ∧
      (u.commits < (u.proceed env deployment next).commits → next = .attemptTransactionCommit) := by
  have hcounters : ∀ {w : TransactionCall}, w.counters = u.counters →
      w.startTime = u.startTime ∧ (u.runs < w.runs → next = .attemptTransaction) ∧
        (u.commits < w.commits → next = .attemptTransactionCommit) := by
    intro w hw
    simp only [counters, Prod.mk.injEq] at hw
    exact ⟨hw.1, fun h => by omega, fun h => by omega⟩
  cases next with
  | attemptTransaction =>
    obtain ⟨htime, hcommits⟩ := attemptTransaction_counters env u deployment
    refine ⟨htime, fun _ => rfl, fun h => ?_⟩
    have hfewer : (u.proceed env deployment .attemptTransaction).commits ≤ u.commits := hcommits
    omega
  | attemptTransactionCommit =>
    have hsame : (u.proceed env deployment .attemptTransactionCommit).counters =
        { u with commits := u.commits + 1 }.counters := endTransaction_counters ..
    simp only [counters, Prod.mk.injEq] at hsame
    exact ⟨hsame.1, fun h => by omega, fun _ => rfl⟩
  | abortTransaction reason => exact hcounters (endTransaction_counters ..)
  | settle error =>
    cases error with
    | none => exact hcounters rfl
    | some r => exact hcounters rfl

/-- The event lets the loops go round only when they may: for another run of the lambda the last error is a transient
one, for another call of `commitTransaction` it is one of the commit, whose outcome is not known and that is not a
timeout of the server; and the time that `withTransaction` has is not over. -/
structure GoesRound (startTime : Nat) (u : TransactionCall) (e : CallEvent) (v : TransactionCall) : Prop where
  lambda : u.runs < v.runs → ∃ r, u.failure = some r ∧ r.error.isMongoError = true ∧
    r.error.hasErrorLabel "TransientTransactionError" = true ∧
    calculateDurationInMs e.env.now startTime < maxWithTransactionTimeout
  commit : u.commits ≠ 0 → u.commits < v.commits → ∃ r, u.failure = some r ∧
    u.stance = .reacting .commit (.error r) ∧
    r.error.hasErrorLabel "UnknownTransactionCommitResult" = true ∧ isMaxTimeMSExpiredError r = false ∧
    calculateDurationInMs e.env.now startTime < maxWithTransactionTimeout

theorem goesRound_of_counters {e : CallEvent} (h : v.counters = u.counters) :
    v.startTime = u.startTime ∧ GoesRound u.startTime u e v := by
  simp only [counters, Prod.mk.injEq] at h
  exact ⟨h.1, fun hruns => by omega, fun _ hcommits => by omega⟩

/-- What an event does to the counters: they stay, or the loops go round. -/
theorem step_rounds {e : CallEvent} (h : u.Steady) (hstep : u.step e = some v) :
    v.startTime = u.startTime ∧ GoesRound u.startTime u e v := by
  have haside : Aside u v → v.counters = u.counters := by
    intro ha
    simp only [counters, ha.startTime, ha.runs, ha.commits]
  cases step_happens hstep with
  | aside ha => exact goesRound_of_counters (haside ha)
  | restarted _ hr =>
    refine goesRound_of_counters ?_
    simp only [counters, hr.startTime, hr.runs, hr.commits]
  | lambda _ heq =>
    refine goesRound_of_counters ?_
    rw [heq]
    rfl
  | @reacts deployment promise result hstance heq =>
    obtain ⟨htime, hruns, hcommits⟩ := proceed_counters e.env u deployment
      (promise.next u.state.session (hasNotTimedOut e.env u.startTime) result)
    rw [← heq] at htime hruns hcommits
    refine ⟨htime, fun hlt => ?_, fun hfirst hlt => ?_⟩
    · obtain ⟨r, hreason, hmongo, hlabel, hin⟩ := next_attempts (hruns hlt)
      rw [← hstance] at hreason
      exact ⟨r, h.reason r hreason, hmongo, hlabel, of_decide_eq_true hin⟩
    · rcases next_commits (hcommits hlt) with rfl | ⟨r, rfl, rfl, hlabel, hmax, hin⟩
      · exact absurd (h.first (by rw [hstance]; rfl)) hfirst
      · exact ⟨r, h.reason r (by rw [hstance]; rfl), hstance, hlabel, hmax, of_decide_eq_true hin⟩
  | answered hp heq =>
    refine goesRound_of_counters ?_
    rcases answered_cases h _ hp with ha | ⟨promise, s, -, -, -, -, heq'⟩
    · exact haside (heq ▸ ha)
    · rw [heq, heq']
      rfl

end Rounds

end TransactionCall

/-- Over every run of one call of `withTransaction`, whatever the lambda does with the session and with which errors it,
the commits and the aborts end: when the promise settles the session is not in a transaction, and it is fulfilled only
if the transaction was committed, or nothing was sent in it, or the user has ended it; and the lambda is run again, and
`commitTransaction` called again, only after the errors that permit it and in time. -/
theorem withTransaction_outcome (env : Env) (s : SessionState) (deployment : Deployment) (options : TransactionOptions)
    (u₀ u : TransactionCall) (hcall : TransactionCall.withTransaction env s deployment options = .ok u₀)
    (events : List CallEvent) (hrun : Run.exec TransactionCall.step u₀ events = some u) :
    (∀ result, u.stance = .settled result → u.state.session.inTransaction = false ∧
      (result = .ok () → u.committed = true ∨ u.begun = false ∨ u.userEnded = true)) ∧
    ∀ e v, u.step e = some v → TransactionCall.GoesRound env.now u e v := by
  obtain ⟨hsteady₀, htime₀⟩ := TransactionCall.withTransaction_steady hcall
  have hinv : ∀ (u : TransactionCall) (e : CallEvent) (v : TransactionCall), u.Steady ∧ u.startTime = env.now →
      u.step e = some v → v.Steady ∧ v.startTime = env.now := by
    rintro u e v ⟨h, htime⟩ hstep
    exact ⟨h.step hstep, (TransactionCall.step_rounds h hstep).1.trans htime⟩
  obtain ⟨hsteady, htime⟩ := Run.exec_inv TransactionCall.step hinv ⟨hsteady₀, htime₀⟩ hrun
  constructor
  · intro result hstance
    refine ⟨hsteady.done (by rw [hstance]; rfl), fun hok => hsteady.fulfils ?_⟩
    rw [hstance, hok]
    rfl
  · intro e v hstep
    have hround := (TransactionCall.step_rounds hsteady hstep).2
    rwa [htime] at hround

def writeConflict : Rejection :=
  { error := { cls := .mongoServerError, message := "WriteConflict", errorLabels := ["TransientTransactionError"] } }

def commitLost : EndError :=
  { error := { cls := .mongoNetworkError, message := "connection 1 to 127.0.0.1:27017 closed" } }

/-- The lambda fails and is run again, and the answer to the first commit is lost. -/
def conflictThenLost : List CallEvent :=
  [{ action := .command {} {} }, { action := .lambda (.error writeConflict) }, { action := .react {} },
    { action := .answer 0 none }, { action := .react {} }, { action := .command {} {} },
    { action := .lambda (.ok ()) }, { action := .react {} }, { action := .answer 0 (some commitLost) },
    { action := .react {} }, { action := .answer 0 none }, { action := .react {} }]

theorem withTransaction_outcome_retried :
    ∃ u₀ u, TransactionCall.withTransaction {} ⟨{}, {}⟩ {} {} = .ok u₀ ∧
      Run.exec TransactionCall.step u₀ conflictThenLost = some u ∧ u.stance = .settled (.ok ()) ∧ u.runs = 2 ∧
      u.commits = 2 ∧ u.begun = true ∧ u.userEnded = false ∧ u.state.session.inTransaction = false ∧
      u.committed = true := by
  obtain ⟨u₀, u, hcall, hrun, hstance, hruns, hcommits, hbegun, huser⟩ :
      ∃ u₀ u, TransactionCall.withTransaction {} ⟨{}, {}⟩ {} {} = .ok u₀ ∧
        Run.exec TransactionCall.step u₀ conflictThenLost = some u ∧ u.stance = .settled (.ok ()) ∧ u.runs = 2 ∧
        u.commits = 2 ∧ u.begun = true ∧ u.userEnded = false := ⟨_, _, rfl, rfl, rfl, rfl, rfl, rfl, rfl⟩
  obtain ⟨hsettled, -⟩ := withTransaction_outcome {} ⟨{}, {}⟩ {} {} u₀ u hcall conflictThenLost hrun
  obtain ⟨hout, hfulfilled⟩ := hsettled (.ok ()) hstance
  refine ⟨u₀, u, hcall, hrun, hstance, hruns, hcommits, hbegun, huser, hout, ?_⟩
  -- something was sent, and it was not the user who ended the transaction
  rcases hfulfilled rfl with hcommitted | hempty | hended
  · exact hcommitted
  · rw [hbegun] at hempty
    cases hempty
  · rw [huser] at hended
    cases hended

end MongoDriver.Sessions
