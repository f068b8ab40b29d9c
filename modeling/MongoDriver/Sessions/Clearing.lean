/-
How a session gives up its pinned connection. Whatever the call or the answer, it does so by at most one call of
`maybeClearPinnedConnection` that finds the session pinned: with some options, and when the transaction has come to
some state. Which call that is, is said here once for every event (`PinWorld.clearing`, `step_gives`); what follows for
the pool and for its metrics is proved in `Sessions/PinLedger.lean` and `Sessions/PinMetrics.lean`.
-/
import MongoDriver.Sessions.Pinning

namespace MongoDriver.Sessions

/-! ## Pins -/

/-- Where the connections are, and how the pool was used. -/
@[ext] structure Ledger where
  held : Nat → Option Nat
  available : List Nat
  borrowed : List Nat
  created : Nat
  uses : List PoolUse

def PinWorld.ledger (w : PinWorld) : Ledger where
  held k := (w.sessions k).pinnedConnection
  available := w.available
  borrowed := w.borrowed
  created := w.created
  uses := w.uses

/-- The same connections are pinned, and the same was emitted. -/
structure Alike (w w' : PinWorld) : Prop where
  ledger : w'.ledger = w.ledger
  emitted : w'.emitted = w.emitted

section Alike

variable {w w' w'' : PinWorld} {k : Nat} {options : EndSessionOptions}

theorem Alike.refl (w : PinWorld) : Alike w w := ⟨rfl, rfl⟩

theorem Alike.trans (h : Alike w w') (h' : Alike w' w'') : Alike w w'' :=
  ⟨h'.ledger.trans h.ledger, h'.emitted.trans h.emitted⟩

/-- The ledger sees of a session the connection it holds. -/
theorem ledger_setSession (w : PinWorld) (k : Nat) (s : PinSession) :
    (w.setSession k s).ledger = { w.ledger with held := Function.update w.ledger.held k s.pinnedConnection } := by
  refine Ledger.ext ?_ rfl rfl rfl rfl
  funext k'
  by_cases hk : k' = k
  · subst hk
    simp [PinWorld.ledger, PinWorld.setSession]
  · simp [PinWorld.ledger, PinWorld.setSession, Function.update_of_ne hk]

theorem setSession_alike {s : PinSession} (hs : s.pinnedConnection = (w.sessions k).pinnedConnection) :
    Alike w (w.setSession k s) where
  ledger := by
    rw [ledger_setSession, hs]
    exact Ledger.ext (Function.update_eq_self k w.ledger.held) rfl rfl rfl rfl
  emitted := rfl

theorem setState_session (w : PinWorld) (k : Nat) (state : TxnState) :
    (w.setState k state).sessions k = { w.sessions k with state } := Function.update_self ..

theorem setState_self (w : PinWorld) (k : Nat) : w.setState k (w.sessions k).state = w := by
  have hself : Function.update w.sessions k (w.sessions k) = w.sessions := Function.update_eq_self k w.sessions
  show { w with sessions := Function.update w.sessions k (w.sessions k) } = w
  rw [hself]

theorem setState_alike (w : PinWorld) (k : Nat) (state : TxnState) : Alike w (w.setState k state) :=
  setSession_alike rfl

theorem maybeClear_of_unpinned (h : (w.sessions k).pinnedConnection = none) :
    w.maybeClearPinnedConnection k options = w := by
  unfold PinWorld.maybeClearPinnedConnection
  simp [h]

/-- Without an error the session is not pinned afterwards. -/
theorem maybeClear_unheld (w : PinWorld) (k : Nat) (h : options.error = none) :
    ((w.maybeClearPinnedConnection k options).sessions k).pinnedConnection = none := by
  cases hpin : (w.sessions k).pinnedConnection with
  | none => rw [maybeClear_of_unpinned hpin, hpin]
  | some c => simp [PinWorld.maybeClearPinnedConnection, h, hpin, PinWorld.setSession]

theorem completeEndSession_of_unpinned (h : (w.sessions k).pinnedConnection = none) :
    Alike w (w.completeEndSession k options) := by
  unfold PinWorld.completeEndSession
  rw [maybeClear_of_unpinned h]
  exact setSession_alike rfl

theorem commandHandler_of_unpinned {c : EndingCommand} {err : Option EndError}
    (h : (w.sessions c.session).pinnedConnection = none) : Alike w (w.commandHandler c err) := by
  have hnone : ∀ state, ((w.setState c.session state).sessions c.session).pinnedConnection = none := by
    intro state
    rw [setState_session]
    exact h
  unfold PinWorld.commandHandler
  cases c.name with
  | abortTransaction =>
    simp only
    split
    · rw [maybeClear_of_unpinned (hnone _)]
      cases c.endSession with
      | none => exact setState_alike w _ _
      | some options => exact (setState_alike w _ _).trans (completeEndSession_of_unpinned (hnone _))
    · exact .refl w
  | commitTransaction =>
    simp only
    split
    · cases err.bind PinWorld.unpinsWith with
      | none => exact setState_alike w _ _
      | some e =>
        simp only [PinWorld.unpin]
        rw [maybeClear_of_unpinned (hnone _)]
        exact setState_alike w _ _
    · exact .refl w

end Alike

/-! ## Who clears -/

/-- A call of `maybeClearPinnedConnection`: its session, the state the transaction of it has come to, and its
options. -/
structure Clearing where
  session : Nat
  state : TxnState
  options : EndSessionOptions

/-- The session when the call is made. -/
def PinSession.atClearing (s : PinSession) (c : Clearing) : PinSession := { s with state := c.state }

def PinWorld.clear (w : PinWorld) (c : Clearing) : PinWorld :=
  (w.setState c.session c.state).maybeClearPinnedConnection c.session c.options

namespace PinSession

variable (s : PinSession) (k : Nat)

/-- In `endSession`. A transaction that has begun is aborted first. -/
def endClearing (options : EndSessionOptions) : Option Clearing :=
  if s.hasEnded then some ⟨k, s.state, PinWorld.finalOptions options⟩
  else if s.inTransaction then
    if s.state = .startingTransaction then some ⟨k, .transactionAborted, PinWorld.finalOptions options⟩ else none
  else some ⟨k, s.state, PinWorld.finalOptions options⟩

/-- In `commandHandler`. -/
def handlerClearing (c : EndingCommand) (err : Option EndError) : Option Clearing :=
  match c.name with
  | .abortTransaction =>
    if TxnState.transactionAborted ∈ s.state.stateMachine then
      some ⟨c.session, .transactionAborted, { force := some false }⟩
    else none
  | .commitTransaction =>
    if TxnState.transactionCommitted ∈ s.state.stateMachine then
      (err.bind PinWorld.unpinsWith).map fun e => ⟨c.session, .transactionCommitted, { error := some e }⟩
    else none

/-- When a `commitTransaction` or `abortTransaction` has come back. -/
def doneClearing (c : EndingCommand) (err : Option EndError) : Option Clearing :=
  if c.retried then s.handlerClearing c err
  else
    match c.name with
    | .abortTransaction => some ⟨c.session, s.state, {}⟩
    | .commitTransaction =>
      if err.any (·.error.hasErrorLabel "RetryableWriteError") then some ⟨c.session, s.state, { force := some true }⟩
      else s.handlerClearing c err

/-- In `cleanupCursor`. -/
def cursorClearing (owner : Bool) (error : Option AnyError) : Option Clearing :=
  if owner then s.endClearing k { error }
  else if s.inTransaction then none
  else some ⟨k, s.state, { error }⟩

end PinSession

/-- The call that an event makes. -/
def PinWorld.clearing (w : PinWorld) : PinWorld.PinEvent → Option Clearing
  | .operationFailed k err =>
    if err.hasErrorLabel "TransientTransactionError" then some ⟨k, (w.sessions k).state, { force := some true }⟩
    else none
  | .beforeSelection k bypassPinningCheck =>
    if (w.sessions k).state.isCommitted && !bypassPinningCheck then some ⟨k, (w.sessions k).state, {}⟩ else none
  | .beforeRetry k err cursorCreating =>
    if err.isNetworkError && !(w.sessions k).inTransaction && cursorCreating then
      some ⟨k, (w.sessions k).state, { force := some true, forceClear := true }⟩
    else none
  | .cleanupCursor k owner error => (w.sessions k).cursorClearing k owner error
  | .startTransaction k _ =>
    if !(w.sessions k).inTransaction && (w.sessions k).state.isCommitted then some ⟨k, (w.sessions k).state, {}⟩
    else none
  | .endTransactionDone position err =>
    w.endings[position]?.bind fun c => (w.sessions c.session).doneClearing c err
  | .unpin k options => some ⟨k, (w.sessions k).state, options⟩
  | .endSession k options => (w.sessions k).endClearing k options
  | _ => none

/-- A call that leaves the pins alone, or clears as it is said to. -/
inductive Gives (w w' : PinWorld) : Option Clearing → Prop
  | nothing (h : Alike w w') : Gives w w' none
  | clears {c : Clearing} {w₁ : PinWorld} (h : Alike w w₁) (hs : w₁.sessions = w.sessions)
      (h' : Alike (w₁.clear c) w') : Gives w w' (some c)

section Gives

variable {w w' : PinWorld} {k : Nat} {options : EndSessionOptions}

theorem Gives.refl (w : PinWorld) : Gives w w none := .nothing (.refl w)

theorem Gives.congr {w₁ w₂ : PinWorld} {clearing : Option Clearing} (h : Gives w w' clearing) (h₁ : Alike w₁ w)
    (hs : w.sessions = w₁.sessions) (h₂ : Alike w' w₂) : Gives w₁ w₂ clearing := by
  cases h with
  | nothing h => exact .nothing ((h₁.trans h).trans h₂)
  | clears h hsessions h' => exact .clears (h₁.trans h) (hsessions.trans hs) (h'.trans h₂)

/-- `maybeClearPinnedConnection` when the transaction has come to another state. -/
theorem clear_gives (w : PinWorld) (c : Clearing) : Gives w (w.clear c) (some c) :=
  .clears (.refl w) rfl (.refl _)

theorem maybeClear_gives (w : PinWorld) (k : Nat) (options : EndSessionOptions) :
    Gives w (w.maybeClearPinnedConnection k options) (some ⟨k, (w.sessions k).state, options⟩) := by
  have hclear : w.clear ⟨k, (w.sessions k).state, options⟩ = w.maybeClearPinnedConnection k options := by
    unfold PinWorld.clear
    rw [setState_self]
  rw [← hclear]
  exact clear_gives w _

theorem completeEndSession_alike (w : PinWorld) (k : Nat) (options : EndSessionOptions) :
    Alike (w.maybeClearPinnedConnection k (PinWorld.finalOptions options)) (w.completeEndSession k options) :=
  setSession_alike rfl

theorem endSession_gives (w : PinWorld) (k : Nat) (options : EndSessionOptions) :
    Gives w (w.endSession k options) ((w.sessions k).endClearing k options) := by
  unfold PinWorld.endSession PinSession.endClearing
  dsimp only
  by_cases hended : (w.sessions k).hasEnded = true
  · rw [if_pos hended, if_pos hended]
    exact maybeClear_gives w k _
  · rw [if_neg hended, if_neg hended]
    by_cases hactive : (w.sessions k).inTransaction = true
    · rw [if_pos hactive, if_pos hactive]
      cases hstate : (w.sessions k).state with
      | startingTransaction =>
        -- the transaction is over before the connection is given up
        exact (clear_gives w ⟨k, .transactionAborted, _⟩).congr (.refl w) rfl (completeEndSession_alike ..)
      | transactionInProgress => exact .nothing ⟨rfl, rfl⟩
      | noTransaction => simp [PinSession.inTransaction, TxnState.isActive, hstate] at hactive
      | transactionCommitted => simp [PinSession.inTransaction, TxnState.isActive, hstate] at hactive
      | transactionCommittedEmpty => simp [PinSession.inTransaction, TxnState.isActive, hstate] at hactive
      | transactionAborted => simp [PinSession.inTransaction, TxnState.isActive, hstate] at hactive
    · rw [if_neg hactive, if_neg hactive]
      exact (maybeClear_gives w k _).congr (.refl w) rfl (completeEndSession_alike ..)

theorem commandHandler_gives (w : PinWorld) (c : EndingCommand) (err : Option EndError) :
    Gives w (w.commandHandler c err) ((w.sessions c.session).handlerClearing c err) := by
  unfold PinWorld.commandHandler PinSession.handlerClearing
  cases c.name with
  | abortTransaction =>
    by_cases hstate : TxnState.transactionAborted ∈ (w.sessions c.session).state.stateMachine
    · simp only [if_pos hstate]
      have herror : ({ force := some false } : EndSessionOptions).error = none := rfl
      have hunheld := maybeClear_unheld (w.setState c.session .transactionAborted) c.session herror
      refine (clear_gives w ⟨c.session, .transactionAborted, { force := some false }⟩).congr (.refl w) rfl ?_
      cases c.endSession with
      | none => exact .refl _
      | some options => exact completeEndSession_of_unpinned hunheld
    · simp only [if_neg hstate]
      exact .refl w
  | commitTransaction =>
    by_cases hstate : TxnState.transactionCommitted ∈ (w.sessions c.session).state.stateMachine
    · simp only [if_pos hstate]
      cases err.bind PinWorld.unpinsWith with
      | none => exact .nothing (setState_alike w _ _)
      | some e => exact clear_gives w ⟨c.session, .transactionCommitted, { error := some e }⟩
    · simp only [if_neg hstate]
      exact .refl w

theorem endTransactionDone_gives (w : PinWorld) (c : EndingCommand) (err : Option EndError) :
    Gives w (w.endTransactionDone c err) ((w.sessions c.session).doneClearing c err) := by
  unfold PinWorld.endTransactionDone PinSession.doneClearing
  by_cases hretried : c.retried = true
  · rw [if_pos hretried, if_pos hretried]
    exact commandHandler_gives w c err
  · rw [if_neg hretried, if_neg hretried]
    cases hname : c.name with
    | abortTransaction =>
      -- the connection is given up before anything else
      have hunheld : ((w.unpin c.session {}).sessions c.session).pinnedConnection = none :=
        maybeClear_unheld w c.session rfl
      refine (maybeClear_gives w c.session {}).congr (.refl w) rfl ?_
      simp only [if_true]
      split
      · exact ⟨rfl, rfl⟩
      · exact commandHandler_of_unpinned hunheld
    | commitTransaction =>
      simp only [reduceCtorEq, if_false, if_true]
      split
      · exact (maybeClear_gives w c.session { force := some true }).congr (.refl w) rfl ⟨rfl, rfl⟩
      · exact commandHandler_gives w c err

theorem cleanupCursor_gives (w : PinWorld) (k : Nat) (owner : Bool) (error : Option AnyError) :
    Gives w (w.cleanupCursor k owner error) ((w.sessions k).cursorClearing k owner error) := by
  unfold PinWorld.cleanupCursor PinSession.cursorClearing
  cases owner with
  | true => exact endSession_gives w k { error }
  | false =>
    cases (w.sessions k).inTransaction with
    | true => exact .refl w
    | false => exact maybeClear_gives w k { error }

/-- A call that unpins a session on a condition. -/
theorem unpin_if_gives (w : PinWorld) (k : Nat) (options : EndSessionOptions) (cond : Bool) {cond' : Bool}
    (h : cond' = ((w.sessions k).isPinned && cond)) :
    Gives w (if cond' then w.unpin k options else w)
      (if cond then some ⟨k, (w.sessions k).state, options⟩ else none) := by
  cases hcond : cond with
  | false =>
    rw [h, hcond, Bool.and_false]
    exact .refl w
  | true =>
    have hgives := maybeClear_gives w k options
    cases hpin : (w.sessions k).pinnedConnection with
    | none =>
      rw [h, show (w.sessions k).isPinned = false by simp [PinSession.isPinned, hpin]]
      rwa [maybeClear_of_unpinned hpin] at hgives
    | some c =>
      rw [h, hcond, show (w.sessions k).isPinned = true by simp [PinSession.isPinned, hpin]]
      exact hgives

theorem startTransaction_gives (w : PinWorld) (k : Nat) (unacknowledged : Bool) :
    Gives w (w.startTransaction k unacknowledged) (w.clearing (.startTransaction k unacknowledged)) := by
  unfold PinWorld.startTransaction PinWorld.clearing
  dsimp only
  cases (w.sessions k).inTransaction with
  | true => exact .refl w
  | false =>
    have hgives := unpin_if_gives w k {} (w.sessions k).state.isCommitted rfl
    cases unacknowledged with
    | true => exact hgives
    | false => exact hgives.congr (.refl w) rfl (setState_alike _ k _)

end Gives

/-- A connection is given out or taken back, apart from what the sessions do with theirs. -/
def PinWorld.PinEvent.transfers : PinWorld.PinEvent → Bool
  | .handOut _ _ | .checkIn _ => true
  | _ => false

/-- Every other event clears as it is said to. -/
theorem step_gives {w w' : PinWorld} {e : PinWorld.PinEvent} (he : e.transfers = false) (hstep : w.step e = some w') :
    Gives w w' (w.clearing e) := by
  cases e with
  | command k command =>
    cases hstep
    unfold PinWorld.command
    dsimp only
    split
    · exact .refl w
    · split <;> exact .nothing ⟨rfl, rfl⟩
  | handOut position handed => cases he
  | checkOutFailed position =>
    simp only [PinWorld.step] at hstep
    split at hstep
    · cases hstep
      exact .nothing ⟨rfl, rfl⟩
    · cases hstep
  | checkIn connection => cases he
  | spoil connection =>
    cases hstep
    exact .nothing ⟨rfl, rfl⟩
  | operationFailed k err =>
    cases hstep
    exact unpin_if_gives w k _ _ rfl
  | beforeSelection k bypass =>
    cases hstep
    exact unpin_if_gives w k _ _ (Bool.and_assoc ..)
  | beforeRetry k err creating =>
    cases hstep
    refine unpin_if_gives w k _ _ ?_
    cases err.isNetworkError <;> simp [Bool.and_assoc]
  | cleanupCursor k owner error => cases hstep; exact cleanupCursor_gives w k owner error
  | startTransaction k unacknowledged => cases hstep; exact startTransaction_gives w k unacknowledged
  | applySession k isTransactionCommand =>
    have hset : ∀ (legal : Bool) (state : TxnState), Gives w (if legal = true then w.setState k state else w) none := by
      intro legal state
      cases legal with
      | true => exact .nothing (setState_alike w k state)
      | false => exact .refl w
    cases hstep
    unfold PinWorld.applySession
    dsimp only
    split
    · exact .refl w
    · exact hset _ _
  | endTransaction k name =>
    cases hstep
    unfold PinWorld.endTransaction
    split
    · exact .refl w
    · exact .nothing (setState_alike w k _)
    · exact .nothing ⟨rfl, rfl⟩
  | endTransactionDone position err =>
    simp only [PinWorld.step, Option.bind_eq_bind, Option.bind_eq_some_iff] at hstep
    obtain ⟨c, hc, hstep⟩ := hstep
    cases hstep
    have hgives := endTransactionDone_gives { w with endings := w.endings.eraseIdx position } c err
    simp only [PinWorld.clearing, hc, Option.bind_some]
    exact hgives.congr ⟨rfl, rfl⟩ rfl (.refl _)
  | unpin k options => cases hstep; exact maybeClear_gives w k options
  | endSession k options => cases hstep; exact endSession_gives w k options

end MongoDriver.Sessions
