/-
What the functions of a session do, and how a flight goes on, as chains of the moves of `Sessions/Moves.lean`.
A flight runs through several functions before it waits again, and what they are given is the flight as it
is by then; the world that a move starts from is the one where that flight has been stored.
-/
import MongoDriver.Sessions.Sound

namespace MongoDriver.Sessions

open Operations (AbstractOperation Outcome Prog)

/-! ## What the functions do to a session -/

namespace SessionState

variable {env : Env} {s : SessionState}

theorem getServerSession_of_some {r : Nat} (env : Env) (h : s.session.serverSession = some r) :
    s.getServerSession env = (s, r) := by
  unfold getServerSession
  rw [h]

theorem applyTransaction_eq (s : SessionState) (command : Command) :
    ∃ t command', s.applyTransaction command = (s.setTransaction t, .ok command') ∧ command'.lsid = command.lsid ∧
      command'.txnNumber = command.txnNumber ∧ command'.autocommit = some false ∧
      (s.session.transaction.state = .startingTransaction →
        command'.startTransaction = some true ∧ t.state = .transactionInProgress) ∧
      (s.session.transaction.state ≠ .startingTransaction →
        command'.startTransaction = command.startTransaction ∧ t.state = s.session.transaction.state) := by
  unfold applyTransaction
  simp only
  split
  · rename_i hstart
    rw [Transaction.transition_ok.2 ⟨by rw [hstart]; decide, rfl⟩]
    exact ⟨_, _, rfl, rfl, rfl, rfl, fun _ => ⟨rfl, rfl⟩, fun hne => absurd hstart hne⟩
  · rename_i hstart
    exact ⟨s.session.transaction, _, rfl, rfl, rfl, rfl, fun h => absurd h hstart, fun _ => ⟨rfl, rfl⟩⟩

theorem leaveTransaction_eq (command : Command) (h : s.session.inTransaction = false) :
    ∃ t command', s.leaveTransaction command = (s.setTransaction t, .ok command') ∧ command'.lsid = command.lsid ∧
      command'.txnNumber = command.txnNumber ∧ command'.autocommit = command.autocommit ∧
      command'.startTransaction = command.startTransaction ∧ t.state = .noTransaction := by
  unfold leaveTransaction
  simp only
  split
  · rename_i hno
    exact ⟨s.session.transaction, _, rfl, rfl, rfl, rfl, rfl, hno⟩
  · rename_i hno
    have hmem : TxnState.noTransaction ∈ s.session.transaction.state.stateMachine := by
      unfold ClientSession.inTransaction at h
      cases hstate : s.session.transaction.state with
      | noTransaction => exact absurd hstate hno
      | startingTransaction | transactionInProgress => rw [hstate] at h; cases h
      | _ => decide
    rw [Transaction.transition_ok.2 ⟨hmem, rfl⟩]
    exact ⟨_, _, rfl, rfl, rfl, rfl, rfl, rfl⟩

/-- `applySession` on a session that lives, for an acknowledged command: it always decorates. -/
theorem applySession_decorates (env : Env) {command : Command} {f : Flight} (hlive : s.session.hasEnded = false)
    (hack : f.options.unacknowledged = false) (hbare : command.Bare)
    (hinside : f.txn.isSome = (s.session.inTransaction || isTransactionCommand command)) :
    ∃ s₁ r t command', s.Still s₁ ∧ s₁.session.serverSession = some r ∧
      s.applySession env command f.options = (s₁.setTransaction t, .ok command') ∧
      Decorated s₁.session r (s₁.pool.number r) f command' t.state := by
  have hstill := (still_getServerSession env s).trans
    (still_modify (s.getServerSession env).1 (s.getServerSession env).2 (f := fun x => { x with lastUse := env.now })
      fun _ => rfl)
  have hin : (s.getServerSession env).1.session.inTransaction = s.session.inTransaction :=
    (still_getServerSession env s).alike.inTransaction
  unfold applySession
  simp only [hlive, hack, Bool.false_eq_true, if_false]
  split
  · rename_i hin'
    have hsome : f.txn.isSome = true := by rw [hinside, ← hin]; exact hin'
    obtain ⟨t, command', heq, hlsid, hnumber, hauto, hfirst, hlater⟩ := applyTransaction_eq _ _
    refine ⟨_, _, t, command', hstill, getServerSession_serverSession env s, heq, hlsid, fun _ => ⟨hauto, ?_⟩,
      fun _ => hfirst, fun _ hne => ?_, fun hnone => ?_⟩
    · intro hn
      rw [hnumber]
      simp only [hin', Bool.or_true, Bool.and_true]
      exact if_pos (decide_eq_true hn)
    · obtain ⟨hstart, hstate⟩ := hlater hne
      exact ⟨hstart.trans hbare.startTransaction, hstate⟩
    · rw [hnone] at hsome
      cases hsome
  · rename_i hout
    have hout' : (s.getServerSession env).1.session.inTransaction = false ∧ isTransactionCommand command = false := by
      simpa using hout
    have hnone : f.txn = none := by
      rw [← hin, hout'.1, hout'.2] at hinside
      simpa using hinside
    have hnot : ¬ f.txn.isSome = true := by rw [hnone]; exact Bool.false_ne_true
    obtain ⟨t, command', heq, hlsid, hnumber, hauto, hstart, hstate⟩ := leaveTransaction_eq
      (s := s.modifyServerSession env fun x => { x with lastUse := env.now }) _ hout'.1
    refine ⟨_, _, t, command', hstill, getServerSession_serverSession env s, heq, hlsid, fun h => absurd h hnot,
      fun h => absurd h hnot, fun h => absurd h hnot, fun _ => ?_⟩
    refine ⟨hauto.trans hbare.autocommit, hstart.trans hbare.startTransaction, hstate, hnumber.trans ?_⟩
    simp only [hbare.txnNumber, hout'.1, hout'.2, Bool.or_false, Bool.and_eq_true, decide_eq_true_eq]
    exact if_congr and_comm rfl rfl

/-- A `startTransaction` that does not get to the increment changes nothing; after it the transaction is
started or an error thrown. -/
theorem startTransaction_cases (env : Env) (s : SessionState) (deployment : Deployment) (options : TransactionOptions) :
    (∃ s' e, s.Still s' ∧ s.startTransaction env deployment options = (s', .error e)) ∨
      ∃ s₁ r, s.Still s₁ ∧ s₁.session.serverSession = some r ∧ s₁.session.inTransaction = false ∧
        ((∃ e, s.startTransaction env deployment options = ({ s₁ with pool := s₁.pool.increment r }, .error e)) ∨
          ∃ t, t.state = .startingTransaction ∧ s.startTransaction env deployment options =
            (setTransaction { s₁ with pool := s₁.pool.increment r } t, .ok ())) := by
  have hstill : s.Still (s.assertAlive env) := still_getServerSession env s
  have hheld : (s.assertAlive env).session.serverSession = some (s.getServerSession env).2 :=
    getServerSession_serverSession env s
  have hincrement : (s.assertAlive env).incrementTransactionNumber env =
      { s.assertAlive env with pool := (s.assertAlive env).pool.increment (s.getServerSession env).2 } := by
    rw [incrementTransactionNumber_eq, getServerSession_of_some env hheld]
  unfold startTransaction
  split
  · exact .inl ⟨s, _, .refl s, rfl⟩
  · simp only
    split
    · exact .inl ⟨_, _, hstill, rfl⟩
    · rename_i hin
      split
      · exact .inl ⟨_, _, hstill, rfl⟩
      · refine .inr ⟨_, _, hstill, hheld, by simpa using hin, ?_⟩
        rw [hincrement]
        split
        · exact .inl ⟨_, rfl⟩
        · rename_i t ht
          obtain ⟨t₀, -, ht⟩ := Run.bind_ok.1 ht
          obtain ⟨-, rfl⟩ := Transaction.transition_ok.1 ht
          exact .inr ⟨_, rfl, rfl⟩

theorem settle_eq {nextState : TxnState} (h : nextState ∈ s.session.transaction.state.stateMachine) :
    s.settle nextState = (s.setTransaction { s.session.transaction with state := nextState }, .returned none) := by
  unfold settle
  rw [Transaction.transition_ok.2 ⟨h, rfl⟩]

/-- `endTransaction` returns at once with an error, or without one for a transaction in which nothing was
sent, or has a command to send. -/
theorem endTransaction_cases (env : Env) (s : SessionState) (name : EndTransactionName) :
    ∃ s₁, s.Still s₁ ∧ ((∃ e, s.endTransaction env name = (s₁, .returned (some e))) ∨
      (∃ t, s.endTransaction env name = (s₁.setTransaction t, .returned none) ∧
        (s₁.session.transaction.state = .startingTransaction ∨
          s₁.session.transaction.state = .transactionCommittedEmpty) ∧
        (t.state = .transactionCommittedEmpty ∨ t.state = .transactionAborted)) ∨
      (s.endTransaction env name = (s₁, .send (s₁.endCommand name)) ∧
        (s₁.session.transaction.state = .transactionInProgress ∨
          s₁.session.transaction.state = .transactionCommitted ∧ name = .commitTransaction))) := by
  refine ⟨s.assertAlive env, still_getServerSession env s, ?_⟩
  unfold endTransaction
  simp only
  cases hstate : (s.assertAlive env).session.transaction.state with
  | noTransaction => exact .inl ⟨_, rfl⟩
  | startingTransaction =>
    cases name with
    | commitTransaction => exact .inr (.inl ⟨_, settle_eq (by rw [hstate]; decide), .inl rfl, .inl rfl⟩)
    | abortTransaction => exact .inr (.inl ⟨_, settle_eq (by rw [hstate]; decide), .inl rfl, .inr rfl⟩)
  | transactionInProgress => exact .inr (.inr ⟨rfl, .inl rfl⟩)
  | transactionCommitted =>
    cases name with
    | commitTransaction => exact .inr (.inr ⟨rfl, .inr ⟨rfl, rfl⟩⟩)
    | abortTransaction => exact .inl ⟨_, rfl⟩
  | transactionCommittedEmpty =>
    cases name with
    | commitTransaction => exact .inr (.inl ⟨_, settle_eq (by rw [hstate]; decide), .inr rfl, .inl rfl⟩)
    | abortTransaction => exact .inl ⟨_, rfl⟩
  | transactionAborted =>
    cases name with
    | commitTransaction => exact .inl ⟨_, rfl⟩
    | abortTransaction => exact .inl ⟨_, rfl⟩

theorem majorityOnRetry_bare {command : Command} (h : command.Bare) :
    (majorityOnRetry command).Bare ∧ isTransactionCommand (majorityOnRetry command) = isTransactionCommand command := by
  unfold majorityOnRetry
  split
  · exact ⟨⟨h.lsid, h.txnNumber, h.autocommit, h.startTransaction⟩, rfl⟩
  · exact ⟨h, rfl⟩

theorem endCommand_bare (s : SessionState) (name : EndTransactionName) :
    (s.endCommand name).Bare ∧ isTransactionCommand (s.endCommand name) = true := by
  refine ⟨⟨rfl, rfl, rfl, rfl⟩, ?_⟩
  cases name <;> rfl

end SessionState

/-! ## Chains of moves -/

/-- A chain of moves. -/
abbrev Moves (k : Prop) : World → World → Prop := Relation.ReflTransGen (Move k)

theorem Moves.sound {k : Prop} {w w' : World} (h : w.Sound) (hmoves : Moves k w w') : w'.Sound := by
  induction hmoves with
  | refl => exact h
  | tail _ hmove ih => exact hmove.sound ih

/-- A property that sound moves keep is kept by chains of them. -/
theorem Moves.inv {k : Prop} {P : World → Prop} (hmove : ∀ {w w'}, w.Sound → Move k w w' → P w → P w') {w w' : World}
    (h : w.Sound) (hmoves : Moves k w w') (hp : P w) : P w' := by
  induction hmoves with
  | refl => exact hp
  | tail hmoves' hm ih => exact hmove (Moves.sound h hmoves') hm ih

/-- The flight at another stage. -/
def Flight.staged (f : Flight) (stage : Stage) : Flight := { f with stage }

theorem ready_staged_operation {x : Client} {f : Flight} {stage : Stage} (h : f.purpose = .operation) :
    Ready x (f.staged stage) ↔ ReadyOperation x (f.staged stage) := ready_operation (f := f.staged stage) h

theorem ready_staged_end {x : Client} {f : Flight} {stage : Stage} {name : EndTransactionName} {command : Command}
    {retried endSession : Bool} (h : f.purpose = .endTransaction name command retried endSession) :
    Ready x (f.staged stage) ↔ ReadyEnd x (f.staged stage) name command := ready_end (f := f.staged stage) h

/-- What may still happen in a flight that runs. -/
theorem Ready.running {x : Client} {f : Flight} {p : Prog Unit} (h : Ready x (f.staged (.running p))) :
    ∃ retry, CallsBack retry p ∧
      (retry = true → f.purpose = .operation ∧ x.session.inTransaction = false ∧ f.options.willRetryWrite = false) ∧
      ∀ q, CallsBack retry q → Ready x (f.staged (.running q)) := by
  cases hpurpose : f.purpose with
  | operation =>
    replace h := (ready_staged_operation hpurpose).1 h
    refine ⟨_, h.running p rfl, ?_, fun q hq => ?_⟩
    · intro hretry
      exact ⟨rfl, by simpa [Flight.staged] using hretry⟩
    · refine (ready_staged_operation hpurpose).2 ⟨h.txn, h.isOpen, h.flagged, fun _ hstage => (nomatch hstage),
        fun q' hq' => ?_⟩
      cases hq'
      exact hq
  | endTransaction name command retried endSession =>
    replace h := (ready_staged_end hpurpose).1 h
    refine ⟨false, h.running p rfl, fun hretry => (nomatch hretry), fun q hq => ?_⟩
    refine (ready_staged_end hpurpose).2 ⟨h.closed, h.state, h.bare, h.isTransactionCommand, h.options,
      fun _ hstage => (nomatch hstage), fun q' hq' => ?_⟩
    cases hq'
    exact hq

/-- An `executeOperation` that waited for session support runs. -/
theorem Ready.execute {x : Client} {f : Flight} {op : AbstractOperation} (h : Ready x (f.staged (.checking op)))
    (env : Surroundings) : Ready x (f.staged (.running (executeOperation env x.session op))) ∧
      (f.staged (.running (executeOperation env x.session op))).landed = false := by
  cases hpurpose : f.purpose with
  | operation =>
    replace h := (ready_staged_operation hpurpose).1 h
    have hflag : f.options.willRetryWrite = false := h.checking op rfl
    have hp : CallsBack (!x.session.inTransaction && !f.options.willRetryWrite)
      (executeOperation env x.session op) := by
      refine executeOperation_callsBack env x.session op fun hretry => .inl ?_
      simpa [hflag] using hretry
    refine ⟨(ready_staged_operation hpurpose).2 ⟨h.txn, h.isOpen, h.flagged, fun _ hstage => (nomatch hstage),
      fun p hp' => ?_⟩, Flight.landed_running hp rfl⟩
    cases hp'
    exact hp
  | endTransaction name command retried endSession =>
    replace h := (ready_staged_end hpurpose).1 h
    obtain rfl := h.checking op rfl
    have hp : CallsBack false (executeOperation env x.session endOperation) :=
      executeOperation_callsBack env x.session endOperation fun _ => .inr rfl
    refine ⟨(ready_staged_end hpurpose).2 ⟨h.closed, h.state, h.bare, h.isTransactionCommand, h.options,
      fun _ hstage => (nomatch hstage), fun p hp' => ?_⟩, Flight.landed_running hp rfl⟩
    cases hp'
    exact hp

/-- What is sent for a flight before it is decorated. -/
theorem Ready.command {x : Client} {f : Flight} {command : Command} (h : Ready x f) (hplain : f.purpose = .operation →
    command.Bare ∧ isTransactionCommand command = false) : (f.command command).Bare ∧
      f.txn.isSome = (x.session.inTransaction || isTransactionCommand (f.command command)) := by
  unfold Flight.command
  cases hpurpose : f.purpose with
  | operation =>
    replace h := (ready_operation hpurpose).1 h
    obtain ⟨hbare, hcommand⟩ := hplain hpurpose
    show command.Bare ∧ f.txn.isSome = (x.session.inTransaction || isTransactionCommand command)
    rw [hcommand, Bool.or_false, h.txn]
    exact ⟨hbare, h.isOpen⟩
  | endTransaction name sent retried endSession =>
    replace h := (ready_end hpurpose).1 h
    obtain ⟨st, -, -, htxn⟩ := h.closed
    show sent.Bare ∧ f.txn.isSome = (x.session.inTransaction || isTransactionCommand sent)
    rw [h.isTransactionCommand, Bool.or_true, htxn]
    exact ⟨h.bare, rfl⟩

namespace World

variable {k : Prop} {env : Surroundings} {w w' : World} {c i : Nat} {x : Client} {s s' : SessionState} {f g : Flight}
  {stage : Stage}

theorem put_eq (hx : w.clients[c]? = some x) (s : SessionState) :
    w.put c s = { w with pool := s.pool, clients := w.clients.set c { x with session := s.session } } := by
  unfold put
  rw [Heap.modify_eq_set _ hx]

theorem mark_eq (hx : w.clients[c]? = some x) (φ : Option Started → Option Started) :
    w.mark c φ = { w with clients := w.clients.set c { x with started := φ x.started } } := by
  unfold mark
  rw [Heap.modify_eq_set _ hx]

theorem put_mark_put (w : World) (c : Nat) (s s' : SessionState) (φ : Option Started → Option Started) :
    ((w.put c s).mark c φ).put c s' = (w.mark c φ).put c s' := by
  unfold put mark
  simp only [List.modify_modify_eq]
  rfl

theorem setFlight_setFlight (w : World) (i : Nat) (f g : Flight) :
    (w.setFlight i f).setFlight i g = w.setFlight i g := by
  unfold setFlight
  rw [List.set_set]

theorem setFlight_self (h : w.flights[i]? = some f) : w.setFlight i f = w := by
  unfold setFlight
  rw [← Heap.set_get h]

theorem clients_put (hx : w.clients[c]? = some x) (s : SessionState) :
    (w.put c s).clients[c]? = some { x with session := s.session } := by
  rw [put_eq hx]
  exact Heap.get_set_self hx

/-- A session that stands still does so in the world. -/
theorem still_put (h : w.Accounted False) (hx : w.clients[c]? = some x)
    (hs : SessionState.Still ⟨w.pool, x.session⟩ s') :
    w.Still (w.put c s') := by
  refine ⟨h.put (stateOf_client hx) hs.keeps, hs.number, ?_, rfl, rfl, rfl⟩
  intro d
  rw [put_eq hx]
  by_cases hd : c = d
  · subst hd
    rw [show (w.clients.set c { x with session := s'.session })[c]? = some _ from Heap.get_set_self hx, hx]
    exact .some ⟨hs.alike, rfl⟩
  · rw [show (w.clients.set c { x with session := s'.session })[d]? = w.clients[d]? from List.getElem?_set_ne hd]
    cases w.clients[d]? with
    | none => exact .none
    | some y => exact .some ⟨.refl _, rfl⟩

/-- `completeEndSession`: the server session is read, then returned. -/
theorem completeEndSession_moves (env : Surroundings) (h : w.Sound) (hx : w.clients[c]? = some x)
    (hidle : w.idle c = true)
    (hout : x.session.inTransaction = false) :
    Moves k w (w.put c (SessionState.completeEndSession env.toEnv ⟨w.pool, x.session⟩)) := by
  have hget := SessionState.still_getServerSession env.toEnv ⟨w.pool, x.session⟩
  have hstill := still_put h.accounted hx hget
  have hx₁ := clients_put hx (SessionState.getServerSession env.toEnv ⟨w.pool, x.session⟩).1
  have haccounted := h.accounted.put (stateOf_client hx)
    (SessionState.keeps_completeEndSession (b := False) env.toEnv ⟨w.pool, x.session⟩)
  refine .tail (.single (.still hstill)) ?_
  have heq : w.put c (SessionState.completeEndSession env.toEnv ⟨w.pool, x.session⟩) =
      { w.put c (SessionState.getServerSession env.toEnv ⟨w.pool, x.session⟩).1 with
        pool := (SessionState.completeEndSession env.toEnv ⟨w.pool, x.session⟩).pool
        clients := (w.put c (SessionState.getServerSession env.toEnv ⟨w.pool, x.session⟩).1).clients.set c
          { x with session := { (SessionState.getServerSession env.toEnv ⟨w.pool, x.session⟩).1.session with
            serverSession := none, hasEnded := true } } } := by
    rw [put_eq hx, put_eq hx]
    simp only [List.set_set]
    rfl
  rw [heq] at haccounted ⊢
  refine .endSession hx₁ hidle (hget.alike.inTransaction.trans hout) ?_ haccounted
  exact ServerSessionPool.number_release ..

theorem commandHandler_eq {name : EndTransactionName}
    (h : s.session.transaction.state = .transactionInProgress ∨
      s.session.transaction.state = .transactionCommitted ∧ name = .commitTransaction) :
    ∃ t, s.commandHandler name = .ok (s.setTransaction t) ∧
      (t.state = .transactionCommitted ∧ name = .commitTransaction ∨
        t.state = .transactionAborted ∧ name = .abortTransaction) := by
  unfold SessionState.commandHandler
  simp only
  cases name with
  | commitTransaction =>
    rw [Transaction.transition_ok.2 ⟨?_, rfl⟩]
    · exact ⟨_, rfl, .inl ⟨rfl, rfl⟩⟩
    · rcases h with h | ⟨h, -⟩
      · rw [h]; decide
      · rw [h]; decide
  | abortTransaction =>
    rw [Transaction.transition_ok.2 ⟨?_, rfl⟩]
    · exact ⟨_, rfl, .inr ⟨rfl, rfl⟩⟩
    · rcases h with h | ⟨-, h⟩
      · rw [h]; decide
      · cases h

/-! ## Flights

The world that a flight goes on in is `w.setFlight i (f.staged stage)`: the functions are given the flight and
store it at the end. -/

theorem finish_moves (h : (w.setFlight i (f.staged stage)).Sound)
    (hair : (w.setFlight i (f.staged stage)).Air i (f.staged stage)) :
    Moves k (w.setFlight i (f.staged stage)) (w.finish env i f) := by
  have hland : ∀ v : World, (v.setFlight i (f.staged stage)).land i (f.staged stage) = v.land i f :=
    fun v => setFlight_setFlight v i _ _
  obtain ⟨x, hx, hready⟩ := h.ready i _ hair
  replace hx : w.clients[f.client]? = some x := hx
  cases hpurpose : f.purpose with
  | operation =>
    have hfinish : w.finish env i f = w.land i f := by
      unfold finish
      rw [hpurpose]
    rw [hfinish, ← hland w]
    exact .single (.land hair hpurpose)
  | endTransaction name command retried endSession =>
    have hend : ReadyEnd x (f.staged stage) name command := (ready_staged_end hpurpose).1 hready
    obtain ⟨t, hhandler, ht⟩ := commandHandler_eq (s := ⟨w.pool, x.session⟩) hend.state
    have hfinish : w.finish env i f = (w.put f.client (if endSession then
        SessionState.completeEndSession env.toEnv ⟨w.pool, (x.setTransaction t).session⟩
        else ⟨w.pool, (x.setTransaction t).session⟩)).land i f := by
      unfold finish
      rw [hpurpose, stateOf_client hx]
      simp only [hhandler]
      rfl
    have hmove : Move k (w.setFlight i (f.staged stage)) _ := .finish hair hpurpose hx ht
    have hsound := hmove.sound h
    rw [hfinish]
    cases endSession with
    | false =>
      refine .single ?_
      rw [put_eq hx, ← hland]
      exact hmove
    | true =>
      refine .trans (.single hmove) ?_
      have hx₁ : (w.clients.set f.client (x.setTransaction t))[f.client]? = some (x.setTransaction t) :=
        Heap.get_set_self hx
      have hidle : (({ w.setFlight i (f.staged stage) with
          clients := w.clients.set f.client (x.setTransaction t) } : World).land i (f.staged stage)).idle f.client =
            true := by
        exact idle_iff.2 fun j g hg => h.grounded hair rfl rfl hg
      have hout : (x.setTransaction t).session.inTransaction = false :=
        TxnState.not_active_of_isCommitted (TxnState.isCommitted_of_finished ht)
      have hcomplete := completeEndSession_moves (k := k) env hsound hx₁ hidle hout
      refine cast (congrArg _ ?_) hcomplete
      rw [put_eq hx₁, put_eq hx, ← hland]
      show World.mk _ ((w.clients.set f.client _).set f.client _) _ _ _ _ = World.mk ..
      rw [List.set_set]
      rfl

/-- A callback that a chain of moves leads to, from wherever its flight is called back. -/
def Lands (k : Prop) (i : Nat) (callback : World → Flight → Outcome Unit → World) : Prop :=
  ∀ {w : World} {f : Flight} {stage : Stage} (o : Outcome Unit), (w.setFlight i (f.staged stage)).Sound →
    (w.setFlight i (f.staged stage)).Air i (f.staged stage) → Moves k (w.setFlight i (f.staged stage)) (callback w f o)

/-- What follows: the callback, or the next wait. -/
theorem wait_moves {callback : World → Flight → Outcome Unit → World} (hcallback : Lands k i callback) (w : World)
    (f : Flight) (p : Prog Unit) :
    (w.setFlight i (f.staged (.running p))).Sound →
    (w.setFlight i (f.staged (.running p))).Air i (f.staged (.running p)) →
    Moves k (w.setFlight i (f.staged (.running p))) (match p with
      | .callback o _ => callback w f o
      | p' => w.setFlight i { f with stage := .running p' }) := by
  intro h hair
  split
  · exact hcallback _ h hair
  · exact .refl

theorem resumeWith_moves {callback : World → Flight → Outcome Unit → World} (hcallback : Lands k i callback)
    {p : Prog Unit} (h : (w.setFlight i (f.staged (.running p))).Sound)
    (hair : (w.setFlight i (f.staged (.running p))).Air i (f.staged (.running p))) :
    Moves k (w.setFlight i (f.staged (.running p))) (w.resumeWith env callback i f p) := by
  obtain ⟨x, hx, hready⟩ := h.ready i _ hair
  replace hx : w.clients[f.client]? = some x := hx
  obtain ⟨retry, hp, hretry, hnext⟩ := hready.running
  obtain ⟨hflag, hcalls⟩ := advance_callsBack (env.view x.session) hp
  have hlt : i < w.flights.length := by
    have := (List.getElem?_eq_some_iff.1 hair.1).1
    rwa [show (w.setFlight i (f.staged (.running p))).flights.length = w.flights.length from List.length_set] at this
  unfold resumeWith
  rw [stateOf_client hx]
  simp only
  cases hadvance : (advance (env.view x.session) p).1 with
  | false =>
    rw [hadvance, Bool.not_false, Bool.and_true] at hcalls
    have hmove : Move k (w.setFlight i (f.staged (.running p)))
        ((w.setFlight i (f.staged (.running p))).setFlight i
          (f.staged (.running (advance (env.view x.session) p).2))) :=
      .turn hair hx (Flight.landed_running hcalls rfl) (hnext _ hcalls) rfl rfl rfl
    have hsound := hmove.sound h
    rw [setFlight_setFlight] at hmove hsound
    simp only [Bool.false_eq_true, if_false, Bool.or_false]
    refine .trans (.single hmove) (wait_moves hcallback w f _ hsound ⟨?_, Flight.landed_running hcalls rfl⟩)
    exact List.getElem?_set_self hlt
  | true =>
    obtain ⟨hpurpose, hout, hunflagged⟩ := hretry (hflag hadvance)
    rw [hadvance, Bool.not_true, Bool.and_false] at hcalls
    -- the server session is read, then its number incremented
    have hget := SessionState.still_getServerSession env.toEnv ⟨w.pool, x.session⟩
    have hx₁ := clients_put (w := w.setFlight i (f.staged (.running p))) hx
      (SessionState.getServerSession env.toEnv ⟨w.pool, x.session⟩).1
    have hmove₁ : Move k (w.setFlight i (f.staged (.running p))) _ := .still (still_put h.accounted hx hget)
    have heq : ∀ g, ({ (w.setFlight i (f.staged (.running p))).put f.client
        (SessionState.getServerSession env.toEnv ⟨w.pool, x.session⟩).1 with
          pool := (SessionState.getServerSession env.toEnv ⟨w.pool, x.session⟩).1.pool.increment
            (SessionState.getServerSession env.toEnv ⟨w.pool, x.session⟩).2 } : World).setFlight i g =
        (w.put f.client (SessionState.incrementTransactionNumber env.toEnv ⟨w.pool, x.session⟩)).setFlight i g := by
      intro g
      rw [SessionState.incrementTransactionNumber_eq]
      show World.mk _ _ ((w.flights.set i _).set i g) _ _ _ = World.mk ..
      rw [List.set_set]
      rfl
    have hmove₂ : Move k ((w.setFlight i (f.staged (.running p))).put f.client
          (SessionState.getServerSession env.toEnv ⟨w.pool, x.session⟩).1)
        ((w.put f.client (SessionState.incrementTransactionNumber env.toEnv ⟨w.pool, x.session⟩)).setFlight i
          (Flight.staged { f with options := { f.options with willRetryWrite := true } }
            (.running (advance (env.view x.session) p).2))) := by
      rw [← heq]
      exact .retry (f := f.staged (.running p)) hair hpurpose hx₁ (SessionState.getServerSession_serverSession ..)
        (hget.alike.inTransaction.trans hout) hunflagged hcalls
    simp only [Bool.or_true, if_true]
    refine .trans (.tail (.single hmove₁) hmove₂) (wait_moves hcallback _ _ _ (hmove₂.sound (hmove₁.sound h)) ⟨?_, ?_⟩)
    · exact List.getElem?_set_self hlt
    · exact Flight.landed_running hcalls rfl

/-- A flight that waited for session support, or does not have to wait for it, runs. -/
theorem execute_moves (env : Surroundings) (op : AbstractOperation) {callback : World → Flight → Outcome Unit → World}
    (hcallback : Lands k i callback) (h : (w.setFlight i (f.staged (.checking op))).Sound)
    (hlt : i < w.flights.length) (hx : w.clients[f.client]? = some x) :
    Moves k (w.setFlight i (f.staged (.checking op)))
      (w.resumeWith env callback i f (executeOperation env x.session op)) := by
  have hair : (w.setFlight i (f.staged (.checking op))).Air i (f.staged (.checking op)) :=
    ⟨List.getElem?_set_self hlt, Flight.landed_checking rfl⟩
  obtain ⟨y, hy, hready⟩ := h.ready i _ hair
  obtain rfl := Option.some.inj (hx.symm.trans hy)
  obtain ⟨hready', hlanded⟩ := hready.execute env
  have hmove : Move k (w.setFlight i (f.staged (.checking op))) _ := .turn hair hx hlanded hready' rfl rfl rfl
  have hsound := hmove.sound h
  rw [setFlight_setFlight] at hmove hsound
  exact .trans (.single hmove) (resumeWith_moves hcallback hsound ⟨List.getElem?_set_self hlt, hlanded⟩)

theorem enterWith_moves {callback : World → Flight → Outcome Unit → World} (hcallback : Lands k i callback)
    {op : AbstractOperation} (h : (w.setFlight i (f.staged (.checking op))).Sound) (hlt : i < w.flights.length)
    (hx : w.clients[f.client]? = some x) :
    Moves k (w.setFlight i (f.staged (.checking op))) (w.enterWith env callback i f op) := by
  unfold enterWith
  rw [stateOf_client hx]
  simp only
  split
  · exact .refl
  · exact execute_moves env op hcallback h hlt hx

theorem lands_finish (env : Surroundings) : Lands k i fun w f _ => w.finish env i f :=
  fun _ h hair => finish_moves h hair

theorem lands_complete (env : Surroundings) : Lands k i fun w f o => w.complete env i f o := by
  intro w f stage o h hair
  show Moves k _ (w.complete env i f o)
  unfold complete
  split
  · rename_i name command endSession hpurpose
    split
    · -- the command is sent once more
      obtain ⟨x, hx, hready⟩ := h.ready i _ hair
      have hlt : i < w.flights.length := by
        have := (List.getElem?_eq_some_iff.1 hair.1).1
        rwa [show (w.setFlight i (f.staged stage)).flights.length = w.flights.length from List.length_set] at this
      replace hready := (ready_staged_end hpurpose).1 hready
      have hready' : Ready x (Flight.staged
          { f with purpose := .endTransaction name (SessionState.majorityOnRetry command) true endSession }
          (.checking endOperation)) := by
        obtain ⟨hbare, hcommand⟩ := SessionState.majorityOnRetry_bare hready.bare
        refine ⟨hready.closed, hready.state, hbare, hcommand.trans hready.isTransactionCommand, hready.options, ?_, ?_⟩
        · intro op hop
          cases hop
          rfl
        · intro p hp
          cases hp
      have hmove : Move k (w.setFlight i (f.staged stage)) _ :=
        .turn hair hx (Flight.landed_checking rfl) hready' rfl rfl rfl
      have hsound := hmove.sound h
      rw [setFlight_setFlight] at hmove hsound
      exact .trans (.single hmove) (enterWith_moves (lands_finish env) hsound hlt hx)
    · exact finish_moves h hair
  · exact finish_moves h hair

theorem resume_moves {p : Prog Unit} (h : (w.setFlight i (f.staged (.running p))).Sound)
    (hair : (w.setFlight i (f.staged (.running p))).Air i (f.staged (.running p))) :
    Moves k (w.setFlight i (f.staged (.running p))) (w.resume env i f p) :=
  resumeWith_moves (lands_complete env) h hair

/-- A flight that waited for an answer gets it. -/
theorem answer_moves {p q : Prog Unit} (h : w.Sound) (hf : w.flights[i]? = some f) (hstage : f.stage = .running p)
    (hnext : ∀ retry, CallsBack retry p → CallsBack retry q) (hp : p ≠ .done) : Moves k w (w.resume env i f q) := by
  have hair : w.Air i f := ⟨hf, Flight.landed_waiting hstage hp⟩
  have hsame : f = f.staged (.running p) := by
    unfold Flight.staged
    rw [← hstage]
  obtain ⟨x, hx, hready⟩ := h.ready i f hair
  rw [hsame] at hready
  obtain ⟨retry, hp, -, hready⟩ := hready.running
  have hq := hnext retry hp
  have hmove : Move k w _ := .turn hair hx (Flight.landed_running hq rfl) (hready q hq) rfl rfl rfl
  refine .trans (.single hmove) (resume_moves (hmove.sound h) ⟨?_, Flight.landed_running hq rfl⟩)
  exact Heap.get_set_self hf

theorem checked_moves {op : AbstractOperation} (h : w.Sound) (hf : w.flights[i]? = some f)
    (hstage : f.stage = .checking op)
    (hx : w.clients[f.client]? = some x) : Moves k w (w.resume env i f (executeOperation env x.session op)) := by
  have hsame : f = f.staged (.checking op) := by
    unfold Flight.staged
    rw [← hstage]
  have hw : w.setFlight i (f.staged (.checking op)) = w := by
    rw [← hsame]
    exact setFlight_self hf
  have := execute_moves (k := k) (w := w) env op (lands_complete env) (hw.symm ▸ h)
    (List.getElem?_eq_some_iff.1 hf).1 hx
  rw [hw] at this
  exact this

theorem launched_moves {op : AbstractOperation} (hx : w.clients[f.client]? = some x)
    (h : ({ w with flights := w.flights ++ [f.staged (.checking op)] } : World).Sound) :
    Moves k { w with flights := w.flights ++ [f.staged (.checking op)] } (w.launch env f op) := by
  have hw : ({ w with flights := w.flights ++ [f] } : World).setFlight w.flights.length (f.staged (.checking op)) =
      { w with flights := w.flights ++ [f.staged (.checking op)] } := by
    unfold setFlight
    simp
  rw [← hw] at h ⊢
  exact enterWith_moves (lands_complete env) h (by simp) hx

/-- An operation starts. -/
theorem launch_moves {op : AbstractOperation} (h : w.Sound) (hx : w.clients[f.client]? = some x)
    (hidle : w.idle f.client = true) (hpurpose : f.purpose = .operation) (htxn : f.txn = x.openTxn)
    (hflag : f.options.willRetryWrite = false) : Moves k w (w.launch env f op) := by
  have hready : Ready x (f.staged (.checking op)) := by
    refine (ready_staged_operation hpurpose).2 ⟨htxn, h.isOpen f.client x hx hidle, fun hflag' => ?_,
      fun _ _ => hflag, fun _ hstage => (nomatch hstage)⟩
    rw [show (f.staged (.checking op)).options = f.options from rfl, hflag] at hflag'
    cases hflag'
  have hmove : Move k w _ := .launch (f := f.staged (.checking op)) hx hidle
    (Flight.landed_checking rfl) hpurpose hready hflag
  exact .trans (.single hmove) (launched_moves hx (hmove.sound h))

end World

end MongoDriver.Sessions
