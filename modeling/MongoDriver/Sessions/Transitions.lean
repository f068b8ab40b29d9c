/-
The states of transactions, seen from the outside. For every client session the state of its transaction is kept, and
for every flight in the air the transaction it ends; what a step does to the two is said once (`Turn`), whatever
the order of the calls. Invariants of overlapping calls are proved from it in `Sessions/Overlap.lean`.
-/
import MongoDriver.Sessions.FlightMoves
import Mathlib.Logic.Function.Basic

namespace MongoDriver.Sessions

open Operations (AbstractOperation Outcome Prog)

/-! ## States and calls in the air -/

/-- Where the transaction of a client session is, and whether the session is for snapshot reads. -/
def ClientSession.phase (x : ClientSession) : Bool × TxnState := (x.snapshotEnabled, x.transaction.state)

def World.phase (w : World) (c : Nat) : Option (Bool × TxnState) := w.clients[c]?.map (·.session.phase)

/-- The session a flight ends the transaction of, and how. -/
def Flight.ending (f : Flight) : Option (Nat × EndTransactionName) :=
  match f.purpose with
  | .operation => none
  | .endTransaction name _ _ _ => some (f.client, name)

/-- The same for the flight `i`, while it is in the air. -/
def World.ending (w : World) (i : Nat) : Option (Nat × EndTransactionName) :=
  w.flights[i]?.bind fun f => if f.landed then none else f.ending

/-- The state that `commandHandler` asks for. -/
def EndTransactionName.target : EndTransactionName → TxnState
  | commitTransaction => .transactionCommitted
  | abortTransaction => .transactionAborted

/-- What `commandHandler` leaves a transaction in: nothing changes when the transition throws. -/
def TxnState.handled (state : TxnState) (name : EndTransactionName) : TxnState :=
  if name.target ∈ state.stateMachine then name.target else state

/-- An error that `transition` throws. -/
def AnyError.Illegal (err : AnyError) : Prop := ∃ state nextState, err = illegalTransition state nextState

theorem illegal_cls {err : AnyError} (h : AnyError.Illegal err) : err.cls = .mongoRuntimeError := by
  obtain ⟨state, nextState, rfl⟩ := h
  rfl

theorem not_illegal {err : AnyError} (h : err.cls ≠ .mongoRuntimeError) : ¬ AnyError.Illegal err :=
  fun hillegal => h (illegal_cls hillegal)

/-- The states in which the answer to a commit or an abort finds its transition. -/
theorem target_mem {state : TxnState} {name : EndTransactionName} : name.target ∈ state.stateMachine ↔
    state.isActive = true ∨ state = .transactionCommitted ∧ name = .commitTransaction := by
  cases name <;> cases state <;> decide

/-! ## What the functions of a session do to its state -/

namespace SessionState

variable {env : Env} {s s' : SessionState}

theorem getServerSession_phase (env : Env) (s : SessionState) :
    (s.getServerSession env).1.session.phase = s.session.phase := by
  unfold getServerSession
  split <;> rfl

theorem modifyServerSession_phase (env : Env) (s : SessionState) (f : ServerSession → ServerSession) :
    (s.modifyServerSession env f).session.phase = s.session.phase := getServerSession_phase env s

theorem completeEndSession_phase (env : Env) (s : SessionState) :
    (s.completeEndSession env).session.phase = s.session.phase := getServerSession_phase env s

theorem markDirty_phase (env : Env) (s : SessionState) : (s.markDirty env).session.phase = s.session.phase := by
  unfold markDirty
  split
  · rfl
  · exact modifyServerSession_phase ..

theorem updateSessionFromResponse_phase (s : SessionState) (reply : ReplyTimes) :
    (s.updateSessionFromResponse reply).session.phase = s.session.phase := by
  unfold updateSessionFromResponse ClientSession.phase
  simp only
  split <;> rfl

/-- `startTransaction` starts a transaction, or throws: in a transaction a `MongoTransactionError`. -/
theorem startTransaction_phase (env : Env) (s : SessionState) (deployment : Deployment) (options : TransactionOptions) :
    (∃ err, (s.startTransaction env deployment options).2 = .error err ∧ ¬ AnyError.Illegal err ∧
      (s.startTransaction env deployment options).1.session.phase = s.session.phase ∧
      (s.session.snapshotEnabled = false → s.session.inTransaction = true → err.cls = .mongoTransactionError)) ∨
    (s.startTransaction env deployment options).2 = .ok () ∧ s.session.snapshotEnabled = false ∧
      s.session.inTransaction = false ∧
      (s.startTransaction env deployment options).1.session.phase = (false, .startingTransaction) := by
  have hphase : (s.assertAlive env).session.phase = s.session.phase := getServerSession_phase env s
  have hin : (s.assertAlive env).session.inTransaction = s.session.inTransaction :=
    (still_getServerSession env s).alike.inTransaction
  unfold startTransaction
  split
  · rename_i hsnap
    refine .inl ⟨_, rfl, not_illegal (by decide), rfl, fun h => ?_⟩
    rw [h] at hsnap
    cases hsnap
  · rename_i hsnap
    simp only
    split
    · exact .inl ⟨_, rfl, not_illegal (by decide), hphase, fun _ _ => rfl⟩
    · rename_i hout
      rw [hin] at hout
      split
      · exact .inl ⟨_, rfl, not_illegal (by decide), hphase, fun _ h => absurd h hout⟩
      · split
        · rename_i err herr
          refine .inl ⟨err, rfl, ?_, (modifyServerSession_phase ..).trans hphase, fun _ h => absurd h hout⟩
          unfold Transaction.new at herr
          split at herr
          · cases herr
            exact not_illegal (by decide)
          · cases herr
        · rename_i t ht
          obtain ⟨t₀, -, ht⟩ := Run.bind_ok.1 ht
          obtain ⟨-, rfl⟩ := Transaction.transition_ok.1 ht
          have hsnap' : s.session.snapshotEnabled = false := by simpa using hsnap
          refine .inr ⟨rfl, hsnap', by simpa using hout, ?_⟩
          have hkept := (modifyServerSession_phase env (s.assertAlive env)
            fun x => { x with txnNumber := x.txnNumber + 1 }).trans hphase
          exact Prod.ext ((congrArg Prod.fst hkept).trans hsnap') rfl

/-- What `endTransaction` does before it waits: misuse is a `MongoTransactionError`, a transaction in which nothing
was sent is over, or there is a command to send. -/
theorem endTransaction_phase (env : Env) (s : SessionState) (name : EndTransactionName) :
    (∃ s₁ err, s.endTransaction env name = (s₁, .returned (some err)) ∧ err.cls = .mongoTransactionError ∧
      s₁.session.phase = s.session.phase ∧ s.session.inTransaction = false) ∨
    (∃ s₁ state, s.endTransaction env name = (s₁, .returned none) ∧
      s₁.session.phase = (s.session.snapshotEnabled, state) ∧
      (s.session.transaction.state = .startingTransaction ∨
        s.session.transaction.state = .transactionCommittedEmpty ∧ name = .commitTransaction) ∧
      (state = .transactionCommittedEmpty ∨ state = .transactionAborted)) ∨
    ∃ s₁, s.endTransaction env name = (s₁, .send (s₁.endCommand name)) ∧ s₁.session.phase = s.session.phase ∧
      (s.session.transaction.state = .transactionInProgress ∨
        s.session.transaction.state = .transactionCommitted ∧ name = .commitTransaction) := by
  have hphase : (s.assertAlive env).session.phase = s.session.phase := getServerSession_phase env s
  have hsnap : (s.assertAlive env).session.snapshotEnabled = s.session.snapshotEnabled := congrArg Prod.fst hphase
  have hstate : (s.assertAlive env).session.transaction.state = s.session.transaction.state := congrArg Prod.snd hphase
  have hsettle : ∀ state, state ∈ (s.assertAlive env).session.transaction.state.stateMachine →
      ∃ s₁, (s.assertAlive env).settle state = (s₁, .returned none) ∧
        s₁.session.phase = (s.session.snapshotEnabled, state) := fun state hmem =>
    ⟨_, settle_eq hmem, Prod.ext hsnap rfl⟩
  have hout : s.session.transaction.state.isActive = false → s.session.inTransaction = false := id
  unfold endTransaction
  simp only
  rw [hstate] at hsettle ⊢
  cases hs : s.session.transaction.state with
  | noTransaction => exact .inl ⟨_, _, rfl, rfl, hphase, hout (by rw [hs]; rfl)⟩
  | startingTransaction =>
    rw [hs] at hsettle
    cases name with
    | commitTransaction =>
      obtain ⟨s₁, heq, hp⟩ := hsettle .transactionCommittedEmpty (by decide)
      exact .inr (.inl ⟨s₁, _, heq, hp, .inl rfl, .inl rfl⟩)
    | abortTransaction =>
      obtain ⟨s₁, heq, hp⟩ := hsettle .transactionAborted (by decide)
      exact .inr (.inl ⟨s₁, _, heq, hp, .inl rfl, .inr rfl⟩)
  | transactionInProgress => exact .inr (.inr ⟨_, rfl, hphase, .inl rfl⟩)
  | transactionCommitted =>
    cases name with
    | commitTransaction => exact .inr (.inr ⟨_, rfl, hphase, .inr ⟨rfl, rfl⟩⟩)
    | abortTransaction => exact .inl ⟨_, _, rfl, rfl, hphase, hout (by rw [hs]; rfl)⟩
  | transactionCommittedEmpty =>
    cases name with
    | commitTransaction =>
      rw [hs] at hsettle
      obtain ⟨s₁, heq, hp⟩ := hsettle .transactionCommittedEmpty (by decide)
      exact .inr (.inl ⟨s₁, _, heq, hp, .inr ⟨rfl, rfl⟩, .inl rfl⟩)
    | abortTransaction => exact .inl ⟨_, _, rfl, rfl, hphase, hout (by rw [hs]; rfl)⟩
  | transactionAborted =>
    cases name with
    | commitTransaction => exact .inl ⟨_, _, rfl, rfl, hphase, hout (by rw [hs]; rfl)⟩
    | abortTransaction => exact .inl ⟨_, _, rfl, rfl, hphase, hout (by rw [hs]; rfl)⟩

/-- What `applySession` does to the state: it stays, the first command of a transaction begins it, or a command
outside of one leaves it behind. -/
inductive Decorates (s : SessionState) (command : Command) : TxnState → Prop
  | stays : Decorates s command s.session.transaction.state
  | begins (h : s.session.transaction.state = .startingTransaction) : Decorates s command .transactionInProgress
  | leaves (hlive : s.session.hasEnded = false) (hout : s.session.inTransaction = false)
      (hcommand : isTransactionCommand command = false) : Decorates s command .noTransaction

/-- A command in a transaction is decorated, and begins one that is starting. -/
theorem applyTransaction_phase (s : SessionState) (command : Command) :
    (∀ err, (s.applyTransaction command).2 ≠ .error err) ∧
      (s.applyTransaction command).1.session.phase = (s.session.snapshotEnabled,
        if s.session.transaction.state = .startingTransaction then .transactionInProgress
        else s.session.transaction.state) := by
  obtain ⟨t, command', heq, -, -, -, hfirst, hlater⟩ := applyTransaction_eq s command
  rw [heq]
  refine ⟨fun err h => (nomatch h), Prod.ext rfl ?_⟩
  show t.state = _
  split
  · rename_i hstart
    exact (hfirst hstart).2
  · rename_i hstart
    exact (hlater hstart).2

/-- A command outside of a transaction is decorated, and leaves one that is over. -/
theorem leaveTransaction_phase (command : Command) (h : s.session.inTransaction = false) :
    (∀ err, (s.leaveTransaction command).2 ≠ .error err) ∧
      (s.leaveTransaction command).1.session.phase = (s.session.snapshotEnabled, .noTransaction) := by
  obtain ⟨t, command', heq, -, -, -, -, ht⟩ := leaveTransaction_eq command h
  rw [heq]
  exact ⟨fun err h => (nomatch h), Prod.ext rfl ht⟩

theorem applySession_phase (env : Env) (s : SessionState) (command : Command) (options : CommandOptions) :
    (∀ err, (s.applySession env command options).2 = .error err → ¬ AnyError.Illegal err) ∧
      ∃ state, Decorates s command state ∧
        (s.applySession env command options).1.session.phase = (s.session.snapshotEnabled, state) := by
  have hphase := getServerSession_phase env s
  have hsnap : (s.getServerSession env).1.session.snapshotEnabled = s.session.snapshotEnabled :=
    congrArg Prod.fst hphase
  have hstate : (s.getServerSession env).1.session.transaction.state = s.session.transaction.state :=
    congrArg Prod.snd hphase
  unfold applySession
  split
  · refine ⟨fun err herr => ?_, _, .stays, rfl⟩
    cases herr
    exact not_illegal (by decide)
  · rename_i hlive
    replace hlive : s.session.hasEnded = false := by simpa using hlive
    simp only
    split
    · refine ⟨fun err herr => ?_, _, .stays, hphase⟩
      split at herr
      · cases herr
        exact not_illegal (by decide)
      · cases herr
    · split
      · refine ⟨fun err herr => ?_, _, ?_, (applyTransaction_phase ..).2.trans (by rw [hsnap])⟩
        · exact absurd herr ((applyTransaction_phase ..).1 err)
        · simp only [hstate]
          split
          · rename_i hstart
            exact .begins hstart
          · exact .stays
      · rename_i hout
        have hin : (s.getServerSession env).1.session.inTransaction = s.session.inTransaction :=
          (still_getServerSession env s).alike.inTransaction
        have hout' : (s.getServerSession env).1.session.inTransaction = false ∧
          isTransactionCommand command = false := by
          simpa using hout
        have hleave := fun command => leaveTransaction_phase
          (s := s.modifyServerSession env fun x => { x with lastUse := env.now }) command hout'.1
        refine ⟨fun err herr => ?_, _, .leaves hlive (hin ▸ hout'.1) hout'.2, (hleave _).2.trans ?_⟩
        · exact absurd herr ((hleave _).1 err)
        · exact Prod.ext hsnap rfl

/-- `commandHandler` changes the state, or throws. -/
theorem commandHandler_phase (s : SessionState) (name : EndTransactionName) :
    (name.target ∈ s.session.transaction.state.stateMachine ∧ ∃ s', s.commandHandler name = .ok s' ∧
      s'.session.phase = (s.session.snapshotEnabled, name.target)) ∨
    (name.target ∉ s.session.transaction.state.stateMachine ∧
      s.commandHandler name = .error (illegalTransition s.session.transaction.state name.target)) := by
  by_cases hmem : name.target ∈ s.session.transaction.state.stateMachine
  · have hok : s.session.transaction.transition name.target =
        .ok { s.session.transaction with state := name.target } := if_pos hmem
    refine .inl ⟨hmem, s.setTransaction { s.session.transaction with state := name.target }, ?_, rfl⟩
    unfold commandHandler
    cases name with
    | commitTransaction =>
      simp only [EndTransactionName.target] at hok ⊢
      rw [hok]
    | abortTransaction =>
      simp only [EndTransactionName.target] at hok ⊢
      rw [hok]
  · have herror : s.session.transaction.transition name.target =
        .error (illegalTransition s.session.transaction.state name.target) := if_neg hmem
    refine .inr ⟨hmem, ?_⟩
    unfold commandHandler
    cases name with
    | commitTransaction =>
      simp only [EndTransactionName.target] at herror ⊢
      rw [herror]
    | abortTransaction =>
      simp only [EndTransactionName.target] at herror ⊢
      rw [herror]

end SessionState

/-! ## Flights -/

/-- A flight that is not over calls back sooner or later. -/
def Flight.Lively (f : Flight) : Prop := ∀ p, f.stage = .running p → f.landed = true ∨ ∃ retry, CallsBack retry p

namespace World

variable {env : Surroundings} {w w' w₁ : World} {c i : Nat} {x : Client} {s s' : SessionState} {f g : Flight}

theorem phase_put (hx : w.clients[c]? = some x) (s : SessionState) :
    (w.put c s).phase = Function.update w.phase c (some s.session.phase) := by
  funext d
  unfold phase
  rw [put_eq hx]
  by_cases hd : d = c
  · subst hd
    rw [Function.update_self]
    exact congrArg (Option.map _) (Heap.get_set_self hx)
  · rw [Function.update_of_ne hd]
    exact congrArg (Option.map _) (List.getElem?_set_ne (Ne.symm hd))

theorem phase_some (hx : w.clients[c]? = some x) : w.phase c = some x.session.phase := by
  unfold phase
  rw [hx]
  rfl

/-- A session whose state stays. -/
theorem phase_put_same (hx : w.clients[c]? = some x) (h : s.session.phase = x.session.phase) :
    (w.put c s).phase = w.phase := by
  rw [phase_put hx, h, ← phase_some hx, Function.update_eq_self]

theorem phase_mark (w : World) (c : Nat) (φ : Option Started → Option Started) : (w.mark c φ).phase = w.phase := by
  funext d
  unfold phase mark
  rw [List.getElem?_modify]
  cases w.clients[d]? with
  | none => rfl
  | some y =>
    show some (if c = d then _ else y : Client).session.phase = _
    split <;> rfl

/-- The states after the answer to the command of an `endTransaction`, if the flight is one. -/
def answered (w : World) : Option (Nat × EndTransactionName) → Nat → Option (Bool × TxnState)
  | none => w.phase
  | some (c, name) => Function.update w.phase c ((w.phase c).map fun p => (p.1, p.2.handled name))

/-- A flight went on: it waits again, or it called back for the last time. -/
inductive Flown (w : World) (i : Nat) (f : Flight) (w' : World) : Prop
  | waits {g : Flight} (hclient : g.client = f.client) (hending : g.ending = f.ending) (hair : g.landed = false)
      (hlively : g.Lively) (hflights : w'.flights = w.flights.set i g) (hphase : w'.phase = w.phase)
  | lands {g : Flight} (hclient : g.client = f.client) (hending : g.ending = f.ending) (hair : g.landed = true)
      (hflights : w'.flights = w.flights.set i g) (hphase : w'.phase = w.answered f.ending)

theorem answered_congr (h : w₁.phase = w.phase) (ending : Option (Nat × EndTransactionName)) :
    w₁.answered ending = w.answered ending := by
  cases ending with
  | none => exact h
  | some p =>
    simp only [answered]
    rw [h]

/-- A flight goes on from where nothing that matters has changed. -/
theorem Flown.of_same (h : Flown w₁ i g w') (hphase : w₁.phase = w.phase) (hflights : w₁.flights = w.flights)
    (hclient : g.client = f.client) (hending : g.ending = f.ending) : Flown w i f w' := by
  cases h with
  | waits hclient' hending' hair hlively hflights' hphase' =>
    exact .waits (hclient'.trans hclient) (hending'.trans hending) hair hlively (hflights ▸ hflights')
      (hphase'.trans hphase)
  | lands hclient' hending' hair hflights' hphase' =>
    refine .lands (hclient'.trans hclient) (hending'.trans hending) hair (hflights ▸ hflights') ?_
    rw [hphase', hending]
    exact answered_congr hphase _

/-- The last callback. -/
theorem flown_finish (env : Surroundings) (hx : w.clients[f.client]? = some x) : Flown w i f (w.finish env i f) := by
  have hland : ∀ v : World, v.flights = w.flights → v.phase = w.answered f.ending → Flown w i f (v.land i f) :=
    fun v hflights hphase => .lands (g := { f with stage := .running .done }) rfl rfl rfl
      (congrArg (List.set · i _) hflights) hphase
  unfold finish
  cases hpurpose : f.purpose with
  | operation =>
    refine hland w rfl ?_
    unfold Flight.ending
    rw [hpurpose]
    rfl
  | endTransaction name command retried endSession =>
    have hending : f.ending = some (f.client, name) := by
      unfold Flight.ending
      rw [hpurpose]
    rw [hending] at hland
    rw [stateOf_client hx]
    have hanswered : w.answered (some (f.client, name)) = Function.update w.phase f.client
        (some (x.session.snapshotEnabled, x.session.transaction.state.handled name)) := by
      simp only [answered]
      rw [phase_some hx]
      rfl
    rcases SessionState.commandHandler_phase ⟨w.pool, x.session⟩ name with ⟨hmem, s', hok, hphase⟩ | ⟨hmem, herr⟩
    · simp only [hok]
      refine hland _ rfl ?_
      rw [hanswered, phase_put hx]
      refine congrArg (fun p => Function.update w.phase f.client (some p)) ?_
      have hhandled : x.session.transaction.state.handled name = name.target := if_pos hmem
      rw [hhandled, ← hphase]
      split
      · exact SessionState.completeEndSession_phase ..
      · rfl
    · simp only [herr]
      refine hland _ rfl ?_
      have hhandled : x.session.transaction.state.handled name = x.session.transaction.state := if_neg hmem
      rw [hanswered, hhandled]
      exact (Function.update_eq_self_iff.2 (phase_some hx).symm).symm

/-- What follows: the callback, or the next wait. -/
theorem flown_wait {callback : World → Flight → Outcome Unit → World} {retry : Bool}
    (hcallback : ∀ {w₁ : World} {g : Flight} (o : Outcome Unit), w₁.clients[g.client]?.isSome →
      Flown w₁ i g (callback w₁ g o))
    (w : World) (g : Flight) (p : Prog Unit) : CallsBack retry p → w.clients[g.client]?.isSome →
    Flown w i g (match p with
      | .callback o _ => callback w g o
      | p' => w.setFlight i { g with stage := .running p' }) := by
  intro hp hg
  split
  · exact hcallback _ hg
  · refine .waits (g := { g with stage := .running p }) rfl rfl (Flight.landed_running hp rfl) ?_ rfl rfl
    intro q hq
    cases hq
    exact .inr ⟨_, hp⟩

/-- A flight runs to its next wait. -/
theorem flown_resumeWith {callback : World → Flight → Outcome Unit → World} {p : Prog Unit} {retry : Bool}
    (env : Surroundings)
    (hcallback : ∀ {w₁ : World} {g : Flight} (o : Outcome Unit), w₁.clients[g.client]?.isSome →
      Flown w₁ i g (callback w₁ g o))
    (hx : w.clients[f.client]? = some x) (hp : CallsBack retry p) : Flown w i f (w.resumeWith env callback i f p) := by
  unfold resumeWith
  rw [stateOf_client hx]
  simp only
  have hnext := (advance_callsBack (env.view x.session) hp).2
  -- the increment leaves the states and the flights alone
  have hsame : (if (advance (env.view x.session) p).1 then
      w.put f.client (SessionState.incrementTransactionNumber env.toEnv ⟨w.pool, x.session⟩) else w).phase = w.phase ∧
    (if (advance (env.view x.session) p).1 then
      w.put f.client (SessionState.incrementTransactionNumber env.toEnv ⟨w.pool, x.session⟩) else w).flights =
        w.flights ∧
    ((if (advance (env.view x.session) p).1 then
      w.put f.client (SessionState.incrementTransactionNumber env.toEnv ⟨w.pool, x.session⟩)
      else w).clients[f.client]?).isSome := by
    split
    · refine ⟨phase_put_same hx (SessionState.modifyServerSession_phase ..), rfl, ?_⟩
      rw [clients_put hx]
      rfl
    · exact ⟨rfl, rfl, by rw [hx]; rfl⟩
  obtain ⟨hphase, hflights, hclient⟩ := hsame
  have hflown := flown_wait hcallback _ { f with options := { f.options with
    willRetryWrite := f.options.willRetryWrite || (advance (env.view x.session) p).1 } } _ hnext hclient
  exact hflown.of_same hphase hflights rfl rfl

/-- An `executeOperation` that starts. -/
theorem flown_enterWith {callback : World → Flight → Outcome Unit → World} (env : Surroundings) (op : AbstractOperation)
    (hcallback : ∀ {w₁ : World} {g : Flight} (o : Outcome Unit), w₁.clients[g.client]?.isSome →
      Flown w₁ i g (callback w₁ g o))
    (hx : w.clients[f.client]? = some x) : Flown w i f (w.enterWith env callback i f op) := by
  unfold enterWith
  rw [stateOf_client hx]
  simp only
  split
  · refine .waits (g := { f with stage := .checking op }) rfl rfl rfl ?_ rfl rfl
    intro p hp
    cases hp
  · exact flown_resumeWith env hcallback hx
      (executeOperation_callsBack env x.session op fun h : true = false => (nomatch h))

theorem flown_complete (env : Surroundings) (o : Outcome Unit) (hx : w.clients[f.client]?.isSome) :
    Flown w i f (w.complete env i f o) := by
  obtain ⟨x, hx⟩ := Option.isSome_iff_exists.1 hx
  have hfinish : ∀ {w₁ : World} {g : Flight} (_ : Outcome Unit), w₁.clients[g.client]?.isSome →
      Flown w₁ i g (w₁.finish env i g) := fun _ hy => by
    obtain ⟨y, hy⟩ := Option.isSome_iff_exists.1 hy
    exact flown_finish env hy
  unfold complete
  split
  · rename_i name command endSession hpurpose
    split
    · refine Flown.of_same (g := { f with
        purpose := .endTransaction name (SessionState.majorityOnRetry command) true endSession })
        (flown_enterWith env endOperation hfinish hx) rfl rfl rfl ?_
      unfold Flight.ending
      rw [hpurpose]
    · exact flown_finish env hx
  · exact flown_finish env hx

theorem flown_resume (env : Surroundings) {p : Prog Unit} {retry : Bool} (hx : w.clients[f.client]? = some x)
    (hp : CallsBack retry p) : Flown w i f (w.resume env i f p) :=
  flown_resumeWith env (fun o hy => flown_complete env o hy) hx hp

/-- A new flight. -/
theorem flown_launch (env : Surroundings) (op : AbstractOperation) (hx : w.clients[f.client]? = some x) :
    Flown { w with flights := w.flights ++ [f] } w.flights.length f (w.launch env f op) :=
  flown_enterWith env op (fun o hy => flown_complete env o hy) hx

/-! ## What a step does -/

/-- Every flight is on a client session and calls back; a session for snapshot reads has no transaction. -/
structure Manned (w : World) : Prop where
  client : ∀ (i : Nat) (f : Flight), w.flights[i]? = some f → (w.phase f.client).isSome
  lively : ∀ (i : Nat) (f : Flight), w.flights[i]? = some f → f.Lively
  snapshot : ∀ c state, w.phase c = some (true, state) → state = .noTransaction

/-- The event calls `commitTransaction` or `abortTransaction`, the latter also for `endSession`. -/
def Ends (w : World) (e : Event) (c : Nat) (name : EndTransactionName) : Prop :=
  e.action = .endTransaction c name ∨ e.action = .endSession c ∧ name = .abortTransaction ∧
    ∃ x, w.clients[c]? = some x ∧ x.session.hasEnded = false ∧ x.session.inTransaction = true

/-- The states in which `endTransaction` has a command to send. -/
def Sendable (name : EndTransactionName) (state : TxnState) : Prop :=
  state = .transactionInProgress ∨ state = .transactionCommitted ∧ name = .commitTransaction

inductive Turn (w : World) (e : Event) (w' : World) : Prop
  | still (hflights : w'.flights = w.flights) (hphase : w'.phase = w.phase)
  | joins {c : Nat} {snap : Bool} (hold : w.phase c = none) (hflights : w'.flights = w.flights)
      (hphase : w'.phase = Function.update w.phase c (some (snap, .noTransaction)))
  | starts {c : Nat} {state : TxnState} (hold : w.phase c = some (false, state)) (hout : state.isActive = false)
      (hflights : w'.flights = w.flights)
      (hphase : w'.phase = Function.update w.phase c (some (false, .startingTransaction)))
  | settles {c : Nat} {name : EndTransactionName} {snap : Bool} {state state' : TxnState} (hcall : Ends w e c name)
      (hold : w.phase c = some (snap, state))
      (hstate : state = .startingTransaction ∨ state = .transactionCommittedEmpty ∧ name = .commitTransaction)
      (hstate' : state' = .transactionCommittedEmpty ∨ state' = .transactionAborted)
      (hflights : w'.flights = w.flights) (hphase : w'.phase = Function.update w.phase c (some (snap, state')))
  | decorates {i : Nat} {command : Command} {conn : Connection} {f : Flight} {x : Client} {state : TxnState}
      (haction : e.action = .command i command conn) (hf : w.flights[i]? = some f)
      (hx : w.clients[f.client]? = some x)
      (hstate : SessionState.Decorates ⟨w.pool, x.session⟩ (f.command command) state)
      (hflights : w'.flights = w.flights)
      (hphase : w'.phase = Function.update w.phase f.client (some (x.session.snapshotEnabled, state)))
  | launches {f : Flight} (hclient : (w.phase f.client).isSome) (hnew : f.landed = true)
      (hends : ∀ c name, f.ending = some (c, name) → Ends w e c name ∧
        ∃ p, w.phase c = some p ∧ Sendable name p.2)
      (hflown : Flown { w with flights := w.flights ++ [f] } w.flights.length f w')
  | answers {i : Nat} {f : Flight} (hf : w.flights[i]? = some f) (hair : f.landed = false) (hflown : Flown w i f w')

theorem turn_put (e : Event) (hs : w.stateOf c = some s) (h : s'.session.phase = s.session.phase) :
    Turn w e (w.put c s') := by
  obtain ⟨x, hx, rfl⟩ := Option.map_eq_some_iff.1 hs
  exact .still rfl (phase_put_same hx h)

theorem turn_startTransaction (env : Surroundings) (e : Event) (hx : w.clients[c]? = some x)
    (options : TransactionOptions) : Turn w e (w.startTransaction env c x options) := by
  unfold startTransaction
  simp only
  rcases SessionState.startTransaction_phase env.toEnv ⟨w.pool, x.session⟩ env.deployment options with
    ⟨err, herr, -, hphase, -⟩ | ⟨hok, hsnap, hout, hphase⟩
  · simp only [herr]
    exact .still rfl (phase_put_same hx hphase)
  · simp only [hok]
    have hold : w.phase c = some (false, x.session.transaction.state) := by
      rw [phase_some hx]
      exact congrArg some (Prod.ext hsnap rfl)
    have hbegin : ∀ (v : World) (txnNumber : Nat), (v.beginTxn c txnNumber).phase = v.phase :=
      fun v txnNumber => phase_mark v c fun _ => some { txn := v.txns, txnNumber }
    refine .starts hold hout rfl ((hbegin _ _).trans ?_)
    show (w.put c _).phase = _
    rw [phase_put hx, hphase]

theorem turn_endTransaction (env : Surroundings) {e : Event} (hx : w.clients[c]? = some x) {name : EndTransactionName}
    (hcall : Ends w e c name) (endSession : Bool) : Turn w e (w.endTransaction env c x name endSession) := by
  have hold : w.phase c = some (x.session.snapshotEnabled, x.session.transaction.state) := phase_some hx
  unfold endTransaction
  rcases SessionState.endTransaction_phase env.toEnv ⟨w.pool, x.session⟩ name with
    ⟨s, err, heq, -, hphase, -⟩ | ⟨s, state, heq, hphase, hstate, hstate'⟩ | ⟨s, heq, hphase, hstate⟩
  · simp only [heq]
    exact .still rfl (phase_put_same hx hphase)
  · simp only [heq]
    refine .settles hcall hold hstate hstate' rfl ?_
    have hmark : (w.mark c (·.map ({ · with closed := true }))).clients[c]? =
        some { x with started := x.started.map ({ · with closed := true }) } := by
      rw [mark_eq hx]
      exact Heap.get_set_self hx
    rw [phase_put hmark, phase_mark, ← hphase]
    refine congrArg (fun p => Function.update w.phase c (some p)) ?_
    split
    · exact SessionState.completeEndSession_phase ..
    · rfl
  · simp only [heq]
    have hput : ((w.put c s).mark c (·.map ({ · with closed := true }))).clients[c]? =
        some { x with session := s.session, started := x.started.map ({ · with closed := true }) } := by
      rw [mark_eq (clients_put hx s)]
      exact Heap.get_set_self (clients_put hx s)
    have hflown := flown_launch (f := ⟨c, .endTransaction name (s.endCommand name) false endSession, {},
      x.started.map (·.txn), .running .done⟩) env endOperation hput
    refine .launches (by rw [hold]; rfl) rfl ?_
      (hflown.of_same ((phase_mark ..).trans (phase_put_same hx hphase)) rfl rfl rfl)
    intro c' name' hending
    cases hending
    exact ⟨hcall, _, hold, hstate⟩

theorem turn_command (env : Surroundings) {e : Event} {command : Command} {conn : Connection}
    (haction : e.action = .command i command conn) (hf : w.flights[i]? = some f)
    (hx : w.clients[f.client]? = some x) :
    Turn w e (w.command env i f ⟨w.pool, x.session⟩ (f.command command) conn) := by
  have hwrite : ∀ (s : SessionState) (command : Command),
      (w.write env i f s command conn).flights = w.flights ∧
        (w.write env i f s command conn).phase = Function.update w.phase f.client (some s.session.phase) := by
    intro s command
    have hphase : (w.put f.client (s.getServerSession env.toEnv).1).phase =
        Function.update w.phase f.client (some s.session.phase) := by
      rw [phase_put hx, SessionState.getServerSession_phase]
    unfold write
    simp only
    split
    · exact ⟨rfl, hphase⟩
    · exact ⟨rfl, hphase⟩
  unfold World.command
  split
  · obtain ⟨-, state, hstate, hphase⟩ := SessionState.applySession_phase env.toEnv ⟨w.pool, x.session⟩
      (f.command command) f.options
    split
    · rename_i s err heq
      rw [heq] at hphase
      exact .decorates haction hf hx hstate rfl ((phase_put hx s).trans (by rw [hphase]))
    · rename_i s command' heq
      rw [heq] at hphase
      obtain ⟨hflights, hphase'⟩ := hwrite s command'
      exact .decorates haction hf hx hstate hflights (hphase'.trans (by rw [hphase]))
  · obtain ⟨hflights, hphase⟩ := hwrite ⟨w.pool, x.session⟩ (f.command command)
    refine .still hflights (hphase.trans ?_)
    exact Function.update_eq_self_iff.2 (phase_some hx).symm

theorem phase_isSome (w : World) (c : Nat) : (w.phase c).isSome = w.clients[c]?.isSome := by
  unfold phase
  exact Option.isSome_map

/-- The session of a flight. -/
theorem Manned.session (h : w.Manned) (hf : w.flights[i]? = some f) : ∃ x, w.clients[f.client]? = some x := by
  have hsome := h.client i f hf
  rw [phase_isSome] at hsome
  exact Option.isSome_iff_exists.1 hsome

/-- A flight that waited for an answer gets it. -/
theorem turn_answer {e : Event} {p q : Prog Unit} (h : w.Manned) (hf : w.flights[i]? = some f)
    (hstage : f.stage = .running p) (hp : p ≠ .done) (hnext : ∀ retry, CallsBack retry p → CallsBack retry q) :
    Turn w e (w.resume e.env i f q) := by
  obtain ⟨x, hx⟩ := h.session hf
  have hair := Flight.landed_waiting hstage hp
  have hlively := h.lively i f hf p hstage
  rw [hair] at hlively
  obtain ⟨retry, hback⟩ := hlively.resolve_left Bool.false_ne_true
  exact .answers hf hair (flown_resume e.env hx (hnext retry hback))

/-- A new session has no transaction. -/
theorem turn_startSession (e : Event) {session : ClientSession} (hstate : session.transaction.state = .noTransaction) :
    Turn w e { w with clients := w.clients ++ [{ session }] } := by
  have hold : w.phase w.clients.length = none := by
    unfold phase
    rw [List.getElem?_eq_none (Nat.le_refl _)]
    rfl
  have hphase : ({ w with clients := w.clients ++ [{ session }] } : World).phase =
      Function.update w.phase w.clients.length (some (session.snapshotEnabled, .noTransaction)) := by
    funext d
    unfold phase
    rw [List.getElem?_append]
    by_cases hd : d = w.clients.length
    · subst hd
      rw [Function.update_self, if_neg (Nat.lt_irrefl _), Nat.sub_self]
      exact congrArg some (Prod.ext rfl hstate)
    · rw [Function.update_of_ne hd]
      split
      · rfl
      · rename_i hlt
        rw [List.getElem?_eq_none (by omega : w.clients.length ≤ d),
          List.getElem?_eq_none (by simp only [List.length_singleton]; omega)]
  exact .joins hold rfl hphase

/-- Whatever happens is one of these. -/
theorem step_turn {e : Event} (h : w.Manned) (hstep : w.step e = some w') : Turn w e w' := by
  cases World.step_steps hstep with
  | refused => exact .still rfl rfl
  | startSession hnew =>
    obtain ⟨-, -, ht⟩ := ClientSession.new_fresh hnew
    exact turn_startSession _ (by rw [ht])
  | read hs => exact turn_put _ hs (SessionState.getServerSession_phase ..)
  | equals hs hs' =>
    obtain ⟨x, hx, rfl⟩ := Option.map_eq_some_iff.1 hs
    obtain ⟨y, hy, rfl⟩ := Option.map_eq_some_iff.1 hs'
    refine .still rfl ((phase_put_same hy (SessionState.getServerSession_phase ..)).trans ?_)
    exact phase_put_same hx (SessionState.getServerSession_phase ..)
  | @startTransaction env c options x hx => exact turn_startTransaction env _ hx _
  | @endTransaction env c name x hx => exact turn_endTransaction env hx (.inl rfl) false
  | @endSession env c x hx =>
    unfold endSession
    split
    · exact .still rfl rfl
    · rename_i hlive
      split
      · rename_i hin
        exact turn_endTransaction env hx (.inr ⟨rfl, rfl, x, hx, by simpa using hlive, hin⟩) true
      · exact .still rfl (phase_put_same hx (SessionState.completeEndSession_phase ..))
  | @executeOperation env c op unacknowledged x hx =>
    refine .launches ?_ rfl ?_ (flown_launch env _ hx)
    · rw [phase_some hx]
      rfl
    · intro c' name' hending
      cases hending
  | @unchecked env i err f s op hf hs hstage =>
    obtain ⟨x, hx, rfl⟩ := Option.map_eq_some_iff.1 hs
    exact .answers hf (Flight.landed_checking hstage) (flown_complete env _ (by rw [hx]; rfl))
  | @checked env i f s op hf hs hstage =>
    obtain ⟨x, hx, rfl⟩ := Option.map_eq_some_iff.1 hs
    exact .answers hf (Flight.landed_checking hstage) (flown_resume env hx
      (executeOperation_callsBack env x.session _ fun heq : true = false => (by cases heq)))
  | selected hf hstage => exact turn_answer h hf hstage (fun heq => (by cases heq)) fun _ hp => hp _
  | @command env i command conn f s server next hf hs =>
    obtain ⟨x, hx, rfl⟩ := Option.map_eq_some_iff.1 hs
    exact turn_command env rfl hf hx
  | outcome hf hstage => exact turn_answer h hf hstage (fun heq => (by cases heq)) fun _ hp => hp _
  | networkError hs => exact turn_put _ hs (SessionState.markDirty_phase ..)
  | response hs => exact turn_put _ hs (SessionState.updateSessionFromResponse_phase ..)
  | endAllPooledSessions => exact .still rfl rfl

/-! ## Calls in the air -/

theorem ending_congr (hflights : w'.flights = w.flights) : w'.ending = w.ending := by
  unfold ending
  rw [hflights]

theorem ending_set (hi : i < w.flights.length) (hflights : w'.flights = w.flights.set i g) :
    w'.ending = Function.update w.ending i (if g.landed then none else g.ending) := by
  funext j
  unfold ending
  rw [hflights]
  by_cases hj : j = i
  · subst hj
    rw [Function.update_self, List.getElem?_set_self hi]
    rfl
  · rw [Function.update_of_ne hj, List.getElem?_set_ne (Ne.symm hj)]

/-- A flight that is not in the air yet ends nothing. -/
theorem ending_append (hnew : f.landed = true) :
    ({ w with flights := w.flights ++ [f] } : World).ending = w.ending := by
  funext j
  unfold ending
  rw [List.getElem?_append]
  split
  · rfl
  · rename_i hlt
    rw [List.getElem?_eq_none (by omega : w.flights.length ≤ j), List.getElem?_singleton]
    split
    · show (if f.landed then none else f.ending) = none
      rw [hnew]
      rfl
    · rfl

theorem ending_of_air (hf : w.flights[i]? = some f) (hair : f.landed = false) : w.ending i = f.ending := by
  unfold ending
  rw [hf]
  show (if f.landed then none else f.ending) = f.ending
  rw [hair]
  rfl

/-- A flight that went on is still in the air, or it was answered. -/
theorem Flown.views (h : Flown w i f w') (hi : i < w.flights.length) :
    (w'.phase = w.phase ∧ w'.ending = Function.update w.ending i f.ending) ∨
      (w'.phase = w.answered f.ending ∧ w'.ending = Function.update w.ending i none) := by
  cases h with
  | waits hclient hending hair hlively hflights hphase =>
    refine .inl ⟨hphase, ?_⟩
    rw [ending_set hi hflights, hair, ← hending]
    rfl
  | lands hclient hending hair hflights hphase =>
    refine .inr ⟨hphase, ?_⟩
    rw [ending_set hi hflights, hair]
    rfl

/-! ## Every flight is manned -/

theorem Manned.of_update {p : Bool × TxnState} (h : w.Manned) (hflights : w'.flights = w.flights)
    (hphase : w'.phase = Function.update w.phase c (some p)) (hp : p.1 = true → p.2 = .noTransaction) : w'.Manned := by
  refine ⟨fun i f hf => ?_, fun i f hf => h.lively i f (hflights ▸ hf), fun d state hd => ?_⟩
  · rw [hphase]
    by_cases hc : f.client = c
    · rw [hc, Function.update_self]
      rfl
    · rw [Function.update_of_ne hc]
      exact h.client i f (hflights ▸ hf)
  · rw [hphase] at hd
    by_cases hc : d = c
    · rw [hc, Function.update_self] at hd
      cases hd
      exact hp rfl
    · rw [Function.update_of_ne hc] at hd
      exact h.snapshot d state hd

theorem answered_isSome (w : World) (ending : Option (Nat × EndTransactionName)) (c : Nat) :
    (w.answered ending c).isSome = (w.phase c).isSome := by
  cases ending with
  | none => rfl
  | some p =>
    simp only [answered]
    by_cases hc : c = p.1
    · rw [hc, Function.update_self]
      exact Option.isSome_map
    · rw [Function.update_of_ne hc]

/-- No answer gives a session for snapshot reads a transaction. -/
theorem answered_snapshot (h : w.Manned) {ending : Option (Nat × EndTransactionName)} {state : TxnState}
    (hc : w.answered ending c = some (true, state)) : state = .noTransaction := by
  cases ending with
  | none => exact h.snapshot c state hc
  | some p =>
    simp only [answered] at hc
    by_cases hp : c = p.1
    · rw [hp, Function.update_self] at hc
      obtain ⟨⟨snap, state'⟩, hold, heq⟩ := Option.map_eq_some_iff.1 hc
      cases heq
      rw [h.snapshot _ _ hold]
      cases p.2 <;> rfl
    · rw [Function.update_of_ne hp] at hc
      exact h.snapshot c state hc

theorem Manned.of_flown (h : w.Manned) (hclient : (w.phase f.client).isSome) (hflown : Flown w i f w') : w'.Manned := by
  have hset : ∀ {g : Flight}, g.client = f.client → g.Lively → w'.flights = w.flights.set i g →
      ∀ (j : Nat) (g' : Flight), w'.flights[j]? = some g' → (w.phase g'.client).isSome ∧ g'.Lively := by
    intro g hg hlively hflights j g' hg'
    rw [hflights] at hg'
    rcases Heap.get_set_cases hg' with ⟨-, rfl⟩ | ⟨-, hold⟩
    · exact ⟨hg ▸ hclient, hlively⟩
    · exact ⟨h.client j g' hold, h.lively j g' hold⟩
  cases hflown with
  | waits hg hending hair hlively hflights hphase =>
    have hflights' := hset hg hlively hflights
    refine ⟨fun j g' hg' => hphase ▸ (hflights' j g' hg').1, fun j g' hg' => (hflights' j g' hg').2, ?_⟩
    rw [hphase]
    exact h.snapshot
  | lands hg hending hair hflights hphase =>
    have hflights' := hset hg (fun _ _ => .inl hair) hflights
    refine ⟨fun j g' hg' => ?_, fun j g' hg' => (hflights' j g' hg').2, fun d state hd => ?_⟩
    · rw [hphase, answered_isSome]
      exact (hflights' j g' hg').1
    · rw [hphase] at hd
      exact answered_snapshot h hd

theorem Turn.manned {e : Event} (hturn : Turn w e w') (h : w.Manned) : w'.Manned := by
  cases hturn with
  | still hflights hphase =>
    refine ⟨fun i f hf => hphase ▸ h.client i f (hflights ▸ hf), fun i f hf => h.lively i f (hflights ▸ hf), ?_⟩
    rw [hphase]
    exact h.snapshot
  | joins hold hflights hphase => exact h.of_update hflights hphase fun _ => rfl
  | starts hold hout hflights hphase => exact h.of_update hflights hphase fun hsnap => (nomatch hsnap)
  | settles hcall hold hstate hstate' hflights hphase =>
    refine h.of_update hflights hphase fun hsnap => ?_
    cases hsnap
    -- a transaction that was started is none of a session for snapshot reads
    have hno := h.snapshot _ _ hold
    rcases hstate with rfl | ⟨rfl, -⟩
    · cases hno
    · cases hno
  | decorates haction hf hx hstate hflights hphase =>
    refine h.of_update hflights hphase fun hsnap => ?_
    have hno := h.snapshot _ _ ((phase_some hx).trans (congrArg some (Prod.ext hsnap rfl)))
    cases hstate with
    | stays => exact hno
    | begins hstart =>
      have heq : TxnState.startingTransaction = .noTransaction := hstart.symm.trans hno
      cases heq
    | leaves => rfl
  | @launches f hclient hnew hends hflown =>
    have hv : ({ w with flights := w.flights ++ [f] } : World).Manned := by
      refine ⟨fun i g hg => ?_, fun i g hg => ?_, h.snapshot⟩
      · rcases Heap.get_alloc_cases hg with ⟨-, rfl⟩ | hg
        · exact hclient
        · exact h.client i g hg
      · rcases Heap.get_alloc_cases hg with ⟨-, rfl⟩ | hg
        · exact fun _ _ => .inl hnew
        · exact h.lively i g hg
    exact hv.of_flown hclient hflown
  | answers hf hair hflown => exact h.of_flown (h.client _ _ hf) hflown

theorem manned_init : ({} : World).Manned :=
  ⟨fun _ _ hf => (nomatch hf), fun _ _ hf => (nomatch hf), fun _ _ hc => (nomatch hc)⟩

end World

end MongoDriver.Sessions
