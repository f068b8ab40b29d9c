/-
What happens to client sessions that are used one at a time. An event is a chain of moves, each of which
changes one thing: a transaction number, the state of a transaction, the stage of a flight, the commands
sent. Invariants of the numbers and of the frame of a transaction are proved move by move. `Sound` says that
at most one operation is in the air on a client session, and that its program, its transaction and the state
of its session fit together.
-/
import MongoDriver.Sessions.Exclusive
import Mathlib.Logic.Relation

namespace MongoDriver.Sessions

open Operations (AbstractOperation ExecutionSession Outcome Prog RetryOptions ServerSelector callbackWithRetry executeOn
  executeWithServerSelection retryOn willRetry)

/-! ## Programs -/

/-- The program calls back before it ends. With `retry` it may make its write retryable, once. -/
def CallsBack (retry : Bool) : Prog Unit → Prop
  | .done => False
  | .callback _ _ => True
  | .selectServer _ next => ∀ answer, CallsBack retry (next answer)
  | .execute _ next => ∀ outcome, CallsBack retry (next outcome)
  | .readSession next => ∀ view, CallsBack retry (next view)
  | .unpin _ next => CallsBack retry next
  | .willRetryWrite next => retry = true ∧ CallsBack false next

/-- At the next wait of a program: whether the write became retryable, and what may still happen. -/
theorem advance_callsBack (view : ExecutionSession) {retry : Bool} {p : Prog Unit} (h : CallsBack retry p) :
    ((advance view p).1 = true → retry = true) ∧ CallsBack (retry && !(advance view p).1) (advance view p).2 := by
  induction p generalizing retry with
  | done => exact h.elim
  | callback outcome next _ => exact ⟨fun h => (nomatch h), trivial⟩
  | selectServer selector next _ | execute server next _ =>
    refine ⟨fun h => (nomatch h), ?_⟩
    simp only [advance, Bool.not_false, Bool.and_true]
    exact h
  | readSession next ih => exact ih view (h view)
  | unpin forceClear next ih => exact ih h
  | willRetryWrite next ih =>
    refine ⟨fun _ => h.1, ?_⟩
    simp only [advance, Bool.not_true, Bool.and_false]
    exact (ih h.2).2

section Programs

variable {retry : Bool} {options : RetryOptions} {s : ExecutionSession} {op : AbstractOperation}
  {selector : ServerSelector}

theorem retryOn_callsBack (err : AnyError) (answer : Except AnyError Sdam.Server) :
    CallsBack retry (retryOn op (some s) err answer) := by
  cases answer with
  | error e => exact trivial
  | ok server =>
    simp only [retryOn]
    split
    · exact trivial
    · split
      · intro view
        beta_reduce
        split
        · exact fun _ => trivial
        · exact fun _ => trivial
      · exact fun _ => trivial

theorem callbackWithRetry_callsBack (o : Outcome Unit) :
    CallsBack retry (callbackWithRetry op (some s) selector o) := by
  unfold callbackWithRetry
  split
  · exact trivial
  · split
    · exact trivial
    · split
      · exact trivial
      · exact fun answer => retryOn_callsBack _ answer

/-- Only a retryable operation outside a transaction makes its write retryable. -/
theorem executeOn_callsBack (h : retry = false → s.inTransaction = true ∨ op.hasAspect .retryable = false)
    (answer : Except AnyError Sdam.Server) : CallsBack retry (executeOn options (some s) op selector answer) := by
  cases answer with
  | error e => exact trivial
  | ok server =>
    unfold executeOn
    simp only
    split
    · rename_i hretry
      split
      · rename_i hwrite
        refine ⟨?_, fun o => callbackWithRetry_callsBack o⟩
        cases retry with
        | true => rfl
        | false =>
          rcases h rfl with hin | haspect
          · simp [Operations.willRetryWrite, hin] at hwrite
          · simp [willRetry, haspect] at hretry
      · exact fun o => callbackWithRetry_callsBack o
    · exact fun _ => trivial

theorem executeWithServerSelection_callsBack
    (h : retry = false → s.inTransaction = true ∨ op.hasAspect .retryable = false) :
    CallsBack retry (executeWithServerSelection options (some s) op) := by
  unfold executeWithServerSelection
  simp only
  split
  · exact trivial
  · have hselect : ∀ answer, CallsBack retry (executeOn options (some s) op
        (if op.hasAspect .cursorIterating then .sameServer
          else if op.trySecondaryWrite then .secondaryWritable (op.readPreference.getD "primary")
          else .readPreference (op.readPreference.getD "primary")) answer) := fun answer => executeOn_callsBack h answer
    split
    · split
      · exact trivial
      · exact hselect
    · split
      · exact trivial
      · exact hselect

end Programs

/-- An `executeOperation` in a transaction makes no write retryable, nor does that of `endTransaction`. -/
theorem executeOperation_callsBack {retry : Bool} (env : Surroundings) (x : ClientSession) (op : AbstractOperation)
    (h : retry = false → x.inTransaction = true ∨ op.hasAspect .retryable = false) :
    CallsBack retry (executeOperation env x op) := by
  unfold executeOperation
  split
  · exact trivial
  · split
    · exact trivial
    · split
      · exact trivial
      · exact executeWithServerSelection_callsBack h

/-! ## Transaction numbers -/

namespace ServerSessionPool

variable (env : Env) (pool : ServerSessionPool)

/-- The transaction number of a server session; one that does not exist yet counts as new. -/
def number (ref : Nat) : Nat := (pool.created[ref]?.map (·.txnNumber)).getD 0

/-- What `incrementTransactionNumber` does to the server session. -/
def increment (ref : Nat) : ServerSessionPool := pool.modify ref fun x => { x with txnNumber := x.txnNumber + 1 }

theorem number_congr {pool pool' : ServerSessionPool} (h : pool'.created = pool.created) :
    pool'.number = pool.number := by
  unfold number
  rw [h]

/-- A server session is created with the number it counts as having before. -/
theorem number_acquire : (pool.acquire env).1.number = pool.number := by
  rcases pool.acquire_cases env with ⟨hcreated, -⟩ | ⟨hpool, -⟩
  · exact number_congr hcreated
  · funext ref
    rw [hpool]
    unfold number
    rw [List.getElem?_append]
    split
    · rfl
    · rename_i hlt
      rw [List.getElem?_eq_none (by omega : pool.created.length ≤ ref), List.getElem?_singleton]
      split <;> rfl

theorem number_release (ref : Nat) : (pool.release env ref).number = pool.number :=
  number_congr (pool.release_spec env ref).1

theorem number_modify (ref : Nat) {f : ServerSession → ServerSession} (hf : ∀ x, (f x).txnNumber = x.txnNumber) :
    (pool.modify ref f).number = pool.number := by
  funext q
  unfold number modify
  rw [List.getElem?_modify]
  cases pool.created[q]? with
  | none => rfl
  | some x =>
    show (if ref = q then f x else x).txnNumber = x.txnNumber
    split
    · exact hf x
    · rfl

theorem number_increment {ref : Nat} (h : ref < pool.created.length) (q : Nat) :
    (pool.increment ref).number q = if q = ref then pool.number ref + 1 else pool.number q := by
  unfold number increment modify
  rw [List.getElem?_modify]
  split
  · rename_i heq
    subst heq
    simp [List.getElem?_eq_getElem h]
  · rename_i hne
    simp [Ne.symm hne]

end ServerSessionPool

/-! ## Moves that neither number nor send anything -/

/-- Nothing of a client session differs but a server session it may have taken, and times. -/
structure ClientSession.Alike (x y : ClientSession) : Prop where
  hasEnded : y.hasEnded = x.hasEnded
  explicit : y.explicit = x.explicit
  state : y.transaction.state = x.transaction.state
  serverSession : ∀ r, x.serverSession = some r → y.serverSession = some r

theorem ClientSession.Alike.refl (x : ClientSession) : x.Alike x := ⟨rfl, rfl, rfl, fun _ h => h⟩

theorem ClientSession.Alike.trans {x y z : ClientSession} (h : x.Alike y) (h' : y.Alike z) : x.Alike z :=
  ⟨h'.hasEnded.trans h.hasEnded, h'.explicit.trans h.explicit, h'.state.trans h.state,
    fun r hr => h'.serverSession r (h.serverSession r hr)⟩

theorem ClientSession.Alike.inTransaction {x y : ClientSession} (h : x.Alike y) :
    y.inTransaction = x.inTransaction := by
  unfold ClientSession.inTransaction
  rw [h.state]

namespace SessionState

variable {env : Env} {s s' s'' : SessionState}

/-- The same of a client session and the pool. -/
structure Still (s s' : SessionState) : Prop where
  keeps : s.Keeps False s'
  number : s'.pool.number = s.pool.number
  alike : s.session.Alike s'.session

theorem Still.refl (s : SessionState) : s.Still s := ⟨.refl s, rfl, .refl _⟩

theorem Still.trans (h : s.Still s') (h' : s'.Still s'') : s.Still s'' :=
  ⟨h.keeps.trans h'.keeps, h'.number.trans h.number, h.alike.trans h'.alike⟩

theorem still_getServerSession (env : Env) (s : SessionState) : s.Still (s.getServerSession env).1 := by
  refine ⟨keeps_getServerSession env False.elim, ?_, ?_⟩
  · unfold getServerSession
    split
    · rfl
    · exact ServerSessionPool.number_acquire env s.pool
  · unfold getServerSession
    split
    · exact .refl _
    · rename_i hnone
      refine ⟨rfl, rfl, rfl, fun r hr => ?_⟩
      rw [hnone] at hr
      cases hr

theorem still_modify (s : SessionState) (ref : Nat) {f : ServerSession → ServerSession}
    (hf : ∀ x, (f x).txnNumber = x.txnNumber) : s.Still { s with pool := s.pool.modify ref f } :=
  ⟨keeps_modify s ref f, ServerSessionPool.number_modify s.pool ref hf, .refl _⟩

theorem still_markDirty (env : Env) (s : SessionState) : s.Still (s.markDirty env) := by
  unfold markDirty
  split
  · exact .refl s
  · exact (still_getServerSession env s).trans (still_modify _ _ fun _ => rfl)

theorem still_updateSessionFromResponse (s : SessionState) (reply : ReplyTimes) :
    s.Still (s.updateSessionFromResponse reply) := by
  refine ⟨keeps_updateSessionFromResponse s reply, rfl, rfl, rfl, ?_, fun _ h => h⟩
  unfold updateSessionFromResponse
  simp only
  split <;> rfl

/-- An increment is the getter, then the increment of what it returned. -/
theorem incrementTransactionNumber_eq (env : Env) (s : SessionState) : s.incrementTransactionNumber env =
    { (s.getServerSession env).1 with
      pool := (s.getServerSession env).1.pool.increment (s.getServerSession env).2 } := rfl

end SessionState

/-! ## Flights -/

/-- The flight has called back. -/
def Flight.landed (f : Flight) : Bool :=
  match f.stage with
  | .running .done => true
  | _ => false

/-- A flight whose program is not done has not called back. -/
theorem Flight.landed_waiting {f : Flight} {p : Prog Unit} (h : f.stage = .running p) (hp : p ≠ .done) :
    f.landed = false := by
  unfold landed
  rw [h]
  cases p with
  | done => exact absurd rfl hp
  | _ => rfl

theorem Flight.landed_running {f : Flight} {retry : Bool} {p : Prog Unit} (hp : CallsBack retry p)
    (h : f.stage = .running p) : f.landed = false := by
  refine landed_waiting h ?_
  rintro rfl
  exact hp

theorem Flight.landed_checking {f : Flight} {op : AbstractOperation} (h : f.stage = .checking op) :
    f.landed = false := by
  unfold landed
  rw [h]

namespace World

variable (w : World)

/-- The flight `i` has not called back yet. -/
def Air (i : Nat) (f : Flight) : Prop := w.flights[i]? = some f ∧ f.landed = false

/-- Nothing is in the air on the client session. -/
def idle (c : Nat) : Bool := w.flights.all fun f => f.client ≠ c || f.landed

theorem idle_iff {w : World} {c : Nat} : w.idle c = true ↔ ∀ i f, w.Air i f → f.client ≠ c := by
  unfold idle Air
  rw [List.all_eq_true]
  constructor
  · rintro h i f ⟨hf, hair⟩
    have := h f (List.mem_of_getElem? hf)
    simpa [hair] using this
  · intro h f hf
    obtain ⟨i, hi⟩ := List.mem_iff_getElem?.1 hf
    cases hair : f.landed with
    | true => simp
    | false => simpa using h i f ⟨hi, hair⟩

theorem Air.not_idle {w : World} {i c : Nat} {f : Flight} (h : w.Air i f) (hc : f.client = c) : w.idle c ≠ true :=
  fun hidle => idle_iff.1 hidle i f h hc

end World

/-- No field that a session adds to a command is there already. -/
structure Command.Bare (command : Command) : Prop where
  lsid : command.lsid = none
  txnNumber : command.txnNumber = none
  autocommit : command.autocommit = none
  startTransaction : command.startTransaction = none

/-- An operation in the air on a client session. -/
structure ReadyOperation (x : Client) (f : Flight) : Prop where
  txn : f.txn = x.openTxn
  isOpen : x.openTxn.isSome = x.session.inTransaction
  flagged : f.options.willRetryWrite = true → x.session.serverSession.isSome ∧ x.session.inTransaction = false
  checking : ∀ op, f.stage = .checking op → f.options.willRetryWrite = false
  running : ∀ p, f.stage = .running p → CallsBack (!x.session.inTransaction && !f.options.willRetryWrite) p

/-- An `endTransaction` in the air on a client session. -/
structure ReadyEnd (x : Client) (f : Flight) (name : EndTransactionName) (command : Command) : Prop where
  closed : ∃ st, x.started = some st ∧ st.closed = true ∧ f.txn = some st.txn
  state : x.session.transaction.state = .transactionInProgress ∨
    x.session.transaction.state = .transactionCommitted ∧ name = .commitTransaction
  bare : command.Bare
  isTransactionCommand : isTransactionCommand command = true
  options : f.options = {}
  checking : ∀ op, f.stage = .checking op → op = endOperation
  running : ∀ p, f.stage = .running p → CallsBack false p

def Ready (x : Client) (f : Flight) : Prop :=
  match f.purpose with
  | .operation => ReadyOperation x f
  | .endTransaction name command _ _ => ReadyEnd x f name command

namespace World

/-- At most one operation is in the air on a client session and fits its state; a client session on which
there is none is in a transaction exactly when its caller has started one and not ended it. -/
structure Sound (w : World) : Prop where
  accounted : w.Accounted False
  single : ∀ i j f g, w.Air i f → w.Air j g → f.client = g.client → i = j
  ready : ∀ i f, w.Air i f → ∃ x, w.clients[f.client]? = some x ∧ Ready x f
  isOpen : ∀ (c : Nat) (x : Client), w.clients[c]? = some x → w.idle c = true →
    x.openTxn.isSome = x.session.inTransaction
  held : ∀ (c : Nat) (x : Client), w.clients[c]? = some x → x.session.hasEnded = false →
    x.session.serverSession = none → x.started = none
  began : ∀ (c : Nat) (x : Client), w.clients[c]? = some x → x.session.transaction.state ≠ .noTransaction →
    x.started.isSome
  logged : ∀ a ∈ w.sent, a.flight < w.flights.length

/-! ## Moves -/

/-- Nothing differs but what `ClientSession.Alike` leaves open. -/
structure Still (w w' : World) : Prop where
  accounted : w'.Accounted False
  number : w'.pool.number = w.pool.number
  clients : ∀ c : Nat, Option.Rel (fun x y => x.session.Alike y.session ∧ y.started = x.started)
    w.clients[c]? w'.clients[c]?
  flights : w'.flights = w.flights
  sent : w'.sent = w.sent
  txns : w'.txns = w.txns

end World

/-- A command as `applySession` decorates it for a flight, and the state it leaves the transaction in. -/
structure Decorated (x : ClientSession) (r n : Nat) (f : Flight) (command : Command) (state : TxnState) : Prop where
  lsid : command.lsid = some r
  inside : f.txn.isSome → command.autocommit = some false ∧ (n ≠ 0 → command.txnNumber = some n)
  first : f.txn.isSome → x.transaction.state = .startingTransaction →
    command.startTransaction = some true ∧ state = .transactionInProgress
  later : f.txn.isSome → x.transaction.state ≠ .startingTransaction →
    command.startTransaction = none ∧ state = x.transaction.state
  outside : f.txn = none → command.autocommit = none ∧ command.startTransaction = none ∧ state = .noTransaction ∧
    command.txnNumber = if f.options.willRetryWrite = true ∧ n ≠ 0 then some n else none

def Client.setTransaction (x : Client) (transaction : Transaction) : Client :=
  { x with session := { x.session with transaction } }

def Client.close (x : Client) : Client := { x with started := x.started.map ({ · with closed := true }) }

open World in
/-- What can happen at once. The conditions under `k` are those that the frame of a transaction needs. -/
inductive Move (k : Prop) (w : World) : World → Prop
  | still {w'} (h : w.Still w') : Move k w w'
  | startSession {session : ClientSession} (hnone : session.serverSession = none) (hlive : session.hasEnded = false)
      (ht : session.transaction = {}) : Move k w { w with clients := w.clients ++ [{ session }] }
  /-- a `startTransaction` that throws after the increment -/
  | bump {c x r} (hx : w.clients[c]? = some x) (hr : x.session.serverSession = some r) (hidle : w.idle c = true)
      (hout : x.session.inTransaction = false) : Move k w { w with pool := w.pool.increment r }
  | start {c x r t} (hx : w.clients[c]? = some x) (hr : x.session.serverSession = some r) (hidle : w.idle c = true)
      (hout : x.session.inTransaction = false) (ht : t.state = .startingTransaction) :
      Move k w { w with
        pool := w.pool.increment r
        clients := w.clients.set c
          { x.setTransaction t with started := some { txn := w.txns, txnNumber := w.pool.number r + 1 } }
        txns := w.txns + 1 }
  | settle {c x t} (hx : w.clients[c]? = some x) (hidle : w.idle c = true)
      (hstate : x.session.transaction.state = .startingTransaction ∨
        x.session.transaction.state = .transactionCommittedEmpty)
      (ht : t.state = .transactionCommittedEmpty ∨ t.state = .transactionAborted) :
      Move k w { w with clients := w.clients.set c (x.setTransaction t).close }
  | endSession {c x pool} (hx : w.clients[c]? = some x) (hidle : w.idle c = true)
      (hout : x.session.inTransaction = false)
      (hnumber : pool.number = w.pool.number)
      (ha : ({ w with
        pool
        clients := w.clients.set c { x with session := { x.session with serverSession := none, hasEnded := true } } } :
          World).Accounted False) :
      Move k w { w with
        pool
        clients := w.clients.set c { x with session := { x.session with serverSession := none, hasEnded := true } } }
  | launch {x f} (hx : w.clients[f.client]? = some x) (hidle : w.idle f.client = true) (hair : f.landed = false)
      (hpurpose : f.purpose = .operation) (hready : Ready x f) (hflag : f.options.willRetryWrite = false) :
      Move k w { w with flights := w.flights ++ [f] }
  | launchEnd {x f name command retried endSession} (hx : w.clients[f.client]? = some x)
      (hidle : w.idle f.client = true)
      (hair : f.landed = false) (hpurpose : f.purpose = .endTransaction name command retried endSession)
      (hready : Ready x.close f)
      (hk : k → x.session.hasEnded = false → ∀ r st, x.session.serverSession = some r → x.started = some st →
        x.session.transaction.state = .transactionCommitted → w.pool.number r = st.txnNumber) :
      Move k w { w with clients := w.clients.set f.client x.close, flights := w.flights ++ [f] }
  | turn {i x f g} (hf : w.Air i f) (hx : w.clients[f.client]? = some x) (hair : g.landed = false)
      (hready : Ready x g) (hclient : g.client = f.client) (htxn : g.txn = f.txn) (hoptions : g.options = f.options) :
      Move k w (w.setFlight i g)
  | retry {i x f r p} (hf : w.Air i f) (hpurpose : f.purpose = .operation) (hx : w.clients[f.client]? = some x)
      (hr : x.session.serverSession = some r) (hout : x.session.inTransaction = false)
      (hflag : f.options.willRetryWrite = false) (hp : CallsBack false p) :
      Move k w ({ w with pool := w.pool.increment r }.setFlight i
        { f with options := { f.options with willRetryWrite := true }, stage := .running p })
  | decorate {i x f r t command} (written : Bool) (hf : w.Air i f) (hx : w.clients[f.client]? = some x)
      (hlive : x.session.hasEnded = false) (hr : x.session.serverSession = some r)
      (hack : f.options.unacknowledged = false)
      (hd : Decorated x.session r (w.pool.number r) f command t.state)
      (hk : k → f.txn.isSome → x.session.transaction.state = .startingTransaction → written = true) :
      Move k w { w with
        clients := w.clients.set f.client (x.setTransaction t)
        sent := w.sent ++ if written then [⟨f.client, i, f.txn, f.options, true, command⟩] else [] }
  | bare {i f command supported} (hf : w.Air i f) (hbare : command.Bare)
      (hsupported : supported = true → f.options.unacknowledged = true) (hk : k → f.txn = none) :
      Move k w { w with sent := w.sent ++ [⟨f.client, i, f.txn, f.options, supported, command⟩] }
  | land {i f} (hf : w.Air i f) (hpurpose : f.purpose = .operation) : Move k w (w.land i f)
  | finish {i x f t name command retried endSession} (hf : w.Air i f)
      (hpurpose : f.purpose = .endTransaction name command retried endSession) (hx : w.clients[f.client]? = some x)
      (ht : t.state = .transactionCommitted ∧ name = .commitTransaction ∨
        t.state = .transactionAborted ∧ name = .abortTransaction) :
      Move k w ({ w with clients := w.clients.set f.client (x.setTransaction t) }.land i f)

end MongoDriver.Sessions
