/-
The state machine of a transaction under overlapping calls. `commitTransaction` and `abortTransaction` look at the
state when they are called and change it when the server has answered; by then another call may have changed it, and
the transition throws in the callback. No other transition throws, whatever the order of the calls. As long as no
call disturbs one that is in the air (`Undisturbed`), every answer finds its transition (`Fits`).
-/
import MongoDriver.Sessions.Transitions
import MongoDriver.Sessions.WithTransaction
import MongoDriver.Sessions.Numbers

namespace MongoDriver.Sessions

namespace World

variable {env : Surroundings} {w w' : World} {c i : Nat} {x : Client} {f : Flight}

/-! ## Answers -/

/-- The last callback of the flight `i`, which ends a transaction, runs in the step. -/
def Answered (w w' : World) (i c : Nat) (name : EndTransactionName) : Prop :=
  (∃ f, w'.flights[i]? = some f ∧ f.landed = true ∧ f.ending = some (c, name)) ∧
    ∀ f, w.flights[i]? = some f → f.landed = false

theorem Answered.not_same {name : EndTransactionName} (h : Answered w w' i c name)
    (hsame : w'.flights[i]? = w.flights[i]?) : False := by
  obtain ⟨⟨f, hf, hlanded, -⟩, hair⟩ := h
  rw [hair f (hsame ▸ hf)] at hlanded
  cases hlanded

/-- The flight that went on is the only one that can be answered. -/
theorem Flown.answered {j : Nat} {name : EndTransactionName} (hflown : Flown w i f w')
    (h : Answered w w' j c name) : j = i ∧ f.ending = some (c, name) ∧ w'.phase = w.answered (some (c, name)) := by
  have hother : ∀ {g : Flight}, w'.flights = w.flights.set i g → j ≠ i → False := fun hflights hne =>
    h.not_same (by rw [hflights, List.getElem?_set_ne (Ne.symm hne)])
  cases hflown with
  | waits hg hending hair hlively hflights hphase =>
    by_cases hj : j = i
    · obtain ⟨⟨f', hf', hlanded, -⟩, -⟩ := h
      rw [hflights] at hf'
      rcases Heap.get_set_cases hf' with ⟨-, rfl⟩ | ⟨hne, -⟩
      · rw [hair] at hlanded
        cases hlanded
      · exact absurd hj hne
    · exact (hother hflights hj).elim
  | lands hg hending hair hflights hphase =>
    by_cases hj : j = i
    · obtain ⟨⟨f', hf', -, hname⟩, -⟩ := h
      rw [hflights] at hf'
      rcases Heap.get_set_cases hf' with ⟨-, rfl⟩ | ⟨hne, -⟩
      · rw [hending] at hname
        exact ⟨hj, hname, hname ▸ hphase⟩
      · exact absurd hj hne
    · exact (hother hflights hj).elim

/-- An answer is that of a call in the air, or of the call just made; `commandHandler` ran in the state before. -/
theorem Turn.answered {e : Event} {name : EndTransactionName} (hturn : Turn w e w') (h : Answered w w' i c name) :
    (w.ending i = some (c, name) ∨ ∃ p, w.phase c = some p ∧ Sendable name p.2) ∧
      w'.phase = w.answered (some (c, name)) := by
  have hsame : w'.flights = w.flights → False := fun hflights => h.not_same (by rw [hflights])
  cases hturn with
  | still hflights | joins _ hflights | starts _ _ hflights | settles _ _ _ _ hflights | decorates _ _ _ _ hflights =>
    exact (hsame hflights).elim
  | @launches f hclient hnew hends hflown =>
    have hlaunched : Answered { w with flights := w.flights ++ [f] } w' i c name ∨ i = w.flights.length := by
      by_cases hi : i = w.flights.length
      · exact .inr hi
      · refine .inl ⟨h.1, fun g hg => ?_⟩
        rcases Heap.get_alloc_cases hg with ⟨heq, -⟩ | hg
        · exact absurd heq hi
        · exact h.2 g hg
    rcases hlaunched with hlaunched | rfl
    · -- an older flight
      obtain ⟨rfl, -⟩ := hflown.answered hlaunched
      have hlast := hlaunched.2 f List.getElem?_concat_length
      rw [hnew] at hlast
      cases hlast
    · obtain ⟨⟨f', hf', hlanded, hname⟩, -⟩ := h
      have hlength : w.flights.length < (w.flights ++ [f]).length := by
        rw [List.length_append]
        exact Nat.lt_succ_self _
      cases hflown with
      | waits hg hending hair hlively hflights hphase =>
        rw [hflights, List.getElem?_set_self hlength] at hf'
        cases hf'
        rw [hair] at hlanded
        cases hlanded
      | lands hg hending hair hflights hphase =>
        rw [hflights, List.getElem?_set_self hlength] at hf'
        cases hf'
        rw [hending] at hname
        exact ⟨.inr (hends c name hname).2, hname ▸ hphase⟩
  | answers hf hair hflown =>
    obtain ⟨rfl, hname, hphase⟩ := hflown.answered h
    exact ⟨.inl ((ending_of_air hf hair).trans hname), hphase⟩

/-- Every call in the air finds its transition when it is answered, in whichever order the answers come: an abort is
the only one on its session. -/
structure Fits (w : World) : Prop where
  commit : ∀ i c, w.ending i = some (c, .commitTransaction) → ∃ p, w.phase c = some p ∧
    (p.2.isActive = true ∨ p.2 = .transactionCommitted)
  abort : ∀ i c, w.ending i = some (c, .abortTransaction) → (∃ snap, w.phase c = some (snap, .transactionInProgress)) ∧
    ∀ j name, w.ending j = some (c, name) → j = i

theorem Fits.target {name : EndTransactionName} (h : w.Fits) (hi : w.ending i = some (c, name)) :
    ∃ p, w.phase c = some p ∧ (p.2.isActive = true ∨ p.2 = .transactionCommitted ∧ name = .commitTransaction) := by
  cases name with
  | commitTransaction =>
    obtain ⟨p, hp, hstate⟩ := h.commit i c hi
    exact ⟨p, hp, hstate.imp_right fun hc => ⟨hc, rfl⟩⟩
  | abortTransaction =>
    obtain ⟨⟨snap, hp⟩, -⟩ := h.abort i c hi
    exact ⟨_, hp, .inl rfl⟩

theorem Fits.quiet {p : Bool × TxnState} (h : w.Fits) (hold : w.phase c = some p) (hactive : p.2.isActive = false)
    (hne : p.2 ≠ .transactionCommitted) (i : Nat) (name : EndTransactionName) : w.ending i ≠ some (c, name) := by
  intro hi
  obtain ⟨q, hq, hstate⟩ := h.target hi
  obtain rfl := Option.some.inj (hold.symm.trans hq)
  rcases hstate with hstate | ⟨hstate, -⟩
  · rw [hactive] at hstate
    cases hstate
  · exact hne hstate

theorem Fits.no_abort {p : Bool × TxnState} (h : w.Fits) (hold : w.phase c = some p)
    (hne : p.2 ≠ .transactionInProgress) (i : Nat) : w.ending i ≠ some (c, .abortTransaction) := by
  intro hi
  obtain ⟨⟨snap, hp⟩, -⟩ := h.abort i c hi
  obtain rfl := Option.some.inj (hold.symm.trans hp)
  exact hne rfl

/-- The state of a session changes on which no abort is in the air. -/
theorem Fits.of_update {p : Bool × TxnState} (h : w.Fits) (hflights : w'.flights = w.flights)
    (hphase : w'.phase = Function.update w.phase c (some p)) (habort : ∀ i, w.ending i ≠ some (c, .abortTransaction))
    (hcommit : (∀ i, w.ending i ≠ some (c, .commitTransaction)) ∨ p.2.isActive = true ∨ p.2 = .transactionCommitted) :
    w'.Fits := by
  have hending := ending_congr hflights
  refine ⟨fun i d hd => ?_, fun i d hd => ?_⟩
  · rw [hending] at hd
    rw [hphase]
    by_cases hc : d = c
    · subst hc
      rw [Function.update_self]
      exact ⟨p, rfl, hcommit.resolve_left fun hnone => hnone i hd⟩
    · rw [Function.update_of_ne hc]
      exact h.commit i d hd
  · rw [hending] at hd ⊢
    have hc : d ≠ c := by
      rintro rfl
      exact habort i hd
    rw [hphase, Function.update_of_ne hc]
    exact h.abort i d hd

/-- An answer that finds its transition; what stays in the air on the session are commits, after a commit. -/
theorem Fits.of_answered {name : EndTransactionName} {p : Bool × TxnState} (h : w.Fits)
    (hphase : w'.phase = w.answered (some (c, name))) (hending : ∀ j q, w'.ending j = some q → w.ending j = some q)
    (hold : w.phase c = some p)
    (hstate : p.2.isActive = true ∨ p.2 = .transactionCommitted ∧ name = .commitTransaction)
    (hrest : ∀ j name', w'.ending j = some (c, name') → name' = .commitTransaction ∧ name = .commitTransaction) :
    w'.Fits := by
  have hnew : w'.phase c = some (p.1, name.target) := by
    have hhandled : p.2.handled name = name.target := if_pos (target_mem.2 hstate)
    rw [hphase]
    simp only [answered]
    rw [Function.update_self, hold, ← hhandled]
    rfl
  have hother : ∀ d, d ≠ c → w'.phase d = w.phase d := fun d hd => by
    rw [hphase]
    exact Function.update_of_ne hd _ _
  refine ⟨fun i d hd => ?_, fun i d hd => ?_⟩
  · by_cases hc : d = c
    · subst hc
      obtain ⟨-, rfl⟩ := hrest i _ hd
      exact ⟨_, hnew, .inr rfl⟩
    · rw [hother d hc]
      exact h.commit i d (hending i _ hd)
  · by_cases hc : d = c
    · subst hc
      cases (hrest i _ hd).1
    · rw [hother d hc]
      obtain ⟨hprogress, honly⟩ := h.abort i d (hending i _ hd)
      exact ⟨hprogress, fun j name' hj => honly j name' (hending j _ hj)⟩

/-- The calls that may be made while a transaction is being ended. -/
structure Undisturbed (w : World) (e : Event) : Prop where
  /-- no commit while an abort is in the air -/
  commit : ∀ c i, Ends w e c .commitTransaction → w.ending i ≠ some (c, .abortTransaction)
  /-- no abort of a transaction in progress while a commit or an abort is in the air -/
  abort : ∀ c snap i name, Ends w e c .abortTransaction → w.phase c = some (snap, .transactionInProgress) →
    w.ending i ≠ some (c, name)
  /-- no end to a transaction that was started while the one before was being committed, and has sent nothing yet -/
  empty : ∀ c snap i name name', Ends w e c name → w.phase c = some (snap, .startingTransaction) →
    w.ending i ≠ some (c, name')
  /-- no other command on a session that is committed while it is being committed again -/
  command : ∀ i command conn f x j name, e.action = .command i command conn → w.flights[i]? = some f →
    w.clients[f.client]? = some x → x.session.hasEnded = false →
    x.session.transaction.state = .transactionCommitted → isTransactionCommand (f.command command) = false →
    w.ending j ≠ some (f.client, name)

theorem Fits.decorate {e : Event} {command : Command} {conn : Connection} {state : TxnState} (h : w.Fits)
    (hcond : Undisturbed w e) (haction : e.action = .command i command conn) (hf : w.flights[i]? = some f)
    (hx : w.clients[f.client]? = some x)
    (hstate : SessionState.Decorates ⟨w.pool, x.session⟩ (f.command command) state)
    (hflights : w'.flights = w.flights)
    (hphase : w'.phase = Function.update w.phase f.client (some (x.session.snapshotEnabled, state))) : w'.Fits := by
  have hold : w.phase f.client = some (x.session.snapshotEnabled, x.session.transaction.state) := phase_some hx
  cases hstate with
  | stays =>
    have hsame : w'.phase = w.phase := hphase.trans (Function.update_eq_self_iff.2 hold.symm)
    have hending := ending_congr hflights
    refine ⟨fun j d hd => ?_, fun j d hd => ?_⟩
    · rw [hending] at hd
      rw [hsame]
      exact h.commit j d hd
    · rw [hending] at hd ⊢
      rw [hsame]
      exact h.abort j d hd
  | begins hstart =>
    refine h.of_update hflights hphase (h.no_abort hold ?_) (.inr (.inl rfl))
    intro heq
    cases hstart.symm.trans heq
  | leaves hlive hout hcommand =>
    have hactive : x.session.transaction.state.isActive = false := hout
    have hnone : ∀ j name, w.ending j ≠ some (f.client, name) := by
      by_cases hc : x.session.transaction.state = .transactionCommitted
      · exact fun j name => hcond.command i command conn f x j name haction hf hx hlive hc hcommand
      · exact h.quiet hold hactive hc
    exact h.of_update hflights hphase (fun j => hnone j _) (.inl fun j => hnone j _)

/-- A call more is in the air; what was there on its session are commits, if it is one itself. -/
theorem Fits.of_sent {n : Nat} {name : EndTransactionName} {p : Bool × TxnState} (h : w.Fits)
    (hphase : w'.phase = w.phase) (hending : w'.ending = Function.update w.ending n (some (c, name)))
    (hold : w.phase c = some p) (hsend : Sendable name p.2)
    (hrest : ∀ j name', w.ending j = some (c, name') → name' = .commitTransaction ∧ name = .commitTransaction) :
    w'.Fits := by
  have hair : ∀ j q, w'.ending j = some q → j = n ∧ q = (c, name) ∨ w.ending j = some q := by
    intro j q hj
    rw [hending] at hj
    by_cases hn : j = n
    · subst hn
      rw [Function.update_self] at hj
      cases hj
      exact .inl ⟨rfl, rfl⟩
    · rw [Function.update_of_ne hn] at hj
      exact .inr hj
  refine ⟨fun j d hd => ?_, fun j d hd => ?_⟩
  · rw [hphase]
    rcases hair j _ hd with ⟨-, hd⟩ | hd
    · cases hd
      refine ⟨p, hold, ?_⟩
      rcases hsend with hsend | ⟨hsend, -⟩
      · exact .inl (by rw [hsend]; rfl)
      · exact .inr hsend
    · exact h.commit j d hd
  · rw [hphase]
    rcases hair j _ hd with ⟨hj, hd⟩ | hd
    · cases hd
      refine ⟨⟨p.1, ?_⟩, fun j' name' hj' => ?_⟩
      · rcases hsend with hsend | ⟨-, hsend⟩
        · rw [hold, ← hsend]
        · cases hsend
      · rcases hair j' _ hj' with ⟨hj', -⟩ | hj'
        · exact hj'.trans hj.symm
        · cases (hrest j' name' hj').2
    · obtain ⟨hprogress, honly⟩ := h.abort j d hd
      refine ⟨hprogress, fun j' name' hj' => ?_⟩
      rcases hair j' _ hj' with ⟨-, hd'⟩ | hj'
      · cases hd'
        cases (hrest j _ hd).1
      · exact honly j' name' hj'

/-- A commit or an abort is sent, and may be answered at once. -/
theorem Fits.launch {e : Event} (h : w.Fits) (hcond : Undisturbed w e) (hnew : f.landed = true)
    (hends : ∀ c name, f.ending = some (c, name) → Ends w e c name ∧ ∃ p, w.phase c = some p ∧ Sendable name p.2)
    (hflown : Flown { w with flights := w.flights ++ [f] } w.flights.length f w') : w'.Fits := by
  have hlength : w.flights.length < (w.flights ++ [f]).length := by
    rw [List.length_append]
    exact Nat.lt_succ_self _
  have hlast : w.ending w.flights.length = none := by
    unfold ending
    rw [List.getElem?_eq_none (Nat.le_refl _)]
    rfl
  have hviews := hflown.views hlength
  rw [ending_append hnew] at hviews
  cases hf : f.ending with
  | none =>
    -- an operation that ends nothing
    rw [hf] at hviews
    have hsame : w'.phase = w.phase ∧ w'.ending = w.ending := by
      have hupdate : Function.update w.ending w.flights.length none = w.ending :=
        Function.update_eq_self_iff.2 hlast.symm
      rcases hviews with ⟨hphase, hending⟩ | ⟨hphase, hending⟩
      · exact ⟨hphase, hending.trans hupdate⟩
      · exact ⟨hphase, hending.trans hupdate⟩
    constructor
    · rw [hsame.1, hsame.2]
      exact h.commit
    · rw [hsame.1, hsame.2]
      exact h.abort
  | some q =>
    obtain ⟨c, name⟩ := q
    obtain ⟨hcall, p, hold, hsend⟩ := hends c name hf
    rw [hf] at hviews
    -- what else is in the air on the session
    have hrest : ∀ j name', w.ending j = some (c, name') → name' = .commitTransaction ∧ name = .commitTransaction := by
      intro j name' hj
      cases name with
      | commitTransaction =>
        cases name' with
        | commitTransaction => exact ⟨rfl, rfl⟩
        | abortTransaction => exact absurd hj (hcond.commit c j hcall)
      | abortTransaction =>
        rcases hsend with hsend | ⟨-, hsend⟩
        · exact absurd hj (hcond.abort c p.1 j name' hcall (by rw [hold, ← hsend]))
        · cases hsend
    rcases hviews with ⟨hphase, hending⟩ | ⟨hphase, hending⟩
    · exact h.of_sent hphase hending hold hsend hrest
    · have hupdate : w'.ending = w.ending := hending.trans (Function.update_eq_self_iff.2 hlast.symm)
      refine h.of_answered hphase (fun j q hj => hupdate ▸ hj) hold ?_ fun j name' hj => hrest j name' (hupdate ▸ hj)
      rcases hsend with hsend | hsend
      · exact .inl (by rw [hsend]; rfl)
      · exact .inr hsend

/-- What is in the air goes on, or is answered. -/
theorem Fits.answer (h : w.Fits) (hf : w.flights[i]? = some f) (hair : f.landed = false) (hflown : Flown w i f w') :
    w'.Fits := by
  have hi : i < w.flights.length := (List.getElem?_eq_some_iff.1 hf).1
  have hending := ending_of_air hf hair
  rcases hflown.views hi with ⟨hphase, hending'⟩ | ⟨hphase, hending'⟩
  · have hsame : w'.ending = w.ending := hending'.trans (Function.update_eq_self_iff.2 hending.symm)
    constructor
    · rw [hphase, hsame]
      exact h.commit
    · rw [hphase, hsame]
      exact h.abort
  · have hback : ∀ j q, w'.ending j = some q → j ≠ i ∧ w.ending j = some q := by
      intro j q hj
      rw [hending'] at hj
      by_cases hji : j = i
      · rw [hji, Function.update_self] at hj
        cases hj
      · rw [Function.update_of_ne hji] at hj
        exact ⟨hji, hj⟩
    cases hname : f.ending with
    | none =>
      rw [hname] at hphase
      refine ⟨fun j d hd => hphase ▸ h.commit j d (hback j _ hd).2, fun j d hd => ?_⟩
      obtain ⟨hprogress, honly⟩ := h.abort j d (hback j _ hd).2
      exact ⟨hphase ▸ hprogress, fun j' name' hj' => honly j' name' (hback j' _ hj').2⟩
    | some q =>
      obtain ⟨c, name⟩ := q
      rw [hname] at hphase hending
      obtain ⟨p, hold, hstate⟩ := h.target hending
      refine h.of_answered hphase (fun j q hj => (hback j q hj).2) hold hstate fun j name' hj => ?_
      obtain ⟨hne, hj⟩ := hback j _ hj
      cases name with
      | abortTransaction => exact absurd ((h.abort i c hending).2 j name' hj) hne
      | commitTransaction =>
        cases name' with
        | commitTransaction => exact ⟨rfl, rfl⟩
        | abortTransaction => exact absurd ((h.abort j c hj).2 i _ hending).symm hne

theorem Fits.turn {e : Event} (h : w.Fits) (hcond : Undisturbed w e) (hturn : Turn w e w') : w'.Fits := by
  cases hturn with
  | still hflights hphase =>
    have hending := ending_congr hflights
    constructor
    · rw [hphase, hending]
      exact h.commit
    · rw [hphase, hending]
      exact h.abort
  | @joins c snap hold hflights hphase =>
    have hnone : ∀ i name, w.ending i ≠ some (c, name) := fun i name hi => by
      obtain ⟨p, hp, -⟩ := h.target hi
      cases hold.symm.trans hp
    exact h.of_update hflights hphase (fun i => hnone i _) (.inl fun i => hnone i _)
  | starts hold hout hflights hphase =>
    refine h.of_update hflights hphase (h.no_abort hold ?_) (.inr (.inl rfl))
    intro heq
    cases heq
    cases hout
  | @settles c name snap state state' hcall hold hstate hstate' hflights hphase =>
    have hnone : ∀ i name', w.ending i ≠ some (c, name') := by
      rcases hstate with rfl | ⟨rfl, -⟩
      · exact fun i name' => hcond.empty c snap i name name' hcall hold
      · exact h.quiet hold rfl fun heq => (nomatch heq)
    exact h.of_update hflights hphase (fun i => hnone i _) (.inl fun i => hnone i _)
  | decorates haction hf hx hstate hflights hphase => exact h.decorate hcond haction hf hx hstate hflights hphase
  | launches hclient hnew hends hflown => exact h.launch hcond hnew hends hflown
  | answers hf hair hflown => exact h.answer hf hair hflown

theorem fits_init : ({} : World).Fits := ⟨fun _ _ hi => (nomatch hi), fun _ _ hi => (nomatch hi)⟩

/-! ## What is thrown -/

/-- The error a call throws. -/
def thrown {α : Type} : Except AnyError α → Option AnyError
  | .error err => some err
  | .ok _ => none

/-- The error `endTransaction` calls back with before it waits. -/
def refusal : SessionState × SessionState.Ending → Option AnyError
  | (_, .returned err) => err
  | (_, .send _) => none

/-- The error that the call of a session's function in an event throws, or calls back with at once. -/
def called (w : World) (e : Event) : Option AnyError :=
  match e.action with
  | .startTransaction c options => w.clients[c]?.bind fun x =>
      thrown (SessionState.startTransaction e.env.toEnv ⟨w.pool, x.session⟩ e.env.deployment options).2
  | .endTransaction c name => w.clients[c]?.bind fun x =>
      refusal (SessionState.endTransaction e.env.toEnv ⟨w.pool, x.session⟩ name)
  | .endSession c => w.clients[c]?.bind fun x =>
      if x.session.hasEnded || !x.session.inTransaction then none
      else refusal (SessionState.endTransaction e.env.toEnv ⟨w.pool, x.session⟩ .abortTransaction)
  | .command i command conn => do
    let f ← w.flights[i]?
    let x ← w.clients[f.client]?
    if conn.hasSessionSupport then
      thrown (SessionState.applySession e.env.toEnv ⟨w.pool, x.session⟩ (f.command command) f.options).2
    else none
  | _ => none

/-- What is thrown in a step, by the call or in the callback of a command that has been answered. -/
def Throws (w : World) (e : Event) (w' : World) (err : AnyError) : Prop :=
  w.called e = some err ∨ ∃ i c name x, Answered w w' i c name ∧ w.clients[c]? = some x ∧
    SessionState.commandHandler ⟨w.pool, x.session⟩ name = .error err

/-- The states in which `commitTransaction` or `abortTransaction` is misuse. -/
def Refused (state : TxnState) : EndTransactionName → Prop
  | .commitTransaction => state = .noTransaction ∨ state = .transactionAborted
  | .abortTransaction => state.isActive = false

/-- A call on a session whose transaction is not in the state for it. -/
def Misused (w : World) (e : Event) : Prop :=
  match e.action with
  | .startTransaction c _ => ∃ x, w.clients[c]? = some x ∧ x.session.inTransaction = true
  | .endTransaction c name => ∃ x, w.clients[c]? = some x ∧ Refused x.session.transaction.state name
  | _ => False

/-- No transition throws; an answered command leaves its transaction committed or aborted; misuse is reported. -/
structure Orderly (w : World) (e : Event) (w' : World) : Prop where
  legal : ∀ err, Throws w e w' err → ¬ AnyError.Illegal err
  changed : ∀ i c name, Answered w w' i c name → ∃ snap, w'.phase c = some (snap, name.target)
  reported : Misused w e → ∃ err, w.called e = some err ∧ err.cls = .mongoTransactionError

/-- The commands answered in a step find the transaction still active or, for a commit, committed already. -/
def AnswersFit (w : World) (e : Event) : Prop :=
  ∀ w' i c name p, w.step e = some w' → Answered w w' i c name → w.phase c = some p →
    p.2.isActive = true ∨ p.2 = .transactionCommitted ∧ name = .commitTransaction

theorem refusal_cls (env : Env) (s : SessionState) (name : EndTransactionName) {err : AnyError}
    (h : refusal (s.endTransaction env name) = some err) : err.cls = .mongoTransactionError := by
  rcases SessionState.endTransaction_phase env s name with ⟨s₁, err', heq, hcls, -⟩ | ⟨s₁, state, heq, -⟩ | ⟨s₁, heq, -⟩
  · rw [heq] at h
    cases h
    exact hcls
  · rw [heq] at h
    cases h
  · rw [heq] at h
    cases h

/-- No call throws an illegal transition. -/
theorem called_legal (w : World) (e : Event) {err : AnyError} (h : w.called e = some err) :
    ¬ AnyError.Illegal err := by
  have hrefusal : ∀ (s : SessionState) name, refusal (s.endTransaction e.env.toEnv name) = some err →
      ¬ AnyError.Illegal err := fun s name hs => by
    refine not_illegal ?_
    rw [refusal_cls e.env.toEnv s name hs]
    exact fun heq => (nomatch heq)
  unfold called at h
  split at h
  · rename_i c options haction
    obtain ⟨x, hx, h⟩ := Option.bind_eq_some_iff.1 h
    rcases SessionState.startTransaction_phase e.env.toEnv ⟨w.pool, x.session⟩ e.env.deployment options with
      ⟨err', herr, hlegal, -⟩ | ⟨hok, -⟩
    · rw [herr] at h
      cases h
      exact hlegal
    · rw [hok] at h
      cases h
  · obtain ⟨x, hx, h⟩ := Option.bind_eq_some_iff.1 h
    exact hrefusal _ _ h
  · obtain ⟨x, hx, h⟩ := Option.bind_eq_some_iff.1 h
    split at h
    · cases h
    · exact hrefusal _ _ h
  · rename_i i command conn haction
    simp only [Option.bind_eq_bind, Option.bind_eq_some_iff] at h
    obtain ⟨f, hf, x, hx, h⟩ := h
    split at h
    · have hlegal := (SessionState.applySession_phase e.env.toEnv ⟨w.pool, x.session⟩ (f.command command) f.options).1
      unfold thrown at h
      split at h
      · rename_i err' herr
        cases h
        exact hlegal _ herr
      · cases h
    · cases h
  · cases h

theorem Refused.not_taken {state : TxnState} {name : EndTransactionName} (h : Refused state name) :
    ¬ (state = .startingTransaction ∨ state = .transactionCommittedEmpty ∧ name = .commitTransaction) ∧
      ¬ Sendable name state := by
  unfold Sendable
  cases name with
  | commitTransaction =>
    rcases h with rfl | rfl
    · exact ⟨by decide, by decide⟩
    · exact ⟨by decide, by decide⟩
  | abortTransaction =>
    replace h : state.isActive = false := h
    cases state with
    | startingTransaction | transactionInProgress => cases h
    | _ => exact ⟨by decide, by decide⟩

theorem misused_reported {e : Event} (h : w.Manned) (hmisused : Misused w e) :
    ∃ err, w.called e = some err ∧ err.cls = .mongoTransactionError := by
  unfold Misused at hmisused
  split at hmisused
  · rename_i c options haction
    obtain ⟨x, hx, hin⟩ := hmisused
    have hsnap : x.session.snapshotEnabled = false := by
      cases hs : x.session.snapshotEnabled with
      | false => rfl
      | true =>
        have hno := h.snapshot c _ ((phase_some hx).trans (congrArg some (Prod.ext hs rfl)))
        unfold ClientSession.inTransaction at hin
        rw [show x.session.transaction.state = .noTransaction from hno] at hin
        cases hin
    rcases SessionState.startTransaction_phase e.env.toEnv ⟨w.pool, x.session⟩ e.env.deployment options with
      ⟨err, herr, -, -, hcls⟩ | ⟨-, -, hout, -⟩
    · refine ⟨err, ?_, hcls hsnap hin⟩
      simp only [called, haction, hx, Option.bind_some, herr]
      rfl
    · rw [show x.session.inTransaction = true from hin] at hout
      cases hout
  · rename_i c name haction
    obtain ⟨x, hx, hrefused⟩ := hmisused
    simp only [called, haction, hx, Option.bind_some]
    rcases SessionState.endTransaction_phase e.env.toEnv ⟨w.pool, x.session⟩ name with
      ⟨s, err, heq, hcls, -⟩ | ⟨s, state, heq, -, hstate, -⟩ | ⟨s, heq, -, hstate⟩
    · rw [heq]
      exact ⟨err, rfl, hcls⟩
    · exact absurd hstate hrefused.not_taken.1
    · exact absurd hstate hrefused.not_taken.2
  · exact hmisused.elim

/-! ## Steps and runs -/

/-- The exact condition on one event. -/
theorem orderly_iff {e : Event} (h : w.Manned) (hstep : w.step e = some w') : AnswersFit w e ↔ Orderly w e w' := by
  have hturn := step_turn h hstep
  -- an answer finds the session of its flight in some state
  have hphase : ∀ {i c name}, Answered w w' i c name → ∃ x, w.clients[c]? = some x := by
    intro i c name hanswered
    have hsome : (w.phase c).isSome := by
      rcases (hturn.answered hanswered).1 with hair | ⟨p, hp, -⟩
      · unfold ending at hair
        obtain ⟨f, hf, hair⟩ := Option.bind_eq_some_iff.1 hair
        have hclient := h.client i f hf
        split at hair
        · cases hair
        · unfold Flight.ending at hair
          split at hair
          · cases hair
          · cases hair
            exact hclient
      · rw [hp]
        rfl
    rw [phase_isSome] at hsome
    exact Option.isSome_iff_exists.1 hsome
  constructor
  · intro hfit
    refine ⟨fun err hthrows => ?_, fun i c name hanswered => ?_, misused_reported h⟩
    · rcases hthrows with hcalled | ⟨i, c, name, x, hanswered, hx, herr⟩
      · exact called_legal w e hcalled
      · have hmem := target_mem.2 (hfit w' i c name _ hstep hanswered (phase_some hx))
        rcases SessionState.commandHandler_phase ⟨w.pool, x.session⟩ name with ⟨-, s', hok, -⟩ | ⟨hnot, -⟩
        · rw [hok] at herr
          cases herr
        · exact absurd hmem hnot
    · obtain ⟨x, hx⟩ := hphase hanswered
      have hmem := target_mem.2 (hfit w' i c name _ hstep hanswered (phase_some hx))
      refine ⟨x.session.snapshotEnabled, ?_⟩
      rw [(hturn.answered hanswered).2]
      simp only [answered]
      rw [Function.update_self, phase_some hx]
      exact congrArg some (Prod.ext rfl (if_pos hmem))
  · intro horderly w'' i c name p hstep' hanswered hp
    obtain rfl := Option.some.inj (hstep.symm.trans hstep')
    obtain ⟨x, hx⟩ := hphase hanswered
    obtain rfl := Option.some.inj (hp.symm.trans (phase_some hx))
    rcases SessionState.commandHandler_phase ⟨w.pool, x.session⟩ name with ⟨hmem, -⟩ | ⟨-, herr⟩
    · exact target_mem.1 hmem
    · exact absurd ⟨_, _, rfl⟩ (horderly.legal _ (.inr ⟨i, c, name, x, hanswered, hx, herr⟩))

/-- While the calls in the air fit, so does every answer. -/
theorem Fits.answersFit {e : Event} (h : w.Fits) (hmanned : w.Manned) : AnswersFit w e := by
  intro w' i c name p hstep hanswered hp
  rcases ((step_turn hmanned hstep).answered hanswered).1 with hair | ⟨q, hq, hsend⟩
  · obtain ⟨q, hq, hstate⟩ := h.target hair
    obtain rfl := Option.some.inj (hp.symm.trans hq)
    exact hstate
  · obtain rfl := Option.some.inj (hp.symm.trans hq)
    rcases hsend with hsend | hsend
    · exact .inl (by rw [hsend]; rfl)
    · exact .inr hsend

end World

/-- A condition on the call that an event makes on a session. -/
def System.OnCall (C : World → Event → Prop) (s : System) (e : SystemEvent) : Prop :=
  ∀ call, s.call e = some call → C s.world call

theorem System.step_manned {s s' : System} {e : SystemEvent} (h : s.world.Manned) (hstep : s.step e = some s') :
    s'.world.Manned := by
  rcases System.step_world hstep with ⟨call, -, hcall⟩ | ⟨-, hworld⟩
  · exact (World.step_turn h hcall).manned h
  · rw [hworld]
    exact h

theorem System.step_fits {s s' : System} {e : SystemEvent} (h : s.world.Manned ∧ s.world.Fits)
    (hcond : s.OnCall World.Undisturbed e) (hstep : s.step e = some s') : s'.world.Manned ∧ s'.world.Fits := by
  refine ⟨System.step_manned h.1 hstep, ?_⟩
  rcases System.step_world hstep with ⟨call, hcall, hworld⟩ | ⟨-, hworld⟩
  · exact h.2.turn (hcond call hcall) (World.step_turn h.1 hworld)
  · rw [hworld]
    exact h.2

theorem System.orderly_iff {s s' : System} {e : SystemEvent} (h : s.world.Manned) (hstep : s.step e = some s') :
    s.OnCall World.AnswersFit e ↔ ∀ call, s.call e = some call → World.Orderly s.world call s'.world := by
  refine forall_congr' fun call => forall_congr' fun hcall => ?_
  rcases System.step_world hstep with ⟨call', hcall', hworld⟩ | ⟨hnone, -⟩
  · obtain rfl := Option.some.inj (hcall.symm.trans hcall')
    exact World.orderly_iff h hworld
  · rw [hnone] at hcall
    cases hcall

/-- For every run of calls on client sessions, in any order and however they overlap, `withTransaction` among them:
no transition throws and misuse is reported, exactly when every answer to a commit or an abort finds the transaction
active or, for a commit, committed already. That is so as long as no call disturbs one that is in the air. -/
theorem transitions_legal_iff (es : List SystemEvent) (s : System) (hrun : Run.exec System.step {} es = some s) :
    ((∀ es₁ e es₂ u v, es = es₁ ++ e :: es₂ → Run.exec System.step {} es₁ = some u → System.step u e = some v →
        ∀ call, u.call e = some call → World.Orderly u.world call v.world) ↔
      Run.Meets System.step (System.OnCall World.AnswersFit) {} es) ∧
    (Run.Meets System.step (System.OnCall World.Undisturbed) {} es →
      Run.Meets System.step (System.OnCall World.AnswersFit) {} es) := by
  constructor
  · exact (Run.meets_iff_steps_inv System.step (fun _ _ _ h hstep => System.step_manned h hstep)
      (fun _ _ _ h hstep => System.orderly_iff h hstep) World.manned_init hrun).symm
  · refine Run.meets_of_inv System.step (fun _ _ _ h hcond hstep => System.step_fits h hcond hstep) ?_
      ⟨World.manned_init, World.fits_init⟩
    exact fun _ _ h _ _ _ => h.2.answersFit h.1

section Runs

open Sample

/-- A call on a session. -/
private def calling (action : Action) : SystemEvent := { env := (during action).env, action := .session action }

/-- A flight is answered. -/
private def answering (i : Nat) : List SystemEvent :=
  [calling (.selected i (.ok primary)), calling (.command i {} {}), calling (.outcome i {})]

/-- A `withTransaction` whose lambda makes one insert. -/
private def insertWithTransaction : List SystemEvent :=
  [calling (.startSession {} {}), { action := .withTransaction 0 {} }, calling (.executeOperation 0 insert false)] ++
    answering 0 ++ [{ action := .settled 0 (.ok ()) true }] ++ answering 1 ++ [{ action := .settled 0 (.ok ()) true }]

/-- A session is ended while its transaction is being aborted. -/
private def endedWhileAborting : List SystemEvent :=
  [calling (.startSession {} {}), calling (.startTransaction 0 {}), calling (.executeOperation 0 insert false)] ++
    answering 0 ++ [calling (.endTransaction 0 .abortTransaction), calling (.endSession 0)] ++ answering 1 ++
    [calling (.selected 2 (.ok primary)), calling (.command 2 {} {})]

/-- Nothing is disturbed while no transaction is being ended. -/
private theorem undisturbed_idle {s : System} {e : SystemEvent}
    (h : s.world.flights.all (fun f => f.landed || f.ending.isNone) = true) : s.OnCall World.Undisturbed e := by
  have hnone : ∀ i c name, s.world.ending i ≠ some (c, name) := by
    intro i c name hi
    unfold World.ending at hi
    obtain ⟨f, hf, hi⟩ := Option.bind_eq_some_iff.1 hi
    have hf := List.all_eq_true.1 h f (List.mem_of_getElem? hf)
    split at hi
    · cases hi
    · rename_i hair
      rw [hi] at hf
      simp [hair] at hf
  intro call' hcall'
  exact ⟨fun c i _ => hnone i c _, fun c _ i name _ _ => hnone i c name, fun c _ i _ name _ _ => hnone i c name,
    fun _ _ _ f _ j name _ _ _ _ _ _ => hnone j f.client name⟩

/-- An event of a flight disturbs nothing while the transactions are in progress. -/
private theorem undisturbed_flight {s : System} {e : SystemEvent} {call : Event} (hcall : s.call e = some call)
    (hends : ∀ c name, ¬ World.Ends s.world call c name)
    (hstate : s.world.clients.all (fun x => x.session.transaction.state ≠ .transactionCommitted) = true) :
    s.OnCall World.Undisturbed e := by
  intro call' hcall'
  obtain rfl := Option.some.inj (hcall.symm.trans hcall')
  refine ⟨fun c _ h => absurd h (hends c _), fun c _ _ _ h => absurd h (hends c _),
    fun c _ _ name _ h => absurd h (hends c name), ?_⟩
  intro i command conn f x j name _ _ hx _ hcommitted
  have hne := List.all_eq_true.1 hstate x (List.mem_of_getElem? hx)
  exact absurd hcommitted (of_decide_eq_true hne)

private theorem insertWithTransaction_undisturbed :
    Run.Meets System.step (System.OnCall World.Undisturbed) {} insertWithTransaction := by
  have hends : ∀ {w : World} {e : Event}, (match e.action with
      | .endTransaction _ _ | .endSession _ => False
      | _ => True) → ∀ c name, ¬ World.Ends w e c name := by
    rintro w e he c name (h | ⟨h, -⟩)
    · rw [h] at he
      exact he
    · rw [h] at he
      exact he
  exact .cons (undisturbed_idle rfl) rfl <| .cons (undisturbed_idle rfl) rfl <|
    .cons (undisturbed_idle rfl) rfl <| .cons (undisturbed_idle rfl) rfl <|
    .cons (undisturbed_idle rfl) rfl <| .cons (undisturbed_idle rfl) rfl <|
    .cons (undisturbed_idle rfl) rfl <| .cons (undisturbed_flight rfl (hends trivial) rfl) rfl <|
    .cons (undisturbed_flight rfl (hends trivial) rfl) rfl <| .cons (undisturbed_flight rfl (hends trivial) rfl) rfl <|
    .cons (fun _ hcall => (nomatch hcall)) rfl trivial

/-- The transaction of the lambda is committed. -/
theorem insertWithTransaction_orderly : ∃ s, Run.exec System.step {} insertWithTransaction = some s ∧
    s.world.phase 0 = some (false, .transactionCommitted) ∧
    ∀ es₁ e es₂ u v, insertWithTransaction = es₁ ++ e :: es₂ → Run.exec System.step {} es₁ = some u →
      System.step u e = some v → ∀ call, u.call e = some call → World.Orderly u.world call v.world := by
  have hlegal := transitions_legal_iff insertWithTransaction _ rfl
  exact ⟨_, rfl, rfl, hlegal.1.2 (hlegal.2 insertWithTransaction_undisturbed)⟩

/-- The two answers to `abortTransaction` ask for the same transition, and `endSession` never completes. -/
theorem ended_while_aborting_throws : ∃ u v call, Run.exec System.step {} endedWhileAborting = some u ∧
    System.step u (calling (.outcome 2 {})) = some v ∧ u.call (calling (.outcome 2 {})) = some call ∧
    World.Throws u.world call v.world (illegalTransition .transactionAborted .transactionAborted) ∧
    v.world.clients.map (·.session.hasEnded) = [false] ∧ ¬ World.Orderly u.world call v.world := by
  have hthrows : ∃ u v call, Run.exec System.step {} endedWhileAborting = some u ∧
      System.step u (calling (.outcome 2 {})) = some v ∧ u.call (calling (.outcome 2 {})) = some call ∧
      World.Throws u.world call v.world (illegalTransition .transactionAborted .transactionAborted) ∧
      v.world.clients.map (·.session.hasEnded) = [false] := by
    refine ⟨_, _, _, rfl, rfl, rfl, .inr ⟨2, 0, .abortTransaction, _, ⟨⟨_, rfl, rfl, rfl⟩, ?_⟩, rfl, rfl⟩, rfl⟩
    intro f hf
    cases hf
    rfl
  obtain ⟨u, v, call, hu, hv, hcall, herr, hended⟩ := hthrows
  exact ⟨u, v, call, hu, hv, hcall, herr, hended, fun horderly => horderly.legal _ herr ⟨_, _, rfl⟩⟩

end Runs

end MongoDriver.Sessions
