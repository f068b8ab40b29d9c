/-
Every event of client sessions that are used one at a time is a chain of moves: the calls on a client session,
the commands of its flights and what else happens to it.
-/
import MongoDriver.Sessions.FlightMoves

namespace MongoDriver.Sessions

namespace World

variable {k : Prop} {env : Surroundings} {w w' : World} {c i : Nat} {x : Client} {s s' : SessionState} {f : Flight}

/-! ## Calls on a client session -/

/-- `endTransaction` of a transaction in which nothing was sent. -/
theorem settle_moves {t : Transaction} (env : Surroundings) (h : w.Sound) (hx : w.clients[c]? = some x)
    (hidle : w.idle c = true)
    (hstate : x.session.transaction.state = .startingTransaction ∨
      x.session.transaction.state = .transactionCommittedEmpty)
    (ht : t.state = .transactionCommittedEmpty ∨ t.state = .transactionAborted) (endSession : Bool) :
    Moves k w ((w.mark c (·.map ({ · with closed := true }))).put c
      (if endSession then SessionState.completeEndSession env.toEnv ⟨w.pool, (x.setTransaction t).session⟩
        else ⟨w.pool, (x.setTransaction t).session⟩)) := by
  have hmove : Move k w _ := .settle hx hidle hstate ht
  have hsound := hmove.sound h
  have hx₁ : (w.clients.set c (x.setTransaction t).close)[c]? = some (x.setTransaction t).close := Heap.get_set_self hx
  have hput : ∀ s, (w.mark c (·.map ({ · with closed := true }))).put c s =
      ({ w with clients := w.clients.set c (x.setTransaction t).close } : World).put c s := by
    intro s
    rw [mark_eq hx, put_eq (Heap.get_set_self hx), put_eq hx₁]
    simp only [List.set_set]
    rfl
  refine .trans (.single hmove) ?_
  rw [hput]
  cases endSession with
  | false =>
    rw [put_eq hx₁]
    simp only [List.set_set]
    exact .refl
  | true =>
    exact completeEndSession_moves env (x := (x.setTransaction t).close) hsound hx₁ hidle
      (TxnState.not_active_of_isCommitted (TxnState.isCommitted_of_settled ht))

/-- `endTransaction` that sends its command. -/
theorem sendEnd_moves {name : EndTransactionName} (h : w.Sound) (hx : w.clients[c]? = some x) (hidle : w.idle c = true)
    (hstate : x.session.transaction.state = .transactionInProgress ∨
      x.session.transaction.state = .transactionCommitted ∧ name = .commitTransaction)
    {command : Command} (hbare : command.Bare) (hcommand : isTransactionCommand command = true) (endSession : Bool)
    (hk : k → x.session.hasEnded = false → ∀ r st, x.session.serverSession = some r → x.started = some st →
      x.session.transaction.state = .transactionCommitted → w.pool.number r = st.txnNumber) :
    Moves k w ((w.mark c (·.map ({ · with closed := true }))).launch env
      { client := c
        purpose := .endTransaction name command false endSession
        txn := x.started.map (·.txn) }
      endOperation) := by
  have hbegan : x.started.isSome := by
    refine h.began c x hx ?_
    rcases hstate with hs | ⟨hs, -⟩
    · rw [hs]; decide
    · rw [hs]; decide
  obtain ⟨st, hst⟩ := Option.isSome_iff_exists.1 hbegan
  have hready : Ready x.close (Flight.staged
      ⟨c, .endTransaction name command false endSession, {}, x.started.map (·.txn), .running .done⟩
      (.checking endOperation)) := by
    refine ⟨⟨{ st with closed := true }, ?_, rfl, ?_⟩, hstate, hbare, hcommand, rfl, fun op hop => ?_,
      fun p hp => (nomatch hp)⟩
    · show x.started.map _ = _
      rw [hst]
      rfl
    · show x.started.map _ = _
      rw [hst]
      rfl
    · cases hop
      rfl
  have hmove : Move k w _ := .launchEnd hx hidle (Flight.landed_checking rfl) rfl hready hk
  have hsound := hmove.sound h
  refine .trans (.single hmove) ?_
  rw [mark_eq hx]
  exact launched_moves (w := { w with clients := w.clients.set c x.close }) (Heap.get_set_self hx) hsound

theorem endTransaction_moves (h : w.Sound) (hx : w.clients[c]? = some x) (hidle : w.idle c = true)
    (name : EndTransactionName) (endSession : Bool)
    (hk : k → name = .commitTransaction → x.session.hasEnded = false → ∀ r st, x.session.serverSession = some r →
      x.started = some st → x.session.transaction.state = .transactionCommitted → w.pool.number r = st.txnNumber) :
    Moves k w (w.endTransaction env c x name endSession) := by
  obtain ⟨s₁, hstill, hcases⟩ := SessionState.endTransaction_cases env.toEnv ⟨w.pool, x.session⟩ name
  have hmove : Move k w _ := .still (still_put h.accounted hx hstill)
  have hsound := hmove.sound h
  have hx₁ := clients_put hx s₁
  unfold endTransaction
  rcases hcases with ⟨e, heq⟩ | ⟨t, heq, hstate, ht⟩ | ⟨heq, hstate⟩
  · rw [heq]
    exact .single hmove
  · rw [heq]
    refine .trans (.single hmove) ?_
    have hsettle := settle_moves (k := k) env hsound hx₁ hidle hstate ht endSession
    rw [put_mark_put] at hsettle
    exact hsettle
  · rw [heq]
    obtain ⟨hbare, hcommand⟩ := SessionState.endCommand_bare s₁ name
    refine .trans (.single hmove) (sendEnd_moves hsound hx₁ hidle hstate hbare hcommand endSession ?_)
    intro hk' hlive r st hr hst hcommitted
    rw [show (w.put c s₁).pool.number = _ from hstill.number]
    have hended : x.session.hasEnded = false := hstill.alike.hasEnded.symm.trans hlive
    -- `abortTransaction` is refused in this state
    have hname : name = .commitTransaction := by
      rcases hstate with hprogress | ⟨-, hname⟩
      · cases hprogress.symm.trans hcommitted
      · exact hname
    refine hk hk' hname hended r st ?_ hst (hstill.alike.state.symm.trans hcommitted)
    cases hr₀ : x.session.serverSession with
    | none => cases (h.held c x hx hended hr₀).symm.trans hst
    | some r₀ => exact (hstill.alike.serverSession r₀ hr₀).symm.trans hr

theorem endSession_moves (h : w.Sound) (hx : w.clients[c]? = some x) (hidle : w.idle c = true) :
    Moves k w (w.endSession env c x) := by
  unfold endSession
  split
  · exact .refl
  · split
    · exact endTransaction_moves h hx hidle _ _ fun _ hname => by cases hname
    · rename_i hin
      exact completeEndSession_moves env h hx hidle (by simpa using hin)

/-- `startTransaction`. Whether the session has ended is noted beside it. -/
theorem startTransaction_moves (h : w.Sound) (hx : w.clients[c]? = some x) (hidle : w.idle c = true)
    (options : TransactionOptions) : Moves k w (w.startTransaction env c x options) := by
  have hnote : ∀ (s₁ : SessionState) (calls : List StartCall), SessionState.Still ⟨w.pool, x.session⟩ s₁ →
      Move k w { w.put c s₁ with starts := calls } := by
    intro s₁ calls hstill
    obtain ⟨ha, hnumber, hclients, hflights, hsent, htxns⟩ := still_put h.accounted hx hstill
    refine .still ⟨?_, hnumber, hclients, hflights, hsent, htxns⟩
    exact ⟨ha.once, ha.apart, ha.one, ha.live, False.elim, ha.pooled, ha.held⟩
  rcases SessionState.startTransaction_cases env.toEnv ⟨w.pool, x.session⟩ env.deployment options with
    ⟨s', e, hstill, heq⟩ | ⟨s₁, r, hstill, hr, hout, ⟨e, heq⟩ | ⟨t, ht, heq⟩⟩
  · unfold startTransaction
    rw [heq]
    exact .single (hnote s' _ hstill)
  · have hx₁ := clients_put hx s₁
    have hmove₁ := hnote s₁ (w.starts ++ [⟨x.session.hasEnded, .error e⟩]) hstill
    have hmove₂ : Move k { w.put c s₁ with starts := w.starts ++ [⟨x.session.hasEnded, .error e⟩] } _ :=
      .bump hx₁ hr hidle hout
    unfold startTransaction
    rw [heq]
    exact .tail (.single hmove₁) hmove₂
  · have hx₁ := clients_put hx s₁
    have hmove₁ := hnote s₁ (w.starts ++ [⟨x.session.hasEnded, .ok ()⟩]) hstill
    have hmove₂ : Move k { w.put c s₁ with starts := w.starts ++ [⟨x.session.hasEnded, .ok ()⟩] } _ :=
      .start hx₁ hr hidle hout ht
    have hlt : r < s₁.pool.created.length :=
      (hmove₁.sound h).accounted.held c _ r (sessions_some.2 ⟨_, hx₁, rfl⟩) hr
    have hnumber : (s₁.session.serverSession.bind ((s₁.pool.increment r).created[·]?)).elim 0 (·.txnNumber) =
        s₁.pool.number r + 1 := by
      have := s₁.pool.number_increment hlt r
      rw [if_pos rfl] at this
      rw [hr, ← this, Option.bind_some]
      unfold ServerSessionPool.number
      cases (s₁.pool.increment r).created[r]? <;> rfl
    unfold startTransaction
    rw [heq]
    refine cast (congrArg _ ?_) (Relation.ReflTransGen.tail (.single hmove₁) hmove₂)
    show _ = World.beginTxn _ c
      ((s₁.session.serverSession.bind ((s₁.pool.increment r).created[·]?)).elim 0 (·.txnNumber))
    rw [hnumber, put_eq hx, put_eq hx]
    unfold beginTxn
    rw [mark_eq (Heap.get_set_self hx)]
    simp only [List.set_set]
    rfl

/-! ## Commands -/

theorem write_eq (env : Surroundings) (w : World) (i : Nat) (f : Flight) (s : SessionState) (command : Command)
    (conn : Connection) : w.write env i f s command conn = { w.put f.client (s.getServerSession env.toEnv).1 with
      sent := w.sent ++
        if conn.writes then [⟨f.client, i, f.txn, f.options, conn.hasSessionSupport, command⟩] else [] } := by
  unfold write
  simp only
  split
  · rfl
  · rw [List.append_nil]
    rfl

/-- A command that is written without being decorated. -/
theorem bare_moves {command : Command} {conn : Connection} (h : w.Sound) (hf : w.Air i f)
    (hx : w.clients[f.client]? = some x)
    (hs : SessionState.Still ⟨w.pool, x.session⟩ s) (hbare : command.Bare)
    (hsupported : conn.hasSessionSupport = true → f.options.unacknowledged = true) (hk : k → f.txn = none) :
    Moves k w (w.write env i f s command conn) := by
  have hmove : Move k w _ :=
    .still (still_put h.accounted hx (hs.trans (SessionState.still_getServerSession env.toEnv s)))
  refine .trans (.single hmove) ?_
  rw [write_eq]
  cases conn.writes with
  | false =>
    simp only [Bool.false_eq_true, if_false, List.append_nil]
    exact .refl
  | true => exact .single (.bare hf hbare hsupported hk)

theorem command_moves {command : Command} {conn : Connection} (h : w.Sound) (hf : w.Air i f)
    (hx : w.clients[f.client]? = some x)
    (hplain : f.purpose = .operation → command.Bare ∧ isTransactionCommand command = false)
    (hk : k → f.txn.isSome → conn.hasSessionSupport = true ∧
      (f.options.unacknowledged = true → x.session.explicit = true) ∧
      (f.options.unacknowledged = false → x.session.transaction.state = .startingTransaction → conn.writes = true)) :
    Moves k w (w.command env i f ⟨w.pool, x.session⟩ (f.command command) conn) := by
  have hready := h.fits hf hx
  obtain ⟨hbare, hinside⟩ := hready.command hplain
  have hnone : (conn.hasSessionSupport = false ∨ f.options.unacknowledged = true ∧ x.session.explicit = false) → k →
      f.txn = none := by
    intro hgate hk'
    cases htxn : f.txn with
    | none => rfl
    | some txn =>
      obtain ⟨hsupport, hexplicit, -⟩ := hk hk' (by rw [htxn]; rfl)
      rcases hgate with hgate | ⟨hack, hgate⟩
      · cases hgate.symm.trans hsupport
      · cases hgate.symm.trans (hexplicit hack)
  unfold World.command
  split
  · rename_i hsupport
    by_cases hended : x.session.hasEnded = true
    · have happly : SessionState.applySession env.toEnv ⟨w.pool, x.session⟩ (f.command command) f.options =
          (⟨w.pool, x.session⟩, .error expiredSession) := if_pos hended
      rw [happly]
      exact .single (.still (still_put h.accounted hx (.refl _)))
    · have hlive : x.session.hasEnded = false := by simpa using hended
      cases hack : f.options.unacknowledged with
      | true =>
        have happly : SessionState.applySession env.toEnv ⟨w.pool, x.session⟩ (f.command command) f.options =
            ((SessionState.getServerSession env.toEnv ⟨w.pool, x.session⟩).1,
              if x.session.explicit then .error unacknowledgedExplicit else .ok (f.command command)) := by
          unfold SessionState.applySession
          simp only [hlive, hack, Bool.false_eq_true, if_false, if_true]
          rw [show (SessionState.getServerSession env.toEnv ⟨w.pool, x.session⟩).1.session.explicit =
            x.session.explicit from
            (SessionState.still_getServerSession env.toEnv ⟨w.pool, x.session⟩).alike.explicit]
        rw [happly]
        cases hexplicit : x.session.explicit with
        | true => exact .single (.still (still_put h.accounted hx (SessionState.still_getServerSession ..)))
        | false =>
          exact bare_moves h hf hx (SessionState.still_getServerSession ..) hbare (fun _ => hack)
            (hnone (.inr ⟨hack, hexplicit⟩))
      | false =>
        obtain ⟨s₁, r, t, command', hstill, hr, happly, hd⟩ :=
          SessionState.applySession_decorates env.toEnv (s := ⟨w.pool, x.session⟩) hlive hack hbare hinside
        rw [happly]
        have hmove₁ : Move k w _ := .still (still_put h.accounted hx hstill)
        have hmove₂ : Move k (w.put f.client s₁) _ := .decorate conn.writes hf (clients_put hx s₁)
          (hstill.alike.hasEnded.trans hlive) hr hack hd (fun hk' htxn hstart =>
            (hk hk' htxn).2.2 hack (hstill.alike.state.symm.trans hstart))
        refine cast (congrArg _ ?_) (Relation.ReflTransGen.tail (.single hmove₁) hmove₂)
        simp only
        rw [write_eq, SessionState.getServerSession_of_some env.toEnv (s := s₁.setTransaction t) hr, put_eq hx,
          put_eq hx, hsupport]
        simp only [List.set_set]
        rfl
  · rename_i hsupport
    refine bare_moves h hf hx (.refl _) hbare (fun hs => absurd hs hsupport) (hnone (.inl ?_))
    simpa using hsupport

end World

/-! ## Events -/

/-- A client session is used by one operation at a time: no call starts while another is in the air. -/
def Serial (w : World) (e : Event) : Prop :=
  match e.action with
  | .startTransaction c _ | .endTransaction c _ | .endSession c | .executeOperation c _ _ => w.idle c = true
  | _ => True

/-- The command document of an operation is no transaction command and has no field of a session itself. -/
def Plain (w : World) (e : Event) : Prop :=
  match e.action with
  | .command i command _ => ∀ f, w.flights[i]? = some f → f.purpose = .operation →
      command.Bare ∧ isTransactionCommand command = false
  | _ => True

/-- What the frame of a transaction needs. The commands of a transaction are acknowledged or refused, on
connections that support sessions; the first one that is decorated is written; and a commit is repeated
only while the server session still has the number of the transaction. -/
def Whole (w : World) (e : Event) : Prop :=
  match e.action with
  | .command i _ conn => ∀ f x, w.flights[i]? = some f → w.clients[f.client]? = some x → f.txn.isSome →
      conn.hasSessionSupport = true ∧ (f.options.unacknowledged = true → x.session.explicit = true) ∧
      (f.options.unacknowledged = false → x.session.transaction.state = .startingTransaction → conn.writes = true)
  | .endTransaction c .commitTransaction => ∀ x, w.clients[c]? = some x → x.session.hasEnded = false → ∀ r st,
      x.session.serverSession = some r → x.started = some st → x.session.transaction.state = .transactionCommitted →
      w.pool.number r = st.txnNumber
  | _ => True

open World in
/-- One event is a chain of moves. -/
theorem step_moves {k : Prop} {w w' : World} {e : Event} (h : w.Sound) (hserial : Serial w e) (hplain : Plain w e)
    (hwhole : k → Whole w e) (hstep : w.step e = some w') : Moves k w w' := by
  cases World.step_steps hstep with
  | refused => exact .refl
  | startSession hnew =>
    obtain ⟨hnone, hlive, ht⟩ := ClientSession.new_fresh hnew
    exact .single (.startSession hnone hlive ht)
  | read hs =>
    obtain ⟨x, hx, rfl⟩ := Option.map_eq_some_iff.1 hs
    exact .single (.still (still_put h.accounted hx (SessionState.still_getServerSession ..)))
  | @equals env c d s s' hs hs' =>
    obtain ⟨x, hx, rfl⟩ := Option.map_eq_some_iff.1 hs
    obtain ⟨y, hy, rfl⟩ := Option.map_eq_some_iff.1 hs'
    have hmove : Move k w _ := .still (still_put h.accounted hx (SessionState.still_getServerSession env.toEnv _))
    exact .tail (.single hmove)
      (.still (still_put (hmove.sound h).accounted hy (SessionState.still_getServerSession env.toEnv _)))
  | startTransaction hx => exact startTransaction_moves h hx hserial _
  | @endTransaction env c name x hx =>
    exact endTransaction_moves h hx hserial name false fun hk hname => by subst hname; exact hwhole hk x hx
  | endSession hx => exact endSession_moves h hx hserial
  | executeOperation hx => exact launch_moves h hx hserial rfl rfl rfl
  | @unchecked env i err f s op hf hs hstage =>
    have hw : w.setFlight i (f.staged f.stage) = w := setFlight_self hf
    have hair : w.Air i (f.staged f.stage) := ⟨hf, Flight.landed_checking hstage⟩
    have hland := lands_complete (k := k) env (w := w) (f := f) { error := some err } (hw.symm ▸ h)
      (hw.symm ▸ hair)
    rw [hw] at hland
    exact hland
  | checked hf hs hstage =>
    obtain ⟨x, hx, rfl⟩ := Option.map_eq_some_iff.1 hs
    exact checked_moves h hf hstage hx
  | selected hf hstage => exact answer_moves h hf hstage (fun _ hp => hp _) fun heq => (by cases heq)
  | @command env i command conn f s server next hf hs hstage =>
    obtain ⟨x, hx, rfl⟩ := Option.map_eq_some_iff.1 hs
    have hair : w.Air i f := ⟨hf, Flight.landed_waiting hstage fun heq => (by cases heq)⟩
    exact command_moves h hair hx (hplain f hf) fun hk => hwhole hk f x hf hx
  | outcome hf hstage => exact answer_moves h hf hstage (fun _ hp => hp _) fun heq => (by cases heq)
  | networkError hs =>
    obtain ⟨x, hx, rfl⟩ := Option.map_eq_some_iff.1 hs
    exact .single (.still (still_put h.accounted hx (SessionState.still_markDirty ..)))
  | response hs =>
    obtain ⟨x, hx, rfl⟩ := Option.map_eq_some_iff.1 hs
    exact .single (.still (still_put h.accounted hx (SessionState.still_updateSessionFromResponse ..)))
  | endAllPooledSessions =>
    refine .single (.still ⟨?_, rfl, fun c => ?_, rfl, rfl, rfl⟩)
    · refine ⟨List.nodup_nil, fun _ _ _ _ _ => List.not_mem_nil, h.accounted.one, False.elim, False.elim, ?_,
        h.accounted.held⟩
      intro r hr
      cases hr
    · show Option.Rel _ w.clients[c]? w.clients[c]?
      cases w.clients[c]? with
      | none => exact .none
      | some y => exact .some ⟨.refl _, rfl⟩

theorem sound_init : ({} : World).Sound := by
  refine ⟨accounted_init False, ?_, ?_, ?_, ?_, ?_, ?_⟩
  all_goals simp [World.Air]

end MongoDriver.Sessions
