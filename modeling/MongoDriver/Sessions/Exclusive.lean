/-
Who has a server session: the pool, or one client session. The getter of a client session takes a server
session also when the client session has ended, and `assertAlive` relies on the getter; so a server session
stays with an ended client session once one is read there, and `startTransaction` does not refuse it. As long
as no event reads the server session of an ended client session, every server session is in the pool once or
with one client session that has not ended.
-/
import MongoDriver.Sessions.InFlight
import MongoDriver.Base.Heap
import MongoDriver.Base.Run

namespace MongoDriver.Sessions

open Operations (AbstractOperation Outcome Prog)

/-! ## One client session among others -/

namespace SessionState

/-- The server sessions of the pool and of one client session, where `other` tells which ones are with
other client sessions. -/
structure Owned (other : Nat → Prop) (s : SessionState) : Prop where
  nodup : s.pool.sessions.Nodup
  pooled : ∀ r ∈ s.pool.sessions, r < s.pool.created.length ∧ ¬ other r
  held : ∀ r, s.session.serverSession = some r → r < s.pool.created.length ∧ r ∉ s.pool.sessions ∧ ¬ other r
  others : ∀ r, other r → r < s.pool.created.length

/-- A client session that has ended has no server session. -/
def Live (s : SessionState) : Prop := s.session.hasEnded = true → s.session.serverSession = none

/-- A change that keeps the first, whatever the other client sessions have, and the second under the
condition `b`: the server session of a client session that has ended is not read. -/
structure Keeps (b : Prop) (s s' : SessionState) : Prop where
  owned : ∀ other, Owned other s → Owned other s'
  live : b → Live s → Live s'

variable {b : Prop} {env : Env} {s s' s'' : SessionState}

theorem Keeps.refl (s : SessionState) : Keeps b s s := ⟨fun _ h => h, fun _ h => h⟩

theorem Keeps.trans (h : Keeps b s s') (h' : Keeps b s' s'') : Keeps b s s'' :=
  ⟨fun other ho => h'.owned other (h.owned other ho), fun hb hl => h'.live hb (h.live hb hl)⟩

/-- Only other fields of the client session change. -/
theorem Keeps.of_session (hpool : s'.pool = s.pool) (hheld : s'.session.serverSession = s.session.serverSession)
    (hended : s'.session.hasEnded = s.session.hasEnded) : Keeps b s s' := by
  refine ⟨fun other h => ⟨?_, ?_, ?_, ?_⟩, fun _ h => ?_⟩
  · rw [hpool]; exact h.nodup
  · rw [hpool]; exact h.pooled
  · rw [hpool, hheld]; exact h.held
  · rw [hpool]; exact h.others
  · unfold Live at *
    rw [hended, hheld]; exact h

theorem keeps_setTransaction (s : SessionState) (t : Transaction) : Keeps b s (s.setTransaction t) :=
  .of_session rfl rfl rfl

theorem keeps_modify (s : SessionState) (ref : Nat) (f : ServerSession → ServerSession) :
    Keeps b s { s with pool := s.pool.modify ref f } := by
  have hlen : (s.pool.modify ref f).created.length = s.pool.created.length := List.length_modify ..
  refine ⟨fun other h => ⟨h.nodup, ?_, ?_, ?_⟩, fun _ h => h⟩
  · rw [hlen]; exact h.pooled
  · rw [hlen]; exact h.held
  · rw [hlen]; exact h.others

/-! ## The getter -/

@[simp] theorem getServerSession_hasEnded (env : Env) (s : SessionState) :
    (s.getServerSession env).1.session.hasEnded = s.session.hasEnded := by
  unfold getServerSession; split <;> rfl

theorem getServerSession_serverSession (env : Env) (s : SessionState) :
    (s.getServerSession env).1.session.serverSession = some (s.getServerSession env).2 := by
  unfold getServerSession
  split
  · rename_i ref h; exact h
  · rfl

/-- The server session a client session takes is nobody else's. -/
theorem Owned.getServerSession {other : Nat → Prop} (h : Owned other s) (env : Env) :
    Owned other (s.getServerSession env).1 := by
  unfold SessionState.getServerSession
  split
  · exact h
  · rcases s.pool.acquire_cases env with ⟨hcreated, hsuffix⟩ | ⟨hpool, href⟩
    · have hsub := hsuffix.subset
      have hnodup := h.nodup.sublist hsuffix.sublist
      refine ⟨(List.nodup_cons.1 hnodup).2, ?_, ?_, ?_⟩
      · intro r hr
        show r < (s.pool.acquire env).1.created.length ∧ _
        rw [hcreated]
        exact h.pooled r (hsub (List.mem_cons_of_mem _ hr))
      · rintro r hr
        obtain rfl := Option.some.inj hr
        obtain ⟨hlt, hother⟩ := h.pooled _ (hsub (List.mem_cons_self ..))
        refine ⟨?_, (List.nodup_cons.1 hnodup).1, hother⟩
        show _ < (s.pool.acquire env).1.created.length
        rw [hcreated]; exact hlt
      · intro r hr
        show r < (s.pool.acquire env).1.created.length
        rw [hcreated]; exact h.others r hr
    · have hlen : (s.pool.acquire env).1.created.length = s.pool.created.length + 1 := by rw [hpool]; simp
      have hsessions : (s.pool.acquire env).1.sessions = [] := by rw [hpool]
      refine ⟨?_, ?_, ?_, ?_⟩
      · show (s.pool.acquire env).1.sessions.Nodup
        rw [hsessions]; exact List.nodup_nil
      · intro r hr
        rw [hsessions] at hr
        cases hr
      · rintro r hr
        obtain rfl := Option.some.inj hr
        refine ⟨?_, ?_, ?_⟩
        · show _ < (s.pool.acquire env).1.created.length
          rw [hlen, href]; omega
        · show _ ∉ (s.pool.acquire env).1.sessions
          rw [hsessions]; exact List.not_mem_nil
        · rw [href]
          intro ho
          exact absurd (h.others _ ho) (by omega)
      · intro r hr
        show r < (s.pool.acquire env).1.created.length
        have := h.others r hr
        omega

/-- Reading the server session. -/
theorem keeps_getServerSession (env : Env) (h : b → s.session.hasEnded = false) :
    Keeps b s (s.getServerSession env).1 := by
  refine ⟨fun other h => h.getServerSession env, fun hb _ hended => ?_⟩
  rw [getServerSession_hasEnded, h hb] at hended
  cases hended

theorem keeps_modifyServerSession (h : b → s.session.hasEnded = false) (f : ServerSession → ServerSession) :
    Keeps b s (s.modifyServerSession env f) :=
  (keeps_getServerSession env h).trans (keeps_modify ..)

/-- The server session goes back to the pool or is dropped. -/
theorem keeps_completeEndSession (env : Env) (s : SessionState) : Keeps b s (s.completeEndSession env) := by
  refine ⟨fun other h => ?_, fun _ _ _ => rfl⟩
  have hg := h.getServerSession env
  obtain ⟨hlt, hnot, hother⟩ := hg.held _ (getServerSession_serverSession env s)
  obtain ⟨hcreated, hsub⟩ :=
    (s.getServerSession env).1.pool.release_spec env (s.getServerSession env).2
  refine ⟨?_, ?_, ?_, ?_⟩
  · exact (List.nodup_cons.2 ⟨hnot, hg.nodup⟩).sublist hsub
  · intro r hr
    show r < ((s.getServerSession env).1.pool.release env (s.getServerSession env).2).created.length ∧ _
    rw [hcreated]
    rcases List.mem_cons.1 (hsub.subset hr) with rfl | hr
    · exact ⟨hlt, hother⟩
    · exact hg.pooled r hr
  · intro r hr
    cases hr
  · intro r hr
    show r < ((s.getServerSession env).1.pool.release env (s.getServerSession env).2).created.length
    rw [hcreated]
    exact hg.others r hr

/-! ## The other functions -/

theorem keeps_markDirty (env : Env) (s : SessionState) : Keeps b s (s.markDirty env) := by
  unfold markDirty
  split
  · exact .refl s
  · rename_i h
    exact keeps_modifyServerSession (fun _ => by simpa using h) _

theorem keeps_updateSessionFromResponse (s : SessionState) (reply : ReplyTimes) :
    Keeps b s (s.updateSessionFromResponse reply) :=
  .of_session rfl rfl rfl

theorem applyTransaction_fst (s : SessionState) (command : Command) :
    ∃ t, (s.applyTransaction command).1 = s.setTransaction t := by
  unfold applyTransaction
  simp only
  split
  · split
    · exact ⟨s.session.transaction, rfl⟩
    · exact ⟨_, rfl⟩
  · exact ⟨s.session.transaction, rfl⟩

theorem leaveTransaction_fst (s : SessionState) (command : Command) :
    ∃ t, (s.leaveTransaction command).1 = s.setTransaction t := by
  unfold leaveTransaction
  simp only
  split
  · exact ⟨s.session.transaction, rfl⟩
  · split
    · exact ⟨s.session.transaction, rfl⟩
    · exact ⟨_, rfl⟩

/-- `applySession` does not touch a session that has ended; otherwise it reads the server session, and may
note its use and move the transaction on. -/
theorem applySession_fst (env : Env) (s : SessionState) (command : Command) (options : CommandOptions) :
    (s.session.hasEnded = true ∧ (s.applySession env command options).1 = s) ∨ (s.session.hasEnded = false ∧
      ((s.applySession env command options).1 = (s.getServerSession env).1 ∨
        ∃ t, (s.applySession env command options).1 =
          (s.modifyServerSession env fun x => { x with lastUse := env.now }).setTransaction t)) := by
  unfold applySession
  split
  · rename_i h
    exact .inl ⟨h, rfl⟩
  · rename_i h
    refine .inr ⟨by simpa using h, ?_⟩
    simp only
    split
    · exact .inl rfl
    · right
      split
      · exact applyTransaction_fst ..
      · exact leaveTransaction_fst ..

theorem keeps_applySession (env : Env) (s : SessionState) (command : Command) (options : CommandOptions) :
    Keeps b s (s.applySession env command options).1 := by
  rcases applySession_fst env s command options with ⟨-, h⟩ | ⟨hlive, h | ⟨t, h⟩⟩
  · rw [h]; exact .refl s
  · rw [h]; exact keeps_getServerSession env fun _ => hlive
  · rw [h]; exact (keeps_modifyServerSession (fun _ => hlive) _).trans (keeps_setTransaction ..)

theorem applySession_hasEnded (env : Env) (s : SessionState) (command : Command) (options : CommandOptions) :
    (s.applySession env command options).1.session.hasEnded = s.session.hasEnded := by
  rcases applySession_fst env s command options with ⟨-, h⟩ | ⟨-, h | ⟨t, h⟩⟩
  · rw [h]
  · rw [h, getServerSession_hasEnded]
  · rw [h]; exact getServerSession_hasEnded env s

theorem applySession_live {command command' : Command} {options : CommandOptions}
    (h : s.applySession env command options = (s', .ok command')) : s.session.hasEnded = false := by
  unfold applySession at h
  split at h
  · cases h
  · rename_i hended
    simpa using hended

theorem keeps_startTransaction (env : Env) (h : b → s.session.hasEnded = false) (deployment : Deployment)
    (options : TransactionOptions) : Keeps b s (s.startTransaction env deployment options).1 := by
  have hg : Keeps b s (s.assertAlive env) := keeps_getServerSession env h
  have hlive : b → (s.assertAlive env).session.hasEnded = false :=
    fun hb => (getServerSession_hasEnded env s).trans (h hb)
  have hi : Keeps b s ((s.assertAlive env).incrementTransactionNumber env) :=
    hg.trans (keeps_modifyServerSession hlive _)
  unfold startTransaction
  split
  · exact .refl s
  · simp only
    split
    · exact hg
    · split
      · exact hg
      · split
        · exact hi
        · exact hi.trans (keeps_setTransaction ..)

theorem keeps_settle (s : SessionState) (nextState : TxnState) : Keeps b s (s.settle nextState).1 := by
  unfold settle
  split
  · exact keeps_setTransaction s _
  · exact .refl s

theorem keeps_endTransaction (env : Env) (h : b → s.session.hasEnded = false) (name : EndTransactionName) :
    Keeps b s (s.endTransaction env name).1 := by
  have hg : Keeps b s (s.assertAlive env) := keeps_getServerSession env h
  unfold endTransaction
  simp only
  split <;> first | exact hg | exact hg.trans (keeps_settle ..)

theorem keeps_commandHandler {name : EndTransactionName} (h : s.commandHandler name = .ok s') : Keeps b s s' := by
  unfold commandHandler at h
  simp only at h
  split at h
  · cases h; exact keeps_setTransaction s _
  · cases h

end SessionState

/-! ## All client sessions -/

/-- The client sessions, without what is remembered about them. -/
def World.sessions (w : World) : List ClientSession := w.clients.map (·.session)

/-- Every server session is in the pool once or with one client session, no client session that has ended
has one, and `startTransaction` refused every session that had ended. -/
structure Exclusive (w : World) : Prop where
  once : w.pool.sessions.Nodup
  apart : ∀ (c : Nat) (x : ClientSession) (r : Nat), w.sessions[c]? = some x → x.serverSession = some r →
    r ∉ w.pool.sessions
  one : ∀ (c d : Nat) (x y : ClientSession) (r : Nat), w.sessions[c]? = some x → w.sessions[d]? = some y →
    x.serverSession = some r → y.serverSession = some r → c = d
  live : ∀ (c : Nat) (x : ClientSession), w.sessions[c]? = some x → x.hasEnded = true → x.serverSession = none
  refused : ∀ call ∈ w.starts, call.hasEnded = true → call.result = .error expiredSession

namespace World

/-- The invariant, with no position of a server session dangling. What concerns client sessions that have
ended is subject to `b`. -/
structure Accounted (b : Prop) (w : World) : Prop where
  once : w.pool.sessions.Nodup
  apart : ∀ (c : Nat) (x : ClientSession) (r : Nat), w.sessions[c]? = some x → x.serverSession = some r →
    r ∉ w.pool.sessions
  one : ∀ (c d : Nat) (x y : ClientSession) (r : Nat), w.sessions[c]? = some x → w.sessions[d]? = some y →
    x.serverSession = some r → y.serverSession = some r → c = d
  live : b → ∀ (c : Nat) (x : ClientSession), w.sessions[c]? = some x → x.hasEnded = true → x.serverSession = none
  refused : b → ∀ call ∈ w.starts, call.hasEnded = true → call.result = .error expiredSession
  pooled : ∀ r ∈ w.pool.sessions, r < w.pool.created.length
  held : ∀ (c : Nat) (x : ClientSession) (r : Nat), w.sessions[c]? = some x → x.serverSession = some r →
    r < w.pool.created.length

/-- The server sessions of the client sessions other than `c`. -/
def others (w : World) (c r : Nat) : Prop := ∃ d y, d ≠ c ∧ w.sessions[d]? = some y ∧ y.serverSession = some r

variable {b : Prop} {env : Surroundings} {w w' : World} {c i : Nat} {s s' : SessionState} {f : Flight}

theorem sessions_put (w : World) (c : Nat) (s : SessionState) : (w.put c s).sessions = w.sessions.set c s.session := by
  unfold sessions put
  rw [List.ext_getElem?_iff]
  intro d
  simp only [List.getElem?_map, List.getElem?_modify, List.getElem?_set, List.length_map]
  by_cases h : c = d
  · subst h
    cases hc : w.clients[c]? with
    | none => simp [List.getElem?_eq_none_iff.1 hc]
    | some x => simp [(List.getElem?_eq_some_iff.1 hc).1]
  · simp [h]

theorem sessions_mark (w : World) (c : Nat) (f : Option Started → Option Started) :
    (w.mark c f).sessions = w.sessions := by
  unfold sessions mark
  rw [List.ext_getElem?_iff]
  intro d
  simp only [List.getElem?_map, List.getElem?_modify]
  split
  · rename_i h
    cases w.clients[d]? <;> rfl
  · simp

theorem stateOf_eq : w.stateOf c = some s ↔ s.pool = w.pool ∧ w.sessions[c]? = some s.session := by
  unfold stateOf sessions
  rw [List.getElem?_map]
  cases w.clients[c]? with
  | none => simp
  | some x =>
    simp only [Option.map_some, Option.some.injEq]
    constructor
    · rintro rfl; exact ⟨rfl, rfl⟩
    · rintro ⟨hp, hx⟩
      cases s
      cases hp; cases hx
      rfl

/-- Only what is remembered beside pool and client sessions differs. -/
theorem Accounted.of_eq (h : Accounted b w) (hpool : w'.pool = w.pool) (hsessions : w'.sessions = w.sessions)
    (hstarts : w'.starts = w.starts) : Accounted b w' := by
  refine ⟨?_, ?_, ?_, ?_, ?_, ?_, ?_⟩
  · rw [hpool]; exact h.once
  · rw [hpool, hsessions]; exact h.apart
  · rw [hsessions]; exact h.one
  · rw [hsessions]; exact h.live
  · rw [hstarts]; exact h.refused
  · rw [hpool]; exact h.pooled
  · rw [hpool, hsessions]; exact h.held

/-- The view of one client session. -/
theorem Accounted.owned (h : Accounted b w) (hs : w.stateOf c = some s) : s.Owned (w.others c) := by
  obtain ⟨hpool, hc⟩ := stateOf_eq.1 hs
  refine ⟨?_, ?_, ?_, ?_⟩
  · rw [hpool]; exact h.once
  · rw [hpool]
    intro r hr
    refine ⟨h.pooled r hr, ?_⟩
    rintro ⟨d, y, -, hd, hy⟩
    exact h.apart d y r hd hy hr
  · rw [hpool]
    intro r hr
    refine ⟨h.held c _ r hc hr, h.apart c _ r hc hr, ?_⟩
    rintro ⟨d, y, hne, hd, hy⟩
    exact hne (h.one d c y _ r hd hc hy hr)
  · rw [hpool]
    rintro r ⟨d, y, -, hd, hy⟩
    exact h.held d y r hd hy

/-- A change of one client session that keeps its own view keeps the invariant. -/
theorem Accounted.put (h : Accounted b w) (hs : w.stateOf c = some s) (hk : s.Keeps b s') :
    Accounted b (w.put c s') := by
  obtain ⟨hpool, hc⟩ := stateOf_eq.1 hs
  have ho := hk.owned _ (h.owned hs)
  have hlive := fun hb => hk.live hb fun hended => h.live hb c _ hc hended
  have hat : ∀ d y, (w.put c s').sessions[d]? = some y →
      (d = c ∧ y = s'.session) ∨ (d ≠ c ∧ w.sessions[d]? = some y) := by
    intro d y hd
    rw [sessions_put] at hd
    exact Heap.get_set_cases hd
  refine ⟨ho.nodup, ?_, ?_, ?_, h.refused, fun r hr => (ho.pooled r hr).1, ?_⟩
  · intro d y r hd hy
    rcases hat d y hd with ⟨-, rfl⟩ | ⟨hne, hd⟩
    · exact (ho.held r hy).2.1
    · intro hr
      exact (ho.pooled r hr).2 ⟨d, y, hne, hd, hy⟩
  · intro d e y z r hd he hy hz
    rcases hat d y hd with ⟨hdc, rfl⟩ | ⟨hdc, hd'⟩
    · rcases hat e z he with ⟨hec, -⟩ | ⟨hec, he'⟩
      · rw [hdc, hec]
      · exact absurd ⟨e, z, hec, he', hz⟩ (ho.held r hy).2.2
    · rcases hat e z he with ⟨-, rfl⟩ | ⟨hec, he'⟩
      · exact absurd ⟨d, y, hdc, hd', hy⟩ (ho.held r hz).2.2
      · exact h.one d e y z r hd' he' hy hz
  · intro hb d y hd hended
    rcases hat d y hd with ⟨-, rfl⟩ | ⟨-, hd⟩
    · exact hlive hb hended
    · exact h.live hb d y hd hended
  · intro d y r hd hy
    rcases hat d y hd with ⟨-, rfl⟩ | ⟨hne, hd⟩
    · exact (ho.held r hy).1
    · exact ho.others r ⟨d, y, hne, hd, hy⟩

/-! ## Flights -/

theorem Accounted.mark (h : Accounted b w) (c : Nat) (g : Option Started → Option Started) : Accounted b (w.mark c g) :=
  h.of_eq rfl (sessions_mark w c g) rfl

theorem Accounted.land (h : Accounted b w) (i : Nat) (f : Flight) : Accounted b (w.land i f) := h.of_eq rfl rfl rfl

theorem Accounted.finish (h : Accounted b w) (i : Nat) (f : Flight) : Accounted b (w.finish env i f) := by
  unfold World.finish
  split
  · rename_i name _ _ endSession s _ hs
    split
    · exact h.land i f
    · rename_i s' hc
      have hk : s.Keeps b s' := SessionState.keeps_commandHandler hc
      refine Accounted.land (h.put hs ?_) i f
      split
      · exact hk.trans (SessionState.keeps_completeEndSession ..)
      · exact hk
  · exact h.land i f

/-- A flight goes on; it may make its write retryable, for which it reads the server session. -/
theorem Accounted.resumeWith {callback : World → Flight → Outcome Unit → World} (h : Accounted b w)
    (hcallback : ∀ {w} f o, Accounted b w → Accounted b (callback w f o)) {p : Prog Unit}
    (hlive : b → ∀ s, w.stateOf f.client = some s → (advance (env.view s.session) p).1 = true →
      s.session.hasEnded = false) : Accounted b (w.resumeWith env callback i f p) := by
  unfold World.resumeWith
  split
  · exact h
  · rename_i s hs
    simp only
    have hw : Accounted b (if (advance (env.view s.session) p).1 = true
        then w.put f.client (s.incrementTransactionNumber env.toEnv) else w) := by
      split
      · rename_i hread
        exact h.put hs (SessionState.keeps_modifyServerSession (fun hb => hlive hb s hs hread) _)
      · exact h
    split
    · exact hcallback _ _ hw
    · exact hw.of_eq rfl rfl rfl

/-- `executeOperation` reads nothing of a session that has ended. -/
theorem executeOperation_live {s : ClientSession} {op : AbstractOperation}
    (h : (advance (env.view s) (executeOperation env s op)).1 = true) : s.hasEnded = false := by
  unfold executeOperation at h
  split at h
  · cases h
  · split at h
    · cases h
    · rename_i hended
      simpa using hended

theorem Accounted.enterWith {callback : World → Flight → Outcome Unit → World} (h : Accounted b w)
    (hcallback : ∀ {w} f o, Accounted b w → Accounted b (callback w f o)) (i : Nat) (f : Flight)
      (op : AbstractOperation) :
    Accounted b (w.enterWith env callback i f op) := by
  unfold World.enterWith
  split
  · exact h
  · rename_i s hs
    split
    · exact h.of_eq rfl rfl rfl
    · refine h.resumeWith hcallback fun _ s' hs' hread => ?_
      obtain rfl : s = s' := Option.some.inj (hs.symm.trans hs')
      exact executeOperation_live hread

theorem Accounted.complete (h : Accounted b w) (i : Nat) (f : Flight) (o : Outcome Unit) :
    Accounted b (w.complete env i f o) := by
  unfold World.complete
  split
  · split
    · exact h.enterWith (fun _ _ hw => hw.finish ..) ..
    · exact h.finish ..
  · exact h.finish ..

theorem Accounted.launch (h : Accounted b w) (f : Flight) (op : AbstractOperation) :
    Accounted b (w.launch env f op) := by
  have hw : Accounted b { w with flights := w.flights ++ [f] } := h.of_eq rfl rfl rfl
  exact hw.enterWith (fun _ _ hw => hw.complete ..) ..

/-! ## Commands and calls -/

/-- A command is written: the pause manager reads the session's id. -/
theorem Accounted.write (h : Accounted b w) (hs : w.stateOf f.client = some s) (hk : s.Keeps b s')
    (hlive : b → s'.session.hasEnded = false) (command : Command) (conn : Connection) :
    Accounted b (w.write env i f s' command conn) := by
  have hput := h.put hs (hk.trans (SessionState.keeps_getServerSession env.toEnv hlive))
  unfold World.write
  simp only
  split
  · exact hput.of_eq rfl rfl rfl
  · exact hput

theorem Accounted.command (h : Accounted b w) (hs : w.stateOf f.client = some s) (command : Command) (conn : Connection)
    (hlive : b → conn.hasSessionSupport = false → s.session.hasEnded = false) :
    Accounted b (w.command env i f s command conn) := by
  unfold World.command
  split
  · have hk : s.Keeps b _ := SessionState.keeps_applySession env.toEnv s command f.options
    split
    · rename_i s' _ heq
      rw [heq] at hk
      exact h.put hs hk
    · rename_i s' _ heq
      have hended := SessionState.applySession_hasEnded env.toEnv s command f.options
      rw [heq] at hk hended
      exact h.write hs hk (fun _ => hended.trans (SessionState.applySession_live heq)) ..
  · rename_i hsupport
    exact h.write hs (.refl s) (fun hb => hlive hb (by simpa using hsupport)) ..

theorem stateOf_client {x : Client} (h : w.clients[c]? = some x) : w.stateOf c = some ⟨w.pool, x.session⟩ := by
  unfold stateOf
  rw [h]
  rfl

theorem Accounted.endTransaction {x : Client} (h : Accounted b w) (hx : w.clients[c]? = some x)
    (hlive : b → x.session.hasEnded = false) (name : EndTransactionName) (endSession : Bool) :
    Accounted b (w.endTransaction env c x name endSession) := by
  have hk := SessionState.keeps_endTransaction (s := ⟨w.pool, x.session⟩) env.toEnv hlive name
  have hs := stateOf_client hx
  unfold World.endTransaction
  split
  · rename_i heq
    rw [heq] at hk
    exact h.put hs hk
  · rename_i heq
    rw [heq] at hk
    have hmark : (w.mark c (·.map ({ · with closed := true }))).stateOf c = some ⟨w.pool, x.session⟩ := by
      rw [stateOf_eq, sessions_mark]
      exact stateOf_eq.1 hs
    refine (h.mark c _).put hmark ?_
    split
    · exact hk.trans (SessionState.keeps_completeEndSession ..)
    · exact hk
  · rename_i heq
    rw [heq] at hk
    exact ((h.put hs hk).mark c _).launch ..

theorem Accounted.endSession {x : Client} (h : Accounted b w) (hx : w.clients[c]? = some x) :
    Accounted b (w.endSession env c x) := by
  unfold World.endSession
  split
  · exact h
  · rename_i hended
    split
    · exact h.endTransaction hx (fun _ => by simpa using hended) ..
    · exact h.put (stateOf_client hx) (SessionState.keeps_completeEndSession ..)

theorem Accounted.beginTxn (h : Accounted b w) (c txnNumber : Nat) : Accounted b (w.beginTxn c txnNumber) :=
  h.of_eq rfl (sessions_mark w c fun _ => some { txn := w.txns, txnNumber }) rfl

/-- A call of `startTransaction` on a session that lives. -/
theorem Accounted.startTransaction {x : Client} (h : Accounted b w) (hx : w.clients[c]? = some x)
    (hlive : b → x.session.hasEnded = false) (options : TransactionOptions) :
    Accounted b (w.startTransaction env c x options) := by
  have hput := h.put (stateOf_client hx)
    (SessionState.keeps_startTransaction (s := ⟨w.pool, x.session⟩) env.toEnv hlive env.deployment options)
  have hstarts : ∀ result, Accounted b { w.put c (SessionState.startTransaction env.toEnv ⟨w.pool, x.session⟩
      env.deployment options).1 with starts := w.starts ++ [⟨x.session.hasEnded, result⟩] } := by
    intro result
    refine ⟨hput.once, hput.apart, hput.one, hput.live, ?_, hput.pooled, hput.held⟩
    intro hb call hcall hended
    rcases List.mem_append.1 hcall with hold | hnew
    · exact h.refused hb call hold hended
    · obtain rfl := List.mem_singleton.1 hnew
      rw [hlive hb] at hended
      cases hended
  unfold World.startTransaction
  simp only
  split
  · exact hstarts _
  · exact (hstarts _).beginTxn ..

theorem Accounted.startSession (h : Accounted b w) {session : ClientSession} (hnone : session.serverSession = none)
    (hlive : session.hasEnded = false) : Accounted b { w with clients := w.clients ++ [{ session }] } := by
  have hat : ∀ (d : Nat) (y : ClientSession),
      ({ w with clients := w.clients ++ [{ session }] } : World).sessions[d]? = some y →
      w.sessions[d]? = some y ∨ y = session := by
    intro d y hd
    simp only [sessions, List.map_append, List.map_cons, List.map_nil] at hd
    rcases Heap.get_alloc_cases hd with ⟨-, rfl⟩ | hd
    · exact .inr rfl
    · exact .inl hd
  refine ⟨h.once, ?_, ?_, ?_, h.refused, h.pooled, ?_⟩
  · intro d y r hd hy
    rcases hat d y hd with hd' | rfl
    · exact h.apart d y r hd' hy
    · rw [hnone] at hy; cases hy
  · intro d e y z r hd he hy hz
    rcases hat d y hd with hd' | rfl
    · rcases hat e z he with he' | rfl
      · exact h.one d e y z r hd' he' hy hz
      · rw [hnone] at hz; cases hz
    · rw [hnone] at hy; cases hy
  · intro hb d y hd hended
    rcases hat d y hd with hd' | rfl
    · exact h.live hb d y hd' hended
    · exact hnone
  · intro d y r hd hy
    rcases hat d y hd with hd' | rfl
    · exact h.held d y r hd' hy
    · rw [hnone] at hy; cases hy

end World

theorem ClientSession.new_fresh {options : ClientSessionOptions} {clientOptions : TransactionOptions}
    {session : ClientSession} (h : ClientSession.new options clientOptions = .ok session) :
    session.serverSession = none ∧ session.hasEnded = false ∧ session.transaction = {} := by
  unfold ClientSession.new at h
  split at h
  · cases h
  · cases h; exact ⟨rfl, rfl, rfl⟩

/-! ## Runs -/

/-- The event reads the server session of the client session `c` without looking whether it has ended: a
caller or `equals` reads it, or `assertAlive` does; a retryable write increments its number; the pause
manager reads the id for a command on a connection without session support. -/
inductive Reads (w : World) (e : Event) : Nat → Prop
  | read {c} (h : e.action = .read c) : Reads w e c
  | left {c d} (h : e.action = .equals c d) : Reads w e c
  | right {c d} (h : e.action = .equals c d) : Reads w e d
  | startTransaction {c options} (h : e.action = .startTransaction c options) : Reads w e c
  | endTransaction {c name} (h : e.action = .endTransaction c name) : Reads w e c
  | selected {i result f selector next x} (h : e.action = .selected i result) (hf : w.flights[i]? = some f)
      (hstage : f.stage = .running (.selectServer selector next)) (hx : w.clients[f.client]? = some x)
      (hwrite : (advance (e.env.view x.session) (next result)).1 = true) : Reads w e f.client
  | outcome {i o f server next x} (h : e.action = .outcome i o) (hf : w.flights[i]? = some f)
      (hstage : f.stage = .running (.execute server next)) (hx : w.clients[f.client]? = some x)
      (hwrite : (advance (e.env.view x.session) (next o)).1 = true) : Reads w e f.client
  | unsupported {i command conn f} (h : e.action = .command i command conn) (hf : w.flights[i]? = some f)
      (hconn : conn.hasSessionSupport = false) : Reads w e f.client

/-- No client session whose server session the event reads has ended. -/
def ReadsLive (w : World) (e : Event) : Prop :=
  ∀ c x, Reads w e c → w.sessions[c]? = some x → x.hasEnded = false

theorem ReadsLive.state {w : World} {e : Event} {c : Nat} {s : SessionState} (h : ReadsLive w e) (hr : Reads w e c)
    (hs : w.stateOf c = some s) : s.session.hasEnded = false :=
  h c _ hr (World.stateOf_eq.1 hs).2

/-- One event. -/
theorem step_accounted {b : Prop} {w w' : World} {e : Event} (h : w.Accounted b) (hlive : b → ReadsLive w e)
    (hstep : w.step e = some w') : w'.Accounted b := by
  cases World.step_steps hstep with
  | refused => exact h
  | startSession hnew =>
    obtain ⟨hnone, hended, -⟩ := ClientSession.new_fresh hnew
    exact h.startSession hnone hended
  | read hs => exact h.put hs (SessionState.keeps_getServerSession _ fun hb => (hlive hb).state (.read rfl) hs)
  | @equals env c d s s' hs hs' =>
    have hended := fun hb => (hlive hb).state (.left rfl) hs
    refine (h.put hs (SessionState.keeps_getServerSession env.toEnv hended)).put hs'
      (SessionState.keeps_getServerSession env.toEnv ?_)
    intro hb
    have hd := (World.stateOf_eq.1 hs').2
    rw [World.sessions_put] at hd
    rcases Heap.get_set_cases hd with ⟨-, hd⟩ | ⟨-, hd⟩
    · rw [hd, SessionState.getServerSession_hasEnded]
      exact hended hb
    · exact hlive hb d _ (.right rfl) hd
  | startTransaction hx =>
    exact h.startTransaction hx (fun hb => (hlive hb).state (.startTransaction rfl) (World.stateOf_client hx)) ..
  | endTransaction hx =>
    exact h.endTransaction hx (fun hb => (hlive hb).state (.endTransaction rfl) (World.stateOf_client hx)) ..
  | endSession hx => exact h.endSession hx
  | executeOperation => exact h.launch ..
  | unchecked => exact h.complete ..
  | checked hf hs =>
    refine h.resumeWith (fun _ _ hw => hw.complete ..) fun _ s' hs' hread => ?_
    obtain rfl := Option.some.inj (hs.symm.trans hs')
    exact World.executeOperation_live hread
  | selected hf hstage =>
    refine h.resumeWith (fun _ _ hw => hw.complete ..) fun hb s hs hread => ?_
    obtain ⟨x, hx, rfl⟩ := Option.map_eq_some_iff.1 hs
    exact (hlive hb).state (.selected rfl hf hstage hx hread) hs
  | command hf hs =>
    exact h.command hs _ _ fun hb hconn => (hlive hb).state (.unsupported rfl hf hconn) hs
  | outcome hf hstage =>
    refine h.resumeWith (fun _ _ hw => hw.complete ..) fun hb s hs hread => ?_
    obtain ⟨x, hx, rfl⟩ := Option.map_eq_some_iff.1 hs
    exact (hlive hb).state (.outcome rfl hf hstage hx hread) hs
  | networkError hs => exact h.put hs (SessionState.keeps_markDirty ..)
  | response hs => exact h.put hs (SessionState.keeps_updateSessionFromResponse ..)
  | endAllPooledSessions =>
    refine ⟨List.nodup_nil, ?_, h.one, h.live, h.refused, ?_, h.held⟩
    · intro _ _ _ _ _
      exact List.not_mem_nil
    · intro r hr
      cases hr

theorem accounted_init (b : Prop) : ({} : World).Accounted b := by
  refine ⟨List.nodup_nil, ?_, ?_, ?_, ?_, ?_, ?_⟩
  all_goals simp [World.sessions]

/-- For every run whose events read the server session of no client session that has ended: in every state
reached, every server session is in the pool once or with one client session that has not ended, and
`startTransaction` refused the sessions that had. -/
theorem server_sessions_exclusive {es : List Event} {w : World} (hlive : Run.Meets World.step ReadsLive {} es)
    (hrun : Run.exec World.step {} es = some w) : Exclusive w := by
  have hw : w.Accounted True := by
    refine Run.exec_inv_meets World.step (fun s e t hs hc ht => ?_) (accounted_init True) hlive hrun
    exact step_accounted hs (fun _ => hc) ht
  exact ⟨hw.once, hw.apart, hw.one, hw.live trivial, hw.refused trivial⟩

/-! ## Sessions that end -/

section Runs

private def call (action : Action) : Event := { action }

theorem readsLive_of_live {w : World} (h : ∀ x ∈ w.sessions, x.hasEnded = false) (e : Event) : ReadsLive w e :=
  fun _ x _ hx => h x (List.mem_of_getElem? hx)

/-- Of two sessions one ends, and the other takes over its server session. -/
private def takenOver : List Event :=
  [call (.startSession {} {}), call (.startSession {} {}), call (.read 0), call (.endSession 0), call (.read 1)]

theorem takenOver_readsLive : Run.Meets World.step ReadsLive {} takenOver := by
  -- until the first session ends every event is in order
  refine .cons (readsLive_of_live (by decide) _) rfl ?_
  refine .cons (readsLive_of_live (by decide) _) rfl ?_
  refine .cons (readsLive_of_live (by decide) _) rfl ?_
  refine .cons (readsLive_of_live (by decide) _) rfl ?_
  refine ⟨fun c x hr hx => ?_, fun _ _ => trivial⟩
  cases hr with
  | read h => cases h; cases hx; rfl
  | left h | right h | startTransaction h | endTransaction h => cases h
  | selected h _ _ _ _ | outcome h _ _ _ _ | unsupported h _ _ => cases h

theorem server_session_taken_over : ∃ w, Run.exec World.step {} takenOver = some w ∧ Exclusive w ∧
    w.sessions.map (·.serverSession) = [none, some 0] :=
  ⟨_, rfl, server_sessions_exclusive takenOver_readsLive rfl, rfl⟩

/-- `startTransaction` on a session that has ended takes a server session and starts a transaction. -/
theorem ended_session_starts : ∃ w, Run.exec World.step {}
      [call (.startSession {} {}), call (.endSession 0), call (.startTransaction 0 {})] = some w ∧
    w.sessions.map (fun x => (x.hasEnded, x.serverSession, x.transaction.state)) =
      [(true, some 0, .startingTransaction)] ∧ ¬ Exclusive w := by
  refine ⟨_, rfl, rfl, fun h => ?_⟩
  cases h.live 0 _ rfl rfl

end Runs

end MongoDriver.Sessions
