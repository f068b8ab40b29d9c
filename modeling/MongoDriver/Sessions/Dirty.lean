/-
Server sessions that a network error has marked as dirty. `release` looks at the mark when the topology tells a
session timeout; behind a load balancer that tells none it puts the session back without looking. A session is
marked only while a client session that has not ended has it, so it is not in the pool then: the pool stays free of
dirty sessions as long as no client session with one is ended in that situation.
-/
import MongoDriver.Sessions.Exclusive

namespace MongoDriver.Sessions

open Operations (AbstractOperation Outcome Prog)

/-- Behind a load balancer without a session timeout `release` does not look at the session. -/
def Env.releasesUnchecked (env : Env) : Bool :=
  env.loadBalanced && (env.logicalSessionTimeoutMinutes = none || env.logicalSessionTimeoutMinutes = some 0)

namespace ServerSessionPool

/-- The session is marked. -/
def Dirty (pool : ServerSessionPool) (ref : Nat) : Prop := pool.created[ref]?.any (·.isDirty) = true

/-- No session in the pool is marked. -/
def Clean (pool : ServerSessionPool) : Prop := ∀ ref ∈ pool.sessions, ¬ pool.Dirty ref

variable {env : Env} {pool pool' : ServerSessionPool} {ref : Nat}

theorem Dirty.congr (h : pool'.created = pool.created) : pool'.Dirty ref ↔ pool.Dirty ref := by
  unfold Dirty
  rw [h]

/-! ## What the operations do to the marks -/

theorem acquire_dirty : (pool.acquire env).1.Dirty ref ↔ pool.Dirty ref := by
  rcases pool.acquire_cases env with ⟨hcreated, -⟩ | ⟨hpool, -⟩
  · exact Dirty.congr hcreated
  · rw [hpool]
    unfold Dirty
    simp only
    cases hget : (pool.created ++ [({ lastUse := env.now } : ServerSession)])[ref]? with
    | none =>
      have hlen := List.getElem?_eq_none_iff.1 hget
      rw [List.length_append] at hlen
      rw [List.getElem?_eq_none_iff.2 (by omega)]
    | some x =>
      rcases Heap.get_alloc_cases hget with ⟨rfl, rfl⟩ | hget
      · rw [List.getElem?_eq_none_iff.2 (le_refl _)]
        simp
      · rw [hget]

/-- From a clean pool a clean session is taken, and the rest is clean. -/
theorem Clean.acquire (h : pool.Clean) (env : Env) :
    (pool.acquire env).1.Clean ∧ ¬ (pool.acquire env).1.Dirty (pool.acquire env).2 := by
  rcases pool.acquire_cases env with ⟨-, hsuffix⟩ | ⟨hpool, href⟩
  · refine ⟨fun ref href hdirty => ?_, fun hdirty => ?_⟩
    · exact h ref (hsuffix.subset (List.mem_cons_of_mem _ href)) (acquire_dirty.1 hdirty)
    · exact h _ (hsuffix.subset (List.mem_cons_self ..)) (acquire_dirty.1 hdirty)
  · refine ⟨?_, fun hdirty => ?_⟩
    · rw [hpool]
      intro ref href
      cases href
    · have hnone : pool.created[(pool.acquire env).2]? = none :=
        List.getElem?_eq_none_iff.2 (by rw [href])
      have hdirty := acquire_dirty.1 hdirty
      unfold Dirty at hdirty
      rw [hnone] at hdirty
      cases hdirty

/-- A clean pool stays clean exactly when no dirty session is released unchecked. -/
theorem release_clean_iff (env : Env) (h : pool.Clean) :
    (pool.release env ref).Clean ↔ ¬ (env.releasesUnchecked = true ∧ pool.Dirty ref) := by
  have hunchecked : env.logicalSessionTimeoutMinutes = none ∨ env.logicalSessionTimeoutMinutes = some 0 →
      ((if env.loadBalanced then { pool with sessions := ref :: pool.sessions } else pool : ServerSessionPool).Clean ↔
        ¬ (env.releasesUnchecked = true ∧ pool.Dirty ref)) := by
    intro hnone
    have hiff : env.releasesUnchecked = env.loadBalanced := by
      unfold Env.releasesUnchecked
      rcases hnone with hnone | hnone <;> simp [hnone]
    rw [hiff]
    split
    · rename_i hlb
      rw [not_and, forall_prop_of_true hlb]
      exact List.forall_mem_cons.trans (and_iff_left h)
    · rename_i hlb
      exact iff_of_true h fun hand => hlb hand.1
  unfold release
  split
  · rename_i hnone
    exact hunchecked (.inl hnone)
  · rename_i hzero
    exact hunchecked (.inr hzero)
  · rename_i minutes hpos hsome
    have hchecked : env.releasesUnchecked = false := by
      have hne : minutes ≠ 0 := fun heq => hpos heq
      simp [Env.releasesUnchecked, hsome, hne]
    refine iff_of_true ?_ fun hand => Bool.false_ne_true (hchecked.symm.trans hand.1)
    have hrest : ∀ r ∈ pool.sessions.rdropWhile (pool.hasTimedOut env minutes), ¬ pool.Dirty r :=
      fun r hr => h r ((List.rdropWhile_prefix _ _).subset hr)
    simp only
    split
    · exact hrest
    · rename_i hkept
      simp only [Bool.or_eq_true, not_or] at hkept
      exact List.forall_mem_cons.2 ⟨hkept.2, hrest⟩

theorem modify_dirty {f : ServerSession → ServerSession} (hf : ∀ x, (f x).isDirty = x.isDirty) {r : Nat} :
    (pool.modify ref f).Dirty r ↔ pool.Dirty r := by
  unfold Dirty modify
  simp only [List.getElem?_modify]
  split
  · cases pool.created[r]? with
    | none => exact Iff.rfl
    | some x => simp [hf]
  · cases pool.created[r]? <;> exact Iff.rfl

theorem modify_dirty_of_ne {f : ServerSession → ServerSession} {r : Nat} (hne : ref ≠ r) :
    (pool.modify ref f).Dirty r ↔ pool.Dirty r := by
  unfold Dirty modify
  simp only [List.getElem?_modify, if_neg hne]
  cases pool.created[r]? <;> exact Iff.rfl

end ServerSessionPool

/-! ## One client session -/

namespace SessionState

/-- The pool is clean, and so is what a client session has that has ended. -/
structure Spotless (s : SessionState) : Prop where
  pool : s.pool.Clean
  ended : s.session.hasEnded = true → ∀ r, s.session.serverSession = some r → ¬ s.pool.Dirty r

/-- The client session can be ended: its server session will be looked at, or is not dirty. -/
def CanEnd (env : Env) (s : SessionState) : Prop :=
  env.releasesUnchecked = true → s.session.hasEnded = false → ∀ r, s.session.serverSession = some r → ¬ s.pool.Dirty r

/-- A change that marks nothing and leaves no dirty session behind. -/
structure Tidy (s s' : SessionState) : Prop where
  marks : ∀ r, s'.pool.Dirty r ↔ s.pool.Dirty r
  spotless : s.Spotless → s'.Spotless
  canEnd : ∀ env, s.Spotless → s.CanEnd env → s'.CanEnd env

variable {env : Env} {s s' s'' : SessionState}

theorem Tidy.refl (s : SessionState) : Tidy s s := ⟨fun _ => Iff.rfl, fun h => h, fun _ _ h => h⟩

theorem Tidy.trans (h : Tidy s s') (h' : Tidy s' s'') : Tidy s s'' :=
  ⟨fun r => (h'.marks r).trans (h.marks r), fun hs => h'.spotless (h.spotless hs),
    fun env hs hc => h'.canEnd env (h.spotless hs) (h.canEnd env hs hc)⟩

/-- Only other fields of the client session and of the server sessions change. -/
theorem Tidy.of_same (hsessions : s'.pool.sessions = s.pool.sessions)
    (hmarks : ∀ r, s'.pool.Dirty r ↔ s.pool.Dirty r) (hheld : s'.session.serverSession = s.session.serverSession)
    (hended : s'.session.hasEnded = s.session.hasEnded) : Tidy s s' := by
  refine ⟨hmarks, fun h => ⟨?_, ?_⟩, fun env _ h => ?_⟩
  · intro r hr hdirty
    exact h.pool r (hsessions ▸ hr) ((hmarks r).1 hdirty)
  · rw [hheld, hended]
    exact fun he r hr hdirty => h.ended he r hr ((hmarks r).1 hdirty)
  · unfold CanEnd at h ⊢
    rw [hheld, hended]
    exact fun hu he r hr hdirty => h hu he r hr ((hmarks r).1 hdirty)

theorem tidy_setTransaction (s : SessionState) (t : Transaction) : Tidy s (s.setTransaction t) :=
  .of_same rfl (fun _ => Iff.rfl) rfl rfl

theorem tidy_getServerSession (env : Env) (s : SessionState) : Tidy s (s.getServerSession env).1 := by
  unfold getServerSession
  split
  · exact .refl s
  · rename_i hnone
    refine ⟨fun r => ServerSessionPool.acquire_dirty, fun h => ⟨(h.pool.acquire env).1, ?_⟩, fun env' h _ _ _ => ?_⟩
    · intro _ r hr
      obtain rfl := Option.some.inj hr
      exact (h.pool.acquire env).2
    · intro r hr
      obtain rfl := Option.some.inj hr
      exact (h.pool.acquire env).2

theorem tidy_modifyServerSession {f : ServerSession → ServerSession} (hf : ∀ x, (f x).isDirty = x.isDirty) :
    Tidy s (s.modifyServerSession env f) :=
  (tidy_getServerSession env s).trans (.of_same rfl (fun _ => ServerSessionPool.modify_dirty hf) rfl rfl)

/-- What the getter gives an ended session, or one that can be ended, may be released. -/
theorem getServerSession_releasable (h : s.Spotless) (hc : s.CanEnd env) :
    ¬ (env.releasesUnchecked = true ∧ (s.getServerSession env).1.pool.Dirty (s.getServerSession env).2) := by
  rintro ⟨hu, hdirty⟩
  have ht := tidy_getServerSession env s
  have hheld := getServerSession_serverSession env s
  cases he : s.session.hasEnded with
  | true => exact (ht.spotless h).ended (by rw [getServerSession_hasEnded, he]) _ hheld hdirty
  | false => exact ht.canEnd env h hc hu (by rw [getServerSession_hasEnded, he]) _ hheld hdirty

/-- The end of a session that can be ended. -/
theorem completeEndSession_spotless (h : s.Spotless) (hc : s.CanEnd env) : (s.completeEndSession env).Spotless := by
  have ht := tidy_getServerSession env s
  have hclean := (ServerSessionPool.release_clean_iff env (ht.spotless h).pool).2 (getServerSession_releasable h hc)
  exact ⟨hclean, fun _ r hr => by cases hr⟩

theorem completeEndSession_marks (env : Env) (s : SessionState) (r : Nat) :
    (s.completeEndSession env).pool.Dirty r ↔ s.pool.Dirty r :=
  (ServerSessionPool.Dirty.congr (ServerSessionPool.release_spec env _ _).1).trans
    ((tidy_getServerSession env s).marks r)

theorem tidy_startTransaction (env : Env) (s : SessionState) (deployment : Deployment) (options : TransactionOptions) :
    Tidy s (s.startTransaction env deployment options).1 := by
  have hg : Tidy s (s.assertAlive env) := tidy_getServerSession env s
  have hi : Tidy s ((s.assertAlive env).incrementTransactionNumber env) :=
    hg.trans (tidy_modifyServerSession fun _ => rfl)
  unfold startTransaction
  split
  · exact .refl s
  · simp only
    split
    · exact hg
    · split
      · exact hg
      · split
        · exact hi
        · exact hi.trans (tidy_setTransaction ..)

theorem tidy_settle (s : SessionState) (nextState : TxnState) : Tidy s (s.settle nextState).1 := by
  unfold settle
  split
  · exact tidy_setTransaction s _
  · exact .refl s

theorem tidy_endTransaction (env : Env) (s : SessionState) (name : EndTransactionName) :
    Tidy s (s.endTransaction env name).1 := by
  have hg : Tidy s (s.assertAlive env) := tidy_getServerSession env s
  unfold endTransaction
  simp only
  split <;> first | exact hg | exact hg.trans (tidy_settle ..)

theorem tidy_commandHandler {name : EndTransactionName} (h : s.commandHandler name = .ok s') : Tidy s s' := by
  unfold commandHandler at h
  simp only at h
  split at h
  · cases h; exact tidy_setTransaction s _
  · cases h

theorem tidy_applySession (env : Env) (s : SessionState) (command : Command) (options : CommandOptions) :
    Tidy s (s.applySession env command options).1 := by
  rcases applySession_fst env s command options with ⟨-, h⟩ | ⟨-, h | ⟨t, h⟩⟩
  · rw [h]; exact .refl s
  · rw [h]; exact tidy_getServerSession env s
  · rw [h]
    have hm : Tidy s (s.modifyServerSession env fun x => { x with lastUse := env.now }) :=
      tidy_modifyServerSession fun _ => rfl
    exact hm.trans (tidy_setTransaction ..)

end SessionState

/-! ## All client sessions -/

/-- The flight ends its session when it has come to its end. -/
def Flight.Ends (f : Flight) : Prop := ∃ name command retried, f.purpose = .endTransaction name command retried true

namespace World

/-- No dirty session is in the pool or with a client session that has ended. -/
structure Clean (w : World) : Prop where
  pool : w.pool.Clean
  ended : ∀ (c : Nat) (x : ClientSession) (r : Nat), w.sessions[c]? = some x → x.hasEnded = true →
    x.serverSession = some r → ¬ w.pool.Dirty r

/-- The same while an event runs on one client session, which it may end if it `ends` it. -/
structure Keeping (env : Env) (c : Nat) (ends : Prop) (w : World) : Prop where
  clean : w.Clean
  canEnd : ends → ∀ s, w.stateOf c = some s → s.CanEnd env

variable {env : Surroundings} {w w' : World} {c i : Nat} {ends : Prop} {s s' : SessionState} {f : Flight}

theorem Clean.of_eq (h : w.Clean) (hpool : w'.pool = w.pool) (hsessions : w'.sessions = w.sessions) : w'.Clean := by
  constructor
  · rw [hpool]; exact h.pool
  · rw [hpool, hsessions]; exact h.ended

theorem Clean.spotless (h : w.Clean) (hs : w.stateOf c = some s) : s.Spotless := by
  obtain ⟨hpool, hc⟩ := stateOf_eq.1 hs
  constructor
  · rw [hpool]; exact h.pool
  · rw [hpool]
    exact fun he r hr => h.ended c _ r hc he hr

theorem Clean.put (h : w.Clean) (hmarks : ∀ r, s'.pool.Dirty r ↔ w.pool.Dirty r) (hs' : s'.Spotless) :
    (w.put c s').Clean := by
  refine ⟨hs'.pool, fun d y r hd he hr => ?_⟩
  rw [sessions_put] at hd
  rcases Heap.get_set_cases hd with ⟨-, rfl⟩ | ⟨-, hd⟩
  · exact hs'.ended he r hr
  · exact fun hdirty => h.ended d y r hd he hr ((hmarks r).1 hdirty)

theorem stateOf_put_self {t : SessionState} (ht : (w.put c s').stateOf c = some t) : t = s' := by
  obtain ⟨hpool, hc⟩ := stateOf_eq.1 ht
  rw [sessions_put] at hc
  rcases Heap.get_set_cases hc with ⟨-, hc⟩ | ⟨hne, -⟩
  · cases t
    cases s'
    cases hpool
    cases hc
    rfl
  · exact absurd rfl hne

theorem Keeping.of_eq {env : Env} (h : Keeping env c ends w) (hpool : w'.pool = w.pool)
    (hsessions : w'.sessions = w.sessions) : Keeping env c ends w' := by
  refine ⟨h.clean.of_eq hpool hsessions, fun he s hs => h.canEnd he s ?_⟩
  rw [stateOf_eq, hpool, hsessions] at hs
  exact stateOf_eq.2 hs

theorem Keeping.put {env : Env} (h : Keeping env c ends w) (hs : w.stateOf c = some s) (ht : s.Tidy s') :
    Keeping env c ends (w.put c s') := by
  have hspot := h.clean.spotless hs
  have hmarks : ∀ r, s'.pool.Dirty r ↔ w.pool.Dirty r := by
    rw [← (stateOf_eq.1 hs).1]
    exact ht.marks
  refine ⟨h.clean.put hmarks (ht.spotless hspot), fun he t hput => ?_⟩
  rw [stateOf_put_self hput]
  exact ht.canEnd env hspot (h.canEnd he s hs)

theorem Keeping.mark {env : Env} (h : Keeping env c ends w) (d : Nat) (g : Option Started → Option Started) :
    Keeping env c ends (w.mark d g) :=
  h.of_eq rfl (sessions_mark w d g)

theorem Clean.beginTxn (h : w.Clean) (c txnNumber : Nat) : (w.beginTxn c txnNumber).Clean :=
  h.of_eq rfl (sessions_mark w c fun _ => some { txn := w.txns, txnNumber })

/-- The end of a session. -/
theorem Keeping.putEnd {env : Env} (h : Keeping env c ends w) (he : ends) (hs : w.stateOf c = some s) (ht : s.Tidy s') :
    Keeping env c ends (w.put c (s'.completeEndSession env)) := by
  have hspot := h.clean.spotless hs
  have hmarks : ∀ r, (s'.completeEndSession env).pool.Dirty r ↔ w.pool.Dirty r := by
    rw [← (stateOf_eq.1 hs).1]
    exact fun r => (SessionState.completeEndSession_marks env s' r).trans (ht.marks r)
  refine ⟨h.clean.put hmarks ?_, fun _ t hput => ?_⟩
  · exact SessionState.completeEndSession_spotless (ht.spotless hspot) (ht.canEnd env hspot (h.canEnd he s hs))
  · rw [stateOf_put_self hput]
    intro _ hlive
    cases hlive

/-! ## Flights -/

theorem Keeping.finish (h : Keeping env.toEnv c ends w) (hc : f.client = c) (he : f.Ends → ends) :
    Keeping env.toEnv c ends (w.finish env i f) := by
  subst hc
  unfold World.finish
  split
  · rename_i name command retried endSession s hpurpose hs
    split
    · exact h.of_eq rfl rfl
    · rename_i s' hhandler
      have ht : s.Tidy s' := SessionState.tidy_commandHandler hhandler
      refine Keeping.of_eq (w := w.put f.client _) ?_ rfl rfl
      cases endSession with
      | true => exact h.putEnd (he ⟨name, command, retried, hpurpose⟩) hs ht
      | false => exact h.put hs ht
  · exact h.of_eq rfl rfl

theorem Keeping.resumeWith {callback : World → Flight → Outcome Unit → World} (h : Keeping env.toEnv c ends w)
    (hc : f.client = c) (hcallback : ∀ {w} g o, g.client = f.client → g.purpose = f.purpose →
      Keeping env.toEnv c ends w →
      Keeping env.toEnv c ends (callback w g o)) (p : Prog Unit) :
    Keeping env.toEnv c ends (w.resumeWith env callback i f p) := by
  unfold World.resumeWith
  split
  · exact h
  · rename_i s hs
    simp only
    have hw : Keeping env.toEnv c ends (if (advance (env.view s.session) p).1 = true
        then w.put f.client (s.incrementTransactionNumber env.toEnv) else w) := by
      split
      · rw [hc] at hs ⊢
        exact h.put hs (SessionState.tidy_modifyServerSession fun _ => rfl)
      · exact h
    split
    · exact hcallback _ _ rfl rfl hw
    · exact hw.of_eq rfl rfl

theorem Keeping.enterWith {callback : World → Flight → Outcome Unit → World} (h : Keeping env.toEnv c ends w)
    (hc : f.client = c) (hcallback : ∀ {w} g o, g.client = f.client → g.purpose = f.purpose →
      Keeping env.toEnv c ends w →
      Keeping env.toEnv c ends (callback w g o)) (op : AbstractOperation) :
    Keeping env.toEnv c ends (w.enterWith env callback i f op) := by
  unfold World.enterWith
  split
  · exact h
  · split
    · exact h.of_eq rfl rfl
    · exact h.resumeWith hc hcallback _

theorem Flight.ends_congr {f g : Flight} (h : g.purpose = f.purpose) : g.Ends ↔ f.Ends := by
  unfold Flight.Ends
  rw [h]

theorem Keeping.complete (h : Keeping env.toEnv c ends w) (hc : f.client = c) (he : f.Ends → ends) (o : Outcome Unit) :
    Keeping env.toEnv c ends (w.complete env i f o) := by
  unfold World.complete
  split
  · rename_i name command endSession hpurpose
    split
    · refine h.enterWith ?_ ?_ _
      · exact hc
      intro w g o hgc hgp hw
      refine hw.finish (hgc.trans hc) fun hends => he ?_
      -- the command that is sent once more ends the session when the first one did
      obtain ⟨name', command', retried', hends⟩ := (Flight.ends_congr hgp).1 hends
      cases hends
      exact ⟨name, command, false, hpurpose⟩
    · exact h.finish hc he
  · exact h.finish hc he

theorem Keeping.resume (h : Keeping env.toEnv c ends w) (hc : f.client = c) (he : f.Ends → ends) (p : Prog Unit) :
    Keeping env.toEnv c ends (w.resume env i f p) :=
  h.resumeWith hc (fun _ _ hgc hgp hw => hw.complete (hgc.trans hc)
    (fun hends => he ((Flight.ends_congr hgp).1 hends)) _) p

theorem Keeping.launch (h : Keeping env.toEnv c ends w) (hc : f.client = c) (he : f.Ends → ends)
    (op : AbstractOperation) :
    Keeping env.toEnv c ends (w.launch env f op) := by
  have hw : Keeping env.toEnv c ends { w with flights := w.flights ++ [f] } := h.of_eq rfl rfl
  exact hw.enterWith hc
    (fun _ _ hgc hgp hw => hw.complete (hgc.trans hc) (fun hends => he ((Flight.ends_congr hgp).1 hends)) _) op

/-! ## Commands and calls -/

theorem Keeping.write (h : Keeping env.toEnv c ends w) (hc : f.client = c) (hs : w.stateOf c = some s) (ht : s.Tidy s')
    (command : Command) (conn : Connection) : Keeping env.toEnv c ends (w.write env i f s' command conn) := by
  have hput := h.put hs (ht.trans (SessionState.tidy_getServerSession env.toEnv s'))
  subst hc
  unfold World.write
  simp only
  split
  · exact hput.of_eq rfl rfl
  · exact hput

theorem Keeping.command (h : Keeping env.toEnv c ends w) (hc : f.client = c) (hs : w.stateOf c = some s)
    (command : Command) (conn : Connection) : Keeping env.toEnv c ends (w.command env i f s command conn) := by
  unfold World.command
  split
  · have ht := SessionState.tidy_applySession env.toEnv s command f.options
    split
    · rename_i s' _ heq
      rw [heq] at ht
      rw [hc]
      exact h.put hs ht
    · rename_i s' _ heq
      rw [heq] at ht
      exact h.write hc hs ht ..
  · exact h.write hc hs (.refl s) ..

theorem Keeping.endTransaction {x : Client} (h : Keeping env.toEnv c ends w) (hx : w.clients[c]? = some x)
    (name : EndTransactionName) (endSession : Bool) (he : endSession = true → ends) :
    Keeping env.toEnv c ends (w.endTransaction env c x name endSession) := by
  have ht := SessionState.tidy_endTransaction env.toEnv ⟨w.pool, x.session⟩ name
  have hs := stateOf_client hx
  unfold World.endTransaction
  split
  · rename_i heq
    rw [heq] at ht
    exact h.put hs ht
  · rename_i heq
    rw [heq] at ht
    have hmark : (w.mark c (·.map ({ · with closed := true }))).stateOf c = some ⟨w.pool, x.session⟩ := by
      rw [stateOf_eq, sessions_mark]
      exact stateOf_eq.1 hs
    cases endSession with
    | true => exact (h.mark c _).putEnd (he rfl) hmark ht
    | false => exact (h.mark c _).put hmark ht
  · rename_i heq
    rw [heq] at ht
    refine ((h.put hs ht).mark c _).launch rfl ?_ _
    rintro ⟨name', command', retried', hends⟩
    cases hends
    exact he rfl

theorem Keeping.endSession {x : Client} (h : Keeping env.toEnv c ends w) (hx : w.clients[c]? = some x) (he : ends) :
    Keeping env.toEnv c ends (w.endSession env c x) := by
  unfold World.endSession
  split
  · exact h
  · split
    · exact h.endTransaction hx _ _ fun _ => he
    · exact h.putEnd he (stateOf_client hx) (.refl _)

theorem Clean.startTransaction {x : Client} (h : w.Clean) (hx : w.clients[c]? = some x) (options : TransactionOptions) :
    (w.startTransaction env c x options).Clean := by
  have ht := SessionState.tidy_startTransaction env.toEnv ⟨w.pool, x.session⟩ env.deployment options
  have hput := h.put (c := c) ht.marks (ht.spotless (h.spotless (stateOf_client hx)))
  have hstarts : ∀ result, World.Clean { w.put c (SessionState.startTransaction env.toEnv ⟨w.pool, x.session⟩
      env.deployment options).1 with starts := w.starts ++ [⟨x.session.hasEnded, result⟩] } :=
    fun result => hput.of_eq rfl rfl
  unfold World.startTransaction
  simp only
  split
  · exact hstarts _
  · exact (hstarts _).beginTxn ..

theorem Clean.startSession (h : w.Clean) {session : ClientSession} (hnone : session.serverSession = none) :
    ({ w with clients := w.clients ++ [{ session }] } : World).Clean := by
  refine ⟨h.pool, fun d y r hd he hr => ?_⟩
  simp only [sessions, List.map_append, List.map_cons, List.map_nil] at hd
  rcases Heap.get_alloc_cases hd with ⟨-, rfl⟩ | hd
  · rw [hnone] at hr
    cases hr
  · exact h.ended d y r hd he hr

/-- The server session of a client session that has not ended is changed: nobody else has it. -/
theorem Clean.modifyHeld (h : w.Clean) (ha : w.Accounted False) {x : ClientSession} {r : Nat}
    (hx : w.sessions[c]? = some x) (hlive : x.hasEnded = false) (hr : x.serverSession = some r)
    (f : ServerSession → ServerSession) : ({ w with pool := w.pool.modify r f } : World).Clean := by
  refine ⟨fun ref href hdirty => ?_, fun d y ref hd he href hdirty => ?_⟩
  · have hne : r ≠ ref := fun heq => ha.apart c x r hx hr (heq ▸ href)
    exact h.pool ref href ((ServerSessionPool.modify_dirty_of_ne hne).1 hdirty)
  · have hne : r ≠ ref := by
      intro heq
      have hcd : d = c := ha.one d c y x r hd hx (heq ▸ href) hr
      rw [hcd] at hd
      obtain rfl : x = y := Option.some.inj (hx.symm.trans hd)
      exact Bool.false_ne_true (hlive.symm.trans he)
    exact h.ended d y ref hd he href ((ServerSessionPool.modify_dirty_of_ne hne).1 hdirty)

theorem Clean.markDirty (h : w.Clean) (ha : w.Accounted False) (env : Env) (hs : w.stateOf c = some s) :
    (w.put c (s.markDirty env)).Clean := by
  have hspot := h.spotless hs
  have hpool := (stateOf_eq.1 hs).1
  unfold SessionState.markDirty
  split
  · exact h.put (fun r => by rw [hpool]) hspot
  · rename_i hlive
    have ht := SessionState.tidy_getServerSession env s
    have hput : (w.put c (s.getServerSession env).1).Clean :=
      h.put (fun r => (ht.marks r).trans (by rw [hpool])) (ht.spotless hspot)
    have haput : (w.put c (s.getServerSession env).1).Accounted False :=
      ha.put hs (SessionState.keeps_getServerSession env fun hb => hb.elim)
    have hat : (w.put c (s.getServerSession env).1).sessions[c]? = some (s.getServerSession env).1.session := by
      rw [sessions_put]
      exact List.getElem?_set_self (List.getElem?_eq_some_iff.1 (stateOf_eq.1 hs).2).1
    exact hput.modifyHeld haput hat (by rw [SessionState.getServerSession_hasEnded]; simpa using hlive)
      (SessionState.getServerSession_serverSession env s) _

end World

/-! ## Runs -/

/-- The event goes on with the end of the client session `c`: `endSession` is called, or the abort it sent is
answered. -/
inductive GoesOnEnding (w : World) (e : Event) : Nat → Prop
  | endSession {c} (h : e.action = .endSession c) : GoesOnEnding w e c
  | checked {i result f} (h : e.action = .checked i result) (hf : w.flights[i]? = some f) (hends : f.Ends) :
    GoesOnEnding w e f.client
  | selected {i result f} (h : e.action = .selected i result) (hf : w.flights[i]? = some f) (hends : f.Ends) :
    GoesOnEnding w e f.client
  | outcome {i o f} (h : e.action = .outcome i o) (hf : w.flights[i]? = some f) (hends : f.Ends) :
    GoesOnEnding w e f.client

/-- Behind a load balancer without a session timeout no client session goes on ending while its server session is
dirty. -/
def EndsClean (w : World) (e : Event) : Prop :=
  ∀ c s, GoesOnEnding w e c → w.stateOf c = some s → s.CanEnd e.env.toEnv

/-- An answer to a flight. -/
theorem EndsClean.keeping {w : World} {e : Event} {f : Flight} (hc : EndsClean w e) (h : w.Clean)
    (hends : f.Ends → GoesOnEnding w e f.client) : w.Keeping e.env.toEnv f.client f.Ends :=
  ⟨h, fun he s hs => hc f.client s (hends he) hs⟩

/-- Nothing is ended. -/
theorem World.Clean.keeping {w : World} (h : w.Clean) (env : Env) (c : Nat) : w.Keeping env c False :=
  ⟨h, fun he => he.elim⟩

theorem step_clean {w w' : World} {e : Event} (h : w.Clean) (ha : w.Accounted False) (hc : EndsClean w e)
    (hstep : w.step e = some w') : w'.Clean := by
  cases World.step_steps hstep with
  | refused => exact h
  | startSession hnew => exact h.startSession (ClientSession.new_fresh hnew).1
  | @read env c s hs => exact ((h.keeping env.toEnv c).put hs (SessionState.tidy_getServerSession ..)).clean
  | @equals env c d s s' hs hs' =>
    have hw := ((h.keeping env.toEnv c).put hs (SessionState.tidy_getServerSession env.toEnv s)).clean
    exact ((hw.keeping env.toEnv d).put hs' (SessionState.tidy_getServerSession ..)).clean
  | startTransaction hx => exact h.startTransaction hx _
  | @endTransaction env c name x hx =>
    exact ((h.keeping env.toEnv c).endTransaction hx name false fun heq => (by cases heq)).clean
  | @endSession env c x hx =>
    have hw : w.Keeping env.toEnv c True := ⟨h, fun _ s hs => hc c s (.endSession rfl) hs⟩
    exact (hw.endSession hx trivial).clean
  | @executeOperation env c op unacknowledged x hx =>
    refine ((h.keeping env.toEnv c).launch rfl ?_ op).clean
    rintro ⟨name, command, retried, hends⟩
    cases hends
  | unchecked hf => exact ((hc.keeping h fun he => .checked rfl hf he).complete rfl id _).clean
  | checked hf => exact ((hc.keeping h fun he => .checked rfl hf he).resume rfl id _).clean
  | selected hf => exact ((hc.keeping h fun he => .selected rfl hf he).resume rfl id _).clean
  | @command env i command conn f s server next hf hs =>
    exact ((h.keeping env.toEnv f.client).command rfl hs ..).clean
  | outcome hf => exact ((hc.keeping h fun he => .outcome rfl hf he).resume rfl id _).clean
  | networkError hs => exact h.markDirty ha _ hs
  | @response env c reply s hs =>
    have ht : s.Tidy (s.updateSessionFromResponse reply) := .of_same rfl (fun _ => Iff.rfl) rfl rfl
    exact ((h.keeping env.toEnv c).put hs ht).clean
  | endAllPooledSessions =>
    refine ⟨?_, h.ended⟩
    intro r hr
    cases hr

theorem clean_init : ({} : World).Clean := by
  constructor
  all_goals simp [World.sessions, ServerSessionPool.Clean]

/-- For every run in which no client session with a dirty server session goes on ending behind a load balancer
without a session timeout: in every state reached the pool has no dirty session, whatever `acquire` takes from it is
not dirty, and a `release` there keeps it so exactly when it does not put a dirty session back unchecked. -/
theorem dirty_sessions_not_reused {es : List Event} {w : World} (hends : Run.Meets World.step EndsClean {} es)
    (hrun : Run.exec World.step {} es = some w) :
    w.pool.Clean ∧ (∀ env, ¬ (w.pool.acquire env).1.Dirty (w.pool.acquire env).2) ∧
      ∀ env ref, (w.pool.release env ref).Clean ↔ ¬ (env.releasesUnchecked = true ∧ w.pool.Dirty ref) := by
  have hw : w.Accounted False ∧ w.Clean := by
    refine Run.exec_inv_meets (P := fun w => w.Accounted False ∧ w.Clean) World.step (fun s e t hs hc ht => ?_)
      ⟨accounted_init False, clean_init⟩ hends hrun
    exact ⟨step_accounted hs.1 (fun hb => hb.elim) ht, step_clean hs.2 hs.1 hc ht⟩
  exact ⟨hw.2.pool, fun env => (hw.2.pool.acquire env).2, fun env ref =>
    ServerSessionPool.release_clean_iff env hw.2.pool⟩

section Runs

private def known (action : Action) : Event := { action }

/-- A load balancer that tells no session timeout. -/
private def balanced (action : Action) : Event :=
  { env := { loadBalanced := true, logicalSessionTimeoutMinutes := none }, action }

theorem endsClean_of_checked {w : World} {e : Event} (h : e.env.toEnv.releasesUnchecked = false) : EndsClean w e :=
  fun _ _ _ _ hu => absurd (h.symm.trans hu) Bool.false_ne_true

/-- A network error hits a session, which is ended where a session timeout is known; the next session starts anew. -/
private def dirtyDropped : List Event :=
  [known (.startSession {} {}), known (.read 0), known (.networkError 0), known (.endSession 0),
    known (.startSession {} {}), known (.read 1), balanced (.endSession 1)]

theorem dirtyDropped_endsClean : Run.Meets World.step EndsClean {} dirtyDropped := by
  refine .cons (endsClean_of_checked rfl) rfl ?_
  refine .cons (endsClean_of_checked rfl) rfl ?_
  refine .cons (endsClean_of_checked rfl) rfl ?_
  refine .cons (endsClean_of_checked rfl) rfl ?_
  refine .cons (endsClean_of_checked rfl) rfl ?_
  refine .cons (endsClean_of_checked rfl) rfl ?_
  refine ⟨fun c s hg hs => ?_, fun _ _ => trivial⟩
  cases hg with
  | endSession h =>
    cases h
    cases hs
    rintro - - r hr
    cases hr
    exact Bool.false_ne_true
  | checked h _ _ | selected h _ _ | outcome h _ _ => cases h

theorem dirtyDropped_not_reused : ∃ w, Run.exec World.step {} dirtyDropped = some w ∧
    w.pool.created.map (·.isDirty) = [true, false] ∧ w.pool.sessions = [1] ∧ w.pool.Clean :=
  ⟨_, rfl, rfl, rfl, (dirty_sessions_not_reused dirtyDropped_endsClean rfl).1⟩

/-- Behind the load balancer a session that a network error has marked is put back, and the next client session
takes it. -/
theorem dirty_session_reused : ∃ w w', Run.exec World.step {}
      [balanced (.startSession {} {}), balanced (.read 0), balanced (.networkError 0),
        balanced (.endSession 0)] = some w ∧
    w.pool.sessions = [0] ∧ w.pool.Dirty 0 ∧
    Run.exec World.step w [balanced (.startSession {} {}), balanced (.read 1)] = some w' ∧
    w'.sessions.map (·.serverSession) = [none, some 0] ∧ w'.pool.Dirty 0 :=
  ⟨_, _, rfl, rfl, rfl, rfl, rfl, rfl⟩

end Runs

end MongoDriver.Sessions
