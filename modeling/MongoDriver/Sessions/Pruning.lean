/-
What the session pool keeps and hands out (`ServerSessionPool` of `src/sessions.ts`) while the timeout of the server is
known. `release` drops timed-out sessions from the back of the pool until it meets one that is not, which drops all of
them exactly when they stand together at the back; sessions can be released in another order than that of their last
use. `acquire` looks at each session it takes from the front, but for a load balanced topology.
-/
import MongoDriver.Base.Run
import MongoDriver.Sessions.Expiry

namespace MongoDriver.Sessions

namespace ServerSessionPool

/-! ## Dropping from the back -/

/-- Dropping from the back leaves no element with a property exactly when no such element stands before one
without it. -/
theorem rdropWhile_none_iff {α : Type*} {p : α → Bool} (l : List α) :
    (∀ a ∈ l.rdropWhile p, p a = false) ↔ l.Pairwise fun a b => p a = true → p b = true := by
  induction l using List.reverseRecOn with
  | nil => simp
  | append_singleton l a ih =>
    rw [List.rdropWhile_concat, List.pairwise_append]
    by_cases ha : p a = true
    · rw [if_pos ha, ih]
      constructor
      · intro h
        refine ⟨h, List.pairwise_singleton .., fun b _ c hc _ => ?_⟩
        rw [List.mem_singleton.1 hc]
        exact ha
      · rintro ⟨h, -, -⟩
        exact h
    · rw [if_neg ha]
      constructor
      · intro h
        have hl : ∀ b ∈ l, p b = false := fun b hb => h b (List.mem_append_left _ hb)
        refine ⟨?_, List.pairwise_singleton .., fun b hb c _ hpb => ?_⟩
        · refine List.pairwise_of_forall_mem_list fun b hb c _ hpb => ?_
          rw [hl b hb] at hpb
          cases hpb
        · rw [hl b hb] at hpb
          cases hpb
      · rintro ⟨-, -, h⟩ b hb
        rw [← Bool.not_eq_true]
        intro hpb
        rcases List.mem_append.1 hb with hb | hb
        · exact ha (h b hb a (List.mem_singleton_self a) hpb)
        · rw [List.mem_singleton.1 hb] at hpb
          exact ha hpb

/-! ## One call -/

/-- A call to the pool: the clock, the timeout that the topology has learned and its kind. -/
structure Call where
  now : Nat
  logicalSessionTimeoutMinutes : Nat
  known : 0 < logicalSessionTimeoutMinutes
  loadBalanced : Bool

def Call.env (call : Call) : Env :=
  { now := call.now, logicalSessionTimeoutMinutes := some call.logicalSessionTimeoutMinutes
    loadBalanced := call.loadBalanced }

section Call

variable (call : Call) (pool : ServerSessionPool) (ref : Nat)

/-- The session has timed out at the call. -/
def expired : Bool := pool.hasTimedOut call.env call.logicalSessionTimeoutMinutes ref

/-- No session of the pool has timed out before one that has not. -/
def ExpiredLast : Prop := pool.sessions.Pairwise fun a b => pool.expired call a = true → pool.expired call b = true

theorem release_known : pool.release call.env ref =
    if pool.expired call ref || pool.created[ref]?.any (·.isDirty) then
      { pool with sessions := pool.sessions.rdropWhile (pool.expired call) }
    else { pool with sessions := ref :: pool.sessions.rdropWhile (pool.expired call) } := by
  have hknown := call.known
  unfold release Call.env expired
  cases hminutes : call.logicalSessionTimeoutMinutes with
  | zero => omega
  | succ minutes => rfl

/-- The released session is never in the way: it goes back only when it has not timed out. -/
theorem release_pruned_iff :
    (∀ r ∈ (pool.release call.env ref).sessions, (pool.release call.env ref).expired call r = false) ↔
      pool.ExpiredLast call := by
  unfold ExpiredLast
  rw [← rdropWhile_none_iff, release_known]
  by_cases hdrop : (pool.expired call ref || pool.created[ref]?.any (·.isDirty)) = true
  · rw [if_pos hdrop]
    exact Iff.rfl
  · rw [if_neg hdrop]
    rw [Bool.not_eq_true, Bool.or_eq_false_iff] at hdrop
    obtain ⟨hlive, -⟩ := hdrop
    exact List.forall_mem_cons.trans (and_iff_right hlive)

/-- What the loop of `acquire` finds is not stale. -/
theorem shift_not_stale {stale : Nat → Bool} : ∀ {refs rest : List Nat} {ref : Nat},
    shift stale refs = (rest, some ref) → stale ref = false
  | [], _, _, h => by cases h
  | r :: refs, rest, ref, h => by
    unfold shift at h
    by_cases hstale : stale r = true
    · rw [if_pos hstale] at h
      exact shift_not_stale h
    · rw [if_neg hstale] at h
      rw [Bool.not_eq_true] at hstale
      cases h
      exact hstale

theorem acquire_known : pool.acquire call.env =
    match shift (fun ref => !call.loadBalanced && pool.expired call ref) pool.sessions with
    | (sessions, some ref) => ({ pool with sessions }, ref)
    | (sessions, none) =>
      ({ created := pool.created ++ [{ lastUse := call.now }], sessions }, pool.created.length) := by
  have hknown := call.known
  unfold acquire Call.env expired
  cases hminutes : call.logicalSessionTimeoutMinutes with
  | zero => omega
  | succ minutes => rfl

/-- A session that was just created has not timed out. -/
theorem created_not_expired (sessions : List Nat) :
    expired call { created := pool.created ++ [{ lastUse := call.now }], sessions } pool.created.length = false := by
  have hlast : (pool.created ++ [{ lastUse := call.now }])[pool.created.length]? =
      some { lastUse := call.now } := List.getElem?_concat_length
  unfold expired ServerSessionPool.hasTimedOut
  rw [hlast, Option.any_some]
  exact ServerSession.hasTimedOut_now call.known rfl

/-- The session that `acquire` returns has not timed out, unless the topology is load balanced and the first session of
the pool has. -/
theorem acquire_not_expired_iff :
    (pool.acquire call.env).1.expired call (pool.acquire call.env).2 = false ↔
      call.loadBalanced = false ∨ ∀ front ∈ pool.sessions.head?, pool.expired call front = false := by
  rw [acquire_known]
  cases hshift : shift (fun ref => !call.loadBalanced && pool.expired call ref) pool.sessions with
  | mk sessions found =>
    cases found with
    | none =>
      refine iff_of_true (created_not_expired call pool sessions) ?_
      cases hsessions : pool.sessions with
      | nil => exact .inr fun front hfront => (by cases hfront)
      | cons front rest =>
        rw [hsessions] at hshift
        cases hbalanced : call.loadBalanced with
        | false => exact .inl rfl
        | true =>
          rw [hbalanced] at hshift
          cases hshift
    | some ref =>
      have hstale := shift_not_stale hshift
      cases hbalanced : call.loadBalanced with
      | false =>
        rw [hbalanced] at hstale
        exact iff_of_true hstale (.inl rfl)
      | true =>
        rw [hbalanced] at hshift
        cases hsessions : pool.sessions with
        | nil =>
          rw [hsessions] at hshift
          cases hshift
        | cons front rest =>
          rw [hsessions] at hshift
          cases hshift
          constructor
          · intro hlive
            refine .inr fun front hfront => ?_
            cases hfront
            exact hlive
          · rintro (h | h)
            · cases h
            · exact h _ rfl

end Call

/-! ## Runs -/

/-- What happens to the pool and to the sessions created from it. `use` is whatever the holder of a session does to it:
it sets the time of its last use, its transaction number, its flag. -/
inductive PoolEvent
  | acquire (call : Call)
  | release (call : Call) (ref : Nat)
  | use (ref : Nat) (session : ServerSession)

/-- One event. Only a session that has been created is released. -/
def next (pool : ServerSessionPool) : PoolEvent → Option ServerSessionPool
  | .acquire call => some (pool.acquire call.env).1
  | .release call ref => if ref < pool.created.length then some (pool.release call.env ref) else none
  | .use ref session => some (pool.modify ref fun _ => session)

/-- The session that is acquired has not timed out, and after a release no session of the pool has. -/
def Pruned (pool : ServerSessionPool) (e : PoolEvent) (pool' : ServerSessionPool) : Prop :=
  match e with
  | .acquire call => pool'.expired call (pool.acquire call.env).2 = false
  | .release call _ => ∀ ref ∈ pool'.sessions, pool'.expired call ref = false
  | .use .. => True

/-- At a release the sessions that have timed out stand at the back; a load balanced topology does not take one from
the front. -/
def Ordered (pool : ServerSessionPool) (e : PoolEvent) : Prop :=
  match e with
  | .acquire call => call.loadBalanced = false ∨ ∀ front ∈ pool.sessions.head?, pool.expired call front = false
  | .release call _ => pool.ExpiredLast call
  | .use .. => True

theorem next_pruned_iff {pool pool' : ServerSessionPool} {e : PoolEvent} (h : pool.next e = some pool') :
    pool.Ordered e ↔ pool.Pruned e pool' := by
  cases e with
  | acquire call =>
    cases h
    exact (acquire_not_expired_iff call pool).symm
  | release call ref =>
    unfold next at h
    by_cases hlt : ref < pool.created.length
    · simp only [if_pos hlt] at h
      cases h
      exact (release_pruned_iff call pool ref).symm
    · simp only [if_neg hlt] at h
      cases h
  | use ref session => exact Iff.rfl

end ServerSessionPool

/-- In every order of acquires, releases and uses of sessions, no acquired session has timed out and no session that
has is left after a release, exactly when each release finds the timed-out sessions at the back of the pool and no
load balanced topology acquires a timed-out session from its front. -/
theorem pool_pruned_iff (es : List ServerSessionPool.PoolEvent) (t : ServerSessionPool)
    (h : Run.exec ServerSessionPool.next {} es = some t) :
    Run.Meets ServerSessionPool.next ServerSessionPool.Ordered {} es ↔
      ∀ es₁ e es₂ u v, es = es₁ ++ e :: es₂ → Run.exec ServerSessionPool.next {} es₁ = some u →
        u.next e = some v → u.Pruned e v :=
  Run.meets_iff_steps ServerSessionPool.next (fun _ _ _ => ServerSessionPool.next_pruned_iff) h

/-- A call at a time, with the usual timeout of 30 minutes. -/
def ServerSessionPool.Call.at (now : Nat) : ServerSessionPool.Call := ⟨now, 30, by decide, false⟩

/-- A session that is acquired, released and acquired again an hour and a half later, when it has timed out. -/
theorem pool_pruned_reacquired : ∃ t,
    Run.exec ServerSessionPool.next {} [.acquire (.at 0), .release (.at 0) 0, .acquire (.at 5400000)] = some t ∧
      (Run.Meets ServerSessionPool.next ServerSessionPool.Ordered {}
          [.acquire (.at 0), .release (.at 0) 0, .acquire (.at 5400000)] ↔
        ∀ es₁ e es₂ u v, [.acquire (.at 0), .release (.at 0) 0, .acquire (.at 5400000)] = es₁ ++ e :: es₂ →
          Run.exec ServerSessionPool.next {} es₁ = some u → u.next e = some v → u.Pruned e v) :=
  ⟨_, rfl, pool_pruned_iff _ _ rfl⟩

/-- Of three sessions the second is used late and released, then the first is released, unused: half an hour in, a
release stops at the second and leaves the first. -/
theorem expired_left : ¬ ∀ (es : List ServerSessionPool.PoolEvent) (t : ServerSessionPool),
    Run.exec ServerSessionPool.next {} es = some t →
      ∀ es₁ e es₂ u v, es = es₁ ++ e :: es₂ → Run.exec ServerSessionPool.next {} es₁ = some u →
        u.next e = some v → u.Pruned e v := by
  intro h
  have hpruned := h
    ([.acquire (.at 0), .acquire (.at 0), .acquire (.at 0), .use 1 { lastUse := 1700000 },
      .release (.at 1700000) 1, .release (.at 1700000) 0] ++ [.release (.at 1800000) 2])
    _ rfl _ _ _ _ _ rfl rfl rfl
  exact absurd (hpruned 0 (by decide)) (by decide)

end MongoDriver.Sessions
