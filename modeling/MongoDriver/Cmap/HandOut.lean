/-
Connections that are handed out and the generation of the pool. A connection that was available is compared
with the current generation before it is handed out. One that was established for a waiting member is not: it
has the generation of the moment its attempt started, and when the pool was cleared meanwhile it is handed out
all the same. Behind a load balancer it joins the current generation of its service, so that nothing can go
wrong there.
-/
import MongoDriver.Base.Run
import MongoDriver.Cmap.WaitQueue

namespace MongoDriver.Cmap

/-- The connection has the current generation of its pool, or of its service behind a load balancer. -/
def Generations.Current (pool : Generations) (connection : Connection) : Prop :=
  match pool.loadBalanced, connection.serviceId with
  | true, some sid => pool.serviceGenerations.get? sid = some connection.generation
  | _, _ => connection.generation = pool.generation

theorem Generations.current_iff {pool : Generations} {connection : Connection} :
    pool.Current connection ↔ connectionIsStale pool connection = false := by
  unfold Current connectionIsStale
  cases pool.loadBalanced with
  | false => simp
  | true =>
    cases connection.serviceId with
    | none => simp
    | some sid =>
      simp only [ne_eq, decide_not, Bool.not_eq_false', decide_eq_true_eq]
      exact eq_comm

namespace ConnectionPool

/-- Between the two states a member is called back with the connection. -/
structure HandsOut (pool pool' : ConnectionPool) (connection : Connection) : Prop where
  inUse : pool'.inUse = connection :: pool.inUse
  answered : ∃ member, pool'.answers = pool.answers ++ [(member, .connection connection.id)]

variable {options : PoolOptions} {pool pool' : ConnectionPool} {connection : Connection}

theorem not_handsOut (h : pool'.inUse.length ≤ pool.inUse.length) : ¬ HandsOut pool pool' connection := by
  intro hand
  rw [hand.inUse, List.length_cons] at h
  omega

/-! ## Available connections -/

theorem finishPass_inUse (pool : ConnectionPool) : (pool.finishPass options).inUse = pool.inUse := by
  unfold finishPass
  simp only
  split <;> rfl

theorem finishPass_generations (pool : ConnectionPool) :
    (pool.finishPass options).generations = pool.generations := by
  unfold finishPass
  simp only
  split <;> rfl

theorem turn_generations (pool : ConnectionPool) (idleTime : Nat) :
    (pool.turn options idleTime).generations = pool.generations := by
  unfold turn
  split
  · exact finishPass_generations pool
  · split
    · rfl
    · split
      · exact finishPass_generations pool
      · simp only
        split <;> rfl

/-- What a pass hands out has been compared with the generation. -/
theorem turn_current {idleTime : Nat} (h : HandsOut pool (pool.turn options idleTime) connection) :
    (pool.turn options idleTime).generations.Current connection := by
  rw [turn_generations, Generations.current_iff]
  unfold turn at h
  split at h
  · exact absurd h (not_handsOut (congrArg List.length (finishPass_inUse pool)).le)
  · split at h
    · exact absurd h (not_handsOut le_rfl)
    · split at h
      · exact absurd h (not_handsOut (congrArg List.length (finishPass_inUse pool)).le)
      · rename_i connection' available hconnections
        simp only at h
        split at h
        · exact absurd h (not_handsOut le_rfl)
        · rename_i husable
          obtain rfl : connection' = connection := (List.cons.inj h.inUse).1
          simp only [Bool.or_eq_true, not_or, Bool.not_eq_true] at husable
          exact husable.1.1

/-! ## Established connections -/

/-- The member at the front waits. -/
def FrontWaits (pool : ConnectionPool) : Prop := ∃ member rest, pool.waitQueue = member :: rest ∧
    member.cancelled = false

theorem memberCallback_generations (pool : ConnectionPool) (result : Option Connection) :
    (pool.memberCallback result).generations = pool.generations := by
  unfold memberCallback
  split
  · rfl
  · split <;> rfl

theorem memberCallback_handsOut {established : Connection} (hinUse : pool'.inUse = pool.inUse)
    (hanswers : pool'.answers = pool.answers) :
    HandsOut pool' (pool.memberCallback (some established)) connection ↔
      pool.FrontWaits ∧ connection = established := by
  unfold memberCallback FrontWaits
  split
  · rename_i hq
    refine iff_of_false (not_handsOut (congrArg List.length hinUse).ge) ?_
    rintro ⟨⟨member, rest, hq', -⟩, -⟩
    rw [hq] at hq'
    cases hq'
  · rename_i member rest hq
    split
    · rename_i hc
      refine iff_of_false (not_handsOut (congrArg List.length hinUse).ge) ?_
      rintro ⟨⟨member', rest', hq', hc'⟩, -⟩
      rw [hq] at hq'
      cases hq'
      rw [hc] at hc'
      cases hc'
    · rename_i hc
      constructor
      · intro h
        exact ⟨⟨member, rest, hq, by simpa using hc⟩, (List.cons.inj h.inUse).1.symm⟩
      · rintro ⟨-, rfl⟩
        exact ⟨by rw [hinUse]; rfl, member.id, by rw [hanswers]; rfl⟩

/-- Behind a load balancer a connection with a service is given the generation of its service; any other keeps
the one its attempt started with. -/
theorem adopt_current (g : Generations) (c : Connection) :
    (g.adopt c).1.Current (g.adopt c).2 ↔
      (g.loadBalanced = true ∧ c.serviceId.isSome) ∨ c.generation = g.generation := by
  unfold Generations.adopt Generations.Current
  cases hlb : g.loadBalanced with
  | false => simp [hlb]
  | true =>
    cases hs : c.serviceId with
    | none => simp [hlb, hs]
    | some sid =>
      -- a generation that is missing or zero is set to zero
      cases hg : g.serviceGenerations.get? sid with
      | none => simp [hg]
      | some n =>
        cases n with
        | zero => simp [hg]
        | succ n => simp [hlb, hg]

theorem memberCallback_none_inUse (pool : ConnectionPool) : (pool.memberCallback none).inUse = pool.inUse := by
  unfold memberCallback
  split
  · rfl
  · split <;> rfl

end ConnectionPool

open ConnectionPool

/-- A connection that was established for a member that waits at the front has the current generation, or joins
one of a service. -/
def EstablishedCurrent (pool : ConnectionPool) : PoolEvent → Prop
  | .connected attempt serviceId => pool.closed = false → attempt.forMember = true → pool.FrontWaits →
      (pool.generations.loadBalanced = true ∧ serviceId.isSome) ∨ attempt.generation = pool.generations.generation
  | _ => True

theorem connected_current_iff {pool : ConnectionPool} {attempt : Attempt} {serviceId : Option ObjectId} :
    (∀ connection, HandsOut pool (pool.connected attempt serviceId) connection →
        (pool.connected attempt serviceId).generations.Current connection) ↔
      EstablishedCurrent pool (.connected attempt serviceId) := by
  unfold ConnectionPool.connected EstablishedCurrent
  simp only
  cases hclosed : pool.closed with
  | true =>
    refine iff_of_true (fun connection h => absurd h (not_handsOut le_rfl)) fun h => (nomatch h)
  | false =>
    cases hmember : attempt.forMember with
    | false =>
      refine iff_of_true (fun connection h => absurd h (not_handsOut le_rfl)) fun _ h => (nomatch h)
    | true =>
      simp only [Bool.false_eq_true, if_false, if_true, true_implies, memberCallback_generations]
      rw [← adopt_current pool.generations { id := attempt.id, generation := attempt.generation, serviceId }]
      generalize pool.generations.adopt { id := attempt.id, generation := attempt.generation, serviceId } = adopted
      have hiff : ∀ connection, HandsOut pool (memberCallback
            { pool with attempts := pool.attempts.erase attempt, closed := false, generations := adopted.1 }
            (some adopted.2)) connection ↔ pool.FrontWaits ∧ connection = adopted.2 :=
        fun connection => memberCallback_handsOut rfl rfl
      constructor
      · intro h hfront
        exact h _ ((hiff _).2 ⟨hfront, rfl⟩)
      · intro h connection hand
        obtain ⟨hfront, rfl⟩ := (hiff _).1 hand
        exact h hfront

/-- One event hands out current connections only, exactly when it meets the condition. -/
theorem PoolStep.current_iff {options : PoolOptions} {pool pool' : ConnectionPool} {e : PoolEvent}
    (hstep : PoolStep options pool e pool') :
    EstablishedCurrent pool e ↔ ∀ connection, HandsOut pool pool' connection →
      pool'.generations.Current connection := by
  have hnone : pool'.inUse.length ≤ pool.inUse.length →
      ∀ connection, HandsOut pool pool' connection → pool'.generations.Current connection :=
    fun hle connection h => absurd h (not_handsOut hle)
  cases hstep with
  | checkOut member =>
    refine iff_of_true trivial (hnone ?_)
    unfold ConnectionPool.checkOut
    split <;> exact le_rfl
  | checkIn hmem =>
    refine iff_of_true trivial (hnone ?_)
    unfold ConnectionPool.checkIn
    simp only
    split <;> exact List.length_erase_le
  | clear serviceId =>
    refine iff_of_true trivial (hnone ?_)
    unfold ConnectionPool.clear
    split <;> exact le_rfl
  | close =>
    refine iff_of_true trivial (hnone ?_)
    unfold ConnectionPool.close
    split <;> exact le_rfl
  | closeConnection id => exact iff_of_true trivial (hnone (List.length_map _).le)
  | turn idleTime hloop => exact iff_of_true trivial fun connection h => turn_current h
  | tick hloop hticks =>
    refine iff_of_true trivial (hnone ?_)
    unfold startPass
    split <;> exact le_rfl
  | timeOut member hloop => exact iff_of_true trivial (hnone le_rfl)
  | connected serviceId hloop hmem => exact connected_current_iff.symm
  | @connectFailed attempt hloop hmem =>
    refine iff_of_true trivial (hnone ?_)
    unfold ConnectionPool.connectFailed
    simp only
    split
    · exact (congrArg List.length (memberCallback_none_inUse _)).le
    · exact le_rfl
  | ensureMinPoolSize hloop =>
    refine iff_of_true trivial (hnone ?_)
    unfold ConnectionPool.ensureMinPoolSize
    split
    · exact le_rfl
    · obtain ⟨new, permits, counter, hf⟩ := foldl_createConnection
        (List.range ((options.minPoolSize : Int) - pool.totalConnectionCount options).toNat) pool
      rw [hf]
  | connectionsDestroyed hclosed => exact iff_of_true trivial (hnone le_rfl)

/-- For every run of a pool: each connection handed out has, at that moment, the current generation of the pool or
of its service, exactly when no connection is established for a waiting member after the pool was cleared during
its attempt. -/
theorem handOut_current_iff (options : PoolOptions) (es : List PoolEvent) (pool : ConnectionPool)
    (hrun : Run.exec (poolStep options) (.new options) es = some pool) :
    (∀ es₁ e es₂ before after, es = es₁ ++ e :: es₂ → Run.exec (poolStep options) (.new options) es₁ = some before →
        poolStep options before e = some after →
        ∀ connection, HandsOut before after connection → after.generations.Current connection) ↔
      Run.Meets (poolStep options) EstablishedCurrent (.new options) es :=
  (Run.meets_iff_steps (poolStep options) (fun _ _ _ h => (poolStep_cases h).current_iff) hrun).symm

/-- A member is served by a connection that is established while nothing is cleared. -/
def undisturbed : List PoolEvent := [.clear none, .checkOut 0, .tick, .turn 0, .connected ⟨1, 1, true⟩ none]

theorem undisturbed_current : ∃ pool, Run.exec (poolStep {}) (.new {}) undisturbed = some pool ∧
    pool.answers = [(0, .connection 1)] ∧
    ∀ es₁ e es₂ before after, undisturbed = es₁ ++ e :: es₂ → Run.exec (poolStep {}) (.new {}) es₁ = some before →
      poolStep {} before e = some after →
      ∀ connection, HandsOut before after connection → after.generations.Current connection := by
  refine ⟨_, rfl, rfl, (handOut_current_iff {} undisturbed _ rfl).2 ?_⟩
  exact .cons trivial rfl <| .cons trivial rfl <| .cons trivial rfl <| .cons trivial rfl <|
    .cons (fun _ _ _ => .inr rfl) rfl trivial

/-- The pool is cleared while a connection is being established, which is then handed out. -/
theorem cleared_connection_handed_out : ∃ before after connection,
    Run.exec (poolStep {}) (.new {}) [.checkOut 0, .tick, .turn 0, .clear none] = some before ∧
      poolStep {} before (.connected ⟨1, 0, true⟩ none) = some after ∧ HandsOut before after connection ∧
      ¬ after.generations.Current connection :=
  ⟨_, _, ⟨1, 0, none, false⟩, rfl, rfl, ⟨rfl, 0, rfl⟩, fun h => (nomatch h)⟩

end MongoDriver.Cmap
