/-
A server through an error storm (`makeOperationHandler` of `src/sdam/server.ts` with the pool of
`src/cmap/connection_pool.ts`). Operations run on connections that are checked out, and when the server goes away they
all fail. The first error on a connection of the current generation clears the pool; the others find their
connections stale and are passed on as they are. The pool may be cleared by anyone, and the description replaced at any
time.
-/
import MongoDriver.Cmap.HandOut
import MongoDriver.Sdam.Server

namespace MongoDriver.Sdam

open Cmap (Connection ConnectionPool Generations PoolEvent PoolOptions PoolStep poolStep poolStep_cases)

/-! ## State -/

/-- An outcome that was handled: what it did, and the error its callback received. -/
structure Handled where
  connection : Connection
  error : Option AnyError
  effects : List ServerEffect
  passed : Option AnyError

/-- What does not change in a run. -/
structure ServerSettings where
  hostAddress : HostAddress
  pool : PoolOptions := {}
  retryWrites : Bool := true

structure ServerState where
  pool : ConnectionPool
  description : ServerDescription
  handled : List Handled := []

/-- The server the handler reads. -/
def ServerState.server (settings : ServerSettings) (s : ServerState) : Server where
  hostAddress := settings.hostAddress
  description := s.description
  loadBalanced := settings.pool.loadBalanced
  retryWrites := settings.retryWrites
  pool := s.pool.generations

inductive ServerEvent
  | pool (e : PoolEvent)
  /-- the topology has a new description of the server -/
  | description (sd : ServerDescription)
  | outcome (op : Operation) (error : Option AnyError)

/-- An effect on the pool. -/
def ServerEffect.onPool (pool : ConnectionPool) : ServerEffect → ConnectionPool
  | .clearPool serviceId => pool.clear serviceId
  | _ => pool

namespace ServerState

/-- `handleOperationResult`. -/
def handleOperationResult (rt : Runtime) (settings : ServerSettings) (s : ServerState) (op : Operation)
    (error : Option AnyError) : ServerState :=
  let (effects, passed) := makeOperationHandler rt (s.server settings) op error
  { s with
    pool := effects.foldl ServerEffect.onPool s.pool
    handled := s.handled ++ [{ connection := op.connection, error, effects, passed }] }

/-- One event. An operation runs on a connection that is checked out. -/
def step (rt : Runtime) (settings : ServerSettings) (s : ServerState) : ServerEvent → Option ServerState
  | .pool e => (poolStep settings.pool s.pool e).map fun pool => { s with pool }
  | .description description => some { s with description }
  | .outcome op error =>
    if op.connection ∈ s.pool.inUse then some (s.handleOperationResult rt settings op error) else none

end ServerState

/-! ## Generations move on -/

/-- A generation of the connection's service, or of the pool, has come after the connection's. -/
def Outdated (g : Generations) (connection : Connection) : Prop :=
  match connection.serviceId with
  | some sid => ∃ generation, g.serviceGenerations.get? sid = some generation ∧ connection.generation < generation
  | none => connection.generation < g.generation

/-- Only behind a load balancer there are services. -/
structure Regular (loadBalanced : Bool) (g : Generations) : Prop where
  kind : g.loadBalanced = loadBalanced
  services : loadBalanced = false → ∀ sid, g.serviceGenerations.get? sid = none

section

variable {g g' : Generations} {connection : Connection} {loadBalanced : Bool} {serviceId : Option ObjectId}

theorem Outdated.stale (h : Outdated g connection) : connectionIsStale g connection = true := by
  unfold Outdated at h
  unfold connectionIsStale
  cases hs : connection.serviceId with
  | none =>
    simp only [hs] at h ⊢
    simpa using (by omega : connection.generation ≠ g.generation)
  | some sid =>
    simp only [hs] at h ⊢
    obtain ⟨generation, hget, hlt⟩ := h
    rw [hget]
    simpa using (by omega : connection.generation ≠ generation)

/-- What can become of the generations of a pool in one step. -/
inductive Moves (g : Generations) : Generations → Prop
  | same : Moves g g
  | clear {serviceId : Option ObjectId} {g' : Generations} (h : g.clear serviceId = .ok g') : Moves g g'
  | adopt (connection : Connection) : Moves g (g.adopt connection).1

theorem clear_cases (h : g.clear serviceId = .ok g') :
    (∃ sid generation, g.loadBalanced = true ∧ serviceId = some sid ∧
        g.serviceGenerations.get? sid = some generation ∧
        g' = { g with serviceGenerations := g.serviceGenerations.set sid (generation + 1) }) ∨
      ((g.loadBalanced = false ∨ serviceId = none) ∧ g' = { g with generation := g.generation + 1 }) := by
  unfold Generations.clear at h
  cases hlb : g.loadBalanced with
  | false =>
    simp only [hlb] at h
    cases h
    exact .inr ⟨.inl rfl, rfl⟩
  | true =>
    cases serviceId with
    | none =>
      simp only [hlb] at h
      cases h
      exact .inr ⟨.inr rfl, rfl⟩
    | some sid =>
      simp only [hlb] at h
      cases hget : g.serviceGenerations.get? sid with
      | none =>
        rw [hget] at h
        cases h
      | some generation =>
        rw [hget] at h
        cases h
        exact .inl ⟨sid, generation, rfl, rfl, hget, rfl⟩

/-- A service's generation that is missing or zero is set to zero, any other stays. -/
theorem adopt_cases (g : Generations) (established : Connection) :
    (g.adopt established).1 = g ∨ ∃ sid, g.loadBalanced = true ∧
      (g.serviceGenerations.get? sid = none ∨ g.serviceGenerations.get? sid = some 0) ∧
        (g.adopt established).1 = { g with serviceGenerations := g.serviceGenerations.set sid 0 } := by
  unfold Generations.adopt
  cases hlb : g.loadBalanced with
  | false => exact .inl rfl
  | true =>
    cases established.serviceId with
    | none => exact .inl rfl
    | some sid =>
      simp only
      cases hget : g.serviceGenerations.get? sid with
      | none => exact .inr ⟨sid, trivial, .inl hget, rfl⟩
      | some n =>
        cases n with
        | zero => exact .inr ⟨sid, trivial, .inr hget, rfl⟩
        | succ n => exact .inl rfl

theorem Outdated.moves (h : Outdated g connection) (hmoves : Moves g g') : Outdated g' connection := by
  cases hmoves with
  | same => exact h
  | clear hclear =>
    unfold Outdated at h ⊢
    obtain ⟨sid, generation, -, -, hget, rfl⟩ | ⟨-, rfl⟩ := clear_cases hclear
    · cases hs : connection.serviceId with
      | none => simpa [hs] using h
      | some sid' =>
        simp only [hs] at h ⊢
        obtain ⟨generation', hget', hlt⟩ := h
        by_cases heq : sid' = sid
        · subst heq
          obtain rfl := Option.some.inj (hget.symm.trans hget')
          exact ⟨generation + 1, OrderedMap.get?_set_self .., by omega⟩
        · exact ⟨generation', (OrderedMap.get?_set_ne _ _ heq).trans hget', hlt⟩
    · cases hs : connection.serviceId with
      | none =>
        simp only [hs] at h ⊢
        omega
      | some sid => simpa [hs] using h
  | adopt established =>
    obtain heq | ⟨sid, -, hzero, heq⟩ := adopt_cases g established
    · rw [heq]
      exact h
    · rw [heq]
      unfold Outdated at h ⊢
      cases hs : connection.serviceId with
      | none => simpa [hs] using h
      | some sid' =>
        simp only [hs] at h ⊢
        obtain ⟨generation, hget, hlt⟩ := h
        have hne : sid' ≠ sid := by
          rintro rfl
          rcases hzero with hnone | hzero
          · cases hnone.symm.trans hget
          · cases hzero.symm.trans hget
            omega
        exact ⟨generation, (OrderedMap.get?_set_ne _ _ hne).trans hget, hlt⟩

theorem Regular.moves (h : Regular loadBalanced g) (hmoves : Moves g g') : Regular loadBalanced g' := by
  cases hmoves with
  | same => exact h
  | clear hclear =>
    obtain ⟨sid, generation, hlb, -, -, rfl⟩ | ⟨-, rfl⟩ := clear_cases hclear
    · exact ⟨h.kind, fun hfalse => absurd (h.kind.symm.trans hlb) (by rw [hfalse]; decide)⟩
    · exact ⟨h.kind, h.services⟩
  | adopt established =>
    obtain heq | ⟨sid, hlb, -, heq⟩ := adopt_cases g established
    · rw [heq]
      exact h
    · rw [heq]
      exact ⟨h.kind, fun hfalse => absurd (h.kind.symm.trans hlb) (by rw [hfalse]; decide)⟩

/-- The generation a current connection is of comes to its end. -/
theorem outdated_of_clear (h : Regular loadBalanced g) (hcurrent : connectionIsStale g connection = false) :
    ∃ g', g.clear connection.serviceId = .ok g' ∧ Outdated g' connection := by
  unfold connectionIsStale at hcurrent
  unfold Generations.clear Outdated
  cases hs : connection.serviceId with
  | none =>
    simp only [hs, ne_eq, decide_not, Bool.not_eq_false', decide_eq_true_eq] at hcurrent
    cases hlb : g.loadBalanced <;> exact ⟨_, rfl, by show connection.generation < g.generation + 1; omega⟩
  | some sid =>
    simp only [hs, ne_eq, decide_not, Bool.not_eq_false', decide_eq_true_eq] at hcurrent
    have hlb : g.loadBalanced = true := by
      cases hlb : g.loadBalanced with
      | true => rfl
      | false =>
        have hnone := h.services (h.kind.symm.trans hlb) sid
        cases hcurrent.trans hnone
    simp only [hlb, ← hcurrent]
    exact ⟨_, rfl, connection.generation + 1, OrderedMap.get?_set_self .., by omega⟩

end

/-! ## The pool -/

section

variable {options : PoolOptions} {pool pool' : ConnectionPool} {e : PoolEvent}

theorem Moves.of_eq {g g' : Generations} (h : g' = g) : Moves g g' := by
  rw [h]
  exact .same

theorem clear_moves (pool : ConnectionPool) (serviceId : Option ObjectId) :
    Moves pool.generations (pool.clear serviceId).generations := by
  unfold ConnectionPool.clear
  cases hclear : pool.generations.clear serviceId with
  | ok g => exact .clear hclear
  | error e => exact .same

theorem poolStep_moves (h : PoolStep options pool e pool') : Moves pool.generations pool'.generations := by
  cases h with
  | checkOut member =>
    refine .of_eq ?_
    unfold ConnectionPool.checkOut
    split <;> rfl
  | checkIn hmem =>
    refine .of_eq ?_
    unfold ConnectionPool.checkIn
    simp only
    split <;> rfl
  | clear serviceId => exact clear_moves pool serviceId
  | close =>
    refine .of_eq ?_
    unfold ConnectionPool.close
    split <;> rfl
  | closeConnection id => exact .same
  | turn idleTime => exact .of_eq (ConnectionPool.turn_generations pool idleTime)
  | tick =>
    refine .of_eq ?_
    unfold ConnectionPool.startPass
    split <;> rfl
  | timeOut member => exact .same
  | connected serviceId hloop hmem =>
    rename_i attempt
    have hadopt := @Moves.adopt pool.generations { id := attempt.id, generation := attempt.generation, serviceId }
    unfold ConnectionPool.connected
    simp only
    split
    · exact .same
    · split
      · rw [ConnectionPool.memberCallback_generations]
        exact hadopt
      · exact hadopt
  | connectFailed =>
    refine .of_eq ?_
    unfold ConnectionPool.connectFailed
    simp only
    split
    · exact ConnectionPool.memberCallback_generations _ _
    · rfl
  | ensureMinPoolSize =>
    refine .of_eq ?_
    unfold ConnectionPool.ensureMinPoolSize
    split
    · rfl
    · exact @List.foldlRecOn _ _ (fun p : ConnectionPool => p.generations = pool.generations) _ _ _ rfl
        fun _ hp _ _ => hp
  | connectionsDestroyed => exact .same

/-- What survives every move survives the effects of an outcome. -/
theorem foldl_onPool {P : Generations → Prop} (hP : ∀ g g', P g → Moves g g' → P g') (effects : List ServerEffect) :
    ∀ pool : ConnectionPool, P pool.generations → P (effects.foldl ServerEffect.onPool pool).generations := by
  induction effects with
  | nil => exact fun _ h => h
  | cons effect effects ih =>
    intro pool h
    refine ih _ ?_
    cases effect with
    | clearPool serviceId => exact hP _ _ h (clear_moves pool serviceId)
    | _ => exact h

theorem foldl_onPool_outdated {connection : Connection} (h : Outdated pool.generations connection)
    (effects : List ServerEffect) : Outdated (effects.foldl ServerEffect.onPool pool).generations connection :=
  @foldl_onPool (Outdated · connection) (fun _ _ ho hm => ho.moves hm) effects pool h

end

/-! ## Outcomes -/

def NoClear (effects : List ServerEffect) : Prop := ∀ serviceId, .clearPool serviceId ∉ effects

/-- The outcome ended a generation, or stopped the monitor's check because the network failed. -/
def Handled.Clears (x : Handled) : Prop :=
  (∃ serviceId, .clearPool serviceId ∈ x.effects) ∨ .resetMonitor ∈ x.effects

section

variable {rt : Runtime} {server : Server} {op : Operation} {err : AnyError}

theorem noClear_markServerUnknown (rt : Runtime) (server : Server) (err : AnyError) :
    NoClear (markServerUnknown rt server err) := by
  intro serviceId hmem
  unfold markServerUnknown at hmem
  split_ifs at hmem <;> simp at hmem

theorem foldl_onPool_noClear {effects : List ServerEffect} (h : NoClear effects) (pool : ConnectionPool) :
    effects.foldl ServerEffect.onPool pool = pool := by
  induction effects with
  | nil => rfl
  | cons effect effects ih =>
    have hrest : NoClear effects := fun serviceId hmem => h serviceId (List.mem_cons_of_mem _ hmem)
    cases effect with
    | clearPool serviceId => exact absurd List.mem_cons_self (h serviceId)
    | _ => exact ih hrest

/-- The effects clear the pool for the service of the connection before anything else touches it, or they neither
clear it nor stop the monitor's check. -/
def Clearing (op : Operation) (effects : List ServerEffect) : Prop :=
  (NoClear effects ∧ .resetMonitor ∉ effects) ∨
    ∃ before after, effects = before ++ .clearPool op.connection.serviceId :: after ∧ NoClear before

theorem Clearing.unpin {effects : List ServerEffect} (h : Clearing op effects) (isPinned : Bool) :
    Clearing op (effects ++ if isPinned then [.unpinSession] else []) := by
  rcases h with ⟨hclear, hreset⟩ | ⟨before, after, rfl, hbefore⟩
  · left
    constructor
    · intro serviceId hmem
      rcases List.mem_append.1 hmem with hmem | hmem
      · exact hclear serviceId hmem
      · split_ifs at hmem <;> simp at hmem
    · intro hmem
      rcases List.mem_append.1 hmem with hmem | hmem
      · exact hreset hmem
      · split_ifs at hmem <;> simp at hmem
  · exact .inr ⟨before, after ++ if isPinned then [.unpinSession] else [], by simp, hbefore⟩

theorem clearing_nil : Clearing op [] := .inl ⟨fun _ => List.not_mem_nil, List.not_mem_nil⟩

theorem handleNetworkError_clearing (rt : Runtime) (server : Server) (op : Operation) (err : AnyError) :
    Clearing op (handleNetworkError rt server op err).1 := by
  have hdirty : ∀ ended : Bool, NoClear (if ended then [.markSessionDirty] else []) := by
    intro ended serviceId hmem
    split_ifs at hmem <;> simp at hmem
  unfold handleNetworkError
  simp only
  split_ifs with hended hreset hbalanced hreset hreset hbalanced hreset
  all_goals first
    | exact .inr ⟨_, _, rfl, hdirty true⟩
    | exact .inr ⟨_, _, rfl, hdirty false⟩
    | exact .inl ⟨hdirty true, by simp⟩
    | exact .inl ⟨hdirty false, by simp⟩

theorem stateChangeEffects_clearing (hnetwork : err.cls ≠ .mongoNetworkError) :
    Clearing op (stateChangeEffects rt server op err) := by
  unfold stateChangeEffects
  split_ifs with hclear hbalanced hbalanced
  · exact .inr ⟨[], _, rfl, fun _ => List.not_mem_nil⟩
  · exact .inr ⟨[], _, rfl, fun _ => List.not_mem_nil⟩
  · exact clearing_nil
  · left
    rw [List.nil_append]
    constructor
    · intro serviceId hmem
      rcases List.mem_append.1 hmem with hmem | hmem
      · exact noClear_markServerUnknown rt server err serviceId hmem
      · simp at hmem
    · simp [markServerUnknown, hnetwork]

theorem handleServerError_clearing (hnetwork : err.isNetworkError = false) :
    Clearing op (handleServerError rt server op err).1 := by
  have hcls : err.cls ≠ .mongoNetworkError := by
    intro hcls
    simp [AnyError.isNetworkError, hcls] at hnetwork
  have hlabel : (err.addErrorLabel "RetryableWriteError").cls ≠ .mongoNetworkError := by
    unfold AnyError.addErrorLabel
    split <;> exact hcls
  unfold handleServerError
  simp only
  split
  · split
    · exact stateChangeEffects_clearing hlabel
    · exact clearing_nil
  · split
    · exact stateChangeEffects_clearing hcls
    · exact clearing_nil

theorem makeOperationHandler_stale (hstale : connectionIsStale server.pool op.connection = true)
    (error : Option AnyError) : makeOperationHandler rt server op error = ([], error) := by
  cases error with
  | none => rfl
  | some err => simp only [makeOperationHandler, hstale, if_true]

theorem makeOperationHandler_clearing (error : Option AnyError) :
    Clearing op (makeOperationHandler rt server op error).1 := by
  cases error with
  | none => exact clearing_nil
  | some err =>
    unfold makeOperationHandler
    simp only
    split
    · exact clearing_nil
    · cases hnetwork : err.isNetworkError with
      | true => exact (handleNetworkError_clearing rt server op err).unpin _
      | false => exact (handleServerError_clearing hnetwork).unpin _

end

/-! ## Storms -/

/-- The outcome was that of an operation on a connection of the same service and generation. -/
def Handled.SameGeneration (x y : Handled) : Prop :=
  y.connection.serviceId = x.connection.serviceId ∧ y.connection.generation = x.connection.generation

theorem Outdated.of_same {g : Generations} {x y : Handled} (h : Outdated g x.connection) (hsame : x.SameGeneration y) :
    Outdated g y.connection := by
  unfold Outdated at h ⊢
  rw [hsame.1, hsame.2]
  exact h

/-- The error did nothing and is passed on. -/
def Handled.Ignored (x : Handled) : Prop := x.effects = [] ∧ x.passed = x.error

namespace ServerState

/-- What every run keeps. -/
structure Kept (settings : ServerSettings) (s : ServerState) : Prop where
  regular : Regular settings.pool.loadBalanced s.pool.generations
  outdated : ∀ x ∈ s.handled, x.Clears → Outdated s.pool.generations x.connection
  ignored : s.handled.Pairwise fun x y => x.Clears → x.SameGeneration y → y.Ignored

variable {rt : Runtime} {settings : ServerSettings} {s s' : ServerState}

theorem Kept.handleOperationResult (h : s.Kept settings) (rt : Runtime) (op : Operation) (error : Option AnyError) :
    (s.handleOperationResult rt settings op error).Kept settings := by
  have hclearing : Clearing op (makeOperationHandler rt (s.server settings) op error).1 :=
    makeOperationHandler_clearing error
  constructor
  · exact foldl_onPool (fun _ _ hr hm => hr.moves hm) _ _ h.regular
  · intro x hx hclears
    rcases List.mem_append.1 hx with hx | hx
    · exact foldl_onPool_outdated (h.outdated x hx hclears) _
    · obtain rfl := List.mem_singleton.1 hx
      rcases hclearing with ⟨hclear, hreset⟩ | ⟨before, after, heffects, hbefore⟩
      · rcases hclears with ⟨serviceId, hmem⟩ | hmem
        · exact absurd hmem (hclear serviceId)
        · exact absurd hmem hreset
      · have hcurrent : connectionIsStale s.pool.generations op.connection = false := by
          cases hstale : connectionIsStale s.pool.generations op.connection with
          | false => rfl
          | true =>
            rw [show makeOperationHandler rt (s.server settings) op error = ([], error) from
              makeOperationHandler_stale hstale error] at heffects
            simp at heffects
        obtain ⟨g, hg, houtdated⟩ := outdated_of_clear h.regular hcurrent
        show Outdated (((makeOperationHandler rt (s.server settings) op error).1).foldl ServerEffect.onPool
          s.pool).generations op.connection
        rw [heffects, List.foldl_append, foldl_onPool_noClear hbefore, List.foldl_cons]
        refine foldl_onPool_outdated ?_ after
        show Outdated (s.pool.clear op.connection.serviceId).generations op.connection
        unfold ConnectionPool.clear
        rw [hg]
        exact houtdated
  · refine List.pairwise_append.2 ⟨h.ignored, List.pairwise_singleton .., ?_⟩
    intro x hx y hy hclears hsame
    obtain rfl := List.mem_singleton.1 hy
    have hstale := ((h.outdated x hx hclears).of_same hsame).stale
    have hresult : makeOperationHandler rt (s.server settings) op error = ([], error) :=
      makeOperationHandler_stale hstale error
    exact ⟨congrArg Prod.fst hresult, congrArg Prod.snd hresult⟩

theorem Kept.step {e : ServerEvent} (h : s.Kept settings) (hstep : s.step rt settings e = some s') :
    s'.Kept settings := by
  cases e with
  | pool e =>
    obtain ⟨pool, hpool, rfl⟩ := Option.map_eq_some_iff.1 hstep
    have hmoves := poolStep_moves (poolStep_cases hpool)
    constructor
    · exact h.regular.moves hmoves
    · exact fun x hx hclears => (h.outdated x hx hclears).moves hmoves
    · exact h.ignored
  | description description =>
    cases hstep
    exact ⟨h.regular, h.outdated, h.ignored⟩
  | outcome op error =>
    simp only [ServerState.step] at hstep
    split at hstep
    · cases hstep
      exact h.handleOperationResult rt op error
    · cases hstep

end ServerState

/-- In every run of a server and its pool, once the error of an operation has cleared the pool or stopped the monitor's
check, the outcome of every other operation on a connection of that service and generation does nothing and is passed
on as it is, with no label; and a connection whose error cleared the pool stays stale for ever. -/
theorem storm_clears_once (rt : Runtime) (settings : ServerSettings) {description : ServerDescription}
    {es : List ServerEvent} {s : ServerState}
    (hrun : Run.exec (ServerState.step rt settings) { pool := .new settings.pool, description } es = some s) :
    (s.handled.Pairwise fun x y => x.Clears → x.SameGeneration y → y.Ignored) ∧
      ∀ x ∈ s.handled, x.Clears → connectionIsStale s.pool.generations x.connection = true := by
  have h : s.Kept settings := Run.exec_inv (ServerState.step rt settings) (fun _ _ _ h hstep => h.step hstep)
    ⟨⟨rfl, fun _ _ => rfl⟩, fun _ hx => absurd hx List.not_mem_nil, .nil⟩ hrun
  exact ⟨h.ignored, fun x hx hclears => (h.outdated x hx hclears).stale⟩

private def stormRuntime : Runtime where
  url _ := none
  decodeURIComponent text := some text
  toLowerCase text := text

private def reset : AnyError := { cls := .mongoNetworkError, message := "read ECONNRESET" }

/-- Two operations are under way when the server goes away: the first error clears the pool, the second does nothing. -/
theorem two_resets_clear_once :
    ∃ es s, Run.exec (ServerState.step stormRuntime { hostAddress := .tcp "a" 27017 false })
        { pool := .new {}, description := { address := "a:27017", type := .standalone } } es = some s ∧
      s.handled.map (fun x => (x.connection.id, x.effects.length)) = [(1, 3), (2, 0)] ∧
      (s.handled.Pairwise fun x y => x.Clears → x.SameGeneration y → y.Ignored) ∧
      ∀ x ∈ s.handled, x.Clears → connectionIsStale s.pool.generations x.connection = true := by
  have h : (Run.exec (ServerState.step stormRuntime { hostAddress := .tcp "a" 27017 false })
      { pool := .new {}, description := { address := "a:27017", type := .standalone } }
      [.pool (.checkOut 1), .pool .tick, .pool (.turn 0), .pool (.connected ⟨1, 0, true⟩ none),
        .pool (.checkOut 2), .pool .tick, .pool (.turn 0), .pool (.connected ⟨2, 0, true⟩ none),
        .outcome { connection := { id := 1, generation := 0 } } (some reset),
        .outcome { connection := { id := 2, generation := 0 } } (some reset)]).map
      (fun s => s.handled.map fun x => (x.connection.id, x.effects.length)) = some [(1, 3), (2, 0)] := by decide
  obtain ⟨s, hrun, heq⟩ := Option.map_eq_some_iff.1 h
  obtain ⟨hignored, hstale⟩ := storm_clears_once stormRuntime _ hrun
  exact ⟨_, s, hrun, heq, hignored, hstale⟩

end MongoDriver.Sdam
