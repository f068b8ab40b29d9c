/-
Topology-version freshness. A stored description, an error of the server and an incoming description
are all ordered by `compareTopologyVersion`, which reads the left-hand counter in place of a
right-hand one that is a `Long`: such versions of one process always compare as equivalent. This
module says on which versions each of the three uses is right all the same.
-/
import MongoDriver.Sdam.Election
import MongoDriver.Sdam.Server
import MongoDriver.Sdam.Topology

namespace MongoDriver.Sdam

/-! ## The comparison -/

section Compare

variable {lhs rhs : TopologyVersion}

theorem compareTopologyVersion_long (hp : lhs.processId = rhs.processId) (hl : rhs.counter.isLong = true) :
    compareTopologyVersion (some lhs) (some rhs) = 0 := by
  unfold compareTopologyVersion
  simp only [hp, hl, if_true]
  rw [Counter.compare_eq]
  split <;> simp

theorem compareTopologyVersion_number (hp : lhs.processId = rhs.processId) (hl : rhs.counter.isLong = false) :
    compareTopologyVersion (some lhs) (some rhs) = (lhs.counter.value - rhs.counter.value).sign := by
  unfold compareTopologyVersion
  simp only [hp, hl, Bool.false_eq_true, if_true, if_false]
  rw [Counter.compare_eq]
  split <;> rfl

theorem compareTopologyVersion_process (hp : lhs.processId ≠ rhs.processId) :
    compareTopologyVersion (some lhs) (some rhs) = -1 := by
  unfold compareTopologyVersion
  simp only [if_neg hp]

/-- The comparison is that of the counters unless the right-hand one is a different `Long`. -/
theorem compareTopologyVersion_sign (hp : lhs.processId = rhs.processId) :
    (compareTopologyVersion (some lhs) (some rhs)).sign = (lhs.counter.value - rhs.counter.value).sign ↔
      ¬ (rhs.counter.isLong = true ∧ lhs.counter.value ≠ rhs.counter.value) := by
  cases hl : rhs.counter.isLong with
  | false =>
    rw [compareTopologyVersion_number hp hl, Int.sign_sign]
    simp
  | true =>
    rw [compareTopologyVersion_long hp hl, Int.sign_zero, eq_comm, Int.sign_eq_zero_iff_zero]
    constructor
    · rintro h ⟨-, hne⟩; omega
    · intro h
      have : lhs.counter.value = rhs.counter.value := by simpa using h
      omega

end Compare

/-! ## Stored versions along a run -/

/-- The topology version stored for an address. -/
def storedVersion (t : Topology) (address : String) : Option TopologyVersion :=
  (t.description.servers.get? address).bind (·.topologyVersion)

/-- The description does not bring a `Long` counter below the one stored for its server and process. -/
def KeepsOrder (t : Topology) (sd : ServerDescription) : Prop :=
  ∀ stored incoming, storedVersion t sd.address = some stored → sd.topologyVersion = some incoming →
    stored.processId = incoming.processId → incoming.counter.isLong = true →
    stored.counter.value ≤ incoming.counter.value

/-- One call of the handler, as a step of a run. -/
def handlerStep (rt : Runtime) (t : Topology) (sd : ServerDescription) : Option Topology :=
  some (t.serverUpdateHandler rt sd).1

/-- A description that is not stale and keeps the order is not older than the stored one. -/
theorem le_of_not_stale {t : Topology} {sd : ServerDescription} {stored incoming : TopologyVersion}
    (hk : KeepsOrder t sd) (hs : isStaleServerDescription t.description sd = false)
    (h1 : storedVersion t sd.address = some stored) (h2 : sd.topologyVersion = some incoming)
    (hp : stored.processId = incoming.processId) : stored.counter.value ≤ incoming.counter.value := by
  cases hl : incoming.counter.isLong with
  | true => exact hk stored incoming h1 h2 hp hl
  | false =>
    unfold isStaleServerDescription at hs
    unfold storedVersion at h1
    rw [h1, h2, compareTopologyVersion_number hp hl] at hs
    simpa using hs

/-- One call never replaces a stored version by a smaller one of the same process. -/
theorem handler_keeps_order {rt : Runtime} {t : Topology} {sd : ServerDescription} (hk : KeepsOrder t sd)
    {address : String} {old new : TopologyVersion} (hold : storedVersion t address = some old)
    (hnew : storedVersion (t.serverUpdateHandler rt sd).1 address = some new)
    (hp : old.processId = new.processId) : old.counter.value ≤ new.counter.value := by
  rcases t.serverUpdateHandler_cases rt sd with hd | ⟨hs, hu⟩
  · unfold storedVersion at hold hnew
    rw [hd, hold] at hnew
    cases hnew; exact le_refl _
  · obtain ⟨applied, happ, hf⟩ := update_forgets hu
    obtain ⟨s, hget, hver⟩ := Option.bind_eq_some_iff.1 hnew
    -- a fresh entry carries no version, so this one was stored before or is the applied one
    have hfresh : ¬ s.IsFresh := fun h => by rw [h.topologyVersion] at hver; cases hver
    rcases hf address s hget with hset | hset
    swap
    · exact absurd hset hfresh
    rw [OrderedMap.get?_set] at hset
    split at hset
    · rename_i ha
      cases hset
      rcases happ with rfl | h
      · subst ha
        exact le_of_not_stale hk hs hold hver hp
      · exact absurd h hfresh
    · unfold storedVersion at hold
      rw [hset] at hold
      change s.topologyVersion = some old at hold
      rw [hver] at hold
      cases hold; exact le_refl _

/-- The version stored for the address is one of the process. -/
def InProcess (address : String) (processId : ObjectId) (t : Topology) : Prop :=
  ∃ version, storedVersion t address = some version ∧ version.processId = processId

/-- Along a run during which the stored version stays one of a process, its counter never
decreases. -/
theorem run_keeps_order {rt : Runtime} {sds : List ServerDescription} {t t' : Topology} {address : String}
    {processId : ObjectId} {old new : TopologyVersion} (hk : Run.Meets (handlerStep rt) KeepsOrder t sds)
    (hproc : Run.Meets (handlerStep rt) (fun u _ => InProcess address processId u) t sds)
    (hrun : Run.exec (handlerStep rt) t sds = some t') (hold : storedVersion t address = some old)
    (hnew : storedVersion t' address = some new) (hnp : new.processId = processId) :
    old.counter.value ≤ new.counter.value := by
  have hinv : ∀ version, storedVersion t' address = some version → version.processId = processId →
      old.counter.value ≤ version.counter.value := by
    refine Run.exec_inv_meets (C := fun u sd => KeepsOrder u sd ∧ InProcess address processId u)
      (P := fun u => ∀ version, storedVersion u address = some version → version.processId = processId →
        old.counter.value ≤ version.counter.value) (handlerStep rt) ?_ ?_ (Run.meets_and (handlerStep rt) hk hproc) hrun
    · rintro u sd u' hu ⟨hko, version, hver, hvp⟩ hstep version' hver' hvp'
      cases hstep
      exact (hu version hver hvp).trans (handler_keeps_order hko hver hver' (hvp.trans hvp'.symm))
    · intro version hver _
      rw [hold] at hver
      cases hver; exact le_refl _
  exact hinv new hnew hnp

/-! ## State-change errors -/

/-- The error carries no version, one of another process than the server's, or a newer one. -/
def ErrorIsNewer (server : Server) (err : AnyError) : Prop :=
  ∀ stv etv, server.description.topologyVersion = some stv → err.topologyVersion = some etv →
    stv.processId = etv.processId → stv.counter.value < etv.counter.value

/-- The error carries a newer `Long` version of the server's process. -/
def NewerLong (server : Server) (err : AnyError) : Prop :=
  ∃ stv etv, server.description.topologyVersion = some stv ∧ err.topologyVersion = some etv ∧
    stv.processId = etv.processId ∧ etv.counter.isLong = true ∧ stv.counter.value < etv.counter.value

theorem NewerLong.isNewer {server : Server} {err : AnyError} (h : NewerLong server err) :
    ErrorIsNewer server err := by
  obtain ⟨stv, etv, h1, h2, -, -, hlt⟩ := h
  intro s e hs he _
  rw [h1] at hs; cases hs
  rw [h2] at he; cases he
  exact hlt

/-- A newer `Long` version is taken for an equivalent one; in every other case the decision is right. -/
theorem shouldHandleStateChangeError_iff (server : Server) (err : AnyError) :
    shouldHandleStateChangeError server err = true ↔ ErrorIsNewer server err ∧ ¬ NewerLong server err := by
  unfold shouldHandleStateChangeError ErrorIsNewer NewerLong
  rw [decide_eq_true_eq]
  cases hs : server.description.topologyVersion with
  | none => simp [compareTopologyVersion]
  | some stv =>
    cases he : err.topologyVersion with
    | none => simp [compareTopologyVersion]
    | some etv =>
      by_cases hp : stv.processId = etv.processId
      · -- a Long of the error is never compared: the result is 0
        cases hl : etv.counter.isLong with
        | true => rw [compareTopologyVersion_long hp hl]; simp [hp, hl]
        | false =>
          rw [compareTopologyVersion_number hp hl]
          simp only [Int.sign_neg_iff, Option.some.injEq]
          constructor
          · intro h
            constructor
            · rintro s e rfl rfl -; omega
            · rintro ⟨s, e, rfl, rfl, -, he, -⟩
              rw [hl] at he; cases he
          · rintro ⟨h, -⟩
            have := h stv etv rfl rfl hp
            omega
      · rw [compareTopologyVersion_process hp]
        simp [hp]

section Handler

variable (rt : Runtime) {server : Server} {op : Operation} {err : AnyError}

theorem clearPool_not_mem_mark (serviceId : Option ObjectId) (e : AnyError) :
    .clearPool serviceId ∉ markServerUnknown rt server e := by
  unfold markServerUnknown
  split
  · simp
  · split <;> simp

theorem mem_stateChangeEffects_clear (op : Operation) :
    (∃ serviceId, .clearPool serviceId ∈ stateChangeEffects rt server op err) ↔
      maxWireVersion server ≤ 7 ∨ err.isNodeShuttingDownError = true := by
  unfold stateChangeEffects
  constructor
  · rintro ⟨serviceId, hmem⟩
    rcases List.mem_append.1 hmem with h | h
    · split at h
      · assumption
      · cases h
    · split at h
      · cases h
      · rcases List.mem_append.1 h with h | h
        · exact absurd h (clearPool_not_mem_mark rt _ _)
        · simp at h
  · intro h
    rw [if_pos h]
    exact ⟨op.connection.serviceId, by simp⟩

theorem mem_stateChangeEffects_mark (op : Operation) (err : AnyError) :
    (∃ sd, .descriptionReceived sd ∈ stateChangeEffects rt server op err) ↔ server.loadBalanced = false := by
  unfold stateChangeEffects
  cases hb : server.loadBalanced with
  | true =>
    simp only [if_true, List.append_nil, Bool.true_eq_false, iff_false, not_exists]
    intro sd h
    split at h <;> simp at h
  | false =>
    simp only [Bool.false_eq_true, if_false, iff_true]
    unfold markServerUnknown
    rw [hb]
    exact ⟨_, List.mem_append_right _ (List.mem_append_left _ (List.mem_append_right _ (List.mem_singleton_self _)))⟩

/-- What the handler does to the pool and the description on a state-change error. -/
theorem handler_effects (hstale : connectionIsStale server.pool op.connection = false)
    (hnet : err.isNetworkError = false) (hsdam : err.isSDAMUnrecoverableError = true) :
    ∃ e, e.isNodeShuttingDownError = err.isNodeShuttingDownError ∧ ∀ effect, effect ≠ .unpinSession →
      (effect ∈ (makeOperationHandler rt server op (some err)).1 ↔
        shouldHandleStateChangeError server err = true ∧ effect ∈ stateChangeEffects rt server op e) := by
  -- the error is passed on with a label or without; neither changes what is decided
  have hserver : ∃ e, e.isNodeShuttingDownError = err.isNodeShuttingDownError ∧
      handleServerError rt server op err =
        (if shouldHandleStateChangeError server err then stateChangeEffects rt server op e else [], e) := by
    unfold handleServerError
    simp only
    generalize hc : ((server.retryWrites || op.isTransactionCommand) && decide (maxWireVersion server < 9) &&
      err.isRetryableWriteError && !inActiveTransaction op) = c
    cases c with
    | false =>
      refine ⟨err, rfl, ?_⟩
      simp only [Bool.false_eq_true, if_false, hsdam, true_and]
      split <;> rfl
    | true =>
      refine ⟨err.addErrorLabel "RetryableWriteError", by simp, ?_⟩
      have hsh : shouldHandleStateChangeError server (err.addErrorLabel "RetryableWriteError") =
          shouldHandleStateChangeError server err := by
        unfold shouldHandleStateChangeError; rw [addErrorLabel_topologyVersion]
      simp only [if_true, addErrorLabel_isSDAMUnrecoverableError, hsdam, true_and, hsh]
      split <;> rfl
  obtain ⟨e, hee, hserver⟩ := hserver
  refine ⟨e, hee, fun effect he => ?_⟩
  unfold makeOperationHandler
  simp only [hstale, Bool.false_eq_true, if_false, hnet, hserver]
  rw [List.mem_append]
  have hun : effect ∉ (if (op.session.any (·.isPinned) && e.hasErrorLabel "TransientTransactionError") = true then
      [ServerEffect.unpinSession] else []) := by
    split
    · simpa using he
    · simp
  rw [or_iff_left hun]
  split
  · simp [*]
  · simp [*]

/-- The handler clears the pool and marks the server unknown exactly when the error is newer. -/
structure ActsWhenNewer (server : Server) (err : AnyError) (effects : List ServerEffect) : Prop where
  clear : (∃ serviceId, .clearPool serviceId ∈ effects) ↔
    ErrorIsNewer server err ∧ (maxWireVersion server ≤ 7 ∨ err.isNodeShuttingDownError = true)
  mark : (∃ sd, .descriptionReceived sd ∈ effects) ↔ ErrorIsNewer server err ∧ server.loadBalanced = false

theorem actsWhenNewer_iff (hstale : connectionIsStale server.pool op.connection = false)
    (hnet : err.isNetworkError = false) (hsdam : err.isSDAMUnrecoverableError = true) :
    ActsWhenNewer server err (makeOperationHandler rt server op (some err)).1 ↔
      ¬ (NewerLong server err ∧ (server.loadBalanced = false ∨ err.isNodeShuttingDownError = true)) := by
  obtain ⟨e, hshut, heff⟩ := handler_effects rt hstale hnet hsdam
  have hclear : (∃ serviceId, .clearPool serviceId ∈ (makeOperationHandler rt server op (some err)).1) ↔
      shouldHandleStateChangeError server err = true ∧
        (maxWireVersion server ≤ 7 ∨ err.isNodeShuttingDownError = true) := by
    rw [← hshut, ← mem_stateChangeEffects_clear rt op, ← exists_and_left]
    exact exists_congr fun serviceId => heff _ nofun
  have hmark : (∃ sd, .descriptionReceived sd ∈ (makeOperationHandler rt server op (some err)).1) ↔
      shouldHandleStateChangeError server err = true ∧ server.loadBalanced = false := by
    rw [← mem_stateChangeEffects_mark rt op e, ← exists_and_left]
    exact exists_congr fun sd => heff _ nofun
  have hnewer : NewerLong server err → ErrorIsNewer server err := NewerLong.isNewer
  constructor
  · rintro ⟨hc, hm⟩ ⟨hl, hb | hs⟩
    · have := (hmark.1 (hm.2 ⟨hnewer hl, hb⟩)).1
      exact ((shouldHandleStateChangeError_iff server err).1 this).2 hl
    · have := (hclear.1 (hc.2 ⟨hnewer hl, .inr hs⟩)).1
      exact ((shouldHandleStateChangeError_iff server err).1 this).2 hl
  · intro hn
    -- a load balancer counts as the latest version, so only a shutdown clears its pool
    have hwire : server.loadBalanced = true → ¬ maxWireVersion server ≤ 7 := by
      intro hb; unfold maxWireVersion; rw [if_pos hb]; decide
    refine ⟨hclear.trans ?_, hmark.trans ?_⟩
    · rw [shouldHandleStateChangeError_iff]
      refine ⟨fun h => ⟨h.1.1, h.2⟩, fun ⟨hne, hor⟩ => ⟨⟨hne, fun hl => ?_⟩, hor⟩⟩
      rcases hor with hw | hs
      · cases hb : server.loadBalanced with
        | true => exact hwire hb hw
        | false => exact hn ⟨hl, .inl hb⟩
      · exact hn ⟨hl, .inr hs⟩
    · rw [shouldHandleStateChangeError_iff]
      exact ⟨fun h => ⟨h.1.1, h.2⟩, fun ⟨hne, hb⟩ => ⟨⟨hne, fun hl => hn ⟨hl, .inl hb⟩⟩, hb⟩⟩

end Handler

/-! ## The three uses together -/

/-- Stored versions never go back along a run that brings no smaller `Long` counter of the stored
process; the comparison has the sign of the difference unless the right-hand counter is a different
`Long`; and a state-change error is acted upon exactly when it is newer, unless it is newer by a
`Long` counter and there is something to do. -/
theorem freshness (rt : Runtime) :
    (∀ (sds : List ServerDescription) (t t' : Topology) (address : String) (processId : ObjectId)
      (old new : TopologyVersion), Run.Meets (handlerStep rt) KeepsOrder t sds →
      Run.Meets (handlerStep rt) (fun u _ => InProcess address processId u) t sds →
      Run.exec (handlerStep rt) t sds = some t' → storedVersion t address = some old →
      storedVersion t' address = some new → new.processId = processId → old.counter.value ≤ new.counter.value) ∧
    (∀ lhs rhs : TopologyVersion, lhs.processId = rhs.processId →
      ((compareTopologyVersion (some lhs) (some rhs)).sign = (lhs.counter.value - rhs.counter.value).sign ↔
        ¬ (rhs.counter.isLong = true ∧ lhs.counter.value ≠ rhs.counter.value))) ∧
    (∀ (server : Server) (op : Operation) (err : AnyError), connectionIsStale server.pool op.connection = false →
      err.isNetworkError = false → err.isSDAMUnrecoverableError = true →
      (ActsWhenNewer server err (makeOperationHandler rt server op (some err)).1 ↔
        ¬ (NewerLong server err ∧ (server.loadBalanced = false ∨ err.isNodeShuttingDownError = true)))) :=
  ⟨fun _ _ _ _ _ _ _ hk hproc hrun hold hnew hnp => run_keeps_order hk hproc hrun hold hnew hnp,
    fun _ _ hp => compareTopologyVersion_sign hp,
    fun _ _ _ hstale hnet hsdam => actsWhenNewer_iff rt hstale hnet hsdam⟩

def lanVersion (isLong : Bool) (n : Fin 256) : TopologyVersion :=
  ⟨ObjectId.replicate 7, { isLong, value := n.val, lo := by omega, hi := by omega }⟩

/-- A reply of the primary that carries a topology version. -/
def lanVersioned (version : TopologyVersion) : ServerDescription :=
  .new lanRuntime (lanHost "a") (some { lanHello true with topologyVersion := some version })

/-- The topology of one seed, before any reply. -/
def lanTopology : Topology where
  description := initialDescription lanRuntime {} [lanHost "a"]
  servers := (initialDescription lanRuntime {} [lanHost "a"]).servers

/-- The topology after the replies. -/
def lanAfter (versions : List TopologyVersion) : Topology :=
  (versions.map lanVersioned).foldl (fun t sd => (t.serverUpdateHandler lanRuntime sd).1) lanTopology

def lanServer (version : TopologyVersion) : Server :=
  { hostAddress := lanHost "a", description := lanVersioned version }

/-- A `NotWritablePrimary` error of the server. -/
def lanStateChange (version : TopologyVersion) : AnyError :=
  { cls := .mongoServerError, message := "not primary", code := some MongoErrorCodes.notWritablePrimary,
    topologyVersion := some version }

def lanOperation : Operation := { connection := { id := 1, generation := 0 } }

/-- A later reply with an older `Long` counter replaces a newer one, `Long` counters 3 and 5 compare
as equivalent, and an error newer than the server's version is ignored. -/
theorem freshness_long_counters :
    storedVersion (lanAfter [lanVersion true 5]) "a:27017" = some (lanVersion true 5) ∧
    storedVersion (lanAfter [lanVersion true 5, lanVersion true 3]) "a:27017" = some (lanVersion true 3) ∧
    compareTopologyVersion (some (lanVersion true 3)) (some (lanVersion true 5)) = 0 ∧
    ¬ ActsWhenNewer (lanServer (lanVersion true 3)) (lanStateChange (lanVersion true 5))
      (makeOperationHandler lanRuntime (lanServer (lanVersion true 3)) lanOperation
        (some (lanStateChange (lanVersion true 5)))).1 := by
  refine ⟨by decide +kernel, by decide +kernel, by decide +kernel, fun h => ?_⟩
  have hnewer : ErrorIsNewer (lanServer (lanVersion true 3)) (lanStateChange (lanVersion true 5)) := by
    intro stv etv hs he _
    cases hs; cases he; decide
  obtain ⟨sd, hsd⟩ := h.mark.2 ⟨hnewer, rfl⟩
  have hnone : (makeOperationHandler lanRuntime (lanServer (lanVersion true 3)) lanOperation
      (some (lanStateChange (lanVersion true 5)))).1 = [] := by decide
  rw [hnone] at hsd
  cases hsd

/-- Plain-number counters 3 and 5: the stored one moves up, they compare as they should, and the newer
error is acted upon. -/
theorem freshness_number_counters :
    (3 : Int) ≤ 5 ∧ (compareTopologyVersion (some (lanVersion false 3)) (some (lanVersion false 5))).sign = -1 ∧
    ActsWhenNewer (lanServer (lanVersion false 3)) (lanStateChange (lanVersion false 5))
      (makeOperationHandler lanRuntime (lanServer (lanVersion false 3)) lanOperation
        (some (lanStateChange (lanVersion false 5)))).1 := by
  obtain ⟨hrun, hcmp, hacts⟩ := freshness lanRuntime
  refine ⟨?_, ?_, ?_⟩
  · have h3 : storedVersion (lanAfter [lanVersion false 3]) "a:27017" = some (lanVersion false 3) := by decide +kernel
    have h5 : storedVersion (lanAfter [lanVersion false 3, lanVersion false 5]) "a:27017" =
        some (lanVersion false 5) := by decide +kernel
    refine hrun [lanVersioned (lanVersion false 5)] (lanAfter [lanVersion false 3])
      (lanAfter [lanVersion false 3, lanVersion false 5]) "a:27017" (ObjectId.replicate 7)
      (lanVersion false 3) (lanVersion false 5) ⟨?_, fun _ _ => trivial⟩
        ⟨⟨_, h3, rfl⟩, fun _ _ => trivial⟩ rfl h3 h5 rfl
    intro stored incoming _ hi _ hl
    cases hi; cases hl
  · rw [(hcmp (lanVersion false 3) (lanVersion false 5) rfl).2 (by decide)]
    decide
  · refine (hacts (lanServer (lanVersion false 3)) lanOperation (lanStateChange (lanVersion false 5))
      (by decide) (by decide) (by decide)).2 ?_
    rintro ⟨⟨stv, etv, -, he, -, hl, -⟩, -⟩
    cases he; cases hl

end MongoDriver.Sdam
