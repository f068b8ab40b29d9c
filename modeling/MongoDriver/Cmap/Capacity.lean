/-
Capacity of an open pool: the permits left are the maximum less the connections that exist or are
being established, in every reachable state, so that these never exceed the maximum. Permits are
taken and returned in four places; the balance below holds around each of them.
-/
import MongoDriver.Base.Run
import MongoDriver.Cmap.ConnectionPool
import Mathlib.Data.List.Basic

namespace MongoDriver.Cmap

namespace ConnectionPool

/-- The connections that exist or are being established: available, checked out or attempted. -/
def existing (pool : ConnectionPool) : Nat := pool.connections.length + pool.inUse.length + pool.attempts.length

/-- The balance of permits of an open pool, with `spare` permits yet to be accounted for. -/
def Balanced (options : PoolOptions) (spare : Int) (pool : ConnectionPool) : Prop :=
  pool.closed = false → pool.permits + pool.existing = options.maxPoolSize + spare

variable {options : PoolOptions} {pool : ConnectionPool} {spare : Int}

/-- Only the four fields of the balance matter. -/
theorem Balanced.congr {pool' : ConnectionPool} (h : Balanced options spare pool) (h₁ : pool'.permits = pool.permits)
    (h₂ : pool'.existing = pool.existing) (h₃ : pool'.closed = pool.closed) : Balanced options spare pool' := by
  unfold Balanced at h ⊢
  rw [h₁, h₂, h₃]; exact h

theorem createConnection_balanced (h : Balanced options spare pool) (forMember : Bool) :
    Balanced options spare (pool.createConnection forMember) := by
  intro hopen
  have := h hopen
  simp only [createConnection, existing, List.length_append, List.length_singleton] at this ⊢
  push_cast at this ⊢
  omega

theorem destroyConnection_balanced (h : Balanced options (spare - 1) pool) :
    Balanced options spare pool.destroyConnection := by
  intro hopen
  have := h hopen
  simp only [destroyConnection, existing] at this ⊢
  omega

theorem checkOut_balanced (h : Balanced options 0 pool) (member : Nat) : Balanced options 0 (pool.checkOut member) := by
  unfold checkOut
  split
  · exact h
  · exact h.congr rfl rfl rfl

theorem checkIn_balanced (h : Balanced options 0 pool) {connection : Connection} (hmem : connection ∈ pool.inUse) :
    Balanced options 0 (pool.checkIn connection) := by
  have hlen : (pool.inUse.erase connection).length + 1 = pool.inUse.length := by
    have := List.length_pos_of_mem hmem
    rw [List.length_erase_of_mem hmem]; omega
  unfold checkIn
  simp only
  split
  · have hgone : Balanced options (0 - 1) { pool with
        inUse := pool.inUse.erase connection, checkedOut := pool.checkedOut - 1 } := by
      intro hopen
      have := h hopen
      simp only [existing] at this ⊢
      omega
    exact (destroyConnection_balanced hgone).congr rfl rfl rfl
  · intro hopen
    have := h hopen
    simp only [nextTick, existing, List.length_cons] at this ⊢
    omega

theorem clear_balanced (h : Balanced options 0 pool) (serviceId : Option ObjectId) :
    Balanced options 0 (pool.clear serviceId) := by
  unfold clear
  split
  · exact h.congr rfl rfl rfl
  · exact h

theorem close_balanced (h : Balanced options 0 pool) : Balanced options 0 pool.close := by
  unfold close
  split
  · exact h
  · exact nofun

theorem closeConnection_balanced (h : Balanced options 0 pool) (id : Nat) :
    Balanced options 0 (pool.closeConnection id) :=
  h.congr rfl (by simp [closeConnection, existing]) rfl

theorem ensureMinPoolSize_balanced (h : Balanced options 0 pool) :
    Balanced options 0 (pool.ensureMinPoolSize options) := by
  unfold ensureMinPoolSize
  split
  · exact h
  · exact List.foldlRecOn _ _ h fun _ hp _ _ => createConnection_balanced hp false

theorem startPass_balanced (h : Balanced options 0 pool) : Balanced options 0 pool.startPass := by
  unfold startPass
  split
  · exact h
  · exact h.congr rfl rfl rfl

theorem finishPass_balanced (h : Balanced options 0 pool) : Balanced options 0 (pool.finishPass options) := by
  unfold finishPass
  simp only
  split
  · exact createConnection_balanced (h.congr rfl rfl rfl) true
  · exact h.congr rfl rfl rfl

theorem turn_balanced (h : Balanced options 0 pool) (idleTime : Nat) :
    Balanced options 0 (pool.turn options idleTime) := by
  unfold turn
  split
  · exact finishPass_balanced h
  split
  · exact h.congr rfl rfl rfl
  split
  · exact finishPass_balanced h
  rename_i connection available hc
  simp only
  split
  · refine destroyConnection_balanced fun hopen => ?_
    have := h hopen
    simp only [existing, hc, List.length_cons] at this ⊢
    omega
  · refine fun hopen => ?_
    have := h hopen
    simp only [answer, existing, hc, List.length_cons] at this ⊢
    omega

/-- The callback accounts for the connection it is given. -/
theorem memberCallback_balanced (result : Option Connection)
    (h : Balanced options (-(result.toList.length : Int)) pool) : Balanced options 0 (pool.memberCallback result) := by
  unfold memberCallback
  split
  · intro hopen
    have := h hopen
    simp only [existing, List.length_append] at this ⊢
    omega
  split
  · intro hopen
    have := h hopen
    simp only [existing, List.length_append] at this ⊢
    omega
  · intro hopen
    have := h hopen
    simp only [nextTick, answer, existing, List.length_append] at this ⊢
    omega

theorem connectFailed_balanced (h : Balanced options 0 pool) {attempt : Attempt} (hmem : attempt ∈ pool.attempts) :
    Balanced options 0 (pool.connectFailed attempt) := by
  have hbal : Balanced options 0 { pool with
      permits := pool.permits + 1, attempts := pool.attempts.erase attempt } := by
    intro hopen
    have := h hopen
    have hpos := List.length_pos_of_mem hmem
    simp only [existing, List.length_erase_of_mem hmem] at this ⊢
    omega
  unfold connectFailed
  simp only
  split
  · exact memberCallback_balanced none (by simpa using hbal)
  · exact hbal

theorem connected_balanced (h : Balanced options 0 pool) {attempt : Attempt} (hmem : attempt ∈ pool.attempts)
    (serviceId : Option ObjectId) : Balanced options 0 (pool.connected attempt serviceId) := by
  unfold connected
  simp only
  split
  · rename_i hclosed
    intro hopen
    rw [hopen] at hclosed; cases hclosed
  · -- the attempt has ended and its connection is not listed yet
    have hbal : ∀ generations, Balanced options (-1) { pool with
        attempts := pool.attempts.erase attempt, generations := generations } := by
      intro generations hopen
      have := h hopen
      have hpos := List.length_pos_of_mem hmem
      simp only [existing, List.length_erase_of_mem hmem] at this ⊢
      omega
    split
    · exact memberCallback_balanced (some _) (hbal _)
    · intro hopen
      have := hbal (pool.generations.adopt { id := attempt.id, generation := attempt.generation, serviceId }).1 hopen
      simp only [nextTick, existing, List.length_append, List.length_singleton] at this ⊢
      push_cast at this ⊢
      omega

/-! ## Permits never run out -/

theorem checkOut_permits (member : Nat) : (pool.checkOut member).permits = pool.permits := by
  unfold checkOut; split <;> rfl

theorem checkIn_permits (connection : Connection) : pool.permits ≤ (pool.checkIn connection).permits := by
  unfold checkIn
  simp only
  split
  · simp only [nextTick, destroyConnection]; omega
  · exact le_refl _

theorem clear_permits (serviceId : Option ObjectId) : (pool.clear serviceId).permits = pool.permits := by
  unfold clear; split <;> rfl

theorem close_permits : pool.close.permits = pool.permits := by
  unfold close; split <;> rfl

theorem startPass_permits : pool.startPass.permits = pool.permits := by
  unfold startPass; split <;> rfl

theorem memberCallback_permits (result : Option Connection) : (pool.memberCallback result).permits = pool.permits := by
  unfold memberCallback
  split
  · rfl
  · split <;> rfl

theorem connected_permits (attempt : Attempt) (serviceId : Option ObjectId) :
    (pool.connected attempt serviceId).permits = pool.permits := by
  unfold connected
  simp only
  split
  · rfl
  · split
    · exact memberCallback_permits _
    · rfl

theorem connectFailed_permits (attempt : Attempt) : (pool.connectFailed attempt).permits = pool.permits + 1 := by
  unfold connectFailed
  simp only
  split
  · exact memberCallback_permits _
  · rfl

/-- A pass that has to create a connection finds a permit. -/
theorem finishPass_permits (hmax : 0 < options.maxPoolSize) (h : 0 ≤ pool.permits) :
    0 ≤ (pool.finishPass options).permits := by
  unfold finishPass
  simp only
  split
  · rename_i hc
    obtain ⟨-, hzero | htotal⟩ := hc
    · omega
    · simp only [totalConnectionCount] at htotal
      simp only [createConnection]
      omega
  · exact h

theorem turn_permits (hmax : 0 < options.maxPoolSize) (h : 0 ≤ pool.permits) (idleTime : Nat) :
    0 ≤ (pool.turn options idleTime).permits := by
  unfold turn
  split
  · exact finishPass_permits hmax h
  split
  · exact h
  split
  · exact finishPass_permits hmax h
  simp only
  split
  · simp only [destroyConnection]; omega
  · exact h

theorem foldl_createConnection_permits :
    ∀ (l : List Nat) (pool : ConnectionPool),
      (l.foldl (fun pool _ => pool.createConnection false) pool).permits = pool.permits - l.length
  | [], pool => by simp
  | a :: l, pool => by
    rw [List.foldl_cons, foldl_createConnection_permits l]
    simp only [createConnection, List.length_cons]
    push_cast
    omega

/-- The total counts the available connections twice, so the minimum is reached within the permits. -/
theorem ensureMinPoolSize_permits (hmin : options.minPoolSize ≤ options.maxPoolSize) (h : 0 ≤ pool.permits) :
    0 ≤ (pool.ensureMinPoolSize options).permits := by
  unfold ensureMinPoolSize
  split
  · exact h
  · rw [foldl_createConnection_permits, List.length_range]
    simp only [totalConnectionCount]
    omega

end ConnectionPool

open ConnectionPool

theorem PoolStep.balanced {options : PoolOptions} {pool pool' : ConnectionPool} {e : PoolEvent}
    (hstep : PoolStep options pool e pool') (h : Balanced options 0 pool) : Balanced options 0 pool' := by
  cases hstep with
  | checkOut member => exact checkOut_balanced h member
  | checkIn hmem => exact checkIn_balanced h hmem
  | clear serviceId => exact clear_balanced h serviceId
  | close => exact close_balanced h
  | closeConnection id => exact closeConnection_balanced h id
  | turn idleTime => exact turn_balanced h idleTime
  | tick => exact startPass_balanced (h.congr rfl rfl rfl)
  | timeOut member => exact h.congr rfl rfl rfl
  | connected serviceId _ hmem => exact connected_balanced h hmem serviceId
  | connectFailed _ hmem => exact connectFailed_balanced h hmem
  | ensureMinPoolSize => exact ensureMinPoolSize_balanced h
  | connectionsDestroyed hclosed =>
    intro hopen
    rw [hclosed] at hopen; cases hopen

theorem PoolStep.permits {options : PoolOptions} {pool pool' : ConnectionPool} {e : PoolEvent}
    (hstep : PoolStep options pool e pool') (hmax : 0 < options.maxPoolSize)
    (hmin : options.minPoolSize ≤ options.maxPoolSize) (h : 0 ≤ pool.permits) : 0 ≤ pool'.permits := by
  cases hstep with
  | checkOut member => rw [checkOut_permits]; exact h
  | checkIn => exact h.trans (checkIn_permits _)
  | clear serviceId => rw [clear_permits]; exact h
  | close => rw [close_permits]; exact h
  | closeConnection id => exact h
  | turn idleTime => exact turn_permits hmax h idleTime
  | tick => rw [startPass_permits]; exact h
  | timeOut member => exact h
  | connected serviceId => rw [connected_permits]; exact h
  | connectFailed => rw [connectFailed_permits]; omega
  | ensureMinPoolSize => exact ensureMinPoolSize_permits hmin h
  | connectionsDestroyed => exact h

theorem new_balanced (options : PoolOptions) : Balanced options 0 (ConnectionPool.new options) := by
  intro _
  simp [ConnectionPool.new, existing]

theorem exec_balanced {options : PoolOptions} {es : List PoolEvent} {pool : ConnectionPool}
    (hrun : Run.exec (poolStep options) (.new options) es = some pool) : Balanced options 0 pool :=
  Run.exec_inv (poolStep options) (fun _ _ _ h hs => (poolStep_cases hs).balanced h) (new_balanced options) hrun

/-- In every reachable state of a pool with a maximum size, and a minimum size within it, the
connections that exist or are being established do not exceed the maximum while the pool is open, and
the permits are what is left of it. -/
theorem capacity (options : PoolOptions) (hmax : 0 < options.maxPoolSize)
    (hmin : options.minPoolSize ≤ options.maxPoolSize) (es : List PoolEvent) (pool : ConnectionPool)
    (hrun : Run.exec (poolStep options) (.new options) es = some pool) (hopen : pool.closed = false) :
    pool.existing ≤ options.maxPoolSize ∧ pool.permits = options.maxPoolSize - pool.existing := by
  have hbal := exec_balanced hrun
  have hper : 0 ≤ pool.permits := by
    refine Run.exec_inv (P := fun pool => 0 ≤ pool.permits) (poolStep options)
      (fun _ _ _ h hs => (poolStep_cases hs).permits hmax hmin h) ?_ hrun
    simp [ConnectionPool.new]
  have := hbal hopen
  constructor <;> omega

/-- A checkout of a pool of one connection: the connection is established, handed out, checked in and
handed out again. -/
def oneConnection : List PoolEvent :=
  [.checkOut 0, .tick, .turn 0, .connected ⟨1, 0, true⟩ none, .checkOut 1, .checkIn { id := 1, generation := 0 },
    .tick, .turn 0, .turn 0]

theorem capacity_one_connection :
    ∃ pool, Run.exec (poolStep { maxPoolSize := 1 }) (.new { maxPoolSize := 1 }) oneConnection = some pool ∧
      pool.answers = [(0, .connection 1), (1, .connection 1)] ∧ pool.existing ≤ 1 ∧ pool.permits =
        1 - pool.existing := by
  obtain ⟨hle, hper⟩ := capacity { maxPoolSize := 1 } (by decide) (by decide) oneConnection _ rfl rfl
  exact ⟨_, rfl, rfl, hle, hper⟩

end MongoDriver.Cmap
