/-
The two counts a pool reports. `totalConnectionCount` adds the available connections to the permits that are
taken, but an available connection keeps its permit: each is counted twice. The minimum size is reached from that
count, so a pool with available connections is not filled up. `currentCheckedOutCount` goes up when a connection
is asked for and down when one is given back; a request that ends without a connection stays counted.
-/
import MongoDriver.Cmap.Checkout
import Mathlib.Data.List.Perm.Subperm

namespace MongoDriver.Cmap

open ConnectionPool

/-! ## The total count -/

namespace ConnectionPool

variable {options : PoolOptions} {pool pool' : ConnectionPool}

/-- The total is that of the existing connections, with the available ones added once more. -/
theorem totalConnectionCount_eq (h : Balanced options 0 pool) (hopen : pool.closed = false) :
    pool.totalConnectionCount options = pool.existing + pool.connections.length := by
  have := h hopen
  unfold totalConnectionCount
  omega

theorem totalConnectionCount_eq_iff (h : Balanced options 0 pool) (hopen : pool.closed = false) :
    pool.totalConnectionCount options = pool.existing ↔ pool.connections = [] := by
  rw [totalConnectionCount_eq h hopen, ← List.length_eq_zero_iff]
  omega

theorem foldl_createConnection_existing (l : List Nat) (pool : ConnectionPool) :
    (l.foldl (fun pool _ => pool.createConnection false) pool).existing = pool.existing + l.length := by
  induction l generalizing pool with
  | nil => rfl
  | cons a l ih =>
    rw [List.foldl_cons, ih]
    simp only [createConnection, existing, List.length_append, List.length_cons, List.length_nil]
    omega

/-- The connections that are missing are counted from the total. -/
theorem ensureMinPoolSize_existing (options : PoolOptions) (hopen : pool.closed = false) :
    (pool.ensureMinPoolSize options).existing =
      pool.existing + ((options.minPoolSize : Int) - pool.totalConnectionCount options).toNat ∨
    (options.minPoolSize = 0 ∧ pool.ensureMinPoolSize options = pool) := by
  unfold ensureMinPoolSize
  by_cases hmin : options.minPoolSize = 0
  · exact .inr ⟨hmin, if_pos (by simp [hmin])⟩
  · refine .inl ?_
    rw [if_neg (by simp [hmin, hopen]), foldl_createConnection_existing, List.length_range]

/-- A tick fills the pool up exactly when enough connections exist already or none of them is available. -/
theorem ensureMinPoolSize_reaches_iff (h : Balanced options 0 pool) (hopen : pool.closed = false) :
    options.minPoolSize ≤ (pool.ensureMinPoolSize options).existing ↔
      options.minPoolSize ≤ pool.existing ∨ pool.connections = [] := by
  have htotal := totalConnectionCount_eq h hopen
  rw [← List.length_eq_zero_iff]
  rcases ensureMinPoolSize_existing options hopen with hex | ⟨hmin, heq⟩
  · rw [hex]
    omega
  · rw [heq]
    omega

/-! ## When nothing is available -/

/-- While the pool is open all its connections are checked out or being established. -/
def NoneAvailable (pool : ConnectionPool) : Prop := pool.closed = false → pool.connections = []

theorem NoneAvailable.congr (h : pool.NoneAvailable) (hclosed : pool'.closed = pool.closed)
    (hconnections : pool'.connections = pool.connections) : pool'.NoneAvailable := by
  unfold NoneAvailable
  rw [hclosed, hconnections]
  exact h

theorem checkIn_noneAvailable_iff (h : pool.NoneAvailable) (connection : Connection) :
    (pool.checkIn connection).NoneAvailable ↔
      pool.closed = true ∨ connectionIsStale pool.generations connection = true ∨ connection.closed = true := by
  unfold ConnectionPool.checkIn NoneAvailable
  simp only [Bool.or_eq_true]
  split
  · rename_i hdestroy
    exact iff_of_true h (or_assoc.1 hdestroy)
  · rename_i hdestroy
    refine iff_of_false ?_ fun hor => hdestroy (or_assoc.2 hor)
    intro hnone
    have hopen : pool.closed = false := by
      cases hc : pool.closed with
      | false => rfl
      | true => exact absurd (.inl (.inl hc)) hdestroy
    exact absurd (hnone hopen) (List.cons_ne_nil _ _)

theorem finishPass_connections (pool : ConnectionPool) : (pool.finishPass options).connections = pool.connections := by
  unfold finishPass
  simp only
  split <;> rfl

theorem turn_noneAvailable (h : pool.NoneAvailable) (idleTime : Nat) :
    (pool.turn options idleTime).NoneAvailable := by
  have hclosed : (pool.finishPass options).closed = pool.closed := finishPass_closed pool
  have hfinish := h.congr hclosed (finishPass_connections pool)
  unfold turn
  split
  · exact hfinish
  · split
    · exact h
    · split
      · exact hfinish
      · -- a pool with an available connection is closed
        rename_i connection available hconnections
        have hclosed : pool.closed ≠ false := fun hopen => by
          rw [h hopen] at hconnections
          cases hconnections
        simp only
        split
        · exact fun hopen => absurd hopen hclosed
        · exact fun hopen => absurd hopen hclosed

theorem memberCallback_none_connections (pool : ConnectionPool) :
    (pool.memberCallback none).connections = pool.connections := by
  unfold memberCallback
  split
  · exact List.append_nil _
  · split
    · exact List.append_nil _
    · rfl

theorem memberCallback_closed (pool : ConnectionPool) (result : Option Connection) :
    (pool.memberCallback result).closed = pool.closed := by
  unfold memberCallback
  split
  · rfl
  · split <;> rfl

theorem connectFailed_noneAvailable (h : pool.NoneAvailable) (attempt : Attempt) :
    (pool.connectFailed attempt).NoneAvailable := by
  unfold connectFailed
  simp only
  split
  · exact h.congr (memberCallback_closed _ none) (memberCallback_none_connections _)
  · exact h

/-- A connection established for a member stays available when nobody waits at the front. -/
theorem memberCallback_connections_iff (hnone : pool.connections = []) (connection : Connection) :
    (pool.memberCallback (some connection)).connections = [] ↔ pool.FrontWaits := by
  unfold memberCallback FrontWaits
  split
  · rename_i hq
    refine iff_of_false (by simp) ?_
    rintro ⟨member, rest, hq', -⟩
    rw [hq] at hq'
    cases hq'
  · rename_i member rest hq
    split
    · rename_i hc
      refine iff_of_false (by simp) ?_
      rintro ⟨member', rest', hq', hc'⟩
      rw [hq] at hq'
      cases hq'
      rw [hc] at hc'
      cases hc'
    · rename_i hc
      exact iff_of_true hnone ⟨member, rest, hq, by simpa using hc⟩

theorem connected_noneAvailable_iff (h : pool.NoneAvailable) (attempt : Attempt) (serviceId : Option ObjectId) :
    (pool.connected attempt serviceId).NoneAvailable ↔
      pool.closed = true ∨ (attempt.forMember = true ∧ pool.FrontWaits) := by
  unfold connected
  simp only
  split
  · rename_i hclosed
    exact iff_of_true h (.inl hclosed)
  · rename_i hclosed
    have hopen : pool.closed = false := by simpa using hclosed
    rw [or_iff_right hclosed]
    split
    · rename_i hmember
      rw [and_iff_right hmember]
      refine Iff.trans ⟨fun hn => hn ((memberCallback_closed _ _).trans hopen), fun hn _ => hn⟩ ?_
      refine memberCallback_connections_iff ?_ _
      exact h hopen
    · rename_i hmember
      refine iff_of_false ?_ fun hm => hmember hm.1
      intro hn
      exact absurd (hn hopen) (by simp [nextTick])

end ConnectionPool

/-- The event leaves no connection available: a connection that is given back is destroyed, one that was
established is taken by the member at the front. -/
def LeavesNone (s : Checkouts) : CheckoutEvent → Prop
  | .pool (.checkIn connection) =>
    s.pool.closed = true ∨ connectionIsStale s.pool.generations connection = true ∨ connection.closed = true
  | .pool (.connected attempt _) => s.pool.closed = true ∨ (attempt.forMember = true ∧ s.pool.FrontWaits)
  | _ => True

theorem poolStep_noneAvailable_iff {options : PoolOptions} {s : Checkouts} {pool : ConnectionPool} {e : PoolEvent}
    (hstep : PoolStep options s.pool e pool) (h : s.pool.NoneAvailable) :
    pool.NoneAvailable ↔ LeavesNone s (.pool e) := by
  cases hstep with
  | checkOut member =>
    refine iff_of_true ?_ trivial
    unfold ConnectionPool.checkOut
    split <;> exact h
  | checkIn hmem => exact checkIn_noneAvailable_iff h _
  | clear serviceId =>
    refine iff_of_true ?_ trivial
    unfold ConnectionPool.clear
    split <;> exact h
  | close =>
    refine iff_of_true ?_ trivial
    unfold ConnectionPool.close
    split
    · exact h
    · exact fun hopen => (by cases hopen)
  | closeConnection id =>
    refine iff_of_true (fun hopen => ?_) trivial
    show s.pool.connections.map _ = []
    rw [h hopen, List.map_nil]
  | turn idleTime hloop => exact iff_of_true (turn_noneAvailable h idleTime) trivial
  | tick hloop hticks =>
    refine iff_of_true ?_ trivial
    unfold startPass
    split <;> exact h
  | timeOut member hloop => exact iff_of_true h trivial
  | connected serviceId hloop hmem => exact connected_noneAvailable_iff h _ serviceId
  | connectFailed hloop hmem => exact iff_of_true (connectFailed_noneAvailable h _) trivial
  | ensureMinPoolSize hloop =>
    refine iff_of_true ?_ trivial
    unfold ConnectionPool.ensureMinPoolSize
    split
    · exact h
    · obtain ⟨new, permits, counter, hf⟩ := foldl_createConnection
        (List.range ((options.minPoolSize : Int) - s.pool.totalConnectionCount options).toNat) s.pool
      rw [hf]
      exact h
  | connectionsDestroyed hclosed => exact iff_of_true (fun _ => rfl) trivial

theorem drainMember_noneAvailable {pool : ConnectionPool} (h : pool.NoneAvailable) (member : WaitQueueMember) :
    (Checkouts.drainMember pool member).NoneAvailable := by
  unfold Checkouts.drainMember
  simp only
  split <;> exact h

theorem drainMember_balanced {options : PoolOptions} {pool : ConnectionPool} (h : Balanced options 0 pool)
    (member : WaitQueueMember) : Balanced options 0 (Checkouts.drainMember pool member) := by
  unfold Checkouts.drainMember
  simp only
  split <;> exact h.congr rfl rfl rfl

theorem Checkouts.step_balanced {options : PoolOptions} {s s' : Checkouts} {e : CheckoutEvent}
    (hstep : s.step options e = some s') (h : Balanced options 0 s.pool) : Balanced options 0 s'.pool := by
  cases Checkouts.step_cases hstep with
  | checkOut => exact checkOut_balanced h s.next
  | closedBefore => exact h
  | close => exact h
  | drain => exact drainMember_balanced h _
  | drained => exact fun hopen => (by cases hopen)
  | cancelled hdraining hmem => exact connectFailed_balanced h hmem
  | checkIn hmem hpool => exact (poolStep_cases hpool).balanced h
  | pool hout hclose hin hpool => exact (poolStep_cases hpool).balanced h

theorem Checkouts.step_noneAvailable_iff {options : PoolOptions} {s s' : Checkouts} {e : CheckoutEvent}
    (hstep : s.step options e = some s') (h : s.pool.NoneAvailable) : s'.pool.NoneAvailable ↔ LeavesNone s e := by
  cases Checkouts.step_cases hstep with
  | checkOut =>
    refine iff_of_true ?_ trivial
    show (s.pool.checkOut s.next).NoneAvailable
    unfold ConnectionPool.checkOut
    split <;> exact h
  | closedBefore => exact iff_of_true h trivial
  | close => exact iff_of_true h trivial
  | drain => exact iff_of_true (drainMember_noneAvailable h _) trivial
  | drained => exact iff_of_true (fun hopen => (by cases hopen)) trivial
  | cancelled => exact iff_of_true (connectFailed_noneAvailable h _) trivial
  | checkIn hmem hpool => exact poolStep_noneAvailable_iff (poolStep_cases hpool) h
  | pool hout hclose hin hpool => exact poolStep_noneAvailable_iff (poolStep_cases hpool) h

theorem Checkouts.exec_balanced {options : PoolOptions} {es : List CheckoutEvent} {s : Checkouts}
    (hrun : Run.exec (Checkouts.step options) (.new options) es = some s) : Balanced options 0 s.pool :=
  Run.exec_inv (P := fun s => Balanced options 0 s.pool) (Checkouts.step options)
    (fun _ _ _ h hs => Checkouts.step_balanced hs h) (new_balanced options) hrun

/-- In every state the run goes through while the pool is open the total is the number of connections that exist or
are being established, and each tick leaves at least the minimum of them. -/
structure CountsTotal (options : PoolOptions) (es : List CheckoutEvent) : Prop where
  total : ∀ es₁ es₂ s, es = es₁ ++ es₂ → Run.exec (Checkouts.step options) (.new options) es₁ = some s →
    s.pool.closed = false → s.pool.totalConnectionCount options = s.pool.existing
  minimum : ∀ es₁ es₂ s, es = es₁ ++ .pool .ensureMinPoolSize :: es₂ →
    Run.exec (Checkouts.step options) (.new options) (es₁ ++ [.pool .ensureMinPoolSize]) = some s →
    s.pool.closed = false → options.minPoolSize ≤ s.pool.existing

/-- A tick in a run, with the state before it. -/
theorem exec_tick {options : PoolOptions} {es : List CheckoutEvent} {s : Checkouts}
    (hrun : Run.exec (Checkouts.step options) (.new options) (es ++ [.pool .ensureMinPoolSize]) = some s) :
    ∃ u, Run.exec (Checkouts.step options) (.new options) es = some u ∧
      s.pool = u.pool.ensureMinPoolSize options := by
  obtain ⟨u, hu, hrun⟩ := (Run.exec_append (Checkouts.step options)).1 hrun
  obtain ⟨v, hv, hrun⟩ := (Run.exec_cons (Checkouts.step options)).1 hrun
  cases hrun
  obtain ⟨-, -, pool, hpool, rfl⟩ := Checkouts.step_pool hv
  refine ⟨u, hu, ?_⟩
  cases poolStep_cases hpool with
  | ensureMinPoolSize hloop => rfl

theorem ensureMinPoolSize_closed {options : PoolOptions} (pool : ConnectionPool) :
    (pool.ensureMinPoolSize options).closed = pool.closed := by
  unfold ConnectionPool.ensureMinPoolSize
  split
  · rfl
  · obtain ⟨new, permits, counter, hf⟩ := foldl_createConnection
      (List.range ((options.minPoolSize : Int) - pool.totalConnectionCount options).toNat) pool
    rw [hf]

/-- In every run the total counts the connections that exist or are being established, and every tick fills the pool
up to its minimum, exactly when no event of the run leaves a connection available. -/
theorem total_counts_iff (options : PoolOptions) (es : List CheckoutEvent) (s : Checkouts)
    (hrun : Run.exec (Checkouts.step options) (.new options) es = some s) :
    CountsTotal options es ↔ Run.Meets (Checkouts.step options) LeavesNone (.new options) es := by
  have hiff := Run.meets_iff (P := fun s : Checkouts => s.pool.NoneAvailable) (Checkouts.step options)
    (fun _ _ _ h hs => Checkouts.step_noneAvailable_iff hs h) (fun _ => rfl) hrun
  rw [hiff]
  constructor
  · intro h es₁ es₂ u hes hu hopen
    exact (totalConnectionCount_eq_iff (Checkouts.exec_balanced hu) hopen).1 (h.total es₁ es₂ u hes hu hopen)
  · intro h
    constructor
    · intro es₁ es₂ u hes hu hopen
      exact (totalConnectionCount_eq_iff (Checkouts.exec_balanced hu) hopen).2 (h es₁ es₂ u hes hu hopen)
    · intro es₁ es₂ u hes hu hopen
      obtain ⟨before, hbefore, htick⟩ := exec_tick hu
      have hopen' : before.pool.closed = false := by
        rw [htick, ensureMinPoolSize_closed] at hopen
        exact hopen
      rw [htick]
      exact (ensureMinPoolSize_reaches_iff (Checkouts.exec_balanced hbefore) hopen').2
        (.inr (h es₁ _ before hes hbefore hopen'))

/-- A request that waits takes the connection that is established for it, and the connection is closed before it is
given back. -/
def nothingLeft : List CheckoutEvent :=
  [.pool .ensureMinPoolSize, .checkOut, .pool .tick, .pool (.turn 0), .pool (.connected ⟨1, 0, true⟩ none),
    .pool (.closeConnection 1), .pool (.checkIn ⟨1, 0, none, true⟩)]

theorem nothingLeft_counts : ∃ s, Run.exec (Checkouts.step {}) (.new {}) nothingLeft = some s ∧
    s.log = [.handed 1, .checkedIn 1] ∧ CountsTotal {} nothingLeft := by
  refine ⟨_, rfl, rfl, (total_counts_iff {} nothingLeft _ rfl).2 ?_⟩
  exact .cons trivial rfl <| .cons trivial rfl <| .cons trivial rfl <| .cons trivial rfl <|
    .cons (.inr ⟨rfl, _, _, rfl, rfl⟩) rfl <| .cons trivial rfl <| .cons (.inr (.inr rfl)) rfl trivial

/-- Two connections are established to reach a minimum of two, and one of them is lost. -/
def oneLost : List CheckoutEvent :=
  [.pool .ensureMinPoolSize, .pool (.connected ⟨1, 0, false⟩ none), .pool (.connected ⟨2, 0, false⟩ none), .checkOut,
    .pool .tick, .pool (.turn 0), .pool (.turn 0), .pool (.closeConnection 1), .pool (.checkIn ⟨1, 0, none, true⟩)]

/-- One connection is left and counted twice, and the tick does not replace the lost one. -/
theorem oneLost_not_counted : ∃ s s',
    Run.exec (Checkouts.step { minPoolSize := 2 }) (.new { minPoolSize := 2 }) oneLost = some s ∧
      s.pool.closed = false ∧ s.pool.existing = 1 ∧ s.pool.totalConnectionCount { minPoolSize := 2 } = 2 ∧
      s.step { minPoolSize := 2 } (.pool .ensureMinPoolSize) = some s' ∧ s'.pool.closed = false ∧
      s'.pool.existing = 1 :=
  ⟨_, _, rfl, rfl, rfl, rfl, rfl, rfl, rfl⟩

/-! ## The checked-out count -/

/-- A pool with its callers, and the requests that were made while it was open. -/
structure Requests where
  checkouts : Checkouts
  accepted : List Nat := []

/-- The request an event makes of an open pool. -/
def accepts (s : Checkouts) : CheckoutEvent → List Nat
  | .checkOut => if s.pool.closed then [] else [s.next]
  | _ => []

namespace Requests

def new (options : PoolOptions) : Requests := { checkouts := .new options }

def step (options : PoolOptions) (r : Requests) (e : CheckoutEvent) : Option Requests :=
  (r.checkouts.step options e).map fun s => { checkouts := s, accepted := r.accepted ++ accepts r.checkouts e }

end Requests

def Transfer.isHanded : Transfer → Bool
  | .handed _ => true
  | .checkedIn _ => false

/-- The connections that were passed to a callback and have not been checked in. -/
def outstanding (log : List Transfer) : Int := log.countP (·.isHanded) - log.countP (!·.isHanded)

namespace ConnectionPool

variable {options : PoolOptions} {pool pool' : ConnectionPool}

/-- Answers are added at the end, and nothing is counted. -/
structure Keeps (pool pool' : ConnectionPool) : Prop where
  answers : pool.answers <+: pool'.answers
  checkedOut : pool'.checkedOut = pool.checkedOut

theorem keeps_same (hanswers : pool'.answers = pool.answers) (hcount : pool'.checkedOut = pool.checkedOut) :
    Keeps pool pool' :=
  ⟨hanswers ▸ List.prefix_refl _, hcount⟩

theorem keeps_answer {a : Nat × Answer} (hanswers : pool'.answers = pool.answers ++ [a])
    (hcount : pool'.checkedOut = pool.checkedOut) : Keeps pool pool' :=
  ⟨hanswers ▸ List.prefix_append .., hcount⟩

theorem finishPass_keeps (pool : ConnectionPool) : Keeps pool (pool.finishPass options) := by
  unfold finishPass
  simp only
  split <;> exact keeps_same rfl rfl

theorem turn_keeps (pool : ConnectionPool) (idleTime : Nat) : Keeps pool (pool.turn options idleTime) := by
  unfold turn
  split
  · exact finishPass_keeps pool
  · split
    · exact keeps_same rfl rfl
    · split
      · exact finishPass_keeps pool
      · simp only
        split
        · exact keeps_same rfl rfl
        · exact keeps_answer rfl rfl

theorem memberCallback_keeps (result : Option Connection) (hanswers : pool'.answers = pool.answers)
    (hcount : pool'.checkedOut = pool.checkedOut) : Keeps pool (pool'.memberCallback result) := by
  unfold memberCallback
  split
  · exact keeps_same hanswers hcount
  · split
    · exact keeps_same hanswers hcount
    · exact keeps_answer (congrArg (· ++ [_]) hanswers) hcount

theorem connected_keeps (pool : ConnectionPool) (attempt : Attempt) (serviceId : Option ObjectId) :
    Keeps pool (pool.connected attempt serviceId) := by
  unfold connected
  simp only
  split
  · exact keeps_same rfl rfl
  · split
    · exact memberCallback_keeps _ rfl rfl
    · exact keeps_same rfl rfl

theorem connectFailed_keeps (pool : ConnectionPool) (attempt : Attempt) : Keeps pool (pool.connectFailed attempt) := by
  unfold connectFailed
  simp only
  split
  · exact memberCallback_keeps _ rfl rfl
  · exact keeps_same rfl rfl

/-- The connections handed out between two states are those of the answers between them. -/
theorem served_length_of_prefix (h : pool.answers <+: pool'.answers) :
    (served pool'.answers).length = (served pool.answers).length + (handed pool pool').length := by
  obtain ⟨new, hnew⟩ := h
  have hlen : ∀ l : List (Nat × Answer), (served l).length = (l.filterMap (·.2.connection?)).length := by
    intro l
    induction l with
    | nil => rfl
    | cons a l ih =>
      unfold served at ih ⊢
      cases ha : a.2.connection? with
      | none => simpa [List.filterMap_cons, ha] using ih
      | some c => simpa [List.filterMap_cons, ha] using ih
  rw [handed_append hnew.symm, hlen, hlen, ← hnew, List.filterMap_append, List.length_append]

end ConnectionPool

/-- The events of the pool itself, the calls of `checkOut`, `checkIn` and `close` apart. -/
theorem poolStep_keeps {options : PoolOptions} {pool pool' : ConnectionPool} {e : PoolEvent}
    (hstep : PoolStep options pool e pool') (hout : ∀ member, e ≠ .checkOut member)
    (hin : ∀ connection, e ≠ .checkIn connection) (hclose : e ≠ .close) : Keeps pool pool' := by
  cases hstep with
  | checkOut member => exact absurd rfl (hout member)
  | checkIn hmem => exact absurd rfl (hin _)
  | close => exact absurd rfl hclose
  | clear serviceId =>
    unfold ConnectionPool.clear
    split <;> exact keeps_same rfl rfl
  | closeConnection id => exact keeps_same rfl rfl
  | turn idleTime hloop => exact turn_keeps pool idleTime
  | tick hloop hticks =>
    unfold startPass
    split <;> exact keeps_same rfl rfl
  | timeOut member hloop => exact keeps_answer rfl rfl
  | connected serviceId hloop hmem => exact connected_keeps pool _ serviceId
  | connectFailed hloop hmem => exact connectFailed_keeps pool _
  | ensureMinPoolSize hloop =>
    unfold ConnectionPool.ensureMinPoolSize
    split
    · exact keeps_same rfl rfl
    · obtain ⟨new, permits, counter, hf⟩ := foldl_createConnection
        (List.range ((options.minPoolSize : Int) - pool.totalConnectionCount options).toNat) pool
      rw [hf]
      exact keeps_same rfl rfl
  | connectionsDestroyed hclosed => exact keeps_same rfl rfl

theorem drainMember_keeps (pool : ConnectionPool) (member : WaitQueueMember) :
    Keeps pool (Checkouts.drainMember pool member) := by
  unfold Checkouts.drainMember
  simp only
  split
  · exact keeps_same rfl rfl
  · exact keeps_answer rfl rfl

theorem checkOut_answers (pool : ConnectionPool) (member : Nat) : pool.answers <+: (pool.checkOut member).answers := by
  unfold ConnectionPool.checkOut
  split
  · exact List.prefix_append ..
  · exact List.prefix_refl _

theorem checkIn_answers (pool : ConnectionPool) (connection : Connection) :
    pool.answers <+: (pool.checkIn connection).answers := by
  unfold ConnectionPool.checkIn
  simp only
  split <;> exact List.prefix_refl _

/-- Whoever has been answered stays answered. -/
theorem Checkouts.step_answers {options : PoolOptions} {s s' : Checkouts} {e : CheckoutEvent}
    (hstep : s.step options e = some s') : s.pool.answers <+: s'.pool.answers := by
  cases Checkouts.step_cases hstep with
  | checkOut => exact checkOut_answers s.pool s.next
  | closedBefore => exact List.prefix_refl _
  | close => exact List.prefix_refl _
  | drain => exact (drainMember_keeps _ _).answers
  | drained => exact List.prefix_refl _
  | cancelled => exact (connectFailed_keeps _ _).answers
  | checkIn => exact checkIn_answers s.pool _
  | pool hout hclose hin hpool => exact (poolStep_keeps (poolStep_cases hpool) hout hin hclose).answers

/-- What holds in every state of a run: the count is that of the accepted requests less the connections given back,
and who was not accepted was refused. -/
structure RequestLedger (r : Requests) : Prop where
  sound : CheckoutSound r.checkouts
  asked : r.checkouts.pool.checkedOut + r.checkouts.log.countP (!·.isHanded) = r.accepted.length
  handed : r.checkouts.log.countP (·.isHanded) = (served r.checkouts.pool.answers).length
  once : r.accepted.Nodup
  bound : ∀ id ∈ r.accepted, id < r.checkouts.next
  refused : ∀ id < r.checkouts.next, id ∈ r.accepted ∨ (id, .poolClosed) ∈ r.checkouts.pool.answers

theorem record_handed (s : Checkouts) (pool : ConnectionPool) (returned : List Nat) :
    (s.record pool returned).log.countP (·.isHanded) = s.log.countP (·.isHanded) + (handed s.pool pool).length := by
  have hin : (returned.map Transfer.checkedIn).countP (·.isHanded) = 0 := by
    simp [List.countP_eq_zero, Transfer.isHanded]
  have hout : ((handed s.pool pool).map Transfer.handed).countP (·.isHanded) = (handed s.pool pool).length := by
    rw [List.countP_map]
    exact List.countP_eq_length.2 fun _ _ => rfl
  simp only [Checkouts.record, List.countP_append, hin, hout, Nat.add_zero]

theorem record_checkedIn (s : Checkouts) (pool : ConnectionPool) (returned : List Nat) :
    (s.record pool returned).log.countP (!·.isHanded) = s.log.countP (!·.isHanded) + returned.length := by
  have hin : (returned.map Transfer.checkedIn).countP (!·.isHanded) = returned.length := by
    rw [List.countP_map]
    exact List.countP_eq_length.2 fun _ _ => rfl
  have hout : ((handed s.pool pool).map Transfer.handed).countP (!·.isHanded) = 0 := by
    simp [List.countP_eq_zero, Transfer.isHanded]
  simp only [Checkouts.record, List.countP_append, hin, hout, Nat.add_zero]

namespace RequestLedger

variable {options : PoolOptions} {r r' : Requests} {s : Checkouts} {pool : ConnectionPool} {e : CheckoutEvent}

theorem start (options : PoolOptions) : RequestLedger (.new options) where
  sound := .start options
  asked := rfl
  handed := rfl
  once := .nil
  bound id h := by cases h
  refused id h := absurd h (Nat.not_lt_zero id)

/-- Whoever got a connection had been accepted. -/
theorem served_accepted (h : RequestLedger r) : ∀ id ∈ served r.checkouts.pool.answers, id ∈ r.accepted := by
  intro id hid
  obtain ⟨a, ha, hsome⟩ := List.mem_filterMap.1 hid
  obtain ⟨c, hc, rfl⟩ := Option.map_eq_some_iff.1 hsome
  refine (h.refused a.1 (h.sound.ledger.known _ (List.mem_map_of_mem ha))).resolve_right ?_
  -- the request would have been answered twice
  intro href
  have heq : a = (a.1, .poolClosed) := List.inj_on_of_nodup_map h.sound.ledger.once ha href rfl
  rw [heq] at hc
  cases hc

/-- The count is right exactly when every accepted request got a connection. -/
theorem counted_iff (h : RequestLedger r) :
    r.checkouts.pool.checkedOut = outstanding r.checkouts.log ↔
      ∀ id ∈ r.accepted, id ∈ served r.checkouts.pool.answers := by
  have hlen : r.checkouts.pool.checkedOut = outstanding r.checkouts.log ↔
      r.accepted.length = (served r.checkouts.pool.answers).length := by
    have hasked := h.asked
    have hhanded := h.handed
    unfold outstanding
    omega
  have hnodup : (served r.checkouts.pool.answers).Nodup := h.sound.ledger.inOrder.imp fun hlt => hlt.ne
  have hsub := List.subperm_of_subset hnodup h.served_accepted
  rw [hlen]
  constructor
  · intro hlen
    exact (hsub.perm_of_length_le hlen.le).symm.subset
  · intro hall
    exact (List.subperm_of_subset h.once hall).length_le.antisymm hsub.length_le

/-- A step that changes nothing of this. -/
theorem same (h : RequestLedger r) (hsound : CheckoutSound s) (hcount : s.pool.checkedOut = r.checkouts.pool.checkedOut)
    (hanswers : s.pool.answers = r.checkouts.pool.answers) (hlog : s.log = r.checkouts.log)
    (hnext : s.next = r.checkouts.next) : RequestLedger { checkouts := s, accepted := r.accepted ++ [] } := by
  rw [List.append_nil]
  refine ⟨hsound, ?_, ?_, h.once, ?_, ?_⟩
  · rw [hcount, hlog]
    exact h.asked
  · rw [hanswers, hlog]
    exact h.handed
  · rw [hnext]
    exact h.bound
  · rw [hnext, hanswers]
    exact h.refused

/-- A step that makes no request. -/
theorem record (h : RequestLedger r) {returned : List Nat} (hsound : CheckoutSound (r.checkouts.record pool returned))
    (hanswers : r.checkouts.pool.answers <+: pool.answers)
    (hcount : pool.checkedOut + returned.length = r.checkouts.pool.checkedOut) :
    RequestLedger { checkouts := r.checkouts.record pool returned, accepted := r.accepted ++ [] } := by
  rw [List.append_nil]
  refine ⟨hsound, ?_, ?_, h.once, h.bound, ?_⟩
  · have hasked := h.asked
    show pool.checkedOut + _ = (r.accepted.length : Int)
    rw [record_checkedIn]
    omega
  · show _ = (served pool.answers).length
    rw [record_handed, h.handed, served_length_of_prefix hanswers]
  · intro id hid
    exact (h.refused id hid).imp_right fun href => hanswers.subset href

theorem keeps (h : RequestLedger r) (hsound : CheckoutSound (r.checkouts.record pool []))
    (hkeeps : Keeps r.checkouts.pool pool) :
    RequestLedger { checkouts := r.checkouts.record pool [], accepted := r.accepted ++ [] } :=
  h.record hsound hkeeps.answers (by simp [hkeeps.checkedOut])

theorem checkOut (h : RequestLedger r)
    (hsound : CheckoutSound
      { r.checkouts.record (r.checkouts.pool.checkOut r.checkouts.next) [] with next := r.checkouts.next + 1 }) :
    RequestLedger
      { checkouts :=
          { r.checkouts.record (r.checkouts.pool.checkOut r.checkouts.next) [] with next := r.checkouts.next + 1 }
        accepted := r.accepted ++ accepts r.checkouts .checkOut } := by
  have hasked := h.asked
  cases hclosed : r.checkouts.pool.closed with
  | true =>
    have hout : r.checkouts.pool.checkOut r.checkouts.next = r.checkouts.pool.answer r.checkouts.next .poolClosed :=
      if_pos hclosed
    have hacc : accepts r.checkouts .checkOut = [] := if_pos hclosed
    have hkeeps : Keeps r.checkouts.pool (r.checkouts.pool.answer r.checkouts.next .poolClosed) := keeps_answer rfl rfl
    rw [hout] at hsound ⊢
    rw [hacc, List.append_nil]
    refine ⟨hsound, ?_, ?_, h.once, fun id hid => Nat.lt_succ_of_lt (h.bound id hid), ?_⟩
    · show r.checkouts.pool.checkedOut + _ = (r.accepted.length : Int)
      rw [record_checkedIn]
      exact hasked
    · show _ = (served (r.checkouts.pool.answer r.checkouts.next .poolClosed).answers).length
      rw [record_handed, h.handed, served_length_of_prefix hkeeps.answers]
    · intro id hid
      rcases Nat.lt_succ_iff_lt_or_eq.1 hid with hid | rfl
      · exact (h.refused id hid).imp_right fun href => hkeeps.answers.subset href
      · exact .inr (List.mem_append_right _ (List.mem_singleton_self _))
  | false =>
    have hopen : ¬ r.checkouts.pool.closed = true := by simp [hclosed]
    have hacc : accepts r.checkouts .checkOut = [r.checkouts.next] := if_neg hopen
    have hcount : (r.checkouts.pool.checkOut r.checkouts.next).checkedOut = r.checkouts.pool.checkedOut + 1 := by
      unfold ConnectionPool.checkOut
      rw [if_neg hopen]
      rfl
    have hanswers : (r.checkouts.pool.checkOut r.checkouts.next).answers = r.checkouts.pool.answers := by
      unfold ConnectionPool.checkOut
      rw [if_neg hopen]
      rfl
    rw [hacc]
    refine ⟨hsound, ?_, ?_, ?_, ?_, ?_⟩
    · show (r.checkouts.pool.checkOut r.checkouts.next).checkedOut + _ = _
      rw [record_checkedIn, hcount, List.length_append]
      push_cast
      simp only [List.length_nil, List.length_singleton] at hasked ⊢
      omega
    · show _ = (served (r.checkouts.pool.checkOut r.checkouts.next).answers).length
      rw [record_handed, h.handed, handed_same hanswers, hanswers]
      rfl
    · refine List.nodup_append.2 ⟨h.once, List.nodup_singleton _, ?_⟩
      intro id hid id' hid' heq
      obtain rfl := List.mem_singleton.1 hid'
      exact absurd (h.bound id hid) (by omega)
    · intro id hid
      rcases Heap.mem_alloc.1 hid with hid | rfl
      · exact Nat.lt_succ_of_lt (h.bound id hid)
      · exact Nat.lt_succ_self _
    · intro id hid
      rcases Nat.lt_succ_iff_lt_or_eq.1 hid with hid | rfl
      · refine (h.refused id hid).imp (List.mem_append_left _) fun href => ?_
        show (id, Answer.poolClosed) ∈ (r.checkouts.pool.checkOut r.checkouts.next).answers
        rw [hanswers]
        exact href
      · exact .inl (List.mem_append_right _ (List.mem_singleton_self _))

theorem checkIn (h : RequestLedger r) (connection : Connection)
    (hsound : CheckoutSound (r.checkouts.record (r.checkouts.pool.checkIn connection) [connection.id])) :
    RequestLedger
      { checkouts := r.checkouts.record (r.checkouts.pool.checkIn connection) [connection.id]
        accepted := r.accepted ++ [] } := by
  refine h.record hsound (checkIn_answers _ connection) ?_
  unfold ConnectionPool.checkIn
  simp only
  split <;> simp [nextTick, destroyConnection]

theorem step (h : RequestLedger r) (hstep : r.step options e = some r') : RequestLedger r' := by
  obtain ⟨s, hs, rfl⟩ := Option.map_eq_some_iff.1 hstep
  have hsound := h.sound.step hs
  cases Checkouts.step_cases hs with
  | checkOut => exact h.checkOut hsound
  | closedBefore => exact h.same hsound rfl rfl rfl rfl
  | close => exact h.same hsound rfl rfl rfl rfl
  | drain => exact h.keeps hsound (drainMember_keeps _ _)
  | drained => exact h.same hsound rfl rfl rfl rfl
  | cancelled => exact h.keeps hsound (connectFailed_keeps _ _)
  | checkIn => exact h.checkIn _ hsound
  | pool hout hclose hin hpool => exact h.keeps hsound (poolStep_keeps (poolStep_cases hpool) hout hin hclose)

theorem exec {es : List CheckoutEvent} (hrun : Run.exec (Requests.step options) (.new options) es = some r) :
    RequestLedger r :=
  Run.exec_inv (Requests.step options) (fun _ _ _ h hs => step h hs) (start options) hrun

/-- From a state that counts right an event leads to one that does exactly when it makes no request of an open
pool: the new request waits. -/
theorem step_counted_iff (h : RequestLedger r)
    (hcounted : r.checkouts.pool.checkedOut = outstanding r.checkouts.log) (hstep : r.step options e = some r') :
    r'.checkouts.pool.checkedOut = outstanding r'.checkouts.log ↔ (e = .checkOut → r.checkouts.pool.closed = true) := by
  have h' := h.step hstep
  rw [h'.counted_iff]
  have hserved := h.counted_iff.1 hcounted
  obtain ⟨s, hs, rfl⟩ := Option.map_eq_some_iff.1 hstep
  have hanswers := Checkouts.step_answers hs
  constructor
  · rintro hall rfl
    cases hclosed : r.checkouts.pool.closed with
    | true => rfl
    | false =>
      -- it would have been answered before
      have hopen : ¬ r.checkouts.pool.closed = true := by simp [hclosed]
      have hacc : accepts r.checkouts .checkOut = [r.checkouts.next] := if_neg hopen
      have hmem := hall r.checkouts.next (List.mem_append_right _ (hacc ▸ List.mem_singleton_self _))
      have hsame : s.pool.answers = r.checkouts.pool.answers := by
        cases hs
        show (r.checkouts.pool.checkOut r.checkouts.next).answers = _
        unfold ConnectionPool.checkOut
        rw [if_neg hopen]
        rfl
      have hmem : r.checkouts.next ∈ served r.checkouts.pool.answers := hsame ▸ hmem
      exact absurd (h.bound _ (h.served_accepted _ hmem)) (Nat.lt_irrefl _)
  · intro hno id hid
    have hacc : accepts r.checkouts e = [] := by
      cases e with
      | checkOut => exact if_pos (hno rfl)
      | _ => rfl
    have hid : id ∈ r.accepted := by simpa [hacc] using hid
    obtain ⟨new, hnew⟩ := hanswers
    show id ∈ served s.pool.answers
    unfold served
    rw [← hnew, List.filterMap_append]
    exact List.mem_append_left _ (hserved id hid)

end RequestLedger

/-- In every state that a run reaches the count is the number of connections that were passed to a callback and not
checked in, exactly when each request the open pool accepted got a connection; so it is right all along the run
exactly when nothing is requested of the open pool. -/
theorem checkedOut_counts_iff (options : PoolOptions) (es : List CheckoutEvent) (r : Requests)
    (hrun : Run.exec (Requests.step options) (.new options) es = some r) :
    (r.checkouts.pool.checkedOut = outstanding r.checkouts.log ↔
        ∀ id ∈ r.accepted, id ∈ served r.checkouts.pool.answers) ∧
      ((∀ es₁ es₂ u, es = es₁ ++ es₂ → Run.exec (Requests.step options) (.new options) es₁ = some u →
          u.checkouts.pool.checkedOut = outstanding u.checkouts.log) ↔
        Run.Meets (Requests.step options) (fun r e => e = .checkOut → r.checkouts.pool.closed = true)
          (.new options) es) := by
  refine ⟨(RequestLedger.exec hrun).counted_iff, ?_⟩
  have hiff := Run.meets_iff
    (P := fun r : Requests => RequestLedger r ∧ r.checkouts.pool.checkedOut = outstanding r.checkouts.log)
    (Requests.step options) (C := fun r e => e = .checkOut → r.checkouts.pool.closed = true)
    (fun r e r' h hs => by
      rw [← h.1.step_counted_iff h.2 hs]
      exact and_iff_right (h.1.step hs))
    ⟨RequestLedger.start options, rfl⟩ hrun
  rw [hiff]
  constructor
  · intro h es₁ es₂ u hes hu
    exact ⟨RequestLedger.exec hu, h es₁ es₂ u hes hu⟩
  · intro h es₁ es₂ u hes hu
    exact (h es₁ es₂ u hes hu).2

/-- A request is served by the connection that is established for it. -/
def oneServed : List CheckoutEvent :=
  [.checkOut, .pool .tick, .pool (.turn 0), .pool (.connected ⟨1, 0, true⟩ none)]

theorem oneServed_counted : ∃ r, Run.exec (Requests.step {}) (.new {}) oneServed = some r ∧
    r.checkouts.pool.checkedOut = 1 ∧ r.checkouts.pool.checkedOut = outstanding r.checkouts.log := by
  refine ⟨_, rfl, rfl, (checkedOut_counts_iff {} oneServed _ rfl).1.2 ?_⟩
  intro id hid
  obtain rfl := List.mem_singleton.1 hid
  exact List.mem_singleton_self _

/-- A request fails with its connection attempt and stays counted. -/
theorem failed_request_counted : ∃ r,
    Run.exec (Requests.step {}) (.new {})
      [.checkOut, .pool .tick, .pool (.turn 0), .pool (.connectFailed ⟨1, 0, true⟩)] = some r ∧
      r.checkouts.pool.answers = [(0, .connectFailed)] ∧ r.checkouts.pool.checkedOut = 1 ∧
      outstanding r.checkouts.log = 0 :=
  ⟨_, rfl, rfl, rfl, rfl⟩

end MongoDriver.Cmap
