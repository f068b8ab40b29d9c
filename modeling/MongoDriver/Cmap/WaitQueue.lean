/-
Waiting members are served: while a pass is scheduled or running, or an attempt is in progress, some
later event looks at the wait queue again; in any other state of an open pool a waiting member means
that nothing is available and the maximum is reached. Two ends of an attempt schedule no pass: the one
for a member that was cancelled meanwhile, and the failure of one for the minimum size. A run in which
neither ends the last activity while members wait strands nobody.
-/
import MongoDriver.Cmap.Capacity

namespace MongoDriver.Cmap

namespace ConnectionPool

/-- Some member waits that was not cancelled. -/
def Live (pool : ConnectionPool) : Prop := ∃ m ∈ pool.waitQueue, m.cancelled = false

/-- Nobody waits in vain: something looks at the queue again, nobody waits, or nothing can be had. -/
def Served (options : PoolOptions) (pool : ConnectionPool) : Prop :=
  pool.closed = true ∨ pool.looping = true ∨ 0 < pool.ticks ∨ pool.attempts ≠ [] ∨ ¬ pool.Live ∨
    (pool.connections = [] ∧ options.maxPoolSize ≤ pool.existing)

/-- A pass that holds the flag is in its loop or waits for its attempt. -/
def Busy (pool : ConnectionPool) : Prop :=
  pool.closed = true ∨ (pool.processingWaitQueue = true → pool.looping = true ∨ ∃ a ∈ pool.attempts, a.forMember = true)

variable {options : PoolOptions} {pool : ConnectionPool}

theorem served_of_ticks {pool : ConnectionPool} (h : 0 < pool.ticks) : Served options pool := .inr (.inr (.inl h))

theorem served_of_closed (h : pool.closed = true) : Served options pool := .inl h

theorem served_of_looping (h : pool.looping = true) : Served options pool := .inr (.inl h)

theorem served_of_attempts (h : pool.attempts ≠ []) : Served options pool := .inr (.inr (.inr (.inl h)))

theorem served_of_no_live (h : ¬ pool.Live) : Served options pool := .inr (.inr (.inr (.inr (.inl h))))

/-- A step that keeps every activity, adds no member and neither frees nor provides a connection. -/
theorem Served.mono {pool' : ConnectionPool} (h : Served options pool) (hclosed : pool'.closed = pool.closed)
    (hloop : pool'.looping = pool.looping) (hticks : pool.ticks ≤ pool'.ticks)
    (hattempts : pool.attempts ≠ [] → pool'.attempts ≠ []) (hlive : pool'.Live → pool.Live)
    (hconn : pool.connections = [] → pool'.connections = []) (hexist : pool.existing ≤ pool'.existing) :
    Served options pool' := by
  rcases h with h | h | h | h | h | ⟨h1, h2⟩
  · exact served_of_closed (hclosed.trans h)
  · exact served_of_looping (hloop.trans h)
  · exact served_of_ticks (by omega)
  · exact served_of_attempts (hattempts h)
  · exact served_of_no_live fun h' => h (hlive h')
  · exact .inr (.inr (.inr (.inr (.inr ⟨hconn h1, by omega⟩))))

/-! ## Passes -/

theorem not_live_of_empty (h : pool.waitQueue = []) : ¬ pool.Live := by
  rintro ⟨m, hm, -⟩
  rw [h] at hm; cases hm

theorem createConnection_attempts (forMember : Bool) : (pool.createConnection forMember).attempts ≠ [] := by
  simp [createConnection]

/-- A pass ends with nobody waiting, with an attempt, or with the pool used up. -/
theorem finishPass_served (hbal : Balanced options 0 pool) (h : pool.waitQueue = [] ∨ pool.connections = []) :
    Served options (pool.finishPass options) := by
  unfold finishPass
  simp only
  split
  · exact served_of_attempts (createConnection_attempts true)
  · rename_i hn
    by_cases hq : pool.waitQueue = []
    · exact served_of_no_live (not_live_of_empty hq)
    · have hc := h.resolve_left hq
      cases hopen : pool.closed with
      | true => exact served_of_closed rfl
      | false =>
        have hb := hbal hopen
        refine .inr (.inr (.inr (.inr (.inr ⟨hc, ?_⟩))))
        rw [not_and_or, not_or] at hn
        obtain ⟨-, ht⟩ := hn.resolve_left (not_not.2 hq)
        simp only [totalConnectionCount, existing, hc, List.length_nil] at ht hb ⊢
        omega

theorem turn_served (hbal : Balanced options 0 pool) (hloop : pool.looping = true) (idleTime : Nat) :
    Served options (pool.turn options idleTime) := by
  unfold turn
  split
  · exact finishPass_served hbal (.inl ‹_›)
  split
  · exact served_of_looping hloop
  split
  · exact finishPass_served hbal (.inr ‹_›)
  simp only
  split
  · exact served_of_looping hloop
  · exact served_of_looping hloop

theorem startPass_served (h : Busy pool) (hloop : pool.looping = false) : Served options pool.startPass := by
  unfold startPass
  split
  · rename_i hg
    rcases h with h | h
    · exact served_of_closed h
    · cases hp : pool.processingWaitQueue with
      | true =>
        obtain hl | ⟨a, ha, -⟩ := h hp
        · rw [hloop] at hl; cases hl
        · exact served_of_attempts (List.ne_nil_of_mem ha)
      | false => exact served_of_closed (by simpa [hp] using hg)
  · exact served_of_looping rfl

/-! ## Ends of attempts -/

/-- The member at the front, if any, was cancelled. -/
def FrontCancelled (pool : ConnectionPool) : Prop := ∀ m ∈ pool.waitQueue.head?, m.cancelled = true

/-- Another pass or attempt is under way, or nobody waits. -/
def Attended (pool : ConnectionPool) (attempt : Attempt) : Prop :=
  pool.closed = true ∨ 0 < pool.ticks ∨ pool.attempts.erase attempt ≠ [] ∨ ¬ pool.Live

/-- The callback schedules a pass unless the member at the front was cancelled. -/
theorem memberCallback_served (result : Option Connection)
    (h : FrontCancelled pool → pool.closed = true ∨ 0 < pool.ticks ∨ pool.attempts ≠ [] ∨ ¬ pool.Live) :
    Served options (pool.memberCallback result) := by
  unfold memberCallback
  split
  · rename_i hq
    exact served_of_no_live (not_live_of_empty hq)
  · rename_i member rest hq
    split
    · rename_i hc
      -- only here the pass ends without another one: the rest of the queue must be served otherwise
      have hfront : FrontCancelled pool := by
        intro m hm
        rw [hq] at hm
        obtain rfl : member = m := by simpa using hm
        exact hc
      rcases h hfront with h | h | h | h
      · exact served_of_closed h
      · exact served_of_ticks h
      · exact served_of_attempts h
      · refine served_of_no_live fun hl => h ?_
        obtain ⟨m, hm, hmc⟩ := hl
        exact ⟨m, by rw [hq]; exact List.mem_cons_of_mem _ hm, hmc⟩
    · exact served_of_ticks (Nat.succ_pos _)

end ConnectionPool

open ConnectionPool

/-- An attempt whose end schedules no pass is not the last activity while members wait. -/
def Calm (pool : ConnectionPool) : PoolEvent → Prop
  | .connected attempt _ => attempt.forMember = true → pool.FrontCancelled → pool.Attended attempt
  | .connectFailed attempt => (attempt.forMember = true → pool.FrontCancelled) → pool.Attended attempt
  | _ => True

namespace ConnectionPool

variable {options : PoolOptions} {pool : ConnectionPool}

theorem connected_served {attempt : Attempt} {serviceId : Option ObjectId}
    (hcalm : Calm pool (.connected attempt serviceId)) : Served options (pool.connected attempt serviceId) := by
  unfold connected
  simp only
  split
  · rename_i hclosed
    exact served_of_closed hclosed
  · split
    · rename_i hm
      exact memberCallback_served _ fun hf => hcalm hm hf
    · exact served_of_ticks (Nat.succ_pos _)

theorem connectFailed_served {attempt : Attempt} (hcalm : Calm pool (.connectFailed attempt)) :
    Served options (pool.connectFailed attempt) := by
  unfold connectFailed
  simp only
  split
  · exact memberCallback_served _ fun hf => hcalm fun _ => hf
  · rename_i hm
    rcases hcalm fun h => absurd h hm with h | h | h | h
    · exact served_of_closed h
    · exact served_of_ticks h
    · exact served_of_attempts h
    · exact served_of_no_live h

theorem foldl_createConnection (l : List Nat) (pool : ConnectionPool) :
    ∃ new permits counter, l.foldl (fun pool _ => pool.createConnection false) pool =
      { pool with attempts := pool.attempts ++ new, permits := permits, connectionCounter := counter } := by
  induction l generalizing pool with
  | nil => exact ⟨[], pool.permits, pool.connectionCounter, by simp⟩
  | cons a l ih =>
    obtain ⟨new, permits, counter, h⟩ := ih (pool.createConnection false)
    refine ⟨⟨pool.connectionCounter, pool.generations.generation, false⟩ :: new, permits, counter, ?_⟩
    rw [List.foldl_cons, h]
    simp [createConnection]

theorem ensureMinPoolSize_served (h : Served options pool) : Served options (pool.ensureMinPoolSize options) := by
  unfold ensureMinPoolSize
  split
  · exact h
  · obtain ⟨new, permits, counter, hf⟩ := foldl_createConnection
      (List.range ((options.minPoolSize : Int) - pool.totalConnectionCount options).toNat) pool
    rw [hf]
    refine h.mono rfl rfl (le_refl _) ?_ (fun hl => hl) (fun hc => hc) ?_
    · intro hne hnil
      exact hne (List.append_eq_nil_iff.1 hnil).1
    · simp only [existing, List.length_append]; omega

end ConnectionPool

/-! ## Every step of a calm run serves -/

theorem PoolStep.served {options : PoolOptions} {pool pool' : ConnectionPool} {e : PoolEvent}
    (hstep : PoolStep options pool e pool') (hcalm : Calm pool e) (hbal : Balanced options 0 pool) (hbusy : Busy pool)
    (h : Served options pool) : Served options pool' := by
  cases hstep with
  | checkOut member =>
    unfold ConnectionPool.checkOut
    split
    · exact served_of_closed ‹_›
    · exact served_of_ticks (Nat.succ_pos _)
  | checkIn => exact served_of_ticks (Nat.succ_pos _)
  | clear serviceId =>
    unfold ConnectionPool.clear
    split
    · exact h.mono rfl rfl (le_refl _) (fun hc => hc) (fun hl => hl) (fun hc => hc) (le_refl _)
    · exact h
  | close =>
    unfold ConnectionPool.close
    split
    · exact h
    · exact served_of_closed rfl
  | closeConnection id =>
    refine h.mono rfl rfl (le_refl _) (fun hc => hc) (fun hl => hl) (fun hc => ?_) ?_
    · simp [ConnectionPool.closeConnection, hc]
    · simp [ConnectionPool.closeConnection, existing]
  | turn idleTime hloop => exact turn_served hbal hloop idleTime
  | tick hloop _ => exact startPass_served hbusy hloop
  | timeOut member _ =>
    refine h.mono rfl rfl (le_refl _) (fun hc => hc) ?_ (fun hc => hc) (le_refl _)
    rintro ⟨m, hm, hmc⟩
    obtain ⟨m', hm', rfl⟩ := List.mem_map.1 hm
    refine ⟨m', hm', ?_⟩
    split at hmc
    · cases hmc
    · exact hmc
  | connected serviceId _ _ => exact connected_served hcalm
  | connectFailed _ _ => exact connectFailed_served hcalm
  | ensureMinPoolSize _ => exact ensureMinPoolSize_served h
  | connectionsDestroyed hclosed => exact served_of_closed hclosed

theorem ConnectionPool.Busy.congr {pool pool' : ConnectionPool} (h : Busy pool) (hclosed : pool'.closed = pool.closed)
    (hproc : pool'.processingWaitQueue = pool.processingWaitQueue) (hloop : pool'.looping = pool.looping)
    (hattempts : ∀ a ∈ pool.attempts, a.forMember = true → a ∈ pool'.attempts) : Busy pool' := by
  rcases h with h | h
  · exact .inl (hclosed.trans h)
  · refine .inr fun hp => ?_
    rcases h (hproc.symm.trans hp) with hl | ⟨a, ha, hm⟩
    · exact .inl (hloop.trans hl)
    · exact .inr ⟨a, hattempts a ha hm, hm⟩

theorem busy_of_idle {pool : ConnectionPool} (h : pool.processingWaitQueue = false) : Busy pool :=
  .inr fun hp => by rw [h] at hp; cases hp

theorem finishPass_busy (options : PoolOptions) (pool : ConnectionPool) : Busy (pool.finishPass options) := by
  unfold finishPass
  simp only
  split
  · exact .inr fun _ => .inr ⟨⟨pool.connectionCounter, pool.generations.generation, true⟩, by
      simp [createConnection], rfl⟩
  · exact busy_of_idle rfl

theorem memberCallback_idle (pool : ConnectionPool) (result : Option Connection) :
    (pool.memberCallback result).processingWaitQueue = false := by
  unfold memberCallback
  split
  · rfl
  · split <;> rfl

/-- Ending an attempt of another kind keeps the attempt of the pass. -/
theorem mem_erase_of_forMember {attempts : List Attempt} {attempt a : Attempt} (hf : ¬ attempt.forMember = true)
    (ha : a ∈ attempts) (hm : a.forMember = true) : a ∈ attempts.erase attempt := by
  refine (List.mem_erase_of_ne ?_).2 ha
  rintro rfl
  exact hf hm

theorem PoolStep.busy {options : PoolOptions} {pool pool' : ConnectionPool} {e : PoolEvent}
    (hstep : PoolStep options pool e pool') (h : Busy pool) : Busy pool' := by
  cases hstep with
  | checkOut member =>
    unfold ConnectionPool.checkOut
    split
    · exact h.congr rfl rfl rfl fun _ ha _ => ha
    · exact h.congr rfl rfl rfl fun _ ha _ => ha
  | checkIn =>
    unfold ConnectionPool.checkIn
    simp only
    split
    · exact h.congr rfl rfl rfl fun _ ha _ => ha
    · exact h.congr rfl rfl rfl fun _ ha _ => ha
  | clear serviceId =>
    unfold ConnectionPool.clear
    split
    · exact h.congr rfl rfl rfl fun _ ha _ => ha
    · exact h
  | close =>
    unfold ConnectionPool.close
    split
    · exact h
    · exact .inl rfl
  | closeConnection id => exact h.congr rfl rfl rfl fun _ ha _ => ha
  | turn idleTime hloop =>
    unfold ConnectionPool.turn
    split
    · exact finishPass_busy options pool
    split
    · exact .inr fun _ => .inl hloop
    split
    · exact finishPass_busy options pool
    simp only
    split
    · exact .inr fun _ => .inl hloop
    · exact .inr fun _ => .inl hloop
  | tick _ _ =>
    unfold startPass
    split
    · exact h.congr rfl rfl rfl fun _ ha _ => ha
    · exact .inr fun _ => .inl rfl
  | timeOut member _ => exact h.congr rfl rfl rfl fun _ ha _ => ha
  | connected serviceId _ _ =>
    unfold ConnectionPool.connected
    simp only
    split
    · rename_i hclosed
      exact .inl hclosed
    · split
      · exact busy_of_idle (memberCallback_idle _ _)
      · rename_i hf
        exact h.congr rfl rfl rfl fun a ha hm => mem_erase_of_forMember hf ha hm
  | connectFailed _ _ =>
    unfold ConnectionPool.connectFailed
    simp only
    split
    · exact busy_of_idle (memberCallback_idle _ _)
    · rename_i hf
      exact h.congr rfl rfl rfl fun a ha hm => mem_erase_of_forMember hf ha hm
  | ensureMinPoolSize _ =>
    unfold ConnectionPool.ensureMinPoolSize
    split
    · exact h
    · obtain ⟨new, permits, counter, hf⟩ := foldl_createConnection
        (List.range ((options.minPoolSize : Int) - pool.totalConnectionCount options).toNat) pool
      rw [hf]
      exact h.congr rfl rfl rfl fun _ ha _ => List.mem_append_left _ ha
  | connectionsDestroyed hclosed => exact .inl hclosed

/-- In every state a calm run reaches: when the pool is open, no pass is scheduled or running and no
attempt is in progress, no member waits while a connection is available or fewer than the maximum
exist. -/
theorem no_member_stranded (options : PoolOptions) (es : List PoolEvent) (pool : ConnectionPool)
    (hrun : Run.exec (poolStep options) (.new options) es = some pool)
    (hcalm : Run.Meets (poolStep options) Calm (.new options) es) (hopen : pool.closed = false)
    (hloop : pool.looping = false) (hticks : pool.ticks = 0) (hattempts : pool.attempts = []) :
    ¬ (pool.Live ∧ (pool.connections ≠ [] ∨ pool.existing < options.maxPoolSize)) := by
  have hinv : Balanced options 0 pool ∧ Busy pool ∧ Served options pool := by
    refine Run.exec_inv_meets (P := fun pool => Balanced options 0 pool ∧ Busy pool ∧ Served options pool)
      (poolStep options) ?_ ?_ hcalm hrun
    · rintro s e t ⟨hbal, hbusy, hserved⟩ hc hs
      have hstep := poolStep_cases hs
      exact ⟨hstep.balanced hbal, hstep.busy hbusy, hstep.served hc hbal hbusy hserved⟩
    · exact ⟨new_balanced options, busy_of_idle rfl, served_of_no_live (not_live_of_empty rfl)⟩
  rintro ⟨hlive, hfree⟩
  -- the quiet state rules out every reason to wait but a full pool
  rcases hinv.2.2 with h | h | h | h | h | ⟨h1, h2⟩
  · rw [hopen] at h; cases h
  · rw [hloop] at h; cases h
  · omega
  · exact h hattempts
  · exact h hlive
  · rcases hfree with hc | hlt
    · exact hc h1
    · omega

/-- A member times out while its connection is being established and a second member waits. -/
def cancelledMember : List PoolEvent :=
  [.checkOut 0, .tick, .turn 0, .checkOut 1, .tick, .timeOut 0, .connected ⟨1, 0, true⟩ none]

/-- The connection becomes available, no pass is scheduled, and the second member still waits. -/
theorem cancelled_member_strands : ∃ pool,
    Run.exec (poolStep { maxPoolSize := 1 }) (.new { maxPoolSize := 1 }) cancelledMember = some pool ∧
      pool.closed = false ∧ pool.looping = false ∧ pool.processingWaitQueue = false ∧ pool.ticks = 0 ∧
      pool.attempts = [] ∧ pool.Live ∧ pool.connections ≠ [] := by
  refine ⟨_, rfl, rfl, rfl, rfl, rfl, rfl, ⟨{ id := 1 }, ?_, rfl⟩, ?_⟩
  · exact List.mem_singleton_self _
  · exact List.cons_ne_nil _ _

/-- The same run without the timeout: the first member gets the connection, and the pass scheduled then
finds the pool used up. -/
def patientMember : List PoolEvent :=
  [.checkOut 0, .tick, .turn 0, .checkOut 1, .tick, .connected ⟨1, 0, true⟩ none, .tick, .turn 0]

theorem patient_member_waits : ∃ pool,
    Run.exec (poolStep { maxPoolSize := 1 }) (.new { maxPoolSize := 1 }) patientMember = some pool ∧
      pool.answers = [(0, .connection 1)] ∧
      ¬ (pool.Live ∧ (pool.connections ≠ [] ∨ pool.existing < 1)) := by
  have hcalm : Run.Meets (poolStep { maxPoolSize := 1 }) Calm (.new { maxPoolSize := 1 }) patientMember := by
    refine ⟨trivial, fun _ h1 => ⟨trivial, fun _ h2 => ⟨trivial, fun _ h3 => ⟨trivial, fun _ h4 =>
      ⟨trivial, fun _ h5 => ⟨?_, fun _ _ => ⟨trivial, fun _ _ => ⟨trivial, fun _ _ => trivial⟩⟩⟩⟩⟩⟩⟩⟩
    cases h1; cases h2; cases h3; cases h4; cases h5
    intro _ hf
    exact absurd (hf { id := 0 } rfl) (by decide)
  exact ⟨_, rfl, rfl, no_member_stranded { maxPoolSize := 1 } patientMember _ rfl hcalm rfl rfl rfl rfl⟩

end MongoDriver.Cmap
