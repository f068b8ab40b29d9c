/-
What a pool tells those who monitor it. Each of its functions emits events on its way; the events about one
connection follow the life of that connection: it is created and ready, checked out and checked in by turns, and
closed at most once, while it is available or right after it was checked in.
-/
import MongoDriver.Cmap.Checkout

namespace MongoDriver.Cmap

open ConnectionPool

/-! ## Events -/

inductive CloseReason
  | idle
  | stale
  | error
  | poolClosed
deriving DecidableEq

/-- An event about one connection. -/
inductive ConnectionEvent
  | created
  | ready
  | checkedOut
  | checkedIn
  | closed (reason : CloseReason)
deriving DecidableEq

/-- What a pool emits; the two events about the pool's own beginning and end are left out. -/
inductive PoolEmission
  | checkOutStarted
  | checkOutFailed (reason : Answer)
  | cleared (serviceId : Option ObjectId)
  | connection (id : Nat) (e : ConnectionEvent)
deriving DecidableEq

/-- An event about connection `i`. -/
def PoolEmission.about? (i : Nat) : PoolEmission → Option ConnectionEvent
  | .connection id e => if id = i then some e else none
  | _ => none

/-- The events about connection `i`. -/
def eventsAbout (i : Nat) (events : List PoolEmission) : List ConnectionEvent := events.filterMap (·.about? i)

/-! ## What the functions emit -/

namespace ConnectionPool

def checkOutEmits (pool : ConnectionPool) : List PoolEmission :=
  .checkOutStarted :: if pool.closed then [.checkOutFailed .poolClosed] else []

def checkInEmits (pool : ConnectionPool) (connection : Connection) : List PoolEmission :=
  let willDestroy := pool.closed || connectionIsStale pool.generations connection || connection.closed
  let reason := if connection.closed then .error else if pool.closed then .poolClosed else .stale
  .connection connection.id .checkedIn :: if willDestroy then [.connection connection.id (.closed reason)] else []

/-- `clear` throws before it emits. -/
def clearEmits (pool : ConnectionPool) (serviceId : Option ObjectId) : List PoolEmission :=
  match pool.generations.clear serviceId with
  | .ok _ => [.cleared serviceId]
  | .error _ => []

/-- The end of `close`: each connection that is available. -/
def closeEmits (pool : ConnectionPool) : List PoolEmission :=
  pool.connections.map fun connection => .connection connection.id (.closed .poolClosed)

def turnEmits (options : PoolOptions) (pool : ConnectionPool) (idleTime : Nat) : List PoolEmission :=
  match pool.waitQueue with
  | [] => []
  | member :: _ =>
    if member.cancelled then []
    else match pool.connections with
      | [] => []
      | connection :: _ =>
        let isStale := connectionIsStale pool.generations connection
        if isStale || connectionIsIdle options idleTime || connection.closed then
          let reason := if connection.closed then .error else if isStale then .stale else .idle
          [.connection connection.id (.closed reason)]
        else [.connection connection.id .checkedOut]

/-- The callback a pass gives to `createConnection`: an event only when somebody waits at the front. -/
def memberCallbackEmits (pool : ConnectionPool) (result : Option Nat) : List PoolEmission :=
  match pool.waitQueue with
  | [] => []
  | member :: _ =>
    if member.cancelled then []
    else match result with
      | some id => [.connection id .checkedOut]
      | none => [.checkOutFailed .connectFailed]

def connectFailedEmits (pool : ConnectionPool) (attempt : Attempt) : List PoolEmission :=
  if attempt.forMember then pool.memberCallbackEmits none else []

/-- A connection that is established for a closed pool is destroyed without an event. -/
def connectedEmits (pool : ConnectionPool) (attempt : Attempt) : List PoolEmission :=
  if pool.closed then []
  else [.connection attempt.id .created, .connection attempt.id .ready] ++
    if attempt.forMember then pool.memberCallbackEmits (some attempt.id) else []

def emits (options : PoolOptions) (pool : ConnectionPool) : PoolEvent → List PoolEmission
  | .checkOut _ => pool.checkOutEmits
  | .checkIn connection => pool.checkInEmits connection
  | .clear serviceId => pool.clearEmits serviceId
  | .close => if pool.closed then [] else pool.closeEmits
  | .turn idleTime => pool.turnEmits options idleTime
  | .timeOut _ => [.checkOutFailed .timedOut]
  | .connected attempt _ => pool.connectedEmits attempt
  | .connectFailed attempt => pool.connectFailedEmits attempt
  | .closeConnection _ | .tick | .ensureMinPoolSize | .connectionsDestroyed => []

end ConnectionPool

/-- The events of a step. The members that `close` calls back get none. -/
def Checkouts.emits (options : PoolOptions) (s : Checkouts) : CheckoutEvent → List PoolEmission
  | .checkOut => s.pool.checkOutEmits
  | .close => []
  | .drain => if s.pool.waitQueue = [] then s.pool.closeEmits else []
  | .cancelled attempt => s.pool.connectFailedEmits attempt
  | .pool e => s.pool.emits options e

/-- A pool and what it has emitted. -/
structure PoolMonitoring where
  checkouts : Checkouts
  events : List PoolEmission := []

namespace PoolMonitoring

def new (options : PoolOptions) : PoolMonitoring := { checkouts := .new options }

def step (options : PoolOptions) (m : PoolMonitoring) (e : CheckoutEvent) : Option PoolMonitoring :=
  (m.checkouts.step options e).map fun checkouts =>
    { checkouts, events := m.events ++ m.checkouts.emits options e }

/-- `close` is not called from a callback of `close`. -/
def ClosesOnce (m : PoolMonitoring) (e : CheckoutEvent) : Prop := e = .close → m.checkouts.draining = 0

instance (m : PoolMonitoring) (e : CheckoutEvent) : Decidable (m.ClosesOnce e) :=
  match e with
  | .close => decidable_of_iff (m.checkouts.draining = 0) ⟨fun h _ => h, fun h => h rfl⟩
  | .checkOut | .drain | .cancelled _ | .pool _ => .isTrue fun h => by cases h

end PoolMonitoring

/-! ## The life of a connection -/

/-- Where a connection is in its life, told from its events. -/
inductive ConnectionStage
  | absent
  | created
  | available
  | checkedOut
  | closed
deriving DecidableEq

/-- The events that may come next; the last stage has none. -/
def ConnectionStage.next : ConnectionStage → ConnectionEvent → Option ConnectionStage
  | .absent, .created => some .created
  | .created, .ready => some .available
  | .available, .checkedOut => some .checkedOut
  | .available, .closed _ => some .closed
  | .checkedOut, .checkedIn => some .available
  | _, _ => none

/-- The stage of connection `i` is the one the pool knows it in. In a closed pool none is available. -/
structure Follows (pool : ConnectionPool) (i : Nat) (stage : ConnectionStage) : Prop where
  absent : pool.connectionCounter ≤ i ∨ 0 < (pool.attempts.map (·.id)).count i → stage = .absent
  inUse : stage = .checkedOut ↔ 0 < (pool.inUse.map (·.id)).count i
  available : pool.closed = false → (stage = .available ↔ 0 < (pool.connections.map (·.id)).count i)
  closed : pool.closed = true → stage ≠ .available
  ready : stage ≠ .created

/-- The events lead connection `i` from its stage to the one it has after the step. -/
def Leads (pool pool' : ConnectionPool) (events : List PoolEmission) (i : Nat) : Prop :=
  ∀ stage, Follows pool i stage →
    ∃ stage', Run.exec ConnectionStage.next stage (eventsAbout i events) = some stage' ∧ Follows pool' i stage'

variable {options : PoolOptions} {pool pool' : ConnectionPool} {i : Nat}

@[simp] theorem eventsAbout_nil (i : Nat) : eventsAbout i [] = [] := rfl

theorem eventsAbout_same (i : Nat) (es : List ConnectionEvent) : eventsAbout i (es.map (.connection i)) = es := by
  induction es with
  | nil => rfl
  | cons e es ih =>
    unfold eventsAbout at ih ⊢
    have he : (PoolEmission.connection i e).about? i = some e := if_pos rfl
    rw [List.map_cons, List.filterMap_cons_some he, ih]

theorem eventsAbout_other {id : Nat} (h : id ≠ i) (es : List ConnectionEvent) :
    eventsAbout i (es.map (.connection id)) = [] := by
  induction es with
  | nil => rfl
  | cons e es ih =>
    unfold eventsAbout at ih ⊢
    have he : (PoolEmission.connection id e).about? i = none := if_neg h
    rw [List.map_cons, List.filterMap_cons_none he, ih]

theorem eventsAbout_append (i : Nat) (l l' : List PoolEmission) :
    eventsAbout i (l ++ l') = eventsAbout i l ++ eventsAbout i l' := List.filterMap_append

/-- A step that has no event about connection `i` and leaves it where it is. -/
theorem Leads.stay {events : List PoolEmission} (hevents : eventsAbout i events = [])
    (hcounter : pool.connectionCounter ≤ pool'.connectionCounter)
    (hattempts : 0 < (pool'.attempts.map (·.id)).count i →
      pool.connectionCounter ≤ i ∨ 0 < (pool.attempts.map (·.id)).count i)
    (hinUse : (pool'.inUse.map (·.id)).count i = (pool.inUse.map (·.id)).count i)
    (hconnections : (pool'.connections.map (·.id)).count i = (pool.connections.map (·.id)).count i)
    (hclosed : pool'.closed = pool.closed) : Leads pool pool' events i := by
  intro stage h
  refine ⟨stage, by rw [hevents]; rfl, ?_, ?_, ?_, ?_, h.ready⟩
  · rintro (hi | hi)
    · exact h.absent (.inl (hcounter.trans hi))
    · exact h.absent (hattempts hi)
  · rw [hinUse]
    exact h.inUse
  · rw [hconnections, hclosed]
    exact h.available
  · rw [hclosed]
    exact h.closed

/-- A step that has no event about connections and leaves them where they are. -/
theorem Leads.same {events : List PoolEmission} (hevents : eventsAbout i events = [])
    (hcounter : pool'.connectionCounter = pool.connectionCounter) (hattempts : pool'.attempts = pool.attempts)
    (hinUse : pool'.inUse = pool.inUse) (hconnections : pool'.connections = pool.connections)
    (hclosed : pool'.closed = pool.closed) : Leads pool pool' events i := by
  refine .stay hevents hcounter.ge (fun h => .inr ?_) (by rw [hinUse]) (by rw [hconnections]) hclosed
  rwa [hattempts] at h

theorem Leads.trans {pool'' : ConnectionPool} {l l' : List PoolEmission} (h : Leads pool pool' l i)
    (h' : Leads pool' pool'' l' i) : Leads pool pool'' (l ++ l') i := by
  intro stage hstage
  obtain ⟨stage', hrun, hstage'⟩ := h stage hstage
  obtain ⟨stage'', hrun', hstage''⟩ := h' stage' hstage'
  refine ⟨stage'', ?_, hstage''⟩
  rw [eventsAbout_append]
  exact (Run.exec_append _).2 ⟨stage', hrun, hrun'⟩

/-- A step whose events are about one connection. -/
theorem Leads.move {id : Nat} (es : List ConnectionEvent)
    (hmove : ∀ stage, Follows pool id stage → ∃ stage', Run.exec ConnectionStage.next stage es = some stage' ∧
      Follows pool' id stage')
    (hstay : id ≠ i → eventsAbout i (es.map (.connection id)) = [] → Leads pool pool' (es.map (.connection id)) i) :
    Leads pool pool' (es.map (.connection id)) i := by
  by_cases hid : id = i
  · subst hid
    intro stage h
    rw [eventsAbout_same]
    exact hmove stage h
  · exact hstay hid (eventsAbout_other hid es)

/-- A number is used once. -/
theorem ConnectionPool.Distinct.le_one (h : pool.Distinct) (i : Nat) :
    (pool.connections.map (·.id)).count i + (pool.inUse.map (·.id)).count i +
      (pool.attempts.map (·.id)).count i ≤ 1 :=
  (h i).trans (by split <;> omega)

/-! ## Each function leads every connection on -/

theorem createConnection_leads (pool : ConnectionPool) (forMember : Bool) (i : Nat) :
    Leads pool (pool.createConnection forMember) [] i := by
  refine .stay (eventsAbout_nil i) (Nat.le_succ _) ?_ rfl rfl rfl
  intro h
  simp only [createConnection, List.map_append, List.map_cons, List.map_nil, List.count_append, List.count_cons,
    List.count_nil, beq_iff_eq] at h
  split at h <;> omega

theorem foldl_createConnection_leads (i : Nat) : ∀ (l : List Nat) (pool : ConnectionPool),
    Leads pool (l.foldl (fun pool _ => pool.createConnection false) pool) [] i
  | [], _ => .same rfl rfl rfl rfl rfl rfl
  | _ :: l, pool => (createConnection_leads pool false i).trans (foldl_createConnection_leads i l _)

theorem finishPass_leads (pool : ConnectionPool) (i : Nat) : Leads pool (pool.finishPass options) [] i := by
  have hloop : Leads pool { pool with looping := false } [] i := .same rfl rfl rfl rfl rfl rfl
  unfold finishPass
  simp only
  split
  · exact hloop.trans (createConnection_leads _ true i)
  · exact .same rfl rfl rfl rfl rfl rfl

/-- The first available connection is taken and checked out or destroyed. -/
theorem take_leads {connection : Connection} {available : List Connection} {e : ConnectionEvent}
    (hdistinct : pool.Distinct) (hopen : pool.closed = false) (hconnections : pool.connections = connection :: available)
    (hcounter : pool'.connectionCounter = pool.connectionCounter) (hattempts : pool'.attempts = pool.attempts)
    (hclosed : pool'.closed = pool.closed) (havailable : pool'.connections = available)
    (he : (e = .checkedOut ∧ pool'.inUse = connection :: pool.inUse) ∨
      (∃ reason, e = .closed reason) ∧ pool'.inUse = pool.inUse) (i : Nat) :
    Leads pool pool' [.connection connection.id e] i := by
  have hcount (i : Nat) : (pool.connections.map (·.id)).count i =
      (pool'.connections.map (·.id)).count i + if connection.id = i then 1 else 0 := by
    rw [hconnections, havailable, List.map_cons, List.count_cons]
    simp only [beq_iff_eq]
  refine Leads.move [e] ?_ ?_
  · intro stage h
    have hcount := hcount connection.id
    have hone := hdistinct.le_one connection.id
    rw [if_pos rfl] at hcount
    obtain rfl : stage = .available := (h.available hopen).2 (by omega)
    have habsent : ¬ (pool'.connectionCounter ≤ connection.id ∨
        0 < (pool'.attempts.map (·.id)).count connection.id) := by
      rw [hcounter, hattempts]
      exact fun hi => absurd (h.absent hi) (by decide)
    rcases he with ⟨rfl, hinUse⟩ | ⟨⟨reason, rfl⟩, hinUse⟩
    · refine ⟨.checkedOut, rfl, fun hi => absurd hi habsent, ?_, ?_, fun _ => by decide, by decide⟩
      · rw [hinUse]
        simp
      · exact fun _ => iff_of_false (by decide) (by omega)
    · refine ⟨.closed, rfl, fun hi => absurd hi habsent, ?_, ?_, fun _ => by decide, by decide⟩
      · rw [hinUse]
        exact iff_of_false (by decide) (by omega)
      · exact fun _ => iff_of_false (by decide) (by omega)
  · intro hid hnone
    have hcount := hcount i
    rw [if_neg hid] at hcount
    refine .stay hnone hcounter.ge (fun h => .inr ?_) ?_ hcount.symm hclosed
    · rwa [hattempts] at h
    · rcases he with ⟨-, hinUse⟩ | ⟨-, hinUse⟩
      · rw [hinUse, List.map_cons, List.count_cons_of_ne hid]
      · rw [hinUse]

/-- Somebody waits, so the pool is open. -/
theorem ConnectionPool.Settled.open {member : WaitQueueMember} {rest : List WaitQueueMember} (h : pool.Settled)
    (hqueue : pool.waitQueue = member :: rest) : pool.closed = false := by
  cases hclosed : pool.closed with
  | false => rfl
  | true =>
    rw [h hclosed] at hqueue
    cases hqueue

theorem turn_leads (hdistinct : pool.Distinct) (hsettled : pool.Settled) (idleTime i : Nat) :
    Leads pool (pool.turn options idleTime) (pool.turnEmits options idleTime) i := by
  unfold turn turnEmits
  cases hqueue : pool.waitQueue with
  | nil => exact finishPass_leads pool i
  | cons member rest =>
    simp only
    split
    · exact .same rfl rfl rfl rfl rfl rfl
    · cases hconnections : pool.connections with
      | nil => exact finishPass_leads pool i
      | cons connection available =>
        simp only
        split
        · refine take_leads hdistinct (hsettled.open hqueue) hconnections ?_ ?_ ?_ ?_ (.inr ⟨⟨_, rfl⟩, ?_⟩) i <;> rfl
        · refine take_leads hdistinct (hsettled.open hqueue) hconnections ?_ ?_ ?_ ?_ (.inl ⟨rfl, ?_⟩) i <;> rfl

/-- A connection is given back, and destroyed when nobody can use it again. -/
theorem checkIn_leads (hdistinct : pool.Distinct) {connection : Connection} (hmem : connection ∈ pool.inUse) (i : Nat) :
    Leads pool (pool.checkIn connection) (pool.checkInEmits connection) i := by
  have herase := count_map_erase (·.id) hmem
  have hone := hdistinct.le_one connection.id
  have hown := herase connection.id
  rw [if_pos rfl] at hown
  unfold checkIn checkInEmits
  simp only
  split
  · refine Leads.move [.checkedIn, .closed _] ?_ ?_
    · intro stage h
      obtain rfl : stage = .checkedOut := h.inUse.2 (by omega)
      refine ⟨.closed, rfl, fun hi => absurd (h.absent hi) (by decide), ?_, ?_, fun _ => by decide, by decide⟩
      · refine iff_of_false (by decide) ?_
        show ¬ 0 < ((pool.inUse.erase connection).map (·.id)).count connection.id
        omega
      · refine fun _ => iff_of_false (by decide) ?_
        show ¬ 0 < (pool.connections.map (·.id)).count connection.id
        omega
    · intro hid hnone
      have herase := herase i
      rw [if_neg hid] at herase
      exact .stay hnone le_rfl .inr herase.symm rfl rfl
  · rename_i hkeep
    have hopen : pool.closed = false := by
      cases hclosed : pool.closed with
      | false => rfl
      | true => exact absurd (by rw [hclosed]; rfl) hkeep
    refine Leads.move [.checkedIn] ?_ ?_
    · intro stage h
      obtain rfl : stage = .checkedOut := h.inUse.2 (by omega)
      refine ⟨.available, rfl, fun hi => absurd (h.absent hi) (by decide), ?_, ?_, fun hclosed => ?_, by decide⟩
      · refine iff_of_false (by decide) ?_
        show ¬ 0 < ((pool.inUse.erase connection).map (·.id)).count connection.id
        omega
      · refine fun _ => iff_of_true rfl ?_
        show 0 < ((connection :: pool.connections).map (·.id)).count connection.id
        simp
      · exact absurd (hopen.symm.trans hclosed) (by decide)
    · intro hid hnone
      have herase := herase i
      rw [if_neg hid] at herase
      refine .stay hnone le_rfl .inr herase.symm ?_ rfl
      show ((connection :: pool.connections).map (·.id)).count i = (pool.connections.map (·.id)).count i
      rw [List.map_cons, List.count_cons_of_ne hid]

/-- The callback of an attempt leaves a connection with the available ones, without an event, or with those in use. -/
theorem memberCallback_places (pool : ConnectionPool) (result : Option Connection) :
    (pool.memberCallback result).attempts = pool.attempts ∧ (pool.memberCallback result).closed = pool.closed ∧
    (((pool.memberCallback result).connections = pool.connections ++ result.toList ∧
        (pool.memberCallback result).inUse = pool.inUse ∧ pool.memberCallbackEmits (result.map (·.id)) = []) ∨
      ((pool.memberCallback result).connections = pool.connections ∧
        (pool.memberCallback result).inUse = result.toList ++ pool.inUse ∧
        ∀ connection, result = some connection →
          pool.memberCallbackEmits (some connection.id) = [.connection connection.id .checkedOut])) := by
  unfold memberCallback memberCallbackEmits
  cases hqueue : pool.waitQueue with
  | nil => exact ⟨rfl, rfl, .inl ⟨rfl, rfl, rfl⟩⟩
  | cons member rest =>
    simp only
    split
    · exact ⟨rfl, rfl, .inl ⟨rfl, rfl, rfl⟩⟩
    · exact ⟨rfl, rfl, .inr ⟨rfl, rfl, fun _ _ => rfl⟩⟩

/-- An attempt ends with a connection, which is announced and then available or checked out. -/
theorem establish_leads (hdistinct : pool.Distinct) (hopen : pool.closed = false) {attempt : Attempt}
    (hmem : attempt ∈ pool.attempts) {connection : Connection} (hid : connection.id = attempt.id)
    (hcounter : pool'.connectionCounter = pool.connectionCounter)
    (hattempts : pool'.attempts = pool.attempts.erase attempt) (hclosed : pool'.closed = pool.closed)
    (es : List ConnectionEvent)
    (hplace : (es = [.created, .ready] ∧ pool'.connections = pool.connections ++ [connection] ∧
        pool'.inUse = pool.inUse) ∨
      (es = [.created, .ready, .checkedOut] ∧ pool'.connections = pool.connections ∧
        pool'.inUse = connection :: pool.inUse)) (i : Nat) :
    Leads pool pool' (es.map (.connection attempt.id)) i := by
  have herase := count_map_erase (·.id) hmem
  rw [← hattempts] at herase
  refine Leads.move es ?_ ?_
  · intro stage h
    have hown := herase attempt.id
    have hone := hdistinct.le_one attempt.id
    have hknown := hdistinct attempt.id
    unfold tally at hknown
    rw [if_pos rfl] at hown
    obtain rfl : stage = .absent := h.absent (.inr (by omega))
    have habsent : ¬ (pool'.connectionCounter ≤ attempt.id ∨ 0 < (pool'.attempts.map (·.id)).count attempt.id) := by
      rw [hcounter]
      split at hknown <;> omega
    rcases hplace with ⟨rfl, hconnections, hinUse⟩ | ⟨rfl, hconnections, hinUse⟩
    · refine ⟨.available, rfl, fun hi => absurd hi habsent, ?_, ?_, fun hc => ?_, by decide⟩
      · rw [hinUse]
        exact iff_of_false (by decide) (by omega)
      · refine fun _ => iff_of_true rfl ?_
        rw [hconnections, ← hid]
        simp
      · rw [hclosed, hopen] at hc
        cases hc
    · refine ⟨.checkedOut, rfl, fun hi => absurd hi habsent, ?_, ?_, fun _ => by decide, by decide⟩
      · rw [hinUse, ← hid]
        simp
      · rw [hconnections]
        exact fun _ => iff_of_false (by decide) (by omega)
  · intro hne hnone
    have hown := herase i
    rw [if_neg hne] at hown
    rw [← hid] at hne
    refine .stay hnone hcounter.ge (fun h => .inr (by omega)) ?_ ?_ hclosed
    · rcases hplace with ⟨-, -, hinUse⟩ | ⟨-, -, hinUse⟩
      · rw [hinUse]
      · rw [hinUse, List.map_cons, List.count_cons_of_ne hne]
    · rcases hplace with ⟨-, hconnections, -⟩ | ⟨-, hconnections, -⟩
      · simp [hconnections, hne]
      · rw [hconnections]

theorem connected_leads (hdistinct : pool.Distinct) {attempt : Attempt} (hmem : attempt ∈ pool.attempts)
    (serviceId : Option ObjectId) (i : Nat) :
    Leads pool (pool.connected attempt serviceId) (pool.connectedEmits attempt) i := by
  unfold connected connectedEmits
  simp only
  split
  · have herase := count_map_erase (·.id) hmem i
    refine .stay rfl le_rfl (fun h => .inr ?_) rfl rfl rfl
    rw [herase]
    exact Nat.add_pos_left h _
  · rename_i hclosed
    have hopen : pool.closed = false := by simpa using hclosed
    have hid := adopt_id pool.generations { id := attempt.id, generation := attempt.generation, serviceId }
    cases hadopt : pool.generations.adopt { id := attempt.id, generation := attempt.generation, serviceId } with
    | mk generations connection =>
      rw [hadopt] at hid
      have hid : connection.id = attempt.id := hid
      split
      · have hcounter := @memberCallback_counter
          { pool with attempts := pool.attempts.erase attempt, generations } (some connection)
        obtain ⟨hattempts, hc, hplace⟩ := memberCallback_places
          { pool with attempts := pool.attempts.erase attempt, generations } (some connection)
        rcases hplace with ⟨hconnections, hinUse, hnone⟩ | ⟨hconnections, hinUse, hout⟩
        · have hnone : pool.memberCallbackEmits (some connection.id) = [] := hnone
          rw [← hid, hnone, hid]
          exact establish_leads hdistinct hopen hmem hid hcounter hattempts hc [.created, .ready]
            (.inl ⟨rfl, hconnections, hinUse⟩) i
        · have hout : pool.memberCallbackEmits (some connection.id) = [.connection connection.id .checkedOut] :=
            hout _ rfl
          rw [← hid, hout, hid]
          exact establish_leads hdistinct hopen hmem hid hcounter hattempts hc [.created, .ready, .checkedOut]
            (.inr ⟨rfl, hconnections, hinUse⟩) i
      · refine establish_leads hdistinct hopen hmem hid ?_ ?_ ?_ [.created, .ready] (.inl ⟨rfl, ?_, ?_⟩) i <;> rfl

theorem connectFailed_leads {attempt : Attempt} (hmem : attempt ∈ pool.attempts) (i : Nat) :
    Leads pool (pool.connectFailed attempt) (pool.connectFailedEmits attempt) i := by
  have herase := count_map_erase (·.id) hmem i
  have hfewer : 0 < ((pool.attempts.erase attempt).map (·.id)).count i → 0 < (pool.attempts.map (·.id)).count i := by
    omega
  unfold connectFailed connectFailedEmits
  simp only
  split
  · obtain ⟨hattempts, hc, hplace⟩ := memberCallback_places
      { pool with permits := pool.permits + 1, attempts := pool.attempts.erase attempt } none
    have hnone : eventsAbout i (pool.memberCallbackEmits none) = [] := by
      unfold memberCallbackEmits
      cases pool.waitQueue with
      | nil => rfl
      | cons member rest =>
        simp only
        split <;> rfl
    have hcounter := @memberCallback_counter
      { pool with permits := pool.permits + 1, attempts := pool.attempts.erase attempt } none
    refine .stay hnone hcounter.ge (fun h => .inr (hfewer ?_)) ?_ ?_ hc
    · rwa [hattempts] at h
    · rcases hplace with ⟨-, hinUse, -⟩ | ⟨-, hinUse, -⟩
      · rw [hinUse]
      · rw [hinUse]
        rfl
    · rcases hplace with ⟨hconnections, -, -⟩ | ⟨hconnections, -, -⟩
      · rw [hconnections]
        simp
      · rw [hconnections]
  · exact .stay rfl le_rfl (fun h => .inr (hfewer h)) rfl rfl rfl

/-- `close` has an event for each connection that is available. -/
theorem eventsAbout_close (i : Nat) : ∀ l : List Connection,
    eventsAbout i (l.map fun connection => .connection connection.id (.closed .poolClosed)) =
      List.replicate ((l.map (·.id)).count i) (.closed .poolClosed)
  | [] => rfl
  | connection :: l => by
    have ih := eventsAbout_close i l
    unfold eventsAbout at ih ⊢
    by_cases hid : connection.id = i
    · have he : (PoolEmission.connection connection.id (.closed .poolClosed)).about? i = some (.closed .poolClosed) :=
        if_pos hid
      rw [List.map_cons, List.filterMap_cons_some he, ih, List.map_cons, hid, List.count_cons_self,
        List.replicate_succ]
    · have he : (PoolEmission.connection connection.id (.closed .poolClosed)).about? i = none := if_neg hid
      rw [List.map_cons, List.filterMap_cons_none he, ih, List.map_cons, List.count_cons_of_ne hid]

/-- At the end of `close` what is available is closed. -/
theorem close_leads (hdistinct : pool.Distinct) (hopen : pool.closed = false) (i : Nat) :
    Leads pool { pool with closed := true } pool.closeEmits i := by
  intro stage h
  have hone := hdistinct.le_one i
  unfold closeEmits
  rw [eventsAbout_close]
  by_cases hmem : 0 < (pool.connections.map (·.id)).count i
  · obtain rfl : stage = .available := (h.available hopen).2 hmem
    have hcount : (pool.connections.map (·.id)).count i = 1 := by omega
    rw [hcount]
    refine ⟨.closed, rfl, fun hi => absurd (h.absent hi) (by decide), ?_, ?_, fun _ => by decide, by decide⟩
    · refine iff_of_false (by decide) ?_
      show ¬ 0 < (pool.inUse.map (·.id)).count i
      omega
    · intro hc
      cases hc
  · have hcount : (pool.connections.map (·.id)).count i = 0 := by omega
    rw [hcount]
    refine ⟨stage, rfl, h.absent, h.inUse, ?_, fun _ hstage => hmem ((h.available hopen).1 hstage), h.ready⟩
    intro hc
    cases hc

theorem checkOut_leads (pool : ConnectionPool) (member i : Nat) :
    Leads pool (pool.checkOut member) pool.checkOutEmits i := by
  unfold checkOut checkOutEmits
  split <;> exact .same rfl rfl rfl rfl rfl rfl

/-- The events of the pool itself, `close` apart. -/
theorem poolStep_leads {e : PoolEvent} (hstep : PoolStep options pool e pool') (hclose : e ≠ .close)
    (hdistinct : pool.Distinct) (hsettled : pool.Settled) (i : Nat) : Leads pool pool' (pool.emits options e) i := by
  cases hstep with
  | checkOut member => exact checkOut_leads pool member i
  | checkIn hmem => exact checkIn_leads hdistinct hmem i
  | clear serviceId =>
    show Leads pool (pool.clear serviceId) (pool.clearEmits serviceId) i
    unfold ConnectionPool.clear clearEmits
    cases pool.generations.clear serviceId with
    | ok generations => exact .same rfl rfl rfl rfl rfl rfl
    | error e => exact .same rfl rfl rfl rfl rfl rfl
  | close => exact absurd rfl hclose
  | closeConnection id =>
    refine .stay rfl le_rfl .inr ?_ ?_ rfl
    · rw [ConnectionPool.closeConnection, map_mark_id]
    · rw [ConnectionPool.closeConnection, map_mark_id]
  | turn idleTime hloop => exact turn_leads hdistinct hsettled idleTime i
  | tick hloop hticks =>
    unfold startPass
    split <;> exact .same rfl rfl rfl rfl rfl rfl
  | timeOut member hloop => exact .same rfl rfl rfl rfl rfl rfl
  | connected serviceId hloop hmem => exact connected_leads hdistinct hmem serviceId i
  | connectFailed hloop hmem => exact connectFailed_leads hmem i
  | ensureMinPoolSize hloop =>
    unfold ConnectionPool.ensureMinPoolSize
    split
    · exact .same rfl rfl rfl rfl rfl rfl
    · exact foldl_createConnection_leads i _ pool
  | connectionsDestroyed hclosed =>
    intro stage h
    refine ⟨stage, rfl, h.absent, h.inUse, fun hopen => ?_, h.closed, h.ready⟩
    exact absurd (hclosed.symm.trans hopen) (by decide)

/-- A member that `close` calls back. -/
theorem drainMember_leads (pool : ConnectionPool) (member : WaitQueueMember) :
    (Checkouts.drainMember pool member).closed = pool.closed ∧
      ∀ i, Leads pool (Checkouts.drainMember pool member) [] i := by
  unfold Checkouts.drainMember
  simp only
  split
  · exact ⟨rfl, fun _ => .same rfl rfl rfl rfl rfl rfl⟩
  · exact ⟨rfl, fun _ => .same rfl rfl rfl rfl rfl rfl⟩

theorem connectFailed_closed (pool : ConnectionPool) (attempt : Attempt) :
    (pool.connectFailed attempt).closed = pool.closed := by
  unfold connectFailed
  simp only
  split
  · exact (memberCallback_places _ none).2.1
  · rfl

theorem checkOut_closed (pool : ConnectionPool) (member : Nat) : (pool.checkOut member).closed = pool.closed := by
  unfold checkOut
  split <;> rfl

/-- Only `close` closes the pool. -/
theorem poolStep_closed {e : PoolEvent} (hstep : PoolStep options pool e pool') (hclose : e ≠ .close) :
    pool'.closed = pool.closed := by
  cases hstep with
  | checkOut member => exact checkOut_closed pool member
  | checkIn hmem =>
    unfold checkIn
    simp only
    split <;> rfl
  | clear serviceId =>
    unfold ConnectionPool.clear
    cases pool.generations.clear serviceId <;> rfl
  | close => exact absurd rfl hclose
  | turn idleTime hloop =>
    unfold turn
    split
    · exact finishPass_closed pool
    · split
      · rfl
      · split
        · exact finishPass_closed pool
        · simp only
          split <;> rfl
  | tick hloop hticks =>
    unfold startPass
    split <;> rfl
  | connected serviceId hloop hmem =>
    unfold connected
    simp only
    split
    · rfl
    · split
      · exact (memberCallback_places _ _).2.1
      · rfl
  | connectFailed hloop hmem => exact connectFailed_closed pool _
  | ensureMinPoolSize hloop =>
    unfold ConnectionPool.ensureMinPoolSize
    split
    · rfl
    · exact @List.foldlRecOn _ _ (fun p : ConnectionPool => p.closed = pool.closed) _ _ _ rfl fun _ hp _ _ => hp
  | closeConnection | timeOut | connectionsDestroyed => rfl

/-! ## Whole runs -/

/-- What holds in every state of a run in which `close` does not call itself. -/
structure EventsSound (m : PoolMonitoring) : Prop where
  sound : CheckoutSound m.checkouts
  draining : m.checkouts.draining ≤ if m.checkouts.pool.closed then 0 else 1
  follows : ∀ i, ∃ stage, Run.exec ConnectionStage.next .absent (eventsAbout i m.events) = some stage ∧
    Follows m.checkouts.pool i stage

namespace EventsSound

variable {m m' : PoolMonitoring} {e : CheckoutEvent}

theorem start (options : PoolOptions) : EventsSound (.new options) where
  sound := .start options
  draining := by simp [PoolMonitoring.new, Checkouts.new, ConnectionPool.new]
  follows i := by
    refine ⟨.absent, rfl, fun _ => rfl, ?_, fun _ => ?_, fun _ => by decide, by decide⟩
    · exact iff_of_false (by decide) (Nat.lt_irrefl 0)
    · exact iff_of_false (by decide) (Nat.lt_irrefl 0)

theorem extend (h : EventsSound m) {events : List PoolEmission} {pool : ConnectionPool}
    (hleads : ∀ i, Leads m.checkouts.pool pool events i) (i : Nat) :
    ∃ stage, Run.exec ConnectionStage.next .absent (eventsAbout i (m.events ++ events)) = some stage ∧
      Follows pool i stage := by
  obtain ⟨stage, hrun, hstage⟩ := h.follows i
  obtain ⟨stage', hrun', hstage'⟩ := hleads i stage hstage
  refine ⟨stage', ?_, hstage'⟩
  rw [eventsAbout_append]
  exact (Run.exec_append _).2 ⟨stage, hrun, hrun'⟩

/-- A step of the pool while `close` goes on, or not. -/
theorem move (h : EventsSound m) {s : Checkouts} {events : List PoolEmission} (hsound : CheckoutSound s)
    (hdraining : s.draining = m.checkouts.draining) (hclosed : s.pool.closed = m.checkouts.pool.closed)
    (hleads : ∀ i, Leads m.checkouts.pool s.pool events i) :
    EventsSound { checkouts := s, events := m.events ++ events } := by
  refine ⟨hsound, ?_, h.extend hleads⟩
  show s.draining ≤ if s.pool.closed then 0 else 1
  rw [hdraining, hclosed]
  exact h.draining

theorem step (h : EventsSound m) (honce : m.ClosesOnce e) (hstep : m.step options e = some m') : EventsSound m' := by
  obtain ⟨checkouts, hcheckouts, rfl⟩ := Option.map_eq_some_iff.1 hstep
  have hsound := h.sound.step hcheckouts
  have hdistinct := h.sound.distinct
  have hsettled := h.sound.settled
  have hdraining := h.draining
  cases Checkouts.step_cases hcheckouts with
  | checkOut =>
    exact h.move hsound rfl (checkOut_closed m.checkouts.pool m.checkouts.next)
      (checkOut_leads m.checkouts.pool m.checkouts.next)
  | closedBefore => exact h.move hsound rfl rfl fun i => .same rfl rfl rfl rfl rfl rfl
  | close hopen =>
    refine ⟨hsound, ?_, h.extend fun i => .same rfl rfl rfl rfl rfl rfl⟩
    show m.checkouts.draining + 1 ≤ if m.checkouts.pool.closed then 0 else 1
    rw [honce rfl, hopen]
    exact le_rfl
  | drain hd hlast =>
    have hnone : m.checkouts.emits options .drain = [] := by
      refine if_neg fun hempty => ?_
      rw [hempty] at hlast
      cases hlast
    rw [hnone]
    have hmember := drainMember_leads m.checkouts.pool
    exact h.move hsound rfl (hmember _).1 (hmember _).2
  | drained hd hempty =>
    have hopen : m.checkouts.pool.closed = false := by
      cases hclosed : m.checkouts.pool.closed with
      | false => rfl
      | true =>
        rw [hclosed] at hdraining
        exact absurd (Nat.le_zero.1 hdraining) hd
    have hall : m.checkouts.emits options .drain = m.checkouts.pool.closeEmits := if_pos hempty
    rw [hall]
    refine ⟨hsound, ?_, h.extend (close_leads hdistinct hopen)⟩
    rw [hopen] at hdraining
    show m.checkouts.draining - 1 ≤ 0
    exact Nat.sub_le_of_le_add hdraining
  | cancelled hd hmem => exact h.move hsound rfl (connectFailed_closed _ _) (connectFailed_leads hmem)
  | checkIn hmem hpool =>
    exact h.move hsound rfl (poolStep_closed (poolStep_cases hpool) (by simp))
      (poolStep_leads (poolStep_cases hpool) (by simp) hdistinct hsettled)
  | pool hout hclose hin hpool =>
    exact h.move hsound rfl (poolStep_closed (poolStep_cases hpool) hclose)
      (poolStep_leads (poolStep_cases hpool) hclose hdistinct hsettled)

end EventsSound

/-- In every run in which `close` is not called from its own callbacks the events about each connection are those of
one life: it is created, becomes ready, is checked out and checked in by turns, and is closed at most once, when it is
not checked out, with no event after that. It was last checked out exactly when it is in use, and it can be taken
exactly when it is available; once the pool is closed, every connection that was created and is not in use is closed. -/
theorem connection_lives_once (options : PoolOptions) {es : List CheckoutEvent} {m : PoolMonitoring}
    (hmeets : Run.Meets (PoolMonitoring.step options) PoolMonitoring.ClosesOnce (.new options) es)
    (hrun : Run.exec (PoolMonitoring.step options) (.new options) es = some m) (i : Nat) :
    ∃ stage, Run.exec ConnectionStage.next .absent (eventsAbout i m.events) = some stage ∧
      (stage = .checkedOut ↔ i ∈ m.checkouts.pool.inUse.map (·.id)) ∧
      (m.checkouts.pool.closed = false → (stage = .available ↔ i ∈ m.checkouts.pool.connections.map (·.id))) ∧
      (m.checkouts.pool.closed = true → stage = .absent ∨ stage = .checkedOut ∨ stage = .closed) := by
  have h : EventsSound m := Run.exec_inv_meets (PoolMonitoring.step options)
    (fun _ _ _ h hc hs => EventsSound.step h hc hs) (EventsSound.start options) hmeets hrun
  obtain ⟨stage, hstage, hfollows⟩ := h.follows i
  refine ⟨stage, hstage, hfollows.inUse.trans List.count_pos_iff, fun hopen => ?_, fun hclosed => ?_⟩
  · exact (hfollows.available hopen).trans List.count_pos_iff
  · have hready := hfollows.ready
    have hidle := hfollows.closed hclosed
    cases stage with
    | absent => exact .inl rfl
    | created => exact absurd rfl hready
    | available => exact absurd rfl hidle
    | checkedOut => exact .inr (.inl rfl)
    | closed => exact .inr (.inr rfl)

/-- A connection is checked out, given back, taken again and given back to the closed pool. -/
def lentTwice : List CheckoutEvent :=
  [.checkOut, .pool .tick, .pool (.turn 0), .pool (.connected ⟨1, 0, true⟩ none), .pool (.checkIn { id := 1, generation := 0 }),
    .checkOut, .pool .tick, .pool (.turn 0), .close, .drain, .pool (.checkIn { id := 1, generation := 0 })]

theorem lentTwice_events : ∃ m, Run.exec (PoolMonitoring.step {}) (.new {}) lentTwice = some m ∧
    eventsAbout 1 m.events = [.created, .ready, .checkedOut, .checkedIn, .checkedOut, .checkedIn, .closed .poolClosed] ∧
    ∃ stage, Run.exec ConnectionStage.next .absent (eventsAbout 1 m.events) = some stage := by
  have h : (Run.exec (PoolMonitoring.step {}) (.new {}) lentTwice).map (fun m => eventsAbout 1 m.events) =
      some [.created, .ready, .checkedOut, .checkedIn, .checkedOut, .checkedIn, .closed .poolClosed] := rfl
  obtain ⟨m, hrun, heq⟩ := Option.map_eq_some_iff.1 h
  refine ⟨m, hrun, heq, ?_⟩
  have hmeets : Run.Meets (PoolMonitoring.step {}) PoolMonitoring.ClosesOnce (.new {}) lentTwice := by
    iterate 11 apply Run.Meets.cons (by decide) rfl
    trivial
  obtain ⟨stage, hstage, -⟩ := connection_lives_once {} hmeets hrun 1
  exact ⟨stage, hstage⟩

end MongoDriver.Cmap
