/-
Requests for a connection and what becomes of them. `close` calls the waiting members back one by one before
it marks the pool as closed, and a callback may use the pool again; so here `close` is taken apart, into its
start, the turns of its loop and its end, and the calls that come between them. It cancels the attempts in
progress, which fail at once. A request is a number, given in the order of the calls of `checkOut`: each is
answered once or waits in the queue, which is in order, and connections go to the front of it. A connection is
in one place at a time: available, checked out or being established.
-/
import MongoDriver.Base.Heap
import MongoDriver.Cmap.HandOut

namespace MongoDriver.Cmap

open ConnectionPool

/-! ## The machine -/

/-- A connection passed to a callback, or given back. -/
inductive Transfer
  | handed (connection : Nat)
  | checkedIn (connection : Nat)
deriving DecidableEq

/-- A pool with the calls of `close` that are draining its queue, one inside the other, the number of the next
request, and what was passed to and fro. -/
structure Checkouts where
  pool : ConnectionPool
  draining : Nat := 0
  next : Nat := 0
  log : List Transfer := []

def Answer.connection? : Answer → Option Nat
  | .connection id => some id
  | _ => none

/-- The connections passed to callbacks between two states. -/
def handed (before after : ConnectionPool) : List Nat :=
  (after.answers.drop before.answers.length).filterMap (·.2.connection?)

inductive CheckoutEvent
  | checkOut
  | close
  /-- a turn of the loop in `close`, or its end -/
  | drain
  /-- an attempt that `close` cancels -/
  | cancelled (attempt : Attempt)
  | pool (e : PoolEvent)

/-- What can be called from a callback, `checkOut` and `close` apart. -/
def PoolEvent.isCall : PoolEvent → Bool
  | .checkIn _ | .clear _ | .closeConnection _ => true
  | _ => false

namespace Checkouts

def new (options : PoolOptions) : Checkouts := { pool := .new options }

/-- The pool changes; `returned` is what was given back to it. -/
def record (s : Checkouts) (pool : ConnectionPool) (returned : List Nat) : Checkouts :=
  { s with
    pool
    log := s.log ++ returned.map .checkedIn ++ (handed s.pool pool).map .handed }

/-- A turn of the loop that drains the queue, which takes the last member. -/
def drainMember (pool : ConnectionPool) (member : WaitQueueMember) : ConnectionPool :=
  let pool := { pool with waitQueue := pool.waitQueue.dropLast }
  if member.cancelled then pool else pool.answer member.id .poolClosed

/-- What an event gives back. -/
def returned : PoolEvent → List Nat
  | .checkIn connection => [connection.id]
  | _ => []

/-- One event. While a queue is drained only calls can come between the turns. -/
def step (options : PoolOptions) (s : Checkouts) : CheckoutEvent → Option Checkouts
  | .checkOut => some { s.record (s.pool.checkOut s.next) [] with next := s.next + 1 }
  | .close => if s.pool.closed then some s else some { s with draining := s.draining + 1 }
  | .drain =>
    if s.draining = 0 then none
    else match s.pool.waitQueue.getLast? with
      | some member => some (s.record (drainMember s.pool member) [])
      | none => some { s with pool := { s.pool with closed := true }, draining := s.draining - 1 }
  | .cancelled attempt =>
    if 0 < s.draining ∧ attempt ∈ s.pool.attempts then some (s.record (s.pool.connectFailed attempt) []) else none
  | .pool (.checkOut _) => none
  | .pool .close => none
  | .pool e =>
    if 0 < s.draining ∧ e.isCall = false then none
    else (poolStep options s.pool e).map fun pool => s.record pool (returned e)

end Checkouts

/-! ## The ledger of requests -/

/-- The requests that got a connection, in the order of the answers. -/
def served (answers : List (Nat × Answer)) : List Nat :=
  answers.filterMap fun a => a.2.connection?.map fun _ => a.1

structure CheckoutLedger (queue : List WaitQueueMember) (answers : List (Nat × Answer)) (next : Nat) : Prop where
  sorted : queue.Pairwise (·.id < ·.id)
  bound : ∀ m ∈ queue, m.id < next
  once : (answers.map (·.1)).Nodup
  known : ∀ id ∈ answers.map (·.1), id < next
  waiting : ∀ m ∈ queue, m.cancelled = false → m.id ∉ answers.map (·.1)
  accounted : ∀ id < next, id ∈ answers.map (·.1) ∨ ∃ m ∈ queue, m.id = id ∧ m.cancelled = false
  inOrder : (served answers).Pairwise (· < ·)
  front : ∀ id ∈ served answers, ∀ m ∈ queue, id < m.id

namespace CheckoutLedger

variable {queue queue' : List WaitQueueMember} {answers : List (Nat × Answer)} {next : Nat} {m : WaitQueueMember}

theorem empty : CheckoutLedger [] [] 0 := by
  refine ⟨.nil, ?_, .nil, ?_, ?_, ?_, .nil, ?_⟩
  all_goals simp [served]

theorem served_append (answers : List (Nat × Answer)) (id : Nat) (a : Answer) :
    served (answers ++ [(id, a)]) = served answers ++ (a.connection?.map fun _ => id).toList := by
  unfold served
  rw [List.filterMap_append]
  congr 1

/-- A new request waits. -/
theorem push (h : CheckoutLedger queue answers next) :
    CheckoutLedger (queue ++ [{ id := next }]) answers (next + 1) := by
  refine ⟨?_, ?_, h.once, fun id hid => Nat.lt_succ_of_lt (h.known id hid), ?_, ?_, h.inOrder, ?_⟩
  · refine List.pairwise_append.2 ⟨h.sorted, List.pairwise_singleton .., ?_⟩
    intro m hm m' hm'
    obtain rfl := List.mem_singleton.1 hm'
    exact h.bound m hm
  · intro m hm
    rcases Heap.mem_alloc.1 hm with hm | rfl
    · exact Nat.lt_succ_of_lt (h.bound m hm)
    · exact Nat.lt_succ_self next
  · intro m hm hc
    rcases Heap.mem_alloc.1 hm with hm | rfl
    · exact h.waiting m hm hc
    · intro hid
      exact Nat.lt_irrefl next (h.known next hid)
  · intro id hid
    rcases Nat.lt_succ_iff_lt_or_eq.1 hid with hid | rfl
    · rcases h.accounted id hid with ha | ⟨m, hm, hm'⟩
      · exact .inl ha
      · exact .inr ⟨m, List.mem_append_left _ hm, hm'⟩
    · exact .inr ⟨_, List.mem_append_right _ (List.mem_singleton_self _), rfl, rfl⟩
  · intro id hid m hm
    rcases Heap.mem_alloc.1 hm with hm | rfl
    · exact h.front id hid m hm
    · refine h.known id ?_
      obtain ⟨a, ha, hsome⟩ := List.mem_filterMap.1 hid
      obtain ⟨_, -, rfl⟩ := Option.map_eq_some_iff.1 hsome
      exact List.mem_map_of_mem ha

/-- A request is refused at once: the pool is closed. -/
theorem refuse (h : CheckoutLedger queue answers next) :
    CheckoutLedger queue (answers ++ [(next, .poolClosed)]) (next + 1) := by
  have hids : (answers ++ [(next, Answer.poolClosed)]).map (·.1) = answers.map (·.1) ++ [next] := List.map_append
  have hserved : served (answers ++ [(next, .poolClosed)]) = served answers :=
    (served_append answers next .poolClosed).trans (List.append_nil _)
  refine ⟨h.sorted, fun m hm => Nat.lt_succ_of_lt (h.bound m hm), ?_, ?_, ?_, ?_,
    hserved ▸ h.inOrder, hserved ▸ h.front⟩
  · rw [hids]
    refine List.nodup_append.2 ⟨h.once, List.nodup_singleton _, ?_⟩
    intro id hid id' hid' heq
    obtain rfl := List.mem_singleton.1 hid'
    exact absurd (h.known id hid) (by omega)
  · rw [hids]
    intro id hid
    rcases Heap.mem_alloc.1 hid with hid | rfl
    · exact Nat.lt_succ_of_lt (h.known id hid)
    · exact Nat.lt_succ_self _
  · rw [hids]
    intro m hm hc hid
    rcases Heap.mem_alloc.1 hid with hid | hid
    · exact h.waiting m hm hc hid
    · exact absurd (h.bound m hm) (by omega)
  · rw [hids]
    intro id hid
    rcases Nat.lt_succ_iff_lt_or_eq.1 hid with hid | rfl
    · rcases h.accounted id hid with ha | hm
      · exact .inl (List.mem_append_left _ ha)
      · exact .inr hm
    · exact .inl (List.mem_append_right _ (List.mem_singleton_self _))

/-- A cancelled member leaves the queue. -/
theorem drop (h : CheckoutLedger queue answers next) (hsub : queue'.Sublist queue)
    (hrest : ∀ m' ∈ queue, m' ∈ queue' ∨ m' = m) (hc : m.cancelled = true) : CheckoutLedger queue' answers next := by
  refine ⟨h.sorted.sublist hsub, fun m' hm' => h.bound m' (hsub.subset hm'), h.once, h.known,
    fun m' hm' => h.waiting m' (hsub.subset hm'), ?_, h.inOrder, fun id hid m' hm' =>
      h.front id hid m' (hsub.subset hm')⟩
  intro id hid
  rcases h.accounted id hid with ha | ⟨m', hm', hid', hc'⟩
  · exact .inl ha
  · rcases hrest m' hm' with hm' | rfl
    · exact .inr ⟨m', hm', hid', hc'⟩
    · cases hc.symm.trans hc'

/-- The number of a waiting member joins those that were answered. -/
theorem answered (h : CheckoutLedger queue answers next) (hm : m ∈ queue) (hc : m.cancelled = false) :
    (answers.map (·.1) ++ [m.id]).Nodup ∧ ∀ id ∈ answers.map (·.1) ++ [m.id], id < next := by
  refine ⟨List.nodup_append.2 ⟨h.once, List.nodup_singleton _, ?_⟩, ?_⟩
  · intro id hid id' hid' heq
    obtain rfl := List.mem_singleton.1 hid'
    exact h.waiting m hm hc (heq ▸ hid)
  · intro id hid
    rcases Heap.mem_alloc.1 hid with hid | rfl
    · exact h.known id hid
    · exact h.bound m hm

/-- A waiting member leaves the queue with an answer; one that gets a connection was at the front. -/
theorem answer (h : CheckoutLedger queue answers next) (hm : m ∈ queue) (hsub : queue'.Sublist queue)
    (hrest : ∀ m' ∈ queue, m' ∈ queue' ∨ m' = m) (hne : ∀ m' ∈ queue', m'.id ≠ m.id) (hc : m.cancelled = false)
    (a : Answer) (hfront : a.connection?.isSome → ∀ m' ∈ queue', m.id < m'.id) :
    CheckoutLedger queue' (answers ++ [(m.id, a)]) next := by
  have hids : (answers ++ [(m.id, a)]).map (·.1) = answers.map (·.1) ++ [m.id] := List.map_append
  have hserved : ∀ id ∈ served (answers ++ [(m.id, a)]), id ∈ served answers ∨ id = m.id ∧ a.connection?.isSome := by
    intro id hid
    rw [served_append] at hid
    rcases List.mem_append.1 hid with hid | hid
    · exact .inl hid
    · obtain ⟨c, hcon, rfl⟩ := Option.map_eq_some_iff.1 (Option.mem_toList.1 hid)
      exact .inr ⟨rfl, by rw [hcon]; rfl⟩
  refine ⟨h.sorted.sublist hsub, fun m' hm' => h.bound m' (hsub.subset hm'), ?_, ?_, ?_, ?_, ?_, ?_⟩
  · rw [hids]
    exact (h.answered hm hc).1
  · rw [hids]
    exact (h.answered hm hc).2
  · rw [hids]
    intro m' hm' hc' hid
    rcases Heap.mem_alloc.1 hid with hid | hid
    · exact h.waiting m' (hsub.subset hm') hc' hid
    · exact hne m' hm' hid
  · rw [hids]
    intro id hid
    rcases h.accounted id hid with ha | ⟨m', hm', hid', hc'⟩
    · exact .inl (List.mem_append_left _ ha)
    · rcases hrest m' hm' with hm' | rfl
      · exact .inr ⟨m', hm', hid', hc'⟩
      · exact .inl (List.mem_append_right _ (List.mem_singleton.2 hid'.symm))
  · rw [served_append]
    refine List.pairwise_append.2 ⟨h.inOrder, ?_, ?_⟩
    · cases a.connection?.map fun _ => m.id with
      | none => exact .nil
      | some id => exact List.pairwise_singleton ..
    · intro id hid id' hid'
      obtain ⟨_, -, rfl⟩ := Option.map_eq_some_iff.1 (Option.mem_toList.1 hid')
      exact h.front id hid m hm
  · intro id hid m' hm'
    rcases hserved id hid with hid | ⟨rfl, hcon⟩
    · exact h.front id hid m' (hsub.subset hm')
    · exact hfront hcon m' hm'

/-- The front of the queue, which is before all others. -/
theorem front_lt (h : CheckoutLedger (m :: queue) answers next) : ∀ m' ∈ queue, m.id < m'.id :=
  (List.pairwise_cons.1 h.sorted).1

/-- The member at the front is shifted. -/
theorem shift (h : CheckoutLedger (m :: queue) answers next) (hc : m.cancelled = true) :
    CheckoutLedger queue answers next :=
  h.drop (List.sublist_cons_self ..) (fun _ hm' => (List.mem_cons.1 hm').symm) hc

/-- The member at the front is called back. -/
theorem serve (h : CheckoutLedger (m :: queue) answers next) (hc : m.cancelled = false) (a : Answer) :
    CheckoutLedger queue (answers ++ [(m.id, a)]) next :=
  h.answer (List.mem_cons_self ..) (List.sublist_cons_self ..) (fun _ hm' => (List.mem_cons.1 hm').symm)
    (fun m' hm' => (h.front_lt m' hm').ne') hc a fun _ => h.front_lt

/-- A member times out where it stands. -/
theorem timeOut (h : CheckoutLedger queue answers next) (hm : m ∈ queue) (hc : m.cancelled = false) :
    CheckoutLedger (queue.map fun m' => if m'.id = m.id then { m' with cancelled := true } else m')
      (answers ++ [(m.id, .timedOut)]) next := by
  have hids : (answers ++ [(m.id, Answer.timedOut)]).map (·.1) = answers.map (·.1) ++ [m.id] := List.map_append
  have hserved : served (answers ++ [(m.id, .timedOut)]) = served answers :=
    (served_append answers m.id .timedOut).trans (List.append_nil _)
  -- the members have the same numbers, and those that still wait are the others
  have hold : ∀ m' ∈ queue.map (fun m' => if m'.id = m.id then { m' with cancelled := true } else m'),
      ∃ m'' ∈ queue, m''.id = m'.id ∧ (m'.cancelled = false → m'.id ≠ m.id ∧ m''.cancelled = false) := by
    intro m' hm'
    obtain ⟨m'', hm'', rfl⟩ := List.mem_map.1 hm'
    refine ⟨m'', hm'', ?_, fun hlive => ?_⟩
    · split <;> rfl
    · split at hlive
      · cases hlive
      · rename_i hne
        rw [if_neg hne]
        exact ⟨hne, hlive⟩
  refine ⟨?_, ?_, ?_, ?_, ?_, ?_, hserved ▸ h.inOrder, ?_⟩
  · refine List.pairwise_map.2 (h.sorted.imp fun {a b} hab => ?_)
    split <;> split <;> exact hab
  · intro m' hm'
    obtain ⟨m'', hm'', hid, -⟩ := hold m' hm'
    exact hid ▸ h.bound m'' hm''
  · rw [hids]
    exact (h.answered hm hc).1
  · rw [hids]
    exact (h.answered hm hc).2
  · rw [hids]
    intro m' hm' hlive hid
    obtain ⟨m'', hm'', hid'', hother⟩ := hold m' hm'
    rcases Heap.mem_alloc.1 hid with hid | hid
    · exact h.waiting m'' hm'' (hother hlive).2 (hid'' ▸ hid)
    · exact (hother hlive).1 hid
  · rw [hids]
    intro id hid
    rcases h.accounted id hid with ha | ⟨m', hm', rfl, hc'⟩
    · exact .inl (List.mem_append_left _ ha)
    · by_cases heq : m'.id = m.id
      · exact .inl (List.mem_append_right _ (List.mem_singleton.2 heq))
      · refine .inr ⟨m', List.mem_map.2 ⟨m', hm', if_neg heq⟩, rfl, hc'⟩
  · rw [hserved]
    intro id hid m' hm'
    obtain ⟨m'', hm'', hid', -⟩ := hold m' hm'
    exact hid' ▸ h.front id hid m'' hm''

end CheckoutLedger

namespace ConnectionPool

variable {options : PoolOptions} {pool : ConnectionPool} {next : Nat}

theorem finishPass_waitQueue (pool : ConnectionPool) : (pool.finishPass options).waitQueue = pool.waitQueue := by
  unfold finishPass
  simp only
  split <;> rfl

theorem finishPass_answers (pool : ConnectionPool) : (pool.finishPass options).answers = pool.answers := by
  unfold finishPass
  simp only
  split <;> rfl

theorem turn_ledger (h : CheckoutLedger pool.waitQueue pool.answers next) (idleTime : Nat) :
    CheckoutLedger (pool.turn options idleTime).waitQueue (pool.turn options idleTime).answers next := by
  have hfinish : CheckoutLedger (pool.finishPass options).waitQueue (pool.finishPass options).answers next := by
    rw [finishPass_waitQueue, finishPass_answers]
    exact h
  unfold turn
  split
  · exact hfinish
  · rename_i member rest hq
    split
    · rename_i hc
      rw [hq] at h
      exact h.shift hc
    · rename_i hc
      split
      · exact hfinish
      · simp only
        split
        · exact h
        · rw [hq] at h
          exact h.serve (by simpa using hc) _

theorem memberCallback_ledger (h : CheckoutLedger pool.waitQueue pool.answers next) (result : Option Connection) :
    CheckoutLedger (pool.memberCallback result).waitQueue (pool.memberCallback result).answers next := by
  unfold memberCallback
  split
  · exact h
  · rename_i member rest hq
    rw [hq] at h
    split
    · rename_i hc
      exact h.shift hc
    · rename_i hc
      exact h.serve (by simpa using hc) _

theorem connected_ledger (h : CheckoutLedger pool.waitQueue pool.answers next) (attempt : Attempt)
    (serviceId : Option ObjectId) :
    CheckoutLedger (pool.connected attempt serviceId).waitQueue (pool.connected attempt serviceId).answers next := by
  unfold connected
  simp only
  split
  · exact h
  · split
    · refine memberCallback_ledger ?_ _
      exact h
    · exact h

theorem connectFailed_ledger (h : CheckoutLedger pool.waitQueue pool.answers next) (attempt : Attempt) :
    CheckoutLedger (pool.connectFailed attempt).waitQueue (pool.connectFailed attempt).answers next := by
  unfold connectFailed
  simp only
  split
  · refine memberCallback_ledger ?_ _
    exact h
  · exact h

end ConnectionPool

theorem drainMember_ledger {pool : ConnectionPool} {member : WaitQueueMember} {next : Nat}
    (h : CheckoutLedger pool.waitQueue pool.answers next) (hlast : pool.waitQueue.getLast? = some member) :
    CheckoutLedger (Checkouts.drainMember pool member).waitQueue (Checkouts.drainMember pool member).answers next := by
  obtain ⟨rest, hq⟩ := List.getLast?_eq_some_iff.1 hlast
  have hdrop : pool.waitQueue.dropLast = rest := by rw [hq, List.dropLast_concat]
  have hsub : rest.Sublist pool.waitQueue := by rw [hq]; exact List.sublist_append_left ..
  have hrest : ∀ m' ∈ pool.waitQueue, m' ∈ rest ∨ m' = member := by
    intro m' hm'
    rw [hq] at hm'
    exact Heap.mem_alloc.1 hm'
  unfold Checkouts.drainMember
  simp only
  split
  · rename_i hc
    show CheckoutLedger pool.waitQueue.dropLast pool.answers next
    rw [hdrop]
    exact h.drop hsub hrest hc
  · rename_i hc
    show CheckoutLedger pool.waitQueue.dropLast (pool.answers ++ [(member.id, .poolClosed)]) next
    rw [hdrop]
    refine h.answer (by rw [hq]; simp) hsub hrest ?_ (by simpa using hc) .poolClosed fun hcon => (nomatch hcon)
    -- the last member comes after all others
    intro m' hm'
    have hsorted := h.sorted
    rw [hq] at hsorted
    exact ((List.pairwise_append.1 hsorted).2.2 m' hm' member (List.mem_singleton_self _)).ne

theorem checkOut_ledger {pool : ConnectionPool} {next : Nat} (h : CheckoutLedger pool.waitQueue pool.answers next) :
    CheckoutLedger (pool.checkOut next).waitQueue (pool.checkOut next).answers (next + 1) := by
  unfold ConnectionPool.checkOut
  split
  · exact h.refuse
  · exact h.push

theorem foldl_createConnection_ledger {pool : ConnectionPool} {next : Nat} (l : List Nat)
    (h : CheckoutLedger pool.waitQueue pool.answers next) :
    CheckoutLedger (l.foldl (fun pool _ => pool.createConnection false) pool).waitQueue
      (l.foldl (fun pool _ => pool.createConnection false) pool).answers next := by
  obtain ⟨new, permits, counter, hf⟩ := foldl_createConnection l pool
  rw [hf]
  exact h

/-- The events of the pool itself, the calls of `checkOut` and `close` apart. -/
theorem poolStep_ledger {options : PoolOptions} {pool pool' : ConnectionPool} {e : PoolEvent} {next : Nat}
    (hstep : poolStep options pool e = some pool') (hout : ∀ member, e ≠ .checkOut member) (hclose : e ≠ .close)
    (h : CheckoutLedger pool.waitQueue pool.answers next) : CheckoutLedger pool'.waitQueue pool'.answers next := by
  cases poolStep_cases hstep with
  | checkOut member => exact absurd rfl (hout member)
  | close => exact absurd rfl hclose
  | checkIn hmem =>
    unfold ConnectionPool.checkIn
    simp only
    split <;> exact h
  | clear serviceId =>
    unfold ConnectionPool.clear
    split <;> exact h
  | closeConnection id => exact h
  | turn idleTime hloop => exact turn_ledger h idleTime
  | tick hloop hticks =>
    unfold startPass
    split <;> exact h
  | timeOut member hloop =>
    simp only [poolStep] at hstep
    split at hstep
    · rename_i hg
      obtain ⟨-, m, hm, rfl, hc⟩ := hg
      exact h.timeOut hm hc
    · cases hstep
  | connected serviceId hloop hmem => exact connected_ledger h _ serviceId
  | connectFailed hloop hmem => exact connectFailed_ledger h _
  | ensureMinPoolSize hloop =>
    unfold ConnectionPool.ensureMinPoolSize
    split
    · exact h
    · exact foldl_createConnection_ledger _ h
  | connectionsDestroyed hclosed => exact h

/-! ## A connection is in one place -/

namespace ConnectionPool

/-- How often a number is that of a connection or of an attempt. -/
def tally (pool : ConnectionPool) (i : Nat) : Nat :=
  (pool.connections.map (·.id)).count i + (pool.inUse.map (·.id)).count i + (pool.attempts.map (·.id)).count i

/-- Connections and attempts have different numbers, which the counter has given out. -/
def Distinct (pool : ConnectionPool) : Prop := ∀ i, pool.tally i ≤ if i < pool.connectionCounter then 1 else 0

variable {options : PoolOptions} {pool pool' : ConnectionPool}

theorem Distinct.mono (h : pool.Distinct) (htally : ∀ i, pool'.tally i ≤ pool.tally i)
    (hcounter : pool'.connectionCounter = pool.connectionCounter) : pool'.Distinct := by
  intro i
  rw [hcounter]
  exact (htally i).trans (h i)

theorem count_map_erase {α : Type*} [DecidableEq α] {l : List α} {a : α} (f : α → Nat) (h : a ∈ l) (i : Nat) :
    (l.map f).count i = ((l.erase a).map f).count i + if f a = i then 1 else 0 := by
  rw [((List.perm_cons_erase h).map f).count_eq i, List.map_cons, List.count_cons]
  simp only [beq_iff_eq]

theorem createConnection_distinct (h : pool.Distinct) (forMember : Bool) :
    (pool.createConnection forMember).Distinct := by
  intro i
  have hi := h i
  unfold createConnection tally at *
  simp only [List.map_append, List.map_cons, List.map_nil, List.count_append, List.count_cons,
    List.count_nil, beq_iff_eq]
  split at hi <;> split <;> split <;> omega

theorem foldl_createConnection_distinct :
    ∀ (l : List Nat) {pool : ConnectionPool}, pool.Distinct →
      (l.foldl (fun pool _ => pool.createConnection false) pool).Distinct
  | [], _, h => h
  | _ :: l, _, h => foldl_createConnection_distinct l (createConnection_distinct h false)

theorem finishPass_distinct (h : pool.Distinct) : (pool.finishPass options).Distinct := by
  unfold finishPass
  simp only
  split
  · refine createConnection_distinct ?_ true
    exact h
  · exact h

theorem turn_distinct (h : pool.Distinct) (idleTime : Nat) : (pool.turn options idleTime).Distinct := by
  unfold turn
  split
  · exact finishPass_distinct h
  · split
    · exact h
    · split
      · exact finishPass_distinct h
      · rename_i connection available hconnections
        simp only
        split
        · refine h.mono (fun i => ?_) rfl
          simp only [tally, destroyConnection, hconnections, List.map_cons, List.count_cons]
          omega
        · refine h.mono (fun i => ?_) rfl
          simp only [tally, answer, hconnections, List.map_cons, List.count_cons]
          omega

/-- The callback keeps the connection, if there is one, with the available ones or with those in use. -/
theorem memberCallback_tally (result : Option Connection) (i : Nat) :
    (pool.memberCallback result).tally i = pool.tally i + (result.toList.map (·.id)).count i := by
  unfold memberCallback
  split
  · simp only [tally, List.map_append, List.count_append]
    omega
  · split
    · simp only [tally, List.map_append, List.count_append]
      omega
    · simp only [tally, nextTick, answer, List.map_append, List.count_append]
      omega

theorem memberCallback_counter (result : Option Connection) :
    (pool.memberCallback result).connectionCounter = pool.connectionCounter := by
  unfold memberCallback
  split
  · rfl
  · split <;> rfl

theorem adopt_id (g : Generations) (c : Connection) : (g.adopt c).2.id = c.id := by
  unfold Generations.adopt
  split
  · split <;> rfl
  · rfl

theorem connected_distinct (h : pool.Distinct) {attempt : Attempt} (hmem : attempt ∈ pool.attempts)
    (serviceId : Option ObjectId) : (pool.connected attempt serviceId).Distinct := by
  have herase := count_map_erase (·.id) hmem
  unfold connected
  simp only
  split
  · refine h.mono (fun i => ?_) rfl
    simp only [tally, herase i]
    omega
  · split
    · refine h.mono (fun i => ?_) (memberCallback_counter _)
      rw [memberCallback_tally]
      simp only [tally, herase i, Option.toList_some, List.map_cons, List.map_nil, adopt_id, List.count_cons,
        List.count_nil, beq_iff_eq]
      omega
    · refine h.mono (fun i => ?_) rfl
      simp only [tally, nextTick, herase i, List.map_append, List.map_cons, List.map_nil, adopt_id, List.count_append,
        List.count_cons, List.count_nil, beq_iff_eq]
      omega

theorem connectFailed_distinct (h : pool.Distinct) {attempt : Attempt} (hmem : attempt ∈ pool.attempts) :
    (pool.connectFailed attempt).Distinct := by
  have herase := count_map_erase (·.id) hmem
  unfold connectFailed
  simp only
  split
  · refine h.mono (fun i => ?_) (memberCallback_counter _)
    rw [memberCallback_tally]
    simp only [tally, herase i, Option.toList_none, List.map_nil, List.count_nil]
    omega
  · refine h.mono (fun i => ?_) rfl
    simp only [tally, herase i]
    omega

theorem checkIn_distinct (h : pool.Distinct) {connection : Connection} (hmem : connection ∈ pool.inUse) :
    (pool.checkIn connection).Distinct := by
  have herase := count_map_erase (·.id) hmem
  unfold checkIn
  simp only
  split
  · refine h.mono (fun i => ?_) rfl
    simp only [tally, nextTick, destroyConnection, herase i]
    omega
  · refine h.mono (fun i => ?_) rfl
    simp only [tally, nextTick, herase i, List.map_cons, List.count_cons, beq_iff_eq]
    omega

theorem map_mark_id (l : List Connection) (id : Nat) :
    (l.map fun c => if c.id = id then { c with closed := true } else c).map (·.id) = l.map (·.id) := by
  rw [List.map_map]
  refine List.map_congr_left fun c _ => ?_
  simp only [Function.comp_apply]
  split <;> rfl

end ConnectionPool

theorem poolStep_distinct {options : PoolOptions} {pool pool' : ConnectionPool} {e : PoolEvent}
    (hstep : PoolStep options pool e pool') (h : pool.Distinct) : pool'.Distinct := by
  cases hstep with
  | checkOut member =>
    unfold ConnectionPool.checkOut
    split <;> exact h
  | close =>
    unfold ConnectionPool.close
    split <;> exact h
  | checkIn hmem => exact checkIn_distinct h hmem
  | clear serviceId =>
    unfold ConnectionPool.clear
    split <;> exact h
  | closeConnection id =>
    refine h.mono (fun i => ?_) rfl
    simp only [tally, ConnectionPool.closeConnection, map_mark_id, le_refl]
  | turn idleTime hloop => exact turn_distinct h idleTime
  | tick hloop hticks =>
    unfold startPass
    split <;> exact h
  | timeOut member hloop => exact h
  | connected serviceId hloop hmem => exact connected_distinct h hmem serviceId
  | connectFailed hloop hmem => exact connectFailed_distinct h hmem
  | ensureMinPoolSize hloop =>
    unfold ConnectionPool.ensureMinPoolSize
    split
    · exact h
    · exact foldl_createConnection_distinct _ h
  | connectionsDestroyed hclosed =>
    refine h.mono (fun i => ?_) rfl
    simp only [tally, List.map_nil, List.count_nil]
    omega

/-! ## What is passed to and fro -/

/-- A connection was handed out and not given back since. -/
def Lent (log : List Transfer) (i : Nat) : Prop := ∃ p q, log = p ++ .handed i :: q ∧ .checkedIn i ∉ q

/-- Between two times a connection is handed out it is given back. -/
def Apart (log : List Transfer) : Prop :=
  ∀ p i q r, log = p ++ .handed i :: (q ++ .handed i :: r) → .checkedIn i ∈ q

theorem lent_concat {log : List Transfer} {t : Transfer} {i : Nat} (h : Lent (log ++ [t]) i) :
    t = .handed i ∨ (Lent log i ∧ t ≠ .checkedIn i) := by
  obtain ⟨p, q, heq, hq⟩ := h
  rcases List.eq_nil_or_concat q with rfl | ⟨q', t', rfl⟩
  · exact .inl (List.cons.inj (List.append_inj' heq rfl).2).1
  · rw [List.concat_eq_append, ← List.cons_append, ← List.append_assoc] at heq
    obtain ⟨rfl, ht⟩ := List.append_inj' heq rfl
    obtain ⟨rfl, -⟩ := List.cons.inj ht
    refine .inr ⟨⟨p, q', rfl, fun hmem => hq (by simp [hmem])⟩, ?_⟩
    rintro rfl
    exact hq (by simp)

theorem Apart.concat {log : List Transfer} {t : Transfer} (h : Apart log) (ht : ∀ i, t = .handed i → ¬ Lent log i) :
    Apart (log ++ [t]) := by
  intro p i q r heq
  rcases List.eq_nil_or_concat r with rfl | ⟨r', t', rfl⟩
  · rw [← List.cons_append, ← List.append_assoc] at heq
    obtain ⟨rfl, hlast⟩ := List.append_inj' heq rfl
    by_contra hmem
    exact ht i (List.cons.inj hlast).1 ⟨p, q, rfl, hmem⟩
  · rw [List.concat_eq_append, ← List.cons_append, ← List.append_assoc, ← List.cons_append, ← List.append_assoc] at heq
    obtain ⟨rfl, -⟩ := List.append_inj' heq rfl
    exact h p i q r' (List.append_assoc ..)

/-- Between the two states at most one connection is passed to a callback, and it is checked out then. -/
def Passes (pool pool' : ConnectionPool) : Prop :=
  ∃ new : Option Nat, handed pool pool' = new.toList ∧
    pool'.inUse.map (·.id) = new.toList ++ pool.inUse.map (·.id)

namespace ConnectionPool

variable {options : PoolOptions} {pool pool' : ConnectionPool}

theorem handed_append {new : List (Nat × Answer)} (h : pool'.answers = pool.answers ++ new) :
    handed pool pool' = new.filterMap (·.2.connection?) := by
  rw [handed, h, List.drop_left]

theorem handed_same (h : pool'.answers = pool.answers) : handed pool pool' = [] :=
  handed_append (h.trans (List.append_nil _).symm)

theorem passes_same (hanswers : pool'.answers = pool.answers) (hinUse : pool'.inUse = pool.inUse) : Passes pool pool' :=
  ⟨none, handed_same hanswers, by rw [hinUse]; rfl⟩

/-- Someone is called back without a connection. -/
theorem passes_refused {member : Nat} {a : Answer} (hanswers : pool'.answers = pool.answers ++ [(member, a)])
    (ha : a.connection? = none) (hinUse : pool'.inUse = pool.inUse) : Passes pool pool' := by
  refine ⟨none, ?_, by rw [hinUse]; rfl⟩
  rw [handed_append hanswers]
  exact List.filterMap_cons_none ha

theorem passes_connection {member : Nat} {connection : Connection}
    (hanswers : pool'.answers = pool.answers ++ [(member, .connection connection.id)])
    (hinUse : pool'.inUse = connection :: pool.inUse) : Passes pool pool' := by
  refine ⟨some connection.id, ?_, by rw [hinUse]; rfl⟩
  rw [handed_append hanswers]
  rfl

theorem memberCallback_passes (result : Option Connection) (hanswers : pool'.answers = pool.answers)
    (hinUse : pool'.inUse = pool.inUse) : Passes pool (pool'.memberCallback result) := by
  unfold memberCallback
  split
  · exact passes_same hanswers hinUse
  · split
    · exact passes_same hanswers hinUse
    · rename_i member rest hq hc
      cases result with
      | none => exact passes_refused (congrArg (· ++ [(member.id, Answer.connectFailed)]) hanswers) rfl hinUse
      | some connection =>
        exact passes_connection (congrArg (· ++ [(member.id, Answer.connection connection.id)]) hanswers)
          (congrArg (connection :: ·) hinUse)

theorem connected_passes (attempt : Attempt) (serviceId : Option ObjectId) :
    Passes pool (pool.connected attempt serviceId) := by
  unfold connected
  simp only
  split
  · exact passes_same rfl rfl
  · split
    · exact memberCallback_passes _ rfl rfl
    · exact passes_same rfl rfl

theorem connectFailed_passes (attempt : Attempt) : Passes pool (pool.connectFailed attempt) := by
  unfold connectFailed
  simp only
  split
  · exact memberCallback_passes _ rfl rfl
  · exact passes_same rfl rfl

theorem turn_passes (idleTime : Nat) : Passes pool (pool.turn options idleTime) := by
  unfold turn
  split
  · exact passes_same (finishPass_answers pool) (finishPass_inUse pool)
  · split
    · exact passes_same rfl rfl
    · split
      · exact passes_same (finishPass_answers pool) (finishPass_inUse pool)
      · simp only
        split
        · exact passes_same rfl rfl
        · exact passes_connection rfl rfl

theorem checkOut_passes (member : Nat) : Passes pool (pool.checkOut member) := by
  unfold checkOut
  split
  · exact passes_refused rfl rfl rfl
  · exact passes_same rfl rfl

end ConnectionPool

theorem drainMember_passes (pool : ConnectionPool) (member : WaitQueueMember) :
    Passes pool (Checkouts.drainMember pool member) := by
  unfold Checkouts.drainMember
  simp only
  split
  · exact passes_same rfl rfl
  · exact passes_refused rfl rfl rfl

/-- The events of the pool itself, the calls of `checkIn` and `close` apart. -/
theorem poolStep_passes {options : PoolOptions} {pool pool' : ConnectionPool} {e : PoolEvent}
    (hstep : PoolStep options pool e pool') (hin : ∀ connection, e ≠ .checkIn connection) (hclose : e ≠ .close) :
    Passes pool pool' := by
  cases hstep with
  | checkOut member => exact checkOut_passes member
  | close => exact absurd rfl hclose
  | checkIn hmem => exact absurd rfl (hin _)
  | clear serviceId =>
    unfold ConnectionPool.clear
    split <;> exact passes_same rfl rfl
  | closeConnection id => exact ⟨none, handed_same rfl, map_mark_id pool.inUse id⟩
  | turn idleTime hloop => exact turn_passes idleTime
  | tick hloop hticks =>
    unfold startPass
    split <;> exact passes_same rfl rfl
  | timeOut member hloop => exact passes_refused rfl rfl rfl
  | connected serviceId hloop hmem => exact connected_passes _ serviceId
  | connectFailed hloop hmem => exact connectFailed_passes _
  | ensureMinPoolSize hloop =>
    unfold ConnectionPool.ensureMinPoolSize
    split
    · exact passes_same rfl rfl
    · obtain ⟨new, permits, counter, hf⟩ := foldl_createConnection
        (List.range ((options.minPoolSize : Int) - pool.totalConnectionCount options).toNat) pool
      rw [hf]
      exact passes_same rfl rfl
  | connectionsDestroyed hclosed => exact passes_same rfl rfl

namespace ConnectionPool

/-- A pool that is closed has nobody waiting. -/
def Settled (pool : ConnectionPool) : Prop := pool.closed = true → pool.waitQueue = []

variable {options : PoolOptions} {pool pool' : ConnectionPool}

theorem Settled.mono (h : pool.Settled) (hclosed : pool'.closed = pool.closed)
    (hqueue : pool'.waitQueue.Sublist pool.waitQueue) : pool'.Settled := by
  intro hc
  rw [h (hclosed ▸ hc)] at hqueue
  exact List.sublist_nil.1 hqueue

theorem finishPass_closed (pool : ConnectionPool) : (pool.finishPass options).closed = pool.closed := by
  unfold finishPass
  simp only
  split <;> rfl

theorem turn_settled (h : pool.Settled) (idleTime : Nat) : (pool.turn options idleTime).Settled := by
  have hfinish : (pool.finishPass options).Settled :=
    h.mono (finishPass_closed pool) (finishPass_waitQueue pool ▸ .refl _)
  unfold turn
  split
  · exact hfinish
  · rename_i member rest hq
    have hrest : rest.Sublist pool.waitQueue := hq ▸ List.sublist_cons_self ..
    split
    · exact h.mono rfl hrest
    · split
      · exact hfinish
      · simp only
        split
        · exact h
        · exact h.mono rfl hrest

theorem memberCallback_settled (h : pool.Settled) (result : Option Connection) :
    (pool.memberCallback result).Settled := by
  unfold memberCallback
  split
  · exact h
  · rename_i member rest hq
    have hrest : rest.Sublist pool.waitQueue := hq ▸ List.sublist_cons_self ..
    split
    · exact h.mono rfl hrest
    · exact h.mono rfl hrest

theorem connected_settled (h : pool.Settled) (attempt : Attempt) (serviceId : Option ObjectId) :
    (pool.connected attempt serviceId).Settled := by
  unfold connected
  simp only
  split
  · exact h
  · split
    · refine memberCallback_settled ?_ _
      exact h
    · exact h

theorem connectFailed_settled (h : pool.Settled) (attempt : Attempt) : (pool.connectFailed attempt).Settled := by
  unfold connectFailed
  simp only
  split
  · refine memberCallback_settled ?_ _
    exact h
  · exact h

theorem checkOut_settled (h : pool.Settled) (member : Nat) : (pool.checkOut member).Settled := by
  unfold checkOut
  split
  · exact h
  · rename_i hopen
    exact fun hc => absurd hc hopen

end ConnectionPool

theorem drainMember_distinct {pool : ConnectionPool} (h : pool.Distinct) (member : WaitQueueMember) :
    (Checkouts.drainMember pool member).Distinct := by
  unfold Checkouts.drainMember
  simp only
  split <;> exact h

theorem drainMember_settled {pool : ConnectionPool} (h : pool.Settled) (member : WaitQueueMember) :
    (Checkouts.drainMember pool member).Settled := by
  unfold Checkouts.drainMember
  simp only
  split <;> exact h.mono rfl (List.dropLast_sublist _)

theorem poolStep_settled {options : PoolOptions} {pool pool' : ConnectionPool} {e : PoolEvent}
    (hstep : PoolStep options pool e pool') (h : pool.Settled) : pool'.Settled := by
  cases hstep with
  | checkOut member => exact checkOut_settled h member
  | close =>
    unfold ConnectionPool.close
    split
    · exact h
    · exact fun _ => rfl
  | checkIn hmem =>
    unfold ConnectionPool.checkIn
    simp only
    split <;> exact h
  | clear serviceId =>
    unfold ConnectionPool.clear
    split <;> exact h
  | closeConnection id => exact h
  | turn idleTime hloop => exact turn_settled h idleTime
  | tick hloop hticks =>
    unfold startPass
    split <;> exact h
  | timeOut member hloop =>
    intro hc
    show pool.waitQueue.map _ = []
    rw [h hc, List.map_nil]
  | connected serviceId hloop hmem => exact connected_settled h _ serviceId
  | connectFailed hloop hmem => exact connectFailed_settled h _
  | ensureMinPoolSize hloop =>
    unfold ConnectionPool.ensureMinPoolSize
    split
    · exact h
    · obtain ⟨new, permits, counter, hf⟩ := foldl_createConnection
        (List.range ((options.minPoolSize : Int) - pool.totalConnectionCount options).toNat) pool
      rw [hf]
      exact h
  | connectionsDestroyed hclosed => exact h

/-! ## Whole runs -/

/-- An event of the pool itself. -/
theorem Checkouts.step_pool {options : PoolOptions} {s s' : Checkouts} {e : PoolEvent}
    (h : s.step options (.pool e) = some s') :
    (∀ member, e ≠ .checkOut member) ∧ e ≠ .close ∧
      ∃ pool, poolStep options s.pool e = some pool ∧ s' = s.record pool (returned e) := by
  have hrest : (if 0 < s.draining ∧ e.isCall = false then none
      else (poolStep options s.pool e).map fun pool => s.record pool (returned e)) = some s' →
      ∃ pool, poolStep options s.pool e = some pool ∧ s' = s.record pool (returned e) := by
    intro h
    split at h
    · cases h
    · obtain ⟨pool, hpool, heq⟩ := Option.map_eq_some_iff.1 h
      exact ⟨pool, hpool, heq.symm⟩
  cases e with
  | checkOut member => cases h
  | close => cases h
  | _ => exact ⟨fun _ heq => (nomatch heq), fun heq => (nomatch heq), hrest h⟩

/-- What the events do. -/
inductive CheckoutStep (options : PoolOptions) (s : Checkouts) : CheckoutEvent → Checkouts → Prop
  | checkOut : CheckoutStep options s .checkOut { s.record (s.pool.checkOut s.next) [] with next := s.next + 1 }
  | closedBefore (hclosed : s.pool.closed = true) : CheckoutStep options s .close s
  | close (hopen : s.pool.closed = false) : CheckoutStep options s .close { s with draining := s.draining + 1 }
  | drain {member : WaitQueueMember} (hdraining : s.draining ≠ 0) (hlast : s.pool.waitQueue.getLast? = some member) :
    CheckoutStep options s .drain (s.record (Checkouts.drainMember s.pool member) [])
  /-- The queue is empty when the pool is marked as closed. -/
  | drained (hdraining : s.draining ≠ 0) (hempty : s.pool.waitQueue = []) :
    CheckoutStep options s .drain { s with pool := { s.pool with closed := true }, draining := s.draining - 1 }
  | cancelled {attempt : Attempt} (hdraining : 0 < s.draining) (hmem : attempt ∈ s.pool.attempts) :
    CheckoutStep options s (.cancelled attempt) (s.record (s.pool.connectFailed attempt) [])
  | checkIn {connection : Connection} (hmem : connection ∈ s.pool.inUse)
    (hstep : poolStep options s.pool (.checkIn connection) = some (s.pool.checkIn connection)) :
    CheckoutStep options s (.pool (.checkIn connection)) (s.record (s.pool.checkIn connection) [connection.id])
  | pool {e : PoolEvent} {pool : ConnectionPool} (hout : ∀ member, e ≠ .checkOut member) (hclose : e ≠ .close)
    (hin : ∀ connection, e ≠ .checkIn connection) (hstep : poolStep options s.pool e = some pool) :
    CheckoutStep options s (.pool e) (s.record pool [])

theorem Checkouts.step_cases {options : PoolOptions} {s s' : Checkouts} {e : CheckoutEvent}
    (hstep : s.step options e = some s') : CheckoutStep options s e s' := by
  cases e with
  | checkOut =>
    cases hstep
    exact .checkOut
  | close =>
    simp only [Checkouts.step] at hstep
    split at hstep
    · rename_i hclosed
      cases hstep
      exact .closedBefore hclosed
    · rename_i hopen
      cases hstep
      exact .close (by simpa using hopen)
  | drain =>
    simp only [Checkouts.step] at hstep
    split at hstep
    · cases hstep
    · rename_i hdraining
      split at hstep
      · rename_i member hlast
        cases hstep
        exact .drain hdraining hlast
      · rename_i hempty
        cases hstep
        exact .drained hdraining (List.getLast?_eq_none_iff.1 hempty)
  | cancelled attempt =>
    simp only [Checkouts.step] at hstep
    split at hstep
    · rename_i hg
      cases hstep
      exact .cancelled hg.1 hg.2
    · cases hstep
  | pool e =>
    obtain ⟨hout, hclose, pool, hpool, rfl⟩ := Checkouts.step_pool hstep
    by_cases hin : ∃ connection, e = .checkIn connection
    · obtain ⟨connection, rfl⟩ := hin
      cases poolStep_cases hpool with
      | checkIn hmem => exact .checkIn hmem hpool
    · have hin : ∀ connection, e ≠ .checkIn connection := fun connection heq => hin ⟨connection, heq⟩
      have hreturned : Checkouts.returned e = [] := by
        cases e with
        | checkIn connection => exact absurd rfl (hin connection)
        | _ => rfl
      rw [hreturned]
      exact .pool hout hclose hin hpool

/-- What holds in every state of a run. -/
structure CheckoutSound (s : Checkouts) : Prop where
  ledger : CheckoutLedger s.pool.waitQueue s.pool.answers s.next
  distinct : s.pool.Distinct
  settled : s.pool.Settled
  apart : Apart s.log
  lent : ∀ i, Lent s.log i → i ∈ s.pool.inUse.map (·.id)

namespace CheckoutSound

variable {s : Checkouts} {pool : ConnectionPool} {next : Nat}

theorem start (options : PoolOptions) : CheckoutSound (.new options) where
  ledger := .empty
  distinct i := Nat.zero_le _
  settled h := nomatch h
  apart p i q r h := by simp [Checkouts.new] at h
  lent i h := by
    obtain ⟨p, q, h, -⟩ := h
    simp [Checkouts.new] at h

/-- A step that gives nothing back. -/
theorem record (h : CheckoutSound s) (hledger : CheckoutLedger pool.waitQueue pool.answers next)
    (hdistinct : pool.Distinct) (hsettled : pool.Settled) (hpasses : Passes s.pool pool) :
    CheckoutSound { s.record pool [] with next } := by
  obtain ⟨new, hhanded, hinUse⟩ := hpasses
  have hlog : (s.record pool []).log = s.log ++ new.toList.map .handed := by
    simp [Checkouts.record, hhanded]
  cases new with
  | none =>
    have hlog : (s.record pool []).log = s.log := hlog.trans (List.append_nil _)
    refine ⟨hledger, hdistinct, hsettled, ?_, ?_⟩
    · show Apart (s.record pool []).log
      rw [hlog]
      exact h.apart
    · intro i hi
      have hi' : Lent s.log i := hlog ▸ hi
      show i ∈ pool.inUse.map (·.id)
      rw [hinUse]
      exact h.lent i hi'
  | some j =>
    have hlog : (s.record pool []).log = s.log ++ [.handed j] := hlog
    -- the connection is in use now, so it was not before
    have hfree : j ∉ s.pool.inUse.map (·.id) := by
      intro hmem
      have hj := hdistinct j
      have hone : 0 < (s.pool.inUse.map (·.id)).count j := List.count_pos_iff.2 hmem
      unfold tally at hj
      rw [hinUse] at hj
      simp only [Option.toList_some, List.singleton_append, List.count_cons_self] at hj
      split at hj <;> omega
    refine ⟨hledger, hdistinct, hsettled, ?_, ?_⟩
    · show Apart (s.record pool []).log
      rw [hlog]
      refine h.apart.concat ?_
      rintro i heq hlent
      cases heq
      exact hfree (h.lent j hlent)
    · intro i hi
      have hi' : Lent (s.log ++ [.handed j]) i := hlog ▸ hi
      show i ∈ pool.inUse.map (·.id)
      rw [hinUse]
      rcases lent_concat hi' with heq | ⟨hlent, -⟩
      · cases heq
        exact List.mem_cons_self ..
      · exact List.mem_cons_of_mem _ (h.lent i hlent)

/-- A connection is given back. -/
theorem checkIn (h : CheckoutSound s) {connection : Connection} (hmem : connection ∈ s.pool.inUse)
    (hledger : CheckoutLedger (s.pool.checkIn connection).waitQueue (s.pool.checkIn connection).answers s.next)
    (hsettled : (s.pool.checkIn connection).Settled) :
    CheckoutSound (s.record (s.pool.checkIn connection) [connection.id]) := by
  have hanswers : (s.pool.checkIn connection).answers = s.pool.answers := by
    unfold ConnectionPool.checkIn
    simp only
    split <;> rfl
  have hinUse : (s.pool.checkIn connection).inUse = s.pool.inUse.erase connection := by
    unfold ConnectionPool.checkIn
    simp only
    split <;> rfl
  have hlog : (s.record (s.pool.checkIn connection) [connection.id]).log = s.log ++ [.checkedIn connection.id] := by
    simp [Checkouts.record, handed_same hanswers]
  refine ⟨hledger, checkIn_distinct h.distinct hmem, hsettled, ?_, ?_⟩
  · rw [hlog]
    exact h.apart.concat fun i heq => (nomatch heq)
  · intro i hi
    rw [hlog] at hi
    show i ∈ (s.pool.checkIn connection).inUse.map (·.id)
    rcases lent_concat hi with heq | ⟨hlent, hne⟩
    · cases heq
    · have hcount := count_map_erase (·.id) hmem i
      have hpos := List.count_pos_iff.2 (h.lent i hlent)
      rw [hinUse]
      refine List.count_pos_iff.1 ?_
      rw [if_neg fun heq => hne (by rw [heq])] at hcount
      omega

theorem step {options : PoolOptions} {s' : Checkouts} {e : CheckoutEvent} (h : CheckoutSound s)
    (hstep : s.step options e = some s') : CheckoutSound s' := by
  cases Checkouts.step_cases hstep with
  | checkOut =>
    have hpool : PoolStep options s.pool (.checkOut s.next) (s.pool.checkOut s.next) := .checkOut s.next
    exact h.record (checkOut_ledger h.ledger) (poolStep_distinct hpool h.distinct)
      (checkOut_settled h.settled s.next) (checkOut_passes s.next)
  | closedBefore => exact h
  | close => exact ⟨h.ledger, h.distinct, h.settled, h.apart, h.lent⟩
  | drain hdraining hlast =>
    exact h.record (drainMember_ledger h.ledger hlast) (drainMember_distinct h.distinct _)
      (drainMember_settled h.settled _) (drainMember_passes s.pool _)
  | drained hdraining hempty => exact ⟨h.ledger, h.distinct, fun _ => hempty, h.apart, h.lent⟩
  | cancelled hdraining hmem =>
    exact h.record (connectFailed_ledger h.ledger _) (connectFailed_distinct h.distinct hmem)
      (connectFailed_settled h.settled _) (connectFailed_passes _)
  | checkIn hmem hpool =>
    exact h.checkIn hmem (poolStep_ledger hpool (by simp) (by simp) h.ledger)
      (poolStep_settled (poolStep_cases hpool) h.settled)
  | pool hout hclose hin hpool =>
    have hcases := poolStep_cases hpool
    exact h.record (poolStep_ledger hpool hout hclose h.ledger) (poolStep_distinct hcases h.distinct)
      (poolStep_settled hcases h.settled) (poolStep_passes hcases hin hclose)

end CheckoutSound

/-- In every run, callbacks that use the pool included: no request is answered twice; one that is not answered
waits in the queue; those that get a connection get it in the order of the queue; a connection is given back
before it is handed out again; and once `close` has come to its end nobody waits and everybody has been answered. -/
theorem checkout_callbacks (options : PoolOptions) (es : List CheckoutEvent) (s : Checkouts)
    (hrun : Run.exec (Checkouts.step options) (.new options) es = some s) :
    (s.pool.answers.map (·.1)).Nodup ∧
      (∀ id < s.next, id ∉ s.pool.answers.map (·.1) → ∃ m ∈ s.pool.waitQueue, m.id = id ∧ m.cancelled = false) ∧
      (served s.pool.answers).Pairwise (· < ·) ∧
      Apart s.log ∧
      (s.pool.closed = true → s.pool.waitQueue = [] ∧ ∀ id < s.next, id ∈ s.pool.answers.map (·.1)) := by
  have h : CheckoutSound s :=
    Run.exec_inv (Checkouts.step options) (fun _ _ _ h hs => CheckoutSound.step h hs) (CheckoutSound.start options) hrun
  refine ⟨h.ledger.once, ?_, h.ledger.inOrder, h.apart, fun hclosed => ⟨h.settled hclosed, ?_⟩⟩
  · intro id hid hna
    exact (h.ledger.accounted id hid).resolve_left hna
  · intro id hid
    rcases h.ledger.accounted id hid with ha | ⟨m, hm, -⟩
    · exact ha
    · rw [h.settled hclosed] at hm
      cases hm

/-- The pool is closed while a connection is being established for one request and another one waits; the callback
of the first asks again. -/
def closedInCallback : List CheckoutEvent :=
  [.checkOut, .pool .tick, .pool (.turn 0), .checkOut, .pool (.connected ⟨1, 0, true⟩ none), .checkOut,
    .pool .tick, .pool (.turn 0), .close, .cancelled ⟨2, 0, true⟩, .checkOut, .drain, .drain, .drain, .checkOut]

theorem closedInCallback_sound : ∃ s, Run.exec (Checkouts.step {}) (.new {}) closedInCallback = some s ∧
    s.pool.answers = [(0, .connection 1), (1, .connectFailed), (3, .poolClosed), (2, .poolClosed), (4, .poolClosed)] ∧
    (s.pool.answers.map (·.1)).Nodup ∧ s.pool.closed = true ∧ s.pool.waitQueue = [] := by
  refine ⟨_, rfl, rfl, ?_, rfl, ?_⟩
  · exact (checkout_callbacks {} closedInCallback _ rfl).1
  · exact ((checkout_callbacks {} closedInCallback _ rfl).2.2.2.2 rfl).1

end MongoDriver.Cmap
