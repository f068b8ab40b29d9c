/-
The books of server selection. Every request is called back or waits in the queue, exactly one of the
two, and the armed timers are those of the waiting requests that have a timeout. A chosen server that is
known has an instance: the two maps of the topology drift apart only over servers nothing is known about,
and after `close` has finished no loop finds a request it could serve.
-/
import MongoDriver.Sdam.ServerSelection
import MongoDriver.Base.Heap

namespace MongoDriver.Sdam

/-! ## The ledger of requests -/

section Ledger

/-- The requests that wait. -/
def waitingIds (queue : List ServerSelectionRequest) : List Nat := (queue.filter fun m => !m.cancelled).map (·.id)

/-- The requests that wait with a timeout. -/
def armedIds (queue : List ServerSelectionRequest) : List Nat :=
  (queue.filter fun m => !m.cancelled && m.timeoutMS ≠ 0).map (·.id)

/-- Each request made was called back or waits; the armed timers are those of the waiting requests with a
timeout, and each member knows whether its timer is armed. -/
structure Ledger (queue : List ServerSelectionRequest) (timers called : List Nat) (next : Nat) : Prop where
  requests : (called ++ waitingIds queue).Perm (List.range next)
  armed : timers.Perm (armedIds queue)
  timer : ∀ m ∈ queue, m.timer = (!m.cancelled && decide (m.timeoutMS ≠ 0))

variable {queue : List ServerSelectionRequest} {timers called : List Nat} {next : Nat} {m : ServerSelectionRequest}

theorem Ledger.called_nodup (h : Ledger queue timers called next) : called.Nodup :=
  (List.nodup_append.1 (h.requests.nodup_iff.2 List.nodup_range)).1

theorem Ledger.waiting_nodup (h : Ledger queue timers called next) : (waitingIds queue).Nodup :=
  (List.nodup_append.1 (h.requests.nodup_iff.2 List.nodup_range)).2.1

theorem armedIds_sublist (queue : List ServerSelectionRequest) : (armedIds queue).Sublist (waitingIds queue) := by
  refine List.Sublist.map _ (List.monotone_filter_right queue ?_)
  intro m hm
  rw [Bool.and_eq_true] at hm
  exact hm.1

theorem mem_waitingIds {id : Nat} : id ∈ waitingIds queue ↔ ∃ m ∈ queue, m.cancelled = false ∧ m.id = id := by
  simp [waitingIds, and_assoc]

theorem mem_armedIds {id : Nat} :
    id ∈ armedIds queue ↔ ∃ m ∈ queue, m.cancelled = false ∧ m.timeoutMS ≠ 0 ∧ m.id = id := by
  simp [armedIds, and_assoc]

/-- The pinned-transaction shortcut. -/
theorem Ledger.shortcut (h : Ledger queue timers called next) : Ledger queue timers (called ++ [next]) (next + 1) := by
  refine ⟨?_, h.armed, h.timer⟩
  rw [List.range_succ]
  have hswap : (called ++ [next] ++ waitingIds queue).Perm (called ++ waitingIds queue ++ [next]) := by
    rw [List.append_assoc, List.append_assoc]
    exact List.Perm.append_left _ List.perm_append_comm
  exact hswap.trans (h.requests.append_right _)

/-- A new request. -/
theorem Ledger.push (h : Ledger queue timers called next) (hid : m.id = next) (hc : m.cancelled = false)
    (ht : m.timer = decide (m.timeoutMS ≠ 0)) :
    Ledger (queue ++ [m]) (if m.timeoutMS ≠ 0 then timers ++ [next] else timers) called (next + 1) := by
  refine ⟨?_, ?_, ?_⟩
  · have hw : waitingIds (queue ++ [m]) = waitingIds queue ++ [next] := by simp [waitingIds, hc, hid]
    rw [hw, ← List.append_assoc, List.range_succ]
    exact h.requests.append_right _
  · by_cases hms : m.timeoutMS ≠ 0
    · have ha : armedIds (queue ++ [m]) = armedIds queue ++ [next] := by simp [armedIds, hc, hid, hms]
      rw [if_pos hms, ha]
      exact h.armed.append_right _
    · have ha : armedIds (queue ++ [m]) = armedIds queue := by simp [armedIds, hms]
      rw [if_neg hms, ha]
      exact h.armed
  · intro m' hm'
    rcases List.mem_append.1 hm' with hm' | hm'
    · exact h.timer m' hm'
    · rw [List.mem_singleton] at hm'
      rw [hm', ht, hc]
      rfl

/-- The request at the head is called back. -/
theorem Ledger.complete (h : Ledger (m :: queue) timers called next) (hc : m.cancelled = false) :
    Ledger queue (if m.timer then timers.erase m.id else timers) (called ++ [m.id]) next := by
  have htimer := h.timer m (List.mem_cons_self ..)
  refine ⟨?_, ?_, fun m' hm' => h.timer m' (List.mem_cons_of_mem _ hm')⟩
  · have hw : waitingIds (m :: queue) = m.id :: waitingIds queue := by simp [waitingIds, hc]
    have hreq := h.requests
    rw [hw] at hreq
    rw [List.append_assoc]
    exact hreq
  · by_cases hms : m.timeoutMS ≠ 0
    · have ha : armedIds (m :: queue) = m.id :: armedIds queue := by simp [armedIds, hc, hms]
      have harm := h.armed
      rw [ha] at harm
      rw [htimer, hc, decide_eq_true hms]
      have he := harm.erase m.id
      rw [List.erase_cons_head] at he
      exact he
    · have ha : armedIds (m :: queue) = armedIds queue := by simp [armedIds, hms]
      rw [htimer, hc, decide_eq_false hms, ← ha]
      exact h.armed

/-- The request at the head waits on. -/
theorem Ledger.rotate (h : Ledger (m :: queue) timers called next) : Ledger (queue ++ [m]) timers called next := by
  have hperm : (m :: queue).Perm (queue ++ [m]) := (List.perm_append_singleton m queue).symm
  refine ⟨?_, ?_, fun m' hm' => h.timer m' (hperm.mem_iff.2 hm')⟩
  · exact (List.Perm.append_left _ ((hperm.filter _).map _)).symm.trans h.requests
  · exact h.armed.trans ((hperm.filter _).map _)

/-- A cancelled request is dropped. -/
theorem Ledger.drop (h : Ledger (m :: queue) timers called next) (hc : m.cancelled = true) :
    Ledger queue timers called next := by
  have hw : waitingIds (m :: queue) = waitingIds queue := by simp [waitingIds, hc]
  have ha : armedIds (m :: queue) = armedIds queue := by simp [armedIds, hc]
  exact ⟨hw ▸ h.requests, ha ▸ h.armed, fun m' hm' => h.timer m' (List.mem_cons_of_mem _ hm')⟩

/-- The member with the number is cancelled where it stands. -/
def cancel (id : Nat) (m : ServerSelectionRequest) : ServerSelectionRequest :=
  if m.id = id then { m with cancelled := true, timer := false } else m

theorem filter_cancel (id : Nat) (p : ServerSelectionRequest → Bool) (hp : ∀ m, m.cancelled = true → p m = false) :
    ∀ queue : List ServerSelectionRequest,
      ((queue.map (cancel id)).filter p).map (·.id) = ((queue.filter p).map (·.id)).filter (· != id)
  | [] => rfl
  | m :: queue => by
    have ih := filter_cancel id p hp queue
    by_cases hm : m.id = id
    · have hcancel : p (cancel id m) = false := hp _ (by simp [cancel, hm])
      rw [List.map_cons, List.filter_cons_of_neg (by simp [hcancel]), ih]
      cases hpm : p m <;> simp [hpm, hm]
    · have hsame : cancel id m = m := by simp [cancel, hm]
      rw [List.map_cons, hsame]
      cases hpm : p m <;> simp [hpm, hm, ih]

/-- The timer of a waiting request fires. -/
theorem Ledger.timeout {id : Nat} (h : Ledger queue timers called next) (hid : id ∈ timers) :
    Ledger (queue.map (cancel id)) (timers.erase id) (called ++ [id]) next := by
  have harmed : id ∈ armedIds queue := h.armed.mem_iff.1 hid
  have hwait : id ∈ waitingIds queue := (armedIds_sublist queue).subset harmed
  refine ⟨?_, ?_, ?_⟩
  · have hw : waitingIds (queue.map (cancel id)) = (waitingIds queue).erase id := by
      rw [h.waiting_nodup.erase_eq_filter]
      exact filter_cancel id _ (fun m hm => by simp [hm]) queue
    rw [hw, List.append_assoc]
    exact (List.Perm.append_left _ (List.perm_cons_erase hwait)).symm.trans h.requests
  · have ha : armedIds (queue.map (cancel id)) = (armedIds queue).erase id := by
      rw [(h.waiting_nodup.sublist (armedIds_sublist queue)).erase_eq_filter]
      exact filter_cancel id _ (fun m hm => by simp [hm]) queue
    rw [ha]
    exact h.armed.erase id
  · intro m' hm'
    obtain ⟨m, hm, rfl⟩ := List.mem_map.1 hm'
    unfold cancel
    split
    · rfl
    · exact h.timer m hm

end Ledger

/-! ## The books are kept -/

namespace Selection

variable {rt : Runtime} {srvMaxHosts : Nat} {s t : Selection}

/-- The requests called back, in order. -/
def called (s : Selection) : List Nat := s.calls.map (·.request)

def Books (s : Selection) : Prop := Ledger s.waitQueue s.timers s.called s.next

theorem called_invoke (s : Selection) (request : Nat) (outcome : Outcome) :
    (s.invoke request outcome).called = s.called ++ [request] := by
  simp [called, invoke]

theorem clearTimer_timers (s : Selection) (m : ServerSelectionRequest) :
    (s.clearTimer m).timers = if m.timer then s.timers.erase m.id else s.timers := by
  unfold clearTimer; split <;> rfl

theorem clearTimer_waitQueue (s : Selection) (m : ServerSelectionRequest) :
    (s.clearTimer m).waitQueue = s.waitQueue := by
  unfold clearTimer; split <;> rfl

theorem clearTimer_calls (s : Selection) (m : ServerSelectionRequest) : (s.clearTimer m).calls = s.calls := by
  unfold clearTimer; split <;> rfl

theorem clearTimer_next (s : Selection) (m : ServerSelectionRequest) : (s.clearTimer m).next = s.next := by
  unfold clearTimer; split <;> rfl

/-- A request out of the queue is called back, its timer cleared. -/
theorem books_complete {m : ServerSelectionRequest} (outcome : Outcome)
    (h : Ledger (m :: s.waitQueue) s.timers s.called s.next) (hc : m.cancelled = false) :
    Books ((s.clearTimer m).invoke m.id outcome) := by
  unfold Books
  rw [called_invoke]
  have := h.complete hc
  simpa only [invoke, called, clearTimer_timers, clearTimer_waitQueue, clearTimer_calls, clearTimer_next] using this

theorem books_pinServer (isSharded : Bool) (m : ServerSelectionRequest) (server : Option String) :
    (s.pinServer isSharded m server).waitQueue = s.waitQueue ∧ (s.pinServer isSharded m server).timers = s.timers ∧
      (s.pinServer isSharded m server).calls = s.calls ∧ (s.pinServer isSharded m server).next = s.next := by
  unfold pinServer
  split
  · split <;> exact ⟨rfl, rfl, rfl, rfl⟩
  · exact ⟨rfl, rfl, rfl, rfl⟩

theorem books_processMember {m : ServerSelectionRequest} (random : Nat) (isSharded : Bool)
    (sds : List ServerDescription)
    (h : Ledger (m :: s.waitQueue) s.timers s.called s.next) : Books (processMember random isSharded sds s m) := by
  unfold processMember
  split
  · rename_i hc
    exact h.drop hc
  · rename_i hc
    have hc : m.cancelled = false := by simpa using hc
    split
    · exact books_complete _ h hc
    · exact h.rotate
    · obtain ⟨h1, h2, h3, h4⟩ := books_pinServer (s := s) isSharded m (s.instanceOf _)
      refine books_complete _ ?_ hc
      unfold called
      rw [h1, h2, h3, h4]
      exact h

theorem books_drainMember {m : ServerSelectionRequest} (h : Ledger (m :: s.waitQueue) s.timers s.called s.next) :
    Books (drainMember s m) := by
  unfold drainMember
  simp only
  split
  · rename_i hc
    -- the timer of a cancelled request is not armed
    have htimer : m.timer = false := by rw [h.timer m (List.mem_cons_self ..), hc]; rfl
    have hsame : s.clearTimer m = s := by simp [clearTimer, htimer]
    rw [hsame]
    exact h.drop hc
  · rename_i hc
    exact books_complete _ h (by simpa using hc)

theorem books_processWaitQueue (h : Books s) : Books s.processWaitQueue := by
  unfold processWaitQueue
  split
  · exact h
  · exact h

theorem books_selectServer (h : Books s) (selector : ServerSelector) (timeoutMS transaction : Option Nat) :
    Books (s.selectServer selector timeoutMS transaction) := by
  unfold selectServer
  simp only
  split
  · unfold Books
    rw [called_invoke]
    exact h.shortcut
  · refine books_processWaitQueue ?_
    exact h.push rfl rfl rfl

theorem books_tick {random : Nat} (h : Books s) (ht : s.tick random = some t) : Books t := by
  unfold tick at ht
  split at ht
  · cases ht; exact h
  · simp only at ht
    split at ht
    · cases ht; exact h
    · rename_i m queue hq
      cases ht
      refine books_processMember _ _ _ ?_
      unfold Books at h
      rw [hq] at h
      exact h
  · split at ht
    · cases ht; exact h
    · rename_i m queue hq
      cases ht
      refine books_drainMember ?_
      unfold Books at h
      rw [hq] at h
      exact h
  · cases ht

/-- What a step does, with what lets it happen. -/
inductive Steps (rt : Runtime) (srvMaxHosts : Nat) (s : Selection) : Event → Selection → Prop
  | select {selector timeoutMS transaction} (hcontrol : s.inControl = true) :
    Steps rt srvMaxHosts s (.select selector timeoutMS transaction) (s.selectServer selector timeoutMS transaction)
  | close (hcontrol : s.inControl = true) : Steps rt srvMaxHosts s .close s.close
  | finishClose {rest} (hstack : s.stack = [] ∨ s.stack = .closing :: rest) :
    Steps rt srvMaxHosts s .finishClose s.finishClose
  | ret {rest} (hstack : s.stack = .callback :: rest ∨ s.stack = .closing :: rest) :
    Steps rt srvMaxHosts s .ret { s with stack := rest }
  | tick {random t} (ht : s.tick random = some t) : Steps rt srvMaxHosts s (.tick random) t
  | timeout {id ms} (hidle : s.idle = true) (htimer : id ∈ s.timers) :
    Steps rt srvMaxHosts s (.timeout id) (s.selectionTimeout id ms)
  /-- a report that reaches `updateServers` attempts the outstanding selections -/
  | report {sd} (attempts : Bool) (hidle : s.idle = true) (hopen : s.state ≠ .closed)
    (hlive : s.topology.servers.contains sd.address = true) :
    Steps rt srvMaxHosts s (.report sd)
      (if attempts then { s with topology := s.topology.apply rt srvMaxHosts (.report sd) }.processWaitQueue
      else { s with topology := s.topology.apply rt srvMaxHosts (.report sd) })
  | poll {random records} (hidle : s.idle = true) (hopen : s.state ≠ .closed) :
    Steps rt srvMaxHosts s (.poll random records)
      { s with topology := s.topology.apply rt srvMaxHosts (.poll random records) }
  | connect (hidle : s.idle = true) : Steps rt srvMaxHosts s .connect s.connect
  | connected (hstate : s.state = .connecting) : Steps rt srvMaxHosts s .connected { s with state := .connected }
  | transact {id transaction} : Steps rt srvMaxHosts s (.transact id transaction)
      { s with transactions := fun i => if i = id then transaction else s.transactions i }

theorem step_steps {e : Event} (hs : step rt srvMaxHosts s e = some t) : Steps rt srvMaxHosts s e t := by
  cases e with
  | select selector timeoutMS transaction =>
    simp only [step] at hs
    split at hs
    · rename_i hcontrol
      cases hs
      exact .select hcontrol
    · cases hs
  | close =>
    simp only [step] at hs
    split at hs
    · rename_i hcontrol
      cases hs
      exact .close hcontrol
    · cases hs
  | finishClose =>
    simp only [step] at hs
    split at hs
    · rename_i hstack
      cases hs
      exact @Steps.finishClose rt srvMaxHosts s [] (.inl hstack)
    · rename_i hstack
      cases hs
      exact .finishClose (.inr hstack)
    · cases hs
  | ret =>
    simp only [step] at hs
    split at hs
    · rename_i hstack
      cases hs
      exact .ret (.inl hstack)
    · rename_i hstack
      cases hs
      exact .ret (.inr hstack)
    · cases hs
  | tick random => exact .tick hs
  | timeout id =>
    simp only [step] at hs
    split at hs
    · rename_i hid
      simp only [Bool.and_eq_true, List.contains_iff_mem] at hid
      obtain ⟨m, -, rfl⟩ := Option.map_eq_some_iff.1 hs
      exact .timeout hid.1 hid.2
    · cases hs
  | report sd =>
    simp only [step] at hs
    split at hs
    · rename_i hcond
      simp only [Bool.and_eq_true, decide_eq_true_eq] at hcond
      obtain ⟨⟨hidle, hopen⟩, hlive⟩ := hcond
      split at hs
      · cases hs
        exact .report true hidle hopen hlive
      · cases hs
        exact .report false hidle hopen hlive
    · cases hs
  | poll random records =>
    simp only [step] at hs
    split at hs
    · rename_i hcond
      simp only [Bool.and_eq_true, Bool.or_eq_true, decide_eq_true_eq] at hcond
      obtain ⟨hidle, hstate⟩ := hcond
      cases hs
      refine .poll hidle ?_
      rcases hstate with hstate | hstate
      · rw [hstate]; decide
      · rw [hstate]; decide
    · cases hs
  | connect =>
    simp only [step] at hs
    split at hs
    · rename_i hcond
      rw [Bool.and_eq_true] at hcond
      cases hs
      exact .connect hcond.1
    · cases hs
  | connected =>
    simp only [step] at hs
    split at hs
    · rename_i hcond
      simp only [Bool.and_eq_true, decide_eq_true_eq] at hcond
      cases hs
      exact .connected hcond.2
    · cases hs
  | transact id transaction =>
    simp only [step] at hs
    split at hs
    · cases hs
      exact .transact
    · cases hs

theorem books_step {e : Event} (h : Books s) (hs : step rt srvMaxHosts s e = some t) : Books t := by
  cases step_steps hs with
  | select => exact books_selectServer h _ _ _
  | close =>
    unfold close
    split
    · exact h
    · exact h
  | finishClose => exact h
  | ret => exact h
  | tick ht => exact books_tick h ht
  | timeout hidle htimer =>
    unfold Books selectionTimeout
    rw [called_invoke]
    exact h.timeout htimer
  | report attempts =>
    cases attempts with
    | true => exact books_processWaitQueue h
    | false => exact h
  | poll => exact h
  | connect => exact h
  | connected => exact h
  | transact => exact h

end Selection

/-! ## Known servers have instances -/

/-- What holds of every server that nothing is known about, and of a reported one, holds of all entries after an
input. -/
theorem Topology.apply_entries {P : String → ServerDescription → Prop} {rt : Runtime} {srvMaxHosts : Nat}
    {t : Topology} {e : SdamInput} (hfresh : ∀ a r, r.IsFresh → P a r) (h : Entries P t.description.servers)
    (hsd : ∀ sd, e = .report sd → P sd.address sd) : Entries P (t.apply rt srvMaxHosts e).description.servers := by
  have hof : ∀ a key r, ServerDescription.ofString rt a = .ok r → P key r :=
    fun a key r hr => hfresh key r (ServerDescription.ofString_ok hr)
  rcases Topology.apply_description_cases rt srvMaxHosts t e with hd | ⟨sd, rfl, hu⟩ | ⟨random, records, rfl, hu⟩
  · rw [hd]
    exact h
  · exact h.update (hsd sd rfl) ⟨fun r hr => hof _ _ r hr, fun a _ r hr => hof _ _ r hr,
      fun _ _ _ _ r hr => hof _ _ r hr⟩ hu
  · exact h.updateFromSrvPollingEvent (fun _ _ a _ r hr => hof _ _ r hr) hu

/-- A server that is not Unknown is stored under its own address and has an instance. -/
def Known (t : Topology) (a : String) (sd : ServerDescription) : Prop :=
  sd.type ≠ .unknown → sd.address = a ∧ t.servers.contains a = true

/-- The entries an input leaves known were known before, or are those of the reporting instance. -/
theorem Topology.apply_known {rt : Runtime} {srvMaxHosts : Nat} {t : Topology} {e : SdamInput}
    (h : Entries (Known t) t.description.servers)
    (hlive : ∀ sd, e = .report sd → t.servers.contains sd.address = true) :
    Entries (Known (t.apply rt srvMaxHosts e)) (t.apply rt srvMaxHosts e).description.servers := by
  have hold : Entries (Known t) (t.apply rt srvMaxHosts e).description.servers :=
    Topology.apply_entries (fun _ r hr ht => absurd hr.type ht) h fun sd hsd _ => ⟨rfl, hlive sd hsd⟩
  intro a s hs ht
  obtain ⟨haddr, hin⟩ := hold a s hs ht
  refine ⟨haddr, Topology.apply_keeps hin ?_⟩
  unfold TopologyDescription.hasServer OrderedMap.contains
  rw [hs]
  rfl

/-! ## Control -/

/-- The selector chooses known servers among those it is given. -/
def KnownSelector (selector : ServerSelector) : Prop :=
  ∀ d sds chosen, selector d sds = .ok chosen → ∀ sd ∈ chosen, sd ∈ sds ∧ sd.type ≠ .unknown

namespace Selection

variable {rt : Runtime} {srvMaxHosts : Nat} {s t : Selection}

/-- The request cannot be served by the description as it is. -/
def Settled (s : Selection) (m : ServerSelectionRequest) : Prop :=
  m.cancelled = true ∨
    m.serverSelector s.topology.description s.topology.description.servers.values = .ok []

/-- The innermost loop, under the callbacks that it called. -/
def topLoop : List Frame → Option Frame
  | [] => none
  | .callback :: rest => topLoop rest
  | frame :: _ => some frame

/-- A loop has settled the members it has processed; after the end of `close` everything is settled. -/
def Ready (s : Selection) : Prop :=
  match topLoop s.stack with
  | some (.process _ _ remaining) =>
    ∀ m ∈ s.waitQueue.drop (if s.state = .closed then 0 else remaining), s.Settled m
  | some .closing => ∀ m ∈ s.waitQueue, s.Settled m
  | _ => True

theorem ready_of_settled (h : ∀ m ∈ s.waitQueue, s.Settled m) : s.Ready := by
  unfold Ready
  split
  · intro m hm
    exact h m (List.mem_of_mem_drop hm)
  · exact h
  · trivial

/-- What holds whatever loop is running. -/
structure Base (s : Selection) : Prop where
  keyed : Keyed s.topology.description.servers
  known : s.state ≠ .closed → Entries (Known s.topology) s.topology.description.servers
  frames : ∀ isSharded sds remaining, Frame.process isSharded sds remaining ∈ s.stack →
    sds = s.topology.description.servers.values
  selectors : ∀ m ∈ s.waitQueue, KnownSelector m.serverSelector
  served : ∀ c ∈ s.calls, ∀ server, c.outcome = .selected server → ∃ a ∈ c.present, server = some a

/-- A selector is asked again: only one that chooses known servers. -/
def Event.Known : Event → Prop
  | .select selector _ _ => KnownSelector selector
  | _ => True

/-- A frame goes on the stack: a loop has the descriptions of this moment. -/
theorem Base.push (h : s.Base) (frame : Frame) (hframe : ∀ isSharded sds remaining,
    frame = .process isSharded sds remaining → sds = s.topology.description.servers.values) :
    Base { s with stack := frame :: s.stack } := by
  refine ⟨h.keyed, h.known, ?_, h.selectors, h.served⟩
  intro isSharded sds remaining hmem
  rcases List.mem_cons.1 hmem with hmem | hmem
  · exact hframe isSharded sds remaining hmem.symm
  · exact h.frames isSharded sds remaining hmem

theorem Base.processWaitQueue (h : s.Base) : s.processWaitQueue.Base ∧ s.processWaitQueue.Ready := by
  unfold Selection.processWaitQueue
  split
  · refine ⟨h.push .drain ?_, trivial⟩
    rintro isSharded sds remaining ⟨⟩
  · rename_i hopen
    refine ⟨h.push _ ?_, ?_⟩
    · rintro isSharded sds remaining ⟨⟩
      rfl
    · intro m hm
      rw [if_neg hopen, List.drop_length] at hm
      cases hm

theorem Base.invoke (h : s.Base) (request : Nat) (outcome : Outcome)
    (ho : ∀ server, outcome = .selected server → ∃ a ∈ s.topology.servers.keys, server = some a) :
    (s.invoke request outcome).Base := by
  have hpush : Base { s with stack := .callback :: s.stack } := by
    refine h.push .callback ?_
    rintro isSharded sds remaining ⟨⟩
  refine ⟨hpush.keyed, hpush.known, hpush.frames, hpush.selectors, ?_⟩
  intro c hc server hserver
  rcases Heap.mem_alloc.1 hc with hc | rfl
  · exact h.served c hc server hserver
  · exact ho server hserver

theorem ready_invoke (h : s.Ready) (request : Nat) (outcome : Outcome) : (s.invoke request outcome).Ready := h

theorem Base.clearTimer (h : s.Base) (m : ServerSelectionRequest) : (s.clearTimer m).Base := by
  unfold Selection.clearTimer
  split
  · exact ⟨h.keyed, h.known, h.frames, h.selectors, h.served⟩
  · exact h

theorem ready_clearTimer (h : s.Ready) (m : ServerSelectionRequest) : (s.clearTimer m).Ready := by
  unfold Selection.clearTimer
  split
  · exact h
  · exact h

theorem Base.pinServer (h : s.Base) (isSharded : Bool) (m : ServerSelectionRequest) (server : Option String) :
    (s.pinServer isSharded m server).Base := by
  unfold Selection.pinServer
  split
  · split
    · exact ⟨h.keyed, h.known, h.frames, h.selectors, h.served⟩
    · exact h
  · exact h

theorem ready_pinServer (h : s.Ready) (isSharded : Bool) (m : ServerSelectionRequest) (server : Option String) :
    (s.pinServer isSharded m server).Ready := by
  unfold Selection.pinServer
  split
  · split
    · exact h
    · exact h
  · exact h

/-- The server of a chosen description is there: the description is known, and before the end of `close` known
servers have instances. -/
theorem Base.instanceOf (h : s.Base) (hopen : s.state ≠ .closed) {sd : ServerDescription}
    (hmem : sd ∈ s.topology.description.servers.values) (hknown : sd.type ≠ .unknown) :
    ∃ a ∈ s.topology.servers.keys, s.instanceOf sd = some a := by
  obtain ⟨key, hkey⟩ := OrderedMap.mem_values.1 hmem
  obtain ⟨haddr, hin⟩ := h.known hopen key sd hkey hknown
  obtain ⟨server, hserver⟩ := Option.isSome_iff_exists.1 hin
  refine ⟨key, OrderedMap.mem_keys.2 ⟨server, hserver⟩, ?_⟩
  simp [Selection.instanceOf, haddr, hserver]

theorem mem_of_getD {α : Type} (a : α) (l : List α) (i : Nat) : (a :: l).getD i a ∈ a :: l := by
  rw [List.getD_eq_getElem?_getD]
  cases h : (a :: l)[i]? with
  | none => exact List.mem_cons_self ..
  | some b => exact List.mem_of_getElem? h

/-- A turn of the loop of `processWaitQueue`. -/
theorem Base.processMember {m : ServerSelectionRequest} {isSharded : Bool} {sds : List ServerDescription}
    {remaining : Nat} {rest : List Frame} (random : Nat) (h : s.Base)
    (hstack : s.stack = .process isSharded sds remaining :: rest) (hm : KnownSelector m.serverSelector)
    (hready : s.Ready) (hclosed : s.state = .closed → s.Settled m) :
    (processMember random isSharded sds s m).Base ∧ (processMember random isSharded sds s m).Ready := by
  have hsds : sds = s.topology.description.servers.values :=
    h.frames isSharded sds remaining (by rw [hstack]; exact List.mem_cons_self ..)
  unfold Selection.processMember
  split
  · exact ⟨h, hready⟩
  · rename_i hc
    split
    · refine ⟨(h.clearTimer m).invoke _ _ ?_, ready_invoke (ready_clearTimer hready m) _ _⟩
      rintro server ⟨⟩
    · rename_i hnone
      refine ⟨⟨h.keyed, h.known, h.frames, ?_, h.served⟩, ?_⟩
      · intro m' hm'
        rcases Heap.mem_alloc.1 hm' with hm' | rfl
        · exact h.selectors m' hm'
        · exact hm
      · -- the member goes to the end of the queue as a settled one
        have hsettled : s.Settled m := .inr (by rw [← hsds]; exact hnone)
        unfold Ready at hready ⊢
        rw [hstack] at hready
        simp only [hstack, topLoop] at hready ⊢
        intro m' hm'
        rw [List.drop_append] at hm'
        rcases List.mem_append.1 hm' with hm' | hm'
        · exact hready m' hm'
        · have := List.mem_of_mem_drop hm'
          rw [List.mem_singleton] at this
          rw [this]
          exact hsettled
    · rename_i sd tail hchosen
      have hopen : s.state ≠ .closed := by
        intro hcl
        rcases hclosed hcl with hcan | hnil
        · exact hc hcan
        · rw [hsds, hnil] at hchosen
          cases hchosen
      obtain ⟨hmem, hknown⟩ := hm _ _ _ hchosen _ (mem_of_getD sd tail (random % (tail.length + 1)))
      rw [hsds] at hmem
      obtain ⟨a, ha, hinst⟩ := h.instanceOf hopen hmem hknown
      refine ⟨((h.pinServer isSharded m _).clearTimer m).invoke _ _ ?_,
        ready_invoke (ready_clearTimer (ready_pinServer hready isSharded m _) m) _ _⟩
      rintro server ⟨⟩
      refine ⟨a, ?_, hinst⟩
      have htop : ((s.pinServer isSharded m (s.instanceOf
        ((sd :: tail).getD (random % (tail.length + 1)) sd))).clearTimer
          m).topology = s.topology := by
        unfold Selection.clearTimer Selection.pinServer
        split <;> split <;> first | rfl | (split <;> rfl)
      rw [htop]
      exact ha

theorem Base.drainMember {m : ServerSelectionRequest} {rest : List Frame} (h : s.Base)
    (hstack : s.stack = .drain :: rest) :
    (drainMember s m).Base ∧ (drainMember s m).Ready := by
  have hready : s.Ready := by
    unfold Ready
    rw [hstack]
    trivial
  unfold Selection.drainMember
  simp only
  split
  · exact ⟨h.clearTimer m, ready_clearTimer hready m⟩
  · refine ⟨(h.clearTimer m).invoke _ _ ?_, ready_invoke (ready_clearTimer hready m) _ _⟩
    rintro server ⟨⟩

/-- A frame goes off the stack. -/
theorem Base.pop {frame : Frame} {rest : List Frame} (h : s.Base) (hstack : s.stack = frame :: rest) :
    Base { s with stack := rest } := by
  refine ⟨h.keyed, h.known, ?_, h.selectors, h.served⟩
  intro isSharded sds remaining hmem
  exact h.frames isSharded sds remaining (by rw [hstack]; exact List.mem_cons_of_mem _ hmem)

theorem Base.tick {random : Nat} (h : s.Base) (hready : s.Ready) (ht : s.tick random = some t) : t.Base ∧ t.Ready := by
  unfold Selection.tick at ht
  split at ht
  · -- the loop is over: it has settled every member
    rename_i isSharded sds rest hstack
    cases ht
    refine ⟨h.pop hstack, ready_of_settled ?_⟩
    unfold Ready at hready
    rw [hstack] at hready
    intro m hm
    exact hready m (by simpa using hm)
  · rename_i isSharded sds remaining rest hstack
    have hpop : Base { s with stack := .process isSharded sds remaining :: rest } := by
      refine ⟨h.keyed, h.known, ?_, h.selectors, h.served⟩
      intro isSharded' sds' remaining' hmem
      rcases List.mem_cons.1 hmem with hmem | hmem
      · cases hmem
        exact h.frames isSharded sds (remaining + 1) (by rw [hstack]; exact List.mem_cons_self ..)
      · exact h.frames isSharded' sds' remaining' (by rw [hstack]; exact List.mem_cons_of_mem _ hmem)
    unfold Ready at hready
    simp only [hstack, topLoop] at hready
    simp only at ht
    split at ht
    · rename_i hq
      cases ht
      refine ⟨hpop, ready_of_settled ?_⟩
      intro m hm
      rw [hq] at hm
      cases hm
    · rename_i m queue hq
      cases ht
      have hsel := h.selectors
      rw [hq] at hready hsel
      refine Base.processMember random ⟨hpop.keyed, hpop.known, hpop.frames, ?_, hpop.served⟩ rfl
        (hsel m (List.mem_cons_self ..)) ?_ ?_
      · intro m' hm'
        exact hsel m' (List.mem_cons_of_mem _ hm')
      · intro m' hm'
        by_cases hcl : s.state = .closed
        · rw [if_pos hcl] at hready hm'
          exact hready m' (List.mem_cons_of_mem _ hm')
        · rw [if_neg hcl] at hready hm'
          exact hready m' hm'
      · intro hcl
        rw [if_pos hcl] at hready
        exact hready m (List.mem_cons_self ..)
  · rename_i rest hstack
    split at ht
    · rename_i hq
      cases ht
      refine ⟨h.pop hstack, ready_of_settled ?_⟩
      intro m hm
      rw [hq] at hm
      cases hm
    · rename_i m queue hq
      cases ht
      refine Base.drainMember ⟨h.keyed, h.known, h.frames, ?_, h.served⟩ hstack
      intro m' hm'
      exact h.selectors m' (by rw [hq]; exact List.mem_cons_of_mem _ hm')
  · cases ht

theorem Base.selectServer (h : s.Base) (hready : s.Ready) {selector : ServerSelector} (hsel : KnownSelector selector)
    (timeoutMS transaction : Option Nat) :
    (s.selectServer selector timeoutMS transaction).Base ∧ (s.selectServer selector timeoutMS transaction).Ready := by
  unfold Selection.selectServer
  simp only
  split
  · have hnext : Base { s with next := s.next + 1 } := ⟨h.keyed, h.known, h.frames, h.selectors, h.served⟩
    refine ⟨hnext.invoke _ _ ?_, hready⟩
    rintro server ⟨⟩
  · refine Base.processWaitQueue ⟨h.keyed, h.known, h.frames, ?_, h.served⟩
    intro m hm
    rcases Heap.mem_alloc.1 hm with hm | rfl
    · exact h.selectors m hm
    · exact hsel

/-- Between tasks no loop is suspended. -/
theorem ready_idle (h : s.idle = true) : s.Ready := by
  have hnil : s.stack = [] := by simpa [idle] using h
  unfold Ready
  rw [hnil]
  trivial

theorem frames_idle {topology : Topology} (h : s.idle = true) :
    ∀ isSharded sds remaining, Frame.process isSharded sds remaining ∈ s.stack →
      sds = topology.description.servers.values := by
  have hnil : s.stack = [] := by simpa [idle] using h
  rw [hnil]
  intro isSharded sds remaining hmem
  cases hmem

theorem Base.apply (h : s.Base) (hidle : s.idle = true) (hopen : s.state ≠ .closed) (e : SdamInput)
    (hlive : ∀ sd, e = .report sd → s.topology.servers.contains sd.address = true) :
    Base { s with topology := s.topology.apply rt srvMaxHosts e } := by
  refine ⟨?_, fun _ => Topology.apply_known (h.known hopen) hlive, frames_idle hidle, h.selectors, h.served⟩
  exact Topology.apply_entries (fun _ r hr ht => absurd hr.type ht) h.keyed fun _ _ _ => rfl

/-- `connect` creates an instance for every description. -/
theorem Base.connect (h : s.Base) (hidle : s.idle = true) : s.connect.Base := by
  refine ⟨h.keyed, fun _ => ?_, frames_idle hidle, h.selectors, h.served⟩
  have hfold : ∀ (sds : List ServerDescription) (m : ServerMap) (a : String),
      ((sds.foldl (fun m sd => m.set sd.address sd) m).contains a = true) ↔
        m.contains a = true ∨ ∃ sd ∈ sds, sd.address = a := by
    intro sds
    induction sds with
    | nil => intro m a; simp
    | cons sd sds ih =>
      intro m a
      rw [List.foldl_cons, ih]
      simp only [OrderedMap.contains, OrderedMap.get?_set, List.exists_mem_cons_iff]
      by_cases ha : a = sd.address
      · simp [ha]
      · simp [ha, Ne.symm ha]
  intro a sd hsd ht
  have haddr := h.keyed a sd hsd ht
  refine ⟨haddr, ?_⟩
  exact (hfold _ _ _).2 (.inr ⟨sd, OrderedMap.mem_values.2 ⟨a, hsd⟩, haddr⟩)

theorem Base.close (h : s.Base) (hready : s.Ready) : s.close.Base ∧ s.close.Ready := by
  unfold Selection.close
  split
  · exact ⟨h, hready⟩
  · rename_i hstate
    have hpush : Base { s with stack := .drain :: .closing :: s.stack } := by
      refine (h.push .closing ?_).push .drain ?_
      · rintro isSharded sds remaining ⟨⟩
      · rintro isSharded sds remaining ⟨⟩
    exact ⟨⟨h.keyed, fun _ => h.known fun hc => hstate (.inl hc), hpush.frames, h.selectors, h.served⟩, trivial⟩

theorem Base.finishClose (h : s.Base) : s.finishClose.Base :=
  ⟨h.keyed, fun hopen => absurd rfl hopen, h.frames, h.selectors, h.served⟩

/-- A timer fires between tasks. -/
theorem Base.selectionTimeout (h : s.Base) (hidle : s.idle = true) (id ms : Nat) :
    (s.selectionTimeout id ms).Base ∧ (s.selectionTimeout id ms).Ready := by
  have hcancel : Base { s with timers := s.timers.erase id, waitQueue := s.waitQueue.map (cancel id) } := by
    refine ⟨h.keyed, h.known, h.frames, ?_, h.served⟩
    intro m' hm'
    obtain ⟨m'', hm'', rfl⟩ := List.mem_map.1 hm'
    unfold cancel
    split
    · exact h.selectors m'' hm''
    · exact h.selectors m'' hm''
  have hready : Ready { s with timers := s.timers.erase id, waitQueue := s.waitQueue.map (cancel id) } :=
    ready_idle hidle
  refine ⟨hcancel.invoke _ _ ?_, ready_invoke hready _ _⟩
  rintro server ⟨⟩

theorem Base.step {e : Event} (h : s.Base) (hready : s.Ready) (he : e.Known)
    (hs : step rt srvMaxHosts s e = some t) : t.Base ∧ t.Ready := by
  cases step_steps hs with
  | select => exact h.selectServer hready he _ _
  | close => exact h.close hready
  | finishClose hstack =>
    refine ⟨h.finishClose, ?_⟩
    rcases hstack with hstack | hstack
    · exact ready_idle (by simp [idle, Selection.finishClose, hstack])
    · -- `close` finishes before it returns: nothing it let in can be served
      unfold Ready at hready
      rw [hstack] at hready
      exact ready_of_settled hready
  | ret hstack =>
    unfold Ready at hready
    rcases hstack with hstack | hstack
    · refine ⟨h.pop hstack, ?_⟩
      unfold Ready
      rw [hstack] at hready
      exact hready
    · rw [hstack] at hready
      exact ⟨h.pop hstack, ready_of_settled hready⟩
  | tick ht => exact h.tick hready ht
  | timeout hidle => exact h.selectionTimeout hidle _ _
  | @report sd attempts hidle hopen hlive =>
    have happly : Base { s with topology := s.topology.apply rt srvMaxHosts (.report sd) } :=
      h.apply hidle hopen (.report sd) (by rintro sd' ⟨⟩; exact hlive)
    cases attempts with
    | true => exact happly.processWaitQueue
    | false => exact ⟨happly, ready_idle hidle⟩
  | @poll random records hidle hopen =>
    exact ⟨h.apply hidle hopen (.poll random records) (by rintro sd ⟨⟩), ready_idle hidle⟩
  | connect hidle => exact ⟨h.connect hidle, ready_idle hidle⟩
  | connected hstate =>
    have hopen : s.state ≠ .closed := by rw [hstate]; decide
    refine ⟨⟨h.keyed, fun _ => h.known hopen, h.frames, h.selectors, h.served⟩, ?_⟩
    unfold Ready at hready ⊢
    simp only [hopen, if_false] at hready
    exact hready
  | transact => exact ⟨⟨h.keyed, h.known, h.frames, h.selectors, h.served⟩, hready⟩

theorem base_new (rt : Runtime) (options : TopologyOptions) (seeds : List HostAddress) (timeoutMS : Nat) :
    (new rt options seeds timeoutMS).Base := by
  refine ⟨?_, fun hopen => absurd rfl hopen, ?_, ?_, ?_⟩
  · exact (initialDescription_wellShaped rt options seeds).keyed
  · rintro isSharded sds remaining ⟨⟩
  · rintro m ⟨⟩
  · rintro c ⟨⟩

theorem books_new (rt : Runtime) (options : TopologyOptions) (seeds : List HostAddress) (timeoutMS : Nat) :
    (new rt options seeds timeoutMS).Books := by
  refine ⟨.refl _, .refl _, ?_⟩
  rintro m ⟨⟩

/-- In every run whose selectors choose among the known servers, each request is called back at most once, each
that was not waits in the queue, with its timer armed when it has a timeout, and each server handed out is one
the topology has at that moment. -/
theorem selection_bookkeeping (rt : Runtime) (srvMaxHosts : Nat) (options : TopologyOptions) (seeds : List HostAddress)
    (timeoutMS : Nat) (es : List Event) (hes : ∀ e ∈ es, e.Known) (s : Selection)
    (hr : Run.exec (step rt srvMaxHosts) (new rt options seeds timeoutMS) es = some s) :
    (s.calls.map (·.request)).Nodup ∧
    (∀ id < s.next, id ∉ s.calls.map (·.request) → ∃ m ∈ s.waitQueue, m.id = id ∧ m.cancelled = false ∧
      (m.timeoutMS ≠ 0 → m.timer = true ∧ id ∈ s.timers)) ∧
    ∀ c ∈ s.calls, ∀ server, c.outcome = .selected server → ∃ a ∈ c.present, server = some a := by
  have hbooks : s.Books :=
    Run.exec_inv _ (fun _ _ _ h hs => books_step h hs) (books_new rt options seeds timeoutMS) hr
  have hinv : s.Base ∧ s.Ready :=
    Run.exec_inv_meets (P := fun s : Selection => s.Base ∧ s.Ready) (C := fun _ e => e.Known) _
      (fun _ _ _ h he hs => h.1.step h.2 he hs) ⟨base_new rt options seeds timeoutMS, trivial⟩
      (Run.meets_of_forall _ _ hes) hr
  refine ⟨hbooks.called_nodup, ?_, hinv.1.served⟩
  intro id hid hnot
  have hmem : id ∈ s.called ++ waitingIds s.waitQueue := hbooks.requests.mem_iff.2 (List.mem_range.2 hid)
  rcases List.mem_append.1 hmem with hmem | hmem
  · exact absurd hmem hnot
  · obtain ⟨m, hm, hc, rfl⟩ := mem_waitingIds.1 hmem
    refine ⟨m, hm, rfl, hc, fun hms => ⟨?_, ?_⟩⟩
    · rw [hbooks.timer m hm, hc]
      simpa using hms
    · exact hbooks.armed.mem_iff.2 (mem_armedIds.2 ⟨m, hm, hc, hms, rfl⟩)

/-- The known servers. -/
def anyKnown : ServerSelector := fun _ sds => .ok (sds.filter fun sd => sd.type ≠ .unknown)

/-- A request that waits until the primary of the two-host set reports. -/
def lanSelection : List Event :=
  [.connect, .select anyKnown none none, .tick 0, .tick 0, .report (lanReport "a" true), .tick 0, .ret]

theorem selection_bookkeeping_lan :
    ∃ s, Run.exec (step lanRuntime 0) (new lanRuntime {} [lanHost "a"] 30000) lanSelection = some s ∧
      (s.calls.map (·.request)).Nodup ∧
      (∀ id < s.next, id ∉ s.calls.map (·.request) → ∃ m ∈ s.waitQueue, m.id = id ∧ m.cancelled = false ∧
        (m.timeoutMS ≠ 0 → m.timer = true ∧ id ∈ s.timers)) ∧
      ∀ c ∈ s.calls, ∀ server, c.outcome = .selected server → ∃ a ∈ c.present, server = some a := by
  have hsome : (Run.exec (step lanRuntime 0) (new lanRuntime {} [lanHost "a"] 30000) lanSelection).isSome = true := by
    decide +kernel
  obtain ⟨s, hs⟩ := Option.isSome_iff_exists.1 hsome
  refine ⟨s, hs, selection_bookkeeping lanRuntime 0 {} [lanHost "a"] 30000 lanSelection ?_ s hs⟩
  simp only [lanSelection, List.mem_cons, List.not_mem_nil, or_false]
  rintro e (rfl | rfl | rfl | rfl | rfl | rfl | rfl)
  · trivial
  · intro d sds chosen hchosen sd hsd
    cases hchosen
    obtain ⟨hmem, hknown⟩ := List.mem_filter.1 hsd
    exact ⟨hmem, by simpa using hknown⟩
  · trivial
  · trivial
  · trivial
  · trivial
  · trivial

/-- A selector that asks for one address, known or not. -/
def byAddress (address : String) : ServerSelector := fun _ sds => .ok (sds.filter fun sd => sd.address = address)

/-- The primary, in a version the driver does not support. -/
def lanIncompatible : ServerDescription :=
  .new lanRuntime (lanHost "a") (some { lanHello true with minWireVersion := some 20, maxWireVersion := some 21 })

/-- An incompatible report is stored, with the hosts it lists, before any instance is created for them: a selector
that takes one of them is called back without a server. -/
theorem unknown_server_undefined :
    ((Run.exec (step lanRuntime 0) (new lanRuntime {} [lanHost "a"] 30000)
      [.connect, .report lanIncompatible, .select (byAddress "b:27017") none none, .tick 0]).map (·.calls)) =
      some [{ request := 0, outcome := .selected none, present := ["a:27017"] }] := by
  decide +kernel

end Selection

end MongoDriver.Sdam
