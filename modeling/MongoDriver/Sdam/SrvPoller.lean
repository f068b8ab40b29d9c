/-
Polling of SRV records (`SrvPoller` of `src/sdam/srv_polling.ts`): the timer of the next poll, the lookups that are on
their way and their answers, under any calls of `start()` and `stop()` in between. An answer is handled to its end
before anything else happens; what a listener does of itself comes next.
-/
import MongoDriver.Base.Run
import MongoDriver.Base.Timers
import MongoDriver.Sdam.ParentDomain

namespace MongoDriver.Sdam

structure SrvPollerOptions where
  srvServiceName : String := "mongodb"
  srvHost : String
  heartbeatFrequencyMS : Int := 10000

/-- A call of `dns.resolveSrv` that is not answered. -/
structure Lookup where
  id : Nat
  address : String
  generation : Nat
deriving DecidableEq

/-- The poller, with the timers it runs on, its lookups, the events it has emitted and what it has logged. -/
structure SrvPoller where
  haMode : Bool := false
  generation : Nat := 0
  /-- `_timeout` -/
  timeout : Option Nat := none
  timers : Timers := {}
  lookups : List Lookup := []
  /-- the lookups so far -/
  issued : Nat := 0
  /-- `srvRecordDiscovery` -/
  emitted : List (List SrvRecord) := []
  warnings : List String := []

namespace SrvPoller

section

variable (options : SrvPollerOptions)

/-! ## The code -/

def srvAddress : String := "_" ++ options.srvServiceName ++ "._tcp." ++ options.srvHost

def intervalMS (s : SrvPoller) : Int := if s.haMode then options.heartbeatFrequencyMS else 60000

def schedule (s : SrvPoller) (now : Int) : SrvPoller :=
  let timers := s.timers.clear s.timeout
  { s with timers := timers.setTimeout now (s.intervalMS options), timeout := some timers.next }

def start (s : SrvPoller) (now : Int) : SrvPoller := if s.timeout.isSome then s else s.schedule options now

def stop (s : SrvPoller) : SrvPoller :=
  if s.timeout.isSome then
    { s with timers := s.timers.clear s.timeout, generation := s.generation + 1, timeout := none }
  else s

def success (s : SrvPoller) (now : Int) (srvRecords : List SrvRecord) : SrvPoller :=
  let s := { s with haMode := false }.schedule options now
  { s with emitted := s.emitted ++ [srvRecords] }

def failure (s : SrvPoller) (now : Int) (message : String) : SrvPoller :=
  { s with warnings := s.warnings ++ [message], haMode := true }.schedule options now

def parentDomainMismatch (s : SrvPoller) (srvRecord : SrvRecord) : SrvPoller :=
  let address := srvRecord.name ++ ":" ++ ToString.toString srvRecord.port
  { s with warnings := s.warnings ++ ["parent domain mismatch on SRV record (" ++ address ++ ")"] }

/-- `_poll()`, up to the lookup. -/
def poll (s : SrvPoller) : SrvPoller :=
  { s with lookups := s.lookups ++ [{ id := s.issued, address := srvAddress options, generation := s.generation }],
           issued := s.issued + 1 }

/-- One record: it is added to `finalAddresses`, or there is a warning. -/
def checkRecord (found : SrvPoller × List SrvRecord) (record : SrvRecord) : SrvPoller × List SrvRecord :=
  if matchesParentDomain record.name options.srvHost then (found.1, found.2 ++ [record])
  else (found.1.parentDomainMismatch record, found.2)

def checkRecords (s : SrvPoller) (srvRecords : List SrvRecord) : SrvPoller × List SrvRecord :=
  srvRecords.foldl (checkRecord options) (s, [])

/-- The callback of the lookup; `none` is an error. -/
def answer (s : SrvPoller) (now : Int) (generation : Nat) (srvRecords : Option (List SrvRecord)) : SrvPoller :=
  if generation ≠ s.generation then s
  else
    match srvRecords with
    | none => s.failure options now "DNS error"
    | some srvRecords =>
      let (s, finalAddresses) := s.checkRecords options srvRecords
      if finalAddresses = [] then s.failure options now "No valid addresses found at host"
      else s.success options now finalAddresses

inductive Event
  | start (now : Int)
  | stop
  /-- The timer calls `_poll`. -/
  | fires (handle : Nat) (now : Int)
  /-- A lookup is answered. -/
  | answers (id : Nat) (now : Int) (srvRecords : Option (List SrvRecord))
deriving DecidableEq

def step (s : SrvPoller) : Event → Option SrvPoller
  | .start now => some (s.start options now)
  | .stop => some s.stop
  | .fires handle now => (s.timers.fire? handle now).map fun timers => { s with timers := timers }.poll options
  | .answers id now srvRecords =>
    (s.lookups.find? (·.id = id)).map fun lookup =>
      { s with lookups := s.lookups.filter (·.id ≠ id) }.answer options now lookup.generation srvRecords

/-! ## Lookups -/

/-- A timer that is armed is the one in the variable. A lookup on its way was issued in a generation up to the present
one, and in the present one only while the variable is set. -/
structure Tracked (s : SrvPoller) : Prop where
  held : s.timers.Held s.timeout
  issued : ∀ lookup ∈ s.lookups, lookup.id < s.issued
  generation : ∀ lookup ∈ s.lookups, lookup.generation ≤ s.generation
  running : s.timeout = none → ∀ lookup ∈ s.lookups, lookup.generation < s.generation

/-- The lookups up to one are of generations before the present one. -/
def Stale (bound : Nat) (s : SrvPoller) : Prop :=
  ∀ lookup ∈ s.lookups, lookup.id < bound → lookup.generation < s.generation

section

variable {options} {s t : SrvPoller} {e : Event}

theorem tracked_schedule (h : s.Tracked) (now : Int) : (s.schedule options now).Tracked := by
  constructor
  · exact Timers.held_setTimeout h.held.armed_clear
  · exact h.issued
  · exact h.generation
  · exact fun hnone => by cases hnone

theorem tracked_stop (h : s.Tracked) : s.stop.Tracked := by
  unfold stop
  split
  · constructor
    · exact Timers.held_of_armed_eq_nil h.held.armed_clear
    · exact h.issued
    · exact fun lookup hlookup => Nat.le_succ_of_le (h.generation lookup hlookup)
    · exact fun _ lookup hlookup => Nat.lt_succ_of_le (h.generation lookup hlookup)
  · exact h

theorem tracked_poll (h : s.Tracked) {timers : Timers} (hnone : timers.armed = []) (hset : s.timeout ≠ none) :
    ({ s with timers := timers }.poll options).Tracked := by
  constructor
  · exact Timers.held_of_armed_eq_nil hnone
  · intro lookup hlookup
    rcases List.mem_append.1 hlookup with hlookup | hlookup
    · exact Nat.lt_succ_of_lt (h.issued lookup hlookup)
    · rw [List.mem_singleton.1 hlookup]
      exact Nat.lt_succ_self _
  · intro lookup hlookup
    rcases List.mem_append.1 hlookup with hlookup | hlookup
    · exact h.generation lookup hlookup
    · rw [List.mem_singleton.1 hlookup]
      exact Nat.le_refl _
  · exact fun htimeout => absurd htimeout hset

variable (options) in
theorem checkRecords_spec (s : SrvPoller) (srvRecords : List SrvRecord) :
    ∃ warnings, s.checkRecords options srvRecords =
      ({ s with warnings := warnings }, srvRecords.filter fun r => matchesParentDomain r.name options.srvHost) := by
  suffices hloop : ∀ (s : SrvPoller) (finalAddresses : List SrvRecord), ∃ warnings,
      srvRecords.foldl (checkRecord options) (s, finalAddresses) =
      ({ s with warnings := warnings },
        finalAddresses ++ srvRecords.filter fun r => matchesParentDomain r.name options.srvHost) from hloop s []
  induction srvRecords with
  | nil => exact fun s finalAddresses => ⟨s.warnings, by simp⟩
  | cons record srvRecords ih =>
    intro s finalAddresses
    rw [List.foldl_cons]
    by_cases hmatches : matchesParentDomain record.name options.srvHost = true
    · obtain ⟨warnings, hwarnings⟩ := ih s (finalAddresses ++ [record])
      refine ⟨warnings, ?_⟩
      rw [checkRecord, if_pos hmatches, hwarnings, List.filter_cons_of_pos (by simp [hmatches]), List.append_assoc,
        List.singleton_append]
    · obtain ⟨warnings, hwarnings⟩ := ih (s.parentDomainMismatch record) finalAddresses
      refine ⟨warnings, ?_⟩
      rw [checkRecord, if_neg hmatches, hwarnings, List.filter_cons_of_neg (by simp [hmatches])]
      rfl

variable (options) in
/-- What the handling of an answer comes to: nothing, or the next poll, with an event or without. -/
theorem answer_cases (s : SrvPoller) (now : Int) (generation : Nat) (srvRecords : Option (List SrvRecord)) :
    s.answer options now generation srvRecords = s ∨
      generation = s.generation ∧ ∃ (haMode : Bool) (warnings : List String) (emitted : List (List SrvRecord)),
        s.answer options now generation srvRecords =
          { { s with haMode, warnings }.schedule options now with emitted := s.emitted ++ emitted } ∧
        ∀ event ∈ emitted, ∀ record ∈ event, matchesParentDomain record.name options.srvHost = true ∧
          ∃ answered, srvRecords = some answered ∧ record ∈ answered := by
  unfold answer
  by_cases hstale : generation = s.generation
  · rw [if_neg (by simp [hstale])]
    right
    refine ⟨hstale, ?_⟩
    cases srvRecords with
    | none => exact ⟨true, s.warnings ++ ["DNS error"], [], by simp [failure, schedule], by simp⟩
    | some srvRecords =>
      obtain ⟨warnings, hcheck⟩ := checkRecords_spec options s srvRecords
      simp only [hcheck]
      split
      · exact ⟨true, warnings ++ ["No valid addresses found at host"], [], by simp [failure, schedule], by simp⟩
      · refine ⟨false, warnings, [_], rfl, ?_⟩
        intro event hevent record hrecord
        rw [List.mem_singleton.1 hevent] at hrecord
        obtain ⟨hmem, hmatches⟩ := List.mem_filter.1 hrecord
        exact ⟨hmatches, srvRecords, rfl, hmem⟩
  · rw [if_pos hstale]
    exact .inl rfl

theorem tracked_answer (h : s.Tracked) (now : Int) (generation : Nat) (srvRecords : Option (List SrvRecord)) :
    (s.answer options now generation srvRecords).Tracked := by
  obtain hsame | ⟨-, haMode, warnings, emitted, hanswer, -⟩ := answer_cases options s now generation srvRecords
  · rw [hsame]
    exact h
  · have hs : { s with haMode, warnings }.Tracked := ⟨h.held, h.issued, h.generation, h.running⟩
    have hscheduled : ({ s with haMode, warnings }.schedule options now).Tracked := tracked_schedule hs now
    rw [hanswer]
    exact ⟨hscheduled.held, hscheduled.issued, hscheduled.generation, hscheduled.running⟩

theorem tracked_step (h : s.Tracked) (ht : step options s e = some t) : t.Tracked := by
  cases e with
  | start now =>
    cases ht
    unfold start
    split
    · exact h
    · exact tracked_schedule h now
  | stop =>
    cases ht
    exact tracked_stop h
  | fires handle now =>
    obtain ⟨timers, hfire, rfl⟩ := Option.map_eq_some_iff.1 ht
    obtain ⟨htimeout, hnone, -⟩ := h.held.fire hfire
    apply tracked_poll h hnone
    rw [htimeout]
    exact Option.some_ne_none handle
  | answers id now srvRecords =>
    obtain ⟨lookup, -, rfl⟩ := Option.map_eq_some_iff.1 ht
    apply tracked_answer
    constructor
    · exact h.held
    · exact fun lookup hlookup => h.issued lookup (List.mem_of_mem_filter hlookup)
    · exact fun lookup hlookup => h.generation lookup (List.mem_of_mem_filter hlookup)
    · exact fun hnone lookup hlookup => h.running hnone lookup (List.mem_of_mem_filter hlookup)

theorem tracked_new : ({} : SrvPoller).Tracked := by
  constructor
  · exact Timers.held_of_armed_eq_nil rfl
  · exact fun lookup hlookup => absurd hlookup List.not_mem_nil
  · exact fun lookup hlookup => absurd hlookup List.not_mem_nil
  · exact fun _ lookup hlookup => absurd hlookup List.not_mem_nil

/-! ## Emitted records -/

/-- What a step emits are records of an answer that match the parent domain. -/
theorem emitted_step (ht : step options s e = some t) {event : List SrvRecord} (hevent : event ∈ t.emitted) :
    event ∈ s.emitted ∨ ∀ record ∈ event, matchesParentDomain record.name options.srvHost = true ∧
      ∃ id now answered, e = .answers id now (some answered) ∧ record ∈ answered := by
  cases e with
  | start now =>
    cases ht
    unfold start at hevent
    split at hevent
    · exact .inl hevent
    · exact .inl hevent
  | stop =>
    cases ht
    unfold stop at hevent
    split at hevent
    · exact .inl hevent
    · exact .inl hevent
  | fires handle now =>
    obtain ⟨timers, -, rfl⟩ := Option.map_eq_some_iff.1 ht
    exact .inl hevent
  | answers id now srvRecords =>
    obtain ⟨lookup, -, rfl⟩ := Option.map_eq_some_iff.1 ht
    obtain hsame | ⟨-, haMode, warnings, emitted, hanswer, hemitted⟩ := answer_cases options
      { s with lookups := s.lookups.filter (·.id ≠ id) } now lookup.generation srvRecords
    · rw [hsame] at hevent
      exact .inl hevent
    · rw [hanswer] at hevent
      rcases List.mem_append.1 hevent with hevent | hevent
      · exact .inl hevent
      · right
        intro record hrecord
        obtain ⟨hmatches, answered, rfl, hmem⟩ := hemitted event hevent record hrecord
        exact ⟨hmatches, id, now, answered, rfl, hmem⟩

theorem emitted_exec : ∀ {events : List Event} {s t : SrvPoller}, Run.exec (step options) s events = some t →
    ∀ event ∈ t.emitted, event ∈ s.emitted ∨ ∀ record ∈ event, matchesParentDomain record.name options.srvHost = true ∧
      ∃ id now answered, .answers id now (some answered) ∈ events ∧ record ∈ answered
  | [], s, t, ht, event, hevent => by
    cases ht
    exact .inl hevent
  | e :: events, s, t, ht, event, hevent => by
    obtain ⟨u, hu, ht⟩ := (Run.exec_cons _).1 ht
    rcases emitted_exec ht event hevent with hevent | hrecords
    · rcases emitted_step hu hevent with hevent | hrecords
      · exact .inl hevent
      · right
        intro record hrecord
        obtain ⟨hmatches, id, now, answered, rfl, hmem⟩ := hrecords record hrecord
        exact ⟨hmatches, id, now, answered, List.mem_cons_self, hmem⟩
    · right
      intro record hrecord
      obtain ⟨hmatches, id, now, answered, he, hmem⟩ := hrecords record hrecord
      exact ⟨hmatches, id, now, answered, List.mem_cons_of_mem _ he, hmem⟩

/-! ## Stale answers -/

/-- After `stop()` every lookup on its way is of a generation before. -/
theorem stale_stop (h : s.Tracked) (bound : Nat) : Stale bound s.stop := by
  unfold stop
  split
  · exact fun lookup hlookup _ => Nat.lt_succ_of_le (h.generation lookup hlookup)
  · rename_i htimeout
    exact fun lookup hlookup _ => h.running (by simpa using htimeout) lookup hlookup

theorem stale_step {bound : Nat} (h : Stale bound s) (hbound : bound ≤ s.issued) (ht : step options s e = some t) :
    Stale bound t ∧ bound ≤ t.issued := by
  cases e with
  | start now =>
    cases ht
    unfold start
    split
    · exact ⟨h, hbound⟩
    · exact ⟨h, hbound⟩
  | stop =>
    cases ht
    unfold stop
    split
    · exact ⟨fun lookup hlookup hold => Nat.lt_succ_of_lt (h lookup hlookup hold), hbound⟩
    · exact ⟨h, hbound⟩
  | fires handle now =>
    obtain ⟨timers, -, rfl⟩ := Option.map_eq_some_iff.1 ht
    constructor
    · intro lookup hlookup hold
      rcases List.mem_append.1 hlookup with hlookup | hlookup
      · exact h lookup hlookup hold
      · rw [List.mem_singleton.1 hlookup] at hold
        exact absurd hold (Nat.not_lt_of_le hbound)
    · exact Nat.le_succ_of_le hbound
  | answers id now srvRecords =>
    obtain ⟨lookup, -, rfl⟩ := Option.map_eq_some_iff.1 ht
    have hrest : Stale bound { s with lookups := s.lookups.filter (·.id ≠ id) } :=
      fun lookup hlookup => h lookup (List.mem_of_mem_filter hlookup)
    obtain hsame | ⟨-, haMode, warnings, emitted, hanswer, -⟩ := answer_cases options
      { s with lookups := s.lookups.filter (·.id ≠ id) } now lookup.generation srvRecords
    · rw [hsame]
      exact ⟨hrest, hbound⟩
    · rw [hanswer]
      exact ⟨hrest, hbound⟩

/-- The answer to a stale lookup is dropped. -/
theorem answers_of_stale {bound id : Nat} {now : Int} {srvRecords : Option (List SrvRecord)} (h : Stale bound s)
    (hid : id < bound) (ht : step options s (.answers id now srvRecords) = some t) :
    t = { s with lookups := s.lookups.filter (·.id ≠ id) } := by
  obtain ⟨lookup, hfind, rfl⟩ := Option.map_eq_some_iff.1 ht
  have hlookup : lookup.id = id := by simpa using List.find?_some hfind
  have hgeneration := h lookup (List.mem_of_find?_eq_some hfind) (hlookup ▸ hid)
  exact if_pos (Nat.ne_of_lt hgeneration)

end

/-- In every run, the answer to a lookup that was issued before a call of `stop()` neither emits an event nor sets a
timer after it, whatever happens in between, and at most one timer is armed at any time. -/
theorem cancelled_by_stop {before middle : List Event} {u v : SrvPoller}
    (hu : Run.exec (step options) {} before = some u) (hv : Run.exec (step options) u (.stop :: middle) = some v) :
    (∀ id now srvRecords w, id < u.issued → step options v (.answers id now srvRecords) = some w →
      w.emitted = v.emitted ∧ w.timers = v.timers ∧ w.timeout = v.timeout) ∧
      u.timers.armed.length ≤ 1 ∧ v.timers.armed.length ≤ 1 := by
  have htracked : u.Tracked := Run.exec_inv _ (fun _ _ _ => tracked_step) tracked_new hu
  have htracked' : v.Tracked := Run.exec_inv _ (fun _ _ _ => tracked_step) htracked hv
  obtain ⟨s, hs, hv⟩ := (Run.exec_cons _).1 hv
  cases hs
  have hissued : u.issued ≤ u.stop.issued := by
    unfold stop
    split
    · exact Nat.le_refl _
    · exact Nat.le_refl _
  have hstale : Stale u.issued v ∧ u.issued ≤ v.issued := by
    apply Run.exec_inv _ _ ⟨stale_stop htracked u.issued, hissued⟩ hv
    rintro s e t ⟨hs, hbound⟩ ht
    exact stale_step hs hbound ht
  refine ⟨?_, htracked.held.one, htracked'.held.one⟩
  intro id now srvRecords w hid hw
  rw [answers_of_stale hstale.1 hid hw]
  exact ⟨rfl, rfl, rfl⟩

/-- A lookup is answered after the poller was stopped and started again. -/
theorem cancelled_by_stop_restarted : ∃ u v w : SrvPoller,
    Run.exec (step { srvHost := "a.example.com" }) {} [.start 0, .fires 0 60000] = some u ∧
    Run.exec (step { srvHost := "a.example.com" }) u [.stop, .start 60001] = some v ∧
    step { srvHost := "a.example.com" } v (.answers 0 60002 (some [⟨"b.example.com", 27017⟩])) = some w ∧
    w.emitted = v.emitted ∧ w.timers = v.timers ∧ w.timeout = v.timeout := by
  obtain ⟨u, v, w, hu, hv, hw, hissued⟩ : ∃ u v w : SrvPoller,
      Run.exec (step { srvHost := "a.example.com" }) {} [.start 0, .fires 0 60000] = some u ∧
      Run.exec (step { srvHost := "a.example.com" }) u [.stop, .start 60001] = some v ∧
      step { srvHost := "a.example.com" } v (.answers 0 60002 (some [⟨"b.example.com", 27017⟩])) = some w ∧
      0 < u.issued := ⟨_, _, _, rfl, rfl, rfl, Nat.one_pos⟩
  exact ⟨u, v, w, hu, hv, hw, (cancelled_by_stop _ hu hv).1 0 60002 _ w hissued hw⟩

end

end SrvPoller

end MongoDriver.Sdam
