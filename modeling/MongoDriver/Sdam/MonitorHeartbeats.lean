/-
The heartbeats that a monitor reports. Every check, while it streams too, emits that a heartbeat starts and then, once,
that it succeeded or failed, before the next one starts; whatever its listeners call in between. What concerns one
check is kept in a record, which the other functions of the monitor leave alone.
-/
import MongoDriver.Sdam.MonitorStates

namespace MongoDriver.Sdam

/-! ## Taking turns -/

/-- Whether the event starts or ends a heartbeat of the check. -/
def beat (i : Nat) : MonitorEffect → Option Bool
  | .heartbeatStarted j => if j = i then some true else none
  | .heartbeatSucceeded j => if j = i then some false else none
  | .heartbeatFailed j _ => if j = i then some false else none
  | _ => none

def beats (i : Nat) (trace : List MonitorEffect) : List Bool := trace.filterMap (beat i)

/-- Starts and ends take turns, and a start comes first. -/
def TakeTurns (l : List Bool) : Prop := ∀ (k : Nat) (b : Bool), l[k]? = some b → (b = true ↔ k % 2 = 0)

theorem takeTurns_nil : TakeTurns [] := fun k _ h => absurd h (by simp)

theorem TakeTurns.append {l : List Bool} (h : TakeTurns l) {b : Bool} (hb : b = true ↔ l.length % 2 = 0) :
    TakeTurns (l ++ [b]) := by
  intro k c hk
  rcases Nat.lt_or_ge k l.length with hlt | hge
  · rw [List.getElem?_append_left hlt] at hk
    exact h k c hk
  · rw [List.getElem?_append_right hge, List.getElem?_singleton] at hk
    split at hk
    · rename_i hzero
      obtain rfl := Option.some.inj hk
      have hlast : k = l.length := by omega
      rw [hlast, hb]
    · cases hk

/-! ## Frames -/

/-- The check whose function waits. -/
def MonitorFrame.check : MonitorFrame → Option Nat
  | .checkServer i => some i
  | .failureHandler i _ => some i
  | .heartbeatFailed i _ => some i
  | .resetServer i _ => some i
  | .resetConnectionPool i _ => some i
  | .done i => some i
  | .connected i _ => some i
  | .replied i _ _ => some i
  | .restarted i => some i
  | _ => none

/-- It has started a heartbeat that has not ended. -/
def MonitorFrame.pending : MonitorFrame → Bool
  | .checkServer _ => true
  | .failureHandler _ _ => true
  | .restarted _ => true
  | _ => false

/-- The listeners that are still to be called. -/
def MonitorFrame.listeners : MonitorFrame → List Waiter
  | .cancelling listeners _ => listeners
  | _ => []

@[simp] theorem MonitorFrame.check_cancelling (listeners : List Waiter) (teardown : Teardown) :
    (cancelling listeners teardown).check = none := rfl

@[simp] theorem MonitorFrame.listeners_cancelling (listeners : List Waiter) (teardown : Teardown) :
    (cancelling listeners teardown).listeners = listeners := rfl

@[simp] theorem MonitorFrame.check_closing : closing.check = none := rfl

@[simp] theorem MonitorFrame.listeners_closing : closing.listeners = [] := rfl

/-! ## The record of a check -/

/-- What concerns one check: where it is, its frames, how often it will be cancelled and can be, and its heartbeats. -/
structure CheckRecord where
  stage : Option CheckStage
  frames : List MonitorFrame
  cancelling : Nat
  waiting : Nat
  beats : List Bool

namespace CheckRecord

/-- Heartbeats take turns; a check has a frame while it runs and only then, can be cancelled while it connects, and
one that called back has no heartbeat open. -/
structure Sound (r : CheckRecord) : Prop where
  turns : TakeTurns r.beats
  fresh : r.stage = none → r.beats = []
  running : r.stage = some .running → ∃ frame, r.frames = [frame] ∧ (frame.pending = true ↔ r.beats.length % 2 = 1)
  frames : r.stage ≠ some .running → r.frames = []
  ended : r.stage = some .over → r.beats.length % 2 = 0
  pending : ∀ stage, r.stage = some stage → stage ≠ .running → stage ≠ .over → r.beats.length % 2 = 1
  waiting : r.waiting ≤ if r.stage = some .connecting then 1 else 0
  cancelling : r.cancelling ≤ r.waiting

theorem Sound.of_eq {r r' : CheckRecord} (h : r.Sound) (heq : r' = r) : r'.Sound := heq ▸ h

/-- The function of the check runs now. -/
structure Acting (r : CheckRecord) (pending : Bool) : Prop where
  turns : TakeTurns r.beats
  stage : r.stage = some .running
  frames : r.frames = []
  parity : pending = true ↔ r.beats.length % 2 = 1
  waiting : r.waiting = 0
  cancelling : r.cancelling = 0

end CheckRecord

namespace Monitor

variable {m m' : Monitor} {i : Nat}

def record (i : Nat) (m : Monitor) : CheckRecord where
  stage := m.checks[i]?.map (·.stage)
  frames := m.stack.filter (·.check = some i)
  cancelling := (m.stack.flatMap (·.listeners)).count (.check i)
  waiting := m.cancellationToken.count (.check i)
  beats := beats i m.trace

/-! ## What leaves a record alone -/

/-- The function of another check waits. -/
theorem record_emit_other {j : Nat} (hne : j ≠ i) {effect : MonitorEffect} {frame : MonitorFrame}
    (hframe : frame.check = some j) (hlisteners : frame.listeners = []) (hbeat : beat i effect = none) :
    (m.emit effect frame).record i = m.record i := by
  unfold record emit beats
  simp [hbeat, hframe, hlisteners, hne]

theorem stage_setStage (m : Monitor) (j : Nat) (stage : CheckStage) :
    (m.setStage j stage).checks[i]?.map (·.stage) =
      if j = i then m.checks[i]?.map fun _ => stage else m.checks[i]?.map (·.stage) := by
  show (m.checks.modify j _)[i]?.map _ = _
  rw [List.getElem?_modify]
  cases m.checks[i]? <;> by_cases heq : j = i <;> simp [heq]

theorem record_setStage (m : Monitor) (j : Nat) (stage : CheckStage) :
    (m.setStage j stage).record i =
      { m.record i with stage := if j = i then (m.record i).stage.map fun _ => stage else (m.record i).stage } := by
  unfold record
  rw [stage_setStage]
  simp only [Option.map_map]
  rfl

theorem record_setStage_other {j : Nat} (hne : j ≠ i) (stage : CheckStage) :
    (m.setStage j stage).record i = m.record i := by
  rw [record_setStage, if_neg hne]

theorem record_destroy (m : Monitor) (connection : Option Nat) : (m.destroy connection).record i = m.record i := by
  cases connection <;> rfl

theorem record_dropConnection (m : Monitor) : m.dropConnection.record i = m.record i := record_destroy m m.connection

theorem record_dropPinger (m : Monitor) : m.dropPinger.record i = m.record i := by
  unfold dropPinger closePinger
  split
  · rfl
  · split
    · rfl
    · exact record_destroy m _

theorem record_measureRoundTripTime (m : Monitor) (p : Nat) (pinger : RTTPinger) :
    (m.measureRoundTripTime p pinger).record i = m.record i := by
  have hwaiting : (m.cancellationToken ++ [Waiter.pinger p]).count (Waiter.check i) =
      m.cancellationToken.count (Waiter.check i) := by
    simp
  unfold measureRoundTripTime
  simp only
  split
  · rfl
  · split
    · unfold record
      simp only [hwaiting]
    · rfl

theorem record_measureAndReschedule (m : Monitor) (p : Nat) (pinger : RTTPinger) (conn : Option Nat) :
    (m.measureAndReschedule p pinger conn).record i = m.record i := by
  unfold measureAndReschedule
  split
  · exact record_destroy m conn
  · rfl

theorem record_erase {waiter : Waiter} (hne : waiter ≠ .check i) :
    ({ m with cancellationToken := m.cancellationToken.erase waiter } : Monitor).record i = m.record i := by
  unfold record
  simp only [List.count_erase_of_ne hne.symm]

/-- A command is no heartbeat. -/
theorem record_command (m : Monitor) (j c : Nat) (command : HelloCommand) :
    ({ m with trace := m.trace ++ [.command j c command] } : Monitor).record i = m.record i := by
  unfold record beats
  simp [beat]

section Other

variable {j : Nat}

theorem record_complete_other (hne : j ≠ i) (now : Int) : (m.complete j now).record i = m.record i := by
  unfold complete
  split
  · rfl
  · exact record_setStage_other hne .over

theorem record_done_other (hne : j ≠ i) (now : Int) : (m.done j now).record i = m.record i := by
  unfold done
  split
  · exact record_complete_other hne now
  · rename_i hclose
    rw [transition_idle _ (not_closing (Bool.eq_false_iff.2 hclose)).1]
    exact record_complete_other hne now

theorem record_checked_other (hne : j ≠ i) (result : Except AnyError Bool) (now : Int) :
    (m.checked j result now).record i = m.record i := by
  unfold checked
  split
  · split
    · exact record_emit_other hne rfl rfl rfl
    · exact record_done_other hne now
  · split
    · exact record_done_other hne now
    · exact record_done_other hne now

theorem record_failureHandler_other (hne : j ≠ i) (error : AnyError) :
    (m.failureHandler j error).record i = m.record i :=
  Eq.trans (record_emit_other hne rfl rfl (if_neg hne)) (record_dropConnection m)

theorem record_connectFailed_other (hne : j ≠ i) (error : AnyError) :
    (m.connectFailed j error).record i = m.record i := by
  have hdrop : ({ m.setStage j .running with connection := none } : Monitor).record i = m.record i :=
    record_setStage_other hne .running
  unfold connectFailed
  simp only
  split
  · exact Eq.trans (record_emit_other hne rfl rfl rfl) hdrop
  · exact (record_failureHandler_other hne error).trans hdrop

theorem record_connectSucceeded_other (hne : j ≠ i) (conn : MonitorConnection) (streams : Bool) :
    (m.connectSucceeded j conn streams).record i = m.record i := by
  unfold connectSucceeded
  simp only
  split
  · exact (record_setStage_other hne .dropped).trans (record_destroy _ _)
  · refine Eq.trans (record_emit_other hne rfl rfl (if_neg hne)) ?_
    exact record_setStage_other (m := { m with connections := m.connections ++ [conn] }) hne .running

theorem record_replied_other (hne : j ≠ i) (isAwaitable : Bool) (result : Except AnyError Bool) :
    (m.replied j isAwaitable result).record i = m.record i := by
  have hrunning : (m.setStage j .running).record i = m.record i := record_setStage_other hne .running
  unfold replied
  simp only
  split
  · exact (record_failureHandler_other hne _).trans hrunning
  · exact Eq.trans (record_emit_other hne rfl rfl (if_neg hne)) hrunning

theorem record_checkServer_other (hne : j ≠ i) : (m.checkServer j).record i = m.record i := by
  have hwaiting : (m.cancellationToken ++ [Waiter.check j]).count (Waiter.check i) =
      m.cancellationToken.count (Waiter.check i) := by
    simp [hne]
  unfold checkServer
  split
  · refine Eq.trans ?_ (record_setStage_other hne .connecting)
    unfold record
    simp only [hwaiting]
    rfl
  · rename_i c conn _
    simp only
    refine (record_command _ j c _).trans ((record_setStage_other hne _).trans ?_)
    split <;> rfl

end Other

/-! ## The functions of the check -/

/-- The function of the check waits for the listeners of an event that is no heartbeat. -/
theorem emit_sound {pending : Bool} (h : (m.record i).Acting pending) {effect : MonitorEffect} {frame : MonitorFrame}
    (hframe : frame.check = some i) (hlisteners : frame.listeners = []) (hpending : frame.pending = pending)
    (hbeat : beat i effect = none) : ((m.emit effect frame).record i).Sound := by
  have hrecord : (m.emit effect frame).record i = { m.record i with frames := [frame] } := by
    have hframes : m.stack.filter (·.check = some i) = [] := h.frames
    unfold record emit beats
    simp [hbeat, hframe, hlisteners, hframes]
  rw [hrecord]
  exact ⟨h.turns, fun hstage => (by rw [h.stage] at hstage; cases hstage), fun _ => ⟨frame, rfl, hpending ▸ h.parity⟩,
    fun hne => absurd h.stage hne, fun hstage => (by rw [h.stage] at hstage; cases hstage),
    fun stage hstage hne => absurd (Option.some.inj (hstage.symm.trans h.stage)) hne, h.waiting.le.trans (Nat.zero_le _),
    h.cancelling.le.trans (Nat.zero_le _)⟩

/-- It waits after it started a heartbeat or ended one. -/
theorem emit_beat_sound {pending : Bool} (h : (m.record i).Acting pending) {effect : MonitorEffect}
    {frame : MonitorFrame} (hframe : frame.check = some i) (hlisteners : frame.listeners = [])
    (hpending : frame.pending = !pending) (hbeat : beat i effect = some !pending) :
    ((m.emit effect frame).record i).Sound := by
  have hrecord : (m.emit effect frame).record i =
      { m.record i with frames := [frame], beats := (m.record i).beats ++ [!pending] } := by
    have hframes : m.stack.filter (·.check = some i) = [] := h.frames
    have hbeats : [effect].filterMap (beat i) = [!pending] := by rw [List.filterMap_cons_some hbeat, List.filterMap_nil]
    unfold record emit beats
    simp [hbeats, hframe, hlisteners, hframes]
  have hparity : (!pending) = true ↔ (m.record i).beats.length % 2 = 0 := by
    have hodd := h.parity
    cases pending with
    | true => simp at hodd ⊢; omega
    | false => simp at hodd ⊢; omega
  have hlength : (!pending) = true ↔ ((m.record i).beats ++ [!pending]).length % 2 = 1 := by
    rw [hparity, List.length_append, List.length_singleton]
    omega
  rw [hrecord]
  exact ⟨h.turns.append hparity, fun hstage => (by rw [h.stage] at hstage; cases hstage),
    fun _ => ⟨frame, rfl, hpending ▸ hlength⟩, fun hne => absurd h.stage hne,
    fun hstage => (by rw [h.stage] at hstage; cases hstage),
    fun stage hstage hne => absurd (Option.some.inj (hstage.symm.trans h.stage)) hne, h.waiting.le.trans (Nat.zero_le _),
    h.cancelling.le.trans (Nat.zero_le _)⟩

/-- It waits for `connect` or for the command, or is over. -/
theorem setStage_sound {pending : Bool} (h : (m.record i).Acting pending) {stage : CheckStage}
    (hrunning : stage ≠ .running) (hover : pending = true ↔ stage ≠ .over) : ((m.setStage i stage).record i).Sound := by
  have hstage : (m.record i).stage.map (fun _ => stage) = some stage := by rw [h.stage]; rfl
  rw [record_setStage, if_pos rfl, hstage]
  refine ⟨h.turns, fun hnone => (by cases hnone), fun hrun => absurd (Option.some.inj hrun) hrunning, fun _ => h.frames,
    fun hend => ?_, fun stage' hstage' _ hne => ?_, h.waiting.le.trans (Nat.zero_le _), h.cancelling.le.trans (Nat.zero_le _)⟩
  · have hended : ¬ pending = true := fun hp => hover.1 hp (Option.some.inj hend)
    rw [h.parity] at hended
    show (m.record i).beats.length % 2 = 0
    omega
  · obtain rfl := Option.some.inj hstage'
    exact h.parity.1 (hover.2 hne)

theorem complete_sound (h : (m.record i).Acting false) (now : Int) : ((m.complete i now).record i).Sound := by
  have hover : ((m.setStage i .over).record i).Sound := setStage_sound h (fun heq => by cases heq) (by simp)
  unfold complete
  split
  · rename_i hnone
    have hstage := h.stage
    unfold record at hstage
    rw [hnone] at hstage
    cases hstage
  · exact hover

theorem done_sound (h : (m.record i).Acting false) (now : Int) : ((m.done i now).record i).Sound := by
  unfold done
  split
  · exact complete_sound h now
  · rename_i hclose
    rw [transition_idle _ (not_closing (Bool.eq_false_iff.2 hclose)).1]
    exact complete_sound (m := { m with state := .idle }) h now

theorem checked_sound (h : (m.record i).Acting false) (result : Except AnyError Bool) (now : Int) :
    ((m.checked i result now).record i).Sound := by
  unfold checked
  split
  · split
    · exact emit_sound h rfl rfl rfl rfl
    · exact done_sound h now
  · split
    · exact done_sound (m := { m with wakes := m.wakes + 1 }) h now
    · exact done_sound h now

theorem failureHandler_sound (h : (m.record i).Acting true) (error : AnyError) :
    ((m.failureHandler i error).record i).Sound := by
  have hdrop : (m.dropConnection.record i).Acting true := record_dropConnection m ▸ h
  exact emit_beat_sound hdrop rfl rfl rfl (if_pos rfl)

/-- The callback of `connect` or of the command is called. -/
theorem acting_setStage (h : (m.record i).Sound) {stage : CheckStage} (hstage : (m.record i).stage = some stage)
    (hrunning : stage ≠ .running) (hover : stage ≠ .over) (hwaiting : (m.record i).waiting = 0) :
    ((m.setStage i .running).record i).Acting true := by
  have hnew : (m.record i).stage.map (fun _ => CheckStage.running) = some .running := by rw [hstage]; rfl
  rw [record_setStage, if_pos rfl, hnew]
  have hframes : (m.record i).frames = [] :=
    h.frames fun heq => hrunning (Option.some.inj (hstage.symm.trans heq))
  exact ⟨h.turns, rfl, hframes, by simpa using h.pending stage hstage hrunning hover, hwaiting,
    Nat.le_zero.1 (hwaiting ▸ h.cancelling)⟩

theorem connectFailed_sound (h : (m.record i).Sound) (hstage : (m.record i).stage = some .connecting)
    (hwaiting : (m.record i).waiting = 0) (error : AnyError) : ((m.connectFailed i error).record i).Sound := by
  have hacting : (({ m.setStage i .running with connection := none } : Monitor).record i).Acting true :=
    acting_setStage h hstage (fun heq => by cases heq) (fun heq => by cases heq) hwaiting
  unfold connectFailed
  simp only
  split
  · exact emit_sound hacting rfl rfl rfl rfl
  · exact failureHandler_sound hacting error

/-- The check never calls back, and its heartbeat stays open. -/
theorem dropped_sound (h : (m.record i).Sound) (hstage : (m.record i).stage = some .connecting)
    (hwaiting : (m.record i).waiting = 0) : ((m.setStage i .dropped).record i).Sound := by
  have hdropped : (m.record i).stage.map (fun _ => CheckStage.dropped) = some .dropped := by rw [hstage]; rfl
  rw [record_setStage, if_pos rfl, hdropped]
  refine ⟨h.turns, fun hnone => (by cases hnone), fun hrun => (by cases hrun), fun _ => ?_,
    fun hend => (by cases hend), fun _ _ _ _ => ?_, hwaiting.le.trans (Nat.zero_le _), h.cancelling⟩
  · exact h.frames fun heq => by rw [hstage] at heq; cases heq
  · exact h.pending .connecting hstage (fun heq => by cases heq) fun heq => by cases heq

theorem connectSucceeded_sound (h : (m.record i).Sound) (hstage : (m.record i).stage = some .connecting)
    (hwaiting : (m.record i).waiting = 0) (conn : MonitorConnection) (streams : Bool) :
    ((m.connectSucceeded i conn streams).record i).Sound := by
  unfold connectSucceeded
  simp only
  split
  · have hrecord := record_destroy (i := i) ({ m with connections := m.connections ++ [conn] } : Monitor)
      (some m.connections.length)
    refine dropped_sound ?_ ?_ ?_
    · rw [hrecord]
      exact h
    · rw [hrecord]
      exact hstage
    · rw [hrecord]
      exact hwaiting
  · have hnew : (({ m with connections := m.connections ++ [conn] } : Monitor).record i).Sound := h
    have hacting := acting_setStage hnew hstage (fun heq => by cases heq) (fun heq => by cases heq) hwaiting
    have hkept : (({ ({ m with connections := m.connections ++ [conn] } : Monitor).setStage i .running with
        connection := some m.connections.length } : Monitor).record i).Acting true := hacting
    exact emit_beat_sound hkept rfl rfl rfl (if_pos rfl)

theorem replied_sound (h : (m.record i).Sound) {isAwaitable : Bool}
    (hstage : (m.record i).stage = some (.commanding isAwaitable)) (result : Except AnyError Bool) :
    ((m.replied i isAwaitable result).record i).Sound := by
  have hwaiting : (m.record i).waiting = 0 := by
    have hle := h.waiting
    rw [hstage, if_neg (fun heq => by cases heq)] at hle
    exact Nat.le_zero.1 hle
  have hacting := acting_setStage h hstage (fun heq => by cases heq) (fun heq => by cases heq) hwaiting
  unfold replied
  simp only
  split
  · exact failureHandler_sound hacting _
  · exact emit_beat_sound hacting rfl rfl rfl (if_pos rfl)

theorem checkServer_sound (h : (m.record i).Acting true) : ((m.checkServer i).record i).Sound := by
  unfold checkServer
  split
  · have hsound : ((m.setStage i .connecting).record i).Sound :=
      setStage_sound h (fun heq => by cases heq) (by simp)
    have hstage : ((m.setStage i .connecting).record i).stage = some .connecting := by
      rw [record_setStage, if_pos rfl, h.stage]
      rfl
    have hnone : m.cancellationToken.count (Waiter.check i) = 0 := h.waiting
    have hone : (m.cancellationToken ++ [Waiter.check i]).count (Waiter.check i) = 1 := by
      rw [List.count_append, hnone, List.count_singleton_self]
    have hrecord : ({ m.setStage i .connecting with
        cancellationToken := m.cancellationToken ++ [.check i] } : Monitor).record i =
          { (m.setStage i .connecting).record i with waiting := 1 } := by
      unfold record
      simp only [hone]
    rw [hrecord]
    have hle : ((m.setStage i .connecting).record i).cancelling ≤ 1 := by
      refine hsound.cancelling.trans ?_
      have hwaiting := hsound.waiting
      rw [hstage, if_pos rfl] at hwaiting
      exact hwaiting
    exact ⟨hsound.turns, hsound.fresh, hsound.running, hsound.frames, hsound.ended, hsound.pending,
      by rw [hstage, if_pos rfl], hle⟩
  · rename_i c conn _
    have hcommand : ∀ v : Monitor, v.record i = m.record i →
        (({ v.setStage i (.commanding m.topologyVersion.isSome) with
          trace := v.trace ++ [.command i c (m.options.command conn m.topologyVersion)] } : Monitor).record i).Sound := by
      intro v hv
      refine Eq.mpr (congrArg CheckRecord.Sound (record_command (v.setStage i _) i c _)) ?_
      exact setStage_sound (hv ▸ h) (fun heq => by cases heq) (by simp)
    simp only
    split
    · exact hcommand _ rfl
    · exact hcommand _ rfl

/-! ## Starting a check -/

/-- The new check is the one that is followed, or it is not. -/
theorem monitorServer_sound (h : (m.record i).Sound) (hstate : m.state ≠ .closing) (k : Nat) :
    ((m.monitorServer k).record i).Sound := by
  unfold monitorServer
  rw [transition_monitoring _ hstate]
  by_cases heq : m.checks.length = i
  · have hnone : (m.record i).stage = none := by
      show m.checks[i]?.map (·.stage) = none
      rw [List.getElem?_eq_none heq.le]
      rfl
    have hwaiting : (m.record i).waiting = 0 := by
      have hle := h.waiting
      rw [hnone, if_neg (fun heq => by cases heq)] at hle
      exact Nat.le_zero.1 hle
    have hacting : (({ m with state := .monitoring, checks := m.checks ++ [{ interval := k }] } : Monitor).record i).Acting
        false := by
      refine ⟨h.turns, ?_, h.frames fun heq => (by rw [hnone] at heq; cases heq), ?_, hwaiting,
        Nat.le_zero.1 (hwaiting ▸ h.cancelling)⟩
      · show (m.checks ++ [({ interval := k } : Check)])[i]?.map (·.stage) = some .running
        rw [← heq, List.getElem?_concat_length]
        rfl
      · show false = true ↔ (m.record i).beats.length % 2 = 1
        rw [h.fresh hnone]
        simp
    exact emit_beat_sound hacting (congrArg some heq) rfl rfl (if_pos heq)
  · have hchecks : (m.checks ++ [({ interval := k } : Check)])[i]? = m.checks[i]? := by
      rcases Nat.lt_or_ge i m.checks.length with hlt | hge
      · exact List.getElem?_append_left hlt
      · rw [List.getElem?_eq_none hge, List.getElem?_eq_none]
        rw [List.length_append, List.length_singleton]
        omega
    let next : Monitor := { m with state := .monitoring, checks := m.checks ++ [{ interval := k }] }
    have hrecord : next.record i = m.record i := by
      unfold record
      simp only [next, hchecks]
    have hemit : (next.emit (.heartbeatStarted m.checks.length) (.checkServer m.checks.length)).record i =
        next.record i := record_emit_other heq rfl rfl (if_neg heq)
    exact (hemit.trans hrecord) ▸ h

theorem wake_sound (h : (m.record i).Sound) (hstate : m.state ≠ .closing) (now : Int) (elapsed : Nat) :
    ((m.wake now elapsed).record i).Sound := by
  unfold wake
  split
  · exact h
  · rename_i k interval _
    simp only
    split
    · exact monitorServer_sound (m := { m with
        intervals := m.intervals.set k
          ({ interval.wake (m.options.interval false) now elapsed with clock := now + elapsed } : AsyncInterval) })
        h hstate k
    · exact h

theorem connect_sound (h : (m.record i).Sound) (now : Int) (elapsed : Nat) :
    ((m.connect now elapsed).record i).Sound := by
  unfold connect
  split
  · exact h
  · rename_i hclosed
    have hstate : m.state = .closed := not_not.1 hclosed
    have hpush : (({ m with
        intervals := m.intervals ++ [AsyncInterval.start (m.options.interval true) now elapsed]
        stack := .assign m.intervals.length :: m.stack } : Monitor).record i).Sound := h
    refine monitorServer_sound hpush (fun heq => ?_) m.intervals.length
    rw [show m.state = .closing from heq] at hstate
    cases hstate

theorem requestCheck_sound (h : (m.record i).Sound) (now : Int) (elapsed : Nat) :
    ((m.requestCheck now elapsed).record i).Sound := by
  unfold requestCheck
  split
  · exact h
  · rename_i hstate
    refine wake_sound h (fun heq => hstate ?_) now elapsed
    rw [heq]
    rfl

/-! ## Closing and resetting -/

/-- No `reset` or `close` runs, so no listeners of the token are being called. -/
theorem cancelling_eq_zero {stack : List MonitorFrame} (h : teardowns stack = 0) (waiter : Waiter) :
    (stack.flatMap (·.listeners)).count waiter = 0 := by
  refine List.count_eq_zero.2 fun hmem => ?_
  obtain ⟨frame, hframe, hmem⟩ := List.mem_flatMap.1 hmem
  have hnot := List.countP_eq_zero.1 h frame hframe
  cases frame <;> first | exact hnot rfl | cases hmem

theorem teardown_start_sound (h : (m.record i).Sound) (hclose : m.isInCloseState = false) (ho : m.Orderly)
    (teardown : Teardown) : ((m.stateTransition .closing fun m => m.resetMonitorState teardown).record i).Sound := by
  rw [transition_closing _ hclose]
  have hnone := cancelling_eq_zero (ho.teardowns_eq (not_closing hclose).2) (.check i)
  have hrest : ∀ v : Monitor, v.record i = m.record i → (({ v.dropPinger with
      stack := .cancelling v.dropPinger.cancellationToken teardown :: v.dropPinger.stack } : Monitor).record i).Sound := by
    intro v hv
    have hdrop : v.dropPinger.record i = m.record i := (record_dropPinger v).trans hv
    have hcancelling : (v.dropPinger.stack.flatMap (·.listeners)).count (.check i) = 0 :=
      (congrArg CheckRecord.cancelling hdrop).trans hnone
    have hwaiting : v.dropPinger.cancellationToken.count (.check i) = (m.record i).waiting :=
      congrArg CheckRecord.waiting hdrop
    have hrecord : ({ v.dropPinger with
        stack := .cancelling v.dropPinger.cancellationToken teardown :: v.dropPinger.stack } : Monitor).record i =
          { m.record i with cancelling := (m.record i).waiting } := by
      rw [← hdrop]
      unfold record
      simp [hcancelling]
    rw [hrecord]
    exact ⟨h.turns, h.fresh, h.running, h.frames, h.ended, h.pending, h.waiting, le_rfl⟩
  unfold resetMonitorState
  simp only
  split
  · exact hrest _ rfl
  · exact hrest _ rfl

theorem finishTeardown_record (h : m.state = .closing) (teardown : Teardown) (now : Int) (elapsed : Nat) :
    (m.finishTeardown teardown now elapsed).record i = m.record i := by
  have hstate : m.dropConnection.state = .closing := (congrArg Prod.fst (core_dropConnection m)).trans h
  unfold finishTeardown
  simp only
  split
  · rw [transition_idle _ (by rw [hstate]; exact fun heq => (by cases heq))]
    exact record_dropConnection m
  · refine Eq.trans ?_ (record_dropConnection m)
    unfold record emit beats
    simp [beat]

/-- A listener of the token is called: the check that it is was connecting. -/
theorem cancel_sound (h : (m.record i).Sound) {waiter : Waiter} {listeners : List Waiter} {teardown : Teardown}
    {stack : List MonitorFrame} (hstack : m.stack = .cancelling (waiter :: listeners) teardown :: stack) :
    ((({ m with stack := .cancelling listeners teardown :: stack } : Monitor).cancel waiter).record i).Sound := by
  have hcount : (m.record i).cancelling = (waiter :: (listeners ++ stack.flatMap (·.listeners))).count (.check i) := by
    unfold record
    rw [hstack]
    rfl
  have hframes : (m.record i).frames = stack.filter (·.check = some i) := by
    unfold record
    rw [hstack]
    simp
  let next : Monitor := { m with
    stack := .cancelling listeners teardown :: stack
    cancellationToken := m.cancellationToken.erase waiter }
  by_cases heq : waiter = .check i
  · subst heq
    rw [List.count_cons_self] at hcount
    have hone := h.waiting
    have hle := h.cancelling
    have hconnecting : (m.record i).stage = some .connecting := by
      by_contra hne
      rw [if_neg hne] at hone
      omega
    rw [if_pos hconnecting] at hone
    have hrecord : next.record i = { m.record i with
        cancelling := (listeners ++ stack.flatMap (·.listeners)).count (.check i)
        waiting := (m.record i).waiting - 1 } := by
      rw [show m.record i = { m.record i with frames := stack.filter (·.check = some i) } by rw [← hframes]]
      unfold record
      simp [next, List.count_erase_self]
    have hleft : (listeners ++ stack.flatMap (·.listeners)).count (.check i) ≤ (m.record i).waiting - 1 := by omega
    have hnext : (next.record i).Sound := by
      rw [hrecord]
      exact ⟨h.turns, h.fresh, h.running, h.frames, h.ended, h.pending,
        (Nat.sub_le ..).trans h.waiting, hleft⟩
    refine connectFailed_sound (m := next) hnext ?_ ?_ cancelled
    · rw [hrecord]
      exact hconnecting
    · rw [hrecord]
      show (m.record i).waiting - 1 = 0
      omega
  · rw [List.count_cons_of_ne heq] at hcount
    have hrecord : next.record i = m.record i := by
      rw [show m.record i = { m.record i with
        frames := stack.filter (·.check = some i)
        cancelling := (listeners ++ stack.flatMap (·.listeners)).count (.check i) } by rw [← hframes, ← hcount]]
      unfold record
      simp [next, List.count_erase_of_ne (Ne.symm heq)]
    have hnext : (next.record i).Sound := hrecord ▸ h
    cases waiter with
    | check j =>
      have hne : j ≠ i := fun hj => heq (by rw [hj])
      exact hnext.of_eq (record_connectFailed_other hne cancelled)
    | pinger p =>
      unfold cancel
      simp only
      split
      · exact hnext
      · exact hnext

/-! ## After the listeners -/

/-- The function of the check goes on. -/
theorem acting_pop (h : (m.record i).Sound) {frame : MonitorFrame} {stack : List MonitorFrame}
    (hstack : m.stack = frame :: stack) (hframe : frame.check = some i) (hlisteners : frame.listeners = []) :
    (({ m with stack } : Monitor).record i).Acting frame.pending := by
  have hframes : (m.record i).frames = frame :: stack.filter (·.check = some i) := by
    unfold record
    rw [hstack]
    simp [hframe]
  have hcancelling : (m.record i).cancelling = (stack.flatMap (·.listeners)).count (.check i) := by
    unfold record
    rw [hstack]
    simp [hlisteners]
  have hrunning : (m.record i).stage = some .running := by
    by_contra hne
    rw [h.frames hne] at hframes
    cases hframes
  obtain ⟨frame', hframes', hparity⟩ := h.running hrunning
  rw [hframes] at hframes'
  obtain ⟨rfl, hrest⟩ := List.cons.inj hframes'
  have hwaiting : (m.record i).waiting = 0 := by
    have hle := h.waiting
    rw [hrunning, if_neg (fun heq => by cases heq)] at hle
    exact Nat.le_zero.1 hle
  exact ⟨h.turns, hrunning, hrest, hparity, hwaiting, hcancelling.symm.trans (Nat.le_zero.1 (hwaiting ▸ h.cancelling))⟩

/-- A function goes on that is none of the check. -/
theorem record_pop {frame : MonitorFrame} {stack : List MonitorFrame} (hstack : m.stack = frame :: stack)
    (hframe : frame.check ≠ some i) (hlisteners : frame.listeners = []) :
    ({ m with stack } : Monitor).record i = m.record i := by
  unfold record
  simp [hstack, hframe, hlisteners]

theorem goOn_sound (h : (m.record i).Sound) (ho : m.Orderly) {frame : MonitorFrame} {stack : List MonitorFrame}
    (hstack : m.stack = frame :: stack) (now : Int) (elapsed : Nat) :
    ((({ m with stack } : Monitor).goOn frame now elapsed).record i).Sound := by
  have hother : frame.check ≠ some i → frame.listeners = [] → (({ m with stack } : Monitor).record i).Sound :=
    fun hframe hlisteners => record_pop hstack hframe hlisteners ▸ h
  have hne : ∀ {j : Nat}, j ≠ i → some j ≠ some i := fun hj heq => hj (Option.some.inj heq)
  cases frame with
  | assign k => exact hother (fun heq => by cases heq) rfl
  | checkServer j =>
    by_cases heq : j = i
    · subst heq
      exact checkServer_sound (acting_pop h hstack rfl rfl)
    · exact (hother (hne heq) rfl).of_eq (record_checkServer_other heq)
  | failureHandler j error =>
    by_cases heq : j = i
    · subst heq
      exact failureHandler_sound (acting_pop h hstack rfl rfl) error
    · exact (hother (hne heq) rfl).of_eq (record_failureHandler_other heq error)
  | heartbeatFailed j error =>
    by_cases heq : j = i
    · subst heq
      exact emit_sound (acting_pop h hstack rfl rfl) rfl rfl rfl rfl
    · exact (hother (hne heq) rfl).of_eq (record_emit_other heq rfl rfl rfl)
  | resetServer j error =>
    by_cases heq : j = i
    · subst heq
      exact emit_sound (acting_pop h hstack rfl rfl) rfl rfl rfl rfl
    · exact (hother (hne heq) rfl).of_eq (record_emit_other heq rfl rfl rfl)
  | resetConnectionPool j error =>
    by_cases heq : j = i
    · subst heq
      exact checked_sound (acting_pop h hstack rfl rfl) (.error error) now
    · exact (hother (hne heq) rfl).of_eq (record_checked_other heq (.error error) now)
  | done j =>
    by_cases heq : j = i
    · subst heq
      exact done_sound (acting_pop h hstack rfl rfl) now
    · exact (hother (hne heq) rfl).of_eq (record_done_other heq now)
  | connected j streams =>
    by_cases heq : j = i
    · subst heq
      exact checked_sound (acting_pop h hstack rfl rfl) (.ok streams) now
    · exact (hother (hne heq) rfl).of_eq (record_checked_other heq (.ok streams) now)
  | replied j isAwaitable streams =>
    unfold goOn
    by_cases heq : j = i
    · subst heq
      have hacting := acting_pop h hstack rfl rfl
      simp only
      split
      · exact emit_beat_sound hacting rfl rfl rfl (if_pos rfl)
      · have hdrop : ((({ m with stack } : Monitor).dropPinger).record j).Acting false := by
          rw [record_dropPinger]
          exact hacting
        exact checked_sound hdrop (.ok streams) now
    · have hpop := hother (hne heq) rfl
      simp only
      split
      · exact hpop.of_eq (record_emit_other heq rfl rfl (if_neg heq))
      · exact hpop.of_eq ((record_checked_other heq (.ok streams) now).trans (record_dropPinger _))
  | restarted j =>
    by_cases heq : j = i
    · subst heq
      exact setStage_sound (acting_pop h hstack rfl rfl) (fun heq => by cases heq) (by simp [MonitorFrame.pending])
    · exact (hother (hne heq) rfl).of_eq (record_setStage_other heq _)
  | cancelling listeners teardown =>
    cases listeners with
    | nil =>
      have hbetween := ho.between hstack rfl
      exact (hother (fun heq => by cases heq) rfl).of_eq (finishTeardown_record hbetween.state teardown now elapsed)
    | cons waiter listeners => exact cancel_sound h hstack
  | closing =>
    have hbetween := ho.between hstack rfl
    show ((Monitor.stateTransition _ _ id).record i).Sound
    rw [transition_closed id hbetween.state]
    exact hother (fun heq => by cases heq) rfl

/-! ## Runs -/

theorem step_sound {e : Event} (h : (m.record i).Sound) (ho : m.Orderly) (hstep : m.step e = some m') :
    (m'.record i).Sound := by
  have herased : ∀ waiter, m.stack = [] →
      (({ m with cancellationToken := m.cancellationToken.erase waiter } : Monitor).record i).Sound ∧
      (waiter = .check i →
        (({ m with cancellationToken := m.cancellationToken.erase waiter } : Monitor).record i).waiting = 0) := by
    intro waiter hstack
    by_cases heq : waiter = .check i
    · subst heq
      have hone : (m.record i).waiting ≤ 1 := h.waiting.trans (by split <;> omega)
      have hcount : (m.cancellationToken.erase (.check i)).count (.check i) = 0 := by
        rw [List.count_erase_self]
        have hle : m.cancellationToken.count (.check i) ≤ 1 := hone
        omega
      have hrecord : ({ m with cancellationToken := m.cancellationToken.erase (.check i) } : Monitor).record i =
          { m.record i with cancelling := 0, waiting := 0 } := by
        unfold record
        simp only [hcount, hstack]
        rfl
      rw [hrecord]
      exact ⟨⟨h.turns, h.fresh, h.running, h.frames, h.ended, h.pending, Nat.zero_le _, le_rfl⟩, fun _ => rfl⟩
    · exact ⟨h.of_eq (record_erase heq), fun heq' => absurd heq' heq⟩
  have hstage : ∀ {j : Nat} {check : Check} {stage : CheckStage}, j = i → m.checks[j]? = some check →
      check.stage = stage → (m.record i).stage = some stage := by
    rintro j check stage rfl hcheck hstage
    show m.checks[j]?.map (·.stage) = some stage
    rw [hcheck, ← hstage]
    rfl
  cases step_steps hstep with
  | connect => exact connect_sound h _ _
  | requestCheck => exact requestCheck_sound h _ _
  | reset =>
    unfold reset
    split
    · exact h
    · rename_i hopen
      simp only [Bool.or_eq_true, not_or, Bool.not_eq_true] at hopen
      exact teardown_start_sound h hopen.1 ho .reset
  | close =>
    unfold close
    split
    · exact h
    · rename_i hopen
      exact teardown_start_sound h (Bool.eq_false_iff.2 hopen) ho .close
  | describe => exact h
  | goOn hstack => exact goOn_sound h ho hstack _ _
  | @interval k handle now interval interval' hstack =>
    exact monitorServer_sound (m := { m with intervals := m.intervals.set k interval' }) h (ho.idle hstack) k
  | unwoken => exact h
  | wake hstack => exact wake_sound (m := { m with wakes := m.wakes - 1 }) h (ho.idle hstack) _ _
  | socketConnected hstack => exact (herased _ hstack).1
  | @connectFailed j error check hstack hcheck hconnecting =>
    obtain ⟨hsound, hwaiting⟩ := herased (.check j) hstack
    by_cases heq : j = i
    · subst heq
      exact connectFailed_sound hsound (hstage rfl hcheck hconnecting) (hwaiting rfl) error
    · exact hsound.of_eq (record_connectFailed_other heq error)
  | pingerFailed hstack => exact (herased _ hstack).1
  | @connected j conn streams check hstack hcheck hconnecting htoken =>
    by_cases heq : j = i
    · subst heq
      exact connectSucceeded_sound h (hstage rfl hcheck hconnecting) (List.count_eq_zero.2 htoken) conn streams
    · exact h.of_eq (record_connectSucceeded_other heq conn streams)
  | pingerConnected => exact h.of_eq (record_measureAndReschedule _ _ _ _)
  | @replied j result check isAwaitable hstack hcheck hcommanding =>
    by_cases heq : j = i
    · subst heq
      exact replied_sound h (hstage rfl hcheck hcommanding) result
    · exact h.of_eq (record_replied_other heq isAwaitable result)
  | connectionClosed => exact h
  | pingerTimer => exact h.of_eq (record_measureRoundTripTime _ _ _)
  | pinged => exact h.of_eq (record_measureAndReschedule _ _ _ _)
  | unpinged => exact h

theorem sound_init (options : MonitorOptions) (i : Nat) : ((({ options } : Monitor)).record i).Sound :=
  ⟨takeTurns_nil, fun _ => rfl, fun heq => (by cases heq), fun _ => rfl, fun heq => (by cases heq),
    fun _ heq => (by cases heq), Nat.zero_le _, le_rfl⟩

theorem sound_run {options : MonitorOptions} {es : List Event} (hrun : Run.exec step { options } es = some m) :
    m.Orderly ∧ (m.record i).Sound :=
  Run.exec_inv (P := fun m => m.Orderly ∧ (m.record i).Sound) step
    (fun _ _ _ h hs => ⟨step_orderly h.1 hs, step_sound h.2 h.1 hs⟩) ⟨orderly_init options, sound_init options i⟩ hrun

/-- In every run of a monitor, whatever its listeners call: the heartbeat events of each check are in turns a start
and an end. A check that called back has ended its last heartbeat; one that waits for its connection or for a reply,
or was dropped because the monitor closed meanwhile, has not. -/
theorem heartbeats_take_turns {options : MonitorOptions} {es : List Event}
    (hrun : Run.exec step { options } es = some m) (i : Nat) :
    (∀ (k : Nat) (b : Bool), (beats i m.trace)[k]? = some b → (b = true ↔ k % 2 = 0)) ∧
    ∀ (check : Check), m.checks[i]? = some check → check.stage ≠ .running →
      ((beats i m.trace).length % 2 = 0 ↔ check.stage = .over) := by
  obtain ⟨-, hsound⟩ := sound_run (i := i) hrun
  refine ⟨hsound.turns, fun check hcheck hrunning => ?_⟩
  have hstage : (m.record i).stage = some check.stage := by
    show m.checks[i]?.map (·.stage) = some check.stage
    rw [hcheck]
    rfl
  constructor
  · intro heven
    by_contra hover
    have hodd : (beats i m.trace).length % 2 = 1 := hsound.pending check.stage hstage hrunning hover
    omega
  · intro hover
    exact hsound.ended (hover ▸ hstage)

/-- The second check streams one reply, and then the connection fails. -/
theorem streamed_then_failed : ∃ m : Monitor, beats 1 m.trace = [true, false, true, false] ∧
    ∀ (k : Nat) (b : Bool), (beats 1 m.trace)[k]? = some b → (b = true ↔ k % 2 = 0) := by
  let topologyVersion : TopologyVersion := { processId := .replicate 1, counter := ⟨true, 1, by decide, by decide⟩ }
  have hbeats : (Run.exec step {} [.connect 0 0, .goOn 0 0, .goOn 0 0, .socketConnected (.check 0),
      .connected (.check 0) {} true, .goOn 0 0, .describe (some topologyVersion) false, .wake 20000 0, .goOn 0 0,
      .replied 1 (.ok true), .goOn 0 0, .goOn 0 0, .replied 1 (.error cancelled)]).map (fun m => beats 1 m.trace) =
      some [true, false, true, false] := rfl
  obtain ⟨m, hrun, heq⟩ := Option.map_eq_some_iff.1 hbeats
  exact ⟨m, heq, (heartbeats_take_turns hrun 1).1⟩

end Monitor

end MongoDriver.Sdam
