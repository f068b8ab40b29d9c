/-
The pingers of a monitor. While a server streams its replies, a pinger measures the round trip time on a connection of
its own. A monitor makes one only when it has none, and drops one only when it closes it, so that at most one is open.
-/
import MongoDriver.Sdam.MonitorStates

namespace MongoDriver.Sdam

namespace Monitor

variable {m m' : Monitor}

/-- A pinger that is not closed is the one of the monitor, and a closed one does nothing more. -/
structure Pinged (m : Monitor) : Prop where
  current : ∀ (p : Nat) (pinger : RTTPinger), m.pingers[p]? = some pinger → pinger.closed = false → m.rttPinger = some p
  idle : ∀ (p : Nat) (pinger : RTTPinger), m.pingers[p]? = some pinger → pinger.closed = true →
    pinger.timer = false ∧ pinger.connection = none

def pinging (m : Monitor) : Option Nat × List RTTPinger := (m.rttPinger, m.pingers)

theorem Pinged.same (h : m.Pinged) (hsame : m'.pinging = m.pinging) : m'.Pinged := by
  obtain ⟨hcurrent, hpingers⟩ : m'.rttPinger = m.rttPinger ∧ m'.pingers = m.pingers := by
    simpa [pinging] using hsame
  exact ⟨by rw [hcurrent, hpingers]; exact h.current, by rw [hpingers]; exact h.idle⟩

/-- One pinger is set to something that is closed as before. -/
theorem Pinged.set (h : m.Pinged) {p : Nat} {pinger pinger' : RTTPinger} (hp : m.pingers[p]? = some pinger)
    (hpingers : m'.pingers = m.pingers.set p pinger') (hcurrent : m'.rttPinger = m.rttPinger)
    (hclosed : pinger'.closed = pinger.closed)
    (hidle : pinger.closed = true → pinger'.timer = false ∧ pinger'.connection = none) : m'.Pinged := by
  refine ⟨fun q other hq hopen => ?_, fun q other hq hclose => ?_⟩
  all_goals
    rw [hpingers] at hq
    rcases Heap.get_set_cases hq with ⟨rfl, rfl⟩ | ⟨-, hq⟩
  · rw [hcurrent]
    exact h.current q pinger hp (hclosed ▸ hopen)
  · rw [hcurrent]
    exact h.current q other hq hopen
  · exact hidle (hclosed ▸ hclose)
  · exact h.idle q other hq hclose

theorem pinging_destroy (m : Monitor) (connection : Option Nat) : (m.destroy connection).pinging = m.pinging := by
  cases connection <;> rfl

theorem pinging_complete (m : Monitor) (i : Nat) (now : Int) : (m.complete i now).pinging = m.pinging := by
  unfold complete
  split <;> rfl

/-- Whether the transition throws or not. -/
theorem pinging_stateTransition {newState : MonitorState} {next : Monitor → Monitor}
    (h : (next { m with state := newState }).pinging = m.pinging) :
    (m.stateTransition newState next).pinging = m.pinging := by
  rcases stateTransition_cases m newState next with heq | ⟨error, heq⟩
  · rw [heq]
    exact h
  · rw [heq]
    rfl

theorem pinging_done (m : Monitor) (i : Nat) (now : Int) : (m.done i now).pinging = m.pinging := by
  unfold done
  split
  · exact pinging_complete ..
  · exact pinging_stateTransition (pinging_complete ..)

theorem pinging_checked (m : Monitor) (i : Nat) (result : Except AnyError Bool) (now : Int) :
    (m.checked i result now).pinging = m.pinging := by
  unfold checked
  split
  · split
    · rfl
    · exact pinging_done ..
  · split
    · exact pinging_done ..
    · exact pinging_done ..

theorem pinging_failureHandler (m : Monitor) (i : Nat) (error : AnyError) :
    (m.failureHandler i error).pinging = m.pinging := pinging_destroy m m.connection

theorem pinging_connectFailed (m : Monitor) (i : Nat) (error : AnyError) :
    (m.connectFailed i error).pinging = m.pinging := by
  unfold connectFailed
  simp only
  split
  · rfl
  · exact pinging_failureHandler ..

theorem pinging_connectSucceeded (m : Monitor) (i : Nat) (conn : MonitorConnection) (streams : Bool) :
    (m.connectSucceeded i conn streams).pinging = m.pinging := by
  unfold connectSucceeded
  simp only
  split <;> rfl

theorem pinging_replied (m : Monitor) (i : Nat) (isAwaitable : Bool) (result : Except AnyError Bool) :
    (m.replied i isAwaitable result).pinging = m.pinging := by
  unfold replied
  simp only
  split
  · exact pinging_failureHandler (m.setStage i .running) i _
  · rfl

theorem pinging_monitorServer (m : Monitor) (k : Nat) : (m.monitorServer k).pinging = m.pinging :=
  pinging_stateTransition rfl

theorem pinging_wake (m : Monitor) (now : Int) (elapsed : Nat) : (m.wake now elapsed).pinging = m.pinging := by
  unfold wake
  split
  · rfl
  · simp only
    split
    · exact pinging_monitorServer ..
    · rfl

theorem pinging_connect (m : Monitor) (now : Int) (elapsed : Nat) : (m.connect now elapsed).pinging = m.pinging := by
  unfold connect
  split
  · rfl
  · exact pinging_monitorServer ..

theorem pinging_requestCheck (m : Monitor) (now : Int) (elapsed : Nat) :
    (m.requestCheck now elapsed).pinging = m.pinging := by
  unfold requestCheck
  split
  · rfl
  · exact pinging_wake ..

theorem pinging_finishTeardown (m : Monitor) (teardown : Teardown) (now : Int) (elapsed : Nat) :
    (m.finishTeardown teardown now elapsed).pinging = m.pinging := by
  have hdrop : m.dropConnection.pinging = m.pinging := pinging_destroy m m.connection
  unfold finishTeardown
  simp only
  split
  · refine (pinging_stateTransition ?_).trans hdrop
    rfl
  · exact hdrop

/-- A pinger that closes is the only one that was not closed. -/
theorem Pinged.dropPinger (h : m.Pinged) : m.dropPinger.Pinged ∧ m.dropPinger.rttPinger = none := by
  unfold Monitor.dropPinger
  split
  · rename_i hnone
    exact ⟨h, hnone⟩
  · rename_i p hp
    refine ⟨?_, rfl⟩
    have hothers : ∀ q other, m.pingers[q]? = some other → other.closed = false → q = p := fun q other hq hopen =>
      (Option.some.inj ((h.current q other hq hopen).symm.trans hp))
    unfold closePinger
    split
    · rename_i hgone
      refine ⟨fun q other hq hopen => ?_, h.idle⟩
      rw [hothers q other hq hopen] at hq
      exact absurd (hq.symm.trans hgone) (by simp)
    · rename_i pinger hpinger
      refine ⟨fun q other hq hopen => ?_, fun q other hq hclosed => ?_⟩
      · rcases Heap.get_set_cases hq with ⟨rfl, rfl⟩ | ⟨hne, hq⟩
        · cases hopen
        · exact absurd (hothers q other hq hopen) hne
      · rcases Heap.get_set_cases hq with ⟨rfl, rfl⟩ | ⟨-, hq⟩
        · exact ⟨rfl, rfl⟩
        · exact h.idle q other hq hclosed

theorem Pinged.checkServer (h : m.Pinged) (i : Nat) : (m.checkServer i).Pinged := by
  unfold Monitor.checkServer
  split
  · exact h.same rfl
  · simp only
    split
    · rename_i hnew
      have hnone : m.rttPinger = none := by
        simp only [Bool.and_eq_true, Option.isNone_iff_eq_none] at hnew
        exact hnew.2
      -- all pingers so far are closed
      refine ⟨fun q other hq hopen => ?_, fun q other hq hclosed => ?_⟩
      · rcases Heap.get_alloc_cases hq with ⟨rfl, -⟩ | hq
        · rfl
        · have hcurrent := h.current q other hq hopen
          rw [hnone] at hcurrent
          cases hcurrent
      · rcases Heap.get_alloc_cases hq with ⟨-, rfl⟩ | hq
        · cases hclosed
        · exact h.idle q other hq hclosed
    · exact h.same rfl

theorem Pinged.pingFailed (h : m.Pinged) {p : Nat} {pinger : RTTPinger} (hp : m.pingers[p]? = some pinger) :
    (m.pingFailed p pinger).Pinged :=
  h.set hp rfl rfl rfl fun hclosed => ⟨(h.idle p pinger hp hclosed).1, rfl⟩

theorem Pinged.measureAndReschedule (h : m.Pinged) {p : Nat} {pinger : RTTPinger} (hp : m.pingers[p]? = some pinger)
    (conn : Option Nat) : (m.measureAndReschedule p pinger conn).Pinged := by
  unfold Monitor.measureAndReschedule
  split
  · have hdestroy := h.same (pinging_destroy m conn)
    have hpingers : (m.destroy conn).pingers = m.pingers := congrArg Prod.snd (pinging_destroy m conn)
    have hpinger : (m.destroy conn).pingers[p]? = some pinger := hpingers ▸ hp
    have hset : m.pingers.set p { pinger with stage := .idle } =
        (m.destroy conn).pingers.set p { pinger with stage := .idle } := by rw [hpingers]
    exact hdestroy.set hpinger hset rfl rfl fun hclosed => h.idle p pinger hp hclosed
  · rename_i hopen
    exact h.set hp rfl rfl rfl fun hclosed => absurd hclosed hopen

theorem Pinged.measureRoundTripTime (h : m.Pinged) {p : Nat} {pinger : RTTPinger} (hp : m.pingers[p]? = some pinger) :
    (m.measureRoundTripTime p pinger).Pinged := by
  unfold Monitor.measureRoundTripTime
  simp only
  split
  · exact h.set hp rfl rfl rfl fun hclosed => ⟨rfl, (h.idle p pinger hp hclosed).2⟩
  · rename_i hopen
    split
    · exact h.set hp rfl rfl rfl fun hclosed => absurd hclosed hopen
    · exact h.set hp rfl rfl rfl fun hclosed => absurd hclosed hopen

theorem Pinged.cancel (h : m.Pinged) (waiter : Waiter) : (m.cancel waiter).Pinged := by
  unfold Monitor.cancel
  simp only
  cases waiter with
  | check i => exact h.same (pinging_connectFailed _ i cancelled)
  | pinger p =>
    simp only
    split
    · exact h.same rfl
    · rename_i pinger hp
      have herase : ({ m with cancellationToken := m.cancellationToken.erase (.pinger p) } : Monitor).Pinged := h.same rfl
      exact herase.pingFailed hp

theorem Pinged.teardown_start (h : m.Pinged) (teardown : Teardown) :
    (m.stateTransition .closing fun m => m.resetMonitorState teardown).Pinged := by
  rcases stateTransition_cases m .closing fun m => m.resetMonitorState teardown with heq | ⟨error, heq⟩
  · rw [heq]
    unfold resetMonitorState
    simp only
    refine Pinged.same (Pinged.dropPinger ?_).1 rfl
    split
    · exact h.same rfl
    · exact h.same rfl
  · rw [heq]
    exact h.same rfl

theorem Pinged.goOn (h : m.Pinged) (frame : MonitorFrame) (now : Int) (elapsed : Nat) :
    (m.goOn frame now elapsed).Pinged := by
  cases frame with
  | assign k => exact h.same rfl
  | checkServer i => exact h.checkServer i
  | failureHandler i error => exact h.same (pinging_failureHandler ..)
  | heartbeatFailed i error => exact h.same rfl
  | resetServer i error => exact h.same rfl
  | resetConnectionPool i error => exact h.same (pinging_checked ..)
  | done i => exact h.same (pinging_done ..)
  | connected i streams => exact h.same (pinging_checked ..)
  | replied i isAwaitable streams =>
    unfold Monitor.goOn
    simp only
    split
    · exact h.same rfl
    · exact h.dropPinger.1.same (pinging_checked ..)
  | restarted i => exact h.same rfl
  | cancelling listeners teardown =>
    cases listeners with
    | nil => exact h.same (pinging_finishTeardown ..)
    | cons waiter listeners =>
      have hpush : ({ m with stack := .cancelling listeners teardown :: m.stack } : Monitor).Pinged := h.same rfl
      exact hpush.cancel waiter
  | closing => exact h.same (pinging_stateTransition rfl)

theorem step_pinged {e : Event} (h : m.Pinged) (hstep : m.step e = some m') : m'.Pinged := by
  cases step_steps hstep with
  | connect => exact h.same (pinging_connect ..)
  | requestCheck => exact h.same (pinging_requestCheck ..)
  | reset =>
    unfold reset
    split
    · exact h
    · exact h.teardown_start .reset
  | close =>
    unfold close
    split
    · exact h
    · exact h.teardown_start .close
  | describe => exact h.same rfl
  | @goOn now elapsed frame stack hstack =>
    have hpop : ({ m with stack } : Monitor).Pinged := h.same rfl
    exact hpop.goOn frame now elapsed
  | interval => exact h.same (pinging_monitorServer ..)
  | unwoken => exact h.same rfl
  | wake => exact h.same (pinging_wake ..)
  | socketConnected => exact h.same rfl
  | connectFailed => exact h.same (pinging_connectFailed ..)
  | @pingerFailed p error pinger hstack hp =>
    have herase : ({ m with cancellationToken := m.cancellationToken.erase (.pinger p) } : Monitor).Pinged := h.same rfl
    exact herase.pingFailed hp
  | connected => exact h.same (pinging_connectSucceeded ..)
  | @pingerConnected p conn streams pinger hstack hp =>
    have hnew : ({ m with connections := m.connections ++ [conn] } : Monitor).Pinged := h.same rfl
    exact hnew.measureAndReschedule hp _
  | replied => exact h.same (pinging_replied ..)
  | connectionClosed => exact h.same rfl
  | pingerTimer hstack hp => exact h.measureRoundTripTime hp
  | pinged hstack hp => exact h.measureAndReschedule hp none
  | unpinged hstack hp => exact h.pingFailed hp

/-! ## Runs -/

theorem pinged_init (options : MonitorOptions) : ({ options } : Monitor).Pinged :=
  ⟨fun p _ h => absurd h (by simp), fun p _ h => absurd h (by simp)⟩

theorem pinged_run {options : MonitorOptions} {es : List Event} (hrun : Run.exec step { options } es = some m) :
    m.Pinged := Run.exec_inv step (fun _ _ _ h hs => step_pinged h hs) (pinged_init options) hrun

/-- In every run of a monitor at most one of its pingers is not closed, the one it holds, and a closed one has no
timer and no connection. -/
theorem one_pinger_open {options : MonitorOptions} {es : List Event}
    (hrun : Run.exec step { options } es = some m) (p : Nat) (pinger : RTTPinger) (hp : m.pingers[p]? = some pinger) :
    (pinger.closed = false → m.rttPinger = some p ∧
      ∀ (q : Nat) (other : RTTPinger), m.pingers[q]? = some other → other.closed = false → q = p) ∧
    (pinger.closed = true → pinger.timer = false ∧ pinger.connection = none) := by
  have hpinged := pinged_run hrun
  refine ⟨fun hopen => ?_, hpinged.idle p pinger hp⟩
  have hcurrent := hpinged.current p pinger hp hopen
  refine ⟨hcurrent, fun q other hq hother => ?_⟩
  exact Option.some.inj ((hpinged.current q other hq hother).symm.trans hcurrent)

/-- The monitor streams, so it made a pinger. -/
theorem streaming_pinger_open : ∃ (m : Monitor) (pinger : RTTPinger), m.pingers[0]? = some pinger ∧
    m.rttPinger = some 0 ∧
    ∀ (q : Nat) (other : RTTPinger), m.pingers[q]? = some other → other.closed = false → q = 0 := by
  let topologyVersion : TopologyVersion := { processId := .replicate 1, counter := ⟨true, 1, by decide, by decide⟩ }
  have hpingers : (Run.exec step {} [.connect 0 0, .goOn 0 0, .goOn 0 0, .socketConnected (.check 0),
      .connected (.check 0) {} true, .goOn 0 0, .describe (some topologyVersion) false, .wake 20000 0,
      .goOn 0 0]).map (fun m => m.pingers[0]?) = some (some ({} : RTTPinger)) := rfl
  obtain ⟨m, hrun, hp⟩ := Option.map_eq_some_iff.1 hpingers
  exact ⟨m, {}, hp, (one_pinger_open hrun 0 {} hp).1 rfl⟩

end Monitor

end MongoDriver.Sdam
