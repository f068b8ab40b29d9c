/-
What a closed monitor leaves behind. It holds no connection and no interval, its pingers are closed and have no timer,
and no check starts until it connects again, as long as no listener closes or resets it from inside the first event
of `connect`: the interval of that `connect` is kept only afterwards, so that such a `close` does not find it.
-/
import MongoDriver.Sdam.MonitorPingers

namespace MongoDriver.Sdam

namespace Monitor

variable {m m' : Monitor}

/-! ## Intervals -/

/-- The intervals that a `connect` on the stack is about to keep. -/
def starts (stack : List MonitorFrame) : List Nat :=
  stack.filterMap fun
    | .assign k => some k
    | _ => none

/-- What decides who owns the intervals. -/
def timing (m : Monitor) : MonitorState × List Nat × Option Nat × List AsyncInterval :=
  (m.state, starts m.stack, m.monitorId, m.intervals)

/-- An interval that was not stopped is the one of the monitor, or a `connect` is about to keep it; a monitor that
closes or is closed has none. -/
structure Owned (m : Monitor) : Prop where
  armed : ∀ (k : Nat) (interval : AsyncInterval), m.intervals[k]? = some interval → interval.Armed
  owner : ∀ (k : Nat) (interval : AsyncInterval), m.intervals[k]? = some interval → interval.stopped = false →
    m.monitorId = some k ∨ k ∈ starts m.stack
  starting : starts m.stack ≠ [] → m.isInCloseState = false ∧ m.monitorId = none
  once : (starts m.stack).length ≤ 1
  closed : m.isInCloseState = true → m.monitorId = none

theorem Owned.same (h : m.Owned) (hsame : m'.timing = m.timing) : m'.Owned := by
  obtain ⟨hstate, hstack, hid, hintervals⟩ : m'.state = m.state ∧ starts m'.stack = starts m.stack ∧
      m'.monitorId = m.monitorId ∧ m'.intervals = m.intervals := by
    simpa [timing] using hsame
  have hclose : m'.isInCloseState = m.isInCloseState := by
    unfold isInCloseState
    rw [hstate]
  exact ⟨by rw [hintervals]; exact h.armed, by rw [hintervals, hid, hstack]; exact h.owner,
    by rw [hstack, hclose, hid]; exact h.starting, by rw [hstack]; exact h.once, by rw [hclose, hid]; exact h.closed⟩

/-- The state is set, not to one in which the monitor closes. -/
theorem Owned.state (h : m.Owned) {state : MonitorState}
    (hopen : ({ m with state } : Monitor).isInCloseState = false) : ({ m with state } : Monitor).Owned :=
  ⟨h.armed, h.owner, fun hstart => ⟨hopen, (h.starting hstart).2⟩, h.once,
    fun hclose => absurd hclose (Bool.eq_false_iff.1 hopen)⟩

/-- An interval goes on, and is stopped as before. -/
theorem Owned.setInterval (h : m.Owned) {k : Nat} {interval interval' : AsyncInterval}
    (hk : m.intervals[k]? = some interval) (harmed : interval'.Armed) (hstopped : interval'.stopped = interval.stopped) :
    ({ m with intervals := m.intervals.set k interval' } : Monitor).Owned := by
  refine ⟨fun j other hj => ?_, fun j other hj hrunning => ?_, h.starting, h.once, h.closed⟩
  · rcases Heap.get_set_cases hj with ⟨-, rfl⟩ | ⟨-, hj⟩
    · exact harmed
    · exact h.armed j other hj
  · rcases Heap.get_set_cases hj with ⟨rfl, rfl⟩ | ⟨-, hj⟩
    · exact h.owner j interval hk (hstopped ▸ hrunning)
    · exact h.owner j other hj hrunning

theorem timing_destroy (m : Monitor) (connection : Option Nat) : (m.destroy connection).timing = m.timing := by
  cases connection <;> rfl

theorem timing_dropPinger (m : Monitor) : m.dropPinger.timing = m.timing := by
  unfold dropPinger closePinger
  split
  · rfl
  · split
    · rfl
    · rename_i pinger _
      exact timing_destroy m pinger.connection

theorem timing_checkServer (m : Monitor) (i : Nat) : (m.checkServer i).timing = m.timing := by
  unfold checkServer
  split
  · rfl
  · simp only
    split <;> rfl

theorem timing_measureRoundTripTime (m : Monitor) (p : Nat) (pinger : RTTPinger) :
    (m.measureRoundTripTime p pinger).timing = m.timing := by
  unfold measureRoundTripTime
  simp only
  split
  · rfl
  · split <;> rfl

theorem timing_measureAndReschedule (m : Monitor) (p : Nat) (pinger : RTTPinger) (conn : Option Nat) :
    (m.measureAndReschedule p pinger conn).timing = m.timing := by
  unfold measureAndReschedule
  split
  · exact timing_destroy m conn
  · rfl

theorem timing_failureHandler (m : Monitor) (i : Nat) (error : AnyError) :
    (m.failureHandler i error).timing = m.timing := timing_destroy m m.connection

theorem timing_connectFailed (m : Monitor) (i : Nat) (error : AnyError) :
    (m.connectFailed i error).timing = m.timing := by
  unfold connectFailed
  simp only
  split
  · rfl
  · exact timing_failureHandler { m.setStage i .running with connection := none } i error

theorem timing_connectSucceeded (m : Monitor) (i : Nat) (conn : MonitorConnection) (streams : Bool) :
    (m.connectSucceeded i conn streams).timing = m.timing := by
  unfold connectSucceeded
  simp only
  split <;> rfl

theorem timing_replied (m : Monitor) (i : Nat) (isAwaitable : Bool) (result : Except AnyError Bool) :
    (m.replied i isAwaitable result).timing = m.timing := by
  unfold replied
  simp only
  split
  · exact timing_failureHandler (m.setStage i .running) i _
  · rfl

theorem timing_cancel (m : Monitor) (waiter : Waiter) : (m.cancel waiter).timing = m.timing := by
  unfold cancel
  simp only
  cases waiter with
  | check i => exact timing_connectFailed { m with cancellationToken := m.cancellationToken.erase (.check i) } i cancelled
  | pinger p =>
    simp only
    split <;> rfl

/-- The interval of a check that called back sets its timer again, unless it was stopped. -/
theorem Owned.complete (h : m.Owned) (i : Nat) (now : Int) : (m.complete i now).Owned := by
  unfold Monitor.complete
  split
  · exact h
  · rename_i check _
    simp only
    cases hk : m.intervals[check.interval]? with
    | none =>
      have hlength : m.intervals.length ≤ check.interval := List.getElem?_eq_none_iff.1 hk
      refine h.same ?_
      unfold timing setStage
      simp only
      rw [List.modify_eq_self hlength]
    | some interval =>
      have harmed : (interval.complete (m.options.interval false) now false).Armed :=
        AsyncInterval.armed_complete (h.armed _ _ hk) now false
      have hset : ({ m.setStage i .over with
          intervals := m.intervals.set check.interval
            ({ interval.complete (m.options.interval false) now false with clock := now } : AsyncInterval) } :
            Monitor).Owned := by
        have hstage : (m.setStage i .over).Owned := h.same rfl
        exact hstage.setInterval hk ⟨harmed.held, harmed.stopped⟩ (AsyncInterval.stopped_complete now false)
      rw [show (m.setStage i .over).intervals = m.intervals from rfl, Heap.modify_eq_set _ hk]
      exact hset

theorem Owned.done (h : m.Owned) (i : Nat) (now : Int) : (m.done i now).Owned := by
  unfold Monitor.done
  split
  · exact h.complete i now
  · rename_i hclose
    rw [transition_idle _ (not_closing (Bool.eq_false_iff.2 hclose)).1]
    have hidle : ({ m with state := .idle } : Monitor).Owned := h.state rfl
    exact hidle.complete i now

theorem Owned.checked (h : m.Owned) (i : Nat) (result : Except AnyError Bool) (now : Int) :
    (m.checked i result now).Owned := by
  unfold Monitor.checked
  split
  · split
    · exact h.same rfl
    · exact h.done i now
  · split
    · have hwake : ({ m with wakes := m.wakes + 1 } : Monitor).Owned := h.same rfl
      exact hwake.done i now
    · exact h.done i now

theorem Owned.monitorServer (h : m.Owned) (hstate : m.state ≠ .closing) (k : Nat) : (m.monitorServer k).Owned := by
  unfold Monitor.monitorServer
  rw [transition_monitoring _ hstate]
  have hset : ({ m with state := .monitoring } : Monitor).Owned := h.state rfl
  exact hset.same rfl

theorem Owned.wake (h : m.Owned) (hstate : m.state ≠ .closing) (now : Int) (elapsed : Nat) :
    (m.wake now elapsed).Owned := by
  unfold Monitor.wake
  split
  · exact h
  · rename_i k interval hk
    obtain ⟨k', -, hk'⟩ := Option.bind_eq_some_iff.1 hk
    obtain ⟨interval', hinterval, heq⟩ := Option.map_eq_some_iff.1 hk'
    cases heq
    simp only
    have harmed : (interval.wake (m.options.interval false) now elapsed).Armed :=
      AsyncInterval.armed_wake (h.armed _ _ hinterval) now elapsed
    have hset : ({ m with intervals := m.intervals.set k { interval.wake (m.options.interval false) now elapsed with
        clock := now + elapsed } } : Monitor).Owned :=
      h.setInterval hinterval ⟨harmed.held, harmed.stopped⟩ (AsyncInterval.stopped_wake now elapsed)
    split
    · exact hset.monitorServer hstate k
    · exact hset

/-- A new interval that is the one of the monitor. -/
theorem Owned.alloc (h : m.Owned) (hid : m.monitorId = none) (hstart : starts m.stack = []) {interval : AsyncInterval}
    (harmed : interval.Armed) (hopen : m.isInCloseState = false) :
    ({ m with intervals := m.intervals ++ [interval], monitorId := some m.intervals.length } : Monitor).Owned := by
  refine ⟨fun k other hk => ?_, fun k other hk hrunning => .inl ?_, fun hne => absurd hstart hne, h.once,
    fun hclose => absurd hclose (Bool.eq_false_iff.1 hopen)⟩
  · rcases Heap.get_alloc_cases hk with ⟨-, rfl⟩ | hk
    · exact harmed
    · exact h.armed k other hk
  · rcases Heap.get_alloc_cases hk with ⟨rfl, -⟩ | hk
    · rfl
    · rcases h.owner k other hk hrunning with howner | howner
      · rw [hid] at howner
        cases howner
      · rw [hstart] at howner
        cases howner

/-- A `connect` starts when the monitor is closed. -/
theorem Owned.connect (h : m.Owned) (now : Int) (elapsed : Nat) : (m.connect now elapsed).Owned := by
  unfold Monitor.connect
  split
  · exact h
  · rename_i hclosed
    have hstate : m.state = .closed := not_not.1 hclosed
    have hclose : m.isInCloseState = true := by
      unfold isInCloseState
      rw [hstate]
      rfl
    have hid := h.closed hclose
    have hstart : starts m.stack = [] := by
      by_contra hne
      rw [(h.starting hne).1] at hclose
      cases hclose
    simp only
    unfold Monitor.monitorServer
    rw [transition_monitoring _ (by rw [hstate]; exact fun heq => (by cases heq))]
    have hnew : starts (.checkServer m.checks.length :: .assign m.intervals.length :: m.stack) = [m.intervals.length] := by
      show m.intervals.length :: starts m.stack = _
      rw [hstart]
    refine ⟨fun k other hk => ?_, fun k other hk hrunning => .inr ?_, fun _ => ⟨rfl, hid⟩, ?_, fun heq => (by cases heq)⟩
    · rcases Heap.get_alloc_cases hk with ⟨-, rfl⟩ | hk
      · exact AsyncInterval.armed_start now elapsed
      · exact h.armed k other hk
    · show k ∈ starts (.checkServer m.checks.length :: .assign m.intervals.length :: m.stack)
      rw [hnew]
      rcases Heap.get_alloc_cases hk with ⟨rfl, -⟩ | hk
      · exact List.mem_singleton_self _
      · rcases h.owner k other hk hrunning with howner | howner
        · rw [hid] at howner
          cases howner
        · rw [hstart] at howner
          cases howner
    · show (starts (.checkServer m.checks.length :: .assign m.intervals.length :: m.stack)).length ≤ 1
      rw [hnew]
      exact le_rfl

theorem Owned.requestCheck (h : m.Owned) (now : Int) (elapsed : Nat) : (m.requestCheck now elapsed).Owned := by
  unfold Monitor.requestCheck
  split
  · exact h
  · rename_i hstate
    refine h.wake (fun heq => hstate ?_) now elapsed
    rw [heq]
    rfl

/-- `reset` or `close` stops the interval of the monitor. -/
theorem Owned.teardown_start (h : m.Owned) (hclose : m.isInCloseState = false) (hstart : starts m.stack = [])
    (teardown : Teardown) : (m.stateTransition .closing fun m => m.resetMonitorState teardown).Owned := by
  rw [transition_closing _ hclose]
  have hstop : ∀ v : Monitor, v.state = .closing → v.monitorId = none → starts v.stack = [] →
      (∀ (k : Nat) (interval : AsyncInterval), v.intervals[k]? = some interval →
        interval.Armed ∧ interval.stopped = true) → v.Owned := fun v hstate hid hstarts hintervals =>
    ⟨fun k interval hk => (hintervals k interval hk).1,
      fun k interval hk hrunning => absurd (hintervals k interval hk).2 (by rw [hrunning]; exact Bool.false_ne_true),
      fun hne => absurd hstarts hne, by rw [hstarts]; exact Nat.zero_le 1, fun _ => hid⟩
  have hrest : ∀ v : Monitor, v.Owned → ({ v.dropPinger with
      stack := .cancelling v.dropPinger.cancellationToken teardown :: v.dropPinger.stack } : Monitor).Owned :=
    fun v hv => (hv.same (timing_dropPinger v)).same rfl
  unfold resetMonitorState
  simp only
  refine hrest _ ?_
  split
  · rename_i hid
    refine hstop _ rfl hid hstart fun k interval hk => ⟨h.armed k interval hk, ?_⟩
    by_contra hrunning
    rcases h.owner k interval hk (by simpa using hrunning) with howner | howner
    · exact absurd (hid.symm.trans howner) (by simp)
    · rw [hstart] at howner
      cases howner
  · rename_i k hid
    refine hstop _ rfl rfl hstart fun j interval hj => ?_
    rw [List.getElem?_modify] at hj
    obtain ⟨interval', hj', heq⟩ := Option.map_eq_some_iff.1 hj
    split at heq
    · subst heq
      have harmed := h.armed j interval' hj'
      exact ⟨⟨Timers.held_of_armed_eq_nil harmed.held.armed_clear, fun _ => harmed.held.armed_clear⟩, rfl⟩
    · rename_i hne
      subst heq
      refine ⟨h.armed j interval' hj', ?_⟩
      by_contra hrunning
      rcases h.owner j interval' hj' (by simpa using hrunning) with howner | howner
      · exact hne (Option.some.inj ((show m.monitorId = some k from hid).symm.trans howner))
      · rw [hstart] at howner
        cases howner

theorem Owned.goOn (h : m.Owned) (ho : m.Orderly) {frame : MonitorFrame} {stack : List MonitorFrame}
    (hstack : m.stack = frame :: stack) (now : Int) (elapsed : Nat) :
    (({ m with stack } : Monitor).goOn frame now elapsed).Owned := by
  have hpop : starts (frame :: stack) = starts stack → ({ m with stack } : Monitor).Owned := fun hstarts =>
    h.same (by unfold timing; rw [hstack, hstarts])
  cases frame with
  | assign k =>
    obtain ⟨hopen, hid⟩ := h.starting (by rw [hstack]; exact List.cons_ne_nil _ _)
    have hlast : starts stack = [] := by
      have honce := h.once
      rw [hstack] at honce
      exact List.length_eq_zero_iff.1 (Nat.le_zero.1 (Nat.le_of_succ_le_succ honce))
    refine ⟨h.armed, fun j interval hj hrunning => .inl ?_, fun hne => absurd hlast hne, ?_,
      fun hclose => absurd hclose (Bool.eq_false_iff.1 hopen)⟩
    · rcases h.owner j interval hj hrunning with howner | howner
      · rw [hid] at howner
        cases howner
      · rw [hstack] at howner
        rcases List.mem_cons.1 (show j ∈ k :: starts stack from howner) with rfl | howner
        · rfl
        · rw [hlast] at howner
          cases howner
    · show (starts stack).length ≤ 1
      rw [hlast]
      exact Nat.zero_le 1
  | checkServer i => exact (hpop rfl).same (timing_checkServer ..)
  | failureHandler i error => exact (hpop rfl).same (timing_failureHandler ..)
  | heartbeatFailed i error => exact (hpop rfl).same rfl
  | resetServer i error => exact (hpop rfl).same rfl
  | resetConnectionPool i error => exact (hpop rfl).checked i (.error error) now
  | done i => exact (hpop rfl).done i now
  | connected i streams => exact (hpop rfl).checked i (.ok streams) now
  | replied i isAwaitable streams =>
    unfold Monitor.goOn
    simp only
    split
    · exact (hpop rfl).same rfl
    · exact Owned.checked ((hpop rfl).same (timing_dropPinger _)) i (.ok streams) now
  | restarted i => exact (hpop rfl).same rfl
  | cancelling listeners teardown =>
    cases listeners with
    | nil =>
      have hbetween := ho.between hstack rfl
      have hstate : m.state = .closing := hbetween.state
      have hclose : m.isInCloseState = true := by
        unfold isInCloseState
        rw [hstate]
        rfl
      have hstart : starts stack = [] := by
        by_contra hne
        exact absurd hclose (Bool.eq_false_iff.1 ((hpop rfl).starting hne).1)
      have hdrop : ({ m with stack } : Monitor).dropConnection.Owned := (hpop rfl).same (timing_destroy _ _)
      obtain ⟨hstate', hstack', hid'⟩ : ({ m with stack } : Monitor).dropConnection.state = .closing ∧
          starts ({ m with stack } : Monitor).dropConnection.stack = [] ∧
          ({ m with stack } : Monitor).dropConnection.monitorId = none := by
        have htiming := timing_destroy ({ m with stack } : Monitor) m.connection
        exact ⟨(congrArg Prod.fst htiming).trans hstate, (congrArg (·.2.1) htiming).trans hstart,
          (congrArg (·.2.2.1) htiming).trans (h.closed hclose)⟩
      unfold Monitor.goOn finishTeardown
      simp only
      split
      · rw [transition_idle _ (by rw [hstate']; exact fun heq => (by cases heq))]
        have hidle : ({ ({ m with stack } : Monitor).dropConnection with state := .idle } : Monitor).Owned :=
          hdrop.state rfl
        exact hidle.alloc hid' hstack' (AsyncInterval.armed_start now elapsed) rfl
      · exact hdrop.same rfl
    | cons waiter listeners =>
      have hpush : ({ m with stack := .cancelling listeners teardown :: stack } : Monitor).Owned := (hpop rfl).same rfl
      exact hpush.same (timing_cancel ..)
  | closing =>
    have hbetween := ho.between hstack rfl
    have hclose : m.isInCloseState = true := by
      unfold isInCloseState
      rw [show m.state = .closing from hbetween.state]
      rfl
    have hstart : starts stack = [] := by
      by_contra hne
      exact absurd hclose (Bool.eq_false_iff.1 ((hpop rfl).starting hne).1)
    show (Monitor.stateTransition _ _ id).Owned
    rw [transition_closed id hbetween.state]
    refine ⟨h.armed, fun k interval hk hrunning => ?_, fun hne => absurd hstart hne, ?_, fun _ => h.closed hclose⟩
    · exact (hpop rfl).owner k interval hk hrunning
    · exact (hpop rfl).once

/-- No listener of the first event of `connect` closes or resets the monitor. -/
def Undisturbed (m : Monitor) (e : Event) : Prop := e = .close ∨ e = .reset → starts m.stack = []

theorem step_owned {e : Event} (h : m.Owned) (ho : m.Orderly) (hc : m.Undisturbed e) (hstep : m.step e = some m') :
    m'.Owned := by
  cases step_steps hstep with
  | connect => exact h.connect _ _
  | requestCheck => exact h.requestCheck _ _
  | reset =>
    unfold reset
    split
    · exact h
    · rename_i hopen
      simp only [Bool.or_eq_true, not_or, Bool.not_eq_true] at hopen
      exact h.teardown_start hopen.1 (hc (.inr rfl)) .reset
  | close =>
    unfold close
    split
    · exact h
    · rename_i hopen
      exact h.teardown_start (Bool.eq_false_iff.2 hopen) (hc (.inl rfl)) .close
  | describe => exact h.same rfl
  | goOn hstack => exact h.goOn ho hstack _ _
  | @interval k handle now interval interval' hstack hinterval hfires =>
    have harmed := AsyncInterval.armed_step (h.armed k interval hinterval) hfires
    have hstopped : interval'.stopped = interval.stopped := by
      obtain ⟨timers, -, rfl⟩ := Option.map_eq_some_iff.1 hfires
      rfl
    exact (h.setInterval hinterval harmed hstopped).monitorServer (ho.idle hstack) k
  | unwoken => exact h.same rfl
  | wake hstack =>
    have hset : ({ m with wakes := m.wakes - 1 } : Monitor).Owned := h.same rfl
    exact hset.wake (ho.idle hstack) _ _
  | socketConnected => exact h.same rfl
  | connectFailed => exact h.same (timing_connectFailed ..)
  | pingerFailed => exact h.same rfl
  | connected => exact h.same (timing_connectSucceeded ..)
  | pingerConnected => exact h.same (timing_measureAndReschedule ..)
  | replied => exact h.same (timing_replied ..)
  | connectionClosed => exact h.same rfl
  | pingerTimer => exact h.same (timing_measureRoundTripTime ..)
  | pinged => exact h.same (timing_measureAndReschedule ..)
  | unpinged => exact h.same rfl

/-! ## What the monitor holds -/

/-- The monitor `m'` holds no connection and no pinger that `m` did not hold, and closes no more than `m` did. -/
structure Releases (m m' : Monitor) : Prop where
  state : m'.state = m.state ∨ m'.isInCloseState = false
  closing : MonitorFrame.closing ∈ m'.stack → MonitorFrame.closing ∈ m.stack
  connection : m.connection = none → m'.connection = none
  rttPinger : m.rttPinger = none → m'.rttPinger = none

/-- A monitor that is closed, or has emitted that it closes, holds no connection; and from the moment it closes it
holds no pinger. -/
structure Released (m : Monitor) : Prop where
  closed : m.state = .closed → m.connection = none
  emitted : MonitorFrame.closing ∈ m.stack → m.connection = none
  rttPinger : m.isInCloseState = true → m.rttPinger = none

theorem Releases.refl (m : Monitor) : m.Releases m := ⟨.inl rfl, id, id, id⟩

theorem Releases.trans {m₁ m₂ m₃ : Monitor} (h : m₁.Releases m₂) (h' : m₂.Releases m₃) : m₁.Releases m₃ := by
  refine ⟨?_, h.closing ∘ h'.closing, h'.connection ∘ h.connection, h'.rttPinger ∘ h.rttPinger⟩
  rcases h'.state with hstate' | hopen
  · rcases h.state with hstate | hopen
    · exact .inl (hstate'.trans hstate)
    · refine .inr ?_
      unfold isInCloseState at hopen ⊢
      rw [hstate', hopen]
  · exact .inr hopen

theorem Released.follow (h : m.Released) (hr : m.Releases m') : m'.Released := by
  refine ⟨fun hstate => ?_, fun hframe => hr.connection (h.emitted (hr.closing hframe)), fun hclose => ?_⟩
  · rcases hr.state with hsame | hopen
    · exact hr.connection (h.closed (hsame ▸ hstate))
    · exact absurd hstate (not_closing hopen).1
  · rcases hr.state with hsame | hopen
    · refine hr.rttPinger (h.rttPinger ?_)
      unfold isInCloseState at hclose ⊢
      rw [← hsame, hclose]
    · exact absurd hclose (Bool.eq_false_iff.1 hopen)

theorem Releases.emit (h : m.Releases m') (effect : MonitorEffect) {frame : MonitorFrame} (hframe : frame ≠ .closing) :
    m.Releases (m'.emit effect frame) := by
  refine ⟨h.state, fun hmem => h.closing ?_, h.connection, h.rttPinger⟩
  rcases List.mem_cons.1 hmem with heq | hmem
  · exact absurd heq.symm hframe
  · exact hmem

theorem releases_destroy (m : Monitor) (connection : Option Nat) : m.Releases (m.destroy connection) := by
  cases connection <;> exact ⟨.inl rfl, id, id, id⟩

theorem releases_dropConnection (m : Monitor) : m.Releases m.dropConnection :=
  (releases_destroy m m.connection).trans ⟨.inl rfl, id, fun _ => rfl, id⟩

theorem rttPinger_dropPinger (m : Monitor) : m.dropPinger.rttPinger = none := by
  unfold dropPinger
  split
  · assumption
  · rfl

theorem releases_dropPinger (m : Monitor) : m.Releases m.dropPinger := by
  have hrest : ∀ p, m.Releases (m.closePinger p) := fun p => by
    unfold closePinger
    split
    · exact .refl m
    · exact (releases_destroy m _).trans ⟨.inl rfl, id, id, id⟩
  unfold dropPinger
  split
  · exact .refl m
  · exact (hrest _).trans ⟨.inl rfl, id, id, fun _ => rfl⟩

/-- A transition to a state that does not close, or an error. -/
theorem releases_stateTransition {newState : MonitorState} {next : Monitor → Monitor}
    (hopen : ({ m with state := newState } : Monitor).isInCloseState = false)
    (h : ({ m with state := newState } : Monitor).Releases (next { m with state := newState })) :
    m.Releases (m.stateTransition newState next) := by
  rcases stateTransition_cases m newState next with heq | ⟨error, heq⟩
  · rw [heq]
    have hset : m.Releases { m with state := newState } := ⟨.inr hopen, id, id, id⟩
    exact hset.trans h
  · rw [heq]
    exact ⟨.inl rfl, fun hmem => (by cases hmem), id, id⟩

theorem releases_complete (m : Monitor) (i : Nat) (now : Int) : m.Releases (m.complete i now) := by
  unfold complete
  split
  · exact .refl m
  · exact ⟨.inl rfl, id, id, id⟩

theorem releases_done (m : Monitor) (i : Nat) (now : Int) : m.Releases (m.done i now) := by
  unfold done
  split
  · exact releases_complete ..
  · exact releases_stateTransition rfl (releases_complete ..)

theorem releases_checked (m : Monitor) (i : Nat) (result : Except AnyError Bool) (now : Int) :
    m.Releases (m.checked i result now) := by
  unfold checked
  split
  · split
    · exact (Releases.refl m).emit _ fun heq => by cases heq
    · exact releases_done ..
  · split
    · have hwake : m.Releases { m with wakes := m.wakes + 1 } := ⟨.inl rfl, id, id, id⟩
      exact hwake.trans (releases_done ..)
    · exact releases_done ..

theorem releases_failureHandler (m : Monitor) (i : Nat) (error : AnyError) : m.Releases (m.failureHandler i error) :=
  (releases_dropConnection m).emit _ fun heq => by cases heq

theorem releases_connectFailed (m : Monitor) (i : Nat) (error : AnyError) : m.Releases (m.connectFailed i error) := by
  have hdrop : m.Releases { m.setStage i .running with connection := none } := ⟨.inl rfl, id, fun _ => rfl, id⟩
  unfold connectFailed
  simp only
  split
  · exact hdrop.emit _ fun heq => by cases heq
  · exact hdrop.trans (releases_failureHandler ..)

theorem releases_replied (m : Monitor) (i : Nat) (isAwaitable : Bool) (result : Except AnyError Bool) :
    m.Releases (m.replied i isAwaitable result) := by
  have hrunning : m.Releases (m.setStage i .running) := ⟨.inl rfl, id, id, id⟩
  unfold replied
  simp only
  split
  · exact hrunning.trans (releases_failureHandler ..)
  · exact hrunning.emit _ fun heq => by cases heq

theorem releases_monitorServer (m : Monitor) (k : Nat) : m.Releases (m.monitorServer k) := by
  unfold monitorServer
  refine releases_stateTransition rfl (Releases.emit ?_ _ fun heq => by cases heq)
  exact ⟨.inl rfl, id, id, id⟩

theorem releases_wake (m : Monitor) (now : Int) (elapsed : Nat) : m.Releases (m.wake now elapsed) := by
  unfold wake
  split
  · exact .refl m
  · rename_i k interval _
    simp only
    have hset : m.Releases { m with
        intervals := m.intervals.set k
          ({ interval.wake (m.options.interval false) now elapsed with clock := now + elapsed } : AsyncInterval) } :=
      ⟨.inl rfl, id, id, id⟩
    split
    · exact hset.trans (releases_monitorServer ..)
    · exact hset

theorem releases_connect (m : Monitor) (now : Int) (elapsed : Nat) : m.Releases (m.connect now elapsed) := by
  unfold connect
  split
  · exact .refl m
  · have hpush : m.Releases { m with
        intervals := m.intervals ++ [AsyncInterval.start (m.options.interval true) now elapsed]
        stack := .assign m.intervals.length :: m.stack } := by
      refine ⟨.inl rfl, fun hmem => ?_, id, id⟩
      rcases List.mem_cons.1 hmem with heq | hmem
      · cases heq
      · exact hmem
    exact hpush.trans (releases_monitorServer ..)

theorem releases_requestCheck (m : Monitor) (now : Int) (elapsed : Nat) : m.Releases (m.requestCheck now elapsed) := by
  unfold requestCheck
  split
  · exact .refl m
  · exact releases_wake ..

theorem releases_measureRoundTripTime (m : Monitor) (p : Nat) (pinger : RTTPinger) :
    m.Releases (m.measureRoundTripTime p pinger) := by
  unfold measureRoundTripTime
  simp only
  split
  · exact ⟨.inl rfl, id, id, id⟩
  · split <;> exact ⟨.inl rfl, id, id, id⟩

theorem releases_measureAndReschedule (m : Monitor) (p : Nat) (pinger : RTTPinger) (conn : Option Nat) :
    m.Releases (m.measureAndReschedule p pinger conn) := by
  unfold measureAndReschedule
  split
  · exact (releases_destroy m conn).trans ⟨.inl rfl, id, id, id⟩
  · exact ⟨.inl rfl, id, id, id⟩

theorem releases_cancel (m : Monitor) (waiter : Waiter) : m.Releases (m.cancel waiter) := by
  have herase : m.Releases { m with cancellationToken := m.cancellationToken.erase waiter } := ⟨.inl rfl, id, id, id⟩
  unfold cancel
  simp only
  cases waiter with
  | check i => exact herase.trans (releases_connectFailed ..)
  | pinger p =>
    simp only
    split
    · exact herase
    · exact ⟨.inl rfl, id, id, id⟩

/-- A pinger is made for a connection that the monitor holds, which a closed one does not. -/
theorem Released.checkServer (h : m.Released) (hstate : m.state ≠ .closing) (i : Nat) : (m.checkServer i).Released := by
  unfold Monitor.checkServer
  split
  · exact h.follow ⟨.inl rfl, id, id, id⟩
  · rename_i c conn hc
    have hholds : m.connection ≠ none := by
      obtain ⟨c', hc', -⟩ := Option.bind_eq_some_iff.1 hc
      rw [hc']
      exact Option.some_ne_none c'
    have hopen : m.isInCloseState = false := by
      unfold isInCloseState
      simpa using ⟨fun hclosed => hholds (h.closed hclosed), hstate⟩
    simp only
    split
    · exact ⟨h.closed, h.emitted, fun hclose => absurd hclose (Bool.eq_false_iff.1 hopen)⟩
    · exact h.follow ⟨.inl rfl, id, id, id⟩

theorem Released.connectSucceeded (h : m.Released) (hstack : m.stack = []) (i : Nat) (conn : MonitorConnection)
    (streams : Bool) : (m.connectSucceeded i conn streams).Released := by
  unfold Monitor.connectSucceeded
  simp only
  split
  · exact h.follow ⟨.inl rfl, id, id, id⟩
  · rename_i hclose
    have hopen : m.isInCloseState = false := Bool.eq_false_iff.2 hclose
    refine ⟨fun hstate => absurd hstate (not_closing hopen).1, fun hmem => ?_,
      fun hclosed => absurd hclosed (Bool.eq_false_iff.1 hopen)⟩
    rcases List.mem_cons.1 hmem with heq | hmem
    · cases heq
    · rw [show _ = m.stack from rfl, hstack] at hmem
      cases hmem

/-- `reset` and `close` close the pinger before they call the listeners of the token. -/
theorem Released.teardown_start (h : m.Released) (hclose : m.isInCloseState = false) (teardown : Teardown) :
    (m.stateTransition .closing fun m => m.resetMonitorState teardown).Released := by
  rw [transition_closing _ hclose]
  have hrest : ∀ v : Monitor, v.state = .closing → v.stack = m.stack → v.connection = m.connection →
      ({ v.dropPinger with
        stack := .cancelling v.dropPinger.cancellationToken teardown :: v.dropPinger.stack } : Monitor).Released := by
    intro v hstate hstack hconnection
    have hdrop := releases_dropPinger v
    have hcore := core_dropPinger v
    refine ⟨fun hclosed => ?_, fun hmem => hdrop.connection ?_, fun _ => rttPinger_dropPinger v⟩
    · have hsame : v.dropPinger.state = v.state := congrArg Prod.fst hcore
      rw [show v.dropPinger.state = .closed from hclosed, hstate] at hsame
      cases hsame
    · rw [hconnection]
      refine h.emitted ?_
      rcases List.mem_cons.1 hmem with heq | hmem
      · cases heq
      · exact hstack ▸ hdrop.closing hmem
  unfold resetMonitorState
  simp only
  split
  · exact hrest _ rfl rfl rfl
  · exact hrest _ rfl rfl rfl

theorem Released.goOn (h : m.Released) (ho : m.Orderly) {frame : MonitorFrame} {stack : List MonitorFrame}
    (hstack : m.stack = frame :: stack) (now : Int) (elapsed : Nat) :
    (({ m with stack } : Monitor).goOn frame now elapsed).Released := by
  have hpop : m.Releases { m with stack } :=
    ⟨.inl rfl, fun hmem => (by rw [hstack]; exact List.mem_cons_of_mem _ hmem), id, id⟩
  cases frame with
  | assign k => exact h.follow (hpop.trans ⟨.inl rfl, id, id, id⟩)
  | checkServer i => exact (h.follow hpop).checkServer (ho.not_closing_of_top hstack rfl rfl) i
  | failureHandler i error => exact h.follow (hpop.trans (releases_failureHandler ..))
  | heartbeatFailed i error => exact h.follow (hpop.emit _ fun heq => (by cases heq))
  | resetServer i error => exact h.follow (hpop.emit _ fun heq => (by cases heq))
  | resetConnectionPool i error => exact h.follow (hpop.trans (releases_checked _ i (.error error) now))
  | done i => exact h.follow (hpop.trans (releases_done ..))
  | connected i streams => exact h.follow (hpop.trans (releases_checked _ i (.ok streams) now))
  | replied i isAwaitable streams =>
    unfold Monitor.goOn
    simp only
    split
    · exact h.follow (hpop.emit _ fun heq => (by cases heq))
    · exact h.follow ((hpop.trans (releases_dropPinger _)).trans (releases_checked ..))
  | restarted i => exact h.follow (hpop.trans ⟨.inl rfl, id, id, id⟩)
  | cancelling listeners teardown =>
    have hbetween := ho.between hstack rfl
    cases listeners with
    | nil =>
      have hdrop := hpop.trans (releases_dropConnection _)
      cases teardown with
      | reset =>
        refine h.follow (hdrop.trans ?_)
        unfold Monitor.goOn finishTeardown
        exact releases_stateTransition rfl ⟨.inl rfl, id, id, id⟩
      | close =>
        have hclosing : m.isInCloseState = true := by
          unfold isInCloseState
          rw [show m.state = .closing from hbetween.state]
          rfl
        refine ⟨fun hclosed => ?_, fun _ => rfl, fun _ => hdrop.rttPinger (h.rttPinger hclosing)⟩
        have hstate : ({ m with stack } : Monitor).dropConnection.state = .closing :=
          (hbetween.same (core_dropConnection _)).state
        rw [show ({ m with stack } : Monitor).dropConnection.state = .closed from hclosed] at hstate
        cases hstate
    | cons waiter listeners =>
      have hpush : m.Releases { m with stack := .cancelling listeners teardown :: stack } := by
        refine ⟨.inl rfl, fun hmem => ?_, id, id⟩
        rcases List.mem_cons.1 hmem with heq | hmem
        · cases heq
        · exact hpop.closing hmem
      exact h.follow (hpush.trans (releases_cancel ..))
  | closing =>
    have hbetween := ho.between hstack rfl
    have hclosing : m.isInCloseState = true := by
      unfold isInCloseState
      rw [show m.state = .closing from hbetween.state]
      rfl
    show (Monitor.stateTransition _ _ id).Released
    rw [transition_closed id hbetween.state]
    have hconnection : m.connection = none := h.emitted (by rw [hstack]; exact List.mem_cons_self ..)
    exact ⟨fun _ => hconnection, fun _ => hconnection, fun _ => h.rttPinger hclosing⟩

theorem step_released {e : Event} (h : m.Released) (ho : m.Orderly) (hstep : m.step e = some m') : m'.Released := by
  cases step_steps hstep with
  | connect => exact h.follow (releases_connect ..)
  | requestCheck => exact h.follow (releases_requestCheck ..)
  | reset =>
    unfold reset
    split
    · exact h
    · rename_i hopen
      simp only [Bool.or_eq_true, not_or, Bool.not_eq_true] at hopen
      exact h.teardown_start hopen.1 .reset
  | close =>
    unfold close
    split
    · exact h
    · rename_i hopen
      exact h.teardown_start (Bool.eq_false_iff.2 hopen) .close
  | describe => exact h.follow ⟨.inl rfl, id, id, id⟩
  | goOn hstack => exact h.goOn ho hstack _ _
  | @interval k handle now interval interval' =>
    have hset : m.Releases { m with intervals := m.intervals.set k interval' } := ⟨.inl rfl, id, id, id⟩
    exact h.follow (hset.trans (releases_monitorServer ..))
  | unwoken => exact h.follow ⟨.inl rfl, id, id, id⟩
  | wake =>
    have hset : m.Releases { m with wakes := m.wakes - 1 } := ⟨.inl rfl, id, id, id⟩
    exact h.follow (hset.trans (releases_wake ..))
  | socketConnected => exact h.follow ⟨.inl rfl, id, id, id⟩
  | @connectFailed i =>
    have herase : m.Releases { m with cancellationToken := m.cancellationToken.erase (.check i) } :=
      ⟨.inl rfl, id, id, id⟩
    exact h.follow (herase.trans (releases_connectFailed ..))
  | pingerFailed => exact h.follow ⟨.inl rfl, id, id, id⟩
  | connected hstack => exact h.connectSucceeded hstack ..
  | @pingerConnected p conn =>
    have hnew : m.Releases { m with connections := m.connections ++ [conn] } := ⟨.inl rfl, id, id, id⟩
    exact h.follow (hnew.trans (releases_measureAndReschedule ..))
  | replied => exact h.follow (releases_replied ..)
  | connectionClosed => exact h.follow ⟨.inl rfl, id, id, id⟩
  | pingerTimer => exact h.follow (releases_measureRoundTripTime ..)
  | pinged => exact h.follow (releases_measureAndReschedule ..)
  | unpinged => exact h.follow ⟨.inl rfl, id, id, id⟩

/-! ## Checks -/

/-- A transition makes no check but what follows it may. -/
theorem checks_stateTransition {newState : MonitorState} {next : Monitor → Monitor}
    (h : (next { m with state := newState }).checks.length = m.checks.length) :
    (m.stateTransition newState next).checks.length = m.checks.length := by
  rcases stateTransition_cases m newState next with heq | ⟨error, heq⟩
  · rw [heq, h]
  · rw [heq]

theorem checks_setStage (m : Monitor) (i : Nat) (stage : CheckStage) :
    (m.setStage i stage).checks.length = m.checks.length := List.length_modify ..

theorem checks_destroy (m : Monitor) (connection : Option Nat) : (m.destroy connection).checks = m.checks := by
  cases connection <;> rfl

theorem checks_dropPinger (m : Monitor) : m.dropPinger.checks = m.checks := by
  unfold dropPinger closePinger
  split
  · rfl
  · split
    · rfl
    · exact checks_destroy m _

theorem checks_complete (m : Monitor) (i : Nat) (now : Int) : (m.complete i now).checks.length = m.checks.length := by
  unfold complete
  split
  · rfl
  · exact checks_setStage m i .over

theorem checks_done (m : Monitor) (i : Nat) (now : Int) : (m.done i now).checks.length = m.checks.length := by
  unfold done
  split
  · exact checks_complete ..
  · exact checks_stateTransition (checks_complete ..)

theorem checks_checked (m : Monitor) (i : Nat) (result : Except AnyError Bool) (now : Int) :
    (m.checked i result now).checks.length = m.checks.length := by
  unfold checked
  split
  · split
    · rfl
    · exact checks_done ..
  · split
    · exact checks_done ..
    · exact checks_done ..

theorem checks_failureHandler (m : Monitor) (i : Nat) (error : AnyError) :
    (m.failureHandler i error).checks = m.checks := checks_destroy m m.connection

theorem checks_connectFailed (m : Monitor) (i : Nat) (error : AnyError) :
    (m.connectFailed i error).checks.length = m.checks.length := by
  have hstage := checks_setStage m i .running
  unfold connectFailed
  simp only
  split
  · exact hstage
  · rw [checks_failureHandler]
    exact hstage

theorem checks_connectSucceeded (m : Monitor) (i : Nat) (conn : MonitorConnection) (streams : Bool) :
    (m.connectSucceeded i conn streams).checks.length = m.checks.length := by
  unfold connectSucceeded
  simp only
  split
  · exact List.length_modify ..
  · exact List.length_modify ..

theorem checks_replied (m : Monitor) (i : Nat) (isAwaitable : Bool) (result : Except AnyError Bool) :
    (m.replied i isAwaitable result).checks.length = m.checks.length := by
  have hstage := checks_setStage m i .running
  unfold replied
  simp only
  split
  · rw [checks_failureHandler]
    exact hstage
  · exact hstage

theorem checks_checkServer (m : Monitor) (i : Nat) : (m.checkServer i).checks.length = m.checks.length := by
  unfold checkServer
  split
  · exact List.length_modify ..
  · simp only
    split
    · exact List.length_modify ..
    · exact List.length_modify ..

theorem checks_cancel (m : Monitor) (waiter : Waiter) : (m.cancel waiter).checks.length = m.checks.length := by
  unfold cancel
  simp only
  cases waiter with
  | check i =>
    exact checks_connectFailed { m with cancellationToken := m.cancellationToken.erase (.check i) } i cancelled
  | pinger p =>
    simp only
    split <;> rfl

theorem checks_finishTeardown (m : Monitor) (teardown : Teardown) (now : Int) (elapsed : Nat) :
    (m.finishTeardown teardown now elapsed).checks.length = m.checks.length := by
  have hdrop : m.dropConnection.checks = m.checks := checks_destroy m m.connection
  unfold finishTeardown
  simp only
  split
  · refine (checks_stateTransition ?_).trans (congrArg List.length hdrop)
    rfl
  · exact congrArg List.length hdrop

theorem checks_measureRoundTripTime (m : Monitor) (p : Nat) (pinger : RTTPinger) :
    (m.measureRoundTripTime p pinger).checks = m.checks := by
  unfold measureRoundTripTime
  simp only
  split
  · rfl
  · split <;> rfl

theorem checks_measureAndReschedule (m : Monitor) (p : Nat) (pinger : RTTPinger) (conn : Option Nat) :
    (m.measureAndReschedule p pinger conn).checks = m.checks := by
  unfold measureAndReschedule
  split
  · exact checks_destroy m conn
  · rfl

/-- What goes on after listeners starts no check. -/
theorem checks_goOn (m : Monitor) (frame : MonitorFrame) (now : Int) (elapsed : Nat) :
    (m.goOn frame now elapsed).checks.length = m.checks.length := by
  cases frame with
  | assign k => rfl
  | checkServer i => exact checks_checkServer ..
  | failureHandler i error => exact congrArg List.length (checks_failureHandler ..)
  | heartbeatFailed i error => rfl
  | resetServer i error => rfl
  | resetConnectionPool i error => exact checks_checked m i (.error error) now
  | done i => exact checks_done ..
  | connected i streams => exact checks_checked m i (.ok streams) now
  | replied i isAwaitable streams =>
    unfold goOn
    simp only
    split
    · rfl
    · rw [checks_checked, checks_dropPinger]
  | restarted i => exact checks_setStage ..
  | cancelling listeners teardown =>
    cases listeners with
    | nil => exact checks_finishTeardown ..
    | cons waiter listeners =>
      exact checks_cancel { m with stack := .cancelling listeners teardown :: m.stack } waiter
  | closing => exact checks_stateTransition rfl

/-- No interval of a closed monitor runs. -/
theorem Owned.stopped (h : m.Owned) (hclose : m.isInCloseState = true) {k : Nat} {interval : AsyncInterval}
    (hk : m.intervals[k]? = some interval) : interval.stopped = true := by
  by_contra hrunning
  rcases h.owner k interval hk (by simpa using hrunning) with howner | howner
  · rw [h.closed hclose] at howner
    cases howner
  · have hopen := (h.starting (List.ne_nil_of_mem howner)).1
    rw [hclose] at hopen
    cases hopen

/-- Only `connect` starts a check of a closed monitor. -/
theorem Owned.checks_of_closed (h : m.Owned) (hclosed : m.state = .closed) {e : Event} (hstep : m.step e = some m')
    (hconnect : ∀ now elapsed, e ≠ .connect now elapsed) : m'.checks.length = m.checks.length := by
  have hclose : m.isInCloseState = true := by
    unfold isInCloseState
    rw [hclosed]
    rfl
  cases step_steps hstep with
  | connect => exact absurd rfl (hconnect _ _)
  | requestCheck =>
    unfold Monitor.requestCheck
    rw [hclosed]
    rfl
  | reset =>
    unfold Monitor.reset
    rw [hclose]
    rfl
  | close =>
    unfold Monitor.close
    rw [hclose]
    rfl
  | describe => rfl
  | goOn => exact checks_goOn ..
  | @interval k handle now interval interval' hstack hinterval hfires =>
    -- a timer that fires is armed
    have harmed := (h.armed k interval hinterval).stopped (h.stopped hclose hinterval)
    obtain ⟨timers, htimers, -⟩ := Option.map_eq_some_iff.1 hfires
    obtain ⟨⟨timer, hmem, -⟩, -⟩ := Option.ite_none_right_eq_some.1 htimers
    rw [harmed] at hmem
    cases hmem
  | unwoken => rfl
  | wake hstack hopen =>
    rw [hclose] at hopen
    cases hopen
  | socketConnected => rfl
  | connectFailed => exact checks_connectFailed ..
  | pingerFailed => rfl
  | connected => exact checks_connectSucceeded ..
  | pingerConnected => exact congrArg List.length (checks_measureAndReschedule ..)
  | replied => exact checks_replied ..
  | connectionClosed => rfl
  | pingerTimer => exact congrArg List.length (checks_measureRoundTripTime ..)
  | pinged => exact congrArg List.length (checks_measureAndReschedule ..)
  | unpinged => rfl

/-! ## Runs -/

theorem owned_init (options : MonitorOptions) : ({ options } : Monitor).Owned :=
  ⟨fun k _ h => absurd h (by simp), fun k _ h => absurd h (by simp), fun h => absurd rfl h, Nat.zero_le 1, fun _ => rfl⟩

theorem released_init (options : MonitorOptions) : ({ options } : Monitor).Released :=
  ⟨fun _ => rfl, fun h => (by cases h), fun _ => rfl⟩

theorem released_run {options : MonitorOptions} {es : List Event} (hrun : Run.exec step { options } es = some m) :
    m.Orderly ∧ m.Released :=
  Run.exec_inv (P := fun m => m.Orderly ∧ m.Released) step
    (fun _ _ _ h hs => ⟨step_orderly h.1 hs, step_released h.2 h.1 hs⟩)
    ⟨orderly_init options, released_init options⟩ hrun

theorem owned_run {options : MonitorOptions} {es : List Event} (hmeets : Run.Meets step Undisturbed { options } es)
    (hrun : Run.exec step { options } es = some m) : m.Orderly ∧ m.Owned :=
  Run.exec_inv_meets (P := fun m => m.Orderly ∧ m.Owned) step
    (fun _ _ _ h hc hs => ⟨step_orderly h.1 hs, step_owned h.2 h.1 hc hs⟩)
    ⟨orderly_init options, owned_init options⟩ hmeets hrun

/-- In every run in which no listener of the first event of `connect` closes or resets the monitor: one that is
closed holds no connection, its intervals are stopped and its pingers closed, with no timer armed, and no step but
`connect` starts a check. -/
theorem closed_monitor_quiet {options : MonitorOptions} {es : List Event}
    (hmeets : Run.Meets step Undisturbed { options } es) (hrun : Run.exec step { options } es = some m)
    (hclosed : m.state = .closed) :
    m.connection = none ∧ m.monitorId = none ∧
      (∀ interval ∈ m.intervals, interval.stopped = true ∧ interval.timers.armed = []) ∧
      (∀ pinger ∈ m.pingers, pinger.closed = true ∧ pinger.timer = false ∧ pinger.connection = none) ∧
      ∀ (e : Event) (m' : Monitor), m.step e = some m' → (∀ now elapsed, e ≠ .connect now elapsed) →
        m'.checks.length = m.checks.length := by
  have hclose : m.isInCloseState = true := by
    unfold isInCloseState
    rw [hclosed]
    rfl
  obtain ⟨-, howned⟩ := owned_run hmeets hrun
  obtain ⟨-, hreleased⟩ := released_run hrun
  have hpinged := pinged_run hrun
  refine ⟨hreleased.closed hclosed, howned.closed hclose, fun interval hmem => ?_, fun pinger hmem => ?_,
    fun e m' hstep hconnect => howned.checks_of_closed hclosed hstep hconnect⟩
  · obtain ⟨k, hk⟩ := List.getElem?_of_mem hmem
    have hstopped := howned.stopped hclose hk
    exact ⟨hstopped, (howned.armed k interval hk).stopped hstopped⟩
  · obtain ⟨p, hp⟩ := List.getElem?_of_mem hmem
    have hpinger : pinger.closed = true := by
      by_contra hopen
      have hcurrent := hpinged.current p pinger hp (by simpa using hopen)
      rw [hreleased.rttPinger hclose] at hcurrent
      cases hcurrent
    exact ⟨hpinger, hpinged.idle p pinger hp hpinger⟩

/-- A monitor that is closed while it connects: its check fails inside `close`. -/
theorem closed_while_connecting : ∃ m : Monitor, m.state = .closed ∧ m.checks.length = 1 ∧ m.monitorId = none ∧
    ∀ (e : Event) (m' : Monitor), m.step e = some m' → (∀ now elapsed, e ≠ .connect now elapsed) →
      m'.checks.length = m.checks.length := by
  have hother : ∀ (m : Monitor) (now : Int) (elapsed : Nat), m.Undisturbed (.goOn now elapsed) :=
    fun _ _ _ h => by rcases h with h | h <;> cases h
  have hend : (Run.exec step {} [.connect 0 0, .goOn 0 0, .goOn 0 0, .close, .goOn 5 0, .goOn 5 0, .goOn 5 0,
      .goOn 5 0, .goOn 5 0, .goOn 5 0, .goOn 5 0]).map (fun m => (m.state, m.checks.length)) = some (.closed, 1) := rfl
  obtain ⟨m, hrun, heq⟩ := Option.map_eq_some_iff.1 hend
  obtain ⟨hclosed, hchecks⟩ := Prod.mk.inj heq
  have hmeets : Run.Meets step Undisturbed {} [.connect 0 0, .goOn 0 0, .goOn 0 0, .close, .goOn 5 0, .goOn 5 0,
      .goOn 5 0, .goOn 5 0, .goOn 5 0, .goOn 5 0, .goOn 5 0] := by
    apply Run.Meets.cons (fun h => by rcases h with h | h <;> cases h) rfl
    apply Run.Meets.cons (hother _ 0 0) rfl
    apply Run.Meets.cons (hother _ 0 0) rfl
    apply Run.Meets.cons (fun _ => rfl) rfl
    apply Run.Meets.cons (hother _ 5 0) rfl
    apply Run.Meets.cons (hother _ 5 0) rfl
    apply Run.Meets.cons (hother _ 5 0) rfl
    apply Run.Meets.cons (hother _ 5 0) rfl
    apply Run.Meets.cons (hother _ 5 0) rfl
    apply Run.Meets.cons (hother _ 5 0) rfl
    apply Run.Meets.cons (hother _ 5 0) rfl
    trivial
  obtain ⟨-, hid, -, -, hquiet⟩ := closed_monitor_quiet hmeets hrun hclosed
  exact ⟨m, hclosed, hchecks, hid, hquiet⟩

end Monitor

end MongoDriver.Sdam
