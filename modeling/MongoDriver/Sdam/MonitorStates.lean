/-
The state machine of a monitor under listeners that call back into it. `stateTransition` throws when its table does
not have the transition, and nothing would catch that. Whatever the listeners call, whatever the order of sockets and
timers, it never does: one `reset` or `close` runs at a time, and while it runs nothing above it on the stack changes
the state.
-/
import MongoDriver.Sdam.Monitor
import MongoDriver.Base.Run

namespace MongoDriver.Sdam

/-! ## Frames -/

/-- A frame of `reset` or of `close`. -/
def MonitorFrame.isTeardown : MonitorFrame → Bool
  | .cancelling _ _ => true
  | .closing => true
  | _ => false

/-- A frame of what a socket that was given up leads to. -/
def MonitorFrame.isFailing : MonitorFrame → Bool
  | .failureHandler _ _ => true
  | .heartbeatFailed _ _ => true
  | .resetServer _ _ => true
  | .resetConnectionPool _ _ => true
  | .done _ => true
  | _ => false

/-- The frames above the last `reset` or `close`. -/
def aboveTeardown (stack : List MonitorFrame) : List MonitorFrame := stack.takeWhile (!·.isTeardown)

/-- How many calls of `reset` and `close` are running. -/
def teardowns (stack : List MonitorFrame) : Nat := stack.countP MonitorFrame.isTeardown

theorem aboveTeardown_cons {frame : MonitorFrame} {stack : List MonitorFrame} (h : frame.isTeardown = false) :
    aboveTeardown (frame :: stack) = frame :: aboveTeardown stack :=
  List.takeWhile_cons_of_pos (by rw [h]; rfl)

theorem aboveTeardown_teardown {frame : MonitorFrame} {stack : List MonitorFrame} (h : frame.isTeardown = true) :
    aboveTeardown (frame :: stack) = [] :=
  List.takeWhile_cons_of_neg (by rw [h]; exact Bool.false_ne_true)

theorem teardowns_cons {frame : MonitorFrame} {stack : List MonitorFrame} (h : frame.isTeardown = false) :
    teardowns (frame :: stack) = teardowns stack :=
  List.countP_cons_of_neg (by rw [h]; exact Bool.false_ne_true)

theorem teardowns_teardown {frame : MonitorFrame} {stack : List MonitorFrame} (h : frame.isTeardown = true) :
    teardowns (frame :: stack) = teardowns stack + 1 := List.countP_cons_of_pos h

namespace Monitor

variable {m m' : Monitor}

/-! ## What the helpers leave alone -/

/-- The state, the stack and the errors that got away. -/
def core (m : Monitor) : MonitorState × List MonitorFrame × List AnyError := (m.state, m.stack, m.uncaught)

theorem core_destroy (m : Monitor) (connection : Option Nat) : (m.destroy connection).core = m.core := by
  cases connection <;> rfl

theorem core_dropConnection (m : Monitor) : m.dropConnection.core = m.core := core_destroy m m.connection

theorem core_closePinger (m : Monitor) (p : Nat) : (m.closePinger p).core = m.core := by
  unfold closePinger
  split
  · rfl
  · rename_i pinger _
    exact core_destroy m pinger.connection

theorem core_dropPinger (m : Monitor) : m.dropPinger.core = m.core := by
  unfold dropPinger
  split
  · rfl
  · exact core_closePinger m _

theorem core_complete (m : Monitor) (i : Nat) (now : Int) : (m.complete i now).core = m.core := by
  unfold complete
  split <;> rfl

theorem core_measureRoundTripTime (m : Monitor) (p : Nat) (pinger : RTTPinger) :
    (m.measureRoundTripTime p pinger).core = m.core := by
  unfold measureRoundTripTime
  simp only
  split
  · rfl
  · split <;> rfl

theorem core_measureAndReschedule (m : Monitor) (p : Nat) (pinger : RTTPinger) (conn : Option Nat) :
    (m.measureAndReschedule p pinger conn).core = m.core := by
  unfold measureAndReschedule
  split
  · exact core_destroy m conn
  · rfl

/-! ## Order -/

/-- No error got away, and `closing` is the state of one running `reset` or `close`, above which only sockets that
were given up are handled. -/
structure Orderly (m : Monitor) : Prop where
  uncaught : m.uncaught = []
  teardown : teardowns m.stack = if m.state = .closing then 1 else 0
  failing : m.state = .closing → ∀ frame ∈ aboveTeardown m.stack, frame.isFailing = true

/-- In the middle of a `reset` or `close`: its frame is not on the stack. -/
structure Between (m : Monitor) : Prop where
  uncaught : m.uncaught = []
  state : m.state = .closing
  teardown : teardowns m.stack = 0

theorem Orderly.same (h : m.Orderly) (hcore : m'.core = m.core) : m'.Orderly := by
  obtain ⟨hstate, hstack, huncaught⟩ : m'.state = m.state ∧ m'.stack = m.stack ∧ m'.uncaught = m.uncaught := by
    simpa [core] using hcore
  exact ⟨huncaught.trans h.uncaught, by rw [hstate, hstack]; exact h.teardown, by
    rw [hstate, hstack]
    exact h.failing⟩

theorem Between.same (h : m.Between) (hcore : m'.core = m.core) : m'.Between := by
  obtain ⟨hstate, hstack, huncaught⟩ : m'.state = m.state ∧ m'.stack = m.stack ∧ m'.uncaught = m.uncaught := by
    simpa [core] using hcore
  exact ⟨huncaught.trans h.uncaught, hstate.trans h.state, by rw [hstack]; exact h.teardown⟩

/-- The function on top of the stack waits for listeners. -/
theorem Orderly.push (h : m.Orderly) (frame : MonitorFrame) (hframe : frame.isTeardown = false)
    (hfailing : m.state = .closing → frame.isFailing = true) : ({ m with stack := frame :: m.stack } : Monitor).Orderly := by
  refine ⟨h.uncaught, ?_, fun hstate frame' hmem => ?_⟩
  · show teardowns (frame :: m.stack) = _
    rw [teardowns_cons hframe]
    exact h.teardown
  · rw [show aboveTeardown ({ m with stack := frame :: m.stack } : Monitor).stack = _ from aboveTeardown_cons hframe] at hmem
    rcases List.mem_cons.1 hmem with rfl | hmem
    · exact hfailing hstate
    · exact h.failing hstate frame' hmem

theorem Orderly.emit (h : m.Orderly) (effect : MonitorEffect) {frame : MonitorFrame} (hframe : frame.isTeardown = false)
    (hfailing : m.state = .closing → frame.isFailing = true) : (m.emit effect frame).Orderly :=
  (h.push frame hframe hfailing).same rfl

/-- `reset` or `close` waits. -/
theorem Between.push (h : m.Between) (frame : MonitorFrame) (hframe : frame.isTeardown = true) :
    ({ m with stack := frame :: m.stack } : Monitor).Orderly := by
  refine ⟨h.uncaught, ?_, fun _ frame' hmem => ?_⟩
  · show teardowns (frame :: m.stack) = if m.state = .closing then 1 else 0
    rw [teardowns_teardown hframe, h.teardown, h.state]
    rfl
  · rw [show aboveTeardown ({ m with stack := frame :: m.stack } : Monitor).stack = [] from
      aboveTeardown_teardown hframe] at hmem
    cases hmem

/-- The state is set, not to `closing`, when no `reset` or `close` is running. -/
theorem orderly_of_state (huncaught : m.uncaught = []) (hteardown : teardowns m.stack = 0) (hstate : m.state ≠ .closing) :
    m.Orderly := ⟨huncaught, by rw [hteardown, if_neg hstate], fun h => absurd h hstate⟩

theorem Orderly.teardowns_eq (h : m.Orderly) (hstate : m.state ≠ .closing) : teardowns m.stack = 0 := by
  rw [h.teardown, if_neg hstate]

/-! ## Transitions -/

/-- A transition of the table. -/
theorem stateTransition_eq {newState : MonitorState} (next : Monitor → Monitor) {legalStates : List MonitorState}
    (htable : monitorStates m.state = some legalStates) (hlegal : newState ∈ legalStates) :
    m.stateTransition newState next = next { m with state := newState } := by
  unfold stateTransition makeStateMachine
  rw [htable]
  simp only [hlegal, if_true]

/-- A transition is made, or throws. -/
theorem stateTransition_cases (m : Monitor) (newState : MonitorState) (next : Monitor → Monitor) :
    m.stateTransition newState next = next { m with state := newState } ∨
      ∃ error, m.stateTransition newState next = { m with stack := [], uncaught := m.uncaught ++ [error] } := by
  cases htable : monitorStates m.state with
  | none => cases hstate : m.state <;> rw [hstate] at htable <;> cases htable
  | some legalStates =>
    by_cases hlegal : newState ∈ legalStates
    · exact .inl (stateTransition_eq next htable hlegal)
    · obtain ⟨error, herror⟩ : ∃ error,
          makeStateMachine MonitorState.name monitorStates m.state newState = .error error := by
        unfold makeStateMachine
        rw [htable]
        simp [hlegal]
      refine .inr ⟨error, ?_⟩
      unfold stateTransition
      rw [herror]

theorem transition_monitoring (next : Monitor → Monitor) (h : m.state ≠ .closing) :
    m.stateTransition .monitoring next = next { m with state := .monitoring } := by
  cases hstate : m.state with
  | closed => exact stateTransition_eq next (by rw [hstate]; rfl) (by decide)
  | idle => exact stateTransition_eq next (by rw [hstate]; rfl) (by decide)
  | monitoring => exact stateTransition_eq next (by rw [hstate]; rfl) (by decide)
  | closing => exact absurd hstate h

theorem transition_idle (next : Monitor → Monitor) (h : m.state ≠ .closed) :
    m.stateTransition .idle next = next { m with state := .idle } := by
  cases hstate : m.state with
  | closed => exact absurd hstate h
  | idle => exact stateTransition_eq next (by rw [hstate]; rfl) (by decide)
  | monitoring => exact stateTransition_eq next (by rw [hstate]; rfl) (by decide)
  | closing => exact stateTransition_eq next (by rw [hstate]; rfl) (by decide)

theorem transition_closing (next : Monitor → Monitor) (h : m.isInCloseState = false) :
    m.stateTransition .closing next = next { m with state := .closing } := by
  unfold isInCloseState at h
  cases hstate : m.state with
  | closed => rw [hstate] at h; cases h
  | idle => exact stateTransition_eq next (by rw [hstate]; rfl) (by decide)
  | monitoring => exact stateTransition_eq next (by rw [hstate]; rfl) (by decide)
  | closing => rw [hstate] at h; cases h

theorem transition_closed (next : Monitor → Monitor) (h : m.state = .closing) :
    m.stateTransition .closed next = next { m with state := .closed } :=
  stateTransition_eq next (by rw [h]; rfl) (by decide)

theorem not_closing (h : m.isInCloseState = false) : m.state ≠ .closed ∧ m.state ≠ .closing := by
  simpa [isInCloseState] using h

/-! ## The functions -/

theorem Orderly.monitorServer (h : m.Orderly) (hstate : m.state ≠ .closing) (k : Nat) : (m.monitorServer k).Orderly := by
  unfold Monitor.monitorServer
  rw [transition_monitoring _ hstate]
  have hset : ({ m with state := .monitoring } : Monitor).Orderly :=
    orderly_of_state h.uncaught (h.teardowns_eq hstate) fun heq => (by cases heq)
  exact (hset.push (.checkServer m.checks.length) rfl fun heq => (by cases heq)).same rfl

theorem Orderly.complete (h : m.Orderly) (i : Nat) (now : Int) : (m.complete i now).Orderly := h.same (core_complete ..)

theorem Orderly.done (h : m.Orderly) (i : Nat) (now : Int) : (m.done i now).Orderly := by
  unfold Monitor.done
  split
  · exact h.complete i now
  · rename_i hclose
    obtain ⟨hclosed, hclosing⟩ := not_closing (by simpa using hclose)
    rw [transition_idle _ hclosed]
    refine Orderly.complete ?_ i now
    exact orderly_of_state h.uncaught (h.teardowns_eq hclosing) fun heq => (by cases heq)

theorem Orderly.checked (h : m.Orderly) (i : Nat) (result : Except AnyError Bool) (now : Int) :
    (m.checked i result now).Orderly := by
  unfold Monitor.checked
  split
  · split
    · exact h.emit _ rfl fun _ => rfl
    · exact h.done i now
  · split
    · have hwake : ({ m with wakes := m.wakes + 1 } : Monitor).Orderly := h.same rfl
      exact hwake.done i now
    · exact h.done i now

theorem Orderly.failureHandler (h : m.Orderly) (i : Nat) (error : AnyError) : (m.failureHandler i error).Orderly :=
  Orderly.emit (h.same (core_dropConnection m)) _ rfl fun _ => rfl

theorem Orderly.connectFailed (h : m.Orderly) (i : Nat) (error : AnyError) : (m.connectFailed i error).Orderly := by
  have hdrop : ({ m.setStage i .running with connection := none } : Monitor).Orderly := h.same rfl
  unfold Monitor.connectFailed
  simp only
  split
  · exact hdrop.emit _ rfl fun _ => rfl
  · exact hdrop.failureHandler i error

theorem Orderly.checkServer (h : m.Orderly) (i : Nat) : (m.checkServer i).Orderly := by
  unfold Monitor.checkServer
  split
  · exact h.same rfl
  · simp only
    split
    · exact h.same rfl
    · exact h.same rfl

/-- Outside of `reset` and `close` events may go on with anything. -/
theorem Orderly.connectSucceeded (h : m.Orderly) (i : Nat) (conn : MonitorConnection) (streams : Bool) :
    (m.connectSucceeded i conn streams).Orderly := by
  unfold Monitor.connectSucceeded
  simp only
  split
  · exact h.same rfl
  · rename_i hclose
    have hopen : m.isInCloseState = false := by simpa [isInCloseState] using hclose
    have hkept : ({ ({ m with connections := m.connections ++ [conn] } : Monitor).setStage i .running with
        connection := some m.connections.length } : Monitor).Orderly := h.same rfl
    exact hkept.emit _ rfl fun heq => absurd heq (not_closing hopen).2

theorem Orderly.replied (h : m.Orderly) (hstate : m.state ≠ .closing) (i : Nat) (isAwaitable : Bool)
    (result : Except AnyError Bool) : (m.replied i isAwaitable result).Orderly := by
  have hrunning : (m.setStage i .running).Orderly := h.same rfl
  unfold Monitor.replied
  simp only
  split
  · exact hrunning.failureHandler i _
  · exact hrunning.emit _ rfl fun heq => absurd heq hstate

theorem Orderly.wake (h : m.Orderly) (hstate : m.state ≠ .closing) (now : Int) (elapsed : Nat) :
    (m.wake now elapsed).Orderly := by
  unfold Monitor.wake
  split
  · exact h
  · simp only
    rename_i k interval _
    have hset : ({ m with intervals := m.intervals.set k { interval.wake (m.options.interval false) now elapsed with
        clock := now + elapsed } } : Monitor).Orderly := h.same rfl
    split
    · exact hset.monitorServer hstate _
    · exact hset

theorem Between.resetMonitorState (h : m.Between) (teardown : Teardown) : (m.resetMonitorState teardown).Orderly := by
  have hdropped : ∀ stopped : Monitor, stopped.Between →
      ({ stopped.dropPinger with stack := .cancelling stopped.dropPinger.cancellationToken teardown ::
          stopped.dropPinger.stack } : Monitor).Orderly :=
    fun _ hstopped => Between.push (hstopped.same (core_dropPinger _)) _ rfl
  unfold Monitor.resetMonitorState
  simp only
  split
  · exact hdropped _ h
  · exact hdropped _ (h.same rfl)

theorem Between.finishTeardown (h : m.Between) (teardown : Teardown) (now : Int) (elapsed : Nat) :
    (m.finishTeardown teardown now elapsed).Orderly := by
  have hdrop : m.dropConnection.Between := h.same (core_dropConnection m)
  unfold Monitor.finishTeardown
  simp only
  split
  · rw [transition_idle _ (by rw [hdrop.state]; exact fun heq => (by cases heq))]
    exact orderly_of_state hdrop.uncaught hdrop.teardown fun heq => (by cases heq)
  · exact (hdrop.push .closing rfl).same rfl

theorem Orderly.connect (h : m.Orderly) (now : Int) (elapsed : Nat) : (m.connect now elapsed).Orderly := by
  unfold Monitor.connect
  split
  · exact h
  · rename_i hclosed
    have hstate : m.state = .closed := not_not.1 hclosed
    have hne : m.state ≠ .closing := by
      rw [hstate]
      exact fun heq => (by cases heq)
    have hpush : ({ m with
        intervals := m.intervals ++ [AsyncInterval.start (m.options.interval true) now elapsed]
        stack := .assign m.intervals.length :: m.stack } : Monitor).Orderly :=
      Orderly.same (h.push (.assign m.intervals.length) rfl fun heq => absurd heq hne) rfl
    exact hpush.monitorServer hne _

theorem Orderly.requestCheck (h : m.Orderly) (now : Int) (elapsed : Nat) : (m.requestCheck now elapsed).Orderly := by
  unfold Monitor.requestCheck
  split
  · exact h
  · rename_i hstate
    refine h.wake (fun heq => hstate ?_) now elapsed
    rw [heq]
    rfl

/-- `reset` and `close` start. -/
theorem Orderly.teardown_start (h : m.Orderly) (hclose : m.isInCloseState = false) (teardown : Teardown) :
    (m.stateTransition .closing fun m => m.resetMonitorState teardown).Orderly := by
  rw [transition_closing _ hclose]
  have hset : ({ m with state := .closing } : Monitor).Between :=
    ⟨h.uncaught, rfl, h.teardowns_eq (not_closing hclose).2⟩
  exact hset.resetMonitorState teardown

theorem Orderly.cancel (h : m.Orderly) (waiter : Waiter) : (m.cancel waiter).Orderly := by
  have herase : ({ m with cancellationToken := m.cancellationToken.erase waiter } : Monitor).Orderly := h.same rfl
  unfold Monitor.cancel
  simp only
  cases waiter with
  | check i => exact herase.connectFailed i cancelled
  | pinger p =>
    simp only
    split
    · exact herase
    · exact herase.same rfl

/-- The stack without its top. -/
theorem Orderly.pop (h : m.Orderly) {frame : MonitorFrame} {stack : List MonitorFrame} (hstack : m.stack = frame :: stack)
    (hframe : frame.isTeardown = false) : ({ m with stack } : Monitor).Orderly := by
  refine ⟨h.uncaught, ?_, fun hstate frame' hmem => h.failing hstate frame' ?_⟩
  · have hteardown := h.teardown
    rw [hstack, teardowns_cons hframe] at hteardown
    exact hteardown
  · rw [hstack, aboveTeardown_cons hframe]
    exact List.mem_cons_of_mem _ hmem

theorem Orderly.between (h : m.Orderly) {frame : MonitorFrame} {stack : List MonitorFrame} (hstack : m.stack = frame :: stack)
    (hframe : frame.isTeardown = true) : ({ m with stack } : Monitor).Between := by
  have hteardown := h.teardown
  rw [hstack, teardowns_teardown hframe] at hteardown
  by_cases hstate : m.state = .closing
  · rw [if_pos hstate] at hteardown
    exact ⟨h.uncaught, hstate, Nat.succ.inj hteardown⟩
  · rw [if_neg hstate] at hteardown
    cases hteardown

/-- A frame that is not about a failure is not on top while the monitor closes. -/
theorem Orderly.not_closing_of_top (h : m.Orderly) {frame : MonitorFrame} {stack : List MonitorFrame}
    (hstack : m.stack = frame :: stack) (hframe : frame.isTeardown = false) (hfailing : frame.isFailing = false) :
    m.state ≠ .closing := by
  intro hstate
  have htop := h.failing hstate frame (by rw [hstack, aboveTeardown_cons hframe]; exact List.mem_cons_self ..)
  rw [hfailing] at htop
  cases htop

theorem Orderly.goOn (h : m.Orderly) {frame : MonitorFrame} {stack : List MonitorFrame} (hstack : m.stack = frame :: stack)
    (now : Int) (elapsed : Nat) : (({ m with stack } : Monitor).goOn frame now elapsed).Orderly := by
  cases frame with
  | assign k => exact (h.pop hstack rfl).same rfl
  | checkServer i => exact (h.pop hstack rfl).checkServer i
  | failureHandler i error => exact (h.pop hstack rfl).failureHandler i error
  | heartbeatFailed i error => exact (h.pop hstack rfl).emit _ rfl fun _ => rfl
  | resetServer i error => exact (h.pop hstack rfl).emit _ rfl fun _ => rfl
  | resetConnectionPool i error => exact (h.pop hstack rfl).checked i (.error error) now
  | done i => exact (h.pop hstack rfl).done i now
  | connected i streams => exact (h.pop hstack rfl).checked i (.ok streams) now
  | replied i isAwaitable streams =>
    have hpop := h.pop hstack rfl
    have hstate := h.not_closing_of_top hstack rfl rfl
    unfold Monitor.goOn
    simp only
    split
    · exact hpop.emit _ rfl fun heq => absurd heq hstate
    · exact Orderly.checked (hpop.same (core_dropPinger _)) i (.ok streams) now
  | restarted i => exact (h.pop hstack rfl).same rfl
  | cancelling listeners teardown =>
    have hbetween := h.between hstack rfl
    cases listeners with
    | nil => exact hbetween.finishTeardown teardown now elapsed
    | cons waiter listeners => exact Orderly.cancel (hbetween.push (.cancelling listeners teardown) rfl) waiter
  | closing =>
    have hbetween := h.between hstack rfl
    show (Monitor.stateTransition _ _ id).Orderly
    rw [transition_closed id hbetween.state]
    exact orderly_of_state hbetween.uncaught hbetween.teardown fun heq => (by cases heq)

/-! ## Runs -/

/-- An event that happens when no function waits. -/
theorem Orderly.idle (h : m.Orderly) (hstack : m.stack = []) : m.state ≠ .closing := by
  intro hstate
  have hteardown := h.teardown
  rw [hstack, if_pos hstate] at hteardown
  cases hteardown

theorem step_orderly {e : Event} (h : m.Orderly) (hstep : m.step e = some m') : m'.Orderly := by
  cases step_steps hstep with
  | connect => exact h.connect _ _
  | requestCheck => exact h.requestCheck _ _
  | reset =>
    unfold reset
    split
    · exact h
    · rename_i hopen
      simp only [Bool.or_eq_true, not_or, Bool.not_eq_true] at hopen
      exact h.teardown_start hopen.1 .reset
  | close =>
    unfold close
    split
    · exact h
    · rename_i hopen
      exact h.teardown_start (Bool.eq_false_iff.2 hopen) .close
  | describe => exact h.same rfl
  | goOn hstack => exact h.goOn hstack _ _
  | @interval k handle now interval interval' hstack =>
    have hset : ({ m with intervals := m.intervals.set k interval' } : Monitor).Orderly := h.same rfl
    exact hset.monitorServer (h.idle hstack) k
  | unwoken => exact h.same rfl
  | wake hstack =>
    have hset : ({ m with wakes := m.wakes - 1 } : Monitor).Orderly := h.same rfl
    exact hset.wake (h.idle hstack) _ _
  | socketConnected => exact h.same rfl
  | @connectFailed i error =>
    have herase : ({ m with cancellationToken := m.cancellationToken.erase (.check i) } : Monitor).Orderly := h.same rfl
    exact herase.connectFailed i error
  | pingerFailed => exact h.same rfl
  | connected => exact h.connectSucceeded ..
  | pingerConnected => exact h.same (core_measureAndReschedule ..)
  | replied hstack => exact h.replied (h.idle hstack) ..
  | connectionClosed => exact h.same rfl
  | pingerTimer => exact h.same (core_measureRoundTripTime ..)
  | pinged => exact h.same (core_measureAndReschedule ..)
  | unpinged => exact h.same rfl

theorem orderly_init (options : MonitorOptions) : ({ options } : Monitor).Orderly :=
  orderly_of_state rfl rfl fun heq => (by cases heq)

theorem orderly_run {options : MonitorOptions} {es : List Event} (hrun : Run.exec step { options } es = some m) :
    m.Orderly := Run.exec_inv step (fun _ _ _ h hs => step_orderly h hs) (orderly_init options) hrun

/-- In every run of a monitor, whatever its listeners call from inside its events, no transition throws; and when
no function is left to go on, it is not `closing`. -/
theorem no_transition_throws {options : MonitorOptions} {es : List Event}
    (hrun : Run.exec step { options } es = some m) : m.uncaught = [] ∧ (m.stack = [] → m.state ≠ .closing) :=
  ⟨(orderly_run hrun).uncaught, (orderly_run hrun).idle⟩

/-- A monitor connects, a listener of its first event closes it, and another one of that connects it again. -/
theorem closed_and_connected_inside : ∃ m, Run.exec step {} [.connect 0 0, .close, .goOn 0 0, .connect 0 0] = some m ∧
    m.uncaught = [] ∧ (m.stack = [] → m.state ≠ .closing) := by
  obtain ⟨m, hrun⟩ : ∃ m, Run.exec step {} [.connect 0 0, .close, .goOn 0 0, .connect 0 0] = some m := ⟨_, rfl⟩
  exact ⟨m, hrun, no_transition_throws hrun⟩

end Monitor

end MongoDriver.Sdam
