/-
Monitoring a server (`Monitor`, `checkServer` and `RTTPinger` of `src/sdam/monitor.ts`). A monitor checks its server
at intervals: it emits that a heartbeat starts, connects or sends a hello on the connection it has, and emits how
that ended. Listeners run inside `emit` and may call the methods of the monitor again, and `reset` and `close` cancel
the sockets that are being connected, which calls their callbacks inside. So what is left of the functions that wait
for a listener is kept on a stack. Durations are left out; `stateChanged` has no listener.
-/
import MongoDriver.Sdam.Lifecycle
import MongoDriver.Utils.InterruptibleInterval
import MongoDriver.Base.Heap

namespace MongoDriver.Sdam

/-! ## Data -/

inductive MonitorState
  | closed
  | idle
  | monitoring
  | closing
deriving DecidableEq

def MonitorState.name : MonitorState → String
  | closed => "closed"
  | idle => "idle"
  | monitoring => "monitoring"
  | closing => "closing"

def monitorStates : MonitorState → Option (List MonitorState)
  | .closing => some [.closing, .idle, .closed]
  | .closed => some [.closed, .monitoring]
  | .idle => some [.idle, .monitoring, .closing]
  | .monitoring => some [.monitoring, .idle, .closing]

/-- `MonitorOptions`. -/
structure MonitorOptions where
  connectTimeoutMS : Int := 10000
  heartbeatFrequencyMS : Int := 10000
  minHeartbeatFrequencyMS : Int := 500

/-- The options of the interval that `connect` and `reset` make. -/
def MonitorOptions.interval (options : MonitorOptions) (immediate : Bool) : IntervalOptions where
  interval := some options.heartbeatFrequencyMS
  minInterval := some options.minHeartbeatFrequencyMS
  immediate

/-- What is read of a connection. It is `closed` once its stream has ended. -/
structure MonitorConnection where
  helloOk : Bool := false
  /-- `serverApi.version` is set -/
  serverApi : Bool := false
  destroyed : Bool := false
  closed : Bool := false
deriving DecidableEq

/-- The command a check sends, and its options. -/
structure HelloCommand where
  /-- `hello`, not the legacy name -/
  hello : Bool
  maxAwaitTimeMS : Option Int
  topologyVersion : Option TopologyVersion
  socketTimeoutMS : Int
  exhaustAllowed : Bool

/-- `makeTopologyVersion(tv)`. -/
def makeTopologyVersion (tv : TopologyVersion) : TopologyVersion where
  processId := tv.processId
  counter := if tv.counter.isLong then tv.counter else tv.counter.fromNumber

/-- The command for a server with this topology version. -/
def MonitorOptions.command (options : MonitorOptions) (connection : MonitorConnection)
    (topologyVersion : Option TopologyVersion) : HelloCommand where
  hello := connection.serverApi || connection.helloOk
  maxAwaitTimeMS := topologyVersion.map fun _ => options.heartbeatFrequencyMS
  topologyVersion := topologyVersion.map makeTopologyVersion
  socketTimeoutMS :=
    if topologyVersion.isSome then
      if options.connectTimeoutMS = 0 then 0 else options.connectTimeoutMS + options.heartbeatFrequencyMS
    else options.connectTimeoutMS
  exhaustAllowed := topologyVersion.isSome

/-- Where a call of `checkServer` is: its code runs or waits for a listener, `connect` or the command runs, it has
called back, or it never will. -/
inductive CheckStage
  | running
  | connecting
  | commanding (isAwaitable : Bool)
  | over
  | dropped
deriving DecidableEq

/-- A call of `checkServer`, for the interval whose `fn` it is. -/
structure Check where
  interval : Nat
  stage : CheckStage := .running

inductive PingStage
  | idle
  | connecting
  | commanding
deriving DecidableEq

/-- `RTTPinger`. `timer` says whether its timer is armed. -/
structure RTTPinger where
  closed : Bool := false
  connection : Option Nat := none
  timer : Bool := true
  stage : PingStage := .idle
deriving DecidableEq

/-- Who called `connect` and can be cancelled. -/
inductive Waiter
  | check (i : Nat)
  | pinger (p : Nat)
deriving DecidableEq

/-- Whether `resetMonitorState` was called by `reset` or by `close`. -/
inductive Teardown
  | reset
  | close
deriving DecidableEq

/-- What is left to do of a function when the listeners have returned. -/
inductive MonitorFrame
  /-- `connect`, which keeps the new interval -/
  | assign (k : Nat)
  | checkServer (i : Nat)
  /-- the callback of `connect`, after an error -/
  | failureHandler (i : Nat) (error : AnyError)
  /-- `failureHandler`, after each of its events -/
  | heartbeatFailed (i : Nat) (error : AnyError)
  | resetServer (i : Nat) (error : AnyError)
  | resetConnectionPool (i : Nat) (error : AnyError)
  /-- the callback of `checkServer`, before `done` -/
  | done (i : Nat)
  /-- the callbacks of `connect` and of the command, after the heartbeat succeeded; `streams` tells whether the
  reply has a topology version -/
  | connected (i : Nat) (streams : Bool)
  | replied (i : Nat) (isAwaitable streams : Bool)
  | restarted (i : Nat)
  /-- `resetMonitorState`, with the listeners of the token that are still to be called -/
  | cancelling (listeners : List Waiter) (teardown : Teardown)
  /-- `close`, after its event -/
  | closing
deriving DecidableEq

inductive MonitorEffect
  | heartbeatStarted (i : Nat)
  | heartbeatSucceeded (i : Nat)
  | heartbeatFailed (i : Nat) (error : AnyError)
  | resetServer (error : AnyError)
  | resetConnectionPool
  | close
  | command (i connection : Nat) (command : HelloCommand)

/-- `Monitor`, with the objects it made, what it reads of the description of its server, the stack, what it emitted,
and the errors that reached the event loop. -/
structure Monitor where
  options : MonitorOptions := {}
  state : MonitorState := .closed
  /-- `[kMonitorId]` -/
  monitorId : Option Nat := none
  intervals : List AsyncInterval := []
  /-- `[kConnection]` -/
  connection : Option Nat := none
  connections : List MonitorConnection := []
  /-- `[kRTTPinger]` -/
  rttPinger : Option Nat := none
  pingers : List RTTPinger := []
  checks : List Check := []
  /-- the listeners of `[kCancellationToken]` -/
  cancellationToken : List Waiter := []
  /-- the timers that wake the interval at once -/
  wakes : Nat := 0
  topologyVersion : Option TopologyVersion := none
  isUnknown : Bool := true
  stack : List MonitorFrame := []
  trace : List MonitorEffect := []
  uncaught : List AnyError := []

def cancelled : AnyError := { cls := .mongoNetworkError, message := "connection establishment was cancelled" }

namespace Monitor

variable (m : Monitor)

/-! ## Helpers -/

def isInCloseState : Bool := m.state = .closed || m.state = .closing

/-- Emit an event; the function goes on with the frame when the listeners have returned. -/
def emit (effect : MonitorEffect) (frame : MonitorFrame) : Monitor :=
  { m with trace := m.trace ++ [effect], stack := frame :: m.stack }

/-- `stateTransition(monitor, newState)` and what follows it. An error goes through every function on the stack. -/
def stateTransition (newState : MonitorState) (next : Monitor → Monitor) : Monitor :=
  match makeStateMachine MonitorState.name monitorStates m.state newState with
  | .ok state => next { m with state }
  | .error error => { m with stack := [], uncaught := m.uncaught ++ [error] }

def setStage (i : Nat) (stage : CheckStage) : Monitor :=
  { m with checks := m.checks.modify i fun check => { check with stage } }

/-- `destroy({ force: true })` of a connection, if there is one. -/
def destroy (connection : Option Nat) : Monitor :=
  match connection with
  | none => m
  | some c => { m with connections := m.connections.modify c fun conn => { conn with destroyed := true } }

/-- `monitor[kConnection]?.destroy({ force: true }); monitor[kConnection] = undefined`. -/
def dropConnection : Monitor := { m.destroy m.connection with connection := none }

/-- `close()` of a pinger. -/
def closePinger (p : Nat) : Monitor :=
  match m.pingers[p]? with
  | none => m
  | some pinger => { m.destroy pinger.connection with
      pingers := m.pingers.set p { pinger with closed := true, timer := false, connection := none } }

/-- `monitor[kRTTPinger]?.close(); monitor[kRTTPinger] = undefined`. -/
def dropPinger : Monitor :=
  match m.rttPinger with
  | none => m
  | some p => { m.closePinger p with rttPinger := none }

/-! ## A check -/

/-- `monitorServer(monitor)`, the `fn` of the interval `k`, up to the first event of `checkServer`. -/
def monitorServer (k : Nat) : Monitor :=
  m.stateTransition .monitoring fun m =>
    ({ m with checks := m.checks ++ [{ interval := k }] } : Monitor).emit (.heartbeatStarted m.checks.length)
      (.checkServer m.checks.length)

/-- The callback of `fn`: the interval goes on. -/
def complete (i : Nat) (now : Int) : Monitor :=
  match m.checks[i]? with
  | none => m
  | some check =>
    let m := m.setStage i .over
    { m with intervals := m.intervals.modify check.interval fun interval =>
        { interval.complete (m.options.interval false) now false with clock := now } }

/-- `done()`. -/
def done (i : Nat) (now : Int) : Monitor :=
  if m.isInCloseState then m.complete i now else m.stateTransition .idle fun m => m.complete i now

/-- The callback of `checkServer`. -/
def checked (i : Nat) (result : Except AnyError Bool) (now : Int) : Monitor :=
  match result with
  | .error error => if m.isUnknown then m.emit (.resetServer error) (.done i) else m.done i now
  | .ok streams => if streams then ({ m with wakes := m.wakes + 1 } : Monitor).done i now else m.done i now

/-- `failureHandler(err)`, up to its first event. -/
def failureHandler (i : Nat) (error : AnyError) : Monitor :=
  m.dropConnection.emit (.heartbeatFailed i error) (.heartbeatFailed i error)

/-- The callback of `connect` with an error. -/
def connectFailed (i : Nat) (error : AnyError) : Monitor :=
  let m := { m.setStage i .running with connection := none }
  if !error.isNetworkError then m.emit .resetConnectionPool (.failureHandler i error) else m.failureHandler i error

/-- And with a connection. -/
def connectSucceeded (i : Nat) (conn : MonitorConnection) (streams : Bool) : Monitor :=
  let c := m.connections.length
  let m := { m with connections := m.connections ++ [conn] }
  if m.isInCloseState then (m.destroy (some c)).setStage i .dropped
  else { m.setStage i .running with connection := some c }.emit (.heartbeatSucceeded i) (.connected i streams)

/-- The callback of the command. -/
def replied (i : Nat) (isAwaitable : Bool) (result : Except AnyError Bool) : Monitor :=
  let m := m.setStage i .running
  match result with
  | .error error => m.failureHandler i error
  | .ok streams => m.emit (.heartbeatSucceeded i) (.replied i isAwaitable streams)

/-- `checkServer` after its first event: a hello on the connection, with a pinger when the server streams, or a
new connection. -/
def checkServer (i : Nat) : Monitor :=
  match m.connection.bind fun c => (m.connections[c]?.filter (!·.closed)).map (c, ·) with
  | none => { m.setStage i .connecting with cancellationToken := m.cancellationToken ++ [.check i] }
  | some (c, conn) =>
    let isAwaitable := m.topologyVersion.isSome
    let m := if isAwaitable && m.rttPinger.isNone then
        { m with pingers := m.pingers ++ [{}], rttPinger := some m.pingers.length }
      else m
    { m.setStage i (.commanding isAwaitable) with
      trace := m.trace ++ [.command i c (m.options.command conn m.topologyVersion)] }

/-! ## The pinger -/

/-- `measureRoundTripTime`, when the timer fires. -/
def measureRoundTripTime (p : Nat) (pinger : RTTPinger) : Monitor :=
  let pinger := { pinger with timer := false }
  if pinger.closed then { m with pingers := m.pingers.set p pinger }
  else match pinger.connection with
    | none => { m with
        pingers := m.pingers.set p { pinger with stage := .connecting }
        cancellationToken := m.cancellationToken ++ [.pinger p] }
    | some _ => { m with pingers := m.pingers.set p { pinger with stage := .commanding } }

/-- Its callbacks with an error. -/
def pingFailed (p : Nat) (pinger : RTTPinger) : Monitor :=
  { m with pingers := m.pingers.set p { pinger with connection := none, stage := .idle } }

/-- `measureAndReschedule(conn)`. -/
def measureAndReschedule (p : Nat) (pinger : RTTPinger) (conn : Option Nat) : Monitor :=
  if pinger.closed then { m.destroy conn with pingers := m.pingers.set p { pinger with stage := .idle } }
  else
    let pinger := { pinger with connection := pinger.connection <|> conn, timer := true, stage := .idle }
    { m with pingers := m.pingers.set p pinger }

/-! ## The methods -/

/-- `wake()` of the interval of the monitor, which may call `fn`. -/
def wake (now : Int) (elapsed : Nat) : Monitor :=
  match m.monitorId.bind fun k => m.intervals[k]?.map (k, ·) with
  | none => m
  | some (k, interval) =>
    let interval' := interval.wake (m.options.interval false) now elapsed
    let m := { m with intervals := m.intervals.set k { interval' with clock := now + elapsed } }
    if interval.running < interval'.running then m.monitorServer k else m

/-- `resetMonitorState(monitor)` up to the listeners of the token. -/
def resetMonitorState (teardown : Teardown) : Monitor :=
  let m := match m.monitorId with
    | none => m
    | some k => { m with intervals := m.intervals.modify k AsyncInterval.stop, monitorId := none }
  let m := m.dropPinger
  { m with stack := .cancelling m.cancellationToken teardown :: m.stack }

/-- The rest of it, and what `reset` and `close` do then. -/
def finishTeardown (teardown : Teardown) (now : Int) (elapsed : Nat) : Monitor :=
  let m := m.dropConnection
  match teardown with
  | .reset => m.stateTransition .idle fun m => { m with
      intervals := m.intervals ++ [AsyncInterval.start (m.options.interval false) now elapsed]
      monitorId := some m.intervals.length }
  | .close => m.emit .close .closing

/-- `connect()`: an immediate interval calls `fn` before it is kept. -/
def connect (now : Int) (elapsed : Nat) : Monitor :=
  if m.state ≠ .closed then m
  else
    let k := m.intervals.length
    let m := { m with
      intervals := m.intervals ++ [AsyncInterval.start (m.options.interval true) now elapsed]
      stack := .assign k :: m.stack }
    m.monitorServer k

/-- `requestCheck()`. -/
def requestCheck (now : Int) (elapsed : Nat) : Monitor :=
  if m.state = .closing || m.state = .closed || m.state = .monitoring then m else m.wake now elapsed

/-- `reset()`. -/
def reset : Monitor :=
  if m.isInCloseState || m.topologyVersion.isNone then m
  else m.stateTransition .closing fun m => m.resetMonitorState .reset

/-- `close()`. -/
def close : Monitor :=
  if m.isInCloseState then m else m.stateTransition .closing fun m => m.resetMonitorState .close

/-! ## Events -/

/-- A listener of the token is called: the socket is given up. -/
def cancel (waiter : Waiter) : Monitor :=
  let m := { m with cancellationToken := m.cancellationToken.erase waiter }
  match waiter with
  | .check i => m.connectFailed i cancelled
  | .pinger p =>
    match m.pingers[p]? with
    | none => m
    | some pinger => m.pingFailed p pinger

/-- The function on top of the stack goes on. -/
def goOn (frame : MonitorFrame) (now : Int) (elapsed : Nat) : Monitor :=
  match frame with
  | .assign k => { m with monitorId := some k }
  | .checkServer i => m.checkServer i
  | .failureHandler i error => m.failureHandler i error
  | .heartbeatFailed i error => m.emit (.resetServer error) (.resetServer i error)
  | .resetServer i error => m.emit .resetConnectionPool (.resetConnectionPool i error)
  | .resetConnectionPool i error => m.checked i (.error error) now
  | .done i => m.done i now
  | .connected i streams => m.checked i (.ok streams) now
  | .replied i isAwaitable streams =>
    if isAwaitable && streams then m.emit (.heartbeatStarted i) (.restarted i)
    else m.dropPinger.checked i (.ok streams) now
  | .restarted i => m.setStage i (.commanding true)
  | .cancelling [] teardown => m.finishTeardown teardown now elapsed
  | .cancelling (waiter :: listeners) teardown =>
    ({ m with stack := .cancelling listeners teardown :: m.stack } : Monitor).cancel waiter
  | .closing => m.stateTransition .closed id

/-- What can happen. The methods may be called by a listener, and the description of the server may change in one;
everything else happens when no function waits. -/
inductive Event
  | connect (now : Int) (elapsed : Nat)
  | requestCheck (now : Int) (elapsed : Nat)
  | reset
  | close
  | describe (topologyVersion : Option TopologyVersion) (isUnknown : Bool)
  /-- the listeners have returned -/
  | goOn (now : Int) (elapsed : Nat)
  /-- the timer of the interval `k` fires -/
  | interval (k handle : Nat) (now : Int)
  /-- a timer that wakes the interval at once fires -/
  | wake (now : Int) (elapsed : Nat)
  /-- the socket is connected, and the handshake begins -/
  | socketConnected (waiter : Waiter)
  | connectFailed (waiter : Waiter) (error : AnyError)
  | connected (waiter : Waiter) (conn : MonitorConnection) (streams : Bool)
  /-- a reply to the hello of a check, or an error -/
  | replied (i : Nat) (result : Except AnyError Bool)
  | connectionClosed (c : Nat)
  | pingerTimer (p : Nat)
  | pinged (p : Nat) (succeeded : Bool)

/-- The waiter has called `connect` and waits for it. -/
def waits : Waiter → Bool
  | .check i => m.checks[i]?.any (·.stage = .connecting)
  | .pinger p => m.pingers[p]?.any (·.stage = .connecting)

/-- A listener runs, or nothing does. -/
def listening : Bool :=
  match m.stack with
  | .assign _ :: _ | .cancelling _ _ :: _ => false
  | _ => true

def step (m : Monitor) : Event → Option Monitor
  | .connect now elapsed => if m.listening then some (m.connect now elapsed) else none
  | .requestCheck now elapsed => if m.listening then some (m.requestCheck now elapsed) else none
  | .reset => if m.listening then some m.reset else none
  | .close => if m.listening then some m.close else none
  | .describe topologyVersion isUnknown => if m.listening then some { m with topologyVersion, isUnknown } else none
  | .goOn now elapsed =>
    match m.stack with
    | [] => none
    | frame :: stack => some (({ m with stack } : Monitor).goOn frame now elapsed)
  | .interval k handle now =>
    if m.stack ≠ [] then none
    else do
      let interval ← m.intervals[k]?
      let interval ← interval.step (m.options.interval false) (.fires handle now)
      some (({ m with intervals := m.intervals.set k interval } : Monitor).monitorServer k)
  | .wake now elapsed =>
    if m.stack ≠ [] ∨ m.wakes = 0 then none
    else
      let m := { m with wakes := m.wakes - 1 }
      some (if m.isInCloseState then m else m.wake now elapsed)
  | .socketConnected waiter =>
    if m.stack ≠ [] ∨ waiter ∉ m.cancellationToken then none
    else some { m with cancellationToken := m.cancellationToken.erase waiter }
  | .connectFailed waiter error =>
    if m.stack ≠ [] ∨ m.waits waiter = false then none
    else
      let m := { m with cancellationToken := m.cancellationToken.erase waiter }
      match waiter with
      | .check i => some (m.connectFailed i error)
      | .pinger p => m.pingers[p]?.map (m.pingFailed p)
  | .connected waiter conn streams =>
    if m.stack ≠ [] ∨ m.waits waiter = false ∨ waiter ∈ m.cancellationToken then none
    else match waiter with
      | .check i => some (m.connectSucceeded i conn streams)
      | .pinger p => m.pingers[p]?.map fun pinger =>
          ({ m with connections := m.connections ++ [conn] } : Monitor).measureAndReschedule p pinger
            (some m.connections.length)
  | .replied i result =>
    if m.stack ≠ [] then none
    else do
      let check ← m.checks[i]?
      match check.stage with
      | .commanding isAwaitable => some (m.replied i isAwaitable result)
      | _ => none
  | .connectionClosed c =>
    if m.stack ≠ [] then none
    else some { m with connections := m.connections.modify c fun conn => { conn with closed := true } }
  | .pingerTimer p =>
    if m.stack ≠ [] then none
    else m.pingers[p]?.bind fun pinger => if pinger.timer then some (m.measureRoundTripTime p pinger) else none
  | .pinged p succeeded =>
    if m.stack ≠ [] then none
    else m.pingers[p]?.bind fun pinger =>
      if pinger.stage ≠ .commanding then none
      else some (if succeeded then m.measureAndReschedule p pinger none else m.pingFailed p pinger)

/-- What an event finds and what it leaves. -/
inductive Steps (m : Monitor) : Event → Monitor → Prop
  | connect {now elapsed} (hlistening : m.listening = true) : Steps m (.connect now elapsed) (m.connect now elapsed)
  | requestCheck {now elapsed} (hlistening : m.listening = true) :
    Steps m (.requestCheck now elapsed) (m.requestCheck now elapsed)
  | reset (hlistening : m.listening = true) : Steps m .reset m.reset
  | close (hlistening : m.listening = true) : Steps m .close m.close
  | describe {topologyVersion isUnknown} (hlistening : m.listening = true) :
    Steps m (.describe topologyVersion isUnknown) { m with topologyVersion, isUnknown }
  | goOn {now elapsed frame stack} (hstack : m.stack = frame :: stack) :
    Steps m (.goOn now elapsed) (({ m with stack } : Monitor).goOn frame now elapsed)
  | interval {k handle now interval interval'} (hstack : m.stack = []) (hinterval : m.intervals[k]? = some interval)
    (hfires : interval.step (m.options.interval false) (.fires handle now) = some interval') :
    Steps m (.interval k handle now) (({ m with intervals := m.intervals.set k interval' } : Monitor).monitorServer k)
  | unwoken {now elapsed} (hstack : m.stack = []) (hclose : m.isInCloseState = true) :
    Steps m (.wake now elapsed) { m with wakes := m.wakes - 1 }
  | wake {now elapsed} (hstack : m.stack = []) (hopen : m.isInCloseState = false) :
    Steps m (.wake now elapsed) (({ m with wakes := m.wakes - 1 } : Monitor).wake now elapsed)
  | socketConnected {waiter} (hstack : m.stack = []) :
    Steps m (.socketConnected waiter) { m with cancellationToken := m.cancellationToken.erase waiter }
  | connectFailed {i error check} (hstack : m.stack = []) (hcheck : m.checks[i]? = some check)
    (hstage : check.stage = .connecting) : Steps m (.connectFailed (.check i) error)
      (({ m with cancellationToken := m.cancellationToken.erase (.check i) } : Monitor).connectFailed i error)
  | pingerFailed {p error pinger} (hstack : m.stack = []) (hpinger : m.pingers[p]? = some pinger)
    (hstage : pinger.stage = .connecting) : Steps m (.connectFailed (.pinger p) error)
      (({ m with cancellationToken := m.cancellationToken.erase (.pinger p) } : Monitor).pingFailed p pinger)
  | connected {i conn streams check} (hstack : m.stack = []) (hcheck : m.checks[i]? = some check)
    (hstage : check.stage = .connecting) (htoken : Waiter.check i ∉ m.cancellationToken) :
    Steps m (.connected (.check i) conn streams)
      (m.connectSucceeded i conn streams)
  | pingerConnected {p conn streams pinger} (hstack : m.stack = []) (hpinger : m.pingers[p]? = some pinger)
    (hstage : pinger.stage = .connecting) : Steps m (.connected (.pinger p) conn streams)
      (({ m with connections := m.connections ++ [conn] } : Monitor).measureAndReschedule p pinger
        (some m.connections.length))
  | replied {i result check isAwaitable} (hstack : m.stack = []) (hcheck : m.checks[i]? = some check)
    (hstage : check.stage = .commanding isAwaitable) : Steps m (.replied i result) (m.replied i isAwaitable result)
  | connectionClosed {c} (hstack : m.stack = []) : Steps m (.connectionClosed c)
      { m with connections := m.connections.modify c fun conn => { conn with closed := true } }
  | pingerTimer {p pinger} (hstack : m.stack = []) (hpinger : m.pingers[p]? = some pinger)
    (htimer : pinger.timer = true) : Steps m (.pingerTimer p) (m.measureRoundTripTime p pinger)
  | pinged {p pinger} (hstack : m.stack = []) (hpinger : m.pingers[p]? = some pinger)
    (hstage : pinger.stage = .commanding) : Steps m (.pinged p true) (m.measureAndReschedule p pinger none)
  | unpinged {p pinger} (hstack : m.stack = []) (hpinger : m.pingers[p]? = some pinger)
    (hstage : pinger.stage = .commanding) : Steps m (.pinged p false) (m.pingFailed p pinger)

/-- A check that waits for `connect`. -/
theorem waits_check {i : Nat} (h : m.waits (.check i) = true) :
    ∃ check, m.checks[i]? = some check ∧ check.stage = .connecting := by
  obtain ⟨check, hcheck, hstage⟩ := (Option.any_eq_true ..).1 h
  exact ⟨check, hcheck, of_decide_eq_true hstage⟩

/-- A pinger that waits for `connect`. -/
theorem waits_pinger {p : Nat} (h : m.waits (.pinger p) = true) :
    ∃ pinger, m.pingers[p]? = some pinger ∧ pinger.stage = .connecting := by
  obtain ⟨pinger, hpinger, hstage⟩ := (Option.any_eq_true ..).1 h
  exact ⟨pinger, hpinger, of_decide_eq_true hstage⟩

theorem step_steps {m m' : Monitor} {e : Event} (hstep : m.step e = some m') : Steps m e m' := by
  have hcalled : ∀ {next : Monitor}, (if m.listening then some next else none) = some m' →
      m.listening = true ∧ next = m' := fun h => by
    obtain ⟨hlistening, hnext⟩ := Option.ite_none_right_eq_some.1 h
    exact ⟨hlistening, Option.some.inj hnext⟩
  cases e with
  | connect now elapsed =>
    obtain ⟨hlistening, rfl⟩ := hcalled hstep
    exact .connect hlistening
  | requestCheck now elapsed =>
    obtain ⟨hlistening, rfl⟩ := hcalled hstep
    exact .requestCheck hlistening
  | reset =>
    obtain ⟨hlistening, rfl⟩ := hcalled hstep
    exact .reset hlistening
  | close =>
    obtain ⟨hlistening, rfl⟩ := hcalled hstep
    exact .close hlistening
  | describe topologyVersion isUnknown =>
    obtain ⟨hlistening, rfl⟩ := hcalled hstep
    exact .describe hlistening
  | goOn now elapsed =>
    simp only [step] at hstep
    split at hstep
    · cases hstep
    · rename_i frame stack hstack
      cases hstep
      exact .goOn hstack
  | interval k handle now =>
    obtain ⟨hstack, hstep⟩ := Option.ite_none_left_eq_some.1 hstep
    obtain ⟨interval, hinterval, hstep⟩ := Option.bind_eq_some_iff.1 hstep
    obtain ⟨interval', hfires, hstep⟩ := Option.bind_eq_some_iff.1 hstep
    cases hstep
    exact .interval (not_not.1 hstack) hinterval hfires
  | wake now elapsed =>
    obtain ⟨hwait, hstep⟩ := Option.ite_none_left_eq_some.1 hstep
    have hstack : m.stack = [] := not_not.1 fun hne => hwait (.inl hne)
    cases hstep
    split
    · rename_i hclose
      exact .unwoken hstack hclose
    · rename_i hopen
      exact .wake hstack (Bool.eq_false_iff.2 hopen)
  | socketConnected waiter =>
    obtain ⟨hwait, hstep⟩ := Option.ite_none_left_eq_some.1 hstep
    cases hstep
    exact .socketConnected (not_not.1 fun hne => hwait (.inl hne))
  | connectFailed waiter error =>
    obtain ⟨hwait, hstep⟩ := Option.ite_none_left_eq_some.1 hstep
    obtain ⟨hstack, hwaits⟩ : m.stack = [] ∧ m.waits waiter = true := by simpa using hwait
    cases waiter with
    | check i =>
      obtain ⟨check, hcheck, hstage⟩ := m.waits_check hwaits
      cases hstep
      exact .connectFailed hstack hcheck hstage
    | pinger p =>
      obtain ⟨pinger, hpinger, hstage⟩ := m.waits_pinger hwaits
      obtain ⟨pinger', hpinger', rfl⟩ := Option.map_eq_some_iff.1 hstep
      obtain rfl := Option.some.inj (hpinger.symm.trans hpinger')
      exact .pingerFailed hstack hpinger hstage
  | connected waiter conn streams =>
    obtain ⟨hwait, hstep⟩ := Option.ite_none_left_eq_some.1 hstep
    obtain ⟨hstack, hwaits, htoken⟩ : m.stack = [] ∧ m.waits waiter = true ∧ waiter ∉ m.cancellationToken := by
      simpa using hwait
    cases waiter with
    | check i =>
      obtain ⟨check, hcheck, hstage⟩ := m.waits_check hwaits
      cases hstep
      exact .connected hstack hcheck hstage htoken
    | pinger p =>
      obtain ⟨pinger, hpinger, hstage⟩ := m.waits_pinger hwaits
      obtain ⟨pinger', hpinger', rfl⟩ := Option.map_eq_some_iff.1 hstep
      obtain rfl := Option.some.inj (hpinger.symm.trans hpinger')
      exact .pingerConnected hstack hpinger hstage
  | replied i result =>
    obtain ⟨hstack, hstep⟩ := Option.ite_none_left_eq_some.1 hstep
    obtain ⟨check, hcheck, hstep⟩ := Option.bind_eq_some_iff.1 hstep
    split at hstep
    · rename_i isAwaitable hstage
      cases hstep
      exact .replied (not_not.1 hstack) hcheck hstage
    · cases hstep
  | connectionClosed c =>
    obtain ⟨hstack, hstep⟩ := Option.ite_none_left_eq_some.1 hstep
    cases hstep
    exact .connectionClosed (not_not.1 hstack)
  | pingerTimer p =>
    obtain ⟨hstack, hstep⟩ := Option.ite_none_left_eq_some.1 hstep
    obtain ⟨pinger, hpinger, hstep⟩ := Option.bind_eq_some_iff.1 hstep
    obtain ⟨htimer, hstep⟩ := Option.ite_none_right_eq_some.1 hstep
    cases hstep
    exact .pingerTimer (not_not.1 hstack) hpinger htimer
  | pinged p succeeded =>
    obtain ⟨hstack, hstep⟩ := Option.ite_none_left_eq_some.1 hstep
    obtain ⟨pinger, hpinger, hstep⟩ := Option.bind_eq_some_iff.1 hstep
    obtain ⟨hstage, hstep⟩ := Option.ite_none_left_eq_some.1 hstep
    cases hstep
    cases succeeded with
    | true => exact .pinged (not_not.1 hstack) hpinger (not_not.1 hstage)
    | false => exact .unpinged (not_not.1 hstack) hpinger (not_not.1 hstage)

end Monitor

end MongoDriver.Sdam
