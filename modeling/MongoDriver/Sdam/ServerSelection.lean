/-
Server selection (`selectServer`, `processWaitQueue`, `drainWaitQueue` and `close` of
`src/sdam/topology.ts`). Callbacks run inside the loops that call them and may select or close again, so
control is explicit: a stack of the loops that are suspended, with the code of a callback on top. A step is
one turn of a loop, or one thing that the code outside does when it has control.
-/
import MongoDriver.Sdam.AddressIdentity

namespace MongoDriver.Sdam

/-! ## Requests -/

/-- `ServerSelector`. It may throw. -/
abbrev ServerSelector := TopologyDescription → List ServerDescription → Except AnyError (List ServerDescription)

/-- `ServerSelectionRequest`. The callback is known by the number of the request. -/
structure ServerSelectionRequest where
  id : Nat
  serverSelector : ServerSelector
  transaction : Option Nat
  /-- the timeout the timer was set with, zero for none -/
  timeoutMS : Nat
  /-- the field `timer` is set -/
  timer : Bool
  cancelled : Bool := false

/-- What a callback is called with. -/
inductive Outcome where
  | failed (error : AnyError)
  /-- `callback(undefined, selectedServer)`, with the address of the server -/
  | selected (server : Option String)
  /-- the server a transaction is pinned to -/
  | pinned (server : String)
deriving DecidableEq

/-- A call of a callback, and the servers the topology has at that moment. -/
structure SelectionCall where
  request : Nat
  outcome : Outcome
  present : List String
deriving DecidableEq

/-- What selection reads of a `Transaction`. -/
structure SelectionTransaction where
  isActive : Bool := false
  server : Option String := none

/-! ## The topology at work -/

inductive TopologyState where
  | closed
  | connecting
  | connected
  | closing
deriving DecidableEq, Repr

/-- Code that is suspended or has control. -/
inductive Frame where
  /-- the loop of `processWaitQueue`, with its constants and the members it still has to process -/
  | process (isSharded : Bool) (serverDescriptions : List ServerDescription) (remaining : Nat)
  /-- the loop of `drainWaitQueue` -/
  | drain
  /-- the code of a callback -/
  | callback
  /-- `close` after it has drained the queue -/
  | closing

structure Selection where
  topology : Topology
  state : TopologyState := .closed
  serverSelectionTimeoutMS : Nat
  waitQueue : List ServerSelectionRequest := []
  /-- the timers that are armed, by request -/
  timers : List Nat := []
  transactions : Nat → SelectionTransaction := fun _ => {}
  /-- the number of the next request -/
  next : Nat := 0
  calls : List SelectionCall := []
  stack : List Frame := []

namespace Selection

def topologyClosedError : AnyError := { cls := .mongoError, message := "Topology is closed" }

def selectionTimeoutError (ms : Nat) : AnyError :=
  { cls := .mongoServerSelectionError, message := s!"Server selection timed out after {ms} ms" }

/-- A callback is called: its code has control until it returns. -/
def invoke (s : Selection) (request : Nat) (outcome : Outcome) : Selection :=
  { s with
    calls := s.calls ++ [{ request, outcome, present := s.topology.servers.keys }]
    stack := .callback :: s.stack }

/-- `if (member.timer) clearTimeout(member.timer)`. -/
def clearTimer (s : Selection) (m : ServerSelectionRequest) : Selection :=
  if m.timer then { s with timers := s.timers.erase m.id } else s

/-- `processWaitQueue(topology)` up to its loop. -/
def processWaitQueue (s : Selection) : Selection :=
  if s.state = .closed then { s with stack := .drain :: s.stack }
  else
    { s with
      stack := .process (s.topology.description.type = .sharded) s.topology.description.servers.values
        s.waitQueue.length :: s.stack }

/-- `transaction.pinServer(server)`, for an active transaction of a sharded topology. -/
def pinServer (s : Selection) (isSharded : Bool) (m : ServerSelectionRequest) (server : Option String) : Selection :=
  match m.transaction, server with
  | some tx, some server =>
    if isSharded && (s.transactions tx).isActive then
      { s with
        transactions := fun i => if i = tx then { s.transactions tx with server := some server } else s.transactions i }
    else s
  | _, _ => s

/-- The server instance of a description. -/
def instanceOf (s : Selection) (sd : ServerDescription) : Option String :=
  (s.topology.servers.get? sd.address).map fun _ => sd.address

/-- A turn of the loop of `processWaitQueue` with the member at the head of the queue. -/
def processMember (random : Nat) (isSharded : Bool) (sds : List ServerDescription) (s : Selection)
    (m : ServerSelectionRequest) : Selection :=
  if m.cancelled then s
  else
    match m.serverSelector s.topology.description sds with
    | .error e => (s.clearTimer m).invoke m.id (.failed e)
    | .ok [] => { s with waitQueue := s.waitQueue ++ [m] }
    | .ok (sd :: rest) =>
      -- `randomSelection(selectedDescriptions)`
      let chosen := (sd :: rest).getD (random % (rest.length + 1)) sd
      let server := s.instanceOf chosen
      ((s.pinServer isSharded m server).clearTimer m).invoke m.id (.selected server)

/-- A turn of the loop of `drainWaitQueue`. -/
def drainMember (s : Selection) (m : ServerSelectionRequest) : Selection :=
  let s := s.clearTimer m
  if m.cancelled then s else s.invoke m.id (.failed topologyClosedError)

/-- A turn of the loop on top of the stack. -/
def tick (random : Nat) (s : Selection) : Option Selection :=
  match s.stack with
  | .process _ _ 0 :: rest => some { s with stack := rest }
  | .process isSharded sds (remaining + 1) :: rest =>
    let s := { s with stack := .process isSharded sds remaining :: rest }
    match s.waitQueue with
    | [] => some s
    | m :: queue => some (processMember random isSharded sds { s with waitQueue := queue } m)
  | .drain :: rest =>
    match s.waitQueue with
    | [] => some { s with stack := rest }
    | m :: queue => some (drainMember { s with waitQueue := queue } m)
  | _ => none

/-- `selectServer(selector, options, callback)`. -/
def selectServer (s : Selection) (selector : ServerSelector) (timeoutMS : Option Nat) (transaction : Option Nat) :
    Selection :=
  let id := s.next
  let s := { s with next := s.next + 1 }
  let pinned :=
    if s.topology.description.type = .sharded then transaction.bind fun tx => (s.transactions tx).server else none
  match pinned with
  | some server => s.invoke id (.pinned server)
  | none =>
    let ms := timeoutMS.getD s.serverSelectionTimeoutMS
    let m : ServerSelectionRequest := { id, serverSelector := selector, transaction, timeoutMS := ms, timer := ms ≠ 0 }
    processWaitQueue
      { s with timers := if ms ≠ 0 then s.timers ++ [id] else s.timers, waitQueue := s.waitQueue ++ [m] }

/-- The timer of a request fires: the request is cancelled where it stands. -/
def selectionTimeout (s : Selection) (id : Nat) (ms : Nat) : Selection :=
  invoke
    { s with
      timers := s.timers.erase id
      waitQueue := s.waitQueue.map fun m => if m.id = id then { m with cancelled := true, timer := false } else m }
    id (.failed (selectionTimeoutError ms))

/-- `close()` up to the end of its drain. -/
def close (s : Selection) : Selection :=
  if s.state = .closed ∨ s.state = .closing then s
  else { s with state := .closing, stack := .drain :: .closing :: s.stack }

/-- The end of `close()`, once the sessions are ended and the servers destroyed. -/
def finishClose (s : Selection) : Selection :=
  { s with topology := { s.topology with servers := OrderedMap.empty }, state := .closed }

/-- `connect()` up to its own selection: an instance for every description. -/
def connect (s : Selection) : Selection :=
  { s with
    state := .connecting
    topology := { s.topology with
      servers := s.topology.description.servers.values.foldl (fun m sd => m.set sd.address sd) OrderedMap.empty } }

/-! ## Runs -/

/-- What happens. -/
inductive Event where
  | select (selector : ServerSelector) (timeoutMS : Option Nat) (transaction : Option Nat)
  | close
  | finishClose
  | ret
  | tick (random : Nat)
  | timeout (id : Nat)
  | report (sd : ServerDescription)
  | poll (random : Nat → Nat) (records : List SrvRecord)
  | connect
  | connected
  | transact (id : Nat) (transaction : SelectionTransaction)

/-- The code outside has control: no loop runs, or its callback does. -/
def inControl (s : Selection) : Bool :=
  match s.stack with
  | [] | .callback :: _ | .closing :: _ => true
  | _ => false

def idle (s : Selection) : Bool := s.stack.isEmpty

/-- One step. Timers, monitors and the SRV poller act between tasks; a monitor reports for an instance the
topology has, and the poller is stopped by `close`. -/
def step (rt : Runtime) (srvMaxHosts : Nat) (s : Selection) : Event → Option Selection
  | .select selector timeoutMS transaction =>
    if s.inControl then some (s.selectServer selector timeoutMS transaction) else none
  | .close => if s.inControl then some s.close else none
  | .finishClose =>
    match s.state, s.stack with
    | .closing, [] | .closing, .closing :: _ => some s.finishClose
    | _, _ => none
  | .ret =>
    match s.stack with
    | .callback :: rest | .closing :: rest => some { s with stack := rest }
    | _ => none
  | .tick random => s.tick random
  | .timeout id =>
    if s.idle && s.timers.contains id then
      (s.waitQueue.find? (·.id = id)).map fun m => s.selectionTimeout id m.timeoutMS
    else none
  | .report sd =>
    if s.idle && s.state ≠ .closed && s.topology.servers.contains sd.address then
      let s' := { s with topology := s.topology.apply rt srvMaxHosts (.report sd) }
      -- after `updateServers`, the outstanding selections are attempted
      if s.topology.reachesUpdateServers rt srvMaxHosts (.report sd) && !s.waitQueue.isEmpty then
        some s'.processWaitQueue
      else some s'
    else none
  | .poll random records =>
    if s.idle && (s.state = .connecting || s.state = .connected) then
      some { s with topology := s.topology.apply rt srvMaxHosts (.poll random records) }
    else none
  | .connect => if s.idle && (s.state = .closed || s.state = .connecting) then some s.connect else none
  | .connected => if s.inControl && s.state = .connecting then some { s with state := .connected } else none
  | .transact id transaction =>
    if s.inControl then
      some { s with transactions := fun i => if i = id then transaction else s.transactions i }
    else none

/-- A topology as its constructor leaves it. -/
def new (rt : Runtime) (options : TopologyOptions) (seeds : List HostAddress) (serverSelectionTimeoutMS : Nat) :
    Selection :=
  { topology := { description := initialDescription rt options seeds, servers := OrderedMap.empty },
    serverSelectionTimeoutMS }

end Selection

end MongoDriver.Sdam
