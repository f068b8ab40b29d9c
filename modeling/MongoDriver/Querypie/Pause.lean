/-
Command capture (`src/querypie/pause.ts`, `src/querypie/session-pause.ts`): commands pause, a
controller waits for a paused one and resumes it. A context is queued for each paused command, while
the resume event is emitted on the emitter of its session, which all commands of the session share.
`createOrGet` keeps one emitter for each session id, so a session is its id here.
-/
import MongoDriver.Base.Run
import Mathlib.Data.List.Nodup

namespace MongoDriver.Querypie

/-! ## Data -/

inductive QpPausePhase
  | pre
  | post
deriving DecidableEq

/-- `QpPauseContext`. The ticket tells which call of `waitInternal` it was queued for. -/
structure QpPauseContext (δ : Type) where
  ticket : Nat
  id : String
  session : String
  phase : QpPausePhase
  command : δ
  result : Option δ
deriving DecidableEq

/-- The two `once` listeners one call of `waitInternal` registers on its session. -/
structure Listener (δ : Type) where
  ticket : Nat
  session : String
  originalResult : Option δ
deriving DecidableEq

/-- A call of a command's callback. -/
structure Completion (δ : Type) where
  ticket : Nat
  error : Option String
  result : Option δ
deriving DecidableEq

/-- What `waitOnProtocol` is given, by the fields its cases test for. -/
inductive WriteProtocolMessage (δ : Type)
  | getMore
  | killCursor
  | query
  | msg (command : δ)

inductive Hook (δ : Type)
  | waitOnProtocol (message : WriteProtocolMessage δ)
  | waitOnCommand (command : δ)

/-- A call of one of the two hooks. `noPause` is the `kNoPause` option. -/
structure Request (δ : Type) where
  hook : Hook δ
  session : String
  id : String := ""
  phase : QpPausePhase := .pre
  noPause : Bool := false
  result : Option δ := none

/-- A call that the callback of a command makes before it returns. -/
inductive NestedCall (δ : Type)
  | hook (request : Request δ)
  | wait (waiter : Nat)

/-- What the code around the capture decides: the numeric value of a field of a command, and what
the callback of each paused command does. -/
structure Env (δ : Type) where
  field : δ → String → Option Int
  body : Nat → List (NestedCall δ)

/-- `QpPause`, the listeners of all sessions and what was observed: the contexts `wait` returned, the
callbacks of paused commands and those of commands that passed. -/
structure QpPause (δ : Type) where
  queue : List (QpPauseContext δ) := []
  current : Option (QpPauseContext δ) := none
  isCommandCapturing : Bool := false
  listeners : List (Listener δ) := []
  /-- the `wait` calls that listen for the pause event -/
  waiting : List Nat := []
  /-- the `wait` calls that were woken and have not run yet -/
  woken : List Nat := []
  returned : List (Nat × QpPauseContext δ) := []
  completed : List (Completion δ) := []
  passed : List (Completion δ) := []
  next : Nat := 0

variable {δ : Type}

/-- The listener that is registered along with a context. -/
def QpPauseContext.listener (c : QpPauseContext δ) : Listener δ := ⟨c.ticket, c.session, c.result⟩

def ignorables : List String := ["ping"]

def isCommandIgnorable (env : Env δ) (command : δ) : Bool := ignorables.any fun k => env.field command k = some 1

namespace QpPause

/-! ## Pausing and waiting -/

/-- `tryRaisePause`: every listening `wait` is woken. -/
def tryRaisePause (s : QpPause δ) : QpPause δ := { s with woken := s.woken ++ s.waiting, waiting := [] }

/-- `pause` and `waitInternal`: queue the context, raise the event, register the listeners. -/
def pause (s : QpPause δ) (r : Request δ) (command : δ) : QpPause δ :=
  let c : QpPauseContext δ := ⟨s.next, r.id, r.session, r.phase, command, r.result⟩
  let s := tryRaisePause { s with queue := s.queue ++ [c] }
  { s with listeners := s.listeners ++ [c.listener], next := s.next + 1 }

/-- The callback is called at once. -/
def pass (s : QpPause δ) (result : Option δ) : QpPause δ :=
  { s with passed := s.passed ++ [⟨s.next, none, result⟩], next := s.next + 1 }

/-- `waitOnProtocol` and `waitOnCommand`. The former tests the message for an ignorable command, not
the command in it, and a message has no such field. -/
def waitOn (env : Env δ) (s : QpPause δ) (r : Request δ) : QpPause δ :=
  match r.hook with
  | .waitOnProtocol message =>
    if r.noPause || !s.isCommandCapturing then s.pass r.result
    else match message with
      | .getMore | .killCursor | .query => s.pass r.result
      | .msg command => s.pause r command
  | .waitOnCommand command =>
    if r.noPause || !s.isCommandCapturing || isCommandIgnorable env command then s.pass none
    else s.pause r command

/-- The loop of `wait`: take the head of the queue, whatever is current, or listen. -/
def take (s : QpPause δ) (waiter : Nat) : QpPause δ :=
  match s.queue with
  | c :: queue => { s with queue, current := some c, returned := s.returned ++ [(waiter, c)] }
  | [] => { s with waiting := s.waiting ++ [waiter] }

/-- `wait` up to its first suspension. -/
def wait (s : QpPause δ) (waiter : Nat) : QpPause δ :=
  match s.current with
  | some c => { s with returned := s.returned ++ [(waiter, c)] }
  | none => s.take waiter

/-! ## Emitting on a session -/

def nested (env : Env δ) (s : QpPause δ) : NestedCall δ → QpPause δ
  | .hook r => s.waitOn env r
  | .wait waiter => s.wait waiter

/-- The first part of a listener's call: it is removed. -/
def dispatch (outcome : Listener δ → Completion δ) (s : QpPause δ) (l : Listener δ) : QpPause δ :=
  { s with
    listeners := s.listeners.filter (·.ticket ≠ l.ticket)
    completed := s.completed ++ [outcome l] }

/-- A listener is called: it is removed first, then the command's callback runs. -/
def complete (env : Env δ) (outcome : Listener δ → Completion δ) (s : QpPause δ) (l : Listener δ) : QpPause δ :=
  (env.body l.ticket).foldl (nested env) (s.dispatch outcome l)

/-- `emit` on the emitter of a session calls the listeners registered when it starts. -/
def emit (env : Env δ) (outcome : Listener δ → Completion δ) (session : String) (s : QpPause δ) : QpPause δ :=
  (s.listeners.filter (·.session = session)).foldl (complete env outcome) s

/-- `onResume(updatedResult)`. -/
def onResume (updatedResult : Option δ) (l : Listener δ) : Completion δ :=
  ⟨l.ticket, none, updatedResult <|> l.originalResult⟩

/-- `onAbort()`. -/
def onAbort (l : Listener δ) : Completion δ := ⟨l.ticket, some "[QPE] Command aborted", l.originalResult⟩

/-! ## The controller -/

/-- The loop of `stop` and `abort` over the queue, which never grows while nothing is captured. -/
def drain (env : Env δ) (outcome : Listener δ → Completion δ) : Nat → QpPause δ → QpPause δ
  | 0, s => s
  | n + 1, s =>
    match s.queue with
    | [] => s
    | c :: queue => drain env outcome n (emit env outcome c.session { s with queue })

def shutdown (env : Env δ) (outcome : Listener δ → Completion δ) (s : QpPause δ) : QpPause δ :=
  let s := { s with isCommandCapturing := false }
  let s := match s.current with
    | some c => emit env outcome c.session s
    | none => s
  drain env outcome s.queue.length s

def start (s : QpPause δ) : QpPause δ := { s with isCommandCapturing := true }

def stop (env : Env δ) (s : QpPause δ) : QpPause δ := s.shutdown env (onResume none)

def abort (env : Env δ) (s : QpPause δ) : QpPause δ := s.shutdown env onAbort

def resume (env : Env δ) (s : QpPause δ) (updatedDocument : Option δ) : Except String (QpPause δ) :=
  match s.current with
  | none => .error "Not paused currently"
  | some c => .ok (tryRaisePause { emit env (onResume updatedDocument) c.session s with current := none })

end QpPause

/-- What can happen, each event atomic but for the calls its callbacks make. `wake` is the
continuation of a `wait` whose pause event was raised. -/
inductive Event (δ : Type)
  | start
  | stop
  | abort
  | resume (updatedDocument : Option δ)
  | hook (request : Request δ)
  | wait (waiter : Nat)
  | wake (waiter : Nat)
  | cancel (waiter : Nat)

/-- One event. A `resume` that throws changes nothing. -/
def step (env : Env δ) (s : QpPause δ) : Event δ → Option (QpPause δ)
  | .start => some s.start
  | .stop => some (s.stop env)
  | .abort => some (s.abort env)
  | .resume doc => match s.resume env doc with
    | .ok s' => some s'
    | .error _ => some s
  | .hook r => some (s.waitOn env r)
  | .wait w => some (s.wait w)
  | .wake w => if w ∈ s.woken then some (QpPause.take { s with woken := s.woken.erase w } w) else none
  | .cancel w => some { s with waiting := s.waiting.erase w }

end MongoDriver.Querypie
