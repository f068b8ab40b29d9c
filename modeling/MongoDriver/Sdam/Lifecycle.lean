/-
Opening and closing a topology (`connect` and `close` of `src/sdam/topology.ts`, `makeStateMachine` and `eachAsync` of
`src/utils.ts`). `connect` goes on in two asynchronous steps, a server selection and with credentials a ping; `close`
ends the sessions, the pooled sessions and the servers one after another. A `close` calls back a selection that
waits, but not a ping: when one succeeds after a `close` the last step of `connect` asks for a transition
that does not exist. `connect` is called once; a listener may answer the events it emits first, and those it emits
before its callback, with a `close`.
-/
import MongoDriver.Sdam.ServerSelection
import MongoDriver.Base.Run

namespace MongoDriver.Sdam

/-! ## The state machine -/

section StateMachine

variable {σ : Type} [DecidableEq σ]

/-- What `makeStateMachine` makes of a table: a state without an entry may go anywhere. -/
def makeStateMachine (name : σ → String) (stateTable : σ → Option (List σ)) (state newState : σ) : Except AnyError σ :=
  match stateTable state with
  | none => .ok newState
  | some legalStates =>
    if newState ∈ legalStates then .ok newState
    else .error
      { cls := .mongoRuntimeError
        message := "illegal state transition from [" ++ name state ++ "] => [" ++ name newState ++ "], allowed: [" ++
          ",".intercalate (legalStates.map name) ++ "]" }

end StateMachine

def TopologyState.name : TopologyState → String
  | closed => "closed"
  | connecting => "connecting"
  | connected => "connected"
  | closing => "closing"

def topologyStates : TopologyState → Option (List TopologyState)
  | .closed => some [.closed, .connecting]
  | .connecting => some [.connecting, .closing, .connected, .closed]
  | .connected => some [.connected, .closing, .closed]
  | .closing => some [.closing, .closed]

def stateTransition (state newState : TopologyState) : Except AnyError TopologyState :=
  makeStateMachine TopologyState.name topologyStates state newState

/-! ## State -/

/-- Where the one call of `connect` is. -/
inductive ConnectStage
  | idle
  /-- its first events are emitted and the servers created -/
  | opening
  | selecting
  | pinging
  /-- connected: `OPEN` and `CONNECT` are emitted -/
  | opened
  | done
deriving DecidableEq

/-- `connect` has not come to its last step. -/
def ConnectStage.waits : ConnectStage → Bool
  | opening | selecting | pinging => true
  | _ => false

/-- Where a `close` is: how many callbacks `eachAsync` still waits for, or the end of the pooled sessions. -/
inductive ClosingStage
  | sessions (awaiting : Nat)
  | pooledSessions
  | servers (awaiting : Nat)
deriving DecidableEq

structure Closing where
  stage : ClosingStage
  /-- a callback was given -/
  callback : Bool
deriving DecidableEq

/-- The state of a topology, the calls under way and what was observed: the calls of the callback of `connect` with an
error or without, how often the callbacks of `close` were called, and what was thrown. -/
structure Lifecycle where
  state : TopologyState := .closed
  stage : ConnectStage := .idle
  closings : List Closing := []
  connectCalls : List (Option AnyError) := []
  closeCalls : Nat := 0
  thrown : List AnyError := []
  /-- `close` has been called -/
  closeCalled : Bool := false
deriving DecidableEq

namespace Lifecycle

variable (s : Lifecycle)

/-- The callback of `connect` is called. -/
def callBack (error : Option AnyError) : Lifecycle :=
  { s with stage := .done, connectCalls := s.connectCalls ++ [error] }

def throw (err : AnyError) : Lifecycle := { s with thrown := s.thrown ++ [err] }

/-! ## `close` -/

/-- `drainWaitQueue`, of which the selection of `connect` is called back. The `close` in its callback returns at once,
the state being `closing`. -/
def drainWaitQueue : Lifecycle :=
  match s.stage with
  | .selecting => s.callBack (some Selection.topologyClosedError)
  | _ => s

/-- The callback of a `close`, if one was given. -/
def closed (callback : Bool) : Lifecycle := if callback then { s with closeCalls := s.closeCalls + 1 } else s

/-- `close` up to its first wait; so many sessions do not end at once. -/
def close (sessions : Nat) (callback : Bool) : Lifecycle :=
  let s := { s with closeCalled := true }
  if s.state = .closed ∨ s.state = .closing then s.closed callback
  else match stateTransition s.state .closing with
    | .error err => s.throw err
    | .ok state =>
      let s := drainWaitQueue { s with state }
      { s with closings := s.closings ++ [⟨if sessions = 0 then .pooledSessions else .sessions sessions, callback⟩] }

/-- The end of `close`, when the servers are destroyed. -/
def finishClose (callback : Bool) : Lifecycle :=
  match stateTransition s.state .closed with
  | .error err => s.throw err
  | .ok state => { s with state }.closed callback

/-- `eachCallback` for a session: each error goes on with the pooled sessions, and so does the last callback. -/
def sessionEnded (k : Nat) (error : Option AnyError) : Option Lifecycle :=
  match s.closings[k]? with
  | some ⟨.sessions (awaiting + 1), callback⟩ =>
    let closings := s.closings.set k ⟨.sessions awaiting, callback⟩
    if error.isSome ∨ awaiting = 0 then some { s with closings := closings ++ [⟨.pooledSessions, callback⟩] }
    else some { s with closings }
  | _ => none

/-- The callback of `endAllPooledSessions`; so many servers are destroyed then. -/
def pooledSessionsEnded (k : Nat) (servers : Nat) : Option Lifecycle :=
  match s.closings[k]? with
  | some ⟨.pooledSessions, callback⟩ =>
    let s := { s with closings := s.closings.set k ⟨.servers servers, callback⟩ }
    some (if servers = 0 then s.finishClose callback else s)
  | _ => none

/-- `eachCallback` for a server; `destroyServer` calls back without an error. -/
def serverDestroyed (k : Nat) : Option Lifecycle :=
  match s.closings[k]? with
  | some ⟨.servers (awaiting + 1), callback⟩ =>
    let s := { s with closings := s.closings.set k ⟨.servers awaiting, callback⟩ }
    some (if awaiting = 0 then s.finishClose callback else s)
  | _ => none

/-! ## `connect` -/

/-- `connect` up to `selectServer`. -/
def connect : Lifecycle :=
  if s.state = .connected then s.callBack none
  else match stateTransition s.state .connecting with
    | .error err => { s.throw err with stage := .done }
    | .ok state => { s with state, stage := .opening }

/-- `selectServer`: in a topology that is closed the queue is drained at once. -/
def selectServer : Lifecycle :=
  if s.state = .closed then s.callBack (some Selection.topologyClosedError) else { s with stage := .selecting }

/-- The last step of `connect`, up to the listeners of its events. -/
def succeed : Lifecycle :=
  match stateTransition s.state .connected with
  | .error err => { s.throw err with stage := .done }
  | .ok state => { s with state, stage := .opened }

/-- The callback of the selection; `server` tells whether the chosen server has an instance. -/
def selected (credentials : Bool) (server : Except AnyError Bool) (sessions : Nat) : Lifecycle :=
  match server with
  | .error err => ({ s with stage := .done }.close sessions false).callBack (some err)
  | .ok server => if server && credentials then { s with stage := .pinging } else s.succeed

/-- The callback of the ping. -/
def pinged (result : Except AnyError Unit) : Lifecycle :=
  match result with
  | .error err => s.callBack (some err)
  | .ok _ => s.succeed

end Lifecycle

/-! ## Runs -/

inductive LifecycleEvent
  | connect
  | selectServer
  | selected (server : Except AnyError Bool) (sessions : Nat)
  | pinged (result : Except AnyError Unit)
  /-- the listeners of `OPEN` and `CONNECT` have returned -/
  | opened
  | close (sessions : Nat) (callback : Bool)
  | sessionEnded (k : Nat) (error : Option AnyError)
  | pooledSessionsEnded (k : Nat) (servers : Nat)
  | serverDestroyed (k : Nat)

/-- The event ends `connect` with success: the last step or the callback after it. -/
def LifecycleEvent.succeeds (credentials : Bool) : LifecycleEvent → Bool
  | .selected (.ok server) _ => !(server && credentials)
  | .pinged (.ok _) => true
  | .opened => true
  | _ => false

namespace Lifecycle

/-- One event. No server is selected once the topology is closed. -/
def step (credentials : Bool) (s : Lifecycle) : LifecycleEvent → Option Lifecycle
  | .connect => if s.stage = .idle then some s.connect else none
  | .selectServer => if s.stage = .opening then some s.selectServer else none
  | .selected server sessions =>
    if s.stage = .selecting ∧ (s.state = .closed → server.isOk = false) then
      some (s.selected credentials server sessions)
    else none
  | .pinged result => if s.stage = .pinging then some (s.pinged result) else none
  | .opened => if s.stage = .opened then some (s.callBack none) else none
  | .close sessions callback => some (s.close sessions callback)
  | .sessionEnded k error => s.sessionEnded k error
  | .pooledSessionsEnded k servers => s.pooledSessionsEnded k servers
  | .serverDestroyed k => s.serverDestroyed k

/-! ## Transitions -/

theorem transition_closed (state : TopologyState) : stateTransition state .closed = .ok .closed := by
  cases state <;> rfl

theorem transition_closing {state : TopologyState} (h : ¬ (state = .closed ∨ state = .closing)) :
    stateTransition state .closing = .ok .closing := by
  cases state with
  | closed => exact absurd (.inl rfl) h
  | closing => exact absurd (.inr rfl) h
  | _ => rfl

variable {credentials : Bool} {s s' t : Lifecycle} {e : LifecycleEvent}

/-- Nothing is thrown, the topology does not become connected and `connect` does not succeed. -/
structure Quiet (s s' : Lifecycle) : Prop where
  thrown : s'.thrown = s.thrown
  state : s'.state = .connected → s.state = .connected
  calls : ∃ calls, s'.connectCalls = s.connectCalls ++ calls ∧ none ∉ calls

theorem Quiet.of_eq (hthrown : s'.thrown = s.thrown) (hstate : s'.state = .connected → s.state = .connected)
    (hcalls : s'.connectCalls = s.connectCalls) : Quiet s s' :=
  ⟨hthrown, hstate, [], by rw [hcalls, List.append_nil], List.not_mem_nil⟩

theorem Quiet.trans (h : Quiet s t) (h' : Quiet t s') : Quiet s s' := by
  obtain ⟨calls, hcalls, hnone⟩ := h.calls
  obtain ⟨calls', hcalls', hnone'⟩ := h'.calls
  refine ⟨h'.thrown.trans h.thrown, fun hc => h.state (h'.state hc), calls ++ calls', ?_, ?_⟩
  · rw [hcalls', hcalls, List.append_assoc]
  · rw [List.mem_append]
    rintro (hmem | hmem)
    · exact hnone hmem
    · exact hnone' hmem

theorem quiet_callBack (s : Lifecycle) (err : AnyError) : Quiet s (s.callBack (some err)) :=
  ⟨rfl, fun h => h, [some err], rfl, by simp⟩

theorem quiet_closed (s : Lifecycle) (callback : Bool) : Quiet s (s.closed callback) := by
  unfold closed
  split <;> exact .of_eq rfl (fun h => h) rfl

theorem quiet_drainWaitQueue (s : Lifecycle) : Quiet s s.drainWaitQueue := by
  unfold drainWaitQueue
  split
  · exact quiet_callBack ..
  · exact .of_eq rfl (fun h => h) rfl

theorem quiet_close (s : Lifecycle) (sessions : Nat) (callback : Bool) : Quiet s (s.close sessions callback) := by
  have hcalled : Quiet s { s with closeCalled := true } := .of_eq rfl (fun h => h) rfl
  unfold close
  simp only
  split
  · exact hcalled.trans (quiet_closed ..)
  · rename_i hopen
    rw [transition_closing hopen]
    have hclosing : Quiet s { s with closeCalled := true, state := .closing } := .of_eq rfl (fun h => (nomatch h)) rfl
    have hdrained := hclosing.trans (quiet_drainWaitQueue _)
    exact hdrained.trans (.of_eq rfl (fun h => h) rfl)

theorem quiet_finishClose (s : Lifecycle) (callback : Bool) : Quiet s (s.finishClose callback) := by
  unfold finishClose
  rw [transition_closed]
  have hclosed : Quiet s { s with state := .closed } := .of_eq rfl (fun h => (nomatch h)) rfl
  exact hclosed.trans (quiet_closed ..)

theorem closed_frame (s : Lifecycle) (callback : Bool) : (s.closed callback).state = s.state ∧
    (s.closed callback).stage = s.stage ∧ (s.closed callback).closings = s.closings ∧
    (s.closed callback).closeCalled = s.closeCalled := by
  unfold closed
  split <;> exact ⟨rfl, rfl, rfl, rfl⟩

theorem finishClose_frame (s : Lifecycle) (callback : Bool) :
    (s.finishClose callback).closeCalled = s.closeCalled ∧ (s.finishClose callback).stage = s.stage := by
  unfold finishClose
  rw [transition_closed]
  obtain ⟨-, hstage, -, hcalled⟩ := closed_frame { s with state := .closed } callback
  exact ⟨hcalled, hstage⟩

/-! ## What an event does -/

/-- A `close` that is under way goes on. -/
structure GoesOn (s s' : Lifecycle) : Prop where
  closing : s.closings ≠ []
  called : s'.closeCalled = s.closeCalled
  stage : s'.stage = s.stage
  quiet : Quiet s s'

theorem closings_ne_nil {k : Nat} {c : Closing} (hk : s.closings[k]? = some c) : s.closings ≠ [] := by
  intro hnil
  rw [hnil] at hk
  cases hk

/-- So many servers are still to be destroyed. -/
theorem goesOn_servers {k : Nat} {c : Closing} (hk : s.closings[k]? = some c) (awaiting : Nat) (callback : Bool) :
    GoesOn s (if awaiting = 0 then
        finishClose { s with closings := s.closings.set k ⟨.servers awaiting, callback⟩ } callback
      else { s with closings := s.closings.set k ⟨.servers awaiting, callback⟩ }) := by
  have hset : Quiet s { s with closings := s.closings.set k ⟨.servers awaiting, callback⟩ } :=
    .of_eq rfl (fun h => h) rfl
  split
  · obtain ⟨hcalled, hstage⟩ := finishClose_frame
      { s with closings := s.closings.set k ⟨.servers awaiting, callback⟩ } callback
    exact ⟨closings_ne_nil hk, hcalled, hstage, hset.trans (quiet_finishClose ..)⟩
  · exact ⟨closings_ne_nil hk, rfl, rfl, hset⟩

theorem goesOn_sessionEnded {k : Nat} {error : Option AnyError} (h : s.sessionEnded k error = some s') :
    GoesOn s s' := by
  unfold sessionEnded at h
  split at h
  · rename_i hk
    simp only at h
    split at h
    · cases h
      exact ⟨closings_ne_nil hk, rfl, rfl, .of_eq rfl (fun h => h) rfl⟩
    · cases h
      exact ⟨closings_ne_nil hk, rfl, rfl, .of_eq rfl (fun h => h) rfl⟩
  · cases h

theorem goesOn_pooledSessionsEnded {k servers : Nat} (h : s.pooledSessionsEnded k servers = some s') :
    GoesOn s s' := by
  unfold pooledSessionsEnded at h
  split at h
  · rename_i callback hk
    cases h
    exact goesOn_servers hk servers callback
  · cases h

theorem goesOn_serverDestroyed {k : Nat} (h : s.serverDestroyed k = some s') : GoesOn s s' := by
  unfold serverDestroyed at h
  split at h
  · rename_i awaiting callback hk
    cases h
    exact goesOn_servers hk awaiting callback
  · cases h

/-- What an event does, with what it needs. -/
inductive Moves (credentials : Bool) (s : Lifecycle) (e : LifecycleEvent) : Lifecycle → Prop
  | connect (event : e.succeeds credentials = false) (idle : s.stage = .idle) : Moves credentials s e s.connect
  /-- `connect` waits for the next answer -/
  | waits {stage : ConnectStage} (event : e.succeeds credentials = false) (busy : s.stage.waits = true)
      (next : stage.waits = true) : Moves credentials s e { s with stage }
  | fails (event : e.succeeds credentials = false) (err : AnyError) : Moves credentials s e (s.callBack (some err))
  /-- a selection that fails closes the topology first -/
  | closes (event : e.succeeds credentials = false) (sessions : Nat) (err : AnyError) :
      Moves credentials s e (({ s with stage := .done }.close sessions false).callBack (some err))
  | succeeds (event : e.succeeds credentials = true) (busy : s.stage.waits = true) : Moves credentials s e s.succeed
  | opened (event : e.succeeds credentials = true) : Moves credentials s e (s.callBack none)
  | close (event : e.succeeds credentials = false) (sessions : Nat) (callback : Bool) :
      Moves credentials s e (s.close sessions callback)
  | closing {s' : Lifecycle} (event : e.succeeds credentials = false) (goes : GoesOn s s') : Moves credentials s e s'

theorem step_moves (hstep : step credentials s e = some s') : Moves credentials s e s' := by
  cases e with
  | connect =>
    simp only [step] at hstep
    split at hstep
    · rename_i hidle
      cases hstep
      exact .connect rfl hidle
    · cases hstep
  | selectServer =>
    simp only [step] at hstep
    split at hstep
    · rename_i hopening
      cases hstep
      unfold selectServer
      split
      · exact .fails rfl _
      · exact .waits rfl (by rw [hopening]; rfl) rfl
    · cases hstep
  | selected server sessions =>
    simp only [step] at hstep
    split at hstep
    · rename_i hcond
      cases hstep
      have hbusy : s.stage.waits = true := by rw [hcond.1]; rfl
      cases server with
      | error err => exact .closes rfl sessions err
      | ok server =>
        have hevent : (LifecycleEvent.selected (.ok server) sessions).succeeds credentials =
            !(server && credentials) := rfl
        cases hping : server && credentials with
        | true =>
          rw [hping] at hevent
          have hselected : s.selected credentials (.ok server) sessions = { s with stage := .pinging } := if_pos hping
          rw [hselected]
          exact .waits hevent hbusy rfl
        | false =>
          rw [hping] at hevent
          have hselected : s.selected credentials (.ok server) sessions = s.succeed := if_neg (by simp [hping])
          rw [hselected]
          exact .succeeds hevent hbusy
    · cases hstep
  | pinged result =>
    simp only [step] at hstep
    split at hstep
    · rename_i hpinging
      cases hstep
      cases result with
      | error err => exact .fails rfl err
      | ok _ => exact .succeeds rfl (by rw [hpinging]; rfl)
    · cases hstep
  | opened =>
    simp only [step] at hstep
    split at hstep
    · cases hstep
      exact .opened rfl
    · cases hstep
  | close sessions callback => cases hstep; exact .close rfl sessions callback
  | sessionEnded k error => exact .closing rfl (goesOn_sessionEnded hstep)
  | pooledSessionsEnded k servers => exact .closing rfl (goesOn_pooledSessionsEnded hstep)
  | serverDestroyed k => exact .closing rfl (goesOn_serverDestroyed hstep)

/-! ## The invariant -/

/-- Before `connect` the topology is closed; until a `close` the state follows `connect`, and only the last step of
`connect` makes it connected. -/
structure Sane (s : Lifecycle) : Prop where
  idle : s.stage = .idle → s.state = .closed ∧ s.closings = []
  unclosed : s.closeCalled = false → s.closings = []
  connecting : s.closeCalled = false → s.stage.waits = true → s.state = .connecting
  unconnected : s.stage.waits = true → s.state ≠ .connected

theorem sane_init : Sane {} := ⟨fun _ => ⟨rfl, rfl⟩, fun _ => rfl, fun _ h => (by cases h), fun h => (by cases h)⟩

/-- Once `close` has been called and `connect` as well, little is asked of the state. -/
theorem Sane.of_called (hcalled : s.closeCalled = true) (hstage : s.stage ≠ .idle)
    (hunconnected : s.stage.waits = true → s.state ≠ .connected) : Sane s := by
  refine ⟨fun h => absurd h hstage, fun h => ?_, fun h => ?_, hunconnected⟩
  · rw [hcalled] at h
    cases h
  · rw [hcalled] at h
    cases h

theorem drainWaitQueue_frame (s : Lifecycle) : s.drainWaitQueue.closeCalled = s.closeCalled ∧
    s.drainWaitQueue.state = s.state ∧ (s.drainWaitQueue.stage = .idle → s.stage = .idle) := by
  unfold drainWaitQueue
  split
  · exact ⟨rfl, rfl, fun h => by cases h⟩
  · exact ⟨rfl, rfl, fun h => h⟩

theorem sane_close (h : Sane s) (sessions : Nat) (callback : Bool) : Sane (s.close sessions callback) := by
  unfold close
  simp only
  split
  · obtain ⟨hstate, hstage, hclosings, hcalled⟩ := closed_frame { s with closeCalled := true } callback
    refine ⟨fun hidle => ?_, fun hopen => ?_, fun hopen => ?_, fun hwaits => ?_⟩
    · rw [hstate, hclosings]
      exact h.idle (hstage ▸ hidle)
    · rw [hcalled] at hopen
      cases hopen
    · rw [hcalled] at hopen
      cases hopen
    · rw [hstate]
      exact h.unconnected (hstage ▸ hwaits)
  · rename_i hopen
    rw [transition_closing hopen]
    have hne : s.stage ≠ .idle := fun hidle => hopen (.inl (h.idle hidle).1)
    obtain ⟨hcalled, hstate, hstage⟩ := drainWaitQueue_frame { s with closeCalled := true, state := .closing }
    exact .of_called hcalled (fun hidle => hne (hstage hidle)) fun _ hconn => by cases hstate.symm.trans hconn

/-- A `close` goes on. -/
theorem Sane.goesOn (h : Sane s) (hg : GoesOn s s') : Sane s' := by
  refine .of_called ?_ (fun hidle => hg.closing (h.idle (hg.stage ▸ hidle)).2) fun hwaits hconn =>
    h.unconnected (hg.stage ▸ hwaits) (hg.quiet.state hconn)
  rw [hg.called]
  cases hc : s.closeCalled with
  | true => rfl
  | false => exact absurd (h.unclosed hc) hg.closing

/-- After the last step of `connect` only the closings matter. -/
theorem Sane.over (h : Sane s) (hstage : s'.stage = .opened ∨ s'.stage = .done)
    (hcalled : s'.closeCalled = s.closeCalled) (hclosings : s'.closings = s.closings) : Sane s' := by
  have hover : s'.stage ≠ .idle ∧ s'.stage.waits = false := by
    rcases hstage with hopened | hdone
    · exact ⟨fun hidle => (by cases hidle.symm.trans hopened), by rw [hopened]; rfl⟩
    · exact ⟨fun hidle => (by cases hidle.symm.trans hdone), by rw [hdone]; rfl⟩
  refine ⟨fun hidle => absurd hidle hover.1, fun hopen => ?_, fun _ hwaits => ?_, fun hwaits => ?_⟩
  · rw [hclosings]
    exact h.unclosed (hcalled ▸ hopen)
  · cases hwaits.symm.trans hover.2
  · cases hwaits.symm.trans hover.2

theorem sane_succeed (h : Sane s) : Sane s.succeed := by
  unfold succeed
  split
  · exact h.over (.inr rfl) rfl rfl
  · exact h.over (.inl rfl) rfl rfl

/-- An idle topology is closed, and `connect` opens it. -/
theorem Sane.connect_eq (h : Sane s) (hidle : s.stage = .idle) :
    s.connect = { s with state := .connecting, stage := .opening } := by
  unfold connect
  rw [(h.idle hidle).1]
  rfl

theorem step_sane (h : Sane s) (hstep : step credentials s e = some s') : Sane s' := by
  cases step_moves hstep with
  | connect _ hidle =>
    rw [h.connect_eq hidle]
    exact ⟨nofun, h.unclosed, fun _ _ => rfl, fun _ hconn => by cases hconn⟩
  | @waits stage _ hbusy hnext =>
    refine ⟨fun hidle => ?_, h.unclosed, fun hopen _ => h.connecting hopen hbusy, fun _ => h.unconnected hbusy⟩
    have hstage : stage = .idle := hidle
    rw [hstage] at hnext
    cases hnext
  | fails => exact h.over (.inr rfl) rfl rfl
  | closes _ sessions err =>
    have hdone : Sane { s with stage := .done } := h.over (.inr rfl) rfl rfl
    exact (sane_close hdone sessions false).over (.inr rfl) rfl rfl
  | succeeds => exact sane_succeed h
  | opened => exact h.over (.inr rfl) rfl rfl
  | close _ sessions callback => exact sane_close h sessions callback
  | closing _ hg => exact h.goesOn hg

/-! ## Steps and runs -/

/-- One event throws no illegal transition; after a call of `close` the topology does not become connected and `connect`
does not succeed. -/
structure Lawful (s s' : Lifecycle) : Prop where
  legal : s'.thrown = s.thrown
  final : s.closeCalled = true → (s'.state = .connected → s.state = .connected) ∧
    ∃ calls, s'.connectCalls = s.connectCalls ++ calls ∧ none ∉ calls

theorem Quiet.lawful (h : Quiet s s') : Lawful s s' := ⟨h.thrown, fun _ => ⟨h.state, h.calls⟩⟩

/-- `connect` does not succeed after a call of `close`. -/
def SucceedsOpen (credentials : Bool) (s : Lifecycle) (e : LifecycleEvent) : Prop :=
  e.succeeds credentials = true → s.closeCalled = false

/-- The last step of `connect` is lawful before any `close` and never after one. -/
theorem succeed_lawful_iff (h : Sane s) (hbusy : s.stage.waits = true) :
    s.closeCalled = false ↔ Lawful s s.succeed := by
  constructor
  · intro hopen
    have hsucceed : s.succeed = { s with state := .connected, stage := .opened } := by
      unfold succeed
      rw [h.connecting hopen hbusy]
      rfl
    rw [hsucceed]
    refine ⟨rfl, fun hcalled => ?_⟩
    rw [hopen] at hcalled
    cases hcalled
  · intro hlawful
    cases hcalled : s.closeCalled with
    | false => rfl
    | true =>
      exfalso
      unfold succeed at hlawful
      split at hlawful
      · have hlength := congrArg List.length hlawful.legal
        simp [throw] at hlength
      · rename_i state hstate
        have hconn : state = .connected := by
          unfold stateTransition makeStateMachine at hstate
          split at hstate
          · exact (Except.ok.inj hstate).symm
          · split at hstate
            · exact (Except.ok.inj hstate).symm
            · cases hstate
        exact h.unconnected hbusy ((hlawful.final hcalled).1 hconn)

/-- So is its callback. -/
theorem opened_lawful_iff : s.closeCalled = false ↔ Lawful s (s.callBack none) := by
  constructor
  · intro hopen
    refine ⟨rfl, fun hcalled => ?_⟩
    rw [hopen] at hcalled
    cases hcalled
  · intro hlawful
    cases hcalled : s.closeCalled with
    | false => rfl
    | true =>
      obtain ⟨-, calls, hcalls, hnone⟩ := hlawful.final hcalled
      have heq : [none] = calls := List.append_cancel_left hcalls
      exact absurd (heq ▸ List.mem_singleton_self none) hnone

/-- The exact condition on one event. -/
theorem lawful_iff (h : Sane s) (hstep : step credentials s e = some s') :
    SucceedsOpen credentials s e ↔ Lawful s s' := by
  have hquiet : e.succeeds credentials = false → Quiet s s' → (SucceedsOpen credentials s e ↔ Lawful s s') := by
    intro hsucceeds hq
    refine iff_of_true (fun htrue => ?_) hq.lawful
    rw [hsucceeds] at htrue
    cases htrue
  cases step_moves hstep with
  | connect hevent hidle =>
    refine hquiet hevent ?_
    rw [h.connect_eq hidle]
    exact .of_eq rfl nofun rfl
  | waits hevent => exact hquiet hevent (.of_eq rfl (fun h => h) rfl)
  | fails hevent err => exact hquiet hevent (quiet_callBack s err)
  | closes hevent sessions err =>
    have hdone : Quiet s { s with stage := .done } := .of_eq rfl (fun h => h) rfl
    exact hquiet hevent ((hdone.trans (quiet_close ..)).trans (quiet_callBack ..))
  | succeeds hevent hbusy =>
    rw [← succeed_lawful_iff h hbusy]
    simp only [SucceedsOpen, hevent, true_imp_iff]
  | opened hevent =>
    rw [← opened_lawful_iff]
    simp only [SucceedsOpen, hevent, true_imp_iff]
  | close hevent sessions callback => exact hquiet hevent (quiet_close s sessions callback)
  | closing hevent hg => exact hquiet hevent hg.quiet

/-- For every run of one `connect` with calls of `close`, outcomes of the selection and of the ping in any order: no
illegal transition is thrown, and after a call of `close` the topology never becomes connected nor does `connect`
succeed, exactly when neither the last step of `connect` nor its callback comes after a call of `close`. -/
theorem lifecycle_lawful_iff (credentials : Bool) (es : List LifecycleEvent) (s : Lifecycle)
    (hrun : Run.exec (step credentials) {} es = some s) :
    (∀ es₁ e es₂ u v, es = es₁ ++ e :: es₂ → Run.exec (step credentials) {} es₁ = some u →
        step credentials u e = some v → Lawful u v) ↔
      Run.Meets (step credentials) (SucceedsOpen credentials) {} es :=
  (Run.meets_iff_steps_inv (step credentials) (fun _ _ _ h hstep => step_sane h hstep)
    (fun _ _ _ h hstep => lawful_iff h hstep) sane_init hrun).symm

/-- A topology is opened with credentials, and closed. -/
def openedAndClosed : List LifecycleEvent :=
  [.connect, .selectServer, .selected (.ok true) 0, .pinged (.ok ()), .opened, .close 0 true,
    .pooledSessionsEnded 0 1, .serverDestroyed 0]

theorem openedAndClosed_lawful : ∃ s, Run.exec (step true) {} openedAndClosed = some s ∧ s.connectCalls = [none] ∧
    s.state = .closed ∧ ∀ es₁ e es₂ u v, openedAndClosed = es₁ ++ e :: es₂ → Run.exec (step true) {} es₁ = some u →
      step true u e = some v → Lawful u v := by
  refine ⟨_, rfl, rfl, rfl, (lifecycle_lawful_iff true openedAndClosed _ rfl).2 ?_⟩
  have hno : ∀ {s : Lifecycle} {e : LifecycleEvent}, e.succeeds true = false → SucceedsOpen true s e := by
    intro s e he htrue
    rw [he] at htrue
    cases htrue
  exact .cons (hno rfl) rfl <| .cons (hno rfl) rfl <| .cons (hno rfl) rfl <| .cons (fun _ => rfl) rfl <|
    .cons (fun _ => rfl) rfl <| .cons (hno rfl) rfl <| .cons (hno rfl) rfl <| .cons (hno rfl) rfl trivial

/-- The ping is under way when the topology is closed, on a connection that `close` does not wait for. -/
def closedWhilePinging : List LifecycleEvent :=
  [.connect, .selectServer, .selected (.ok true) 0, .close 0 true, .pooledSessionsEnded 0 1, .serverDestroyed 0]

/-- Its answer throws, and the callback of `connect` is never called. -/
theorem ping_after_close_throws : ∃ u v, Run.exec (step true) {} closedWhilePinging = some u ∧ u.state = .closed ∧
    u.closeCalls = 1 ∧ step true u (.pinged (.ok ())) = some v ∧ v.thrown =
      [{ cls := .mongoRuntimeError
         message := "illegal state transition from [closed] => [connected], allowed: [closed,connecting]" }] ∧
    v.connectCalls = [] ∧ ¬ Lawful u v := by
  refine ⟨_, _, rfl, rfl, rfl, rfl, by decide, rfl, fun hlawful => ?_⟩
  have hlength := congrArg List.length hlawful.legal
  cases hlength

end Lifecycle

end MongoDriver.Sdam
