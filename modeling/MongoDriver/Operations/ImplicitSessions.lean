/-
`executeOperation` (`src/operations/execute_operation.ts`): an operation that was given no session gets one of its own,
which is ended before the callback of the operation is called. Any number of operations are under way at once, and
between two of their steps the topology may learn of a server or be closed. An `execute` that throws does so during the
call of `executeOperation`.
-/
import MongoDriver.Base.Run
import MongoDriver.Sessions.InFlight

namespace MongoDriver.Operations

open Sdam (Server)
open Sessions (Surroundings advance expiredUse sessionsUnsupported snapshotUnsupported)

/-! ## State -/

/-- What a callback received, and the implicit sessions that were open at that moment. -/
structure Answer where
  outcome : Outcome Unit
  sessions : List Nat

inductive CallStage
  /-- it waits for a server that tells whether sessions are supported -/
  | checking
  /-- `executeWithServerSelection` is under way; `during` tells that `executeOperation` has not returned yet -/
  | running (during : Bool) (prog : Prog Unit)
  | settled

def CallStage.isSettled : CallStage → Bool
  | .settled => true
  | _ => false

/-- A call of `executeOperation`. -/
structure Call where
  operation : AbstractOperation
  /-- `operation.session` is there -/
  given : Bool
  /-- the session whose `owner` is the call's -/
  owned : Option Nat := none
  stage : CallStage := .checking
  callbacks : List Answer := []
  thrown : List AnyError := []

/-- The implicit sessions of a topology: those in `sessions` are open, `ended` lists their `ended` events. -/
structure Implicit where
  sessions : List Nat := []
  started : Nat := 0
  ended : List Nat := []
  calls : List Call := []

/-- What a call reads of the topology and of the session it was given. -/
structure Reads where
  env : Surroundings := {}
  view : ExecutionSession := {}
  hasEnded : Bool := false
  snapshotEnabled : Bool := false

namespace Implicit

variable (w : Implicit) (i : Nat)

def setStage (stage : CallStage) : Implicit :=
  { w with calls := w.calls.modify i fun call => { call with stage } }

/-- `session.endSession`, which does nothing the second time. -/
def endSession (s : Nat) : Implicit :=
  if s ∈ w.sessions then { w with sessions := w.sessions.erase s, ended := w.ended ++ [s] } else w

/-- The session is ended if it is the call's own. -/
def endOwned : Implicit :=
  match w.calls[i]?.bind Call.owned with
  | some s => w.endSession s
  | none => w

/-- `cb`, after the end of the call's own session. -/
def callBack (outcome : Outcome Unit) : Implicit :=
  let w := w.endOwned i
  { w with calls := w.calls.modify i fun call =>
      { call with stage := .settled, callbacks := call.callbacks ++ [⟨outcome, w.sessions⟩] } }

/-- The `catch` of `executeOperation`. -/
def throw (error : AnyError) : Implicit :=
  let w := w.endOwned i
  { w with calls := w.calls.modify i fun call => { call with stage := .settled, thrown := call.thrown ++ [error] } }

/-- The program runs to its next wait. -/
def resume (view : ExecutionSession) (during : Bool) (p : Prog Unit) : Implicit :=
  match (advance view p).2 with
  | .callback outcome _ => w.callBack i outcome
  | p => w.setStage i (.running during p)

/-- `topology.startSession({ owner, explicit: false })`. -/
def startSession (p : Prog Unit) : Implicit :=
  { w with
    sessions := w.sessions ++ [w.started]
    started := w.started + 1
    calls := w.calls.modify i fun call => { call with owned := some w.started, stage := .running true p } }

/-- `executeOperation`. -/
def executeOperation (reads : Reads) (call : Call) : Implicit :=
  let run := fun session => executeWithServerSelection reads.env.retryOptions session call.operation
  if reads.env.shouldCheckForSessionSupport then w.setStage i .checking
  else if reads.env.hasSessionSupport then
    if !call.given then (w.startSession i (run (some reads.view))).resume i reads.view true (run (some reads.view))
    else if reads.hasEnded then w.callBack i { error := some expiredUse }
    else if reads.snapshotEnabled && !reads.env.supportsSnapshotReads then
      w.callBack i { error := some snapshotUnsupported }
    else w.resume i reads.view true (run (some reads.view))
  -- the user passed a session that the deployment does not support
  else if call.given then w.callBack i { error := some sessionsUnsupported }
  else w.resume i reads.view true (run none)

end Implicit

/-! ## Runs -/

inductive ImplicitAction
  | executeOperation (operation : AbstractOperation) (given : Bool)
  /-- the selection that tells whether sessions are supported -/
  | checked (i : Nat) (result : Except AnyError Unit)
  | selected (i : Nat) (result : Except AnyError Server)
  | outcome (i : Nat) (outcome : Outcome Unit)
  | threw (i : Nat) (error : AnyError)
  /-- `executeOperation` returns -/
  | returned (i : Nat)
  /-- `close` of the topology ends its sessions -/
  | close

structure ImplicitEvent where
  reads : Reads := {}
  action : ImplicitAction

namespace Implicit

/-- One event. A question is answered once. -/
def step (w : Implicit) (e : ImplicitEvent) : Option Implicit :=
  match e.action with
  | .executeOperation operation given =>
    let call : Call := { operation, given }
    some ({ w with calls := w.calls ++ [call] }.executeOperation w.calls.length e.reads call)
  | .checked i result => do
    let call ← w.calls[i]?
    match call.stage, result with
    | .checking, .error error => some (w.callBack i { error := some error })
    | .checking, .ok _ => some (w.executeOperation i e.reads call)
    | _, _ => none
  | .selected i result => do
    let call ← w.calls[i]?
    match call.stage with
    | .running during (.selectServer _ next) => some (w.resume i e.reads.view during (next result))
    | _ => none
  | .outcome i outcome => do
    let call ← w.calls[i]?
    match call.stage with
    | .running during (.execute _ next) => some (w.resume i e.reads.view during (next outcome))
    | _ => none
  | .threw i error => do
    let call ← w.calls[i]?
    match call.stage with
    | .running true (.execute _ _) => some (w.throw i error)
    | _ => none
  | .returned i => do
    let call ← w.calls[i]?
    match call.stage with
    | .running _ p => some (w.setStage i (.running false p))
    | _ => none
  | .close => some { w with sessions := [], ended := w.ended ++ w.sessions }

end Implicit

/-! ## Programs call back once -/

/-- On every path the program calls back once, as the last thing it does. -/
inductive CallsOnce : Prog Unit → Prop
  | callback (outcome : Outcome Unit) : CallsOnce (.callback outcome .done)
  | selectServer {selector : ServerSelector} {next : Except AnyError Server → Prog Unit}
    (h : ∀ result, CallsOnce (next result)) : CallsOnce (.selectServer selector next)
  | execute {server : Server} {next : Outcome Unit → Prog Unit} (h : ∀ outcome, CallsOnce (next outcome)) :
    CallsOnce (.execute server next)
  | readSession {next : ExecutionSession → Prog Unit} (h : ∀ view, CallsOnce (next view)) :
    CallsOnce (.readSession next)
  | unpin {forceClear : Bool} {next : Prog Unit} (h : CallsOnce next) : CallsOnce (.unpin forceClear next)
  | willRetryWrite {next : Prog Unit} (h : CallsOnce next) : CallsOnce (.willRetryWrite next)

section Programs

variable {options : RetryOptions} {session : Option ExecutionSession} {op : AbstractOperation}
  {selector : ServerSelector}

theorem callsOnce_attempt (server : Server) : CallsOnce (.execute server fun o => .callback o .done) :=
  .execute fun o => .callback o

theorem callsOnce_retryOn (err : AnyError) (selection : Except AnyError Server) :
    CallsOnce (retryOn op session err selection) := by
  cases selection with
  | error e => exact .callback _
  | ok server =>
    unfold retryOn
    simp only
    split
    · exact .callback _
    · split
      · refine .readSession fun view => ?_
        split
        · exact .unpin (callsOnce_attempt server)
        · exact callsOnce_attempt server
      · exact callsOnce_attempt server

theorem callsOnce_callbackWithRetry (o : Outcome Unit) : CallsOnce (callbackWithRetry op session selector o) := by
  unfold callbackWithRetry
  split
  · exact .callback _
  · split
    · exact .callback _
    · split
      · exact .callback _
      · exact .selectServer (callsOnce_retryOn _)

theorem callsOnce_executeOn (selection : Except AnyError Server) :
    CallsOnce (executeOn options session op selector selection) := by
  cases selection with
  | error e => exact .callback _
  | ok server =>
    cases session with
    | none => exact callsOnce_attempt server
    | some s =>
      simp only [executeOn]
      split
      · split
        · exact .willRetryWrite (.execute callsOnce_callbackWithRetry)
        · exact .execute callsOnce_callbackWithRetry
      · exact callsOnce_attempt server

theorem callsOnce_executeWithServerSelection (options : RetryOptions) (session : Option ExecutionSession)
    (op : AbstractOperation) : CallsOnce (executeWithServerSelection options session op) := by
  have hselect : ∀ selector, CallsOnce (.selectServer selector (executeOn options session op selector)) :=
    fun _ => .selectServer callsOnce_executeOn
  unfold executeWithServerSelection
  simp only
  split
  · exact .callback _
  · split
    · refine .unpin ?_
      split
      · exact .callback _
      · exact hselect _
    · split
      · exact .callback _
      · exact hselect _

/-- What a program waits for, it calls back after. -/
theorem CallsOnce.advance {p : Prog Unit} (h : CallsOnce p) (view : ExecutionSession) : CallsOnce (advance view p).2 := by
  induction h with
  | callback outcome => exact .callback outcome
  | selectServer h => exact .selectServer h
  | execute h => exact .execute h
  | readSession _ ih => exact ih view
  | unpin _ ih => exact ih
  | willRetryWrite _ ih => exact ih

end Programs

/-! ## What every run keeps -/

structure Call.Sound (sessions : List Nat) (call : Call) : Prop where
  given : call.given = true → call.owned = none
  checking : call.stage = .checking → call.owned = none
  waits : call.stage.isSettled = false → call.callbacks = [] ∧ call.thrown = []
  program : ∀ during p, call.stage = .running during p → CallsOnce p
  once : call.stage.isSettled = true → call.callbacks.length + call.thrown.length = 1
  ended : call.stage.isSettled = true → ∀ s, call.owned = some s → s ∉ sessions
  before : ∀ answer ∈ call.callbacks, ∀ s, call.owned = some s → s ∉ answer.sessions

/-- Every session that was started is open or has ended, once; an open one has one owner. -/
structure Implicit.Kept (w : Implicit) : Prop where
  numbers : (w.sessions ++ w.ended).Perm (List.range w.started)
  owner : ∀ s ∈ w.sessions, ∃ (i : Nat) (call : Call), w.calls[i]? = some call ∧ call.owned = some s
  apart : ∀ (i j : Nat) (call call' : Call) (s : Nat), w.calls[i]? = some call → w.calls[j]? = some call' →
    call.owned = some s → call'.owned = some s → i = j
  known : ∀ call ∈ w.calls, ∀ s, call.owned = some s → s < w.started
  calls : ∀ call ∈ w.calls, call.Sound w.sessions

section

variable {w : Implicit} {i : Nat} {call : Call} {sessions sessions' : List Nat}

/-- Fewer sessions are open. -/
theorem Call.Sound.mono (h : call.Sound sessions) (hsub : sessions' ⊆ sessions) : call.Sound sessions' where
  given := h.given
  checking := h.checking
  waits := h.waits
  program := h.program
  once := h.once
  ended hsettled s hs hmem := h.ended hsettled s hs (hsub hmem)
  before := h.before

/-- A call is there, changed or as it was. -/
theorem getElem?_modify_cases {α : Type} {xs : List α} {f : α → α} {j : Nat} {y : α}
    (h : (xs.modify i f)[j]? = some y) : ∃ x, xs[j]? = some x ∧ (j = i ∧ y = f x ∨ j ≠ i ∧ y = x) := by
  rw [List.getElem?_modify] at h
  obtain ⟨x, hx, heq⟩ := Option.map_eq_some_iff.1 h
  refine ⟨x, hx, ?_⟩
  by_cases hij : i = j
  · exact .inl ⟨hij.symm, by rw [← heq, if_pos hij]⟩
  · exact .inr ⟨fun hji => hij hji.symm, by rw [← heq, if_neg hij]⟩

namespace Implicit

theorem Kept.nodup (h : w.Kept) : (w.sessions ++ w.ended).Nodup := h.numbers.nodup_iff.2 List.nodup_range

/-- One call changes, and keeps its session. -/
theorem Kept.modify (h : w.Kept) (hcall : w.calls[i]? = some call) {f : Call → Call}
    (howned : (f call).owned = call.owned) (hsound : (f call).Sound w.sessions) :
    Kept { w with calls := w.calls.modify i f } := by
  have hkeeps : ∀ (j : Nat) (call' : Call), (w.calls.modify i f)[j]? = some call' →
      ∃ x : Call, w.calls[j]? = some x ∧ call'.owned = x.owned ∧ call'.Sound w.sessions := by
    intro j call' hj
    obtain ⟨x, hx, ⟨rfl, rfl⟩ | ⟨-, rfl⟩⟩ := getElem?_modify_cases hj
    · obtain rfl := Option.some.inj (hcall.symm.trans hx)
      exact ⟨call, hx, howned, hsound⟩
    · exact ⟨call', hx, rfl, h.calls call' (List.mem_of_getElem? hx)⟩
  constructor
  · exact h.numbers
  · intro s hs
    obtain ⟨j, x, hx, hsx⟩ := h.owner s hs
    by_cases hij : i = j
    · subst hij
      obtain rfl := Option.some.inj (hcall.symm.trans hx)
      exact ⟨i, f call, (List.getElem?_modify_eq f i w.calls).trans (congrArg (f <$> ·) hx), howned.trans hsx⟩
    · exact ⟨j, x, (List.getElem?_modify_ne f w.calls hij).trans hx, hsx⟩
  · intro j k c c' s hj hk hs hs'
    obtain ⟨x, hx, hxo, -⟩ := hkeeps j c hj
    obtain ⟨x', hx', hxo', -⟩ := hkeeps k c' hk
    exact h.apart j k x x' s hx hx' (hxo ▸ hs) (hxo' ▸ hs')
  · intro c hc s hs
    obtain ⟨j, hj⟩ := List.mem_iff_getElem?.1 hc
    obtain ⟨x, hx, hxo, -⟩ := hkeeps j c hj
    exact h.known x (List.mem_of_getElem? hx) s (hxo ▸ hs)
  · intro c hc
    obtain ⟨j, hj⟩ := List.mem_iff_getElem?.1 hc
    obtain ⟨x, -, -, hxs⟩ := hkeeps j c hj
    exact hxs

/-! ### The end of a session -/

theorem Kept.endSession (h : w.Kept) (s : Nat) :
    (w.endSession s).Kept ∧ (w.endSession s).calls = w.calls ∧ s ∉ (w.endSession s).sessions := by
  unfold Implicit.endSession
  split
  · rename_i hmem
    have hnodup := (List.nodup_append.1 h.nodup).1
    refine ⟨?_, rfl, fun hs => (hnodup.mem_erase_iff.1 hs).1 rfl⟩
    constructor
    · have hperm : (w.sessions.erase s ++ (w.ended ++ [s])).Perm (w.sessions ++ w.ended) := by
        have hcons : (w.sessions.erase s ++ (w.ended ++ [s])).Perm (s :: (w.sessions.erase s ++ w.ended)) := by
          rw [← List.append_assoc]
          exact List.perm_append_singleton s _
        exact hcons.trans ((List.perm_cons_erase hmem).symm.append_right w.ended)
      exact hperm.trans h.numbers
    · exact fun s' hs' => h.owner s' (List.mem_of_mem_erase hs')
    · exact h.apart
    · exact h.known
    · exact fun c hc => (h.calls c hc).mono fun _ => List.mem_of_mem_erase
  · rename_i hmem
    exact ⟨h, rfl, hmem⟩

theorem Kept.endOwned (h : w.Kept) (hcall : w.calls[i]? = some call) :
    (w.endOwned i).Kept ∧ (w.endOwned i).calls = w.calls ∧
      ∀ s, call.owned = some s → s ∉ (w.endOwned i).sessions := by
  unfold Implicit.endOwned
  rw [hcall, Option.bind_some]
  cases howned : call.owned with
  | none => exact ⟨h, rfl, fun s hs => by cases hs⟩
  | some s =>
    obtain ⟨hkept, hcalls, hs⟩ := h.endSession s
    refine ⟨hkept, hcalls, fun s' hs' => ?_⟩
    cases hs'
    exact hs

theorem Kept.callBack (h : w.Kept) (hcall : w.calls[i]? = some call) (hwaits : call.stage.isSettled = false)
    (outcome : Outcome Unit) : (w.callBack i outcome).Kept := by
  obtain ⟨hkept, hcalls, hended⟩ := h.endOwned hcall
  have hsound := h.calls call (List.mem_of_getElem? hcall)
  obtain ⟨hcallbacks, hthrown⟩ := hsound.waits hwaits
  refine hkept.modify (hcalls ▸ hcall) rfl ?_
  constructor
  · exact hsound.given
  · intro hchecking
    cases hchecking
  · intro hsettled
    cases hsettled
  · intro _ _ hrunning
    cases hrunning
  · intro _
    simp [hcallbacks, hthrown]
  · exact fun _ => hended
  · intro answer hanswer s hs
    simp only [hcallbacks, List.nil_append, List.mem_singleton] at hanswer
    subst hanswer
    exact hended s hs

theorem Kept.throw (h : w.Kept) (hcall : w.calls[i]? = some call) (hwaits : call.stage.isSettled = false)
    (error : AnyError) : (w.throw i error).Kept := by
  obtain ⟨hkept, hcalls, hended⟩ := h.endOwned hcall
  have hsound := h.calls call (List.mem_of_getElem? hcall)
  obtain ⟨hcallbacks, hthrown⟩ := hsound.waits hwaits
  refine hkept.modify (hcalls ▸ hcall) rfl ?_
  constructor
  · exact hsound.given
  · intro hchecking
    cases hchecking
  · intro hsettled
    cases hsettled
  · intro _ _ hrunning
    cases hrunning
  · intro _
    simp [hcallbacks, hthrown]
  · exact fun _ => hended
  · intro answer hanswer
    rw [hcallbacks] at hanswer
    cases hanswer

/-! ### The steps of a call -/

theorem Kept.setStage (h : w.Kept) (hcall : w.calls[i]? = some call) (hwaits : call.stage.isSettled = false)
    {stage : CallStage} (hstage : stage.isSettled = false) (hchecking : stage = .checking → call.owned = none)
    (hprogram : ∀ during p, stage = .running during p → CallsOnce p) : (w.setStage i stage).Kept := by
  have hsound := h.calls call (List.mem_of_getElem? hcall)
  refine h.modify hcall rfl ?_
  constructor
  · exact hsound.given
  · exact hchecking
  · exact fun _ => hsound.waits hwaits
  · exact hprogram
  · intro hsettled
    cases hstage.symm.trans hsettled
  · intro hsettled
    cases hstage.symm.trans hsettled
  · exact hsound.before

theorem Kept.resume (h : w.Kept) (hcall : w.calls[i]? = some call) (hwaits : call.stage.isSettled = false)
    (view : ExecutionSession) (during : Bool) {p : Prog Unit} (hp : CallsOnce p) :
    (w.resume i view during p).Kept := by
  unfold Implicit.resume
  split
  · exact h.callBack hcall hwaits _
  · refine h.setStage hcall hwaits rfl (fun hchecking => by cases hchecking) ?_
    intro during' p' hrunning
    cases hrunning
    exact hp.advance view

theorem Kept.startSession (h : w.Kept) (hcall : w.calls[i]? = some call) (hwaits : call.stage.isSettled = false)
    (howned : call.owned = none) (hgiven : call.given = false) {p : Prog Unit} (hp : CallsOnce p) :
    (w.startSession i p).Kept := by
  have hfresh : w.started ∉ w.sessions := by
    intro hmem
    have hlt := List.mem_range.1 (h.numbers.subset (List.mem_append_left _ hmem))
    omega
  have hsound := h.calls call (List.mem_of_getElem? hcall)
  have hkeeps : ∀ (j : Nat) (call' : Call), (w.startSession i p).calls[j]? = some call' →
      j = i ∧ call' = { call with owned := some w.started, stage := .running true p } ∨
        j ≠ i ∧ w.calls[j]? = some call' := by
    intro j call' hj
    obtain ⟨x, hx, ⟨rfl, rfl⟩ | ⟨hne, rfl⟩⟩ := getElem?_modify_cases hj
    · obtain rfl := Option.some.inj (hcall.symm.trans hx)
      exact .inl ⟨rfl, rfl⟩
    · exact .inr ⟨hne, hx⟩
  constructor
  · have hperm : ((w.sessions ++ [w.started]) ++ w.ended).Perm (w.sessions ++ w.ended ++ [w.started]) := by
      rw [List.append_assoc, List.append_assoc]
      exact (List.perm_append_comm).append_left w.sessions
    show ((w.sessions ++ [w.started]) ++ w.ended).Perm (List.range (w.started + 1))
    rw [List.range_succ]
    exact hperm.trans (h.numbers.append_right _)
  · intro s hs
    rcases List.mem_append.1 hs with hs | hs
    · obtain ⟨j, x, hx, hsx⟩ := h.owner s hs
      have hne : i ≠ j := by
        rintro rfl
        obtain rfl := Option.some.inj (hcall.symm.trans hx)
        cases howned.symm.trans hsx
      exact ⟨j, x, (List.getElem?_modify_ne _ w.calls hne).trans hx, hsx⟩
    · obtain rfl := List.mem_singleton.1 hs
      refine ⟨i, { call with owned := some w.started, stage := .running true p }, ?_, rfl⟩
      exact (List.getElem?_modify_eq _ i w.calls).trans (congrArg (_ <$> ·) hcall)
  · intro j k c c' s hj hk hs hs'
    rcases hkeeps j c hj with ⟨rfl, rfl⟩ | ⟨-, hx⟩ <;> rcases hkeeps k c' hk with ⟨rfl, rfl⟩ | ⟨-, hx'⟩
    · rfl
    · cases hs
      exact absurd (h.known c' (List.mem_of_getElem? hx') _ hs') (Nat.lt_irrefl _)
    · cases hs'
      exact absurd (h.known c (List.mem_of_getElem? hx) _ hs) (Nat.lt_irrefl _)
    · exact h.apart j k c c' s hx hx' hs hs'
  · intro c hc s hs
    obtain ⟨j, hj⟩ := List.mem_iff_getElem?.1 hc
    rcases hkeeps j c hj with ⟨-, rfl⟩ | ⟨-, hx⟩
    · cases hs
      exact Nat.lt_succ_self _
    · exact (h.known c (List.mem_of_getElem? hx) s hs).trans (Nat.lt_succ_self _)
  · intro c hc
    obtain ⟨j, hj⟩ := List.mem_iff_getElem?.1 hc
    rcases hkeeps j c hj with ⟨-, rfl⟩ | ⟨-, hx⟩
    · constructor
      · intro hg
        cases hgiven.symm.trans hg
      · intro hchecking
        cases hchecking
      · exact fun _ => hsound.waits hwaits
      · intro during p' hrunning
        cases hrunning
        exact hp
      · intro hsettled
        cases hsettled
      · intro hsettled
        cases hsettled
      · intro answer hanswer
        rw [(hsound.waits hwaits).1] at hanswer
        cases hanswer
    · have hold := h.calls c (List.mem_of_getElem? hx)
      refine { hold with ended := fun hsettled s hs hmem => ?_ }
      rcases List.mem_append.1 hmem with hmem | hmem
      · exact hold.ended hsettled s hs hmem
      · obtain rfl := List.mem_singleton.1 hmem
        exact absurd (h.known c (List.mem_of_getElem? hx) _ hs) (Nat.lt_irrefl _)

/-- A call that waits, run once more or for the first time. -/
theorem Kept.executeOperation (h : w.Kept) (hcall : w.calls[i]? = some call) (hstage : call.stage = .checking)
    (reads : Reads) : (w.executeOperation i reads call).Kept := by
  have hwaits : call.stage.isSettled = false := by rw [hstage]; rfl
  have howned := (h.calls call (List.mem_of_getElem? hcall)).checking hstage
  have honce : ∀ session, CallsOnce (executeWithServerSelection reads.env.retryOptions session call.operation) :=
    fun session => callsOnce_executeWithServerSelection _ session _
  unfold Implicit.executeOperation
  simp only
  split
  · refine h.setStage hcall hwaits rfl (fun _ => howned) ?_
    intro _ _ hrunning
    cases hrunning
  · split
    · split
      · rename_i hgiven
        have hstarted := h.startSession hcall hwaits howned (by simpa using hgiven) (honce (some reads.view))
        refine hstarted.resume ((List.getElem?_modify_eq _ i w.calls).trans (congrArg (_ <$> ·) hcall)) rfl _ _ ?_
        exact honce _
      · split
        · exact h.callBack hcall hwaits _
        · split
          · exact h.callBack hcall hwaits _
          · exact h.resume hcall hwaits _ _ (honce _)
    · split
      · exact h.callBack hcall hwaits _
      · exact h.resume hcall hwaits _ _ (honce _)

/-- Another call begins. -/
theorem Kept.append (h : w.Kept) (operation : AbstractOperation) (given : Bool) :
    Kept { w with calls := w.calls ++ [{ operation, given }] } := by
  have hkeeps : ∀ (j : Nat) (c : Call) (s : Nat), (w.calls ++ [({ operation, given } : Call)])[j]? = some c →
      c.owned = some s → w.calls[j]? = some c := by
    intro j c s hj hs
    rcases Nat.lt_or_ge j w.calls.length with hlt | hge
    · rwa [List.getElem?_append_left hlt] at hj
    · rw [List.getElem?_append_right hge] at hj
      obtain rfl := List.mem_singleton.1 (List.mem_of_getElem? hj)
      cases hs
  constructor
  · exact h.numbers
  · intro s hs
    obtain ⟨j, x, hx, hsx⟩ := h.owner s hs
    have hlt : j < w.calls.length := (List.getElem?_eq_some_iff.1 hx).1
    exact ⟨j, x, (List.getElem?_append_left hlt).trans hx, hsx⟩
  · exact fun j k c c' s hj hk hs hs' => h.apart j k c c' s (hkeeps j c s hj hs) (hkeeps k c' s hk hs') hs hs'
  · intro c hc s hs
    obtain ⟨j, hj⟩ := List.mem_iff_getElem?.1 hc
    exact h.known c (List.mem_of_getElem? (hkeeps j c s hj hs)) s hs
  · intro c hc
    rcases List.mem_append.1 hc with hc | hc
    · exact h.calls c hc
    · obtain rfl := List.mem_singleton.1 hc
      constructor
      · exact fun _ => rfl
      · exact fun _ => rfl
      · exact fun _ => ⟨rfl, rfl⟩
      · intro _ _ hrunning
        cases hrunning
      · intro hsettled
        cases hsettled
      · intro hsettled
        cases hsettled
      · intro answer hanswer
        cases hanswer

theorem Kept.close (h : w.Kept) : Kept { w with sessions := [], ended := w.ended ++ w.sessions } where
  numbers := by
    show (w.ended ++ w.sessions).Perm (List.range w.started)
    exact List.perm_append_comm.trans h.numbers
  owner _ hs := absurd hs List.not_mem_nil
  apart := h.apart
  known := h.known
  calls c hc := (h.calls c hc).mono (List.nil_subset _)

theorem Kept.step {e : ImplicitEvent} {w' : Implicit} (h : w.Kept) (hstep : w.step e = some w') : w'.Kept := by
  obtain ⟨reads, action⟩ := e
  cases action with
  | executeOperation operation given =>
    cases hstep
    exact (h.append operation given).executeOperation (List.getElem?_concat_length ..) rfl reads
  | checked i result =>
    obtain ⟨call, hcall, hnext⟩ := Option.bind_eq_some_iff.1 hstep
    cases hstage : call.stage with
    | checking =>
      cases result with
      | error e =>
        simp only [hstage, Option.some.injEq] at hnext
        subst hnext
        exact h.callBack hcall (by rw [hstage]; rfl) _
      | ok _ =>
        simp only [hstage, Option.some.injEq] at hnext
        subst hnext
        exact h.executeOperation hcall hstage reads
    | running during p => simp only [hstage, reduceCtorEq] at hnext
    | settled => simp only [hstage, reduceCtorEq] at hnext
  | selected i result =>
    obtain ⟨call, hcall, hnext⟩ := Option.bind_eq_some_iff.1 hstep
    obtain ⟨during, selector, next, hstage, rfl⟩ :
        ∃ during selector next, call.stage = .running during (.selectServer selector next) ∧
          w.resume i reads.view during (next result) = w' := by
      cases hstage : call.stage with
      | running during p =>
        cases p with
        | selectServer selector next => exact ⟨during, selector, next, rfl, by simpa [hstage] using hnext⟩
        | _ => simp [hstage] at hnext
      | _ => simp [hstage] at hnext
    cases (h.calls call (List.mem_of_getElem? hcall)).program _ _ hstage with
    | selectServer hnext => exact h.resume hcall (by rw [hstage]; rfl) _ _ (hnext result)
  | outcome i outcome =>
    obtain ⟨call, hcall, hnext⟩ := Option.bind_eq_some_iff.1 hstep
    obtain ⟨during, server, next, hstage, rfl⟩ :
        ∃ during server next, call.stage = .running during (.execute server next) ∧
          w.resume i reads.view during (next outcome) = w' := by
      cases hstage : call.stage with
      | running during p =>
        cases p with
        | execute server next => exact ⟨during, server, next, rfl, by simpa [hstage] using hnext⟩
        | _ => simp [hstage] at hnext
      | _ => simp [hstage] at hnext
    cases (h.calls call (List.mem_of_getElem? hcall)).program _ _ hstage with
    | execute hnext => exact h.resume hcall (by rw [hstage]; rfl) _ _ (hnext outcome)
  | threw i error =>
    obtain ⟨call, hcall, hnext⟩ := Option.bind_eq_some_iff.1 hstep
    obtain ⟨server, next, hstage, rfl⟩ :
        ∃ server next, call.stage = .running true (.execute server next) ∧ w.throw i error = w' := by
      cases hstage : call.stage with
      | running during p =>
        cases during with
        | true =>
          cases p with
          | execute server next => exact ⟨server, next, rfl, by simpa [hstage] using hnext⟩
          | _ => simp [hstage] at hnext
        | false => simp [hstage] at hnext
      | _ => simp [hstage] at hnext
    exact h.throw hcall (by rw [hstage]; rfl) error
  | returned i =>
    obtain ⟨call, hcall, hnext⟩ := Option.bind_eq_some_iff.1 hstep
    obtain ⟨during, p, hstage, rfl⟩ :
        ∃ during p, call.stage = .running during p ∧ w.setStage i (.running false p) = w' := by
      cases hstage : call.stage with
      | running during p => exact ⟨during, p, rfl, by simpa [hstage] using hnext⟩
      | _ => simp [hstage] at hnext
    have hp := (h.calls call (List.mem_of_getElem? hcall)).program _ _ hstage
    refine h.setStage hcall (by rw [hstage]; rfl) rfl (fun hchecking => by cases hchecking) ?_
    intro _ _ hrunning
    cases hrunning
    exact hp
  | close =>
    cases hstep
    exact h.close

end Implicit

end

/-- In every run each operation calls back or throws once, when it is settled. Each implicit session that was started
is open or has ended, once; an open one belongs to exactly one operation, which is under way and was given no
session; and when an operation calls back its own session is no longer open. -/
theorem implicit_sessions_end {es : List ImplicitEvent} {w : Implicit} (hrun : Run.exec Implicit.step {} es = some w) :
    (∀ call ∈ w.calls, call.callbacks.length + call.thrown.length = if call.stage.isSettled then 1 else 0) ∧
      (w.sessions ++ w.ended).Perm (List.range w.started) ∧
      (∀ s ∈ w.sessions, ∃ (i : Nat) (call : Call), w.calls[i]? = some call ∧ call.owned = some s ∧
        call.given = false ∧ (∃ during p, call.stage = .running during p) ∧
        ∀ (j : Nat) (call' : Call), w.calls[j]? = some call' → call'.owned = some s → j = i) ∧
      (∀ call ∈ w.calls, ∀ answer ∈ call.callbacks, ∀ s, call.owned = some s → s ∉ answer.sessions) := by
  have h : w.Kept := Run.exec_inv Implicit.step (fun _ _ _ h hstep => h.step hstep)
    ⟨List.Perm.refl _, fun _ hs => absurd hs List.not_mem_nil, fun _ _ _ _ _ hi => absurd hi (by simp),
      fun _ hc => absurd hc List.not_mem_nil, fun _ hc => absurd hc List.not_mem_nil⟩ hrun
  refine ⟨?_, h.numbers, ?_, fun call hcall => (h.calls call hcall).before⟩
  · intro call hcall
    have hsound := h.calls call hcall
    cases hsettled : call.stage.isSettled with
    | true => exact hsound.once hsettled
    | false =>
      obtain ⟨hcallbacks, hthrown⟩ := hsound.waits hsettled
      rw [hcallbacks, hthrown]
      rfl
  · intro s hs
    obtain ⟨i, call, hcall, howned⟩ := h.owner s hs
    have hsound := h.calls call (List.mem_of_getElem? hcall)
    refine ⟨i, call, hcall, howned, ?_, ?_, fun j call' hj hs' => h.apart j i call' call s hj hcall hs' howned⟩
    · cases hgiven : call.given with
      | false => rfl
      | true => cases howned.symm.trans (hsound.given hgiven)
    · cases hstage : call.stage with
      | checking => cases howned.symm.trans (hsound.checking hstage)
      | running during p => exact ⟨during, p, rfl⟩
      | settled => exact absurd hs (hsound.ended (by rw [hstage]; rfl) s howned)

private def onlyMember : Server where
  hostAddress := .tcp "a" 27017 false
  description := { address := "a:27017", type := .rsPrimary }

/-- The session of the operation that is through has ended, the other operation's is open. -/
theorem overlapping_operations_end :
    ∃ es w, Run.exec Implicit.step {} es = some w ∧ w.sessions = [1] ∧ w.ended = [0] ∧
      (w.sessions ++ w.ended).Perm (List.range w.started) ∧
      (∃ (i : Nat) (call : Call), w.calls[i]? = some call ∧ call.owned = some 1 ∧
        ∃ during p, call.stage = .running during p) ∧
      ∀ call ∈ w.calls, ∀ answer ∈ call.callbacks, ∀ s, call.owned = some s → s ∉ answer.sessions := by
  have h : (Run.exec Implicit.step {}
      [{ reads := { env := { shouldCheckForSessionSupport := true } }, action := .executeOperation {} false },
        { action := .executeOperation {} false },
        { action := .checked 0 (.ok ()) },
        { action := .selected 1 (.ok onlyMember) },
        { action := .returned 1 },
        { action := .outcome 1 { result := some () } }]).map (fun w => (w.sessions, w.ended)) = some ([1], [0]) := rfl
  obtain ⟨w, hrun, heq⟩ := Option.map_eq_some_iff.1 h
  obtain ⟨hsessions, hended⟩ := Prod.mk.inj heq
  obtain ⟨-, hperm, hopen, hbefore⟩ := implicit_sessions_end hrun
  obtain ⟨i, call, hcall, howned, -, hrunning, -⟩ := hopen 1 (by rw [hsessions]; exact List.mem_singleton_self 1)
  exact ⟨_, w, hrun, hsessions, hended, hperm, ⟨i, call, hcall, howned, hrunning⟩, hbefore⟩

end MongoDriver.Operations
