/-
Resuming a change stream (`src/change_stream.ts`): after an error that is resumable the stream has no cursor until
the topology is connected again and a new cursor has been tried, and the calls made in between wait in a queue. A
stream is read as an iterator, by calls that may overlap, or as an emitter with a listener for its changes. What is
under way is answered by later events, in any order; an answer that comes at once is the next event.
-/
import MongoDriver.Cursor.ChangeStream
import MongoDriver.Base.Run

namespace MongoDriver.Cursor

/-- A request in `kResumeQueue`: the callback that a method passed to `getCursor`, or `() => this.next(cb)`. Callers
are numbered in the order of their calls. -/
inductive Request
  | getCursor (m : Method) (caller : Nat)
  | next (caller : Nat)
deriving DecidableEq

/-- What follows when `close` is done: the callback of the caller, that of `closeWithError`, or the end of a resume
that failed. -/
inductive AfterClose
  | caller (k : Nat)
  | withError (callback : Option Nat) (error : AnyError)
  | unresumable (error : AnyError)
deriving DecidableEq

/-- What is under way: a method of the cursor, the wait for the topology, the `hasNext` of a new cursor, or the end of
a cursor that is being closed. -/
inductive Flight
  | operation (m : Method) (caller : Nat)
  | waiting (callback : Option Nat)
  | probing (callback : Nat) (cursor : Nat)
  | closing (after : AfterClose)
deriving DecidableEq

/-- One run of `processResumeQueue`: the requests in the order they were made, and those it called, in its order, each
with an error or the stream's cursor. -/
structure Drain where
  queued : List Request
  called : List (Request × Except AnyError Nat)

structure ResumableStream where
  /-- `kClosed` -/
  closed : Bool := false
  cursor : Option Nat
  /-- whether each of the cursors the stream created is closed -/
  cursors : List Bool
  /-- the stream has a listener for its changes -/
  emitter : Bool
  /-- the cursor whose stream `kCursorStream` is -/
  cursorStream : Option Nat
  queue : List Request := []
  flights : List Flight := []
  /-- the calls made so far -/
  calls : Nat := 0
  /-- the callbacks that were called -/
  answered : List (Nat × Except AnyError Unit) := []
  drains : List Drain := []
  /-- the `change` events emitted -/
  changes : Nat := 0
  /-- the `change` events that had been emitted when a `close` was first done -/
  closeDone : Option Nat := none

def noCursor : AnyError :=
  { cls := .mongoChangeStreamError, message := "ChangeStream has no cursor" }

namespace ResumableStream

variable {τ : Type} (s : ResumableStream)

/-- The stream as it is constructed and, for an emitter, its listener added. -/
def new (emitter : Bool) : ResumableStream :=
  { cursor := some 0, cursors := [false], emitter, cursorStream := if emitter then some 0 else none }

/-! ## Callers and requests -/

def answer (k : Nat) (result : Except AnyError Unit) : ResumableStream :=
    { s with answered := s.answered ++ [(k, result)] }

/-- `cursor.next(...)`, `cursor.hasNext(...)` or `cursor.tryNext(...)`. -/
def operate (m : Method) (k : Nat) : ResumableStream := { s with flights := s.flights ++ [.operation m k] }

/-- A method of the stream: `getCursor`, and the callback it is called with. -/
def begin (m : Method) (k : Nat) : ResumableStream :=
  if s.closed then s.answer k (.error changeStreamClosed)
  else
    match s.cursor with
    | some _ => s.operate m k
    -- no cursor, queue callback until topology reconnects
    | none => { s with queue := s.queue ++ [.getCursor m k] }

/-- `request(err, changeStream.cursor)`. -/
def callRequest (err : Option AnyError) : Request → ResumableStream
  | .getCursor m k =>
    match err, s.cursor with
    | some e, _ => s.answer k (.error e)
    | none, none => s.answer k (.ok ())
    | none, some _ => s.operate m k
  | .next k => s.begin .next k

/-- The loop of `processResumeQueue`, with the requests called so far. No request it calls queues another one while
the stream has a cursor or is closed, so the length of the queue bounds it. -/
def drainQueue (err : Option AnyError) :
    Nat → ResumableStream → List (Request × Except AnyError Nat) →
      ResumableStream × List (Request × Except AnyError Nat)
  | 0, s, called => (s, called)
  | fuel + 1, s, called =>
    match s.queue.getLast? with
    | none => (s, called)
    | some request =>
      let s := { s with queue := s.queue.dropLast }
      match err with
      | some e => drainQueue err fuel (s.callRequest (some e) request) (called ++ [(request, .error e)])
      | none =>
        if s.closed then
          (s.callRequest (some changeStreamClosed) request, called ++ [(request, .error changeStreamClosed)])
        else
          match s.cursor with
          | none => (s.callRequest (some noCursor) request, called ++ [(request, .error noCursor)])
          | some c => drainQueue err fuel (s.callRequest none request) (called ++ [(request, .ok c)])

/-- A round of the loop calls the last request, with an error or the cursor, and ends there or goes on. -/
theorem drainQueue_append {s : ResumableStream} (err : Option AnyError) (fuel : Nat)
    (called : List (Request × Except AnyError Nat)) {requests : List Request} {request : Request}
    (hqueue : s.queue = requests ++ [request]) :
    ∃ err' result, (err' = none → s.cursor.isSome = true) ∧
      let t := { s with queue := requests }.callRequest err' request
      let called' := called ++ [(request, result)]
      drainQueue err (fuel + 1) s called = (t, called') ∨
      drainQueue err (fuel + 1) s called = drainQueue err fuel t called' := by
  have hlast : s.queue.getLast? = some request := by simp [hqueue]
  have hinit : s.queue.dropLast = requests := by simp [hqueue]
  simp only [drainQueue, hlast, hinit]
  cases err with
  | some e => exact ⟨some e, .error e, by simp, .inr rfl⟩
  | none =>
    cases hclosed : s.closed with
    | true => exact ⟨some changeStreamClosed, .error changeStreamClosed, by simp, .inl rfl⟩
    | false =>
      cases hcursor : s.cursor with
      | none => exact ⟨some noCursor, .error noCursor, by simp, .inl rfl⟩
      | some c => exact ⟨none, .ok c, by simp, .inr rfl⟩

theorem drainQueue_nil {s : ResumableStream} (err : Option AnyError) (fuel : Nat)
    (called : List (Request × Except AnyError Nat)) (hqueue : s.queue = []) :
      drainQueue err fuel s called = (s, called) := by
  cases fuel with
  | zero => rfl
  | succ fuel => simp [drainQueue, hqueue]

def processResumeQueue (err : Option AnyError) : ResumableStream :=
  let (t, called) := drainQueue err s.queue.length s []
  { t with drains := t.drains ++ [{ queued := s.queue, called }] }

/-! ## Closing -/

/-- The callback of `close`. -/
def finishClose (after : AfterClose) : ResumableStream :=
  let s := { s with closeDone := s.closeDone <|> some s.changes }
  match after with
  | .caller k => s.answer k (.ok ())
  | .withError (some k) error => s.answer k (.error error)
  | .withError none _ => s
  | .unresumable error => s.processResumeQueue (some error)

/-- `cursor.close()`: the cursor counts as closed from the call on. -/
def closeCursor (c : Nat) : ResumableStream := { s with cursors := s.cursors.set c true }

def close (after : AfterClose) : ResumableStream :=
  let s := { s with closed := true }
  match s.cursor with
  | none => s.finishClose after
  | some c => { s.closeCursor c with flights := s.flights ++ [.closing after] }

def closeWithError (error : AnyError) (callback : Option Nat) : ResumableStream := s.close (.withError callback error)

/-! ## Changes and errors -/

/-- The callback, if there is one. -/
def callBack (callback : Option Nat) (result : Except AnyError Unit) : ResumableStream :=
  match callback with
  | some k => s.answer k result
  | none => s

def processNewChange (change : Option (Change τ)) (callback : Option Nat) : ResumableStream :=
  if s.closed then s.callBack callback (.error changeStreamClosed)
  else
    match change with
    -- a null change means the cursor has been notified, implicitly closing the change stream
    | none => s.closeWithError { cls := .mongoRuntimeError, message := changeStreamClosedMessage } callback
    | some change =>
      if change.id.isNone then s.closeWithError noResumeToken callback
      else
        match callback with
        | some k => s.answer k (.ok ())
        | none => { s with changes := s.changes + 1 }

/-- `processError`, up to the wait for the topology. -/
def processError (maxWireVersion : Nat) (error : AnyError) (callback : Option Nat) : ResumableStream :=
  -- if the change stream has been closed explicitly, do not process error
  if s.closed then s.callBack callback (.error changeStreamClosed)
  else
    match s.cursor with
    | none => s.closeWithError error callback
    | some c =>
      if error.isResumableError maxWireVersion then
        { s.closeCursor c with
          cursor := none
          cursorStream := none
          flights := s.flights ++ [.waiting callback] }
      else s.closeWithError error callback

/-- `resumeWithCursor` of `processError`. -/
def resumeWithCursor (c : Nat) : ResumableStream := { s with cursor := some c }.processResumeQueue none

/-- `unresumableError` of `processError`. -/
def unresumableError (error : AnyError) : ResumableStream := s.close (.unresumable error)

/-- `createChangeStreamCursor`; an emitter listens to the new cursor's stream. -/
def createCursor : ResumableStream :=
  { s with
    cursors := s.cursors ++ [false]
    cursorStream := if s.emitter then some s.cursors.length else s.cursorStream }

/-! ## Runs -/

/-- A call of a method or of `close`, an answer to something under way, or an event of the cursor's stream. An answer
is an error, or the change that `next` gets; the others take any value for a success. -/
inductive ResumeEvent (τ : Type)
  | call (m : Method)
  | close
  | answer (i : Nat) (result : Except AnyError (Option (Change τ)))
  | data (change : Option (Change τ))
  | streamError (error : AnyError)

/-- What an answer leads to. -/
def receive (maxWireVersion : Nat) (result : Except AnyError (Option (Change τ))) : Flight → ResumableStream
  | .operation m k =>
    if m = .next then
      match result with
      | .error e => { s with queue := s.queue ++ [Request.next k] }.processError maxWireVersion e (some k)
      | .ok change => s.processNewChange change (some k)
    else s.answer k (result.map fun _ => ())
  | .waiting callback =>
    match result, callback with
    -- if the topology can't reconnect, close the stream
    | .error e, _ => s.unresumableError e
    -- attempt to continue in emitter mode
    | .ok _, none => s.createCursor.resumeWithCursor s.cursors.length
    -- attempt to continue in iterator mode
    | .ok _, some k => { s.createCursor with flights := s.flights ++ [.probing k s.cursors.length] }
  | .probing _ c =>
    match result with
    -- a cursor cleans itself up after an error
    | .error e => (s.closeCursor c).unresumableError e
    | .ok _ => s.resumeWithCursor c
  | .closing after => { s with cursorStream := none, cursor := none }.finishClose after

def step (maxWireVersion : Nat) (s : ResumableStream) : ResumeEvent τ → Option ResumableStream
  | .call m => if s.emitter then none else some ({ s with calls := s.calls + 1 }.begin m s.calls)
  | .close => some ({ s with calls := s.calls + 1 }.close (.caller s.calls))
  | .answer i result =>
    match s.flights[i]? with
    | none => none
    | some f => some ({ s with flights := s.flights.eraseIdx i }.receive maxWireVersion result f)
  | .data change => if s.cursorStream.isSome then some (s.processNewChange change none) else none
  | .streamError error => if s.cursorStream.isSome then some (s.processError maxWireVersion error none) else none

section Steps

variable {maxWireVersion : Nat} {s t : ResumableStream}

theorem step_call {m : Method} (h : step maxWireVersion s (.call m : ResumeEvent τ) = some t) :
    s.emitter = false ∧ t = { s with calls := s.calls + 1 }.begin m s.calls := by
  cases hemitter : s.emitter with
  | true => simp [step, hemitter] at h
  | false =>
    simp only [step, hemitter] at h
    exact ⟨rfl, (Option.some.inj h).symm⟩

theorem step_data {change : Option (Change τ)} (h : step maxWireVersion s (.data change) = some t) :
    s.cursorStream.isSome = true ∧ t = s.processNewChange change none := by
  cases hstream : s.cursorStream.isSome with
  | false => simp [step, hstream] at h
  | true =>
    simp only [step, hstream, if_true] at h
    exact ⟨rfl, (Option.some.inj h).symm⟩

theorem step_streamError {error : AnyError} (h : step maxWireVersion s (.streamError error : ResumeEvent τ) = some t) :
    s.cursorStream.isSome = true ∧ t = s.processError maxWireVersion error none := by
  cases hstream : s.cursorStream.isSome with
  | false => simp [step, hstream] at h
  | true =>
    simp only [step, hstream, if_true] at h
    exact ⟨rfl, (Option.some.inj h).symm⟩

/-- An answer ends what is under way at its position. -/
theorem step_answer {i : Nat} {result : Except AnyError (Option (Change τ))}
    (h : step maxWireVersion s (.answer i result) = some t) :
    ∃ before f after, s.flights[i]? = some f ∧ s.flights = before ++ f :: after ∧
      t = { s with flights := before ++ after }.receive maxWireVersion result f := by
  unfold step at h
  cases hf : s.flights[i]? with
  | none => simp [hf] at h
  | some f =>
    simp only [hf, Option.some.injEq] at h
    obtain ⟨hlt, hget⟩ := List.getElem?_eq_some_iff.1 hf
    refine ⟨s.flights.take i, f, s.flights.drop (i + 1), rfl, ?_, ?_⟩
    · rw [← hget, ← List.drop_eq_getElem_cons hlt, List.take_append_drop]
    · rw [← List.eraseIdx_eq_take_drop_succ, ← h]

end Steps

end ResumableStream

end MongoDriver.Cursor
