/-
Change streams (`src/change_stream.ts`): the cursor under a stream with the resume token it keeps, and the
stream read as an iterator through `next`, `tryNext` and `hasNext`. The server is the list of its batches to
come. A call whose request is not answered does not come back, nor does one that waits for a new cursor,
which is `none`.
-/
import MongoDriver.Cursor.AbstractCursor

namespace MongoDriver.Cursor

/-! ## Changes and batches -/

/-- A change document, of which the `_id` is read: the token to resume after the change. -/
structure Change (τ : Type) where
  id : Option τ
deriving DecidableEq

/-- A reply to the aggregate or to a `getMore` of a change stream. -/
structure Batch (τ : Type) where
  cursorId : Int
  changes : List (Change τ)
  postBatchResumeToken : Option τ := none
deriving DecidableEq

variable {τ : Type}

def Batch.reply (b : Batch τ) : Except AnyError (Reply (Change τ)) := .ok (.cursor b.cursorId b.changes)

/-! ## The cursor of a change stream -/

structure ChangeStreamOptions (τ : Type) where
  resumeAfter : Option τ := none
  startAfter : Option τ := none

/-- What a cursor reads of its topology and its server. -/
structure Deployment where
  hasSessionSupport : Bool
  loadBalanced : Bool
  maxWireVersion : Nat

/-- `ChangeStreamCursor`. Its documents are changes; nothing maps them. -/
structure ChangeStreamCursor (τ : Type) where
  cursor : AbstractCursor (Change τ) Empty
  resumeToken : Option τ
  postBatchResumeToken : Option τ := none
  hasReceived : Bool := false
  deployment : Deployment

namespace ChangeStreamCursor

/-- The constructor. A session of the options is not among those that it is given. -/
def new (options : ChangeStreamOptions τ) (deployment : Deployment) : ChangeStreamCursor τ :=
  { cursor := {}, resumeToken := options.startAfter <|> options.resumeAfter, deployment }

def env (c : ChangeStreamCursor τ) : CursorEnv (Change τ) Empty :=
  { truthy := fun _ => true
    hasSessionSupport := c.deployment.hasSessionSupport
    loadBalanced := c.deployment.loadBalanced }

def bufferedCount (c : ChangeStreamCursor τ) : Nat := c.cursor.documents.length

/-- `cacheResumeToken`, as a change is delivered. The token of the batch stands for its last change. -/
def cacheResumeToken (c : ChangeStreamCursor τ) (resumeToken : τ) : ChangeStreamCursor τ :=
  if c.bufferedCount = 0 && c.postBatchResumeToken.isSome then
    { c with resumeToken := c.postBatchResumeToken, hasReceived := true }
  else { c with resumeToken := some resumeToken, hasReceived := true }

/-- `_processBatch`, as a batch arrives. -/
def processBatch (c : ChangeStreamCursor τ) (b : Batch τ) : ChangeStreamCursor τ :=
  match b.postBatchResumeToken with
  | none => c
  | some token =>
    let c := { c with postBatchResumeToken := some token }
    if b.changes.isEmpty then { c with resumeToken := some token } else c

/-- A call of a method of the cursor. The base class reads none of the tokens, so that the batches a call took
are processed after it, in their order: `_initialize` and `_getMore` process each as it arrives. -/
def call (c : ChangeStreamCursor τ) (batches : List (Batch τ)) (m : Method) :
    Option (Answer (Change τ) Empty × ChangeStreamCursor τ × List (Batch τ)) := do
  let (answer, r) ← AbstractCursor.call c.env ⟨c.cursor, batches.map Batch.reply⟩ m
  let taken := batches.length - r.replies.length
  some (answer, { (batches.take taken).foldl processBatch c with cursor := r.cursor }, batches.drop taken)

end ChangeStreamCursor

/-! ## The stream -/

inductive ChangeStreamMode
  | iterator
  | emitter
deriving DecidableEq

/-- `ChangeStream`. The cursor of a stream that has been closed is gone. -/
structure ChangeStream (τ : Type) where
  cursor : Option (ChangeStreamCursor τ)
  closed : Bool := false
  mode : Option ChangeStreamMode := none

def changeStreamClosedMessage : String := "ChangeStream is closed"

/-- What a call of a closed stream gets. -/
def changeStreamClosed : AnyError := { cls := .mongoAPIError, message := changeStreamClosedMessage }

def noResumeToken : AnyError :=
  { cls := .mongoChangeStreamError
    message := "A change stream document has been received that lacks a resume token (_id)." }

def notAnIterator : AnyError :=
  { cls := .mongoAPIError
    message := "ChangeStream cannot be used as an iterator after being used as an EventEmitter" }

/-- What a call of a stream calls back with, and what it leaves. -/
structure Called (τ : Type) where
  answer : Answer (Change τ) Empty
  stream : ChangeStream τ
  batches : List (Batch τ)

namespace ChangeStream

def new (options : ChangeStreamOptions τ) (deployment : Deployment) : ChangeStream τ :=
  { cursor := some (.new options deployment) }

/-- The `resumeToken` of a stream that has its cursor. -/
def resumeToken (s : ChangeStream τ) : Option (Option τ) := s.cursor.map (·.resumeToken)

/-- `close`. The cursor is closed with it. -/
def close (s : ChangeStream τ) : ChangeStream τ := { s with cursor := none, closed := true }

/-- `processNewChange`: the change is handed out, or the stream is closed with an error. No change means that
the cursor is at its end. -/
def processNewChange (s : ChangeStream τ) (change : Option (Change τ)) :
    Except AnyError (Change τ) × ChangeStream τ :=
  if s.closed then (.error changeStreamClosed, s)
  else
    match change with
    | none => (.error { cls := .mongoRuntimeError, message := changeStreamClosedMessage }, s.close)
    | some change =>
      match change.id with
      | none => (.error noResumeToken, s.close)
      | some id => (.ok change, { s with cursor := s.cursor.map (·.cacheResumeToken id) })

/-- `processError` of a call that waits for its answer. The stream resumes after an error that is resumable,
and the call is made again once it has. -/
def processError (s : ChangeStream τ) (error : AnyError) : Option (AnyError × ChangeStream τ) :=
  if s.closed then some (changeStreamClosed, s)
  else if s.cursor.any fun c => error.isResumableError c.deployment.maxWireVersion then none
  else some (error, s.close)

/-- `setIsIterator` and `getCursor`, which begin each call. -/
def withCursor (s : ChangeStream τ) (batches : List (Batch τ))
    (body : ChangeStream τ → ChangeStreamCursor τ → Option (Called τ)) : Option (Called τ) :=
  if s.mode = some .emitter then some ⟨.error notAnIterator, s, batches⟩
  else
    let s := { s with mode := some .iterator }
    if s.closed then some ⟨.error changeStreamClosed, s, batches⟩
    else s.cursor.bind (body s)

def hasNext (s : ChangeStream τ) (batches : List (Batch τ)) : Option (Called τ) :=
  s.withCursor batches fun s c => do
    let (answer, c, batches) ← c.call batches .hasNext
    some ⟨answer, { s with cursor := some c }, batches⟩

/-- What `next` does with the answer of the cursor. -/
def processAnswer (s : ChangeStream τ) (answer : Answer (Change τ) Empty)
    (batches : List (Batch τ)) : Option (Called τ) :=
  match answer with
  | .error error => do
    let (error, s) ← s.processError error
    some ⟨.error error, s, batches⟩
  | .item (.document change) =>
    match s.processNewChange (some change) with
    | (.ok change, s) => some ⟨.item (.document change), s, batches⟩
    | (.error error, s) => some ⟨.error error, s, batches⟩
  | _ =>
    match s.processNewChange none with
    | (.ok change, s) => some ⟨.item (.document change), s, batches⟩
    | (.error error, s) => some ⟨.error error, s, batches⟩

def next (s : ChangeStream τ) (batches : List (Batch τ)) : Option (Called τ) :=
  s.withCursor batches fun s c => do
    let (answer, c, batches) ← c.call batches .next
    { s with cursor := some c }.processAnswer answer batches

/-- `tryNext`. Its change does not go through `processNewChange`. -/
def tryNext (s : ChangeStream τ) (batches : List (Batch τ)) : Option (Called τ) :=
  s.withCursor batches fun s c => do
    let (answer, c, batches) ← c.call batches .tryNext
    some ⟨answer, { s with cursor := some c }, batches⟩

/-- A call of a method. -/
def call (s : ChangeStream τ) (batches : List (Batch τ)) : Method → Option (Called τ)
  | .next => s.next batches
  | .tryNext => s.tryNext batches
  | .hasNext => s.hasNext batches

end ChangeStream

end MongoDriver.Cursor
