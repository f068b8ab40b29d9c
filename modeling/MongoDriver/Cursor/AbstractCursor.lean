/-
Cursors (`src/cursor/abstract_cursor.ts`): reading documents through `next`, `hasNext` and `tryNext`,
the internal `next` that fetches batches, and the cleanup of a cursor that is dead or failed. The
server is the list of its replies to come: the first request takes the first one. A call whose request
is not answered does not come back, which is `none`.
-/
import MongoDriver.Error

namespace MongoDriver.Cursor

/-! ## Cursors and replies -/

/-- A cursor id: the shared object `Long.ZERO`, or one decoded from a reply, which is never that
object. -/
inductive CursorId
  | zero
  | decoded (value : Int)
deriving DecidableEq

def CursorId.isZero : CursorId → Bool
  | .zero => true
  | .decoded value => value = 0

/-- What a cursor buffers and returns: a document of the server, which is an object, or a value of the
transform. -/
inductive Item (δ τ : Type)
  | document (document : δ)
  | mapped (value : τ)
deriving DecidableEq

/-- The response to a request of the cursor: one with a cursor document, or any other (an old server's,
or that of an explain). -/
inductive Reply (δ : Type)
  | cursor (id : Int) (batch : List δ)
  | other (cursorId : Option Int) (documents : List δ) (response : δ)

/-- What is read of the session of a cursor: whether the cursor is its owner, and its transaction; whether it was made
for a caller; and whether it has ended. -/
structure CursorSession where
  owned : Bool
  inTransaction : Bool := false
  explicit : Bool := false
  hasEnded : Bool := false
deriving DecidableEq

inductive CursorEffect
  | emitClose
  | killCursors (id : Option CursorId)
  | endSession (session : CursorSession) (error : Option AnyError)
  | maybeClearPinnedConnection (error : Option AnyError)
deriving DecidableEq

/-- A transform: a function of a document, which `Array.prototype.map` also passes the index and the array. It may
return nothing. -/
abbrev Transform (δ τ : Type) := Item δ τ → Option (Nat × List (Item δ τ)) → Option τ

/-- What does not change while a cursor is read; `truthy` tells which values of the transform are. -/
structure CursorEnv (δ τ : Type) where
  transform : Option (Transform δ τ) := none
  truthy : τ → Bool
  hasSessionSupport : Bool := true
  loadBalanced : Bool := false

/-- `AbstractCursor`. -/
structure AbstractCursor (δ τ : Type) where
  id : Option CursorId := none
  session : Option CursorSession := none
  /-- the cursor has been given its server -/
  server : Bool := false
  documents : List (Item δ τ) := []
  initialized : Bool := false
  closed : Bool := false
  killed : Bool := false
  effects : List CursorEffect := []

/-- A list of replies to come. -/
abbrev Replies (δ : Type) := List (Except AnyError (Reply δ))

variable {δ τ : Type}

def Item.truthy (env : CursorEnv δ τ) : Item δ τ → Bool
  | .document _ => true
  | .mapped value => env.truthy value

/-! ## Cleanup -/

/-- `cursorIsDead`. -/
def cursorIsDead (c : AbstractCursor δ τ) : Bool := c.id.any (·.isZero)

namespace AbstractCursor

/-- The session of a cursor that is done: one it owns is ended, and one outside a transaction gives up
its pinned connection. -/
def releaseSession (c : AbstractCursor δ τ) (error : Option AnyError) : AbstractCursor δ τ :=
  match c.session with
  | none => c
  | some session =>
    if session.owned then
      { c with session := some { session with hasEnded := true }, effects := c.effects ++ [.endSession session error] }
    else if !session.inTransaction then { c with effects := c.effects ++ [.maybeClearPinnedConnection error] }
    else c

def emitClose (c : AbstractCursor δ τ) : AbstractCursor δ τ := { c with effects := c.effects ++ [.emitClose] }

end AbstractCursor

/-- `cleanupCursor`. A cursor that is exhausted on the server is closed only when its buffer is empty,
unless the caller says otherwise. -/
def cleanupCursor (env : CursorEnv δ τ) (c : AbstractCursor δ τ) (error : Option AnyError)
    (needsToEmitClosed : Option Bool := none) : AbstractCursor δ τ :=
  let needsToEmitClosed := needsToEmitClosed.getD c.documents.isEmpty
  -- the connection is gone with the cursor; nothing is killed
  if env.loadBalanced && error.any (·.isNetworkError) then (c.releaseSession error).emitClose
  else if c.id.all (·.isZero) || !c.server then
    let c := if needsToEmitClosed then { c with closed := true, id := some .zero }.emitClose else c
    c.releaseSession error
  else
    let c := { c with killed := true, effects := c.effects ++ [CursorEffect.killCursors c.id] }
    (c.releaseSession error).emitClose

/-! ## Fetching -/

/-- `nextDocument`: the next item of the buffer, transformed. -/
def nextDocument (env : CursorEnv δ τ) (c : AbstractCursor δ τ) : Option (Item δ τ) × AbstractCursor δ τ :=
  match c.documents with
  | [] => (none, c)
  | doc :: rest =>
    let c := { c with documents := rest }
    if doc.truthy env then
      match env.transform with
      | some transform => ((transform doc none).map .mapped, c)
      | none => (some doc, c)
    else (none, c)

/-- What the internal `next` calls back with, and the state it leaves. -/
structure Returned (δ τ : Type) where
  error : Option AnyError := none
  result : Option (Item δ τ) := none
  cursor : AbstractCursor δ τ
  replies : Replies δ

/-- The cursor is cleaned up and what it still has is returned. -/
def finish (env : CursorEnv δ τ) (c : AbstractCursor δ τ) (error : Option AnyError) (replies : Replies δ) :
    Returned δ τ :=
  let (doc, c) := nextDocument env (cleanupCursor env c error)
  { error, result := doc, cursor := c, replies }

/-- A cursor without a session starts one of its own. -/
def startSession (env : CursorEnv δ τ) (c : AbstractCursor δ τ) : AbstractCursor δ τ :=
  if c.session.isNone && env.hasSessionSupport then { c with session := some { owned := true } } else c

/-- The cursor after the response to its first command. A response that is no cursor is returned raw,
by a cursor that is exhausted. -/
def receiveFirst (c : AbstractCursor δ τ) : Reply δ → AbstractCursor δ τ
  | .cursor id batch =>
    { c with server := true, initialized := true, id := some (.decoded id), documents := batch.map .document }
  | .other (some cursorId) documents _ =>
    { c with server := true, initialized := true, id := some (.decoded cursorId), documents := documents.map .document }
  | .other none _ response =>
    { c with server := true, initialized := true, id := some .zero, documents := [.document response] }

/-- The internal `next`. -/
def next (env : CursorEnv δ τ) (blocking : Bool) (replies : Replies δ) (c : AbstractCursor δ τ) :
    Option (Returned δ τ) :=
  if c.closed then some { cursor := c, replies }
  else if !c.documents.isEmpty then
    let (doc, c) := nextDocument env c
    some { result := doc, cursor := c, replies }
  else
    match c.id with
    | none =>
      let c := startSession env c
      match replies with
      | [] => none
      | .error e :: rest => some (finish env { c with initialized := true } (some e) rest)
      | .ok reply :: rest =>
        let c := receiveFirst c reply
        if cursorIsDead c then some (finish env c none rest) else next env blocking rest c
    | some _ =>
      if cursorIsDead c then some { cursor := cleanupCursor env c none, replies }
      else
        match replies with
        | [] => none
        | .error e :: rest => some (finish env c (some e) rest)
        -- reading the id of a cursor that is not there throws, and there is no callback
        | .ok (.other ..) :: _ => none
        | .ok (.cursor id batch) :: rest =>
          let c := { c with documents := batch.map .document, id := some (.decoded id) }
          if cursorIsDead c then some (finish env c none rest)
          else if c.documents.isEmpty && !blocking then some { cursor := c, replies := rest }
          else next env blocking rest c

/-! ## The methods of a cursor -/

def cursorExhausted : AnyError := { cls := .mongoCursorExhaustedError, message := "Cursor is exhausted" }

inductive Method
  | next
  | hasNext
  | tryNext
deriving DecidableEq

/-- What a method calls back with. -/
inductive Answer (δ τ : Type)
  | item (item : Item δ τ)
  | null
  | bool (value : Bool)
  | error (error : AnyError)
deriving DecidableEq

/-- A cursor with the replies to come. -/
structure Reading (δ τ : Type) where
  cursor : AbstractCursor δ τ
  replies : Replies δ

/-- `next` and `tryNext`. -/
def AbstractCursor.fetch (env : CursorEnv δ τ) (blocking : Bool) (r : Reading δ τ) :
    Option (Answer δ τ × Reading δ τ) :=
  if r.cursor.id = some .zero then some (.error cursorExhausted, r)
  else do
    let out ← Cursor.next env blocking r.replies r.cursor
    let answer : Answer δ τ :=
      match out.error, out.result with
      | some e, _ => .error e
      | none, some item => .item item
      | none, none => .null
    some (answer, ⟨out.cursor, out.replies⟩)

/-- `hasNext`. What it fetches it puts back. -/
def AbstractCursor.hasNext (env : CursorEnv δ τ) (r : Reading δ τ) : Option (Answer δ τ × Reading δ τ) :=
  if r.cursor.id = some .zero then some (.bool false, r)
  else if !r.cursor.documents.isEmpty then some (.bool true, r)
  else do
    let out ← Cursor.next env true r.replies r.cursor
    match out.error, out.result with
    | some e, _ => some (.error e, ⟨out.cursor, out.replies⟩)
    | none, some item =>
      if item.truthy env then
        some (.bool true, ⟨{ out.cursor with documents := item :: out.cursor.documents }, out.replies⟩)
      else some (.bool false, ⟨out.cursor, out.replies⟩)
    | none, none => some (.bool false, ⟨out.cursor, out.replies⟩)

/-- A call of a method. -/
def AbstractCursor.call (env : CursorEnv δ τ) (r : Reading δ τ) : Method → Option (Answer δ τ × Reading δ τ)
  | .next => AbstractCursor.fetch env true r
  | .tryNext => AbstractCursor.fetch env false r
  | .hasNext => AbstractCursor.hasNext env r

end MongoDriver.Cursor
