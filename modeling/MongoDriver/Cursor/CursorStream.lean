/-
The stream over a cursor (`makeCursorStream` in `src/cursor/abstract_cursor.ts`) and the change stream that emits
what comes out of it (`src/change_stream.ts`). The internal `next` is cut at its requests: it runs until it has a
result or waits for a reply. The Readable between the cursor and the change stream holds what was pushed and not yet
emitted as 'data'; it reads when nothing is held, and once more before it emits the only one.
-/
import MongoDriver.Cursor.ChangeStream

namespace MongoDriver.Cursor

variable {δ τ : Type}

/-! ## The internal `next`, request by request -/

/-- The internal `next` up to its result or its request. A request is the result `none`. -/
def pull (env : CursorEnv δ τ) (c : AbstractCursor δ τ) : Option (Option (Item δ τ)) × AbstractCursor δ τ :=
  if c.closed then (some none, c)
  else if !c.documents.isEmpty then
    let (doc, c) := nextDocument env c
    (some doc, c)
  else
    match c.id with
    | none => (none, startSession env c)
    | some _ => if cursorIsDead c then (some none, cleanupCursor env c none) else (none, c)

/-- The cursor after the reply to its first command or to a `getMore`. -/
def holdBatch (c : AbstractCursor δ τ) (id : Int) (batch : List δ) : AbstractCursor δ τ :=
  match c.id with
  | none => receiveFirst c (.cursor id batch)
  | some _ => { c with documents := batch.map .document, id := some (.decoded id) }

/-- The internal `next` goes on with the batch of the reply. -/
def receive (env : CursorEnv δ τ) (c : AbstractCursor δ τ) (id : Int) (batch : List δ) :
    Option (Option (Item δ τ)) × AbstractCursor δ τ :=
  let c := holdBatch c id batch
  if cursorIsDead c then
    let (doc, c) := nextDocument env (cleanupCursor env c none)
    (some doc, c)
  else pull env c

/-- The replies are given one by one to a `next` that waits for them. -/
def serve (env : CursorEnv δ τ) : List (Int × List δ) → Option (Option (Item δ τ)) × AbstractCursor δ τ →
    Option (Option (Item δ τ) × AbstractCursor δ τ × List (Int × List δ))
  | batches, (some doc, c) => some (doc, c, batches)
  | [], (none, _) => none
  | (id, batch) :: rest, (none, c) => serve env rest (receive env c id batch)

/-! ## The stream -/

/-- The Readable of `makeCursorStream`. -/
structure CursorStream (τ : Type) where
  /-- pushed and not yet emitted -/
  pushed : List (Change τ) := []
  reading : Bool := false
  /-- the read waits for a reply -/
  waiting : Bool := false
  ended : Bool := false

def CursorStream.highWaterMark : Nat := 1

/-- `push`. A change that is emitted at once is one whose 'data' follows; the further read that comes after it then is a
read like any other. -/
def CursorStream.push (r : CursorStream τ) : Option (Item (Change τ) Empty) → CursorStream τ
  | some (.document change) => { r with pushed := r.pushed ++ [change], reading := false, waiting := false }
  | some (.mapped value) => value.elim
  -- the stream has ended, and nothing reads any more
  | none => { r with waiting := false, ended := true }

/-- A change stream that emits its changes, with the batches to come, those that came, and what was emitted. -/
structure Emitter (τ : Type) where
  stream : ChangeStream τ
  readable : CursorStream τ := {}
  batches : List (Batch τ)
  received : List (Batch τ) := []
  emitted : List (Change τ) := []

inductive EmitterEvent
  /-- the Readable calls `_read` -/
  | read
  /-- the server answers the request of the read -/
  | reply
  /-- the Readable emits 'data' -/
  | data
deriving DecidableEq

namespace Emitter

/-- A change stream with its first listener. -/
def start (options : ChangeStreamOptions τ) (deployment : Deployment) (h : List (Batch τ)) : Emitter τ :=
  { stream := { ChangeStream.new options deployment with mode := some .emitter }, batches := h }

/-- What `next` came to is pushed, or it waits for the reply. -/
def goOn (s : Emitter τ) (c : ChangeStreamCursor τ)
    (out : Option (Option (Item (Change τ) Empty)) × AbstractCursor (Change τ) Empty) :
    Emitter τ :=
  let s := { s with stream := { s.stream with cursor := some { c with cursor := out.2 } } }
  match out.1 with
  | some result => { s with readable := s.readable.push result }
  | none => { s with readable := { s.readable with waiting := true } }

/-- An event, in a stream that has its cursor. -/
def step (s : Emitter τ) (e : EmitterEvent) : Option (Emitter τ) := do
  let c ← s.stream.cursor
  match e with
  | .read =>
    -- before the one that is held is emitted, its place counts as free
    if s.readable.ended || CursorStream.highWaterMark < s.readable.pushed.length then none
    else if s.readable.reading then some s
    else some ({ s with readable := { s.readable with reading := true } }.goOn c (pull c.env c.cursor))
  | .reply =>
    if !s.readable.waiting then none
    else
      match s.batches with
      | [] => none
      | b :: rest =>
        let c := c.processBatch b
        some ({ s with batches := rest, received := s.received ++ [b] }.goOn c
          (receive c.env c.cursor b.cursorId b.changes))
  | .data =>
    match s.readable.pushed with
    | [] => none
    | change :: rest =>
      let s := { s with readable := { s.readable with pushed := rest } }
      match s.stream.processNewChange (some change) with
      | (.ok change, stream) => some { s with stream, emitted := s.emitted ++ [change] }
      | (.error _, stream) => some { s with stream }

end Emitter

end MongoDriver.Cursor
