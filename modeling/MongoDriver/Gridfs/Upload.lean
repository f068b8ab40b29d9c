/-
The upload stream of GridFS (`src/gridfs/upload.ts`): the bytes written are copied through one buffer of the size of
a chunk, which is inserted each time it is full, and the files document is inserted when the last chunk has been
acknowledged. The requests of a stream are answered in any order, between and after the calls.
-/
import MongoDriver.Base.Filling
import MongoDriver.Base.Run
import MongoDriver.Cmap.Commands

namespace MongoDriver.Gridfs

open Cmap (Buffer)

/-- A document of the chunks collection; ids are numbers. -/
structure GridFSChunk where
  files_id : Nat
  n : Int
  data : Buffer
deriving DecidableEq, Repr

/-- A document of the files collection, by what a download reads of it. -/
structure GridFSFile where
  id : Nat
  length : Int
  chunkSize : Nat
deriving DecidableEq, Repr

/-- The callback of a write: the caller's own, which does nothing to the stream, or that of `end(chunk)`. -/
inductive WriteCallback
  | caller
  | writeRemnant
deriving DecidableEq

/-- What waits for the bucket's `index` event. -/
inductive Deferred
  | doWrite (chunk : Buffer) (callback : WriteCallback)
  | writeRemnant
deriving DecidableEq

/-- The variables that the insert callbacks of one `doWrite` share. -/
structure WriteScope where
  outstandingRequests : Int
  callback : WriteCallback
deriving DecidableEq

/-- Where a chunk insert was issued: in the `doWrite` with the given scope, or in `writeRemnant`. -/
inductive Origin
  | doWrite (scope : Nat)
  | writeRemnant
deriving DecidableEq

inductive InsertStatus
  | pending
  | acknowledged
  | failed
deriving DecidableEq

/-- A chunk insert and what became of it. -/
structure ChunkInsert where
  doc : GridFSChunk
  origin : Origin
  status : InsertStatus
deriving DecidableEq

/-- The stream, with the part of its bucket that it reads, the scopes of its writes and its inserts so far. -/
structure GridFSBucketWriteStream where
  id : Nat
  chunkSizeBytes : Nat
  bufToStore : Buffer
  length : Nat
  n : Nat
  pos : Nat
  done : Bool
  streamEnd : Bool
  outstandingRequests : Int
  errored : Bool
  aborted : Bool
  /-- `bucket.s.checkedIndexes` -/
  checkedIndexes : Bool
  /-- the listeners of the bucket's `index` event -/
  waiting : List Deferred
  scopes : List WriteScope
  chunks : List ChunkInsert
  files : List GridFSFile
deriving DecidableEq

/-- `source.copy(target, targetStart, sourceStart, sourceEnd)`. -/
def copy (source target : Buffer) (targetStart sourceStart sourceEnd : Nat) : Buffer :=
  Filling.splice target targetStart (((source.take sourceEnd).drop sourceStart).take (target.length - targetStart))

namespace GridFSBucketWriteStream

variable (stream : GridFSBucketWriteStream)

/-- The stream as it is constructed, on a bucket whose indexes have been checked or not. -/
def new (id chunkSizeBytes : Nat) (checkedIndexes : Bool) : GridFSBucketWriteStream where
  id
  chunkSizeBytes
  bufToStore := List.replicate chunkSizeBytes 0
  length := 0
  n := 0
  pos := 0
  done := false
  streamEnd := false
  outstandingRequests := 0
  errored := false
  aborted := false
  checkedIndexes
  waiting := []
  scopes := []
  chunks := []
  files := []

/-! ## The end of the upload -/

def createFilesDoc : GridFSFile := { id := stream.id, length := stream.length, chunkSize := stream.chunkSizeBytes }

def createChunkDoc (n : Nat) (data : Buffer) : GridFSChunk := { files_id := stream.id, n, data }

/-- `stream.chunks.insertOne(doc)`. -/
def insertChunk (doc : GridFSChunk) (origin : Origin) : GridFSBucketWriteStream :=
  { stream with chunks := stream.chunks ++ [{ doc, origin, status := .pending }] }

def checkDone : GridFSBucketWriteStream :=
  if stream.done then stream
  else if stream.streamEnd ∧ stream.outstandingRequests = 0 ∧ stream.errored = false then
    -- set done so we do not trigger duplicate createFilesDoc
    let stream := { stream with done := true }
    if stream.aborted then stream else { stream with files := stream.files ++ [stream.createFilesDoc] }
  else stream

def writeRemnant : GridFSBucketWriteStream :=
  -- buffer is empty, so don't bother to insert
  if stream.pos = 0 then stream.checkDone
  else
    let stream := { stream with outstandingRequests := stream.outstandingRequests + 1 }
    -- a new buffer, no bigger than it needs to be
    let remnant := copy stream.bufToStore (List.replicate stream.pos 0) 0 0 stream.pos
    let doc := stream.createChunkDoc stream.n remnant
    if stream.aborted then stream else stream.insertChunk doc .writeRemnant

end GridFSBucketWriteStream

def WriteCallback.run (callback : WriteCallback) (stream : GridFSBucketWriteStream) : GridFSBucketWriteStream :=
  match callback with
  | .caller => stream
  | .writeRemnant => stream.writeRemnant

/-! ## Writing -/

/-- The variables of the loop of `doWrite`. -/
structure Flush where
  stream : GridFSBucketWriteStream
  inputBufRemaining : Nat
  spaceRemaining : Nat
  numToCopy : Nat
  outstandingRequests : Int

/-- One round of the loop. Its own `checkAborted` is left out: nothing can abort the stream since the one before the
loop. -/
def Flush.round (inputBuf : Buffer) (scope : Nat) (f : Flush) : Flush :=
  let inputBufPos := inputBuf.length - f.inputBufRemaining
  let stream := { f.stream with
    bufToStore := copy inputBuf f.stream.bufToStore f.stream.pos inputBufPos (inputBufPos + f.numToCopy)
    pos := f.stream.pos + f.numToCopy }
  let spaceRemaining := f.spaceRemaining - f.numToCopy
  let inputBufRemaining := f.inputBufRemaining - f.numToCopy
  if spaceRemaining = 0 then
    let doc := stream.createChunkDoc stream.n stream.bufToStore
    let stream := { stream with outstandingRequests := stream.outstandingRequests + 1 }
    let stream := { stream.insertChunk doc (.doWrite scope) with pos := 0, n := stream.n + 1 }
    { stream, inputBufRemaining, spaceRemaining := stream.chunkSizeBytes
      numToCopy := min stream.chunkSizeBytes inputBufRemaining, outstandingRequests := f.outstandingRequests + 1 }
  else
    { stream, inputBufRemaining, spaceRemaining, numToCopy := min spaceRemaining inputBufRemaining
      outstandingRequests := f.outstandingRequests }

/-- The loop, which copies a byte at least in each round when a chunk has room for one. -/
def Flush.loop (inputBuf : Buffer) (scope : Nat) : Nat → Flush → Flush
  | 0, f => f
  | fuel + 1, f => if f.inputBufRemaining = 0 then f else Flush.loop inputBuf scope fuel (f.round inputBuf scope)

namespace GridFSBucketWriteStream

variable (stream : GridFSBucketWriteStream)

/-- The value is false if the caller should wait for the `drain` event. -/
def doWrite (inputBuf : Buffer) (callback : WriteCallback) : Bool × GridFSBucketWriteStream :=
  if stream.aborted then (false, callback.run stream)
  else
    let stream := { stream with length := stream.length + inputBuf.length }
    -- input is small enough to fit in our buffer
    if stream.pos + inputBuf.length < stream.chunkSizeBytes then
      let stream := { stream with
        bufToStore := copy inputBuf stream.bufToStore stream.pos 0 inputBuf.length
        pos := stream.pos + inputBuf.length }
      (true, callback.run stream)
    else
      -- otherwise, buffer is too big for current chunk, so we need to flush to MongoDB
      let spaceRemaining := stream.chunkSizeBytes - stream.pos
      let flushed := Flush.loop inputBuf stream.scopes.length inputBuf.length
        { stream, inputBufRemaining := inputBuf.length, spaceRemaining
          numToCopy := min spaceRemaining inputBuf.length, outstandingRequests := 0 }
      (false, { flushed.stream with
        scopes := flushed.stream.scopes ++ [{ outstandingRequests := flushed.outstandingRequests, callback }] })

/-- `waitForIndexes(stream, () => ...)`. -/
def waitForIndexes (action : Deferred) (run : GridFSBucketWriteStream → Bool × GridFSBucketWriteStream) :
    Bool × GridFSBucketWriteStream :=
  if stream.checkedIndexes then run stream
  else (true, { stream with waiting := stream.waiting ++ [action] })

def write (chunk : Buffer) (callback : WriteCallback) : Bool × GridFSBucketWriteStream :=
  stream.waitForIndexes (.doWrite chunk callback) fun stream => stream.doWrite chunk callback

/-- `stream.end(chunk)`. -/
def endWith (chunk : Option Buffer) : GridFSBucketWriteStream :=
  if stream.aborted then stream
  else
    let stream := { stream with streamEnd := true }
    match chunk with
    | none => (stream.waitForIndexes .writeRemnant fun stream => (false, stream.writeRemnant)).2
    | some chunk => (stream.write chunk .writeRemnant).2

/-! ## Answers -/

/-- What was deferred until the index check is over. -/
def perform : Deferred → GridFSBucketWriteStream
  | .doWrite chunk callback => (stream.doWrite chunk callback).2
  | .writeRemnant => stream.writeRemnant

/-- The index check of the bucket comes to its end: its listeners run in the order they were added. -/
def emitIndex : GridFSBucketWriteStream :=
  stream.waiting.foldl perform { stream with checkedIndexes := true, waiting := [] }

/-- `__handleError(stream, error)` after a chunk insert; the `error` event is all the caller sees of it. -/
def handleError : GridFSBucketWriteStream := if stream.errored then stream else { stream with errored := true }

def setStatus (i : Nat) (insert : ChunkInsert) (status : InsertStatus) : GridFSBucketWriteStream :=
  { stream with chunks := stream.chunks.set i { insert with status } }

end GridFSBucketWriteStream

/-! ## Runs -/

/-- What the user of a stream calls. -/
inductive Call
  | write (chunk : Buffer)
  | endWith (chunk : Option Buffer)

/-- A call, the end of the index check, or the answer to one of the chunk inserts. An acknowledgement says what the
listeners of the `drain` event call if the stream emits it. -/
inductive Event
  | call (c : Call)
  | index
  | acknowledge (i : Nat) (onDrain : List Call)
  | fail (i : Nat)

/-- A stream and the bytes that were passed to it. -/
structure Upload where
  stream : GridFSBucketWriteStream
  written : Buffer

namespace Upload

/-- No call follows `end`. -/
def call (u : Upload) (c : Call) : Option Upload :=
  if u.stream.streamEnd then none
  else
    match c with
    | .write chunk => some { stream := (u.stream.write chunk .caller).2, written := u.written ++ chunk }
    | .endWith chunk => some { stream := u.stream.endWith chunk, written := u.written ++ chunk.getD [] }

/-- The callback of a chunk insert without an error. -/
def acknowledge (u : Upload) (i : Nat) (insert : ChunkInsert) (onDrain : List Call) : Option Upload := do
  let stream := u.stream.setStatus i insert .acknowledged
  let stream := { stream with outstandingRequests := stream.outstandingRequests - 1 }
  match insert.origin with
  | .writeRemnant => some { u with stream := stream.checkDone }
  | .doWrite scope =>
    let stream := { stream with scopes := stream.scopes.modify scope fun s =>
      { s with outstandingRequests := s.outstandingRequests - 1 } }
    match stream.scopes[scope]? with
    | none => none
    | some local_ =>
      if local_.outstandingRequests = 0 then
        let u ← onDrain.foldlM call { u with stream }
        some { u with stream := (local_.callback.run u.stream).checkDone }
      else some { u with stream }

def step (u : Upload) : Event → Option Upload
  | .call c => u.call c
  | .index => if u.stream.checkedIndexes then none else some { u with stream := u.stream.emitIndex }
  | .acknowledge i onDrain =>
    match u.stream.chunks[i]? with
    | none => none
    | some insert => if insert.status = .pending then u.acknowledge i insert onDrain else none
  | .fail i =>
    match u.stream.chunks[i]? with
    | none => none
    | some insert =>
      if insert.status = .pending then some { u with stream := (u.stream.setStatus i insert .failed).handleError }
      else none

/-- The upload of a new stream. -/
def new (id chunkSizeBytes : Nat) (checkedIndexes : Bool) : Upload where
  stream := .new id chunkSizeBytes checkedIndexes
  written := []

end Upload

end MongoDriver.Gridfs
