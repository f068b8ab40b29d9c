/-
The receiving side of the message stream (`src/cmap/message_stream.ts`, `decompress` of
`src/cmap/wire_protocol/compression.ts`). A chunk is appended to the buffer pool and as many whole
messages as the pool holds are taken out and emitted; a compressed one suspends the loop until its
body is back. The decompressors themselves are outside: they are a parameter.
-/
import MongoDriver.Cmap.BufferPool

namespace MongoDriver.Cmap

/-! ## Decompression -/

/-- The decompressors. Each calls back later with an error or a buffer; a `Snappy` that is not
installed answers with its module error. -/
structure Codecs where
  /-- `Snappy.uncompress` -/
  uncompress : Buffer → Except AnyError Buffer
  /-- `zlib.inflate` -/
  inflate : Buffer → Except AnyError Buffer

/-- The decompressor that a message waits for. -/
inductive Codec where
  | snappy
  | zlib
deriving DecidableEq

/-- What the decompressor calls back with. -/
def Codecs.run (codecs : Codecs) (data : Buffer) : Codec → Except AnyError Buffer
  | .snappy => codecs.uncompress data
  | .zlib => codecs.inflate data

/-- How `decompress` goes: it throws, calls back at once, or starts a decompressor. -/
inductive Decompress where
  | threw (error : AnyError)
  | now (body : Buffer)
  | later (codec : Codec)
deriving DecidableEq

def unsupportedCompressor (compressorID : Nat) : AnyError where
  cls := .mongoDecompressionError
  message := s!"Server sent message compressed using an unsupported compressor. (Received compressor ID {compressorID})"

/-- `decompress(compressorID, compressedData, callback)`. The id is `undefined` in a message that ends
before it, which no comparison refuses. -/
def decompress (compressorID : Option UInt8) (compressedData : Buffer) : Decompress :=
  match compressorID with
  | none => .now compressedData
  | some id =>
    if id.toNat > 2 then .threw (unsupportedCompressor id.toNat)
    else if id.toNat = 1 then .later .snappy
    else if id.toNat = 2 then .later .zlib
    else .now compressedData

/-! ## The stream -/

def messageHeaderSize : Nat := 16

def kDefaultMaxBsonMessageSize : Nat := 1024 * 1024 * 16 * 4

/-- A message whose body is being decompressed, as the callback closes over it. -/
structure Awaiting where
  message : Buffer
  header : MessageHeader
  codec : Codec
  data : Buffer
deriving DecidableEq

/-- A message stream: its fields `maxBsonMessageSize` and `kBuffer`, the suspended decompression, and
what it was seen to do. -/
structure MessageStream where
  maxBsonMessageSize : Nat
  buffer : BufferPool := .new
  awaiting : Option Awaiting := none
  /-- the `'message'` events -/
  emitted : List Message := []
  /-- the chunks written -/
  writes : Nat := 0
  /-- the calls of the callbacks of `_write`, each with its error -/
  callbacks : List (Option AnyError) := []
  /-- the exception that left the stream's code -/
  thrown : Option AnyError := none
deriving DecidableEq

namespace MessageStream

/-- `options.maxBsonMessageSize || kDefaultMaxBsonMessageSize`. -/
def maxSize : Option Nat → Nat
  | none | some 0 => kDefaultMaxBsonMessageSize
  | some n => n

def new (maxBsonMessageSize : Option Nat) : MessageStream := { maxBsonMessageSize := maxSize maxBsonMessageSize }

def callback (stream : MessageStream) (error : Option AnyError) : MessageStream :=
  { stream with callbacks := stream.callbacks ++ [error] }

def throw (stream : MessageStream) (error : AnyError) : MessageStream := { stream with thrown := some error }

def invalidMessageSize (size : Int) : AnyError :=
    { cls := .mongoParseError, message := s!"Invalid message size: {size}" }

def messageTooLarge (size : Int) (max : Nat) : AnyError :=
  { cls := .mongoParseError, message := s!"Invalid message size: {size}, max allowed: {max}" }

def lengthMismatch : AnyError :=
  { cls := .mongoDecompressionError, message := "Message body and message header must be the same length" }

end MessageStream

/-- The header in the first 16 bytes. -/
def MessageHeader.read (message : Buffer) : Except AnyError MessageHeader := do
  let length ← readInt32LE message 0
  let requestId ← readInt32LE message 4
  let responseTo ← readInt32LE message 8
  let opCode ← readInt32LE message 12
  return { length, requestId, responseTo, opCode }

/-- The header of a compressed message: opcode and length are those of the message inside. -/
def MessageHeader.unwrap (header : MessageHeader) (message : Buffer) : Except AnyError MessageHeader := do
  let opCode ← readInt32LE message messageHeaderSize
  let length ← readInt32LE message (messageHeaderSize + 4)
  return { header with fromCompressed := some true, opCode, length }

namespace MessageStream

/-- What the head of the buffer holds. -/
inductive Frame where
  | incomplete
  | invalid (error : AnyError)
  | whole (message : Buffer) (rest : BufferPool)
deriving DecidableEq

/-- The first half of `processIncomingData`, up to `buffer.read(sizeOfMessage)`. -/
def nextFrame (stream : MessageStream) : Except AnyError Frame :=
  if stream.buffer.length < 4 then .ok .incomplete
  else do
    let sizeOfMessage ← readInt32LE (← stream.buffer.peek 4) 0
    if sizeOfMessage < 0 then return .invalid (invalidMessageSize sizeOfMessage)
    else if sizeOfMessage > stream.maxBsonMessageSize then
      return .invalid (messageTooLarge sizeOfMessage stream.maxBsonMessageSize)
    else if sizeOfMessage > stream.buffer.length then return .incomplete
    else
      let (message, rest) ← stream.buffer.read sizeOfMessage true
      return .whole message rest

/-- The end of both branches: the message is emitted and the loop goes on if there may be more. -/
def emitMessage (next : MessageStream → MessageStream) (stream : MessageStream) (message : Buffer)
    (header : MessageHeader) (body : Buffer) : MessageStream :=
  match Message.new message header body with
  | .error e => stream.throw e
  | .ok m =>
    let stream := { stream with emitted := stream.emitted ++ [m] }
    if stream.buffer.length ≥ 4 then next stream else stream.callback none

/-- The callback given to `decompress`. -/
def onDecompress (next : MessageStream → MessageStream) (stream : MessageStream) (message : Buffer)
    (header : MessageHeader) (result : Except AnyError Buffer) : MessageStream :=
  match result with
  | .error e => stream.callback (some e)
  | .ok body =>
    if (body.length : Int) ≠ header.length then stream.callback (some lengthMismatch)
    else stream.emitMessage next message header body

/-- `processIncomingData(stream, callback)`. A turn of the loop that goes on takes a message out of the
buffer, so that the buffer's length bounds the turns. -/
def processIncomingData : Nat → MessageStream → MessageStream
  | 0, stream => stream
  | fuel + 1, stream =>
    match stream.nextFrame with
    | .error e => stream.throw e
    | .ok .incomplete => stream.callback none
    | .ok (.invalid e) => stream.callback (some e)
    | .ok (.whole message rest) =>
      let stream := { stream with buffer := rest }
      match MessageHeader.read message with
      | .error e => stream.throw e
      | .ok header =>
        if header.opCode ≠ opCompressed then
          stream.emitMessage (processIncomingData fuel) message header (message.drop messageHeaderSize)
        else
          match header.unwrap message with
          | .error e => stream.throw e
          | .ok header =>
            let data := message.drop (messageHeaderSize + 9)
            match decompress message[messageHeaderSize + 8]? data with
            | .threw e => stream.throw e
            | .now body => stream.onDecompress (processIncomingData fuel) message header (.ok body)
            | .later codec => { stream with awaiting := some { message, header, codec, data } }

/-- The loop with all the turns it can take. -/
def process (stream : MessageStream) : MessageStream := processIncomingData (stream.buffer.length + 1) stream

/-- `_write(chunk, _, callback)`. -/
def write (stream : MessageStream) (chunk : Buffer) : MessageStream :=
  process { stream with buffer := stream.buffer.append chunk, writes := stream.writes + 1 }

/-- The decompressor calls back. -/
def resume (codecs : Codecs) (stream : MessageStream) (a : Awaiting) : MessageStream :=
  onDecompress process { stream with awaiting := none } a.message a.header (codecs.run a.data a.codec)

/-! ## Runs -/

/-- What happens to a stream. -/
inductive Event where
  | write (chunk : Buffer)
  | decompressed
deriving DecidableEq

/-- `Writable` hands over a chunk once the callback of the chunk before was called without an error. -/
def ready (stream : MessageStream) : Bool :=
  stream.callbacks.length = stream.writes && stream.callbacks.all (· = none) && stream.thrown = none

def step (codecs : Codecs) (stream : MessageStream) : Event → Option MessageStream
  | .write chunk => if stream.ready then some (stream.write chunk) else none
  | .decompressed => stream.awaiting.map (stream.resume codecs)

/-- The chunks of a run. -/
def chunksOf : List Event → List Buffer
  | [] => []
  | .write chunk :: es => chunk :: chunksOf es
  | .decompressed :: es => chunksOf es

end MessageStream

/-! ## One message by itself -/

/-- The body of a compressed message, whichever way `decompress` calls back. -/
def Codecs.body (codecs : Codecs) (compressorID : Option UInt8) (data : Buffer) : Except AnyError Buffer :=
  match decompress compressorID data with
  | .threw e => .error e
  | .now body => .ok body
  | .later codec => codecs.run data codec

/-- A body of the wrong length is refused. -/
def Message.unwrapped (message : Buffer) (header : MessageHeader) (body : Buffer) : Except AnyError Message :=
  if (body.length : Int) ≠ header.length then .error MessageStream.lengthMismatch else Message.new message header body

/-- The meaning of the bytes of one message, without a stream around it. -/
def Message.decode (codecs : Codecs) (message : Buffer) : Except AnyError Message := do
  let header ← MessageHeader.read message
  if header.opCode ≠ opCompressed then Message.new message header (message.drop messageHeaderSize)
  else
    let header ← header.unwrap message
    let body ← codecs.body message[messageHeaderSize + 8]? (message.drop (messageHeaderSize + 9))
    Message.unwrapped message header body

/-- The body has the bytes of the fields that the constructor of the message's class reads. -/
def LongEnough (opCode : Int) (body : Buffer) : Prop := (if opCode = opMsg then 4 else 20) ≤ body.length

instance (opCode : Int) (body : Buffer) : Decidable (LongEnough opCode body) := inferInstanceAs (Decidable (_ ≤ _))

/-- The number of documents of a reply that is not an `OP_MSG` is not negative. -/
def Counted (opCode : Int) (body : Buffer) : Prop :=
  opCode ≠ opMsg → ∀ n, readInt32LE body 16 = .ok n → 0 ≤ n

/-- The message carries the body under the opcode: as it is, or compressed with a supported compressor
and the right uncompressed length. -/
inductive Carries (codecs : Codecs) (message : Buffer) : Int → Buffer → Prop where
  | plain {opCode : Int} (op : readInt32LE message 12 = .ok opCode) (h : opCode ≠ opCompressed) :
    Carries codecs message opCode (message.drop messageHeaderSize)
  | compressed {opCode : Int} {body : Buffer} (id : UInt8) (op : readInt32LE message 12 = .ok opCompressed)
    (inner : readInt32LE message 16 = .ok opCode) (length : readInt32LE message 20 = .ok (body.length : Int))
    (hid : message[messageHeaderSize + 8]? = some id) (supported : id.toNat ≤ 2)
    (hbody : codecs.body (some id) (message.drop (messageHeaderSize + 9)) = .ok body) :
    Carries codecs message opCode body

/-- A well-formed wire message. -/
structure WellFormed (codecs : Codecs) (max : Nat) (message : Buffer) : Prop where
  declared : readInt32LE message 0 = .ok (message.length : Int)
  least : messageHeaderSize ≤ message.length
  most : message.length ≤ max
  body : ∃ opCode body, Carries codecs message opCode body ∧ LongEnough opCode body

end MongoDriver.Cmap
