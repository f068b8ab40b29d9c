/-
Messages as they are read off the wire (`src/cmap/commands.ts`): the integers of a buffer, the
message header, and the two classes of a received message with the fields their constructors read.
-/
import MongoDriver.Error

namespace MongoDriver.Cmap

/-- Node's `Buffer`, by its bytes. -/
abbrev Buffer := List UInt8

/-! ## Reading integers -/

/-- The `RangeError` of a read that leaves its buffer. -/
def outOfRange : AnyError := { cls := .error, message := "Attempt to access memory outside buffer bounds" }

/-- The `RangeError` of `new Array(length)` for a negative length. -/
def invalidArrayLength : AnyError := { cls := .error, message := "Invalid array length" }

/-- `buffer.readInt32LE(offset)`. -/
def readInt32LE (buffer : Buffer) (offset : Nat) : Except AnyError Int :=
  match buffer.drop offset with
  | b0 :: b1 :: b2 :: b3 :: _ =>
    let n := b0.toNat + 256 * (b1.toNat + 256 * (b2.toNat + 256 * b3.toNat))
    .ok (if n < 2147483648 then (n : Int) else (n : Int) - 4294967296)
  | _ => .error outOfRange

/-- `buffer.writeInt32LE(value)` into four new bytes, for a value in range. -/
def writeInt32LE (value : Int) : Buffer :=
  let n := (value % 4294967296).toNat
  [UInt8.ofNat n, UInt8.ofNat (n / 256), UInt8.ofNat (n / 65536), UInt8.ofNat (n / 16777216)]

/-- A read succeeds when its four bytes are there. -/
theorem readInt32LE_ok (buffer : Buffer) (offset : Nat) (h : offset + 4 ≤ buffer.length) :
    ∃ n, readInt32LE buffer offset = .ok n := by
  unfold readInt32LE
  have hlen : 4 ≤ (buffer.drop offset).length := by rw [List.length_drop]; omega
  match hd : buffer.drop offset, hlen with
  | b0 :: b1 :: b2 :: b3 :: _, _ => exact ⟨_, rfl⟩

/-- A read within a buffer does not see what follows it. -/
theorem readInt32LE_append (buffer rest : Buffer) (offset : Nat) (h : offset + 4 ≤ buffer.length) :
    readInt32LE (buffer ++ rest) offset = readInt32LE buffer offset := by
  unfold readInt32LE
  rw [List.drop_append_of_le_length (by omega)]
  have hlen : 4 ≤ (buffer.drop offset).length := by rw [List.length_drop]; omega
  match hd : buffer.drop offset, hlen with
  | b0 :: b1 :: b2 :: b3 :: _, _ => rfl

/-! ## Messages -/

def opMsg : Int := 2013
def opCompressed : Int := 2012

structure MessageHeader where
  length : Int
  requestId : Int
  responseTo : Int
  opCode : Int
  /-- set on a message that was compressed, `undefined` otherwise -/
  fromCompressed : Option Bool := none
deriving DecidableEq

/-- `OpResponseOptions`, with the values a message is given when it is built without options. -/
structure OpResponseOptions where
  promoteLongs : Bool := true
  promoteValues : Bool := true
  promoteBuffers : Bool := false
  bsonRegExp : Bool := false
deriving DecidableEq

/-- `(flags & mask) !== 0` on 32-bit flags. -/
def hasFlag (flags : Int) (mask : Nat) : Bool := BitVec.ofInt 32 flags &&& BitVec.ofNat 32 mask != 0

/-- A reply that is not an `OP_MSG`. The array of documents is preallocated, filled by `parse`. -/
structure Response where
  raw : Buffer
  data : Buffer
  header : MessageHeader
  opts : OpResponseOptions := {}
  responseFlags : Int
  /-- the low and the high word of the cursor id -/
  cursorId : Int × Int
  startingFrom : Int
  numberReturned : Int
  /-- the length of the preallocated array -/
  documents : Nat
  cursorNotFound : Bool
  queryFailure : Bool
  shardConfigStale : Bool
  awaitCapable : Bool
deriving DecidableEq

def Response.new (message : Buffer) (msgHeader : MessageHeader) (msgBody : Buffer) : Except AnyError Response := do
  let responseFlags ← readInt32LE msgBody 0
  let low ← readInt32LE msgBody 4
  let high ← readInt32LE msgBody 8
  let startingFrom ← readInt32LE msgBody 12
  let numberReturned ← readInt32LE msgBody 16
  if numberReturned < 0 then .error invalidArrayLength
  else
    .ok { raw := message, data := msgBody, header := msgHeader, responseFlags, cursorId := (low, high),
          startingFrom, numberReturned, documents := numberReturned.toNat,
          cursorNotFound := hasFlag responseFlags 1, queryFailure := hasFlag responseFlags 2,
          shardConfigStale := hasFlag responseFlags 4, awaitCapable := hasFlag responseFlags 8 }

/-- An `OP_MSG`. -/
structure BinMsg where
  raw : Buffer
  data : Buffer
  header : MessageHeader
  opts : OpResponseOptions := {}
  responseFlags : Int
  checksumPresent : Bool
  moreToCome : Bool
  exhaustAllowed : Bool
deriving DecidableEq

def BinMsg.new (message : Buffer) (msgHeader : MessageHeader) (msgBody : Buffer) : Except AnyError BinMsg := do
  let responseFlags ← readInt32LE msgBody 0
  .ok { raw := message, data := msgBody, header := msgHeader, responseFlags,
        checksumPresent := hasFlag responseFlags 1, moreToCome := hasFlag responseFlags 2,
        exhaustAllowed := hasFlag responseFlags 65536 }

/-- What a `'message'` event carries. -/
inductive Message where
  | binMsg (message : BinMsg)
  | response (message : Response)
deriving DecidableEq

/-- `new ResponseType(message, messageHeader, messageBody)`: the class is chosen by the opcode. -/
def Message.new (message : Buffer) (msgHeader : MessageHeader) (msgBody : Buffer) : Except AnyError Message :=
  if msgHeader.opCode = opMsg then .binMsg <$> BinMsg.new message msgHeader msgBody
  else .response <$> Response.new message msgHeader msgBody

end MongoDriver.Cmap
