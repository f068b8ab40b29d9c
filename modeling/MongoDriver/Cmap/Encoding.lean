/-
Messages as they are written (`src/cmap/commands.ts`): the classes `Query`, `GetMore`, `KillCursor` and `Msg`
and their `toBin`; and `parse`, which reads the documents of a received `OP_MSG`. Each `toBin` allocates a buffer
of the length it computed and writes the fields into it, the first three byte by byte. BSON is a library, and a
parameter here.
-/
import MongoDriver.Base.Filling
import MongoDriver.Cmap.Commands

namespace MongoDriver.Cmap

open Filling

/-! ## Documents -/

/-- The options given to `BSON.serialize`. -/
structure SerializeOptions where
  checkKeys : Bool := false
  serializeFunctions : Bool := false
  ignoreUndefined : Bool := false
deriving DecidableEq

/-- The options given to `BSON.deserialize`. -/
structure DeserializeOptions where
  promoteLongs : Bool := true
  promoteValues : Bool := true
  promoteBuffers : Bool := false
  bsonRegExp : Bool := false
  /-- `validation.utf8` is `{ writeErrors: false }`, or `false` -/
  utf8Validation : Bool := true
  fieldsAsRaw : Option String := none
deriving DecidableEq

/-- What the driver uses of documents: their keys, and the BSON library. -/
structure Documents (δ : Type) where
  /-- `Object.keys` -/
  keys : δ → List String
  serialize : δ → SerializeOptions → Except AnyError Buffer
  deserialize : Buffer → DeserializeOptions → Except AnyError δ

/-! ## Writing into a buffer -/

/-- `(value >> shift) & 0xff`; the shift takes the value as a signed integer of 32 bits. -/
def byteOf (value : Int) (shift : Nat) : UInt8 :=
  UInt8.ofBitVec (((BitVec.ofInt 32 value).sshiftRight shift &&& 255#32).setWidth 8)

/-- The four assignments of an integer, the last byte first. -/
def setInt32 (buffer : Buffer) (index : Nat) (value : Int) : Buffer :=
  (((buffer.set (index + 3) (byteOf value 24)).set (index + 2) (byteOf value 16)).set (index + 1) (byteOf value 8)).set
    index (byteOf value 0)

def utf8 (s : String) : Buffer := s.toList.flatMap String.utf8EncodeChar

/-- `Buffer.byteLength(s)`. -/
def byteLength (s : String) : Nat := (utf8 s).length

/-- The encoding of the characters that fit, none of them cut. -/
def fitting : List Char → Nat → Buffer
  | [], _ => []
  | c :: cs, room =>
    let bytes := String.utf8EncodeChar c
    if bytes.length ≤ room then bytes ++ fitting cs (room - bytes.length) else []

/-- `buffer.write(string, offset, 'utf8')`, which returns the number of bytes written. -/
def writeString (buffer : Buffer) (string : String) (offset : Nat) : Buffer × Nat :=
  let bytes := fitting string.toList (buffer.length - offset)
  (splice buffer offset bytes, bytes.length)

/-- The `RangeError` of a value that the integer type does not hold. -/
def valueOutOfRange : AnyError := { cls := .error, message := "The value of \"value\" is out of range." }

/-- `buffer.writeInt32LE(value, offset)`. -/
def putInt32LE (buffer : Buffer) (value : Int) (offset : Nat) : Except AnyError Buffer :=
  if value < -2147483648 ∨ 2147483647 < value then .error valueOutOfRange
  else if buffer.length < offset + 4 then .error outOfRange
  else .ok (splice buffer offset (writeInt32LE value))

/-- `buffer.writeUInt32LE(value, offset)`. -/
def putUInt32LE (buffer : Buffer) (value : Nat) (offset : Nat) : Except AnyError Buffer :=
  if 4294967295 < value then .error valueOutOfRange
  else if buffer.length < offset + 4 then .error outOfRange
  else .ok (splice buffer offset (writeInt32LE value))

/-- The integers that `Query`, `GetMore` and `KillCursor` begin with; the second zero of the latter two is where
`Query` has its flags. -/
def setHeader (buffer : Buffer) (length requestId opCode flags : Int) : Buffer :=
  let buffer := setInt32 buffer 0 length
  let buffer := setInt32 buffer 4 requestId
  let buffer := setInt32 buffer 8 0
  let buffer := setInt32 buffer 12 opCode
  setInt32 buffer 16 flags

/-- The collection name and its terminator, with the index after it. -/
def setNamespace (buffer : Buffer) (ns : String) (index : Nat) : Buffer × Nat :=
  let (buffer, written) := writeString buffer ns index
  let index := index + written + 1
  (buffer.set (index - 1) 0, index)

/-! ## OP_QUERY -/

def opQuery : Int := 2004
def opGetMore : Int := 2005
def opKillCursors : Int := 2007

/-- `Query`. Its constructor refuses a namespace with a null character. -/
structure Query (δ : Type) where
  ns : String
  ns_valid : Char.ofNat 0 ∉ ns.toList
  query : δ
  numberToSkip : Int := 0
  numberToReturn : Int := 0
  returnFieldSelector : Option δ := none
  requestId : Int
  serializeFunctions : Bool := false
  ignoreUndefined : Bool := false
  checkKeys : Bool := false
  batchSize : Int := 0
  tailable : Bool := false
  secondaryOk : Bool := false
  oplogReplay : Bool := false
  noCursorTimeout : Bool := false
  awaitData : Bool := false
  exhaust : Bool := false
  /-- `partial` -/
  partialResults : Bool := false

namespace Query

variable {δ : Type}

def flags (q : Query δ) : Nat :=
  (if q.tailable then 2 else 0) ||| (if q.secondaryOk then 4 else 0) ||| (if q.oplogReplay then 8 else 0) |||
    (if q.noCursorTimeout then 16 else 0) ||| (if q.awaitData then 32 else 0) ||| (if q.exhaust then 64 else 0) |||
    (if q.partialResults then 128 else 0)

def serializeOptions (q : Query δ) : SerializeOptions :=
  { checkKeys := q.checkKeys, serializeFunctions := q.serializeFunctions, ignoreUndefined := q.ignoreUndefined }

/-- The projection document, if there is one with keys. -/
def projection (docs : Documents δ) (q : Query δ) : Except AnyError (Option Buffer) :=
  match q.returnFieldSelector with
  | none => .ok none
  | some selector =>
    if docs.keys selector ≠ [] then some <$> docs.serialize selector q.serializeOptions else .ok none

/-- The buffer before the documents: allocated, then written once the total length is known. -/
def header (q : Query δ) (totalLength : Nat) : Buffer :=
  let header : Buffer := List.replicate (4 * 4 + 4 + byteLength q.ns + 1 + 4 + 4) 0
  let header := setHeader header totalLength q.requestId opQuery q.flags
  let (header, index) := setNamespace header q.ns 20
  let header := setInt32 header index q.numberToSkip
  setInt32 header (index + 4) q.numberToReturn

/-- `toBin()`, with the query afterwards: its `numberToReturn` is the batch size. -/
def toBin (docs : Documents δ) (q : Query δ) : Except AnyError (Query δ × List Buffer) := do
  let q := if q.batchSize ≠ q.numberToReturn then { q with numberToReturn := q.batchSize } else q
  let headerLength := 4 * 4 + 4 + byteLength q.ns + 1 + 4 + 4
  let query ← docs.serialize q.query q.serializeOptions
  let projection ← q.projection docs
  let totalLength := headerLength + query.length + (projection.map List.length).getD 0
  return (q, q.header totalLength :: query :: projection.toList)

end Query

/-! ## OP_GET_MORE and OP_KILL_CURSORS -/

/-- `cursorId.getLowBits()`, of a `Long`. -/
def getLowBits (cursorId : BitVec 64) : Int := (cursorId.setWidth 32).toInt

/-- `cursorId.getHighBits()`. -/
def getHighBits (cursorId : BitVec 64) : Int := (cursorId.extractLsb' 32 32).toInt

/-- Both words of a cursor id. -/
def setLong (buffer : Buffer) (index : Nat) (cursorId : BitVec 64) : Buffer :=
  setInt32 (setInt32 buffer index (getLowBits cursorId)) (index + 4) (getHighBits cursorId)

/-- `GetMore`, whose namespace nobody checks. -/
structure GetMore where
  numberToReturn : Int := 0
  requestId : Int
  ns : String
  cursorId : BitVec 64

def GetMore.toBin (g : GetMore) : List Buffer :=
  let length := 4 + byteLength g.ns + 1 + 4 + 8 + 4 * 4
  let buffer : Buffer := List.replicate length 0
  let buffer := setHeader buffer length g.requestId opGetMore 0
  let (buffer, index) := setNamespace buffer g.ns 20
  let buffer := setInt32 buffer index g.numberToReturn
  [setLong buffer (index + 4) g.cursorId]

/-- `KillCursor`. The namespace is not written. -/
structure KillCursor where
  ns : String
  requestId : Int
  cursorIds : List (BitVec 64)

/-- The loop over the cursor ids. -/
def setLongs (buffer : Buffer) (index : Nat) : List (BitVec 64) → Buffer
  | [] => buffer
  | id :: ids => setLongs (setLong buffer index id) (index + 8) ids

def KillCursor.toBin (k : KillCursor) : List Buffer :=
  let length := 4 + 4 + 4 * 4 + k.cursorIds.length * 8
  let buffer : Buffer := List.replicate length 0
  let buffer := setHeader buffer length k.requestId opKillCursors 0
  let buffer := setInt32 buffer 20 k.cursorIds.length
  [setLongs buffer 24 k.cursorIds]

/-! ## OP_MSG -/

/-- `Msg`, as its constructor leaves it: the command names its database already. -/
structure Msg (δ : Type) where
  ns : String
  command : δ
  requestId : Int
  serializeFunctions : Bool := false
  ignoreUndefined : Bool := false
  checkKeys : Bool := false
  checksumPresent : Bool := false
  moreToCome : Bool := false
  exhaustAllowed : Bool := false

namespace Msg

variable {δ : Type}

def flags (m : Msg δ) : Nat :=
  (if m.checksumPresent then 1 else 0) ||| (if m.moreToCome then 2 else 0) |||
    (if m.exhaustAllowed then 65536 else 0)

def serializeBson (docs : Documents δ) (m : Msg δ) (document : δ) : Except AnyError Buffer :=
  docs.serialize document
    { checkKeys := m.checkKeys, serializeFunctions := m.serializeFunctions, ignoreUndefined := m.ignoreUndefined }

/-- `makeDocumentSegment`: the buffers it pushes and their length. -/
def makeDocumentSegment (docs : Documents δ) (m : Msg δ) (document : δ) : Except AnyError (List Buffer × Nat) := do
  let payloadTypeBuffer : Buffer := [0]
  let documentBuffer ← m.serializeBson docs document
  return ([payloadTypeBuffer, documentBuffer], payloadTypeBuffer.length + documentBuffer.length)

def toBin (docs : Documents δ) (m : Msg δ) : Except AnyError (List Buffer) := do
  let header : Buffer := List.replicate (4 * 4 + 4) 0
  let (buffers, length) ← m.makeDocumentSegment docs m.command
  let totalLength := header.length + length
  let header ← putInt32LE header totalLength 0
  let header ← putInt32LE header m.requestId 4
  let header ← putInt32LE header 0 8
  let header ← putInt32LE header opMsg 12
  let header ← putUInt32LE header m.flags 16
  return header :: buffers

end Msg

/-! ## Parsing -/

/-- The options of `parse`. -/
structure ParseOptions where
  raw : Bool := false
  documentsReturnedIn : Option String := none
  promoteLongs : Option Bool := none
  promoteValues : Option Bool := none
  promoteBuffers : Option Bool := none
  bsonRegExp : Option Bool := none
  enableUtf8Validation : Option Bool := none

/-- A parsed document, or its bytes. -/
inductive ParsedDocument (δ : Type)
  | raw (bytes : Buffer)
  | document (document : δ)

/-- `buffer.readUInt32LE(offset)`. -/
def readUInt32LE (buffer : Buffer) (offset : Nat) : Except AnyError Nat :=
  match buffer.drop offset with
  | b0 :: b1 :: b2 :: b3 :: _ => .ok (b0.toNat + 256 * (b1.toNat + 256 * (b2.toNat + 256 * b3.toNat)))
  | _ => .error outOfRange

namespace BinMsg

variable {δ : Type}

def payloadTypeUnsupported : AnyError :=
  { cls := .mongoRuntimeError, message := "OP_MSG Payload Type 1 detected unsupported protocol" }

/-- The options given to `BSON.deserialize`. -/
def bsonOptions (m : BinMsg) (options : ParseOptions) : DeserializeOptions where
  promoteLongs := options.promoteLongs.getD m.opts.promoteLongs
  promoteValues := options.promoteValues.getD m.opts.promoteValues
  promoteBuffers := options.promoteBuffers.getD m.opts.promoteBuffers
  bsonRegExp := options.bsonRegExp.getD m.opts.bsonRegExp
  utf8Validation := options.enableUtf8Validation ≠ some false

/-- The loop over the sections, from `index` on. Each turn goes at least one byte further, so that the length of
the data bounds the turns; a section of another type is skipped byte by byte. -/
def parseSections {π : Type} (parseDocument : Buffer → Except AnyError π) (data : Buffer) :
    Nat → Nat → Except AnyError (List π)
  | 0, _ => .ok []
  | fuel + 1, index =>
    match data[index]? with
    | none => .ok []
    | some payloadType =>
      if payloadType = 0 then do
        let bsonSize ← readUInt32LE data (index + 1)
        let document ← parseDocument ((data.drop (index + 1)).take bsonSize)
        let documents ← parseSections parseDocument data fuel (index + 1 + bsonSize)
        return document :: documents
      else if payloadType = 1 then .error payloadTypeUnsupported
      else parseSections parseDocument data fuel (index + 1)

/-- `raw ? bin : BSON.deserialize(bin, bsonOptions)`. -/
def parseDocument (docs : Documents δ) (raw : Bool) (options : DeserializeOptions) (bin : Buffer) :
    Except AnyError (ParsedDocument δ) :=
  if raw then .ok (.raw bin) else .document <$> docs.deserialize bin options

/-- `parse(options)`: the documents. -/
def parse (docs : Documents δ) (m : BinMsg) (options : ParseOptions) : Except AnyError (List (ParsedDocument δ)) := do
  let bsonOptions := m.bsonOptions options
  let documents ← parseSections (parseDocument docs options.raw bsonOptions) m.data m.data.length 4
  -- a single document is parsed after all, with one of its fields left as it is
  match documents, options.documentsReturnedIn.filter (· ≠ "") with
  | [.raw bytes], some field =>
    let doc ← docs.deserialize bytes { bsonOptions with fieldsAsRaw := some field }
    return [.document doc]
  | _, _ => return documents

end BinMsg

end MongoDriver.Cmap
