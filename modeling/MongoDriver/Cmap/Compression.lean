/-
Compression on the wire (`writeCommand` of `src/cmap/message_stream.ts`, `compress` of
`src/cmap/wire_protocol/compression.ts`). The body of a message is compressed and wrapped under a second header
with the opcode and the length it had; the reader puts them back before it looks at the opcode. So a message is
received compressed as it is received plain, as long as the stream allows the size of either. The compressors
are outside, as the decompressors are.
-/
import MongoDriver.Cmap.CommandWrite
import MongoDriver.Cmap.WireFormat

namespace MongoDriver.Cmap

open Write MessageStream

/-! ## Writing -/

/-- The compressors, each with what it calls back with. -/
structure Compressors where
  /-- `Snappy.compress` -/
  compress : Buffer → Except AnyError Buffer
  /-- `zlib.deflate` with the level of its options, if it is set -/
  deflate : Option Nat → Buffer → Except AnyError Buffer

def unknownCompressor : AnyError :=
  { cls := .mongoInvalidArgumentError, message := "Unknown compressor none failed to compress" }

/-- `compress({ options }, dataToBeCompressed, callback)`. -/
def Compressors.run (compressors : Compressors) (zlibCompressionLevel : Option Nat) (data : Buffer) :
    CompressorName → Except AnyError Buffer
  | .snappy => compressors.compress data
  | .zlib => compressors.deflate (zlibCompressionLevel.filter (· ≠ 0)) data
  | .none => .error unknownCompressor

variable {δ : Type}

/-- The body is compressed and wrapped; the length of the message has to fit. -/
def wrap (compressors : Compressors) (zlibCompressionLevel : Option Nat) (op : OperationDescription) (opCode : Int)
    (length : Nat) (data : Buffer) : Except AnyError Buffer := do
  let body ← compressors.run zlibCompressionLevel (data.drop messageHeaderSize) op.agreedCompressor
  if 16 + 9 + body.length > 2147483647 then .error valueOutOfRange
  else return Conn.compressedMessage op opCode length body

/-- What `writeCommand` pushes in the end. -/
def pushedBytes (compressors : Compressors) (zlibCompressionLevel : Option Nat) (conn : Conn δ) (call : WriteCall δ)
    (op : OperationDescription) : Except AnyError Buffer :=
  match conn.writeCommand call op with
  | .threw error => .error error
  | .failed error => .error error
  | .pushed data => .ok data
  | .compressing opCode length => call.toBin >>= wrap compressors zlibCompressionLevel op opCode length

/-- A message as it is given to `write`. -/
def Msg.writeCall (docs : Documents δ) (m : Msg δ) : WriteCall δ where
  requestId := m.requestId
  message := .msg m.command
  commandName := (docs.keys m.command).head?
  toBin := List.flatten <$> m.toBin docs

def Query.writeCall (docs : Documents δ) (q : Query δ) : WriteCall δ where
  requestId := q.requestId
  message := .query
  commandName := (docs.keys q.query).head?
  toBin := (fun r => r.2.flatten) <$> q.toBin docs

/-- The decompressors undo the compressors. -/
structure Inverts (codecs : Codecs) (compressors : Compressors) : Prop where
  snappy : ∀ data body, compressors.compress data = .ok body → codecs.uncompress body = .ok data
  zlib : ∀ level data body, compressors.deflate level data = .ok body → codecs.inflate body = .ok data

/-! ## What is pushed -/

section Pushed

variable {docs : Documents δ} {compressors : Compressors} {level : Option Nat} {conn : Conn δ} {m : Msg δ}
  {buffers : List Buffer} {bytes : Buffer} {ticket : Nat}

theorem Msg.writeCall_toBin (h : m.toBin docs = .ok buffers) : (m.writeCall docs).toBin = .ok buffers.flatten := by
  simp only [Msg.writeCall, h]
  rfl

theorem wrap_ok {op : OperationDescription} {opCode : Int} {length : Nat} {data : Buffer}
    (h : wrap compressors level op opCode length data = .ok bytes) :
    ∃ body, compressors.run level (data.drop messageHeaderSize) op.agreedCompressor = .ok body ∧
      16 + 9 + body.length ≤ 2147483647 ∧ bytes = Conn.compressedMessage op opCode length body := by
  obtain ⟨body, hbody, h⟩ := Run.bind_ok.1 h
  split at h
  · cases h
  · rename_i hfits
    cases h
    exact ⟨body, hbody, by omega, rfl⟩

theorem wrap_fits {op : OperationDescription} {opCode : Int} {length : Nat} {data body : Buffer}
    (hbody : compressors.run level (data.drop messageHeaderSize) op.agreedCompressor = .ok body)
    (hfits : 16 + 9 + body.length ≤ 2147483647) :
    wrap compressors level op opCode length data = .ok (Conn.compressedMessage op opCode length body) := by
  refine Run.bind_ok.2 ⟨body, hbody, ?_⟩
  rw [if_neg (by omega)]
  rfl

/-- A command is pushed as it is, or goes to the compressor, unless that is a `Snappy` that is not installed. -/
theorem writeCommand_cases {call : WriteCall δ} {op : OperationDescription} {data : Buffer} {opCode : Int} {can : Bool}
    (hbin : call.toBin = .ok data) (hcan : Conn.canCompress call = .ok can) (hop : readInt32LE data 12 = .ok opCode) :
    conn.writeCommand call op = .pushed data ∨
      op.agreedCompressor ≠ .none ∧
        (conn.writeCommand call op = .compressing opCode (data.length - 16) ∨
          ∃ error, conn.config.snappyModuleError = some error ∧ conn.writeCommand call op = .failed error) := by
  unfold Conn.writeCommand Conn.compressOrPush
  cases op.agreedCompressor with
  | none => exact .inl (by simp [hbin, bind, Except.bind, pure, Except.pure])
  | snappy =>
    cases can with
    | false => exact .inl (by simp [hbin, hcan, bind, Except.bind, pure, Except.pure])
    | true =>
      refine .inr ⟨fun h => (nomatch h), ?_⟩
      cases hmodule : conn.config.snappyModuleError with
      | none => exact .inl (by simp [hbin, hcan, hop, bind, Except.bind, pure, Except.pure])
      | some error => exact .inr ⟨error, rfl, by simp [hbin, hcan, hop, bind, Except.bind, pure, Except.pure]⟩
  | zlib =>
    cases can with
    | false => exact .inl (by simp [hbin, hcan, bind, Except.bind, pure, Except.pure])
    | true =>
      exact .inr ⟨fun h => (nomatch h), .inl (by simp [hbin, hcan, hop, bind, Except.bind, pure, Except.pure])⟩

/-- A command that may not be compressed is pushed as it is. -/
theorem pushed_uncompressible {call : WriteCall δ} {op : OperationDescription} {name : String}
    (hmessage : call.message = .query ∨ ∃ command, call.message = .msg command) (hname : call.commandName = some name)
    (huncompressible : name ∈ Conn.uncompressibleCommands)
    (h : pushedBytes compressors level conn call op = .ok bytes) : call.toBin = .ok bytes := by
  have hcan : Conn.canCompress call = .ok false := by
    rcases hmessage with hmessage | ⟨command, hmessage⟩
    all_goals simp only [Conn.canCompress, hmessage, hname, Option.all_some, List.contains_iff_mem.2 huncompressible,
      Bool.not_true]
  unfold pushedBytes at h
  cases hbin : call.toBin with
  | error error =>
    have hwritten : conn.writeCommand call op = .threw error := by
      unfold Conn.writeCommand Conn.compressOrPush
      cases op.agreedCompressor <;> simp [hbin, hcan, bind, Except.bind]
    rw [hwritten] at h
    cases h
  | ok data =>
    have hwritten : conn.writeCommand call op = .pushed data := by
      unfold Conn.writeCommand Conn.compressOrPush
      cases op.agreedCompressor <;> simp [hbin, hcan, bind, Except.bind, pure, Except.pure]
    rw [hwritten] at h
    cases h
    rfl

end Pushed

/-! ## The wrapped message -/

section Wrapped

variable {docs : Documents δ} {codecs : Codecs} {compressors : Compressors} {m : Msg δ} {buffers : List Buffer}

/-- What a message stream makes of the wrapped message: its header is that of the message inside. -/
def Msg.unwrapped (m : Msg δ) (plain wrapped : Buffer) : BinMsg :=
  { m.received plain with
    raw := wrapped
    header := { length := (plain.drop messageHeaderSize).length, requestId := m.requestId, responseTo := 0,
                opCode := opMsg, fromCompressed := some true } }

theorem length_compressedMessage (op : OperationDescription) (opCode : Int) (length : Nat) (body : Buffer) :
    (Conn.compressedMessage op opCode length body).length = 16 + 9 + body.length := by
  simp only [Conn.compressedMessage, List.length_append, length_writeInt32LE, List.length_singleton]

/-- The two headers are read back. -/
theorem compressedMessage_reads {op : OperationDescription} {opCode : Int} {length : Nat} {body wrapped : Buffer}
    (hwrapped : wrapped = Conn.compressedMessage op opCode length body) (hid : FitsInt32 op.requestId)
    (hopCode : FitsInt32 opCode) (hlength : FitsInt32 length) (hfits : 16 + 9 + body.length ≤ 2147483647) :
    MessageHeader.read wrapped =
        .ok { length := wrapped.length, requestId := op.requestId, responseTo := 0, opCode := opCompressed } ∧
      readInt32LE wrapped 16 = .ok opCode ∧ readInt32LE wrapped 20 = .ok (length : Int) ∧
      wrapped[24]? = some (UInt8.ofNat op.agreedCompressor.id) ∧ wrapped.drop 25 = body := by
  have hsize : wrapped.length = 16 + 9 + body.length := by rw [hwrapped, length_compressedMessage]
  have htotal : FitsInt32 (wrapped.length : Int) := ⟨by omega, by omega⟩
  have hbytes : wrapped = headerBytes wrapped.length op.requestId opCompressed opCode ++
      (writeInt32LE length ++ ([UInt8.ofNat op.agreedCompressor.id] ++ body)) := by
    rw [hsize, hwrapped]
    simp only [Conn.compressedMessage, headerBytes, List.append_assoc]
    rfl
  obtain ⟨hheader, h16, d20⟩ := header_read htotal hid ⟨by decide, by decide⟩ hopCode hbytes
  obtain ⟨h20, d24⟩ := readInt32LE_next hlength d20
  refine ⟨hheader, h16, h20, ?_, ?_⟩
  · have hhead : (wrapped.drop (20 + 4))[0]? = some (UInt8.ofNat op.agreedCompressor.id) := by
      rw [d24]
      rfl
    rwa [List.getElem?_drop] at hhead
  · have hbody : (wrapped.drop (20 + 4)).drop 1 = body := by
      rw [d24]
      rfl
    rwa [List.drop_drop] at hbody

theorem Msg.wrapped_decodes {op : OperationDescription} {body wrapped : Buffer} (h : m.toBin docs = .ok buffers)
    (hwrapped : wrapped = Conn.compressedMessage op opMsg (buffers.flatten.length - 16) body)
    (hid : op.requestId = m.requestId)
    (hbody : codecs.body (some (UInt8.ofNat op.agreedCompressor.id)) body =
      .ok (buffers.flatten.drop messageHeaderSize))
    (hfits : 16 + 9 + body.length ≤ 2147483647) :
    readInt32LE wrapped 0 = .ok (wrapped.length : Int) ∧
      Message.decode codecs wrapped = .ok (.binMsg (m.unwrapped buffers.flatten wrapped)) := by
  obtain ⟨-, -, hrequestId, hlength, -⟩ := Msg.toBin_bytes h
  obtain ⟨-, hflags, -⟩ := Msg.toBin_reads h
  obtain ⟨b1, b2, b3⟩ := m.hasFlag_flags
  have hinner : FitsInt32 (buffers.flatten.length - 16 : Nat) := by
    unfold FitsInt32 at hlength ⊢
    omega
  obtain ⟨hheader, h16, h20, h24, d25⟩ :=
    compressedMessage_reads hwrapped (hid ▸ hrequestId) ⟨by decide, by decide⟩ hinner hfits
  rw [hid] at hheader
  have hstart : readInt32LE (buffers.flatten.drop messageHeaderSize) 0 = .ok (m.flags : Int) := by
    rw [readInt32LE_drop]
    exact hflags
  have hunwrap : MessageHeader.unwrap
      { length := wrapped.length, requestId := m.requestId, responseTo := 0, opCode := opCompressed } wrapped =
      .ok { length := (buffers.flatten.length - 16 : Nat), requestId := m.requestId, responseTo := 0, opCode := opMsg,
            fromCompressed := some true } := by
    simp only [MessageHeader.unwrap, messageHeaderSize, h16, h20, bind, Except.bind, pure, Except.pure]
  have hcompressor : wrapped[messageHeaderSize + 8]? = some (UInt8.ofNat op.agreedCompressor.id) := h24
  have hdata : wrapped.drop (messageHeaderSize + 9) = body := d25
  have hlengths : ¬ ((buffers.flatten.drop messageHeaderSize).length : Int) ≠ (buffers.flatten.length - 16 : Nat) := by
    rw [List.length_drop]
    exact not_not.2 rfl
  have hnot : ¬ opCompressed ≠ opCompressed := not_not.2 rfl
  refine ⟨MessageHeader.read_length hheader, ?_⟩
  simp only [Message.decode, hheader, bind, Except.bind, if_neg hnot, hunwrap, hcompressor, hdata, hbody,
    Message.unwrapped, if_neg hlengths, Message.new, if_true, BinMsg.new, hstart, b1, b2, b3]
  simp only [Msg.unwrapped, Msg.received, List.length_drop]
  rfl

/-- `writeCommand` on a message. -/
theorem Msg.writeCommand_cases {conn : Conn δ} {op : OperationDescription} (h : m.toBin docs = .ok buffers) :
    conn.writeCommand (m.writeCall docs) op = .pushed buffers.flatten ∨
      op.agreedCompressor ≠ .none ∧
        (conn.writeCommand (m.writeCall docs) op = .compressing opMsg (buffers.flatten.length - 16) ∨
          ∃ error, conn.config.snappyModuleError = some error ∧
            conn.writeCommand (m.writeCall docs) op = .failed error) := by
  obtain ⟨document, -, -, -, hbytes⟩ := Msg.toBin_bytes h
  exact Cmap.writeCommand_cases (Msg.writeCall_toBin h) rfl (header_opCode ⟨by decide, by decide⟩ hbytes)

/-- What is pushed for a message: its bytes, or the wrapped message. -/
theorem Msg.pushed_cases {conn : Conn δ} {op : OperationDescription} {level : Option Nat} {bytes : Buffer}
    (h : m.toBin docs = .ok buffers) (hpushed : pushedBytes compressors level conn (m.writeCall docs) op = .ok bytes) :
    bytes = buffers.flatten ∨
      ∃ body, compressors.run level (buffers.flatten.drop messageHeaderSize) op.agreedCompressor = .ok body ∧
        16 + 9 + body.length ≤ 2147483647 ∧
        bytes = Conn.compressedMessage op opMsg (buffers.flatten.length - 16) body := by
  unfold pushedBytes at hpushed
  rcases Msg.writeCommand_cases h with hplain | ⟨-, hcompressing | ⟨error, -, hfailed⟩⟩
  · rw [hplain] at hpushed
    cases hpushed
    exact .inl rfl
  · rw [hcompressing, Msg.writeCall_toBin h] at hpushed
    exact .inr (wrap_ok hpushed)
  · rw [hfailed] at hpushed
    cases hpushed

/-- The id in the message selects the decompressor of the compressor. -/
theorem Inverts.body (hinv : Inverts codecs compressors) {level : Option Nat}
    {name : CompressorName} {data body : Buffer}
    (h : compressors.run level data name = .ok body) : codecs.body (some (UInt8.ofNat name.id)) body = .ok data := by
  cases name with
  | none => cases h
  | snappy => exact hinv.snappy data body h
  | zlib => exact hinv.zlib _ data body h

end Wrapped

/-- For every message and every compressor: what is pushed is received, in whatever pieces, as the plain message is,
with the same request id, opcode, flags and documents, if the stream allows the size of both; it is pushed when the
compressor gives a body; and a command that may not be compressed is not. -/
theorem compression_transparent {δ : Type} (docs : Documents δ) (codecs : Codecs) (compressors : Compressors)
    (hinv : Inverts codecs compressors) :
    (∀ (m : Msg δ) (buffers : List Buffer) (conn : Conn δ) (level : Option Nat) (ticket : Nat) (bytes : Buffer),
      m.toBin docs = .ok buffers →
      pushedBytes compressors level conn (m.writeCall docs) (conn.describe ticket (m.writeCall docs)).2 = .ok bytes →
      ∀ maxBsonMessageSize, buffers.flatten.length ≤ maxSize maxBsonMessageSize →
        bytes.length ≤ maxSize maxBsonMessageSize →
        ∃ plain msg : BinMsg, Received codecs maxBsonMessageSize buffers.flatten (.binMsg plain) ∧
          Received codecs maxBsonMessageSize bytes (.binMsg msg) ∧
          msg.header.requestId = plain.header.requestId ∧ msg.header.responseTo = plain.header.responseTo ∧
          msg.header.opCode = plain.header.opCode ∧ msg.responseFlags = plain.responseFlags ∧
          msg.checksumPresent = plain.checksumPresent ∧ msg.moreToCome = plain.moreToCome ∧
          msg.exhaustAllowed = plain.exhaustAllowed ∧
          ∀ options, msg.parse docs options = plain.parse docs options) ∧
    (∀ (m : Msg δ) (buffers : List Buffer) (conn : Conn δ) (level : Option Nat) (ticket : Nat),
      m.toBin docs = .ok buffers →
      (conn.config.compressor ≠ .none → conn.config.snappyModuleError = none ∧
        ∃ body, compressors.run level (buffers.flatten.drop messageHeaderSize) conn.config.compressor = .ok body ∧
          16 + 9 + body.length ≤ 2147483647) →
      ∃ bytes, pushedBytes compressors level conn (m.writeCall docs) (conn.describe ticket (m.writeCall docs)).2 =
        .ok bytes) ∧
    (∀ (m : Msg δ) (conn : Conn δ) (level : Option Nat) (op : OperationDescription) (bytes : Buffer) (name : String),
      (docs.keys m.command).head? = some name → name ∈ Conn.uncompressibleCommands →
      pushedBytes compressors level conn (m.writeCall docs) op = .ok bytes → readInt32LE bytes 12 = .ok opMsg) ∧
    (∀ (q : Query δ) (conn : Conn δ) (level : Option Nat) (op : OperationDescription) (bytes : Buffer) (name : String),
      (docs.keys q.query).head? = some name → name ∈ Conn.uncompressibleCommands →
      pushedBytes compressors level conn (q.writeCall docs) op = .ok bytes → readInt32LE bytes 12 = .ok opQuery) := by
  refine ⟨?_, ?_, ?_, ?_⟩
  · intro m buffers conn level ticket bytes h hpushed maxBsonMessageSize hmax hmax'
    have hplain : Received codecs maxBsonMessageSize buffers.flatten (.binMsg (m.received buffers.flatten)) :=
      (Msg.framable h hmax).received (Msg.decodes h)
    rcases Msg.pushed_cases h hpushed with rfl | ⟨body, hbody, hfits, hbytes⟩
    · exact ⟨_, _, hplain, hplain, rfl, rfl, rfl, rfl, rfl, rfl, rfl, fun _ => rfl⟩
    · obtain ⟨hdeclared, hdecodes⟩ := Msg.wrapped_decodes h hbytes rfl (hinv.body hbody) hfits
      have hleast : messageHeaderSize ≤ bytes.length := by
        rw [hbytes, length_compressedMessage]
        unfold messageHeaderSize
        omega
      have hframable : Framable codecs (maxSize maxBsonMessageSize) bytes := ⟨hdeclared, hleast, hmax', _, hdecodes⟩
      exact ⟨_, _, hplain, hframable.received hdecodes, rfl, rfl, rfl, rfl, rfl, rfl, rfl, fun _ => rfl⟩
  · intro m buffers conn level ticket h hrun
    unfold pushedBytes
    rcases Msg.writeCommand_cases h with hplain | ⟨hne, hcompressing | ⟨error, hmodule, -⟩⟩
    · exact ⟨_, by rw [hplain]⟩
    · obtain ⟨-, body, hbody, hfits⟩ := hrun hne
      rw [hcompressing, Msg.writeCall_toBin h]
      exact ⟨_, wrap_fits hbody hfits⟩
    · obtain ⟨hnone, -⟩ := hrun hne
      rw [hnone] at hmodule
      cases hmodule
  · intro m conn level op bytes name hname huncompressible hpushed
    have hbin := pushed_uncompressible (.inr ⟨_, rfl⟩) hname huncompressible hpushed
    cases h : m.toBin docs with
    | error e => simp [Msg.writeCall, h] at hbin
    | ok buffers =>
      cases (Msg.writeCall_toBin h).symm.trans hbin
      obtain ⟨document, -, -, -, hbytes⟩ := Msg.toBin_bytes h
      exact header_opCode ⟨by decide, by decide⟩ hbytes
  · intro q conn level op bytes name hname huncompressible hpushed
    have hbin := pushed_uncompressible (.inl rfl) hname huncompressible hpushed
    cases h : q.toBin docs with
    | error e => simp [Query.writeCall, h] at hbin
    | ok r =>
      obtain ⟨q', buffers⟩ := r
      have hflatten : (q.writeCall docs).toBin = .ok buffers.flatten := by simp [Query.writeCall, h]
      cases hflatten.symm.trans hbin
      obtain ⟨-, documents, hbytes⟩ := Query.toBin_bytes h
      simp only [queryBytes, List.append_assoc] at hbytes
      exact header_opCode ⟨by decide, by decide⟩ hbytes

/-- The body of the `ping` message. -/
def pingBody : Buffer := [0, 0, 0, 0, 0] ++ pingBytes

/-- What zlib makes of it. -/
def pingDeflated : Buffer :=
  [120, 156, 99, 96, 0, 2, 57, 32, 22, 40, 200, 204, 75, 103, 96, 4, 178, 152, 84, 82, 146, 24, 216, 128, 140, 196, 148,
    220, 204, 60, 6, 6, 0, 67, 221, 4, 217]

/-- The compressors on that body, and nothing else. -/
def pingCompressors : Compressors where
  compress _ := .error outOfRange
  deflate _ data := if data = pingBody then .ok pingDeflated else .error outOfRange

def pingCodecs : Codecs where
  uncompress _ := .error outOfRange
  inflate data := if data = pingDeflated then .ok pingBody else .error outOfRange

theorem pingCodecs_inverts : Inverts pingCodecs pingCompressors where
  snappy := by
    rintro data body ⟨⟩
  zlib := by
    intro level data body h
    unfold pingCompressors at h
    simp only at h
    split at h
    · rename_i hdata
      cases h
      rw [hdata]
      rfl
    · cases h

/-- A connection that agreed on zlib. -/
def zlibConn : Conn PingDocument := { config := { compressor := .zlib } }

/-- The wrapped message is 62 bytes long. -/
theorem ping_compressed : ∃ buffers bytes, ping.toBin pingDocuments = .ok buffers ∧
    pushedBytes pingCompressors none zlibConn (ping.writeCall pingDocuments)
      (zlibConn.describe 0 (ping.writeCall pingDocuments)).2 = .ok bytes ∧
    readInt32LE bytes 12 = .ok opCompressed ∧ bytes.length = 62 ∧
    ∃ plain msg : BinMsg, Received pingCodecs none buffers.flatten (.binMsg plain) ∧
      Received pingCodecs none bytes (.binMsg msg) ∧ msg.header.requestId = plain.header.requestId ∧
      msg.parse pingDocuments {} = plain.parse pingDocuments {} := by
  obtain ⟨htransparent, -, -, -⟩ := compression_transparent pingDocuments pingCodecs pingCompressors pingCodecs_inverts
  refine ⟨_, _, rfl, rfl, by decide, by decide, ?_⟩
  obtain ⟨plain, msg, hplain, hmsg, hid, -, -, -, -, -, -, hparse⟩ :=
    htransparent ping _ zlibConn none 0 _ rfl rfl none (by decide) (by decide)
  exact ⟨plain, msg, hplain, hmsg, hid, hparse {}⟩

/-- A stream that allows 51 bytes receives the message plain and refuses it compressed. -/
theorem ping_compressed_too_large : ∃ buffers bytes t u, ping.toBin pingDocuments = .ok buffers ∧
    pushedBytes pingCompressors none zlibConn (ping.writeCall pingDocuments)
      (zlibConn.describe 0 (ping.writeCall pingDocuments)).2 = .ok bytes ∧
    Run.exec (step pingCodecs) (MessageStream.new (some 51)) [.write buffers.flatten] = some t ∧
    t.awaiting = none ∧ t.emitted.length = 1 ∧
    Run.exec (step pingCodecs) (MessageStream.new (some 51)) [.write bytes] = some u ∧
    u.awaiting = none ∧ u.emitted = [] ∧ u.callbacks = [some (messageTooLarge 62 51)] := by
  refine ⟨_, _, _, _, rfl, rfl, rfl, ?_, ?_, rfl, ?_, ?_, ?_⟩
  · decide
  · decide
  · decide
  · decide
  · decide

end MongoDriver.Cmap
