/-
Framing does not depend on chunking. Whatever has arrived, the stream has emitted the messages that
are whole, in order, and its buffer holds the beginning of the next one: so a sequence of messages is
emitted as it was sent, however its bytes were cut.
-/
import MongoDriver.Cmap.MessageStream
import MongoDriver.Base.Run

namespace MongoDriver.Cmap

open MessageStream

/-! ## Messages that decode -/

theorem MessageHeader.read_ok {message : Buffer} (h : messageHeaderSize ≤ message.length) {opCode : Int}
    (hop : readInt32LE message 12 = .ok opCode) :
    ∃ header, MessageHeader.read message = .ok header ∧ header.opCode = opCode := by
  have hsize : messageHeaderSize = 16 := rfl
  obtain ⟨length, h0⟩ := readInt32LE_ok message 0 (by omega)
  obtain ⟨requestId, h4⟩ := readInt32LE_ok message 4 (by omega)
  obtain ⟨responseTo, h8⟩ := readInt32LE_ok message 8 (by omega)
  exact ⟨⟨length, requestId, responseTo, opCode, none⟩,
    by simp [MessageHeader.read, h0, h4, h8, hop, bind, Except.bind, pure, Except.pure], rfl⟩

/-- The constructors read no further than the fixed fields, and refuse only a negative count. -/
theorem Message.new_ok (message : Buffer) (header : MessageHeader) {body : Buffer}
    (hlong : LongEnough header.opCode body) (hcount : Counted header.opCode body) :
    ∃ m, Message.new message header body = .ok m := by
  unfold LongEnough at hlong
  unfold Message.new
  by_cases hop : header.opCode = opMsg
  · rw [if_pos hop] at hlong ⊢
    obtain ⟨flags, hflags⟩ := readInt32LE_ok body 0 (by omega)
    exact ⟨_, by rw [BinMsg.new, hflags]; rfl⟩
  · rw [if_neg hop] at hlong ⊢
    obtain ⟨flags, h0⟩ := readInt32LE_ok body 0 (by omega)
    obtain ⟨low, h4⟩ := readInt32LE_ok body 4 (by omega)
    obtain ⟨high, h8⟩ := readInt32LE_ok body 8 (by omega)
    obtain ⟨start, h12⟩ := readInt32LE_ok body 12 (by omega)
    obtain ⟨count, h16⟩ := readInt32LE_ok body 16 (by omega)
    have hnot : ¬ count < 0 := by have := hcount hop count h16; omega
    exact ⟨_, by simp only [Response.new, h0, h4, h8, h12, h16, bind, Except.bind, if_neg hnot]; rfl⟩

/-- A whole message whose bytes decode. -/
structure Framable (codecs : Codecs) (max : Nat) (message : Buffer) : Prop where
  declared : readInt32LE message 0 = .ok (message.length : Int)
  least : messageHeaderSize ≤ message.length
  most : message.length ≤ max
  decodes : ∃ m, Message.decode codecs message = .ok m

theorem WellFormed.framable {codecs : Codecs} {max : Nat} {message : Buffer} (h : WellFormed codecs max message)
    (hcount : ∀ opCode body, Carries codecs message opCode body → Counted opCode body) :
    Framable codecs max message := by
  refine ⟨h.declared, h.least, h.most, ?_⟩
  obtain ⟨opCode, body, hcarries, hlong⟩ := h.body
  have hcounted := hcount opCode body hcarries
  cases hcarries with
  | plain op hne =>
    obtain ⟨header, hread, hop⟩ := MessageHeader.read_ok h.least op
    subst hop
    obtain ⟨m, hm⟩ := Message.new_ok message header hlong hcounted
    refine ⟨m, ?_⟩
    simp only [Message.decode, hread, bind, Except.bind, if_pos hne]
    exact hm
  | compressed id op inner length hid supported hbody =>
    obtain ⟨header, hread, hop⟩ := MessageHeader.read_ok h.least op
    have hunwrap : header.unwrap message =
        .ok { header with fromCompressed := some true, opCode := opCode, length := body.length } := by
      simp [MessageHeader.unwrap, messageHeaderSize, inner, length, bind, Except.bind, pure, Except.pure]
    obtain ⟨m, hm⟩ := Message.new_ok message
      { header with fromCompressed := some true, opCode := opCode, length := body.length } hlong hcounted
    have hnot : ¬ header.opCode ≠ opCompressed := not_not.2 hop
    refine ⟨m, ?_⟩
    simp only [Message.decode, hread, bind, Except.bind, if_neg hnot, hunwrap, hid, hbody, Message.unwrapped]
    rw [if_neg (not_not.2 rfl)]
    exact hm

/-! ## The head of the buffer -/

section Frames

variable {codecs : Codecs} {message more : Buffer} {s : MessageStream}

/-- The first four bytes of the buffer are the size of the next message. -/
theorem peek_size (hm : Framable codecs s.maxBsonMessageSize message) (hpre : s.buffer.bytes <+: message ++ more)
    (h4 : 4 ≤ s.buffer.length) :
    s.buffer.peek 4 = .ok (message.take 4) ∧ readInt32LE (message.take 4) 0 = .ok (message.length : Int) := by
  have hlen := s.buffer.length_bytes
  have hleast := hm.least
  have hsize : messageHeaderSize = 16 := rfl
  have htake : s.buffer.bytes.take 4 = message.take 4 := by
    obtain ⟨t, ht⟩ := hpre
    have h := congrArg (List.take 4) ht
    rwa [List.take_append_of_le_length (by omega), List.take_append_of_le_length (by omega)] at h
  have hfull := readInt32LE_append (message.take 4) (message.drop 4) 0 (by rw [List.length_take]; omega)
  rw [List.take_append_drop] at hfull
  exact ⟨by rw [← htake]; exact BufferPool.peek_spec s.buffer 4 h4, by rw [← hfull, hm.declared]⟩

/-- Until the whole of the next message has arrived, the stream waits. -/
theorem nextFrame_incomplete (hm : Framable codecs s.maxBsonMessageSize message)
    (hpre : s.buffer.bytes <+: message ++ more) (hlt : s.buffer.length < message.length) :
    s.nextFrame = .ok .incomplete := by
  unfold nextFrame
  by_cases h4 : s.buffer.length < 4
  · rw [if_pos h4]
  · obtain ⟨hpeek, hread⟩ := peek_size hm hpre (by omega)
    have hmost := hm.most
    have h1 : ¬ (message.length : Int) < 0 := by omega
    have h2 : ¬ (message.length : Int) > s.maxBsonMessageSize := by omega
    have h3 : (message.length : Int) > s.buffer.length := by omega
    simp only [if_neg h4, hpeek, bind, Except.bind, hread, if_neg h1, if_neg h2, if_pos h3]
    rfl

/-- A message that has arrived is taken out, and nothing else. -/
theorem nextFrame_whole (hm : Framable codecs s.maxBsonMessageSize message)
    (hpre : s.buffer.bytes <+: message ++ more) (hle : message.length ≤ s.buffer.length) :
    ∃ pool : BufferPool, s.nextFrame = .ok (.whole message pool) ∧ s.buffer.bytes = message ++ pool.bytes := by
  have hlen := s.buffer.length_bytes
  have hleast := hm.least
  have hsize : messageHeaderSize = 16 := rfl
  obtain ⟨pool, hr, hrest⟩ := s.buffer.read_spec message.length hle true
  have hsplit : message = s.buffer.bytes.take message.length := by
    obtain ⟨t, ht⟩ := hpre
    have h := congrArg (List.take message.length) ht
    rw [List.take_append_of_le_length (by omega), List.take_left] at h
    exact h.symm
  rw [if_pos rfl] at hrest
  rw [← hsplit] at hr
  refine ⟨pool, ?_, ?_⟩
  · obtain ⟨hpeek, hread⟩ := peek_size hm hpre (by omega)
    have hmost := hm.most
    have h1 : ¬ (message.length : Int) < 0 := by omega
    have h2 : ¬ (message.length : Int) > s.maxBsonMessageSize := by omega
    have h3 : ¬ (message.length : Int) > s.buffer.length := by omega
    unfold nextFrame
    simp only [if_neg (show ¬ s.buffer.length < 4 by omega), hpeek, bind, Except.bind, hread, if_neg h1, if_neg h2,
      if_neg h3, hr]
    rfl
  · rw [hrest]
    calc s.buffer.bytes = s.buffer.bytes.take message.length ++ s.buffer.bytes.drop message.length :=
          (List.take_append_drop ..).symm
      _ = message ++ s.buffer.bytes.drop message.length := by rw [← hsplit]

end Frames

/-! ## Where the stream is -/

section Position

variable {codecs : Codecs} {max : Nat} {ms done taken rest : List Buffer} {chunks : List Buffer} {s : MessageStream}

/-- The messages `done` were emitted, the bytes of `taken` have left the buffer as well, and what the
buffer holds is the beginning of `rest`. -/
structure At (codecs : Codecs) (max : Nat) (ms : List Buffer) (chunks : List Buffer) (s : MessageStream)
    (done taken rest : List Buffer) : Prop where
  size : s.maxBsonMessageSize = max
  split : ms = done ++ taken ++ rest
  emitted : s.emitted.map Except.ok = done.map (Message.decode codecs)
  received : chunks.flatten = done.flatten ++ taken.flatten ++ s.buffer.bytes
  writes : s.writes = chunks.length
  thrown : s.thrown = none

/-- The body the stream waits for completes the message. -/
def Awaits (codecs : Codecs) (message : Buffer) (a : Awaiting) : Prop :=
  Message.decode codecs message = (codecs.run a.data a.codec).bind (Message.unwrapped a.message a.header)

/-- Between two events: every callback but that of a suspended write was called without an error, and
the next message is not whole yet. At least `n` messages were emitted. -/
inductive Framed (codecs : Codecs) (max : Nat) (ms : List Buffer) (chunks : List Buffer) (n : Nat) (s : MessageStream) :
    Prop where
  | idle {done rest : List Buffer} (pos : At codecs max ms chunks s done [] rest) (count : n ≤ done.length)
    (awaiting : s.awaiting = none) (callbacks : s.callbacks = List.replicate s.writes none)
    (short : ∀ m rest', rest = m :: rest' → s.buffer.length < m.length)
  | suspended {done rest : List Buffer} {m : Buffer} {a : Awaiting} (pos : At codecs max ms chunks s done [m] rest)
    (count : n ≤ done.length) (awaiting : s.awaiting = some a) (awaits : Awaits codecs m a)
    (callbacks : s.callbacks ++ [none] = List.replicate s.writes none)

/-- In the loop: the callback of the current write is still to be called. -/
structure Open (codecs : Codecs) (max : Nat) (ms : List Buffer) (chunks : List Buffer) (s : MessageStream)
    (done rest : List Buffer) : Prop where
  pos : At codecs max ms chunks s done [] rest
  awaiting : s.awaiting = none
  callbacks : s.callbacks ++ [none] = List.replicate s.writes none

theorem At.bytes_prefix (h : At codecs max ms chunks s done taken rest) (hpre : chunks.flatten <+: ms.flatten) :
    s.buffer.bytes <+: rest.flatten := by
  rw [h.received, h.split, List.flatten_append, List.flatten_append] at hpre
  exact (List.prefix_append_right_inj _).1 hpre

/-- A message has left the buffer and waits for its body. -/
theorem At.take {message : Buffer} {pool : BufferPool} (h : At codecs max ms chunks s done [] (message :: rest))
    (hsplit : s.buffer.bytes = message ++ pool.bytes) (a : Option Awaiting) :
    At codecs max ms chunks { s with buffer := pool, awaiting := a } done [message] rest := by
  refine ⟨h.size, ?_, h.emitted, ?_, h.writes, h.thrown⟩
  · rw [h.split]; simp
  · rw [h.received, hsplit]; simp

/-- The message that waited for its body is emitted. -/
theorem At.emit {message : Buffer} {m : Message} (h : At codecs max ms chunks s done [message] rest)
    (hm : Message.decode codecs message = .ok m) :
    At codecs max ms chunks { s with awaiting := none, emitted := s.emitted ++ [m] } (done ++ [message]) [] rest := by
  refine ⟨h.size, ?_, ?_, ?_, h.writes, h.thrown⟩
  · rw [h.split]; simp
  · simp [h.emitted, hm]
  · rw [h.received]; simp

theorem Framed.mono {n k : Nat} (h : Framed codecs max ms chunks n s) (hk : k ≤ n) :
    Framed codecs max ms chunks k s := by
  cases h with
  | idle pos count awaiting callbacks short => exact .idle pos (hk.trans count) awaiting callbacks short
  | suspended pos count awaiting awaits callbacks => exact .suspended pos (hk.trans count) awaiting awaits callbacks

theorem Open.callback (h : Open codecs max ms chunks s done rest)
    (hshort : ∀ m rest', rest = m :: rest' → s.buffer.length < m.length) :
    Framed codecs max ms chunks done.length (s.callback none) :=
  .idle ⟨h.pos.size, h.pos.split, h.pos.emitted, h.pos.received, h.pos.writes, h.pos.thrown⟩ le_rfl h.awaiting
    h.callbacks hshort

/-! ## A turn of the loop -/

theorem Message.unwrapped_ok {message body : Buffer} {header : MessageHeader} {m : Message}
    (h : Message.unwrapped message header body = .ok m) :
    (body.length : Int) = header.length ∧ Message.new message header body = .ok m := by
  unfold Message.unwrapped at h
  split at h
  · cases h
  · rename_i hlen
    exact ⟨not_not.1 hlen, h⟩

/-- How a message that decodes is made up. -/
theorem Message.decode_cases {message : Buffer} {m : Message} (h : Message.decode codecs message = .ok m) :
    ∃ header, MessageHeader.read message = .ok header ∧
      ((header.opCode ≠ opCompressed ∧ Message.new message header (message.drop messageHeaderSize) = .ok m) ∨
        (header.opCode = opCompressed ∧ ∃ inner body, header.unwrap message = .ok inner ∧
          codecs.body message[messageHeaderSize + 8]? (message.drop (messageHeaderSize + 9)) = .ok body ∧
          Message.unwrapped message inner body = .ok m)) := by
  unfold Message.decode at h
  cases hread : MessageHeader.read message with
  | error e => rw [hread] at h; cases h
  | ok header =>
    refine ⟨header, rfl, ?_⟩
    simp only [hread, bind, Except.bind] at h
    split at h
    · rename_i hop
      exact .inl ⟨hop, h⟩
    · rename_i hop
      cases hinner : header.unwrap message with
      | error e => rw [hinner] at h; cases h
      | ok inner =>
        simp only [hinner] at h
        cases hbody : codecs.body message[messageHeaderSize + 8]? (message.drop (messageHeaderSize + 9)) with
        | error e => rw [hbody] at h; cases h
        | ok body =>
          rw [hbody] at h
          exact .inr ⟨not_not.1 hop, inner, body, rfl, rfl, h⟩

/-- What the loop does once a message is out of the buffer and emitted. -/
def goOn (next : MessageStream → MessageStream) (s : MessageStream) : MessageStream :=
  if s.buffer.length ≥ 4 then next s else s.callback none

theorem Open.goOn {next : MessageStream → MessageStream} (h : Open codecs max ms chunks s done rest)
    (hms : ∀ m ∈ ms, Framable codecs max m)
    (hnext : s.buffer.length ≥ 4 → Framed codecs max ms chunks done.length (next s)) :
    Framed codecs max ms chunks done.length (goOn next s) := by
  unfold Cmap.goOn
  split
  · rename_i h4
    exact hnext h4
  · -- fewer than four bytes are less than any message
    refine h.callback ?_
    rintro m rest' rfl
    have hleast := (hms m (by rw [h.pos.split]; simp)).least
    have hsize : messageHeaderSize = 16 := rfl
    omega

theorem emitMessage_ok {next : MessageStream → MessageStream} {message body : Buffer} {header : MessageHeader}
    {m : Message} (hm : Message.new message header body = .ok m) :
    s.emitMessage next message header body = goOn next { s with emitted := s.emitted ++ [m] } := by
  unfold emitMessage
  rw [hm]
  rfl

theorem onDecompress_ok {next : MessageStream → MessageStream} {message body : Buffer} {header : MessageHeader}
    {m : Message} (hm : Message.unwrapped message header body = .ok m) :
    s.onDecompress next message header (.ok body) = goOn next { s with emitted := s.emitted ++ [m] } := by
  obtain ⟨hlen, hnew⟩ := Message.unwrapped_ok hm
  have hnot : ¬ (body.length : Int) ≠ header.length := not_not.2 hlen
  unfold onDecompress
  rw [← emitMessage_ok hnew]
  exact if_neg hnot

/-- A turn with a whole message emits it, or suspends the stream until the message's body is there. -/
theorem processIncomingData_turn {message : Buffer} {pool : BufferPool} {m : Message} (fuel : Nat)
    (hframe : s.nextFrame = .ok (.whole message pool)) (hm : Message.decode codecs message = .ok m) :
    processIncomingData (fuel + 1) s =
        goOn (processIncomingData fuel) { s with buffer := pool, emitted := s.emitted ++ [m] } ∨
      ∃ a, processIncomingData (fuel + 1) s = { s with buffer := pool, awaiting := some a } ∧
        Awaits codecs message a := by
  obtain ⟨header, hread, ⟨hop, hnew⟩ | ⟨hop, inner, body, hinner, hbody, hun⟩⟩ := Message.decode_cases hm
  · left
    simp only [processIncomingData, hframe, hread, if_pos hop]
    exact emitMessage_ok hnew
  · have hnot : ¬ header.opCode ≠ opCompressed := not_not.2 hop
    unfold Codecs.body at hbody
    cases hd : decompress message[messageHeaderSize + 8]? (message.drop (messageHeaderSize + 9)) with
    | threw e => rw [hd] at hbody; cases hbody
    | now body' =>
      rw [hd] at hbody
      cases hbody
      left
      simp only [processIncomingData, hframe, hread, if_neg hnot, hinner, hd]
      exact onDecompress_ok hun
    | later codec =>
      rw [hd] at hbody
      right
      refine ⟨⟨message, inner, codec, message.drop (messageHeaderSize + 9)⟩, ?_, ?_⟩
      · simp only [processIncomingData, hframe, hread, if_neg hnot, hinner, hd]
      · show Message.decode codecs message = _
        rw [hm]
        simp only [hbody, Except.bind, hun]

theorem processIncomingData_incomplete (fuel : Nat) (h : s.nextFrame = .ok .incomplete) :
    processIncomingData (fuel + 1) s = s.callback none := by
  simp only [processIncomingData, h]

/-- The loop, given enough turns for the bytes of the buffer, ends between two events. -/
theorem Open.processIncomingData (hms : ∀ m ∈ ms, Framable codecs max m) (hpre : chunks.flatten <+: ms.flatten) :
    ∀ {fuel : Nat} {s : MessageStream} {done rest : List Buffer}, Open codecs max ms chunks s done rest →
      s.buffer.length < fuel →
      Framed codecs max ms chunks done.length (MessageStream.processIncomingData fuel s)
  | 0, s, done, rest, h, hfuel => by omega
  | fuel + 1, s, done, rest, h, hfuel => by
    have hbytes := h.pos.bytes_prefix hpre
    cases rest with
    | nil =>
      -- nothing is left to arrive, and nothing is left in the buffer
      have hnil : s.buffer.length = 0 := by
        rw [← s.buffer.length_bytes, List.prefix_nil.1 hbytes]; rfl
      have hframe : s.nextFrame = .ok .incomplete := by
        unfold nextFrame; rw [if_pos (by omega)]
      rw [processIncomingData_incomplete fuel hframe]
      refine h.callback ?_
      rintro m rest' ⟨⟩
    | cons message rest =>
      have hm : Framable codecs s.maxBsonMessageSize message := by
        rw [h.pos.size]
        exact hms message (by rw [h.pos.split]; simp)
      rw [List.flatten_cons] at hbytes
      by_cases hlt : s.buffer.length < message.length
      · rw [processIncomingData_incomplete fuel (nextFrame_incomplete hm hbytes hlt)]
        refine h.callback ?_
        rintro m rest' ⟨⟩
        exact hlt
      · obtain ⟨pool, hframe, hsplit⟩ := nextFrame_whole hm hbytes (by omega)
        obtain ⟨m, hdec⟩ := hm.decodes
        have hleast := hm.least
        have hsize : messageHeaderSize = 16 := rfl
        have hlen : s.buffer.length = message.length + pool.length := by
          rw [← s.buffer.length_bytes, ← pool.length_bytes, hsplit, List.length_append]
        obtain hturn | ⟨a, hturn, hawaits⟩ := processIncomingData_turn fuel hframe hdec
        · rw [hturn]
          have hopen : Open codecs max ms chunks { s with buffer := pool, emitted := s.emitted ++ [m] }
              (done ++ [message]) rest := by
            refine ⟨?_, h.awaiting, h.callbacks⟩
            have hat := (h.pos.take hsplit none).emit hdec
            exact ⟨hat.size, hat.split, hat.emitted, hat.received, hat.writes, hat.thrown⟩
          refine (hopen.goOn hms fun _ => hopen.processIncomingData hms hpre ?_).mono (by simp)
          show pool.length < fuel
          omega
        · rw [hturn]
          exact .suspended (h.pos.take hsplit (some a)) le_rfl rfl hawaits h.callbacks

/-- The callback of a write is called once, now or when the body of a compressed message is there. -/
theorem Framed.write {n : Nat} (h : Framed codecs max ms chunks n s) (hready : s.ready = true)
    (hms : ∀ m ∈ ms, Framable codecs max m) {chunk : Buffer} (hpre : (chunks ++ [chunk]).flatten <+: ms.flatten) :
    Framed codecs max ms (chunks ++ [chunk]) n (s.write chunk) := by
  cases h with
  | @idle done rest pos count awaiting callbacks short =>
    have hopen : Open codecs max ms (chunks ++ [chunk])
        { s with buffer := s.buffer.append chunk, writes := s.writes + 1 } done rest := by
      refine ⟨⟨pos.size, pos.split, pos.emitted, ?_, ?_, pos.thrown⟩, awaiting, ?_⟩
      · rw [List.flatten_append, pos.received]; simp
      · rw [List.length_append, pos.writes, List.length_singleton]
      · rw [callbacks, List.replicate_succ']
    exact (hopen.processIncomingData hms hpre (Nat.lt_succ_self _)).mono count
  | suspended pos count awaiting awaits callbacks =>
    -- `Writable` waits for the callback of the suspended write
    have hlen := congrArg List.length callbacks
    simp only [ready, Bool.and_eq_true, decide_eq_true_eq] at hready
    simp only [List.length_append, List.length_singleton, List.length_replicate] at hlen
    omega

theorem Framed.resume {n : Nat} {a : Awaiting} (h : Framed codecs max ms chunks n s) (ha : s.awaiting = some a)
    (hms : ∀ m ∈ ms, Framable codecs max m) (hpre : chunks.flatten <+: ms.flatten) :
    Framed codecs max ms chunks (n + 1) (s.resume codecs a) := by
  cases h with
  | idle pos count awaiting callbacks short => rw [awaiting] at ha; cases ha
  | @suspended done rest message a' pos count awaiting awaits callbacks =>
    rw [awaiting] at ha
    cases ha
    obtain ⟨m, hdec⟩ := (hms message (by rw [pos.split]; simp)).decodes
    unfold Awaits at awaits
    rw [hdec] at awaits
    unfold MessageStream.resume
    cases hrun : codecs.run a.data a.codec with
    | error e => rw [hrun] at awaits; cases awaits
    | ok body =>
      rw [hrun] at awaits
      rw [onDecompress_ok awaits.symm]
      have hopen : Open codecs max ms chunks { s with awaiting := none, emitted := s.emitted ++ [m] }
          (done ++ [message]) rest := ⟨pos.emit hdec, rfl, callbacks⟩
      refine (hopen.goOn hms fun _ => hopen.processIncomingData hms hpre (Nat.lt_succ_self _)).mono ?_
      simpa using count

end Position

/-! ## Runs -/

section Runs

variable {codecs : Codecs} {max : Nat} {ms chunks : List Buffer} {n : Nat} {s t : MessageStream}

theorem prefix_of_append {c : Buffer} {a b : List Buffer} (h : (a ++ b).flatten <+: c) : a.flatten <+: c := by
  rw [List.flatten_append] at h
  exact (List.prefix_append ..).trans h

theorem Framed.new (codecs : Codecs) (opt : Option Nat) (hms : ∀ m ∈ ms, Framable codecs (maxSize opt) m) :
    Framed codecs (maxSize opt) ms [] 0 (MessageStream.new opt) := by
  have hpos : At codecs (maxSize opt) ms [] (MessageStream.new opt) [] [] ms := ⟨rfl, rfl, rfl, rfl, rfl, rfl⟩
  refine .idle hpos le_rfl rfl rfl ?_
  rintro m rest rfl
  exact lt_of_lt_of_le (show 0 < messageHeaderSize by decide) (hms m (List.mem_cons_self ..)).least

/-- Chunk by chunk: a run from a state between two events ends in one. -/
theorem Framed.exec (hms : ∀ m ∈ ms, Framable codecs max m) :
    ∀ {es : List Event} {chunks : List Buffer} {n : Nat} {s t : MessageStream},
      Framed codecs max ms chunks n s → Run.exec (step codecs) s es = some t →
      (chunks ++ chunksOf es).flatten <+: ms.flatten → Framed codecs max ms (chunks ++ chunksOf es) n t
  | [], chunks, n, s, t, h, hr, hpre => by
    cases hr
    simpa [chunksOf] using h
  | .write chunk :: es, chunks, n, s, t, h, hr, hpre => by
    obtain ⟨u, hu, hr⟩ := (Run.exec_cons _).1 hr
    simp only [step] at hu
    split at hu
    · rename_i hready
      cases hu
      have happ : chunks ++ chunksOf (.write chunk :: es) = (chunks ++ [chunk]) ++ chunksOf es := by simp [chunksOf]
      rw [happ] at hpre ⊢
      have hpre' : (chunks ++ [chunk]).flatten <+: ms.flatten := prefix_of_append hpre
      exact (h.write hready hms hpre').exec hms hr hpre
    · cases hu
  | .decompressed :: es, chunks, n, s, t, h, hr, hpre => by
    obtain ⟨u, hu, hr⟩ := (Run.exec_cons _).1 hr
    obtain ⟨a, ha, rfl⟩ := Option.map_eq_some_iff.1 hu
    have hpre' : chunks.flatten <+: ms.flatten := prefix_of_append hpre
    have hu := (h.resume ha hms hpre').mono (Nat.le_succ n)
    show Framed codecs max ms (chunks ++ chunksOf es) n t
    exact hu.exec hms hr hpre

/-- Everything has arrived and no body is awaited: everything was emitted. -/
theorem Framed.complete (h : Framed codecs max ms chunks n s) (hidle : s.awaiting = none)
    (hall : chunks.flatten = ms.flatten) :
    s.emitted.map Except.ok = ms.map (Message.decode codecs) ∧ s.buffer.length = 0 ∧
      s.callbacks = List.replicate chunks.length none ∧ s.thrown = none := by
  cases h with
  | suspended pos count awaiting awaits callbacks => rw [awaiting] at hidle; cases hidle
  | @idle done rest pos count awaiting callbacks short =>
    have hbytes : rest.flatten = s.buffer.bytes := by
      have hrec := pos.received
      rw [hall, pos.split, List.flatten_append, List.flatten_append] at hrec
      exact List.append_cancel_left hrec
    have hlen := s.buffer.length_bytes
    have hnil : rest = [] := by
      cases rest with
      | nil => rfl
      | cons m rest =>
        have hlt := short m rest rfl
        rw [← hbytes, List.flatten_cons, List.length_append] at hlen
        omega
    subst hnil
    have hms : ms = done := by rw [pos.split]; simp
    refine ⟨by rw [hms]; exact pos.emitted, ?_, by rw [callbacks, pos.writes], pos.thrown⟩
    rw [← hlen, ← hbytes]
    rfl

/-- The bodies that are awaited come back one after the other, and then the stream is between writes. -/
theorem Framed.settle (hms : ∀ m ∈ ms, Framable codecs max m) (hpre : chunks.flatten <+: ms.flatten) :
    ∀ {k n : Nat} {s : MessageStream}, Framed codecs max ms chunks n s → ms.length ≤ n + k →
      ∃ es t, chunksOf es = [] ∧ Run.exec (step codecs) s es = some t ∧ t.awaiting = none
  | k, n, s, h, hk => by
    cases hs : s.awaiting with
    | none => exact ⟨[], s, rfl, rfl, hs⟩
    | some a =>
      cases k with
      | zero =>
        -- the awaited message is one that was not emitted
        cases h with
        | idle pos count awaiting callbacks short => rw [awaiting] at hs; cases hs
        | suspended pos count awaiting awaits callbacks =>
          have hlen := congrArg List.length pos.split
          simp only [List.length_append, List.length_singleton] at hlen
          omega
      | succ k =>
        obtain ⟨es, t, hes, hr, ht⟩ := (h.resume hs hms hpre).settle hms hpre (k := k) (by omega)
        refine ⟨.decompressed :: es, t, hes, (Run.exec_cons _).2 ⟨_, ?_, hr⟩, ht⟩
        simp only [step, hs, Option.map_some]

theorem Framed.ready (h : Framed codecs max ms chunks n s) (hidle : s.awaiting = none) : s.ready = true := by
  cases h with
  | suspended pos count awaiting awaits callbacks => rw [awaiting] at hidle; cases hidle
  | idle pos count awaiting callbacks short =>
    simp [MessageStream.ready, callbacks, pos.thrown]

theorem chunksOf_append : ∀ (es es' : List Event), chunksOf (es ++ es') = chunksOf es ++ chunksOf es'
  | [], _ => rfl
  | .write chunk :: es, es' => by simp [chunksOf, chunksOf_append es es']
  | .decompressed :: es, es' => chunksOf_append es es'

/-- The chunks that are left can all be written, each after the callback of the one before. -/
theorem Framed.deliver (hms : ∀ m ∈ ms, Framable codecs max m) :
    ∀ {rest chunks : List Buffer} {n : Nat} {s : MessageStream}, Framed codecs max ms chunks n s →
      (chunks ++ rest).flatten <+: ms.flatten →
      ∃ es t, chunksOf es = rest ∧ Run.exec (step codecs) s es = some t ∧ t.awaiting = none
  | rest, chunks, n, s, h, hpre => by
    have hpre' : chunks.flatten <+: ms.flatten := prefix_of_append hpre
    obtain ⟨es, u, hes, hr, hu⟩ := h.settle hms hpre' (Nat.le_add_left ms.length n)
    cases rest with
    | nil => exact ⟨es, u, hes, hr, hu⟩
    | cons chunk rest =>
      have hfu := h.exec hms hr (by rw [hes, List.append_nil]; exact hpre')
      rw [hes, List.append_nil] at hfu
      have happ : chunks ++ chunk :: rest = (chunks ++ [chunk]) ++ rest := by simp
      rw [happ] at hpre
      have hpre'' : (chunks ++ [chunk]).flatten <+: ms.flatten := prefix_of_append hpre
      have hready := hfu.ready hu
      obtain ⟨es', t, hes', hr', ht⟩ := (hfu.write hready hms hpre'').deliver hms hpre
      have hstep : step codecs u (.write chunk) = some (u.write chunk) := by simp only [step, hready, if_true]
      refine ⟨es ++ .write chunk :: es', t, ?_, ?_, ht⟩
      · rw [chunksOf_append, hes]; simp [chunksOf, hes']
      · exact (Run.exec_append _).2 ⟨u, hr, (Run.exec_cons _).2 ⟨_, hstep, hr'⟩⟩

end Runs

/-- However the bytes of well-formed messages are cut into chunks, once the chunks are written and no
body is awaited the stream has emitted the messages, each as its bytes decode by themselves, its
buffer is empty, and every write was called back once without an error. Nothing keeps a run from
getting there. -/
theorem framing_independent_of_chunking (codecs : Codecs) (opt : Option Nat) (ms chunks : List Buffer)
    (hms : ∀ m ∈ ms, WellFormed codecs (maxSize opt) m)
    (hcount : ∀ m ∈ ms, ∀ opCode body, Carries codecs m opCode body → Counted opCode body)
    (hcut : chunks.flatten = ms.flatten) :
    (∀ es t, Run.exec (step codecs) (MessageStream.new opt) es = some t → chunksOf es = chunks → t.awaiting = none →
      t.emitted.map Except.ok = ms.map (Message.decode codecs) ∧ t.buffer.length = 0 ∧
        t.callbacks = List.replicate chunks.length none ∧ t.thrown = none) ∧
    ∀ es t rest, Run.exec (step codecs) (MessageStream.new opt) es = some t → chunksOf es ++ rest = chunks →
      ∃ es' u, Run.exec (step codecs) t es' = some u ∧ chunksOf es' = rest ∧ u.awaiting = none := by
  have hframable : ∀ m ∈ ms, Framable codecs (maxSize opt) m := fun m hm => (hms m hm).framable (hcount m hm)
  have hnew := Framed.new codecs opt hframable
  constructor
  · rintro es t hr rfl hidle
    exact (hnew.exec hframable hr (by rw [List.nil_append, hcut])).complete hidle hcut
  · rintro es t rest hr rfl
    have hpre : (chunksOf es ++ rest).flatten <+: ms.flatten := by rw [hcut]
    have ht := hnew.exec hframable hr (prefix_of_append hpre)
    obtain ⟨es', u, hes', hr', hu⟩ := ht.deliver hframable hpre
    exact ⟨es', u, hr', hes', hu⟩

/-- Decompressors that give back what they are given. -/
def storedCodecs : Codecs := ⟨.ok, .ok⟩

/-- An `OP_MSG` with an empty section list. -/
def plainMessage : Buffer :=
  [20, 0, 0, 0, 7, 0, 0, 0, 1, 0, 0, 0, 221, 7, 0, 0, 0, 0, 0, 0]

/-- The same message as `OP_COMPRESSED` with the zlib compressor. -/
def compressedMessage : Buffer :=
  [29, 0, 0, 0, 8, 0, 0, 0, 2, 0, 0, 0, 220, 7, 0, 0, 221, 7, 0, 0, 4, 0, 0, 0, 2, 0, 0, 0, 0]

/-- Two messages in three chunks: the cuts are in the size of the first and in the body of the second. -/
theorem framing_of_two_messages :
    (∀ es t, Run.exec (step storedCodecs) (MessageStream.new none) es = some t →
      chunksOf es = [plainMessage.take 3, [], plainMessage.drop 3 ++ compressedMessage.take 27,
        compressedMessage.drop 27] →
      t.awaiting = none →
      t.emitted.map Except.ok = [plainMessage, compressedMessage].map (Message.decode storedCodecs) ∧
        t.buffer.length = 0 ∧ t.callbacks = List.replicate 4 none ∧ t.thrown = none) ∧
    ∀ es t rest, Run.exec (step storedCodecs) (MessageStream.new none) es = some t →
      chunksOf es ++ rest =
        [plainMessage.take 3, [], plainMessage.drop 3 ++ compressedMessage.take 27, compressedMessage.drop 27] →
      ∃ es' u, Run.exec (step storedCodecs) t es' = some u ∧ chunksOf es' = rest ∧ u.awaiting = none := by
  have hplain : WellFormed storedCodecs (maxSize none) plainMessage :=
    ⟨by decide, by decide, by decide, 2013, _, .plain (by decide) (by decide), by decide⟩
  have hcompressed : WellFormed storedCodecs (maxSize none) compressedMessage :=
    ⟨by decide, by decide, by decide, 2013, [0, 0, 0, 0],
      .compressed 2 (by decide) (by decide) (by decide) (by decide) (by decide) (by decide), by decide⟩
  refine framing_independent_of_chunking storedCodecs none [plainMessage, compressedMessage] _ ?_ ?_ (by decide)
  · intro m hm
    rcases List.mem_pair.1 hm with rfl | rfl
    · exact hplain
    · exact hcompressed
  · -- both carry an `OP_MSG`, which has no count
    intro m hm opCode body hcarries hop
    have hp : readInt32LE plainMessage 12 = .ok opMsg := by decide
    have hc : readInt32LE compressedMessage 12 = .ok opCompressed := by decide
    have hi : readInt32LE compressedMessage 16 = .ok opMsg := by decide
    rcases List.mem_pair.1 hm with rfl | rfl
    · cases hcarries with
      | plain op h => rw [hp] at op; cases op; exact absurd rfl hop
      | compressed id op => rw [hp] at op; cases op
    · cases hcarries with
      | plain op h => rw [hc] at op; cases op; exact absurd rfl h
      | compressed id op inner => rw [hi] at inner; cases inner; exact absurd rfl hop

/-- A reply with a negative number of documents. -/
def negativeReply : Buffer :=
  [36, 0, 0, 0, 7, 0, 0, 0, 1, 0, 0, 0, 1, 0, 0, 0, 0, 0, 0, 0, 0, 0, 0, 0, 0, 0, 0, 0, 0, 0, 0, 0, 255, 255, 255, 255]

/-- Its fields are all there, but the constructor cannot allocate the array of documents: the exception
leaves `_write`, no message is emitted and the callback is not called. -/
theorem negative_count_throws :
    WellFormed storedCodecs (maxSize none) negativeReply ∧
      ∃ t, Run.exec (step storedCodecs) (MessageStream.new none) [.write negativeReply] = some t ∧
        t.awaiting = none ∧ t.emitted = [] ∧ t.callbacks = [] ∧ t.thrown = some invalidArrayLength := by
  refine ⟨⟨by decide, by decide, by decide, 1, _, .plain (by decide) (by decide), by decide⟩, ?_⟩
  exact ⟨_, rfl, by decide, by decide, by decide, by decide⟩

end MongoDriver.Cmap
