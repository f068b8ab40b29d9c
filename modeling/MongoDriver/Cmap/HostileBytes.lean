/-
Bytes that no server should send. The loop of the message stream checks that a declared size is not negative and not
above the limit, and that a decompressed body has its declared length; these failures go to the callback of the write.
Everything else is read where it should be: a message shorter than its header, a compressed one that ends before its
details, an unknown compressor and a body shorter than the fields of its class end in an exception, and the callback is
never called. As long as no message that the loop comes to is of one of these kinds, nothing is thrown, whatever
else the bytes are.
-/
import MongoDriver.Cmap.Framing

namespace MongoDriver.Cmap

open MessageStream

/-! ## Kinds of bytes -/

/-- The constructor of the message's class finds the fields it reads. -/
def Readable (opCode : Int) (body : Buffer) : Prop := LongEnough opCode body ∧ Counted opCode body

/-- A message, cut off by its declared size, that the loop has no check for. -/
inductive Harmful (codecs : Codecs) (message : Buffer) : Prop where
  | header (short : message.length < messageHeaderSize)
  | body {opCode : Int} (op : readInt32LE message 12 = .ok opCode) (plain : opCode ≠ opCompressed)
    (bad : ¬ Readable opCode (message.drop messageHeaderSize))
  | details (op : readInt32LE message 12 = .ok opCompressed) (short : message.length < messageHeaderSize + 8)
  | compressor (id : UInt8) (op : readInt32LE message 12 = .ok opCompressed)
    (hid : message[messageHeaderSize + 8]? = some id) (unknown : 2 < id.toNat)
  | inflated {opCode : Int} {body : Buffer} (op : readInt32LE message 12 = .ok opCompressed)
    (inner : readInt32LE message 16 = .ok opCode) (length : readInt32LE message 20 = .ok (body.length : Int))
    (hbody : codecs.body message[messageHeaderSize + 8]? (message.drop (messageHeaderSize + 9)) = .ok body)
    (bad : ¬ Readable opCode body)

/-- The bytes begin with a message of the size they declare, within the limit. -/
structure Cut (max : Nat) (bytes message rest : Buffer) : Prop where
  split : bytes = message ++ rest
  declared : readInt32LE bytes 0 = .ok (message.length : Int)
  most : message.length ≤ max

/-- The bytes declare a size that is refused. -/
def BadSize (max : Nat) (bytes : Buffer) : Prop :=
  ∃ size, readInt32LE bytes 0 = .ok size ∧ (size < 0 ∨ (max : Int) < size)

/-- The next message has not arrived yet. -/
def Incomplete (max : Nat) (bytes : Buffer) : Prop :=
  bytes.length < 4 ∨ ∃ size : Nat, readInt32LE bytes 0 = .ok (size : Int) ∧ size ≤ max ∧ bytes.length < size

/-- After whole messages that decode, the bytes hold one that the loop has no check for. -/
def Crashing (codecs : Codecs) (max : Nat) (bytes : Buffer) : Prop :=
  ∃ (ms : List Buffer) (message rest : Buffer), bytes = ms.flatten ++ (message ++ rest) ∧
    (∀ m ∈ ms, Framable codecs max m) ∧ Cut max (message ++ rest) message rest ∧ Harmful codecs message

/-- The bytes begin with a size that is refused or with a whole message that does not decode. -/
def FaultyHead (codecs : Codecs) (max : Nat) (bytes : Buffer) : Prop :=
  BadSize max bytes ∨ ∃ message rest e, Cut max bytes message rest ∧ Message.decode codecs message = .error e

/-- After whole messages that decode, the bytes are malformed. -/
def Faulty (codecs : Codecs) (max : Nat) (bytes : Buffer) : Prop :=
  ∃ (ms : List Buffer) (tail : Buffer),
    bytes = ms.flatten ++ tail ∧ (∀ m ∈ ms, Framable codecs max m) ∧ FaultyHead codecs max tail

section Bytes

variable {codecs : Codecs} {max : Nat} {bytes message rest more : Buffer}

theorem readInt32LE_short (buffer : Buffer) (offset : Nat) (h : buffer.length < offset + 4) :
    readInt32LE buffer offset = .error outOfRange := by
  unfold readInt32LE
  have hlen : (buffer.drop offset).length < 4 := by rw [List.length_drop]; omega
  match hd : buffer.drop offset with
  | [] | [_] | [_, _] | [_, _, _] => rfl
  | _ :: _ :: _ :: _ :: _ =>
    rw [hd] at hlen
    simp only [List.length_cons] at hlen
    omega

/-- Sizes that are read from the same bytes are the same. -/
theorem sizes_agree {a b : Nat} {read : Except AnyError Int} (ha : read = .ok (a : Int)) (hb : read = .ok (b : Int)) :
    a = b := by
  rw [ha] at hb
  injection hb with hab
  omega

/-- What crashes the reader does so with any bytes after it. -/
theorem Crashing.append (h : Crashing codecs max bytes) (more : Buffer) : Crashing codecs max (bytes ++ more) := by
  obtain ⟨ms, message, rest, rfl, hms, hcut, hharm⟩ := h
  have h4 : 4 ≤ (message ++ rest).length := by
    by_contra hlt
    have hread := readInt32LE_short (message ++ rest) 0 (by omega)
    rw [hcut.declared] at hread
    cases hread
  refine ⟨ms, message, rest ++ more, by simp, hms, ⟨rfl, ?_, hcut.most⟩, hharm⟩
  rw [← List.append_assoc, readInt32LE_append _ _ 0 h4]
  exact hcut.declared

/-- A message says itself where it ends. -/
theorem Framable.declares (h : Framable codecs max message) (rest : Buffer) :
    readInt32LE (message ++ rest) 0 = .ok (message.length : Int) := by
  have hleast := h.least
  have hsize : messageHeaderSize = 16 := rfl
  rw [readInt32LE_append _ _ 0 (by omega)]
  exact h.declared

theorem Framable.not_incomplete (h : Framable codecs max message) : ¬ Incomplete max (message ++ rest) := by
  have hleast := h.least
  have hsize : messageHeaderSize = 16 := rfl
  have hlen : (message ++ rest).length = message.length + rest.length := List.length_append
  rintro (hlt | ⟨size, hread, -, hlt⟩)
  · omega
  · have := sizes_agree (h.declares rest) hread
    omega

theorem Framable.not_faulty (h : Framable codecs max message) : ¬ FaultyHead codecs max (message ++ rest) := by
  have hmost := h.most
  rintro (⟨size, hread, hbad⟩ | ⟨m, rest', e, hcut, hdec⟩)
  · rw [h.declares] at hread
    cases hread
    omega
  · obtain ⟨rfl, -⟩ := List.append_inj hcut.split (sizes_agree (h.declares rest) hcut.declared)
    obtain ⟨decoded, hok⟩ := h.decodes
    rw [hdec] at hok
    cases hok

/-- Bytes that have been read up to a message still to come are not malformed. -/
theorem not_faulty_of_incomplete {tail : Buffer} : ∀ {ms ms' : List Buffer} {tail' : Buffer},
    ms.flatten ++ tail = ms'.flatten ++ tail' → (∀ m ∈ ms, Framable codecs max m) →
      (∀ m ∈ ms', Framable codecs max m) → Incomplete max tail → ¬ FaultyHead codecs max tail'
  | [], [], tail', heq, _, _, hshort => by
    obtain rfl : tail = tail' := heq
    rintro (⟨size, hread, hbad⟩ | ⟨m, rest, e, hcut, -⟩)
    · rcases hshort with hlt | ⟨size', hread', hmost, -⟩
      · rw [readInt32LE_short _ 0 (by omega)] at hread
        cases hread
      · rw [hread'] at hread
        cases hread
        omega
    · have hread := hcut.declared
      rcases hshort with hlt | ⟨size', hread', -, hlt⟩
      · rw [readInt32LE_short _ 0 (by omega)] at hread
        cases hread
      · have hlen := sizes_agree hread' hread
        rw [hcut.split, List.length_append] at hlt
        omega
  | [], m' :: ms', tail', heq, _, hms', hshort => by
    rw [List.flatten_cons, List.append_assoc] at heq
    obtain rfl : tail = m' ++ (ms'.flatten ++ tail') := heq
    exact absurd hshort (hms' m' (List.mem_cons_self ..)).not_incomplete
  | m :: ms, [], tail', heq, hms, _, _ => by
    obtain rfl : (m :: ms).flatten ++ tail = tail' := heq
    rw [List.flatten_cons, List.append_assoc]
    exact (hms m (List.mem_cons_self ..)).not_faulty
  | m :: ms, m' :: ms', tail', heq, hms, hms', hshort => by
    obtain ⟨hm, hrest⟩ := List.forall_mem_cons.1 hms
    obtain ⟨hm', hrest'⟩ := List.forall_mem_cons.1 hms'
    rw [List.flatten_cons, List.flatten_cons, List.append_assoc, List.append_assoc] at heq
    -- both first messages end where the same bytes say
    have hread := hm.declares (ms.flatten ++ tail)
    rw [heq] at hread
    obtain ⟨rfl, hafter⟩ := List.append_inj heq (sizes_agree hread (hm'.declares _))
    exact not_faulty_of_incomplete hafter hrest hrest' hshort

end Bytes

/-! ## The head of the buffer -/

/-- What the loop makes of the head of its buffer is decided by the bytes. -/
theorem nextFrame_cases (s : MessageStream) :
    (s.nextFrame = .ok .incomplete ∧ Incomplete s.maxBsonMessageSize s.buffer.bytes) ∨
      (∃ e, s.nextFrame = .ok (.invalid e) ∧ BadSize s.maxBsonMessageSize s.buffer.bytes) ∨
      ∃ message pool, s.nextFrame = .ok (.whole message pool) ∧
        Cut s.maxBsonMessageSize s.buffer.bytes message pool.bytes := by
  have hlen := s.buffer.length_bytes
  unfold nextFrame
  by_cases h4 : s.buffer.length < 4
  · rw [if_pos h4]
    exact .inl ⟨rfl, .inl (by omega)⟩
  have hpeek : s.buffer.peek 4 = .ok (s.buffer.bytes.take 4) := BufferPool.peek_spec s.buffer 4 (by omega)
  obtain ⟨size, hread⟩ := readInt32LE_ok s.buffer.bytes 0 (by omega)
  have hread4 : readInt32LE (s.buffer.bytes.take 4) 0 = .ok size := by
    rw [← hread, ← readInt32LE_append (s.buffer.bytes.take 4) (s.buffer.bytes.drop 4) 0
      (by rw [List.length_take]; omega), List.take_append_drop]
  simp only [if_neg h4, hpeek, bind, Except.bind, hread4]
  by_cases hneg : size < 0
  · rw [if_pos hneg]
    exact .inr (.inl ⟨_, rfl, size, hread, .inl hneg⟩)
  rw [if_neg hneg]
  obtain ⟨n, rfl⟩ := Int.eq_ofNat_of_zero_le (not_lt.1 hneg)
  by_cases hbig : (n : Int) > s.maxBsonMessageSize
  · rw [if_pos hbig]
    exact .inr (.inl ⟨_, rfl, n, hread, .inr hbig⟩)
  rw [if_neg hbig]
  by_cases hmore : (n : Int) > s.buffer.length
  · rw [if_pos hmore]
    exact .inl ⟨rfl, .inr ⟨n, hread, by omega, by omega⟩⟩
  rw [if_neg hmore]
  obtain ⟨pool, hr, hrest⟩ := s.buffer.read_spec n (by omega) true
  rw [if_pos rfl] at hrest
  have htake : (s.buffer.bytes.take n).length = n := by rw [List.length_take]; omega
  refine .inr (.inr ⟨s.buffer.bytes.take n, pool, ?_, ?_, ?_, ?_⟩)
  · rw [hr]
    rfl
  · rw [hrest, List.take_append_drop]
  · rw [htake]
    exact hread
  · omega

/-! ## One message -/

section Turn

variable {codecs : Codecs} {message : Buffer} {s : MessageStream}

/-- A body that is there is emitted or refused. -/
theorem onDecompress_cases (s : MessageStream) (next : MessageStream → MessageStream) (message : Buffer)
    (header : MessageHeader) (result : Except AnyError Buffer)
    (hread : ∀ body, result = .ok body → (body.length : Int) = header.length → Readable header.opCode body) :
    (∃ m, result.bind (Message.unwrapped message header) = .ok m ∧
        s.onDecompress next message header result = goOn next { s with emitted := s.emitted ++ [m] }) ∨
      ∃ e, result.bind (Message.unwrapped message header) = .error e ∧
        s.onDecompress next message header result = s.callback (some e) := by
  cases result with
  | error e => exact .inr ⟨e, rfl, rfl⟩
  | ok body =>
    by_cases hlen : (body.length : Int) = header.length
    · obtain ⟨hlong, hcount⟩ := hread body rfl hlen
      obtain ⟨m, hm⟩ := Message.new_ok message header hlong hcount
      have hun : Message.unwrapped message header body = .ok m := by
        unfold Message.unwrapped
        rw [if_neg (not_not.2 hlen)]
        exact hm
      exact .inl ⟨m, hun, onDecompress_ok hun⟩
    · refine .inr ⟨lengthMismatch, if_pos hlen, ?_⟩
      unfold onDecompress
      exact if_pos hlen

/-- The suspended message, once its body is there, is emitted or refused. -/
structure AwaitsSafely (codecs : Codecs) (message : Buffer) (a : Awaiting) : Prop where
  awaits : Awaits codecs message a
  readable : ∀ body, codecs.run a.data a.codec = .ok body → (body.length : Int) = a.header.length →
    Readable a.header.opCode body

/-- Only an unknown compressor throws. -/
theorem decompress_threw {compressorID : Option UInt8} {data : Buffer} {e : AnyError}
    (h : decompress compressorID data = .threw e) : ∃ id, compressorID = some id ∧ 2 < id.toNat := by
  unfold decompress at h
  cases compressorID with
  | none => cases h
  | some id =>
    simp only at h
    by_cases hunknown : id.toNat > 2
    · exact ⟨id, rfl, hunknown⟩
    · rw [if_neg hunknown] at h
      by_cases hsnappy : id.toNat = 1
      · rw [if_pos hsnappy] at h
        cases h
      · rw [if_neg hsnappy] at h
        by_cases hzlib : id.toNat = 2
        · rw [if_pos hzlib] at h
          cases h
        · rw [if_neg hzlib] at h
          cases h

/-- A message that is not harmful is emitted, refused through the callback, or waits for its body. -/
theorem turn_cases {pool : BufferPool} (fuel : Nat) (hframe : s.nextFrame = .ok (.whole message pool))
    (hharm : ¬ Harmful codecs message) :
    (∃ m, Message.decode codecs message = .ok m ∧ processIncomingData (fuel + 1) s =
        goOn (processIncomingData fuel) { s with buffer := pool, emitted := s.emitted ++ [m] }) ∨
      (∃ e, Message.decode codecs message = .error e ∧
        processIncomingData (fuel + 1) s = { s with buffer := pool }.callback (some e)) ∨
      ∃ a, processIncomingData (fuel + 1) s = { s with buffer := pool, awaiting := some a } ∧
        AwaitsSafely codecs message a := by
  have hsize : messageHeaderSize = 16 := rfl
  have hleast : messageHeaderSize ≤ message.length := not_lt.1 fun h => hharm (.header h)
  obtain ⟨opCode, hop⟩ := readInt32LE_ok message 12 (by omega)
  obtain ⟨header, hread, rfl⟩ := MessageHeader.read_ok hleast hop
  by_cases hplain : header.opCode ≠ opCompressed
  · obtain ⟨hlong, hcount⟩ : Readable header.opCode (message.drop messageHeaderSize) :=
      not_not.1 fun h => hharm (.body hop hplain h)
    obtain ⟨m, hm⟩ := Message.new_ok message header hlong hcount
    refine .inl ⟨m, ?_, ?_⟩
    · simp only [Message.decode, hread, bind, Except.bind, if_pos hplain]
      exact hm
    · simp only [processIncomingData, hframe, hread, if_pos hplain]
      exact emitMessage_ok hm
  rw [not_not] at hplain
  rw [hplain] at hop
  have hnot : ¬ header.opCode ≠ opCompressed := not_not.2 hplain
  have h24 : messageHeaderSize + 8 ≤ message.length := not_lt.1 fun h => hharm (.details hop h)
  obtain ⟨inner, h16⟩ := readInt32LE_ok message 16 (by omega)
  obtain ⟨length, h20⟩ := readInt32LE_ok message 20 (by omega)
  have hunwrap : header.unwrap message =
      .ok { header with fromCompressed := some true, opCode := inner, length } := by
    simp [MessageHeader.unwrap, messageHeaderSize, h16, h20, bind, Except.bind, pure, Except.pure]
  have hdecode : Message.decode codecs message =
      (codecs.body message[messageHeaderSize + 8]? (message.drop (messageHeaderSize + 9))).bind
        (Message.unwrapped message { header with fromCompressed := some true, opCode := inner, length }) := by
    simp only [Message.decode, hread, bind, Except.bind, if_neg hnot, hunwrap]
  have hreadable : ∀ body,
      codecs.body message[messageHeaderSize + 8]? (message.drop (messageHeaderSize + 9)) = .ok body →
      (body.length : Int) = length → Readable inner body := by
    rintro body hbody rfl
    exact not_not.1 fun h => hharm (.inflated hop h16 h20 hbody h)
  unfold Codecs.body at hdecode hreadable
  cases hd : decompress message[messageHeaderSize + 8]? (message.drop (messageHeaderSize + 9)) with
  | threw e =>
    obtain ⟨id, hid, hunknown⟩ := decompress_threw hd
    exact absurd (.compressor id hop hid hunknown) hharm
  | now body =>
    rw [hd] at hdecode hreadable
    have hturn : processIncomingData (fuel + 1) s = { s with buffer := pool }.onDecompress (processIncomingData fuel)
        message { header with fromCompressed := some true, opCode := inner, length } (.ok body) := by
      simp only [processIncomingData, hframe, hread, if_neg hnot, hunwrap, hd]
    rw [hturn, hdecode]
    rcases onDecompress_cases { s with buffer := pool } (processIncomingData fuel) message
      { header with fromCompressed := some true, opCode := inner, length } (.ok body) hreadable with
      ⟨m, hm, heq⟩ | ⟨e, he, heq⟩
    · exact .inl ⟨m, hm, heq⟩
    · exact .inr (.inl ⟨e, he, heq⟩)
  | later codec =>
    rw [hd] at hdecode hreadable
    refine .inr (.inr ⟨⟨message, _, codec, message.drop (messageHeaderSize + 9)⟩, ?_, hdecode, hreadable⟩)
    simp only [processIncomingData, hframe, hread, if_neg hnot, hunwrap, hd]

end Turn

/-! ## Where the reader is -/

section Reader

variable {codecs : Codecs} {max : Nat} {chunks ms : List Buffer} {message : Buffer} {s : MessageStream}

/-- The messages `ms` were read, the bytes of `taken` have left the buffer as well, and nothing was thrown. -/
structure ReadUpTo (codecs : Codecs) (max : Nat) (chunks : List Buffer) (s : MessageStream) (ms : List Buffer)
    (taken : Buffer) : Prop where
  size : s.maxBsonMessageSize = max
  valid : ∀ m ∈ ms, Framable codecs max m
  received : chunks.flatten = ms.flatten ++ (taken ++ s.buffer.bytes)
  writes : s.writes = chunks.length
  thrown : s.thrown = none

/-- Between two events: the next message is not whole yet, the bytes were refused, or a body is awaited with fewer
than `bound` bytes left. -/
inductive Reading (codecs : Codecs) (max : Nat) (chunks : List Buffer) (bound : Nat) (s : MessageStream) : Prop where
  | idle {ms : List Buffer} (pos : ReadUpTo codecs max chunks s ms []) (awaiting : s.awaiting = none)
    (callbacks : s.callbacks = List.replicate s.writes none) (short : Incomplete max s.buffer.bytes)
  | refused {earlier : List (Option AnyError)} {e : AnyError} (writes : s.writes = chunks.length)
    (thrown : s.thrown = none) (awaiting : s.awaiting = none) (callbacks : s.callbacks = earlier ++ [some e])
    (once : s.callbacks.length = s.writes)
  | suspended {ms : List Buffer} {message : Buffer} {a : Awaiting} (pos : ReadUpTo codecs max chunks s ms message)
    (awaiting : s.awaiting = some a) (safely : AwaitsSafely codecs message a)
    (frames : ∀ m, Message.decode codecs message = .ok m → Framable codecs max message)
    (callbacks : s.callbacks ++ [none] = List.replicate s.writes none) (less : s.buffer.length < bound)

/-- In the loop: the callback of the current write is still to be called. -/
structure InLoop (codecs : Codecs) (max : Nat) (chunks : List Buffer) (s : MessageStream) (ms : List Buffer) :
    Prop where
  pos : ReadUpTo codecs max chunks s ms []
  awaiting : s.awaiting = none
  callbacks : s.callbacks ++ [none] = List.replicate s.writes none

theorem Reading.mono {n k : Nat} (h : Reading codecs max chunks n s) (hk : n ≤ k) : Reading codecs max chunks k s := by
  cases h with
  | idle pos awaiting callbacks short => exact .idle pos awaiting callbacks short
  | refused writes thrown awaiting callbacks once => exact .refused writes thrown awaiting callbacks once
  | suspended pos awaiting safely frames callbacks less =>
    exact .suspended pos awaiting safely frames callbacks (less.trans_le hk)

/-- The callback is called without an error once the next message is not whole. -/
theorem InLoop.callback {n : Nat} (h : InLoop codecs max chunks s ms) (hshort : Incomplete max s.buffer.bytes) :
    Reading codecs max chunks n (s.callback none) :=
  .idle ⟨h.pos.size, h.pos.valid, h.pos.received, h.pos.writes, h.pos.thrown⟩ h.awaiting h.callbacks hshort

theorem length_of_open {callbacks : List (Option AnyError)} {n : Nat}
    (h : callbacks ++ [none] = List.replicate n none) : callbacks.length + 1 = n := by
  have hlen := congrArg List.length h
  simpa using hlen

/-- The callback is called with an error. -/
theorem refused_of_open {n : Nat} {e : AnyError} (hwrites : s.writes = chunks.length) (hthrown : s.thrown = none)
    (hawaiting : s.awaiting = none) (hcallbacks : s.callbacks ++ [none] = List.replicate s.writes none) :
    Reading codecs max chunks n (s.callback (some e)) := by
  refine .refused hwrites hthrown hawaiting rfl ?_
  have hlen := length_of_open hcallbacks
  simpa [MessageStream.callback] using hlen

/-- A message has left the buffer. -/
theorem ReadUpTo.take {pool : BufferPool} (h : ReadUpTo codecs max chunks s ms [])
    (hsplit : s.buffer.bytes = message ++ pool.bytes) (a : Option Awaiting) :
    ReadUpTo codecs max chunks { s with buffer := pool, awaiting := a } ms message := by
  refine ⟨h.size, h.valid, ?_, h.writes, h.thrown⟩
  rw [h.received, hsplit, List.nil_append]

/-- A message that left the buffer is emitted. -/
theorem ReadUpTo.emit (h : ReadUpTo codecs max chunks s ms message) (hm : Framable codecs max message) (m : Message) :
    ReadUpTo codecs max chunks { s with awaiting := none, emitted := s.emitted ++ [m] } (ms ++ [message]) [] := by
  refine ⟨h.size, ?_, ?_, h.writes, h.thrown⟩
  · exact List.forall_mem_append.2 ⟨h.valid, List.forall_mem_singleton.2 hm⟩
  · rw [h.received]
    simp

/-- A message that was cut off and decodes is a whole message. -/
theorem Cut.framable {bytes rest : Buffer} (hcut : Cut max bytes message rest)
    (hleast : messageHeaderSize ≤ message.length) {m : Message} (hm : Message.decode codecs message = .ok m) :
    Framable codecs max message := by
  have hsize : messageHeaderSize = 16 := rfl
  refine ⟨?_, hleast, hcut.most, m, hm⟩
  rw [← readInt32LE_append message rest 0 (by omega), ← hcut.split]
  exact hcut.declared

theorem InLoop.goOn {next : MessageStream → MessageStream} {n : Nat} (h : InLoop codecs max chunks s ms)
    (hnext : Reading codecs max chunks n (next s)) : Reading codecs max chunks n (goOn next s) := by
  unfold Cmap.goOn
  split
  · exact hnext
  · rename_i h4
    have hlen := s.buffer.length_bytes
    exact h.callback (.inl (by omega))

/-- The loop, given enough turns for the bytes of the buffer, ends between two events. -/
theorem InLoop.processIncomingData (hsafe : ¬ Crashing codecs max chunks.flatten) :
    ∀ {fuel : Nat} {s : MessageStream} {ms : List Buffer}, InLoop codecs max chunks s ms → s.buffer.length < fuel →
      Reading codecs max chunks s.buffer.length (MessageStream.processIncomingData fuel s)
  | 0, s, ms, h, hfuel => by omega
  | fuel + 1, s, ms, h, hfuel => by
    have hmax := h.pos.size
    rcases nextFrame_cases s with ⟨hframe, hshort⟩ | ⟨e, hframe, -⟩ | ⟨message, pool, hframe, hcut⟩
    · rw [processIncomingData_incomplete fuel hframe]
      rw [hmax] at hshort
      exact h.callback hshort
    · have hturn : MessageStream.processIncomingData (fuel + 1) s = s.callback (some e) := by
        simp only [MessageStream.processIncomingData, hframe]
      rw [hturn]
      exact refused_of_open h.pos.writes h.pos.thrown h.awaiting h.callbacks
    · rw [hmax] at hcut
      have hsplit := hcut.split
      have hharm : ¬ Harmful codecs message := by
        intro hharm
        refine hsafe ⟨ms, message, pool.bytes, ?_, h.pos.valid, ?_, hharm⟩
        · rw [h.pos.received, List.nil_append, hsplit]
        · rw [← hsplit]
          exact hcut
      have hsize : messageHeaderSize = 16 := rfl
      have hleast : messageHeaderSize ≤ message.length := not_lt.1 fun hlt => hharm (.header hlt)
      have hlen : s.buffer.length = message.length + pool.length := by
        rw [← s.buffer.length_bytes, ← pool.length_bytes, hsplit, List.length_append]
      have htaken := h.pos.take hsplit none
      rcases turn_cases fuel hframe hharm with ⟨m, hm, hturn⟩ | ⟨e, -, hturn⟩ | ⟨a, hturn, hsafely⟩
      · rw [hturn]
        have hemit := htaken.emit (hcut.framable hleast hm) m
        have hloop : InLoop codecs max chunks { s with buffer := pool, emitted := s.emitted ++ [m] }
            (ms ++ [message]) :=
          ⟨⟨hemit.size, hemit.valid, hemit.received, hemit.writes, hemit.thrown⟩, h.awaiting, h.callbacks⟩
        refine (hloop.goOn (hloop.processIncomingData hsafe ?_)).mono ?_
        · show pool.length < fuel
          omega
        · show pool.length ≤ s.buffer.length
          omega
      · rw [hturn]
        exact refused_of_open h.pos.writes h.pos.thrown h.awaiting h.callbacks
      · rw [hturn]
        refine .suspended (h.pos.take hsplit (some a)) rfl hsafely (fun m hm => hcut.framable hleast hm) h.callbacks ?_
        show pool.length < s.buffer.length
        omega

/-! ## Runs -/

/-- A chunk is handed over only to a stream that is between two messages. -/
theorem Reading.write {n : Nat} (h : Reading codecs max chunks n s) (hready : s.ready = true) {chunk : Buffer}
    (hsafe : ¬ Crashing codecs max (chunks ++ [chunk]).flatten) :
    ∃ k, Reading codecs max (chunks ++ [chunk]) k (s.write chunk) := by
  simp only [ready, Bool.and_eq_true, decide_eq_true_eq] at hready
  obtain ⟨⟨hcount, hall⟩, -⟩ := hready
  cases h with
  | @idle ms pos awaiting callbacks short =>
    have hloop : InLoop codecs max (chunks ++ [chunk])
        { s with buffer := s.buffer.append chunk, writes := s.writes + 1 } ms := by
      refine ⟨⟨pos.size, pos.valid, ?_, ?_, pos.thrown⟩, awaiting, ?_⟩
      · rw [List.flatten_append, pos.received]
        simp
      · rw [List.length_append, pos.writes, List.length_singleton]
      · rw [callbacks, List.replicate_succ']
    exact ⟨_, hloop.processIncomingData hsafe (Nat.lt_succ_self _)⟩
  | refused writes thrown awaiting callbacks once =>
    rw [callbacks] at hall
    simp at hall
  | suspended pos awaiting safely frames callbacks less =>
    have hlen := length_of_open callbacks
    omega

/-- The body comes back: the stream goes on, with fewer bytes left if it is suspended again. -/
theorem Reading.resume {n : Nat} {a : Awaiting} (h : Reading codecs max chunks n s) (ha : s.awaiting = some a)
    (hsafe : ¬ Crashing codecs max chunks.flatten) :
    Reading codecs max chunks s.buffer.length (s.resume codecs a) := by
  cases h with
  | idle pos awaiting callbacks short => rw [awaiting] at ha; cases ha
  | refused writes thrown awaiting callbacks once => rw [awaiting] at ha; cases ha
  | @suspended ms message a' pos awaiting safely frames callbacks less =>
    rw [awaiting] at ha
    cases ha
    have hawaits := safely.awaits
    unfold Awaits at hawaits
    unfold MessageStream.resume
    rcases onDecompress_cases { s with awaiting := none } process a.message a.header (codecs.run a.data a.codec)
      safely.readable with ⟨m, hm, heq⟩ | ⟨e, -, heq⟩
    · rw [heq]
      have hemit := pos.emit (frames m (hawaits.trans hm)) m
      have hloop : InLoop codecs max chunks { s with awaiting := none, emitted := s.emitted ++ [m] }
          (ms ++ [message]) :=
        ⟨hemit, rfl, callbacks⟩
      exact hloop.goOn (hloop.processIncomingData hsafe (Nat.lt_succ_self _))
    · rw [heq]
      exact refused_of_open pos.writes pos.thrown rfl callbacks

theorem Reading.new (codecs : Codecs) (opt : Option Nat) :
    Reading codecs (maxSize opt) [] 0 (MessageStream.new opt) := by
  have hpos : ReadUpTo codecs (maxSize opt) [] (MessageStream.new opt) [] [] :=
    ⟨rfl, fun m hm => (by cases hm), rfl, rfl, rfl⟩
  exact .idle hpos rfl rfl (.inl (Nat.zero_lt_succ 3))

/-- What crashes the reader after some of the chunks does so after all of them. -/
theorem not_crashing_of_append {more : List Buffer} (h : ¬ Crashing codecs max (chunks ++ more).flatten) :
    ¬ Crashing codecs max chunks.flatten := by
  intro hcrash
  rw [List.flatten_append] at h
  exact h (hcrash.append _)

/-- Event by event: a run from a state between two events ends in one. -/
theorem Reading.exec : ∀ {es : List Event} {chunks : List Buffer} {n : Nat} {s t : MessageStream},
    Reading codecs max chunks n s → Run.exec (step codecs) s es = some t →
    ¬ Crashing codecs max (chunks ++ chunksOf es).flatten → ∃ k, Reading codecs max (chunks ++ chunksOf es) k t
  | [], chunks, n, s, t, h, hr, _ => by
    cases hr
    exact ⟨n, by simpa [chunksOf] using h⟩
  | .write chunk :: es, chunks, n, s, t, h, hr, hsafe => by
    obtain ⟨u, hu, hr⟩ := (Run.exec_cons _).1 hr
    have happ : chunks ++ chunksOf (.write chunk :: es) = (chunks ++ [chunk]) ++ chunksOf es := by simp [chunksOf]
    rw [happ] at hsafe ⊢
    simp only [step] at hu
    split at hu
    · rename_i hready
      cases hu
      obtain ⟨k, hk⟩ := h.write hready (not_crashing_of_append hsafe)
      exact hk.exec hr hsafe
    · cases hu
  | .decompressed :: es, chunks, n, s, t, h, hr, hsafe => by
    obtain ⟨u, hu, hr⟩ := (Run.exec_cons _).1 hr
    obtain ⟨a, ha, rfl⟩ := Option.map_eq_some_iff.1 hu
    have hsafe' : ¬ Crashing codecs max (chunks ++ chunksOf es).flatten := hsafe
    show ∃ k, Reading codecs max (chunks ++ chunksOf es) k t
    exact (h.resume ha (not_crashing_of_append hsafe')).exec hr hsafe'

/-- The bodies that are awaited come back one after the other, and then none is. -/
theorem Reading.settle (hsafe : ¬ Crashing codecs max chunks.flatten) :
    ∀ {n : Nat} {s : MessageStream}, Reading codecs max chunks n s →
      ∃ k u, Run.exec (step codecs) s (List.replicate k .decompressed) = some u ∧ u.awaiting = none
  | 0, s, h => by
    cases h with
    | idle pos awaiting callbacks short => exact ⟨0, s, rfl, awaiting⟩
    | refused writes thrown awaiting callbacks once => exact ⟨0, s, rfl, awaiting⟩
    | suspended pos awaiting safely frames callbacks less => omega
  | n + 1, s, h => by
    cases hs : s.awaiting with
    | none => exact ⟨0, s, rfl, hs⟩
    | some a =>
      have hle : s.buffer.length ≤ n := by
        cases h with
        | idle pos awaiting callbacks short => rw [awaiting] at hs; cases hs
        | refused writes thrown awaiting callbacks once => rw [awaiting] at hs; cases hs
        | suspended pos awaiting safely frames callbacks less => omega
      obtain ⟨k, u, hr, hu⟩ := ((h.resume hs hsafe).mono hle).settle hsafe
      refine ⟨k + 1, u, ?_, hu⟩
      rw [List.replicate_succ]
      refine (Run.exec_cons _).2 ⟨_, ?_, hr⟩
      simp only [step, hs, Option.map_some]

/-! ## What a reader that does not crash does -/

theorem Reading.thrown {n : Nat} (h : Reading codecs max chunks n s) : s.thrown = none := by
  cases h with
  | idle pos awaiting callbacks short => exact pos.thrown
  | refused writes thrown awaiting callbacks once => exact thrown
  | suspended pos awaiting safely frames callbacks less => exact pos.thrown

/-- Every write but a suspended one was called back, once. -/
theorem Reading.once {n : Nat} (h : Reading codecs max chunks n s) :
    s.callbacks.length + s.awaiting.toList.length = chunks.length := by
  cases h with
  | idle pos awaiting callbacks short =>
    rw [awaiting, callbacks, ← pos.writes]
    simp
  | refused writes thrown awaiting callbacks once =>
    rw [awaiting, once, writes]
    rfl
  | suspended pos awaiting safely frames callbacks less =>
    rw [awaiting, ← pos.writes]
    exact length_of_open callbacks

/-- Malformed bytes were reported. -/
theorem Reading.reported {n : Nat} (h : Reading codecs max chunks n s) (hidle : s.awaiting = none)
    (hfaulty : Faulty codecs max chunks.flatten) : ∃ e, s.callbacks.getLast? = some (some e) := by
  cases h with
  | idle pos awaiting callbacks short =>
    obtain ⟨ms', tail', heq, hms', hhead⟩ := hfaulty
    have hreceived := pos.received
    rw [List.nil_append] at hreceived
    exact absurd hhead (not_faulty_of_incomplete (hreceived.symm.trans heq) pos.valid hms' short)
  | @refused earlier e writes thrown awaiting callbacks once => exact ⟨e, by rw [callbacks]; simp⟩
  | suspended pos awaiting safely frames callbacks less => rw [awaiting] at hidle; cases hidle

end Reader

/-- Bytes are written to a stream in any chunks. As long as they hold, after whole messages that decode, no message that
is too short for its header, its compression details or the fields of its class, none with an unknown compressor and
none with a negative count, nothing is thrown, every write is called back once as soon as no body is awaited, which is
always reached, and malformed bytes are then reported as an error. -/
theorem hostile_bytes_contained (codecs : Codecs) (opt : Option Nat) (es : List Event) (t : MessageStream)
    (hrun : Run.exec (step codecs) (MessageStream.new opt) es = some t)
    (hsafe : ¬ Crashing codecs (maxSize opt) (chunksOf es).flatten) :
    t.thrown = none ∧ t.callbacks.length + t.awaiting.toList.length = (chunksOf es).length ∧
      (t.awaiting = none → Faulty codecs (maxSize opt) (chunksOf es).flatten →
        ∃ e, t.callbacks.getLast? = some (some e)) ∧
      ∃ k u, Run.exec (step codecs) t (List.replicate k .decompressed) = some u ∧ u.awaiting = none := by
  obtain ⟨k, h⟩ := (Reading.new codecs opt).exec hrun (by rw [List.nil_append]; exact hsafe)
  rw [List.nil_append] at h
  exact ⟨h.thrown, h.once, h.reported, h.settle hsafe⟩

/-- Bytes whose first size is refused do not crash the reader. -/
theorem BadSize.not_crashing {codecs : Codecs} {max : Nat} {bytes : Buffer} (h : BadSize max bytes) :
    ¬ Crashing codecs max bytes := by
  rintro ⟨ms, message, rest, rfl, hms, hcut, -⟩
  obtain ⟨size, hread, hbad⟩ := h
  cases ms with
  | nil =>
    have hdeclared := hcut.declared
    have hmost := hcut.most
    rw [List.flatten_nil, List.nil_append, hdeclared] at hread
    cases hread
    omega
  | cons m ms =>
    rw [List.flatten_cons, List.append_assoc] at hread
    exact (hms m (List.mem_cons_self ..)).not_faulty (.inl ⟨size, hread, hbad⟩)

/-- A negative size, in two chunks: the second write is called back with an error. -/
theorem negative_size_reported :
    ∃ t, Run.exec (step storedCodecs) (MessageStream.new none) [.write [255, 255], .write [255, 255]] = some t ∧
      t.awaiting = none ∧ t.thrown = none ∧ t.callbacks.length = 2 ∧ ∃ e, t.callbacks.getLast? = some (some e) := by
  have hbad : BadSize (maxSize none) [255, 255, 255, 255] := ⟨-1, by decide, .inl (by decide)⟩
  refine ⟨_, rfl, rfl, ?_⟩
  obtain ⟨hthrown, honce, hreported, -⟩ := hostile_bytes_contained storedCodecs none
    [.write [255, 255], .write [255, 255]] _ rfl hbad.not_crashing
  exact ⟨hthrown, honce, hreported rfl ⟨[], [255, 255, 255, 255], rfl, fun m hm => (by cases hm), .inl hbad⟩⟩

/-- Four bytes that declare a message of four bytes: the header is read outside of it, and the callback of the write is
not called. -/
theorem short_message_throws :
    ¬ ∀ (codecs : Codecs) (opt : Option Nat) (es : List Event) (t : MessageStream),
        Run.exec (step codecs) (MessageStream.new opt) es = some t →
        t.thrown = none ∧ t.callbacks.length + t.awaiting.toList.length = (chunksOf es).length := by
  intro h
  obtain ⟨hthrown, -⟩ := h storedCodecs none [.write [4, 0, 0, 0]] _ rfl
  exact absurd hthrown (by decide)

end MongoDriver.Cmap
