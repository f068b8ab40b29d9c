/-
What the encoders write is what the wire protocol says. Each `toBin` is the concatenation of the fields of its
message, so that a reader of the protocol gets back the values of the object; and an `OP_MSG` that is fed to a
message stream comes out as one message with its request id, flags and command.
-/
import MongoDriver.Cmap.Encoding
import MongoDriver.Cmap.Framing
import Mathlib.Algebra.Group.Nat.Defs

namespace MongoDriver.Cmap

open Filling MessageStream

/-! ## Integers -/

/-- The value fits in a signed integer of 32 bits. -/
def FitsInt32 (value : Int) : Prop := -2147483648 ≤ value ∧ value ≤ 2147483647

theorem byteOf_eq (value : Int) (shift : Nat) (h : shift + 8 ≤ 32) :
    byteOf value shift = UInt8.ofNat ((value % 4294967296).toNat / 2 ^ shift) := by
  have hbits : ((BitVec.ofInt 32 value).sshiftRight shift &&& 255#32).setWidth 8 =
      BitVec.ofNat 8 ((BitVec.ofInt 32 value).toNat / 2 ^ shift) := by
    apply BitVec.eq_of_getLsbD_eq
    intro i hi
    have hmask : (255#32).getLsbD i = true := by
      rw [BitVec.getLsbD_ofNat, show 255 = 2 ^ 8 - 1 from rfl, Nat.testBit_two_pow_sub_one]
      simp only [hi, decide_true, Bool.and_true, decide_eq_true_eq]
      omega
    have hlow : ¬ 32 ≤ i := by omega
    have hin : shift + i < 32 := by omega
    rw [BitVec.getLsbD_setWidth, BitVec.getLsbD_and, hmask, BitVec.getLsbD_sshiftRight, BitVec.getLsbD_ofNat,
      ← Nat.shiftRight_eq_div_pow, Nat.testBit_shiftRight, BitVec.testBit_toNat, if_pos hin]
    simp only [hlow, decide_false, Bool.not_false, Bool.true_and, Bool.and_true]
  unfold byteOf
  rw [hbits, BitVec.toNat_ofInt]
  rfl

/-- The bytes assigned one by one are those of `writeInt32LE`. -/
theorem bytesOf_eq (value : Int) :
    [byteOf value 0, byteOf value 8, byteOf value 16, byteOf value 24] = writeInt32LE value := by
  rw [byteOf_eq value 0 (by decide), byteOf_eq value 8 (by decide), byteOf_eq value 16 (by decide),
    byteOf_eq value 24 (by decide)]
  simp only [writeInt32LE, Nat.pow_zero, Nat.div_one, Nat.reducePow]

@[simp] theorem length_writeInt32LE (value : Int) : (writeInt32LE value).length = 4 := rfl

/-- An integer is read back where it was written, and the reader goes on after it. -/
theorem readInt32LE_next {buffer rest : Buffer} {value : Int} {offset : Nat} (hv : FitsInt32 value)
    (h : buffer.drop offset = writeInt32LE value ++ rest) :
    readInt32LE buffer offset = .ok value ∧ buffer.drop (offset + 4) = rest := by
  obtain ⟨hlo, hhi⟩ := hv
  refine ⟨?_, by rw [← List.drop_drop, h]; rfl⟩
  have hn : (value % 4294967296).toNat < 4294967296 := by omega
  have hvalue : value = if (value % 4294967296).toNat < 2147483648 then ((value % 4294967296).toNat : Int)
      else ((value % 4294967296).toNat : Int) - 4294967296 := by
    split <;> omega
  unfold readInt32LE
  rw [h]
  unfold writeInt32LE
  generalize (value % 4294967296).toNat = n at hn hvalue
  simp only [List.cons_append, UInt8.toNat_ofNat']
  have hsum : n % 2 ^ 8 + 256 * (n / 256 % 2 ^ 8 + 256 * (n / 65536 % 2 ^ 8 + 256 * (n / 16777216 % 2 ^ 8))) = n := by
    omega
  rw [hsum, ← hvalue]

/-! ## Strings -/

theorem fromUTF8?_utf8 (s : String) : String.fromUTF8? (utf8 s).toByteArray = some s := by
  have hbytes : (utf8 s).toByteArray = s.toByteArray := by
    rw [← String.utf8Encode_toList]
    rfl
  rw [hbytes]
  unfold String.fromUTF8?
  rw [dif_pos s.isValidUTF8]
  rfl

/-- A null byte is the encoding of the null character. -/
theorem zero_mem_utf8EncodeChar {c : Char} (h : (0 : UInt8) ∈ String.utf8EncodeChar c) : c = Char.ofNat 0 := by
  have hbyte : ∀ n : Nat, 0 < n → n < 256 → (0 : UInt8) ≠ UInt8.ofNat n := by
    intro n hpos hlt heq
    have hmod := congrArg UInt8.toNat heq
    rw [UInt8.toNat_ofNat'] at hmod
    change 0 = n % 2 ^ 8 at hmod
    omega
  unfold String.utf8EncodeChar at h
  simp only at h
  split at h
  · rename_i hsmall
    have heq := List.mem_singleton.1 h
    by_cases hzero : c.val.toNat = 0
    · exact Char.ext (UInt32.toNat_inj.1 hzero)
    · exact absurd heq (hbyte _ (by omega) (by omega))
  · exfalso
    split at h
    · simp only [List.mem_cons, List.not_mem_nil, or_false] at h
      rcases h with h | h
      all_goals exact hbyte _ (by omega) (by omega) h
    · split at h
      · simp only [List.mem_cons, List.not_mem_nil, or_false] at h
        rcases h with h | h | h
        all_goals exact hbyte _ (by omega) (by omega) h
      · simp only [List.mem_cons, List.not_mem_nil, or_false] at h
        rcases h with h | h | h | h
        all_goals exact hbyte _ (by omega) (by omega) h

theorem zero_not_mem_utf8 {s : String} (h : Char.ofNat 0 ∉ s.toList) : (0 : UInt8) ∉ utf8 s := by
  intro hmem
  obtain ⟨c, hc, hbyte⟩ := List.mem_flatMap.1 hmem
  obtain rfl := zero_mem_utf8EncodeChar hbyte
  exact h hc

theorem fitting_all : ∀ (cs : List Char) {room : Nat}, (cs.flatMap String.utf8EncodeChar).length ≤ room →
    fitting cs room = cs.flatMap String.utf8EncodeChar
  | [], _, _ => rfl
  | c :: cs, room, h => by
    rw [List.flatMap_cons, List.length_append] at h
    unfold fitting
    simp only
    rw [if_pos (by omega), fitting_all cs (by omega), List.flatMap_cons]

/-! ## Filling the buffers -/

theorem Filled.setInt32 {buffer written : Buffer} {free index : Nat} (h : Filled buffer index written (free + 4))
    (value : Int) : Filled (setInt32 buffer index value) (index + 4) (written ++ writeInt32LE value) free := by
  rw [← bytesOf_eq]
  exact h.set_four ..

/-- The first five integers of a message. -/
def headerBytes (length requestId opCode flags : Int) : Buffer :=
  writeInt32LE length ++ writeInt32LE requestId ++ writeInt32LE 0 ++ writeInt32LE opCode ++ writeInt32LE flags

theorem filled_setHeader {size free : Nat} (hsize : size = free + 20) (length requestId opCode flags : Int) :
    Filled (setHeader (List.replicate size 0) length requestId opCode flags) 20
      (headerBytes length requestId opCode flags) free := by
  subst hsize
  have h0 : Filled (List.replicate (free + 20) (0 : UInt8)) 0 [] (free + 4 + 4 + 4 + 4 + 4) := filled_alloc ..
  have h1 := Filled.setInt32 h0 length
  have h2 := Filled.setInt32 h1 requestId
  have h3 := Filled.setInt32 h2 0
  have h4 := Filled.setInt32 h3 opCode
  exact Filled.setInt32 h4 flags

theorem filled_setNamespace {buffer written : Buffer} {free index : Nat} (ns : String)
    (h : Filled buffer index written (byteLength ns + (free + 1))) :
    Filled (setNamespace buffer ns index).1 (setNamespace buffer ns index).2 (written ++ utf8 ns ++ [0]) free := by
  have hroom : byteLength ns ≤ buffer.length - index := by
    rw [h.length]
    omega
  have hfits : fitting ns.toList (buffer.length - index) = utf8 ns := fitting_all ns.toList hroom
  have hns : Filled (splice buffer index (utf8 ns)) (index + (utf8 ns).length) (written ++ utf8 ns)
    (free + 1) := h.splice
  unfold setNamespace writeString
  simp only [hfits]
  exact hns.set 0

theorem filled_setLong {buffer written : Buffer} {free index : Nat} (h : Filled buffer index written (free + 8))
    (cursorId : BitVec 64) :
    Filled (setLong buffer index cursorId) (index + 8)
      (written ++ (writeInt32LE (getLowBits cursorId) ++ writeInt32LE (getHighBits cursorId))) free := by
  have hroom : Filled buffer index written (free + 4 + 4) := h
  rw [← List.append_assoc]
  exact Filled.setInt32 (Filled.setInt32 hroom (getLowBits cursorId)) (getHighBits cursorId)

def longsBytes (ids : List (BitVec 64)) : Buffer :=
  ids.flatMap fun id => writeInt32LE (getLowBits id) ++ writeInt32LE (getHighBits id)

theorem filled_setLongs : ∀ (ids : List (BitVec 64)) {buffer written : Buffer} {index : Nat},
    Filled buffer index written (ids.length * 8) → setLongs buffer index ids = written ++ longsBytes ids
  | [], _, written, _, h => by
    rw [longsBytes, List.flatMap_nil, List.append_nil]
    exact h.eq
  | id :: ids, buffer, written, index, h => by
    have hroom : Filled buffer index written (ids.length * 8 + 8) := by
      rw [List.length_cons, Nat.succ_mul] at h
      exact h
    have hrest := filled_setLongs ids (filled_setLong hroom id)
    rw [List.append_assoc] at hrest
    exact hrest

/-! ## The bytes of a message -/

section Layout

variable {δ : Type} {docs : Documents δ}

/-- The part of `OP_QUERY` before the documents. -/
def queryBytes (q : Query δ) (length : Int) : Buffer :=
  headerBytes length q.requestId opQuery q.flags ++ utf8 q.ns ++ [0] ++ writeInt32LE q.numberToSkip ++
    writeInt32LE q.numberToReturn

theorem length_queryBytes (q : Query δ) (length : Int) : (queryBytes q length).length = byteLength q.ns + 29 := by
  simp only [queryBytes, headerBytes, byteLength, List.length_append, length_writeInt32LE, List.length_singleton]
  omega

theorem Query.header_eq (q : Query δ) (length : Nat) : q.header length = queryBytes q length := by
  have hsize : 4 * 4 + 4 + byteLength q.ns + 1 + 4 + 4 = byteLength q.ns + (0 + 4 + 4 + 1) + 20 := by omega
  have hns := filled_setNamespace q.ns (filled_setHeader hsize length q.requestId opQuery q.flags)
  unfold Query.header
  simp only
  generalize setNamespace _ q.ns 20 = r at hns ⊢
  obtain ⟨header, index⟩ := r
  exact (Filled.setInt32 (Filled.setInt32 hns q.numberToSkip) q.numberToReturn).eq

theorem Query.toBin_bytes {q q' : Query δ} {buffers : List Buffer} (h : q.toBin docs = .ok (q', buffers)) :
    q' = { q with numberToReturn := q.batchSize } ∧
      ∃ documents, buffers.flatten = queryBytes q' buffers.flatten.length ++ documents := by
  unfold Query.toBin at h
  have hq : (if q.batchSize ≠ q.numberToReturn then { q with numberToReturn := q.batchSize } else q) =
      { q with numberToReturn := q.batchSize } := by
    split
    · rfl
    · rename_i heq
      exact (congrArg (fun n => ({ q with numberToReturn := n } : Query δ)) (not_not.1 heq)).symm
  rw [← hq]
  generalize (if q.batchSize ≠ q.numberToReturn then { q with numberToReturn := q.batchSize } else q) = r at h ⊢
  obtain ⟨query, hquery, h⟩ := Run.bind_ok.1 h
  obtain ⟨projection, hprojection, h⟩ := Run.bind_ok.1 h
  cases h
  refine ⟨rfl, query ++ projection.toList.flatten, ?_⟩
  have hprojection : (projection.map List.length).getD 0 = projection.toList.flatten.length := by
    cases projection with
    | none => rfl
    | some bytes => simp
  rw [Query.header_eq, List.flatten_cons, List.flatten_cons, List.length_append, List.length_append, length_queryBytes,
    hprojection]
  congr 3
  omega

/-- The query is written when its documents are. -/
theorem Query.toBin_ok {q : Query δ} {query : Buffer} {projection : Option Buffer}
    (hquery : docs.serialize q.query q.serializeOptions = .ok query)
      (hprojection : q.projection docs = .ok projection) :
    ∃ q' buffers, q.toBin docs = .ok (q', buffers) := by
  unfold Query.toBin
  by_cases heq : q.batchSize = q.numberToReturn
  · simp only [heq, ne_eq, not_true_eq_false, if_false, hquery, hprojection, bind, Except.bind]
    exact ⟨_, _, rfl⟩
  · have hquery' : docs.serialize ({ q with numberToReturn := q.batchSize } : Query δ).query
        ({ q with numberToReturn := q.batchSize } : Query δ).serializeOptions = .ok query := hquery
    have hprojection' : ({ q with numberToReturn := q.batchSize } : Query δ).projection docs = .ok projection :=
      hprojection
    simp only [ne_eq, heq, not_false_eq_true, if_true, hquery', hprojection', bind, Except.bind]
    exact ⟨_, _, rfl⟩

/-- A single buffer whose length field says how long it is. -/
theorem flatten_singleton_bytes {buffer : Buffer} {length : Nat} (bytes : Int → Buffer) (h : buffer = bytes length)
    (hlength : (bytes length).length = length) : [buffer].flatten = bytes [buffer].flatten.length := by
  rw [List.flatten_singleton, h, hlength]

def getMoreBytes (g : GetMore) (length : Int) : Buffer :=
  headerBytes length g.requestId opGetMore 0 ++ utf8 g.ns ++ [0] ++ writeInt32LE g.numberToReturn ++
    (writeInt32LE (getLowBits g.cursorId) ++ writeInt32LE (getHighBits g.cursorId))

theorem GetMore.toBin_bytes (g : GetMore) : g.toBin.flatten = getMoreBytes g g.toBin.flatten.length := by
  have hsize : 4 + byteLength g.ns + 1 + 4 + 8 + 4 * 4 = byteLength g.ns + (0 + 8 + 4 + 1) + 20 := by omega
  unfold GetMore.toBin
  generalize 4 + byteLength g.ns + 1 + 4 + 8 + 4 * 4 = size at hsize ⊢
  have hns := filled_setNamespace g.ns (filled_setHeader hsize size g.requestId opGetMore 0)
  simp only
  generalize setNamespace _ g.ns 20 = r at hns ⊢
  have hall := filled_setLong (Filled.setInt32 hns g.numberToReturn) g.cursorId
  refine flatten_singleton_bytes (getMoreBytes g) hall.eq ?_
  simp only [getMoreBytes, headerBytes, List.length_append, length_writeInt32LE,
    List.length_singleton, hsize, byteLength]
  omega

def killCursorBytes (k : KillCursor) (length : Int) : Buffer :=
  headerBytes length k.requestId opKillCursors 0 ++ writeInt32LE k.cursorIds.length ++ longsBytes k.cursorIds

theorem length_longsBytes (ids : List (BitVec 64)) : (longsBytes ids).length = ids.length * 8 := by
  simp [longsBytes, List.length_flatMap]

theorem KillCursor.toBin_bytes (k : KillCursor) : k.toBin.flatten = killCursorBytes k k.toBin.flatten.length := by
  have hsize : 4 + 4 + 4 * 4 + k.cursorIds.length * 8 = (k.cursorIds.length * 8 + 4) + 20 := by omega
  unfold KillCursor.toBin
  generalize 4 + 4 + 4 * 4 + k.cursorIds.length * 8 = size at hsize ⊢
  have hcount := Filled.setInt32 (filled_setHeader hsize size k.requestId opKillCursors 0) k.cursorIds.length
  refine flatten_singleton_bytes (killCursorBytes k) (filled_setLongs k.cursorIds hcount) ?_
  simp only [killCursorBytes, headerBytes, List.length_append, length_writeInt32LE, length_longsBytes, hsize]
  omega

theorem Filled.spliceInt32 {buffer written : Buffer} {index free : Nat} (h : Filled buffer index written (free + 4))
    (value : Int) :
    Filled (splice buffer index (writeInt32LE value)) (index + 4) (written ++ writeInt32LE value) free := by
  have hroom : Filled buffer index written ((writeInt32LE value).length + free) := by
    rw [length_writeInt32LE, Nat.add_comm]
    exact h
  exact hroom.splice

theorem Filled.putInt32LE {buffer buffer' written : Buffer} {value : Int} {index free : Nat}
    (h : Filled buffer index written (free + 4)) (hput : putInt32LE buffer value index = .ok buffer') :
    FitsInt32 value ∧ Filled buffer' (index + 4) (written ++ writeInt32LE value) free := by
  unfold Cmap.putInt32LE at hput
  split at hput
  · cases hput
  · rename_i hrange
    split at hput <;> cases hput
    exact ⟨⟨by omega, by omega⟩, Filled.spliceInt32 h value⟩

theorem Filled.putUInt32LE {buffer buffer' written : Buffer} {value index free : Nat}
    (h : Filled buffer index written (free + 4)) (hput : putUInt32LE buffer value index = .ok buffer') :
    Filled buffer' (index + 4) (written ++ writeInt32LE value) free := by
  unfold Cmap.putUInt32LE at hput
  split at hput
  · cases hput
  · split at hput <;> cases hput
    exact Filled.spliceInt32 h value

def msgBytes (m : Msg δ) (document : Buffer) (length : Int) : Buffer :=
  headerBytes length m.requestId opMsg m.flags ++ ([0] ++ document)

/-- `writeInt32LE` refuses what does not fit. -/
theorem Msg.toBin_bytes {m : Msg δ} {buffers : List Buffer} (h : m.toBin docs = .ok buffers) :
    ∃ document, m.serializeBson docs m.command = .ok document ∧ FitsInt32 m.requestId ∧
      FitsInt32 buffers.flatten.length ∧ buffers.flatten = msgBytes m document buffers.flatten.length := by
  unfold Msg.toBin Msg.makeDocumentSegment at h
  obtain ⟨⟨segments, length⟩, hsegment, h⟩ := Run.bind_ok.1 h
  obtain ⟨document, hdocument, hsegment⟩ := Run.bind_ok.1 hsegment
  cases hsegment
  obtain ⟨header1, h1, h⟩ := Run.bind_ok.1 h
  obtain ⟨header2, h2, h⟩ := Run.bind_ok.1 h
  obtain ⟨header3, h3, h⟩ := Run.bind_ok.1 h
  obtain ⟨header4, h4, h⟩ := Run.bind_ok.1 h
  obtain ⟨header5, h5, h⟩ := Run.bind_ok.1 h
  cases h
  have f0 : Filled (List.replicate (4 * 4 + 4) (0 : UInt8)) 0 [] (0 + 4 + 4 + 4 + 4 + 4) := filled_alloc ..
  obtain ⟨hlength, f1⟩ := Filled.putInt32LE f0 h1
  obtain ⟨hrequestId, f2⟩ := Filled.putInt32LE f1 h2
  obtain ⟨-, f3⟩ := Filled.putInt32LE f2 h3
  obtain ⟨-, f4⟩ := Filled.putInt32LE f3 h4
  have f5 := (Filled.putUInt32LE f4 h5).eq
  have htotal : ((header5 :: [[0], document]).flatten.length : Int) =
      ((List.replicate (4 * 4 + 4) (0 : UInt8)).length + ([(0 : UInt8)].length + document.length) : Nat) := by
    simp only [f5, List.flatten_cons, List.flatten_nil, List.append_nil, List.length_append, length_writeInt32LE,
      List.length_replicate, List.length_nil]
  refine ⟨document, hdocument, hrequestId, htotal ▸ hlength, ?_⟩
  rw [htotal, f5]
  simp only [msgBytes, headerBytes, List.flatten_cons, List.flatten_nil, List.append_nil, List.nil_append]

theorem Filled.putInt32LE_ok {buffer written : Buffer} {value : Int} {index free : Nat}
    (h : Filled buffer index written (free + 4)) (hv : FitsInt32 value) :
    ∃ buffer', Cmap.putInt32LE buffer value index = .ok buffer' ∧
      Filled buffer' (index + 4) (written ++ writeInt32LE value) free := by
  refine ⟨_, ?_, Filled.spliceInt32 h value⟩
  have hroom := h.length
  unfold FitsInt32 at hv
  unfold Cmap.putInt32LE
  rw [if_neg (by omega), if_neg (by omega)]

theorem Msg.flags_lt (m : Msg δ) : m.flags < 131072 := by
  unfold Msg.flags
  cases m.checksumPresent <;> cases m.moreToCome <;> cases m.exhaustAllowed <;> decide

/-- The message is written when its command is and everything fits. -/
theorem Msg.toBin_ok {m : Msg δ} {document : Buffer} (hdocument : m.serializeBson docs m.command = .ok document)
    (hid : FitsInt32 m.requestId) (hlength : FitsInt32 (21 + document.length)) :
    ∃ buffers, m.toBin docs = .ok buffers := by
  have f0 : Filled (List.replicate (4 * 4 + 4) (0 : UInt8)) 0 [] (0 + 4 + 4 + 4 + 4 + 4) := filled_alloc ..
  have htotal : FitsInt32
      ((List.replicate (4 * 4 + 4) (0 : UInt8)).length + ([(0 : UInt8)].length + document.length) : Nat) := by
    rw [List.length_replicate, List.length_singleton, ← Nat.add_assoc]
    exact hlength
  obtain ⟨header1, h1, f1⟩ := Filled.putInt32LE_ok f0 htotal
  obtain ⟨header2, h2, f2⟩ := Filled.putInt32LE_ok f1 hid
  obtain ⟨header3, h3, f3⟩ := Filled.putInt32LE_ok f2 (show FitsInt32 0 from ⟨by decide, by decide⟩)
  obtain ⟨header4, h4, f4⟩ := Filled.putInt32LE_ok f3 (show FitsInt32 opMsg from ⟨by decide, by decide⟩)
  have h5 : putUInt32LE header4 m.flags 16 = .ok (splice header4 16 (writeInt32LE m.flags)) := by
    have hflags := m.flags_lt
    have hroom := f4.length
    unfold putUInt32LE
    rw [if_neg (by omega), if_neg (by omega)]
  refine ⟨splice header4 16 (writeInt32LE m.flags) :: [[0], document], ?_⟩
  simp only [Msg.toBin, Msg.makeDocumentSegment, hdocument, bind, Except.bind, pure, Except.pure, h1, h2, h3, h4, h5]

end Layout

/-! ## Reading the protocol -/

/-- A string up to its terminator, and the offset after it. -/
def readCString (buffer : Buffer) (offset : Nat) : Except AnyError (String × Nat) :=
  let bytes := (buffer.drop offset).takeWhile (· ≠ 0)
  match String.fromUTF8? bytes.toByteArray with
  | some string =>
    if offset + bytes.length < buffer.length then .ok (string, offset + bytes.length + 1) else .error outOfRange
  | none => .error outOfRange

def readLong (buffer : Buffer) (offset : Nat) : Except AnyError (BitVec 64) := do
  let low ← readInt32LE buffer offset
  let high ← readInt32LE buffer (offset + 4)
  return BitVec.ofInt 32 high ++ BitVec.ofInt 32 low

def readLongs (buffer : Buffer) (offset : Nat) : Nat → Except AnyError (List (BitVec 64))
  | 0 => .ok []
  | n + 1 => do
    let id ← readLong buffer offset
    let ids ← readLongs buffer (offset + 8) n
    return id :: ids

/-- The fields of `OP_QUERY` after the message header, up to the documents. -/
structure QueryFields where
  tailable : Bool
  secondaryOk : Bool
  oplogReplay : Bool
  noCursorTimeout : Bool
  awaitData : Bool
  exhaust : Bool
  partialResults : Bool
  ns : String
  numberToSkip : Int
  numberToReturn : Int

def QueryFields.read (bytes : Buffer) : Except AnyError QueryFields := do
  let flags ← readInt32LE bytes 16
  let (ns, offset) ← readCString bytes 20
  let numberToSkip ← readInt32LE bytes offset
  let numberToReturn ← readInt32LE bytes (offset + 4)
  return {
    tailable := hasFlag flags 2, secondaryOk := hasFlag flags 4, oplogReplay := hasFlag flags 8,
    noCursorTimeout := hasFlag flags 16, awaitData := hasFlag flags 32, exhaust := hasFlag flags 64,
    partialResults := hasFlag flags 128, ns, numberToSkip, numberToReturn }

/-- The fields of `OP_GET_MORE` after the message header. -/
structure GetMoreFields where
  zero : Int
  ns : String
  numberToReturn : Int
  cursorId : BitVec 64

def GetMoreFields.read (bytes : Buffer) : Except AnyError GetMoreFields := do
  let zero ← readInt32LE bytes 16
  let (ns, offset) ← readCString bytes 20
  let numberToReturn ← readInt32LE bytes offset
  let cursorId ← readLong bytes (offset + 4)
  return { zero, ns, numberToReturn, cursorId }

/-- The fields of `OP_KILL_CURSORS` after the message header. -/
structure KillCursorFields where
  zero : Int
  cursorIds : List (BitVec 64)

def KillCursorFields.read (bytes : Buffer) : Except AnyError KillCursorFields := do
  let zero ← readInt32LE bytes 16
  let count ← readInt32LE bytes 20
  let cursorIds ← readLongs bytes 24 count.toNat
  return { zero, cursorIds }

theorem header_read {bytes rest : Buffer} {length requestId opCode flags : Int} (hlength : FitsInt32 length)
    (hrequestId : FitsInt32 requestId) (hopCode : FitsInt32 opCode) (hflags : FitsInt32 flags)
    (hb : bytes = headerBytes length requestId opCode flags ++ rest) :
    MessageHeader.read bytes = .ok { length, requestId, responseTo := 0, opCode } ∧
      readInt32LE bytes 16 = .ok flags ∧ bytes.drop 20 = rest := by
  have hzero : FitsInt32 0 := ⟨by decide, by decide⟩
  simp only [headerBytes, List.append_assoc] at hb
  have d0 : bytes.drop 0 = _ := hb
  obtain ⟨h0, d4⟩ := readInt32LE_next hlength d0
  obtain ⟨h4, d8⟩ := readInt32LE_next hrequestId d4
  obtain ⟨h8, d12⟩ := readInt32LE_next hzero d8
  obtain ⟨h12, d16⟩ := readInt32LE_next hopCode d12
  obtain ⟨h16, d20⟩ := readInt32LE_next hflags d16
  refine ⟨?_, h16, d20⟩
  simp only [MessageHeader.read, h0, h4, h8, h12, bind, Except.bind, pure, Except.pure]

theorem MessageHeader.read_length {bytes : Buffer} {header : MessageHeader}
    (h : MessageHeader.read bytes = .ok header) :
    readInt32LE bytes 0 = .ok header.length := by
  obtain ⟨length, hlength, h⟩ := Run.bind_ok.1 h
  obtain ⟨requestId, -, h⟩ := Run.bind_ok.1 h
  obtain ⟨responseTo, -, h⟩ := Run.bind_ok.1 h
  obtain ⟨opCode, -, h⟩ := Run.bind_ok.1 h
  cases h
  exact hlength

theorem header_opCode {bytes rest : Buffer} {length requestId opCode flags : Int} (hopCode : FitsInt32 opCode)
    (hb : bytes = headerBytes length requestId opCode flags ++ rest) : readInt32LE bytes 12 = .ok opCode := by
  have d12 : bytes.drop 12 = writeInt32LE opCode ++ (writeInt32LE flags ++ rest) := by
    rw [hb]
    rfl
  exact (readInt32LE_next hopCode d12).1

theorem readCString_next {buffer rest : Buffer} {ns : String} {offset : Nat} (hns : Char.ofNat 0 ∉ ns.toList)
    (h : buffer.drop offset = utf8 ns ++ ([0] ++ rest)) :
    ∃ next, readCString buffer offset = .ok (ns, next) ∧ buffer.drop next = rest := by
  have hbytes : (buffer.drop offset).takeWhile (· ≠ 0) = utf8 ns := by
    rw [h, List.takeWhile_append_of_pos]
    · simp
    · intro b hb
      have hne : b ≠ 0 := by
        rintro rfl
        exact zero_not_mem_utf8 hns hb
      simpa using hne
  have hlen : offset + (utf8 ns).length < buffer.length := by
    have hlength := congrArg List.length h
    simp only [List.length_drop, List.length_append, List.length_singleton] at hlength
    omega
  refine ⟨offset + (utf8 ns).length + 1, ?_, ?_⟩
  · unfold readCString
    simp only [hbytes, fromUTF8?_utf8, if_pos hlen]
  · rw [Nat.add_assoc, ← List.drop_drop, h]
    simp [List.drop_append]

theorem readLong_next {buffer rest : Buffer} {cursorId : BitVec 64} {offset : Nat}
    (h : buffer.drop offset = writeInt32LE (getLowBits cursorId) ++ writeInt32LE (getHighBits cursorId) ++ rest) :
    readLong buffer offset = .ok cursorId ∧ buffer.drop (offset + 8) = rest := by
  have hrange : ∀ w : BitVec 32, FitsInt32 w.toInt := by
    intro w
    have hlo := BitVec.le_toInt w
    have hhi := BitVec.toInt_lt (x := w)
    constructor
    · omega
    · omega
  rw [List.append_assoc] at h
  obtain ⟨hlow, d4⟩ := readInt32LE_next (hrange _) h
  obtain ⟨hhigh, d8⟩ := readInt32LE_next (hrange _) d4
  refine ⟨?_, d8⟩
  have hwords : cursorId.extractLsb' 32 32 ++ cursorId.setWidth 32 = cursorId := by
    apply BitVec.eq_of_getLsbD_eq
    intro i hi
    rw [BitVec.getLsbD_append, BitVec.getLsbD_extractLsb', BitVec.getLsbD_setWidth]
    by_cases hlow : i < 32
    · simp [hlow]
    · simp [hlow, show i - 32 < 32 by omega, show 32 + (i - 32) = i by omega]
  simp only [readLong, hlow, hhigh, bind, Except.bind, pure, Except.pure, BitVec.ofInt_toInt, hwords]

theorem readLongs_next : ∀ (ids : List (BitVec 64)) {buffer : Buffer} {offset : Nat},
    buffer.drop offset = longsBytes ids → readLongs buffer offset ids.length = .ok ids
  | [], _, _, _ => rfl
  | id :: ids, buffer, offset, h => by
    have hfirst : buffer.drop offset = writeInt32LE (getLowBits id) ++
      writeInt32LE (getHighBits id) ++ longsBytes ids := h
    obtain ⟨hid, hrest⟩ := readLong_next hfirst
    have hids := readLongs_next ids hrest
    simp only [List.length_cons, readLongs, hid, hids, bind, Except.bind, pure, Except.pure]

/-! ## The fields of the object are read back -/

section Decode

variable {δ : Type} {docs : Documents δ}

/-- One bit out of seven. -/
theorem Query.hasFlag_flags (q : Query δ) :
    hasFlag q.flags 2 = q.tailable ∧ hasFlag q.flags 4 = q.secondaryOk ∧ hasFlag q.flags 8 = q.oplogReplay ∧
      hasFlag q.flags 16 = q.noCursorTimeout ∧ hasFlag q.flags 32 = q.awaitData ∧ hasFlag q.flags 64 = q.exhaust ∧
      hasFlag q.flags 128 = q.partialResults := by
  unfold Query.flags
  cases q.tailable <;> cases q.secondaryOk <;> cases q.oplogReplay <;> cases q.noCursorTimeout <;> cases q.awaitData <;>
    cases q.exhaust <;> cases q.partialResults <;> decide

theorem Msg.hasFlag_flags (m : Msg δ) :
    hasFlag m.flags 1 = m.checksumPresent ∧ hasFlag m.flags 2 = m.moreToCome ∧
      hasFlag m.flags 65536 = m.exhaustAllowed := by
  unfold Msg.flags
  cases m.checksumPresent <;> cases m.moreToCome <;> cases m.exhaustAllowed <;> decide

theorem Query.flags_lt (q : Query δ) : q.flags < 256 := by
  unfold Query.flags
  cases q.tailable <;> cases q.secondaryOk <;> cases q.oplogReplay <;> cases q.noCursorTimeout <;> cases q.awaitData <;>
    cases q.exhaust <;> cases q.partialResults <;> decide

theorem Query.toBin_reads {q q' : Query δ} {buffers : List Buffer} (h : q.toBin docs = .ok (q', buffers))
    (hlength : FitsInt32 buffers.flatten.length) (hid : FitsInt32 q.requestId) (hskip : FitsInt32 q.numberToSkip)
    (hreturn : FitsInt32 q'.numberToReturn) :
    MessageHeader.read buffers.flatten =
        .ok { length := buffers.flatten.length, requestId := q.requestId, responseTo := 0, opCode := opQuery } ∧
      QueryFields.read buffers.flatten = .ok
        { tailable := q.tailable, secondaryOk := q.secondaryOk, oplogReplay := q.oplogReplay,
          noCursorTimeout := q.noCursorTimeout, awaitData := q.awaitData, exhaust := q.exhaust,
          partialResults := q.partialResults, ns := q.ns, numberToSkip := q.numberToSkip,
          numberToReturn := q'.numberToReturn } := by
  obtain ⟨rfl, documents, hbytes⟩ := Query.toBin_bytes h
  generalize buffers.flatten = bytes at hlength hbytes ⊢
  have hflags : FitsInt32 q.flags := by
    have hlt := q.flags_lt
    constructor
    · omega
    · omega
  obtain ⟨b1, b2, b3, b4, b5, b6, b7⟩ := q.hasFlag_flags
  simp only [queryBytes, List.append_assoc] at hbytes
  obtain ⟨hheader, h16, d20⟩ := header_read hlength hid ⟨by decide, by decide⟩ hflags hbytes
  obtain ⟨next, hns, dskip⟩ := readCString_next q.ns_valid d20
  obtain ⟨hskip, dreturn⟩ := readInt32LE_next hskip dskip
  obtain ⟨hreturn, -⟩ := readInt32LE_next hreturn dreturn
  refine ⟨hheader, ?_⟩
  simp only [QueryFields.read, h16, hns, hskip, hreturn, bind, Except.bind, pure, Except.pure, b1,
    b2, b3, b4, b5, b6, b7]

theorem GetMore.toBin_reads {g : GetMore} (hns : Char.ofNat 0 ∉ g.ns.toList)
    (hlength : FitsInt32 g.toBin.flatten.length)
    (hid : FitsInt32 g.requestId) (hreturn : FitsInt32 g.numberToReturn) :
    MessageHeader.read g.toBin.flatten =
        .ok { length := g.toBin.flatten.length, requestId := g.requestId, responseTo := 0, opCode := opGetMore } ∧
      GetMoreFields.read g.toBin.flatten =
        .ok { zero := 0, ns := g.ns, numberToReturn := g.numberToReturn, cursorId := g.cursorId } := by
  have hbytes := g.toBin_bytes
  generalize g.toBin.flatten = bytes at hlength hbytes ⊢
  simp only [getMoreBytes, List.append_assoc] at hbytes
  obtain ⟨hheader, h16, d20⟩ := header_read hlength hid ⟨by decide, by decide⟩ ⟨by decide, by decide⟩ hbytes
  obtain ⟨next, hns, dreturn⟩ := readCString_next hns d20
  obtain ⟨hreturn, dcursor⟩ := readInt32LE_next hreturn dreturn
  rw [← List.append_nil (writeInt32LE (getLowBits g.cursorId) ++ _)] at dcursor
  obtain ⟨hcursor, -⟩ := readLong_next dcursor
  refine ⟨hheader, ?_⟩
  simp only [GetMoreFields.read, h16, hns, hreturn, hcursor, bind, Except.bind, pure, Except.pure]

theorem KillCursor.toBin_reads {k : KillCursor} (hlength : FitsInt32 k.toBin.flatten.length)
    (hid : FitsInt32 k.requestId)
    (hcount : FitsInt32 k.cursorIds.length) :
    MessageHeader.read k.toBin.flatten =
        .ok { length := k.toBin.flatten.length, requestId := k.requestId, responseTo := 0, opCode := opKillCursors } ∧
      KillCursorFields.read k.toBin.flatten = .ok { zero := 0, cursorIds := k.cursorIds } := by
  have hbytes := k.toBin_bytes
  generalize k.toBin.flatten = bytes at hlength hbytes ⊢
  simp only [killCursorBytes, List.append_assoc] at hbytes
  obtain ⟨hheader, h16, d20⟩ := header_read hlength hid ⟨by decide, by decide⟩ ⟨by decide, by decide⟩ hbytes
  obtain ⟨hcount, dids⟩ := readInt32LE_next hcount d20
  have hids := readLongs_next k.cursorIds dids
  refine ⟨hheader, ?_⟩
  simp only [KillCursorFields.read, h16, hcount, hids, Int.toNat_natCast, bind, Except.bind, pure, Except.pure]

end Decode

/-! ## A message through the stream -/

section Receive

variable {δ : Type} {docs : Documents δ} {codecs : Codecs}

/-- What the driver relies on in the BSON library: a document begins with its size, and is read back. -/
structure Documents.Lawful (docs : Documents δ) : Prop where
  size : ∀ d options bytes, docs.serialize d options = .ok bytes → readInt32LE bytes 0 = .ok (bytes.length : Int)
  inverse : ∀ d options bytes, docs.serialize d options = .ok bytes → docs.deserialize bytes {} = .ok d

/-- What a message stream makes of the message. -/
def Msg.received (m : Msg δ) (bytes : Buffer) : BinMsg where
  raw := bytes
  data := bytes.drop messageHeaderSize
  header := { length := bytes.length, requestId := m.requestId, responseTo := 0, opCode := opMsg }
  responseFlags := m.flags
  checksumPresent := m.checksumPresent
  moreToCome := m.moreToCome
  exhaustAllowed := m.exhaustAllowed

theorem Msg.toBin_reads {m : Msg δ} {buffers : List Buffer} (h : m.toBin docs = .ok buffers) :
    MessageHeader.read buffers.flatten =
        .ok { length := buffers.flatten.length, requestId := m.requestId, responseTo := 0, opCode := opMsg } ∧
      readInt32LE buffers.flatten 16 = .ok (m.flags : Int) ∧
      ∃ document, m.serializeBson docs m.command = .ok document ∧ buffers.flatten.drop 20 = [0] ++ document := by
  obtain ⟨document, hdocument, hid, hlength, hbytes⟩ := Msg.toBin_bytes h
  have hflags : FitsInt32 m.flags := by
    have hlt := m.flags_lt
    constructor
    · omega
    · omega
  obtain ⟨hheader, h16, d20⟩ := header_read hlength hid ⟨by decide, by decide⟩ hflags hbytes
  exact ⟨hheader, h16, document, hdocument, d20⟩

/-- Reading at an offset. -/
theorem readInt32LE_drop (buffer : Buffer) (n offset : Nat) :
    readInt32LE (buffer.drop n) offset = readInt32LE buffer (n + offset) := by
  unfold readInt32LE
  rw [List.drop_drop]

theorem Msg.decodes {m : Msg δ} {buffers : List Buffer} (h : m.toBin docs = .ok buffers) :
    Message.decode codecs buffers.flatten = .ok (.binMsg (m.received buffers.flatten)) := by
  obtain ⟨hheader, h16, -⟩ := Msg.toBin_reads h
  obtain ⟨b1, b2, b3⟩ := m.hasFlag_flags
  have hop : opMsg ≠ opCompressed := by decide
  have hflags : readInt32LE (buffers.flatten.drop messageHeaderSize) 0 = .ok (m.flags : Int) := by
    rw [readInt32LE_drop]
    exact h16
  simp only [Message.decode, hheader, bind, Except.bind, if_pos hop, Message.new, if_true,
    BinMsg.new, hflags, b1, b2, b3]
  rfl

theorem Msg.framable {m : Msg δ} {buffers : List Buffer} {max : Nat} (h : m.toBin docs = .ok buffers)
    (hmax : buffers.flatten.length ≤ max) : Framable codecs max buffers.flatten := by
  obtain ⟨document, -, -, -, hbytes⟩ := Msg.toBin_bytes h
  refine ⟨MessageHeader.read_length (Msg.toBin_reads h).1, ?_, hmax, _, Msg.decodes h⟩
  rw [hbytes]
  simp only [msgBytes, headerBytes, List.length_append, length_writeInt32LE, messageHeaderSize]
  omega

/-- The bytes can be fed to a stream, and however they are cut the stream emits exactly the message. -/
structure Received (codecs : Codecs) (maxBsonMessageSize : Option Nat) (bytes : Buffer) (m : Message) : Prop where
  feeds : ∃ es t, chunksOf es = [bytes] ∧ Run.exec (step codecs) (.new maxBsonMessageSize) es =
    some t ∧ t.awaiting = none
  emits : ∀ es t, Run.exec (step codecs) (.new maxBsonMessageSize) es = some t → (chunksOf es).flatten = bytes →
    t.awaiting = none → t.emitted = [m] ∧ t.callbacks = List.replicate (chunksOf es).length none ∧ t.thrown = none

theorem Framable.received {maxBsonMessageSize : Option Nat} {bytes : Buffer} {m : Message}
    (hf : Framable codecs (maxSize maxBsonMessageSize) bytes) (hm : Message.decode codecs bytes = .ok m) :
    Received codecs maxBsonMessageSize bytes m := by
  have hms : ∀ b ∈ [bytes], Framable codecs (maxSize maxBsonMessageSize) b := by
    intro b hb
    obtain rfl := List.mem_singleton.1 hb
    exact hf
  have hnew := Framed.new codecs maxBsonMessageSize hms
  constructor
  · exact hnew.deliver hms (List.prefix_refl _)
  · intro es t hr hall hidle
    have hpre : ([] ++ chunksOf es).flatten <+: [bytes].flatten := by
      rw [List.nil_append, hall, List.flatten_singleton]
    obtain ⟨hemitted, -, hcallbacks, hthrown⟩ := (hnew.exec hms hr hpre).complete hidle (by
      rw [List.nil_append, hall, List.flatten_singleton])
    refine ⟨?_, hcallbacks, hthrown⟩
    rw [List.map_singleton, hm] at hemitted
    exact List.map_injective_iff.2 (fun _ _ h => Except.ok.inj h) hemitted

theorem readUInt32LE_of_int {buffer : Buffer} {offset n : Nat} (h : readInt32LE buffer offset = .ok (n : Int)) :
    readUInt32LE buffer offset = .ok n := by
  unfold readInt32LE at h
  unfold readUInt32LE
  generalize buffer.drop offset = bytes at h ⊢
  rcases bytes with _ | ⟨b0, _ | ⟨b1, _ | ⟨b2, _ | ⟨b3, rest⟩⟩⟩⟩
  · cases h
  · cases h
  · cases h
  · cases h
  · simp only [Except.ok.injEq] at h ⊢
    have h0 := b0.toNat_lt
    have h1 := b1.toNat_lt
    have h2 := b2.toNat_lt
    have h3 := b3.toNat_lt
    split at h <;> omega

/-- One section with one document. -/
theorem parseSections_one {π : Type} {parseDocument : Buffer → Except AnyError π} {data document : Buffer} {d : π}
    (hdata : data.drop 4 = [0] ++ document) (hsize : readInt32LE document 0 = .ok (document.length : Int))
    (hparse : parseDocument document = .ok d) : BinMsg.parseSections parseDocument data data.length 4 = .ok [d] := by
  have hlength : data.length = document.length + 3 + 1 + 1 := by
    have hlen := congrArg List.length hdata
    simp only [List.length_drop, List.length_append, List.length_singleton] at hlen
    omega
  have hpayload : data[4]? = some 0 := by
    have hhead : (data.drop 4)[0]? = some 0 := by rw [hdata]; rfl
    rwa [List.getElem?_drop] at hhead
  have hrest : data.drop (4 + 1) = document := by
    rw [← List.drop_drop, hdata]
    rfl
  have hbsonSize : readUInt32LE data (4 + 1) = .ok document.length := by
    refine readUInt32LE_of_int ?_
    rw [← hrest, readInt32LE_drop] at hsize
    rw [hrest] at hsize
    exact hsize
  have hend : data[4 + 1 + document.length]? = none := by
    rw [List.getElem?_eq_none_iff]
    omega
  rw [hlength]
  simp only [BinMsg.parseSections, hpayload, if_true, hbsonSize, hrest, List.take_length, hparse,
    hend, bind, Except.bind, pure, Except.pure]

theorem Msg.parse_received (hdocs : docs.Lawful) {m : Msg δ} {buffers : List Buffer} (h : m.toBin docs = .ok buffers) :
    (m.received buffers.flatten).parse docs {} = .ok [.document m.command] := by
  obtain ⟨-, -, document, hdocument, hd20⟩ := Msg.toBin_reads h
  have hdata : (buffers.flatten.drop messageHeaderSize).drop 4 = [0] ++ document := by
    rw [List.drop_drop, ← hd20]
    rfl
  have hparse : BinMsg.parseDocument docs false ((m.received buffers.flatten).bsonOptions {}) document =
      .ok (.document m.command) := by
    show ParsedDocument.document <$> docs.deserialize document {} = .ok (.document m.command)
    rw [hdocs.inverse _ _ _ hdocument]
    rfl
  have hsections := parseSections_one hdata (hdocs.size _ _ _ hdocument) hparse
  exact Run.bind_ok.2 ⟨_, hsections, rfl⟩

end Receive

/-- For every message whose numbers and length fit in 32 bits: the bytes begin with their number, the fields of the
protocol are those of the object, and an `OP_MSG` that is not too large for the stream is received as one message
with its request id and flags, which parses to the command. -/
theorem wire_encoding {δ : Type} (docs : Documents δ) (hdocs : docs.Lawful) (codecs : Codecs) :
    (∀ (q : Query δ) (query : Buffer) (projection : Option Buffer),
      docs.serialize q.query q.serializeOptions = .ok query → q.projection docs = .ok projection →
      ∃ q' buffers, q.toBin docs = .ok (q', buffers) ∧
        (FitsInt32 buffers.flatten.length → FitsInt32 q.requestId → FitsInt32 q.numberToSkip →
          FitsInt32 q'.numberToReturn →
          MessageHeader.read buffers.flatten =
              .ok { length := buffers.flatten.length, requestId := q.requestId, responseTo := 0, opCode := opQuery } ∧
            QueryFields.read buffers.flatten = .ok
              { tailable := q.tailable, secondaryOk := q.secondaryOk, oplogReplay := q.oplogReplay,
                noCursorTimeout := q.noCursorTimeout, awaitData := q.awaitData, exhaust := q.exhaust,
                partialResults := q.partialResults, ns := q.ns, numberToSkip := q.numberToSkip,
                numberToReturn := q'.numberToReturn })) ∧
    (∀ g : GetMore, Char.ofNat 0 ∉ g.ns.toList → FitsInt32 g.toBin.flatten.length → FitsInt32 g.requestId →
      FitsInt32 g.numberToReturn →
      MessageHeader.read g.toBin.flatten =
          .ok { length := g.toBin.flatten.length, requestId := g.requestId, responseTo := 0, opCode := opGetMore } ∧
        GetMoreFields.read g.toBin.flatten =
          .ok { zero := 0, ns := g.ns, numberToReturn := g.numberToReturn, cursorId := g.cursorId }) ∧
    (∀ k : KillCursor, FitsInt32 k.toBin.flatten.length → FitsInt32 k.requestId → FitsInt32 k.cursorIds.length →
      MessageHeader.read k.toBin.flatten =
          .ok { length := k.toBin.flatten.length, requestId := k.requestId, responseTo := 0, opCode := opKillCursors } ∧
        KillCursorFields.read k.toBin.flatten = .ok { zero := 0, cursorIds := k.cursorIds }) ∧
    (∀ (m : Msg δ) (document : Buffer), m.serializeBson docs m.command = .ok document → FitsInt32 m.requestId →
      FitsInt32 (21 + document.length) →
      ∃ buffers, m.toBin docs = .ok buffers ∧
        MessageHeader.read buffers.flatten =
            .ok { length := buffers.flatten.length, requestId := m.requestId, responseTo := 0, opCode := opMsg } ∧
        readInt32LE buffers.flatten 16 = .ok (m.flags : Int) ∧
        ∀ maxBsonMessageSize, buffers.flatten.length ≤ maxSize maxBsonMessageSize →
          ∃ msg : BinMsg, Received codecs maxBsonMessageSize buffers.flatten (.binMsg msg) ∧
            msg.header.requestId = m.requestId ∧ msg.responseFlags = m.flags ∧ msg.checksumPresent = m.checksumPresent ∧
            msg.moreToCome = m.moreToCome ∧ msg.exhaustAllowed = m.exhaustAllowed ∧
            msg.parse docs {} = .ok [.document m.command]) := by
  refine ⟨?_, ?_, ?_, ?_⟩
  · intro q query projection hquery hprojection
    obtain ⟨q', buffers, h⟩ := Query.toBin_ok hquery hprojection
    exact ⟨q', buffers, h, Query.toBin_reads h⟩
  · intro g hns
    exact GetMore.toBin_reads hns
  · intro k
    exact KillCursor.toBin_reads
  · intro m document hdocument hid hlength
    obtain ⟨buffers, h⟩ := Msg.toBin_ok hdocument hid hlength
    obtain ⟨hheader, hflags, -⟩ := Msg.toBin_reads h
    refine ⟨buffers, h, hheader, hflags, fun maxBsonMessageSize hmax => ?_⟩
    exact ⟨m.received buffers.flatten, (Msg.framable h hmax).received (Msg.decodes h), rfl, rfl, rfl, rfl, rfl,
      Msg.parse_received hdocs h⟩

/-- The document `{ ping: 1, $db: 'admin' }`. -/
inductive PingDocument
  | ping
deriving DecidableEq

def pingBytes : Buffer :=
  [30, 0, 0, 0, 16, 112, 105, 110, 103, 0, 1, 0, 0, 0, 2, 36, 100, 98, 0, 6, 0, 0, 0, 97, 100, 109, 105, 110, 0, 0]

/-- BSON on that document. -/
def pingDocuments : Documents PingDocument where
  keys _ := ["ping", "$db"]
  serialize _ _ := .ok pingBytes
  deserialize bytes _ := if bytes = pingBytes then .ok .ping else .error outOfRange

theorem pingDocuments_lawful : pingDocuments.Lawful where
  size := by
    rintro d options bytes ⟨⟩
    rfl
  inverse := by
    rintro ⟨⟩ options bytes ⟨⟩
    rfl

def ping : Msg PingDocument := { ns := "admin.$cmd", command := .ping, requestId := 7 }

theorem ping_received : ∃ buffers, ping.toBin pingDocuments = .ok buffers ∧ buffers.flatten.length = 51 ∧
    ∃ msg : BinMsg, Received storedCodecs none buffers.flatten (.binMsg msg) ∧ msg.header.requestId = 7 ∧
      msg.parse pingDocuments {} = .ok [.document .ping] := by
  obtain ⟨-, -, -, hmsg⟩ := wire_encoding pingDocuments pingDocuments_lawful storedCodecs
  obtain ⟨buffers, htoBin, -, -, hreceived⟩ :=
    hmsg ping pingBytes rfl ⟨by decide, by decide⟩ ⟨by decide, by decide⟩
  have hlength : buffers.flatten.length = 51 := by
    cases htoBin
    rfl
  obtain ⟨msg, hreceived, hid, -, -, -, -, hparse⟩ := hreceived none (by rw [hlength]; decide)
  exact ⟨buffers, htoBin, hlength, msg, hreceived, hid, hparse⟩

/-- A stream that allows 48 bytes refuses the message, whose numbers and length all fit. -/
theorem ping_too_large : ∃ buffers t, ping.toBin pingDocuments = .ok buffers ∧ FitsInt32 ping.requestId ∧
    FitsInt32 buffers.flatten.length ∧
    Run.exec (step storedCodecs) (MessageStream.new (some 48)) [.write buffers.flatten] = some t ∧
    t.awaiting = none ∧ t.emitted = [] ∧ t.callbacks = [some (messageTooLarge 51 48)] := by
  refine ⟨_, _, rfl, ⟨by decide, by decide⟩, ⟨by decide, by decide⟩, rfl, ?_, ?_, ?_⟩
  · decide
  · decide
  · decide

end MongoDriver.Cmap
