/-
How an upload stream cuts what is written to it into chunks, and how it counts its requests. At every moment the
inserted chunks and the filled part of the buffer are together what was written.
-/
import MongoDriver.Base.Heap
import MongoDriver.Gridfs.Upload
import Mathlib.Data.List.Basic

namespace MongoDriver.Gridfs

open Cmap (Buffer)
open Filling (Filled)

/-! ## Chunks of one size -/

/-- The bytes cut into chunks of the given size, without a rest. -/
structure Cut (size id : Nat) (docs : List GridFSChunk) (bytes : Buffer) : Prop where
  numbered : docs.map (·.n) = (List.range docs.length).map Nat.cast
  owned : ∀ d ∈ docs, d.files_id = id
  full : ∀ d ∈ docs, d.data.length = size
  data : (docs.map (·.data)).flatten = bytes

/-- The bytes as they are stored: the last chunk may be shorter, but not empty. -/
structure Stored (size id : Nat) (docs : List GridFSChunk) (bytes : Buffer) : Prop where
  numbered : docs.map (·.n) = (List.range docs.length).map Nat.cast
  owned : ∀ d ∈ docs, d.files_id = id
  full : ∀ d ∈ docs.dropLast, d.data.length = size
  last : ∀ d ∈ docs.getLast?, 0 < d.data.length ∧ d.data.length ≤ size
  data : (docs.map (·.data)).flatten = bytes

section

variable {size id : Nat} {docs : List GridFSChunk} {bytes : Buffer} {d : GridFSChunk}

theorem cut_nil : Cut size id [] [] where
  numbered := rfl
  owned _ hd := absurd hd List.not_mem_nil
  full _ hd := absurd hd List.not_mem_nil
  data := rfl

theorem numbered_snoc (h : docs.map (·.n) = (List.range docs.length).map Nat.cast) (hn : d.n = docs.length) :
    (docs ++ [d]).map (·.n) = (List.range (docs ++ [d]).length).map Nat.cast := by
  rw [List.map_append, h, List.length_append, List.length_singleton, List.range_succ, List.map_append,
    List.map_singleton, List.map_singleton, hn]

theorem owned_snoc (h : ∀ d ∈ docs, d.files_id = id) (hid : d.files_id = id) : ∀ e ∈ docs ++ [d], e.files_id = id := by
  intro e he
  rcases List.mem_append.1 he with he | he
  · exact h e he
  · rw [List.mem_singleton.1 he, hid]

theorem data_snoc (h : (docs.map (·.data)).flatten = bytes) :
    ((docs ++ [d]).map (·.data)).flatten = bytes ++ d.data := by
  simp [h]

theorem Cut.snoc (h : Cut size id docs bytes) (hid : d.files_id = id) (hn : d.n = docs.length)
    (hd : d.data.length = size) : Cut size id (docs ++ [d]) (bytes ++ d.data) where
  numbered := numbered_snoc h.numbered hn
  owned := owned_snoc h.owned hid
  full e he := by
    rcases List.mem_append.1 he with he | he
    · exact h.full e he
    · rw [List.mem_singleton.1 he, hd]
  data := data_snoc h.data

theorem Cut.stored (h : Cut size id docs bytes) (hsize : 0 < size) : Stored size id docs bytes where
  numbered := h.numbered
  owned := h.owned
  full d hd := h.full d (List.mem_of_mem_dropLast hd)
  last d hd := by
    rw [h.full d (List.mem_of_getLast? hd)]
    exact ⟨hsize, Nat.le_refl _⟩
  data := h.data

/-- With a rest that is not empty and fits into a chunk. -/
theorem Cut.stored_snoc (h : Cut size id docs bytes) (hid : d.files_id = id) (hn : d.n = docs.length)
    (hpos : 0 < d.data.length) (hle : d.data.length ≤ size) : Stored size id (docs ++ [d]) (bytes ++ d.data) where
  numbered := numbered_snoc h.numbered hn
  owned := owned_snoc h.owned hid
  full e he := h.full e (by rwa [List.dropLast_concat] at he)
  last e he := by
    rw [List.getLast?_concat] at he
    cases he
    exact ⟨hpos, hle⟩
  data := data_snoc h.data

end

namespace GridFSBucketWriteStream

/-- The inserted chunk documents. -/
def docs (stream : GridFSBucketWriteStream) : List GridFSChunk := stream.chunks.map (·.doc)

/-! ## The buffer -/

/-- The inserted chunks and the filled part of the buffer make up the bytes. -/
structure Cutting (stream : GridFSBucketWriteStream) (bytes : Buffer) : Prop where
  number : stream.n = stream.docs.length
  room : stream.pos < stream.chunkSizeBytes
  cut : ∃ full buffered, Cut stream.chunkSizeBytes stream.id stream.docs full ∧
    Filled stream.bufToStore stream.pos buffered (stream.chunkSizeBytes - stream.pos) ∧ full ++ buffered = bytes

end GridFSBucketWriteStream

/-- The bytes a copy takes from its source, where they fit. -/
theorem copy_eq_splice {source target : Buffer} {targetStart sourceStart k : Nat}
    (hk : targetStart + k ≤ target.length) :
    copy source target targetStart sourceStart (sourceStart + k) =
      Filling.splice target targetStart ((source.drop sourceStart).take k) := by
  unfold copy
  rw [List.drop_take, Nat.add_sub_cancel_left, List.take_take, Nat.min_eq_right (by omega)]

/-- Copying fills the buffer further. -/
theorem filled_copy {source target buffered : Buffer} {pos k sourceStart free : Nat}
    (h : Filled target pos buffered (k + free)) (hk : sourceStart + k ≤ source.length) :
    Filled (copy source target pos sourceStart (sourceStart + k)) (pos + k)
      (buffered ++ (source.drop sourceStart).take k) free := by
  have hlength : ((source.drop sourceStart).take k).length = k := by
    rw [List.length_take, List.length_drop]
    omega
  have hfill : Filled target pos buffered (((source.drop sourceStart).take k).length + free) := by
    rw [hlength]
    exact h
  rw [copy_eq_splice (by rw [h.length]; omega)]
  have hsplice := hfill.splice
  rwa [hlength] at hsplice

namespace GridFSBucketWriteStream.Cutting

variable {stream : GridFSBucketWriteStream} {bytes source : Buffer} {start k : Nat}

/-- Bytes that leave room in the buffer. -/
theorem fill (h : stream.Cutting bytes) (hk : stream.pos + k < stream.chunkSizeBytes)
    (hsource : start + k ≤ source.length) :
    Cutting { stream with
      bufToStore := copy source stream.bufToStore stream.pos start (start + k)
      pos := stream.pos + k } (bytes ++ (source.drop start).take k) where
  number := h.number
  room := hk
  cut := by
    obtain ⟨full, buffered, hcut, hfilled, hbytes⟩ := h.cut
    have hsplit : stream.chunkSizeBytes - stream.pos = k + (stream.chunkSizeBytes - (stream.pos + k)) := by omega
    rw [hsplit] at hfilled
    exact ⟨full, _, hcut, filled_copy hfilled hsource, by rw [← List.append_assoc, hbytes]⟩

/-- Bytes that fill the buffer, which is then inserted. -/
theorem flush (h : stream.Cutting bytes) (hk : stream.pos + k = stream.chunkSizeBytes)
    (hsource : start + k ≤ source.length)
    (origin : Origin) (status : InsertStatus) :
    Cutting { stream with
      bufToStore := copy source stream.bufToStore stream.pos start (start + k)
      pos := 0
      n := stream.n + 1
      chunks := stream.chunks ++ [{ doc := { files_id := stream.id, n := stream.n
                                             data := copy source stream.bufToStore stream.pos start (start + k) },
                                    origin, status }] } (bytes ++ (source.drop start).take k) where
  number := by simp [docs, h.number]
  room := Nat.zero_lt_of_lt h.room
  cut := by
    obtain ⟨full, buffered, hcut, hfilled, hbytes⟩ := h.cut
    have hsplit : stream.chunkSizeBytes - stream.pos = k + 0 := by omega
    rw [hsplit] at hfilled
    have hcopied := filled_copy hfilled hsource
    have hlength := hcopied.length
    have hdata := hcopied.eq
    refine ⟨full ++ (buffered ++ (source.drop start).take k), [], ?_,
      ⟨rfl, copy source stream.bufToStore stream.pos start
      (start + k), rfl, hlength.trans (by omega)⟩, ?_⟩
    · have hsnoc := hcut.snoc (d := { files_id := stream.id, n := stream.n
                                      data := copy source stream.bufToStore stream.pos start (start + k) })
        rfl (congrArg Nat.cast h.number) (by dsimp only; omega)
      simpa [docs, hdata] using hsnoc
    · rw [List.append_nil, ← List.append_assoc, hbytes]

end GridFSBucketWriteStream.Cutting

/-! ## The loop -/

/-- What a number of rounds of the loop do to the stream: the buffer is filled further, and for each chunk that
became full an insert is added. -/
structure Inserts (scope : Nat) (f f' : Flush) (news : List ChunkInsert) : Prop where
  stream : f'.stream = { f.stream with
    bufToStore := f'.stream.bufToStore
    pos := f'.stream.pos
    n := f'.stream.n
    outstandingRequests := f.stream.outstandingRequests + news.length
    chunks := f.stream.chunks ++ news }
  outstandingRequests : f'.outstandingRequests = f.outstandingRequests + news.length
  pending : ∀ i ∈ news, i.origin = .doWrite scope ∧ i.status = .pending

namespace Inserts

variable {scope : Nat} {f f' f'' : Flush} {news news' : List ChunkInsert}

theorem refl : Inserts scope f f [] where
  stream := by simp
  outstandingRequests := by simp
  pending _ hi := absurd hi List.not_mem_nil

theorem trans (h : Inserts scope f f' news) (h' : Inserts scope f' f'' news') :
    Inserts scope f f'' (news ++ news') where
  stream := by
    rw [h'.stream, h.stream]
    simp [Int.add_assoc]
  outstandingRequests := by
    rw [h'.outstandingRequests, h.outstandingRequests, List.length_append]
    omega
  pending i hi := (List.mem_append.1 hi).elim (h.pending i) (h'.pending i)

end Inserts

/-- Between two rounds: the bytes up to the remaining ones have been taken over. -/
structure Flush.Copied (bytes inputBuf : Buffer) (f : Flush) : Prop where
  le : f.inputBufRemaining ≤ inputBuf.length
  space : f.spaceRemaining = f.stream.chunkSizeBytes - f.stream.pos
  num : f.numToCopy = min f.spaceRemaining f.inputBufRemaining
  cutting : f.stream.Cutting (bytes ++ inputBuf.take (inputBuf.length - f.inputBufRemaining))

theorem Flush.Copied.round {bytes inputBuf : Buffer} {f : Flush} (h : f.Copied bytes inputBuf) (scope : Nat)
    (hpos : 0 < f.inputBufRemaining) :
    (f.round inputBuf scope).Copied bytes inputBuf ∧
      (f.round inputBuf scope).inputBufRemaining < f.inputBufRemaining ∧
      ∃ news, Inserts scope f (f.round inputBuf scope) news := by
  have hroom := h.cutting.room
  have hle := h.le
  have hspace := h.space
  have hnum := h.num
  have htaken : bytes ++ inputBuf.take (inputBuf.length - f.inputBufRemaining) ++
      (inputBuf.drop (inputBuf.length - f.inputBufRemaining)).take f.numToCopy =
      bytes ++ inputBuf.take (inputBuf.length - (f.inputBufRemaining - f.numToCopy)) := by
    rw [List.append_assoc, List.take_add.symm]
    congr 2
    omega
  unfold Flush.round
  by_cases hfull : f.spaceRemaining - f.numToCopy = 0
  · -- the buffer is full and becomes a chunk
    have hcutting := h.cutting.flush (k := f.numToCopy) (by omega)
      (show (inputBuf.length - f.inputBufRemaining) + f.numToCopy ≤ inputBuf.length by omega) (.doWrite scope) .pending
    rw [htaken] at hcutting
    simp only [if_pos hfull]
    refine ⟨⟨?_, rfl, rfl, ⟨hcutting.number, hcutting.room, hcutting.cut⟩⟩, ?_, [_], rfl, rfl, ?_⟩
    · exact (Nat.sub_le _ _).trans hle
    · omega
    · intro i hi
      rw [List.mem_singleton.1 hi]
      exact ⟨rfl, rfl⟩
  · have hcutting := h.cutting.fill (k := f.numToCopy) (by omega)
      (show (inputBuf.length - f.inputBufRemaining) + f.numToCopy ≤ inputBuf.length by omega)
    rw [htaken] at hcutting
    simp only [if_neg hfull]
    refine ⟨⟨(Nat.sub_le _ _).trans hle, ?_, rfl, hcutting⟩, ?_, [], ?_, by simp, ?_⟩
    · dsimp only
      omega
    · omega
    · simp
    · exact fun i hi => absurd hi List.not_mem_nil

theorem Flush.Copied.loop {bytes inputBuf : Buffer} (scope : Nat) :
    ∀ (fuel : Nat) {f : Flush}, f.Copied bytes inputBuf → f.inputBufRemaining ≤ fuel →
      (Flush.loop inputBuf scope fuel f).Copied bytes inputBuf ∧
        (Flush.loop inputBuf scope fuel f).inputBufRemaining = 0 ∧
        ∃ news, Inserts scope f (Flush.loop inputBuf scope fuel f) news
  | 0, f, h, hfuel => ⟨h, Nat.le_zero.1 hfuel, [], .refl⟩
  | fuel + 1, f, h, hfuel => by
    unfold Flush.loop
    split
    case isTrue hzero => exact ⟨h, hzero, [], .refl⟩
    case isFalse hpos =>
      obtain ⟨hround, hless, news, hnews⟩ := h.round scope (Nat.pos_of_ne_zero hpos)
      obtain ⟨hloop, hzero, news', hnews'⟩ := Flush.Copied.loop scope fuel hround (by omega)
      exact ⟨hloop, hzero, news ++ news', hnews.trans hnews'⟩

/-! ## One write -/

namespace GridFSBucketWriteStream

variable {stream t : GridFSBucketWriteStream} {bytes chunk : Buffer} {news : List ChunkInsert}

/-- The stream has taken over a chunk and issued the given inserts for it. -/
structure Absorbs (stream : GridFSBucketWriteStream) (chunk : Buffer) (news : List ChunkInsert)
    (t : GridFSBucketWriteStream) : Prop where
  eq : t = { stream with
    length := stream.length + chunk.length
    bufToStore := t.bufToStore
    pos := t.pos
    n := t.n
    outstandingRequests := stream.outstandingRequests + news.length
    chunks := stream.chunks ++ news }
  pending : ∀ i ∈ news, i.origin = .doWrite stream.scopes.length ∧ i.status = .pending

/-- Where no insert was issued, the bytes are in the buffer. -/
theorem Cutting.pos_eq (h : stream.Cutting bytes) (ht : t.Cutting (bytes ++ chunk)) (hdocs : t.docs = stream.docs) :
    t.pos = stream.pos + chunk.length := by
  obtain ⟨full, buffered, hcut, hfilled, hbytes⟩ := h.cut
  obtain ⟨full', buffered', hcut', hfilled', hbytes'⟩ := ht.cut
  have hfull : full' = full := by rw [← hcut'.data, ← hcut.data, hdocs]
  rw [hfull, ← hbytes, List.append_assoc] at hbytes'
  rw [hfilled'.index_eq, hfilled.index_eq, List.append_cancel_left hbytes', List.length_append]

theorem doWrite_eq (haborted : stream.aborted = false) (h : stream.Cutting bytes) (chunk : Buffer)
    (callback : WriteCallback) :
    ∃ news t, stream.Absorbs chunk news t ∧ t.Cutting (bytes ++ chunk) ∧
      (news = [] ∧ stream.doWrite chunk callback = (true, callback.run t) ∨
        news ≠ [] ∧ stream.doWrite chunk callback =
          (false, { t with scopes := t.scopes ++ [{ outstandingRequests := news.length, callback }] })) := by
  unfold doWrite
  rw [if_neg (by simp [haborted])]
  by_cases hsmall : stream.pos + chunk.length < stream.chunkSizeBytes
  · have hfill := h.fill hsmall (show 0 + chunk.length ≤ chunk.length by omega)
    rw [List.drop_zero, List.take_length, Nat.zero_add] at hfill
    simp only [if_pos hsmall]
    refine ⟨[], _, ⟨?_, fun i hi => absurd hi List.not_mem_nil⟩, ?_, .inl ⟨rfl, rfl⟩⟩
    · simp
    · exact ⟨hfill.number, hfill.room, hfill.cut⟩
  · simp only [if_neg hsmall]
    have hstart : Flush.Copied bytes chunk
        { stream := { stream with length := stream.length + chunk.length }, inputBufRemaining := chunk.length
          spaceRemaining := stream.chunkSizeBytes - stream.pos
          numToCopy := min (stream.chunkSizeBytes - stream.pos) chunk.length, outstandingRequests := 0 } := by
      refine ⟨Nat.le_refl _, rfl, rfl, ?_⟩
      rw [Nat.sub_self, List.take_zero, List.append_nil]
      exact ⟨h.number, h.room, h.cut⟩
    obtain ⟨hloop, hzero, news, hnews⟩ := hstart.loop stream.scopes.length chunk.length (Nat.le_refl _)
    generalize Flush.loop chunk stream.scopes.length chunk.length _ = flushed at hloop hzero hnews ⊢
    have hcutting := hloop.cutting
    rw [hzero, Nat.sub_zero, List.take_length] at hcutting
    refine ⟨news, flushed.stream, ⟨hnews.stream, hnews.pending⟩, hcutting, .inr ⟨?_, ?_⟩⟩
    · -- otherwise the buffer would have had room
      intro hnil
      have hdocs : flushed.stream.docs = stream.docs := by
        rw [docs, hnews.stream, hnil, List.append_nil, docs]
      have hpos := h.pos_eq hcutting hdocs
      have hroom := hcutting.room
      have hsize : flushed.stream.chunkSizeBytes = stream.chunkSizeBytes := by rw [hnews.stream]
      omega
    · rw [hnews.outstandingRequests, Int.zero_add]

end GridFSBucketWriteStream

/-! ## Counting requests -/

/-- The insert has not been acknowledged. -/
def ChunkInsert.isOpen (insert : ChunkInsert) : Bool := insert.status ≠ .acknowledged

/-- The same, for an insert of the given write. -/
def ChunkInsert.isOpenIn (scope : Nat) (insert : ChunkInsert) : Bool := insert.isOpen && insert.origin = .doWrite scope

namespace GridFSBucketWriteStream

/-- The counters count the chunk inserts that have not been acknowledged, the failed ones included. -/
structure Counted (stream : GridFSBucketWriteStream) : Prop where
  total : stream.outstandingRequests = (stream.chunks.countP ChunkInsert.isOpen : Nat)
  scope : ∀ (w : Nat) (c : WriteScope), stream.scopes[w]? = some c →
    c.outstandingRequests = (stream.chunks.countP (ChunkInsert.isOpenIn w) : Nat)
  origin : ∀ i ∈ stream.chunks, ∀ w, i.origin = .doWrite w → w < stream.scopes.length
  errored : stream.errored = true ↔ ∃ i ∈ stream.chunks, i.status = .failed

namespace Counted

variable {stream t : GridFSBucketWriteStream} {chunk : Buffer} {news : List ChunkInsert}
  {insert : ChunkInsert} {i : Nat}

theorem total_nonneg (h : stream.Counted) : 0 ≤ stream.outstandingRequests := by
  rw [h.total]
  exact Int.natCast_nonneg _

/-- An open insert of a write counts for the whole stream. -/
theorem scope_le (h : stream.Counted) {w : Nat} {c : WriteScope} (hc : stream.scopes[w]? = some c) :
    c.outstandingRequests ≤ stream.outstandingRequests := by
  rw [h.total, h.scope w c hc]
  refine Int.ofNat_le.2 (List.countP_mono_left fun x _ hx => ?_)
  exact (Bool.and_eq_true_iff.1 hx).1

theorem errored_pos (h : stream.Counted) (herrored : stream.errored = true) : 0 < stream.outstandingRequests := by
  obtain ⟨insert, hmem, hfailed⟩ := h.errored.1 herrored
  rw [h.total]
  refine Int.natCast_pos.2 (List.countP_pos_iff.2 ⟨insert, hmem, ?_⟩)
  simp [ChunkInsert.isOpen, hfailed]

/-- Inserts of a new write. -/
theorem absorb (h : stream.Counted) (ht : stream.Absorbs chunk news t) (callback : WriteCallback) :
    Counted { t with scopes := t.scopes ++ [{ outstandingRequests := news.length, callback }] } := by
  have hopen : ∀ i ∈ news, i.isOpen = true := fun i hi => by simp [ChunkInsert.isOpen, (ht.pending i hi).2]
  have hown : ∀ i ∈ news, i.isOpenIn stream.scopes.length = true := fun i hi => by
    simp [ChunkInsert.isOpenIn, hopen i hi, (ht.pending i hi).1]
  have hother : ∀ w ≠ stream.scopes.length, news.countP (ChunkInsert.isOpenIn w) = 0 := by
    intro w hw
    refine List.countP_eq_zero.2 fun i hi => ?_
    simp [ChunkInsert.isOpenIn, (ht.pending i hi).1, hw.symm]
  have hnew : stream.chunks.countP (ChunkInsert.isOpenIn stream.scopes.length) = 0 := by
    refine List.countP_eq_zero.2 fun i hi => ?_
    intro hin
    exact absurd (h.origin i hi _ (by simpa using (Bool.and_eq_true_iff.1 hin).2)) (Nat.lt_irrefl _)
  rw [ht.eq]
  refine ⟨?_, ?_, ?_, ?_⟩
  · simp only [List.countP_append, List.countP_eq_length.2 hopen, h.total]
    omega
  · intro w c hc
    simp only [List.countP_append]
    rcases Heap.get_alloc_cases hc with ⟨rfl, rfl⟩ | hc
    · simp only [hnew, List.countP_eq_length.2 hown]
      omega
    · have hlt : w < stream.scopes.length := (List.getElem?_eq_some_iff.1 hc).1
      rw [hother w (by omega), Nat.add_zero, h.scope w c hc]
  · intro i hi w hw
    simp only [List.length_append, List.length_singleton]
    rcases List.mem_append.1 hi with hi | hi
    · have := h.origin i hi w hw
      omega
    · rw [(ht.pending i hi).1] at hw
      cases hw
      omega
  · rw [h.errored]
    simp only [List.mem_append, or_and_right, exists_or]
    refine ⟨Or.inl, ?_⟩
    rintro (hfailed | ⟨i, hi, hfailed⟩)
    · exact hfailed
    · rw [(ht.pending i hi).2] at hfailed
      cases hfailed

/-- A write that stays in the buffer. -/
theorem absorb_nil (h : stream.Counted) (ht : stream.Absorbs chunk [] t) : t.Counted := by
  rw [ht.eq]
  refine ⟨?_, ?_, ?_, ?_⟩
  · simpa using h.total
  · simpa using h.scope
  · simpa using h.origin
  · simpa using h.errored

/-- The insert of the rest. -/
theorem remnant (h : stream.Counted) (doc : GridFSChunk) :
    Counted { stream with
      outstandingRequests := stream.outstandingRequests + 1
      chunks := stream.chunks ++ [{ doc, origin := .writeRemnant, status := .pending }] } := by
  refine ⟨?_, ?_, ?_, ?_⟩
  · simp [h.total, List.countP_append, ChunkInsert.isOpen]
  · intro w c hc
    rw [h.scope w c hc]
    simp [List.countP_append, ChunkInsert.isOpenIn]
  · intro i hi w hw
    rcases Heap.mem_alloc.1 hi with hi | rfl
    · exact h.origin i hi w hw
    · cases hw
  · rw [h.errored]
    simp

theorem origin_set (h : stream.Counted) (hi : stream.chunks[i]? = some insert) (status : InsertStatus) :
    ∀ x ∈ stream.chunks.set i { insert with status }, ∀ w, x.origin = .doWrite w → w < stream.scopes.length := by
  intro x hx w hw
  rcases List.mem_or_eq_of_mem_set hx with hx | rfl
  · exact h.origin x hx w hw
  · exact h.origin insert (List.mem_of_getElem? hi) w hw

/-- An acknowledgement takes one from the counter of the stream and of the write it belongs to. -/
theorem acknowledge (h : stream.Counted) (hi : stream.chunks[i]? = some insert) (hpending : insert.status = .pending)
    {scopes : List WriteScope} (hlength : scopes.length = stream.scopes.length)
    (hscopes : ∀ (w : Nat) (c : WriteScope), scopes[w]? = some c → ∃ c', stream.scopes[w]? = some c' ∧
      c.outstandingRequests = c'.outstandingRequests - if insert.origin = .doWrite w then 1 else 0) :
    Counted { stream with
      chunks := stream.chunks.set i { insert with status := .acknowledged }
      outstandingRequests := stream.outstandingRequests - 1
      scopes } := by
  refine ⟨?_, ?_, ?_, ?_⟩
  · have hcount := Heap.countP_set (b := { insert with status := .acknowledged }) ChunkInsert.isOpen hi
    have htotal := h.total
    simp only [ChunkInsert.isOpen, hpending, ne_eq, reduceCtorEq, not_false_eq_true, decide_true, if_true,
      not_true_eq_false, decide_false, Bool.false_eq_true, if_false] at hcount htotal ⊢
    omega
  · intro w c hc
    obtain ⟨c', hc', heq⟩ := hscopes w c hc
    have hcount := Heap.countP_set (b := { insert with status := .acknowledged }) (ChunkInsert.isOpenIn w) hi
    have hscope := h.scope w c' hc'
    simp only [ChunkInsert.isOpenIn, ChunkInsert.isOpen, hpending, ne_eq, reduceCtorEq, not_false_eq_true, decide_true,
      Bool.true_and, decide_eq_true_eq, not_true_eq_false, decide_false, Bool.false_and, Bool.false_eq_true,
      if_false] at hcount hscope ⊢
    split at heq
    case isTrue horigin =>
      rw [if_pos horigin] at hcount
      omega
    case isFalse horigin =>
      rw [if_neg horigin] at hcount
      omega
  · rw [hlength]
    exact h.origin_set hi _
  · rw [h.errored]
    constructor
    · rintro ⟨x, hx, hfailed⟩
      obtain ⟨j, hj⟩ := List.mem_iff_getElem?.1 hx
      refine ⟨x, List.mem_iff_getElem?.2 ⟨j, ?_⟩, hfailed⟩
      have hne : i ≠ j := by
        rintro rfl
        obtain rfl := Option.some.inj (hi.symm.trans hj)
        rw [hpending] at hfailed
        cases hfailed
      rw [List.getElem?_set_ne hne, hj]
    · rintro ⟨x, hx, hfailed⟩
      rcases List.mem_or_eq_of_mem_set hx with hx | rfl
      · exact ⟨x, hx, hfailed⟩
      · cases hfailed

/-- A failure leaves the counters as they are. -/
theorem fail (h : stream.Counted) (hi : stream.chunks[i]? = some insert) (hpending : insert.status = .pending) :
    Counted { stream with chunks := stream.chunks.set i { insert with status := .failed }, errored := true } := by
  have hlt := (List.getElem?_eq_some_iff.1 hi).1
  refine ⟨?_, ?_, h.origin_set hi _, ?_⟩
  · have hcount := Heap.countP_set (b := { insert with status := .failed }) ChunkInsert.isOpen hi
    have htotal := h.total
    simp only [ChunkInsert.isOpen, hpending, ne_eq, reduceCtorEq, not_false_eq_true, decide_true,
      if_true] at hcount htotal ⊢
    omega
  · intro w c hc
    have hcount := Heap.countP_set (b := { insert with status := .failed }) (ChunkInsert.isOpenIn w) hi
    have hscope := h.scope w c hc
    simp only [ChunkInsert.isOpenIn, ChunkInsert.isOpen, hpending, ne_eq, reduceCtorEq, not_false_eq_true, decide_true,
      Bool.true_and] at hcount hscope ⊢
    omega
  · refine iff_of_true rfl ⟨{ insert with status := .failed }, ?_, rfl⟩
    exact List.mem_set hlt _

end Counted

end GridFSBucketWriteStream

end MongoDriver.Gridfs
