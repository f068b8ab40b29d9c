/-
How an upload comes to its end. Until the rest in the buffer is inserted the stream cannot take itself for done: the
`end(chunk)` that will insert it has requests of its own open. After that it is done with the last acknowledgement,
and with a failed request never.
-/
import MongoDriver.Gridfs.Chunking

namespace MongoDriver.Gridfs

open Cmap (Buffer)

namespace GridFSBucketWriteStream

/-! ## Phases -/

/-- The rest is not inserted yet; the chunks and the buffer hold the bytes. The `key` is the file's id and chunk size,
which never change. -/
structure Accepting (stream : GridFSBucketWriteStream) (key : Nat × Nat) (bytes : Buffer) : Prop where
  aborted : stream.aborted = false
  checkedIndexes : stream.checkedIndexes = true
  waiting : stream.waiting = []
  key_eq : (stream.id, stream.chunkSizeBytes) = key
  cutting : stream.Cutting bytes
  length : stream.length = bytes.length
  counted : stream.Counted
  done : stream.done = false
  files : stream.files = []

/-- Only writes so far. -/
structure Writing (stream : GridFSBucketWriteStream) (key : Nat × Nat) (bytes : Buffer) :
    Prop extends stream.Accepting key bytes where
  callers : ∀ c ∈ stream.scopes, c.callback = .caller

/-- The one write that will insert the rest has inserts to wait for. -/
structure Owing (stream : GridFSBucketWriteStream) (key : Nat × Nat) (bytes : Buffer) :
    Prop extends stream.Accepting key bytes where
  streamEnd : stream.streamEnd = true
  owner : ∃ (w : Nat) (c : WriteScope), stream.scopes[w]? = some c ∧ 0 < c.outstandingRequests ∧
    c.callback = .writeRemnant ∧
    ∀ (w' : Nat) (c' : WriteScope), stream.scopes[w']? = some c' → c'.callback = .writeRemnant → w' = w

/-- No write will insert the rest any more. -/
def Quiet (stream : GridFSBucketWriteStream) : Prop :=
  ∀ c ∈ stream.scopes, c.callback = .writeRemnant → c.outstandingRequests = 0

/-- The rest is to be inserted now. -/
structure Due (stream : GridFSBucketWriteStream) (key : Nat × Nat) (bytes : Buffer) :
    Prop extends stream.Accepting key bytes where
  streamEnd : stream.streamEnd = true
  quiet : stream.Quiet

/-- Everything is inserted, and the files document at most when all of it is acknowledged. -/
structure Settled (stream : GridFSBucketWriteStream) (key : Nat × Nat) (bytes : Buffer) : Prop where
  aborted : stream.aborted = false
  checkedIndexes : stream.checkedIndexes = true
  streamEnd : stream.streamEnd = true
  key_eq : (stream.id, stream.chunkSizeBytes) = key
  stored : Stored stream.chunkSizeBytes stream.id stream.docs bytes
  length : stream.length = bytes.length
  counted : stream.Counted
  quiet : stream.Quiet
  outcome : stream.done = false ∧ stream.files = [] ∨
    stream.done = true ∧ stream.files = [stream.createFilesDoc] ∧ stream.outstandingRequests = 0

/-- The stream has noticed when it is done. -/
structure Complete (stream : GridFSBucketWriteStream) (key : Nat × Nat) (bytes : Buffer) :
    Prop extends stream.Settled key bytes where
  noticed : stream.outstandingRequests = 0 → stream.done = true

variable {stream t : GridFSBucketWriteStream} {key : Nat × Nat} {bytes chunk : Buffer} {news : List ChunkInsert}

/-! ## The end of the upload -/

theorem Settled.checkDone (h : stream.Settled key bytes) : stream.checkDone.Complete key bytes := by
  unfold GridFSBucketWriteStream.checkDone
  rcases h.outcome with ⟨hdone, hfiles⟩ | ⟨hdone, hfiles, hzero⟩
  · rw [if_neg (by simp [hdone])]
    by_cases hzero : stream.outstandingRequests = 0
    · have herrored : stream.errored = false := by
        by_contra herr
        have hpos := h.counted.errored_pos (by simpa using herr)
        omega
      rw [if_pos ⟨h.streamEnd, hzero, herrored⟩]
      dsimp only
      rw [if_neg (by simp [h.aborted])]
      refine ⟨⟨h.aborted, h.checkedIndexes, h.streamEnd, h.key_eq, h.stored, h.length, ?_, h.quiet,
        .inr ⟨rfl, ?_, hzero⟩⟩, fun _ => rfl⟩
      · exact ⟨h.counted.total, h.counted.scope, h.counted.origin, h.counted.errored⟩
      · rw [hfiles]
        rfl
    · rw [if_neg fun hc => hzero hc.2.1]
      exact ⟨h, fun hz => absurd hz hzero⟩
  · rw [if_pos hdone]
    exact ⟨h, fun _ => hdone⟩

/-- Before the rest is inserted nothing is done. -/
theorem Accepting.checkDone (h : stream.Accepting key bytes)
    (hopen : stream.streamEnd = false ∨ 0 < stream.outstandingRequests) :
    stream.checkDone = stream := by
  unfold GridFSBucketWriteStream.checkDone
  rw [if_neg (by simp [h.done]), if_neg]
  rintro ⟨hend, hzero, -⟩
  rcases hopen with hopen | hopen
  · rw [hopen] at hend
    cases hend
  · omega

theorem Due.writeRemnant (h : stream.Due key bytes) : stream.writeRemnant.Complete key bytes := by
  obtain ⟨full, buffered, hcut, hfilled, hbytes⟩ := h.cutting.cut
  have hroom := h.cutting.room
  unfold GridFSBucketWriteStream.writeRemnant
  by_cases hpos : stream.pos = 0
  · rw [if_pos hpos]
    refine Settled.checkDone ⟨h.aborted, h.checkedIndexes, h.streamEnd, h.key_eq, ?_, h.length, h.counted, h.quiet,
      .inl ⟨h.done, h.files⟩⟩
    have hnil : buffered = [] := List.eq_nil_of_length_eq_zero (hfilled.index_eq.symm.trans hpos)
    rw [hnil, List.append_nil] at hbytes
    rw [← hbytes]
    exact hcut.stored (by omega)
  · rw [if_neg hpos]
    dsimp only
    rw [if_neg (by simp [h.aborted])]
    have hremnant : copy stream.bufToStore (List.replicate stream.pos 0) 0 0 stream.pos = buffered := by
      have hcopied := (filled_copy (Filling.filled_alloc (stream.pos + 0) (0 : UInt8))
        (show 0 + stream.pos ≤ stream.bufToStore.length by have := hfilled.length; omega)).eq
      rwa [Nat.add_zero, Nat.zero_add, List.drop_zero, List.nil_append, hfilled.take_eq] at hcopied
    have hcounted := h.counted.remnant (stream.createChunkDoc stream.n buffered)
    rw [hremnant]
    refine ⟨⟨h.aborted, h.checkedIndexes, h.streamEnd, h.key_eq, ?_, h.length, hcounted, h.quiet,
      .inl ⟨h.done, h.files⟩⟩, ?_⟩
    · have hlength := hfilled.index_eq
      rw [← hbytes]
      have hstored := hcut.stored_snoc (d := stream.createChunkDoc stream.n buffered) rfl
        (congrArg Nat.cast h.cutting.number) (by dsimp only [createChunkDoc]; omega)
        (by dsimp only [createChunkDoc]; omega)
      simpa [docs, insertChunk, createChunkDoc] using hstored
    · intro hzero
      have := h.counted.total_nonneg
      simp only [insertChunk] at hzero
      omega

/-! ## Writing -/

theorem Accepting.absorb (h : stream.Accepting key bytes) (ht : stream.Absorbs chunk [] t)
    (hcut : t.Cutting (bytes ++ chunk)) :
    t.Accepting key (bytes ++ chunk) := by
  have heq := ht.eq
  refine ⟨?_, ?_, ?_, ?_, hcut, ?_, h.counted.absorb_nil ht, ?_, ?_⟩
  · rw [heq, h.aborted]
  · rw [heq, h.checkedIndexes]
  · rw [heq, h.waiting]
  · rw [heq, ← h.key_eq]
  · rw [heq, List.length_append, h.length]
  · rw [heq, h.done]
  · rw [heq, h.files]

theorem Accepting.absorb_scope (h : stream.Accepting key bytes) (ht : stream.Absorbs chunk news t)
    (hcut : t.Cutting (bytes ++ chunk)) (callback : WriteCallback) :
    Accepting { t with scopes := t.scopes ++ [{ outstandingRequests := news.length, callback }] } key
      (bytes ++ chunk) := by
  have heq := ht.eq
  refine ⟨?_, ?_, ?_, ?_, ⟨hcut.number, hcut.room, hcut.cut⟩, ?_, h.counted.absorb ht callback, ?_, ?_⟩
  all_goals dsimp only
  · rw [heq, h.aborted]
  · rw [heq, h.checkedIndexes]
  · rw [heq, h.waiting]
  · rw [heq, ← h.key_eq]
  · rw [heq, List.length_append, h.length]
  · rw [heq, h.done]
  · rw [heq, h.files]

theorem Absorbs.scopes (h : stream.Absorbs chunk news t) : t.scopes = stream.scopes := by rw [h.eq]

theorem Absorbs.streamEnd (h : stream.Absorbs chunk news t) : t.streamEnd = stream.streamEnd := by rw [h.eq]

/-- A write of the caller. -/
theorem Writing.doWrite (h : stream.Writing key bytes) (chunk : Buffer) :
    (stream.doWrite chunk .caller).2.Writing key (bytes ++ chunk) ∧
      (stream.doWrite chunk .caller).2.streamEnd = stream.streamEnd := by
  obtain ⟨news, t, ht, hcut, ⟨rfl, heq⟩ | ⟨-, heq⟩⟩ := doWrite_eq h.aborted h.cutting chunk .caller
  · rw [heq]
    exact ⟨⟨h.toAccepting.absorb ht hcut, ht.scopes ▸ h.callers⟩, ht.streamEnd⟩
  · rw [heq]
    refine ⟨⟨h.toAccepting.absorb_scope ht hcut .caller, ?_⟩, ht.streamEnd⟩
    intro c hc
    rcases List.mem_append.1 hc with hc | hc
    · exact h.callers c (ht.scopes ▸ hc)
    · rw [List.mem_singleton.1 hc]

theorem Writing.quiet (h : stream.Writing key bytes) : stream.Quiet := by
  intro c hc hcallback
  rw [h.callers c hc] at hcallback
  cases hcallback

/-- The write of `end(chunk)`. -/
theorem Writing.doWrite_last (h : stream.Writing key bytes) (hend : stream.streamEnd = true) (chunk : Buffer) :
    (stream.doWrite chunk .writeRemnant).2.Owing key (bytes ++ chunk) ∨
      (stream.doWrite chunk .writeRemnant).2.Complete key (bytes ++ chunk) := by
  obtain ⟨news, t, ht, hcut, ⟨rfl, heq⟩ | ⟨hnews, heq⟩⟩ := doWrite_eq h.aborted h.cutting chunk .writeRemnant
  · rw [heq]
    refine .inr (Due.writeRemnant ⟨h.toAccepting.absorb ht hcut, ht.streamEnd.trans hend, ?_⟩)
    unfold Quiet
    rw [ht.scopes]
    exact h.quiet
  · rw [heq]
    refine .inl ⟨h.toAccepting.absorb_scope ht hcut .writeRemnant, ht.streamEnd.trans hend, ?_⟩
    refine ⟨t.scopes.length, _, List.getElem?_concat_length, ?_, rfl, ?_⟩
    · exact Int.natCast_pos.2 (List.length_pos_iff.2 hnews)
    · intro w' c' hc' hcallback
      rcases Heap.get_alloc_cases hc' with ⟨hw, -⟩ | hc'
      · exact hw
      · rw [ht.scopes] at hc'
        rw [h.callers c' (List.mem_of_getElem? hc')] at hcallback
        cases hcallback

/-! ## Waiting for the index check -/

/-- The calls wait for the index check; nothing has been written. -/
structure Pending (stream : GridFSBucketWriteStream) (key : Nat × Nat) (bytes : Buffer) : Prop where
  fresh : Writing { stream with checkedIndexes := true, waiting := [] } key []
  checkedIndexes : stream.checkedIndexes = false
  chunks : stream.chunks = []
  calls : ∃ (writes : List Buffer) (last : List Deferred), stream.waiting =
    writes.map (Deferred.doWrite · .caller) ++ last ∧
    (stream.streamEnd = false ∧ last = [] ∧ writes.flatten = bytes ∨
      stream.streamEnd = true ∧ last = [.writeRemnant] ∧ writes.flatten = bytes ∨
      stream.streamEnd = true ∧ ∃ chunk, last = [.doWrite chunk .writeRemnant] ∧ writes.flatten ++ chunk = bytes)

/-- The phases once the index check is over. -/
inductive Running (stream : GridFSBucketWriteStream) (key : Nat × Nat) (bytes : Buffer) : Prop
  | writing (h : stream.Writing key bytes) (hend : stream.streamEnd = false)
  | owing (h : stream.Owing key bytes)
  | complete (h : stream.Complete key bytes)

theorem Writing.foldl_perform (h : stream.Writing key bytes) (writes : List Buffer) :
    ((writes.map (Deferred.doWrite · .caller)).foldl perform stream).Writing key (bytes ++ writes.flatten) ∧
      ((writes.map (Deferred.doWrite · .caller)).foldl perform stream).streamEnd = stream.streamEnd := by
  induction writes generalizing stream bytes with
  | nil => simpa using h
  | cons chunk writes ih =>
    obtain ⟨hwrite, hend⟩ := h.doWrite chunk
    obtain ⟨hrest, hend'⟩ := ih hwrite
    rw [List.map_cons, List.foldl_cons, List.flatten_cons, ← List.append_assoc]
    exact ⟨hrest, hend'.trans hend⟩

theorem Writing.due (h : stream.Writing key bytes) (hend : stream.streamEnd = true) : stream.Due key bytes :=
  ⟨h.toAccepting, hend, h.quiet⟩

theorem Running.of_last (h : stream.Writing key bytes) (hend : stream.streamEnd = true) (chunk : Buffer) :
    (stream.doWrite chunk .writeRemnant).2.Running key (bytes ++ chunk) := by
  rcases h.doWrite_last hend chunk with howing | hcomplete
  · exact .owing howing
  · exact .complete hcomplete

theorem Pending.emitIndex (h : stream.Pending key bytes) : stream.emitIndex.Running key bytes := by
  obtain ⟨writes, last, hwaiting, hlast⟩ := h.calls
  obtain ⟨hwriting, hend⟩ := h.fresh.foldl_perform writes
  rw [GridFSBucketWriteStream.emitIndex, hwaiting, List.foldl_append]
  rw [List.nil_append] at hwriting
  rcases hlast with ⟨hopen, rfl, rfl⟩ | ⟨hclosed, rfl, rfl⟩ | ⟨hclosed, chunk, rfl, rfl⟩
  · exact .writing hwriting (hend.trans hopen)
  · exact .complete (hwriting.due (hend.trans hclosed)).writeRemnant
  · exact .of_last hwriting (hend.trans hclosed) chunk

/-! ## Calls -/

theorem Pending.writes (h : stream.Pending key bytes) (hend : stream.streamEnd = false) :
    ∃ writes : List Buffer, stream.waiting = writes.map (Deferred.doWrite · .caller) ∧ writes.flatten = bytes := by
  obtain ⟨writes, last, hwaiting, hlast⟩ := h.calls
  rcases hlast with ⟨-, rfl, hbytes⟩ | ⟨hclosed, -⟩ | ⟨hclosed, -⟩
  · exact ⟨writes, by simpa using hwaiting, hbytes⟩
  · rw [hend] at hclosed
    cases hclosed
  · rw [hend] at hclosed
    cases hclosed

theorem Pending.write (h : stream.Pending key bytes) (hend : stream.streamEnd = false) (chunk : Buffer) :
    (stream.write chunk .caller).2.Pending key (bytes ++ chunk) := by
  obtain ⟨writes, hwaiting, rfl⟩ := h.writes hend
  unfold GridFSBucketWriteStream.write waitForIndexes
  rw [if_neg (by simp [h.checkedIndexes])]
  refine ⟨h.fresh, h.checkedIndexes, h.chunks, writes ++ [chunk], [], ?_, .inl ⟨hend, rfl, ?_⟩⟩
  · simp [hwaiting]
  · simp

theorem Writing.ended (h : stream.Writing key bytes) : Writing { stream with streamEnd := true } key bytes :=
  ⟨⟨h.aborted, h.checkedIndexes, h.waiting, h.key_eq, ⟨h.cutting.number, h.cutting.room, h.cutting.cut⟩, h.length,
    ⟨h.counted.total, h.counted.scope, h.counted.origin, h.counted.errored⟩, h.done, h.files⟩, h.callers⟩

theorem Pending.endWith (h : stream.Pending key bytes) (hend : stream.streamEnd = false) (chunk : Option Buffer) :
    (stream.endWith chunk).Pending key (bytes ++ chunk.getD []) := by
  obtain ⟨writes, hwaiting, rfl⟩ := h.writes hend
  have haborted : stream.aborted = false := h.fresh.aborted
  unfold GridFSBucketWriteStream.endWith
  rw [if_neg (by simp [haborted])]
  cases chunk with
  | none =>
    unfold waitForIndexes
    dsimp only
    rw [if_neg (by simp [h.checkedIndexes])]
    refine ⟨h.fresh.ended, h.checkedIndexes, h.chunks, writes, [.writeRemnant], ?_, .inr (.inl ⟨rfl, rfl, ?_⟩)⟩
    · simp [hwaiting]
    · simp
  | some chunk =>
    unfold GridFSBucketWriteStream.write waitForIndexes
    dsimp only
    rw [if_neg (by simp [h.checkedIndexes])]
    refine ⟨h.fresh.ended, h.checkedIndexes, h.chunks, writes, [.doWrite chunk .writeRemnant], ?_,
      .inr (.inr ⟨rfl, chunk, rfl, ?_⟩)⟩
    · simp [hwaiting]
    · simp

theorem Writing.endWith (h : stream.Writing key bytes) (chunk : Option Buffer) :
    (stream.endWith chunk).Running key (bytes ++ chunk.getD []) := by
  unfold GridFSBucketWriteStream.endWith
  rw [if_neg (by simp [h.aborted])]
  cases chunk with
  | none =>
    unfold waitForIndexes
    dsimp only
    rw [if_pos h.checkedIndexes, Option.getD_none, List.append_nil]
    exact .complete (h.ended.due rfl).writeRemnant
  | some chunk =>
    unfold GridFSBucketWriteStream.write waitForIndexes
    dsimp only
    rw [if_pos h.checkedIndexes]
    exact .of_last h.ended rfl chunk

/-! ## Answers -/

section

variable {i : Nat} {insert : ChunkInsert} {scopes : List WriteScope}

theorem docs_set (hi : stream.chunks[i]? = some insert) (status : InsertStatus) :
    (stream.chunks.set i { insert with status }).map (·.doc) = stream.docs := by
  have hdoc : stream.docs[i]? = some insert.doc := by rw [docs, List.getElem?_map, hi, Option.map_some]
  rw [List.map_set]
  exact (Heap.set_get hdoc).symm

/-- The stream with an insert acknowledged and its scopes counted down. -/
def acked (stream : GridFSBucketWriteStream) (i : Nat) (insert : ChunkInsert) (scopes : List WriteScope) :
    GridFSBucketWriteStream :=
  { stream with
    chunks := stream.chunks.set i { insert with status := .acknowledged }
    outstandingRequests := stream.outstandingRequests - 1
    scopes }

/-- The scopes after an acknowledgement: one open insert less in the scope it was issued in. -/
def countDown (scopes : List WriteScope) : Origin → List WriteScope
  | .writeRemnant => scopes
  | .doWrite w => scopes.modify w fun s => { s with outstandingRequests := s.outstandingRequests - 1 }

theorem length_countDown (scopes : List WriteScope) (origin : Origin) :
    (countDown scopes origin).length = scopes.length := by
  cases origin with
  | writeRemnant => rfl
  | doWrite w => exact List.length_modify ..

theorem get_countDown {origin : Origin} {w : Nat} {c : WriteScope} (hc : (countDown scopes origin)[w]? = some c) :
    ∃ c', scopes[w]? = some c' ∧ c.callback = c'.callback ∧
      c.outstandingRequests = c'.outstandingRequests - if origin = .doWrite w then 1 else 0 := by
  cases origin with
  | writeRemnant => exact ⟨c, hc, rfl, by simp⟩
  | doWrite v =>
    rw [countDown, List.getElem?_modify] at hc
    obtain ⟨c', hc', hmap⟩ := Option.map_eq_some_iff.1 hc
    refine ⟨c', hc', ?_⟩
    by_cases hv : v = w
    · rw [if_pos hv] at hmap
      simp [← hmap, hv]
    · rw [if_neg hv] at hmap
      simp [← hmap, hv]

theorem mem_countDown {origin : Origin} {c : WriteScope} (hc : c ∈ countDown scopes origin) :
    ∃ c' ∈ scopes, c.callback = c'.callback := by
  obtain ⟨w, hw⟩ := List.mem_iff_getElem?.1 hc
  obtain ⟨c', hc', hcallback, -⟩ := get_countDown hw
  exact ⟨c', List.mem_of_getElem? hc', hcallback⟩

theorem Counted.acked (h : stream.Counted) (hi : stream.chunks[i]? = some insert)
    (hpending : insert.status = .pending) :
    (stream.acked i insert (countDown stream.scopes insert.origin)).Counted := by
  refine h.acknowledge hi hpending (length_countDown ..) fun w c hc => ?_
  obtain ⟨c', hc', -, hcount⟩ := get_countDown hc
  exact ⟨c', hc', hcount⟩

theorem Accepting.acked (h : stream.Accepting key bytes) (hi : stream.chunks[i]? = some insert)
    (hpending : insert.status = .pending) :
    (stream.acked i insert (countDown stream.scopes insert.origin)).Accepting key bytes := by
  have hdocs : (stream.acked i insert (countDown stream.scopes insert.origin)).docs = stream.docs := docs_set hi _
  refine ⟨h.aborted, h.checkedIndexes, h.waiting, h.key_eq, ⟨?_, h.cutting.room, ?_⟩, h.length,
    h.counted.acked hi hpending, h.done, h.files⟩
  · rw [hdocs]
    exact h.cutting.number
  · rw [hdocs]
    exact h.cutting.cut

theorem Writing.acked (h : stream.Writing key bytes) (hi : stream.chunks[i]? = some insert)
    (hpending : insert.status = .pending) :
    (stream.acked i insert (countDown stream.scopes insert.origin)).Writing key bytes := by
  refine ⟨h.toAccepting.acked hi hpending, fun c hc => ?_⟩
  obtain ⟨c', hc', hcallback⟩ := mem_countDown hc
  rw [hcallback, h.callers c' hc']

/-- Where an insert is open the stream is not done. -/
theorem Settled.acked (h : stream.Settled key bytes) (hi : stream.chunks[i]? = some insert)
    (hpending : insert.status = .pending) :
    (stream.acked i insert (countDown stream.scopes insert.origin)).Settled key bytes := by
  have hdocs : (stream.acked i insert (countDown stream.scopes insert.origin)).docs = stream.docs := docs_set hi _
  have hcounted := h.counted.acked hi hpending
  refine ⟨h.aborted, h.checkedIndexes, h.streamEnd, h.key_eq, ?_, h.length, hcounted, ?_, ?_⟩
  · rw [hdocs]
    exact h.stored
  · intro c hc hcallback
    obtain ⟨w, hw⟩ := List.mem_iff_getElem?.1 hc
    obtain ⟨c', hc', hcallback', hcount⟩ := get_countDown hw
    have hzero := h.quiet c' (List.mem_of_getElem? hc') (hcallback' ▸ hcallback)
    have hnonneg : 0 ≤ c.outstandingRequests := by
      rw [hcounted.scope w c hw]
      exact Int.natCast_nonneg _
    split at hcount <;> omega
  · rcases h.outcome with hopen | ⟨-, -, hzero⟩
    · exact .inl hopen
    · have hnonneg := hcounted.total_nonneg
      simp only [GridFSBucketWriteStream.acked] at hnonneg
      omega

end

end GridFSBucketWriteStream

namespace Upload

open GridFSBucketWriteStream

variable {u u' : Upload} {key : Nat × Nat}

theorem call_open {c : Call} (hcall : u.call c = some u') : u.stream.streamEnd = false := by
  unfold call at hcall
  split at hcall
  · cases hcall
  · next hend => simpa using hend

theorem call_pending (h : u.stream.Pending key u.written) {c : Call} (hcall : u.call c = some u') :
    u'.stream.Pending key u'.written := by
  have hopen := call_open hcall
  unfold call at hcall
  rw [if_neg (by simp [hopen])] at hcall
  cases c with
  | write chunk =>
    cases hcall
    exact h.write hopen chunk
  | endWith chunk =>
    cases hcall
    exact h.endWith hopen chunk

theorem call_running (h : u.stream.Running key u.written) {c : Call} (hcall : u.call c = some u') :
    u'.stream.Running key u'.written := by
  have hopen := call_open hcall
  unfold call at hcall
  rw [if_neg (by simp [hopen])] at hcall
  cases h with
  | writing h _ =>
    cases c with
    | write chunk =>
      cases hcall
      unfold GridFSBucketWriteStream.write waitForIndexes
      rw [if_pos h.checkedIndexes]
      exact .writing (h.doWrite chunk).1 ((h.doWrite chunk).2.trans hopen)
    | endWith chunk =>
      cases hcall
      exact h.endWith chunk
  | owing h => cases hopen.symm.trans h.streamEnd
  | complete h => cases hopen.symm.trans h.streamEnd

/-- The calls of the listeners of `drain`. -/
theorem calls_running : ∀ {calls : List Call} {u : Upload}, calls.foldlM call u = some u' →
    u.stream.Running key u.written → u'.stream.Running key u'.written
  | [], u, hcalls, h => by
    cases hcalls
    exact h
  | c :: calls, u, hcalls, h => by
    rw [List.foldlM_cons] at hcalls
    obtain ⟨v, hv, hcalls⟩ := Option.bind_eq_some_iff.1 hcalls
    exact calls_running hcalls (call_running h hv)

theorem calls_ended {calls : List Call} (hcalls : calls.foldlM call u = some u') (hend : u.stream.streamEnd = true) :
    u' = u := by
  cases calls with
  | nil =>
    cases hcalls
    rfl
  | cons c calls =>
    rw [List.foldlM_cons] at hcalls
    obtain ⟨v, hv, -⟩ := Option.bind_eq_some_iff.1 hcalls
    cases (call_open hv).symm.trans hend

end Upload

namespace GridFSBucketWriteStream

section

variable {stream : GridFSBucketWriteStream} {key : Nat × Nat} {bytes : Buffer} {i w : Nat} {insert : ChunkInsert}
  {c : WriteScope}

theorem Owing.checkDone (h : stream.Owing key bytes) : stream.checkDone = stream := by
  obtain ⟨w, c, hc, hpos, -⟩ := h.owner
  refine h.toAccepting.checkDone (.inr ?_)
  have hle := h.counted.scope_le hc
  omega

theorem Running.checkDone (h : stream.Running key bytes) : stream.checkDone.Running key bytes := by
  cases h with
  | writing h hend =>
    rw [h.toAccepting.checkDone (.inl hend)]
    exact .writing h hend
  | owing h =>
    rw [h.checkDone]
    exact .owing h
  | complete h => exact .complete h.toSettled.checkDone

/-- An acknowledgement while the rest is owed: it is still owed, or it is due because the write that owes it has no
open insert left. -/
theorem Owing.acked (h : stream.Owing key bytes) (hi : stream.chunks[i]? = some insert)
    (hpending : insert.status = .pending) :
    (stream.acked i insert (countDown stream.scopes insert.origin)).Owing key bytes ∨
      (stream.acked i insert (countDown stream.scopes insert.origin)).Due key bytes ∧
        ∃ w d, insert.origin = .doWrite w ∧ (countDown stream.scopes insert.origin)[w]? = some d ∧
          d.callback = .writeRemnant ∧ d.outstandingRequests = 0 := by
  have haccepting := h.toAccepting.acked hi hpending
  obtain ⟨w, c, hc, hpos, hcallback, honly⟩ := h.owner
  have hlt : w < (countDown stream.scopes insert.origin).length := by
    rw [length_countDown]
    exact (List.getElem?_eq_some_iff.1 hc).1
  have hd := List.getElem?_eq_getElem hlt
  generalize (countDown stream.scopes insert.origin)[w] = d at hd
  obtain ⟨c', hc', hdcallback, hcount⟩ := get_countDown hd
  obtain rfl := Option.some.inj (hc.symm.trans hc')
  have hunique : ∀ (w' : Nat) (e : WriteScope), (countDown stream.scopes insert.origin)[w']? = some e →
      e.callback = .writeRemnant → w' = w := by
    intro w' e he hecallback
    obtain ⟨e', he', heq, -⟩ := get_countDown he
    exact honly w' e' he' (heq ▸ hecallback)
  by_cases hzero : d.outstandingRequests = 0
  · have horigin : insert.origin = .doWrite w := by
      by_contra hother
      rw [if_neg hother] at hcount
      omega
    refine .inr ⟨⟨haccepting, h.streamEnd, fun e he hecallback => ?_⟩, w, d, horigin, hd,
      hdcallback.trans hcallback, hzero⟩
    obtain ⟨w', hw'⟩ := List.mem_iff_getElem?.1 he
    obtain rfl := hunique w' e hw' hecallback
    obtain rfl := Option.some.inj (hd.symm.trans hw')
    exact hzero
  · refine .inl ⟨haccepting, h.streamEnd, w, d, hd, ?_, hdcallback.trans hcallback, hunique⟩
    have hscope := haccepting.counted.scope w d hd
    omega

end

end GridFSBucketWriteStream

namespace Upload

open GridFSBucketWriteStream

variable {u u' : Upload} {key : Nat × Nat} {i : Nat} {insert : ChunkInsert} {onDrain : List Call}

/-- What the callback of an acknowledged insert does. -/
theorem acknowledge_cases (hack : u.acknowledge i insert onDrain = some u') :
    (insert.origin = .writeRemnant ∧ u' = { u with
      stream := (u.stream.acked i insert (countDown u.stream.scopes insert.origin)).checkDone }) ∨
    ∃ w c, insert.origin = .doWrite w ∧ (countDown u.stream.scopes insert.origin)[w]? = some c ∧
      (c.outstandingRequests ≠ 0 ∧ u' = { u with
        stream := u.stream.acked i insert (countDown u.stream.scopes insert.origin) } ∨
      c.outstandingRequests = 0 ∧ ∃ v, onDrain.foldlM call { u with
          stream := u.stream.acked i insert (countDown u.stream.scopes insert.origin) } = some v ∧
        u' = { v with stream := (c.callback.run v.stream).checkDone }) := by
  unfold acknowledge at hack
  cases horigin : insert.origin with
  | writeRemnant =>
    simp only [horigin] at hack
    cases hack
    exact .inl ⟨rfl, rfl⟩
  | doWrite w =>
    simp only [horigin] at hack
    refine .inr ⟨w, ?_⟩
    split at hack
    case h_1 => cases hack
    case h_2 c hc =>
      refine ⟨c, rfl, hc, ?_⟩
      split at hack
      case isFalse hne =>
        cases hack
        exact .inl ⟨hne, rfl⟩
      case isTrue hzero =>
        obtain ⟨v, hv, hu'⟩ := Option.bind_eq_some_iff.1 hack
        cases hu'
        exact .inr ⟨hzero, v, hv, rfl⟩

theorem acknowledge_running (h : u.stream.Running key u.written) (hi : u.stream.chunks[i]? = some insert)
    (hpending : insert.status = .pending) (hack : u.acknowledge i insert onDrain = some u') :
    u'.stream.Running key u'.written := by
  have hcases := acknowledge_cases hack
  cases h with
  | writing h hend =>
    have hacked := h.acked hi hpending
    rcases hcases with ⟨-, rfl⟩ | ⟨w, c, -, hc, ⟨-, rfl⟩ | ⟨-, v, hv, rfl⟩⟩
    · exact (Running.writing hacked hend).checkDone
    · exact .writing hacked hend
    · rw [hacked.callers c (List.mem_of_getElem? hc)]
      exact (calls_running hv (.writing hacked hend)).checkDone
  | owing h =>
    rcases h.acked hi hpending with hacked | ⟨hdue, w', d, horigin', hd, hdcallback, hdzero⟩
    · rcases hcases with ⟨-, rfl⟩ | ⟨w, c, -, hc, ⟨-, rfl⟩ | ⟨hzero, v, hv, rfl⟩⟩
      · exact (Running.owing hacked).checkDone
      · exact .owing hacked
      · rw [calls_ended hv hacked.streamEnd]
        have hcaller : c.callback = .caller := by
          obtain ⟨w', d, hd, hpos, -, honly⟩ := hacked.owner
          cases hcallback : c.callback with
          | caller => rfl
          | writeRemnant =>
            obtain rfl := honly w c hc hcallback
            obtain rfl := Option.some.inj (hd.symm.trans hc)
            omega
        rw [hcaller]
        exact (Running.owing hacked).checkDone
    · rcases hcases with ⟨horigin, -⟩ | ⟨w, c, horigin, hc, hcase⟩
      · cases horigin.symm.trans horigin'
      · obtain rfl : w = w' := by
          cases horigin.symm.trans horigin'
          rfl
        obtain rfl := Option.some.inj (hd.symm.trans hc)
        rcases hcase with ⟨hne, -⟩ | ⟨-, v, hv, rfl⟩
        · exact absurd hdzero hne
        · rw [calls_ended hv hdue.streamEnd, hdcallback]
          exact .complete hdue.writeRemnant.toSettled.checkDone
  | complete h =>
    have hacked := h.toSettled.acked hi hpending
    rcases hcases with ⟨-, rfl⟩ | ⟨w, c, horigin, hc, ⟨hne, rfl⟩ | ⟨hzero, v, hv, rfl⟩⟩
    · exact .complete hacked.checkDone
    · refine .complete ⟨hacked, fun hzero => absurd ?_ hne⟩
      have hle := hacked.counted.scope_le hc
      have hscope := hacked.counted.scope w c hc
      dsimp only at hzero
      omega
    · rw [calls_ended hv hacked.streamEnd]
      have hcaller : c.callback = .caller := by
        obtain ⟨c', hc', hcallback', hcount⟩ := get_countDown hc
        rw [if_pos horigin] at hcount
        cases hcallback : c.callback with
        | caller => rfl
        | writeRemnant =>
          have hquiet := h.quiet c' (List.mem_of_getElem? hc') (hcallback'.symm.trans hcallback)
          omega
      rw [hcaller]
      exact .complete hacked.checkDone

end Upload

namespace GridFSBucketWriteStream

section

variable {stream : GridFSBucketWriteStream} {key : Nat × Nat} {bytes : Buffer} {i : Nat} {insert : ChunkInsert}

theorem handleError_eq (stream : GridFSBucketWriteStream) : stream.handleError = { stream with errored := true } := by
  unfold handleError
  split
  · next h => rw [← h]
  · rfl

theorem Counted.pos (h : stream.Counted) (hi : stream.chunks[i]? = some insert) (hpending : insert.status = .pending) :
    0 < stream.outstandingRequests := by
  rw [h.total]
  refine Int.natCast_pos.2 (List.countP_pos_iff.2 ⟨insert, List.mem_of_getElem? hi, ?_⟩)
  simp [ChunkInsert.isOpen, hpending]

/-- A failed insert stays open and keeps the stream from being done. -/
theorem Running.fail (h : stream.Running key bytes) (hi : stream.chunks[i]? = some insert)
    (hpending : insert.status = .pending) : ((stream.setStatus i insert .failed).handleError).Running key bytes := by
  rw [handleError_eq]
  have hdocs : (stream.chunks.set i { insert with status := .failed }).map (·.doc) = stream.docs := docs_set hi _
  have haccepting : stream.Accepting key bytes →
      Accepting { stream.setStatus i insert .failed with errored := true } key bytes := fun h =>
    ⟨h.aborted, h.checkedIndexes, h.waiting, h.key_eq,
      ⟨h.cutting.number.trans (congrArg List.length hdocs.symm), h.cutting.room, by
        have hcut := h.cutting.cut
        rw [← hdocs] at hcut
        exact hcut⟩,
      h.length, h.counted.fail hi hpending, h.done, h.files⟩
  cases h with
  | writing h hend => exact .writing ⟨haccepting h.toAccepting, h.callers⟩ hend
  | owing h => exact .owing ⟨haccepting h.toAccepting, h.streamEnd, h.owner⟩
  | complete h =>
    have hpos := h.counted.pos hi hpending
    refine .complete ⟨⟨h.aborted, h.checkedIndexes, h.streamEnd, h.key_eq, ?_, h.length,
      h.counted.fail hi hpending, h.quiet, ?_⟩, fun hzero => ?_⟩
    · have hstored := h.stored
      rw [← hdocs] at hstored
      exact hstored
    · rcases h.outcome with hopen | ⟨-, -, hzero⟩
      · exact .inl hopen
      · omega
    · simp only [setStatus] at hzero
      omega

theorem Running.checkedIndexes (h : stream.Running key bytes) : stream.checkedIndexes = true := by
  cases h with
  | writing h _ => exact h.checkedIndexes
  | owing h => exact h.checkedIndexes
  | complete h => exact h.checkedIndexes

theorem new_writing (id : Nat) {size : Nat} (hsize : 0 < size) (checkedIndexes : Bool) :
    Writing { new id size checkedIndexes with checkedIndexes := true, waiting := [] } (id, size) [] where
  aborted := rfl
  checkedIndexes := rfl
  waiting := rfl
  key_eq := rfl
  cutting := ⟨rfl, hsize, [], [], cut_nil, Filling.filled_alloc size 0, rfl⟩
  length := rfl
  counted := by
    refine ⟨rfl, fun w c hc => ?_, fun i hi => absurd hi List.not_mem_nil, ?_⟩
    · cases hc
    · simp [new]
  done := rfl
  files := rfl
  callers c hc := absurd hc List.not_mem_nil

end

end GridFSBucketWriteStream

/-! ## Runs -/

namespace Upload

open GridFSBucketWriteStream

variable {u u' : Upload} {key : Nat × Nat} {e : Event}

/-- The index check is pending, or it is over and the stream is in one of its phases. -/
def Sound (key : Nat × Nat) (u : Upload) : Prop := u.stream.Pending key u.written ∨ u.stream.Running key u.written

theorem new_sound {id size : Nat} (hsize : 0 < size) (checkedIndexes : Bool) :
    Sound (id, size) (Upload.new id size checkedIndexes) := by
  have hfresh := new_writing id hsize checkedIndexes
  cases checkedIndexes with
  | true => exact .inr (.writing hfresh rfl)
  | false => exact .inl ⟨hfresh, rfl, rfl, [], [], rfl, .inl ⟨rfl, rfl, rfl⟩⟩

/-- Where an insert is there to be answered the index check is over. -/
theorem Sound.running (h : u.Sound key) {i : Nat} {insert : ChunkInsert} (hi : u.stream.chunks[i]? = some insert) :
    u.stream.Running key u.written := by
  rcases h with h | h
  · rw [h.chunks] at hi
    cases hi
  · exact h

theorem step_sound (h : u.Sound key) (hstep : u.step e = some u') : u'.Sound key := by
  cases e with
  | call c =>
    rcases h with h | h
    · exact .inl (call_pending h hstep)
    · exact .inr (call_running h hstep)
  | index =>
    simp only [step] at hstep
    split at hstep
    case isTrue => cases hstep
    case isFalse hpending =>
      cases hstep
      rcases h with h | h
      · exact .inr h.emitIndex
      · exact absurd h.checkedIndexes hpending
  | acknowledge i onDrain =>
    simp only [step] at hstep
    split at hstep
    case h_1 => cases hstep
    case h_2 insert hi =>
      split at hstep
      case isTrue hpending => exact .inr (acknowledge_running (h.running hi) hi hpending hstep)
      case isFalse => cases hstep
  | fail i =>
    simp only [step] at hstep
    split at hstep
    case h_1 => cases hstep
    case h_2 insert hi =>
      split at hstep
      case isTrue hpending =>
        cases hstep
        exact .inr ((h.running hi).fail hi hpending)
      case isFalse => cases hstep

end Upload

end MongoDriver.Gridfs
