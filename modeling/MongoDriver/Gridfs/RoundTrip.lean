/-
Files that are uploaded and downloaded again. Whatever way the bytes are split into writes and in whatever order the
inserts are answered, the documents of a finished upload are the bytes cut into chunks and one files document, and a
download gives the bytes back.
-/
import MongoDriver.Gridfs.Download
import MongoDriver.Gridfs.Settling

namespace MongoDriver.Gridfs

open Cmap (Buffer)
open GridFSBucketWriteStream

namespace Upload

variable {u : Upload} {key : Nat × Nat}

/-- At every moment the chunk documents are numbered from zero and hold the beginning of what was written. -/
theorem Sound.docs (h : u.Sound key) :
    u.stream.docs.map (·.n) = (List.range u.stream.docs.length).map Nat.cast ∧
      (u.stream.docs.map (·.data)).flatten <+: u.written := by
  have haccepting : u.stream.Accepting key u.written →
      u.stream.docs.map (·.n) = (List.range u.stream.docs.length).map Nat.cast ∧
        (u.stream.docs.map (·.data)).flatten <+: u.written := by
    intro h
    obtain ⟨full, buffered, hcut, -, hbytes⟩ := h.cutting.cut
    exact ⟨hcut.numbered, buffered, by rw [hcut.data, hbytes]⟩
  rcases h with h | h
  · have hdocs : u.stream.docs = [] := by rw [GridFSBucketWriteStream.docs, h.chunks, List.map_nil]
    rw [hdocs]
    exact ⟨rfl, List.nil_prefix⟩
  · cases h with
    | writing h _ => exact haccepting h.toAccepting
    | owing h => exact haccepting h.toAccepting
    | complete h =>
      refine ⟨h.stored.numbered, ?_⟩
      rw [h.stored.data]

theorem acknowledged_iff {stream : GridFSBucketWriteStream} (h : stream.Counted) :
    stream.outstandingRequests = 0 ↔ ∀ insert ∈ stream.chunks, insert.status = .acknowledged := by
  rw [h.total, Int.natCast_eq_zero, List.countP_eq_zero]
  simp [ChunkInsert.isOpen]

theorem Settled.createFilesDoc_eq {stream : GridFSBucketWriteStream} {bytes : Buffer} (h : stream.Settled key bytes) :
    stream.createFilesDoc = { id := key.1, length := bytes.length, chunkSize := key.2 } := by
  obtain rfl := h.key_eq
  rw [createFilesDoc, h.length]

/-- The files document is inserted at most once, and only when every chunk has been acknowledged. -/
theorem Sound.files (h : u.Sound key) :
    u.stream.files = [] ∨
      u.stream.files = [{ id := key.1, length := u.written.length, chunkSize := key.2 }] ∧
        ∀ insert ∈ u.stream.chunks, insert.status = .acknowledged := by
  rcases h with h | h
  · exact .inl h.fresh.files
  · cases h with
    | writing h _ => exact .inl h.files
    | owing h => exact .inl h.files
    | complete h =>
      rcases h.outcome with ⟨-, hfiles⟩ | ⟨-, hfiles, hzero⟩
      · exact .inl hfiles
      · refine .inr ⟨?_, (acknowledged_iff h.counted).1 hzero⟩
        rw [hfiles, Settled.createFilesDoc_eq h.toSettled]

/-- After `end`, and when everything has been answered, the upload is complete. -/
theorem Sound.complete (h : u.Sound key) (hend : u.stream.streamEnd = true) (hchecked : u.stream.checkedIndexes = true)
    (hacked : ∀ insert ∈ u.stream.chunks, insert.status = .acknowledged) :
    u.stream.Complete key u.written ∧ u.stream.done = true := by
  rcases h with h | h
  · cases hchecked.symm.trans h.checkedIndexes
  · cases h with
    | writing h hopen => cases hend.symm.trans hopen
    | owing h =>
      obtain ⟨w, c, hc, hpos, -⟩ := h.owner
      have hzero := (acknowledged_iff h.counted).2 hacked
      have hle := h.counted.scope_le hc
      omega
    | complete h => exact ⟨h, h.noticed ((acknowledged_iff h.counted).2 hacked)⟩

theorem Sound.counted (h : u.Sound key) : u.stream.Counted := by
  rcases h with h | h
  · exact ⟨h.fresh.counted.total, h.fresh.counted.scope, h.fresh.counted.origin, h.fresh.counted.errored⟩
  · cases h with
    | writing h _ => exact h.counted
    | owing h => exact h.counted
    | complete h => exact h.counted

/-- A pending insert can be acknowledged. -/
theorem Sound.acknowledge (h : u.Sound key) {i : Nat} {insert : ChunkInsert} (hi : u.stream.chunks[i]? = some insert)
    (hpending : insert.status = .pending) : ∃ u', u.step (.acknowledge i []) = some u' := by
  simp only [step, hi, if_pos hpending, Upload.acknowledge]
  cases horigin : insert.origin with
  | writeRemnant => exact ⟨_, rfl⟩
  | doWrite w =>
    have hlt := h.counted.origin insert (List.mem_of_getElem? hi) w horigin
    have hlt' : w < (u.stream.scopes.modify w fun s =>
        { s with outstandingRequests := s.outstandingRequests - 1 }).length := by rwa [List.length_modify]
    simp only [setStatus, List.getElem?_eq_getElem hlt']
    split
    · exact ⟨_, rfl⟩
    · exact ⟨_, rfl⟩

/-- In every run of an upload: the chunk documents are numbered from zero and hold the beginning of what was written; a
pending insert can be acknowledged; there is at most one files document, with the length of the whole, and it is there
only when every chunk insert has been acknowledged. After `end`, when the index check is over and every insert has been
acknowledged, the chunks are stored with all but the last of the full size and the last not empty, the files document
is there, and a default download of them, found in any order among other files' chunks, delivers what was written. -/
theorem upload_then_download {id size : Nat} (hsize : 0 < size) {checkedIndexes : Bool} {events : List Event}
    (hrun : Run.exec step (Upload.new id size checkedIndexes) events = some u) :
    (u.stream.docs.map (·.n) = (List.range u.stream.docs.length).map Nat.cast ∧
      (u.stream.docs.map (·.data)).flatten <+: u.written) ∧
    (∀ (i : Nat) (insert : ChunkInsert), u.stream.chunks[i]? = some insert → insert.status = .pending →
      ∃ u', u.step (.acknowledge i []) = some u') ∧
    (u.stream.files = [] ∨ u.stream.files = [{ id, length := u.written.length, chunkSize := size }] ∧
      ∀ insert ∈ u.stream.chunks, insert.status = .acknowledged) ∧
    (u.stream.streamEnd = true → u.stream.checkedIndexes = true →
      (∀ insert ∈ u.stream.chunks, insert.status = .acknowledged) →
      Stored size id u.stream.docs u.written ∧
      u.stream.files = [{ id, length := u.written.length, chunkSize := size }] ∧
      ∀ (promoteBuffers : Bool) (identifier : String) (collection : List GridFSChunk),
        (collection.filter fun d => d.files_id = id).Perm u.stream.docs →
        ∀ file ∈ u.stream.files, Delivers (download {} promoteBuffers identifier (some file)
          collection) u.written) := by
  have hsound : u.Sound (id, size) :=
    Run.exec_inv step (fun _ _ _ h hstep => step_sound h hstep) (new_sound hsize checkedIndexes) hrun
  refine ⟨hsound.docs, fun i insert hi hpending => hsound.acknowledge hi hpending, hsound.files, ?_⟩
  intro hend hchecked hacked
  obtain ⟨hcomplete, hdone⟩ := hsound.complete hend hchecked hacked
  have hkey := hcomplete.key_eq
  have hstored : Stored size id u.stream.docs u.written := by
    have hstored := hcomplete.stored
    rwa [(Prod.mk.inj hkey).1, (Prod.mk.inj hkey).2] at hstored
  have hfiles : u.stream.files = [{ id, length := u.written.length, chunkSize := size }] := by
    rcases hcomplete.outcome with ⟨hnot, -⟩ | ⟨-, hfiles, -⟩
    · cases hdone.symm.trans hnot
    · rw [hfiles, Settled.createFilesDoc_eq hcomplete.toSettled]
  refine ⟨hstored, hfiles, fun promoteBuffers identifier collection hcollection file hfile => ?_⟩
  rw [hfiles, List.mem_singleton] at hfile
  rw [hfile]
  exact delivers_stored hsize hstored hcollection promoteBuffers identifier

/-- Two writes before the index check is over, `end` with a last chunk that fills the third chunk and leaves a rest, and
acknowledgements from the last insert to the first. -/
private def thirteenBytes : List Event :=
  [.call (.write [1, 2, 3]), .call (.write [4, 5, 6, 7, 8, 9]), .index, .call (.endWith (some [10, 11, 12, 13])),
    .acknowledge 2 [], .acknowledge 3 [], .acknowledge 1 [], .acknowledge 0 []]

theorem thirteenBytes_stored :
    ∃ u, Run.exec step (Upload.new 7 4 false) thirteenBytes = some u ∧
      u.written = [1, 2, 3, 4, 5, 6, 7, 8, 9, 10, 11, 12, 13] ∧
      Stored 4 7 u.stream.docs u.written ∧
      u.stream.files = [{ id := 7, length := u.written.length, chunkSize := 4 }] ∧
      Delivers (download {} false "7" u.stream.files.head? u.stream.docs.reverse) u.written := by
  refine ⟨_, rfl, rfl, ?_⟩
  have hfinal := (upload_then_download (show 0 < 4 by decide)
    (show Run.exec step (Upload.new 7 4 false) thirteenBytes = some _ from rfl)).2.2.2 rfl rfl (by decide)
  refine ⟨hfinal.1, hfinal.2.1, hfinal.2.2 false "7" _ ?_ _ (List.mem_singleton_self _)⟩
  decide

end Upload

end MongoDriver.Gridfs
