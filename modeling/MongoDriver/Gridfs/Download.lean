/-
The download stream of GridFS (`src/gridfs/download.ts`): the file document is looked up, the chunks are read in the
order of their numbers, and each is checked against what the file document says before it is passed on.
-/
import MongoDriver.Gridfs.Chunking
import Mathlib.Data.List.Sort

namespace MongoDriver.Gridfs

open Cmap (Buffer)

/-- The options of a download, `none` for a `null` or `undefined`. A stream is constructed with both at zero. -/
structure ReadOptions where
  start : Option Int := some 0
  stop : Option Int := some 0

/-- The part of `stream.s` that the reads use. -/
structure ReadState where
  bytesRead : Int := 0
  bytesToTrim : Int := 0
  bytesToSkip : Int := 0
  expected : Int := 0
  expectedEnd : Int := 0

/-- What the stream emits; `ended` is the end of the data, pushed as `null`. -/
inductive Emission
  | data (buf : Buffer)
  | ended
  | error (e : AnyError)
  | close
deriving DecidableEq

/-- The stream emits the bytes and ends, with or without closing a cursor. -/
def Delivers (emissions : List Emission) (bytes : Buffer) : Prop :=
  ∃ (bufs : List Buffer) (rest : List Emission), emissions = bufs.map Emission.data ++ rest ∧ bufs.flatten = bytes ∧
    (rest = [.ended] ∨ rest = [.ended, .close])

/-! ## Numbers -/

/-- `Math.floor(a / b)`. -/
def floorDiv (a : Int) (b : Nat) : Int := a / b

/-- `Math.ceil(a / b)`. -/
def ceilDiv (a : Int) (b : Nat) : Int := -(-a / b)

/-- `buf.slice(start, end)`: an index below zero counts from the end. -/
def slice (buf : Buffer) (start stop : Int) : Buffer :=
  let index (k : Int) : Nat := if k < 0 then (buf.length + k).toNat else k.toNat
  (buf.take (index stop)).drop (index start)

/-! ## Options -/

def invalidArgument (message : String) : AnyError := { cls := .mongoInvalidArgumentError, message }

def handleStartOption (file : GridFSFile) (options : ReadOptions) (s : ReadState) : Except AnyError ReadState :=
  match options.start with
  | none => .error (invalidArgument "Start option must be defined")
  | some start =>
    if start > file.length then
      .error (invalidArgument s!"Stream start ({start}) must not be more than the length of the file ({file.length})")
    else if start < 0 then .error (invalidArgument s!"Stream start ({start}) must not be negative")
    else if options.stop.any (· < start) then
      .error (invalidArgument s!"Stream start ({start}) must not be greater than stream end ({options.stop.getD 0})")
    else
      let bytesRead := floorDiv start file.chunkSize * file.chunkSize
      .ok { s with bytesRead, expected := floorDiv start file.chunkSize, bytesToSkip := start - bytesRead }

/-- The limit of the cursor, and the state. -/
def handleEndOption (file : GridFSFile) (options : ReadOptions) (s : ReadState) : Except AnyError (Int × ReadState) :=
  match options.stop with
  | none => .error (invalidArgument "End option must be defined")
  | some stop =>
    if stop > file.length then
      .error (invalidArgument s!"Stream end ({stop}) must not be more than the length of the file ({file.length})")
    else
      match options.start with
      | none => .error (invalidArgument s!"Stream end ({stop}) must not be negative")
      | some start =>
        if start < 0 then .error (invalidArgument s!"Stream end ({stop}) must not be negative")
        else
          .ok (ceilDiv stop file.chunkSize - floorDiv start file.chunkSize,
            { s with
              expectedEnd := ceilDiv stop file.chunkSize
              bytesToTrim := ceilDiv stop file.chunkSize * file.chunkSize - stop })

/-! ## Reading -/

def chunkError (message : String) : AnyError := { cls := .mongoRuntimeError, message }

/-- What `doRead` does with a chunk that the cursor returned. `promoteBuffers` says whether its data came as a
`Buffer`; a `Binary` has no `byteLength`. -/
def doRead (file : GridFSFile) (options : ReadOptions) (promoteBuffers : Bool) (s : ReadState) (doc : GridFSChunk) :
    ReadState × Emission :=
  let bytesRemaining : Int := file.length - s.bytesRead
  let expectedN := s.expected
  let s := { s with expected := expectedN + 1 }
  let expectedLength := min (file.chunkSize : Int) bytesRemaining
  if doc.n > expectedN then
    (s, .error (chunkError s!"ChunkIsMissing: Got unexpected n: {doc.n}, expected: {expectedN}"))
  else if doc.n < expectedN then
    (s, .error (chunkError s!"ExtraChunk: Got unexpected n: {doc.n}, expected: {expectedN}"))
  else
    let buf := doc.data
    if buf.length ≠ expectedLength then
      if bytesRemaining ≤ 0 then
        (s, .error (chunkError (s!"ExtraChunk: Got unexpected n: {doc.n}, expected file length {file.length} bytes " ++
          s!"but already read {s.bytesRead} bytes")))
      else
        (s, .error (chunkError
          s!"ChunkIsWrongSize: Got unexpected length: {buf.length}, expected: {expectedLength}"))
    else
      let s := { s with bytesRead := s.bytesRead + buf.length }
      if buf.length = 0 then (s, .ended)
      else
        let sliceStart := s.bytesToSkip
        let s := { s with bytesToSkip := 0 }
        let atEndOfStream := expectedN = s.expectedEnd - 1
        let stop := options.stop.getD 0
        let bytesLeftToRead := stop - s.bytesToSkip
        let sliceEnd : Option Int :=
          if atEndOfStream then some (file.chunkSize - s.bytesToTrim)
          else if stop ≠ 0 ∧ promoteBuffers ∧ bytesLeftToRead < buf.length then some bytesLeftToRead
          else none
        let sliceEnd := if sliceEnd.getD 0 = 0 then (buf.length : Int) else sliceEnd.getD 0
        (s, .data (slice buf sliceStart sliceEnd))

/-- The reads of a stream, one for each answer of its cursor, until the data ends or an error is emitted. -/
def reads (file : GridFSFile) (options : ReadOptions) (promoteBuffers : Bool) :
    ReadState → List (Except AnyError GridFSChunk) → List Emission
  | _, [] => [.ended, .close]
  | _, .error e :: _ => [.error e]
  | s, .ok doc :: rest =>
    match doRead file options promoteBuffers s doc with
    | (s, .data buf) => .data buf :: reads file options promoteBuffers s rest
    | (_, emission) => [emission]

/-- `chunks.find({ files_id, n: { $gte: skip } }).sort({ n: 1 }).limit(limit)`. A limit of zero is none, and the sign
of a limit says nothing about which documents are returned. -/
def findChunks (chunks : List GridFSChunk) (files_id : Nat) (skip limit : Int) : List GridFSChunk :=
  let found := (chunks.filter fun d => d.files_id = files_id ∧ (0 < skip → skip ≤ d.n)).insertionSort (·.n ≤ ·.n)
  if limit = 0 then found else found.take limit.natAbs

/-- `init` and the reads that follow it, over the file document found for `identifier` (if any) and the chunks
collection. -/
def download (options : ReadOptions) (promoteBuffers : Bool) (identifier : String) (file : Option GridFSFile)
    (chunks : List GridFSChunk) : List Emission :=
  match file with
  | none => [.error { cls := .mongoRuntimeError, message := "FileNotFound: file " ++ identifier ++ " was not found" }]
  | some file =>
    -- if document is empty, kill the stream immediately and don't execute any reads
    if file.length ≤ 0 then [.ended]
    else
      match handleStartOption file options {} with
      | .error e => [.error e]
      | .ok s =>
        match handleEndOption file options { s with expectedEnd := ceilDiv file.length file.chunkSize } with
        | .error e => [.error e]
        | .ok (limit, s) =>
          let skip := floorDiv (options.start.getD 0) file.chunkSize
          reads file options promoteBuffers s ((findChunks chunks file.id skip limit).map .ok)

/-! ## The whole file -/

section

variable {size id : Nat} {docs collection : List GridFSChunk} {bytes : Buffer}

theorem slice_whole (buf : Buffer) : slice buf 0 buf.length = buf := by
  have hnonneg : ¬ (buf.length : Int) < 0 := by omega
  simp [slice, hnonneg]

/-- The next of the stored chunks is passed on as it is. -/
theorem doRead_default {file : GridFSFile} {promoteBuffers : Bool} {s : ReadState} {d : GridFSChunk}
    (hn : d.n = s.expected) (hlength : (d.data.length : Int) =
      min (file.chunkSize : Int) (file.length - s.bytesRead))
    (hpos : 0 < d.data.length) (hskip : s.bytesToSkip = 0) (hend : s.expectedEnd = 0) (hexpected : 0 ≤ s.expected) :
    doRead file {} promoteBuffers s d =
      ({ s with expected := s.expected + 1, bytesRead := s.bytesRead + d.data.length }, .data d.data) := by
  have hgt : ¬ d.n > s.expected := by omega
  have hlt : ¬ d.n < s.expected := by omega
  have hne : ¬ d.data.length = 0 := by omega
  have hstop : ¬ s.expected = s.expectedEnd - 1 := by omega
  unfold doRead
  simp only [hgt, hlt, if_false, ← hlength, ne_eq, not_true_eq_false, hne, hstop, Option.getD_some, false_and,
    Option.getD_none, if_true]
  rw [hskip, slice_whole, ← hskip]

/-- The chunks still to be read: numbered one after the other, all but the last of the full size, and as long as the
rest of the file. -/
structure Remaining (file : GridFSFile) (s : ReadState) (docs : List GridFSChunk) : Prop where
  skip : s.bytesToSkip = 0
  expectedEnd : s.expectedEnd = 0
  expected : 0 ≤ s.expected
  numbered : ∀ (i : Nat) (d : GridFSChunk), docs[i]? = some d → d.n = s.expected + i
  full : ∀ d ∈ docs.dropLast, d.data.length = file.chunkSize
  last : ∀ d ∈ docs.getLast?, 0 < d.data.length ∧ d.data.length ≤ file.chunkSize
  size : 0 < file.chunkSize
  total : s.bytesRead + ((docs.map (·.data)).flatten.length : Nat) = file.length

theorem Remaining.head {file : GridFSFile} {s : ReadState} {d : GridFSChunk} (h : Remaining file s (d :: docs)) :
    0 < d.data.length ∧ (d.data.length : Int) = min (file.chunkSize : Int) (file.length - s.bytesRead) := by
  have htotal := h.total
  have hsize := h.size
  simp only [List.map_cons, List.flatten_cons, List.length_append] at htotal
  cases docs with
  | nil =>
    have hlast := h.last d rfl
    simp only [List.map_nil, List.flatten_nil, List.length_nil] at htotal
    omega
  | cons d' docs =>
    have hfull : d.data.length = file.chunkSize := h.full d List.mem_cons_self
    omega

theorem Remaining.tail {file : GridFSFile} {s : ReadState} {d : GridFSChunk} (h : Remaining file s (d :: docs)) :
    Remaining file { s with expected := s.expected + 1, bytesRead := s.bytesRead + d.data.length } docs := by
  have hexpected := h.expected
  have htotal := h.total
  simp only [List.map_cons, List.flatten_cons, List.length_append] at htotal
  refine ⟨h.skip, h.expectedEnd, ?_, ?_, ?_, ?_, h.size, ?_⟩
  · dsimp only
    omega
  · intro i e he
    have hn := h.numbered (i + 1) e he
    dsimp only
    omega
  · intro e he
    cases docs with
    | nil => exact absurd he List.not_mem_nil
    | cons d' docs => exact h.full e (List.mem_cons_of_mem d he)
  · intro e he
    cases docs with
    | nil => cases he
    | cons d' docs => exact h.last e he
  · dsimp only
    omega

theorem Stored.n_eq (h : Stored size id docs bytes) {i : Nat} {d : GridFSChunk} (hd : docs[i]? = some d) : d.n = i := by
  have hlt := (List.getElem?_eq_some_iff.1 hd).1
  have hn : (docs.map (·.n))[i]? = some d.n := by rw [List.getElem?_map, hd, Option.map_some]
  rw [h.numbered, List.getElem?_map, List.getElem?_range hlt] at hn
  exact (Option.some.inj hn).symm

theorem Remaining.reads {file : GridFSFile} {promoteBuffers : Bool} :
    ∀ {docs : List GridFSChunk} {s : ReadState}, Remaining file s docs →
      reads file {} promoteBuffers s (docs.map .ok) = docs.map (Emission.data ·.data) ++ [.ended, .close]
  | [], _, _ => rfl
  | d :: docs, s, h => by
    obtain ⟨hpos, hlength⟩ := h.head
    have hn : d.n = s.expected := by simpa using h.numbered 0 d rfl
    rw [List.map_cons, Gridfs.reads, doRead_default hn hlength hpos h.skip h.expectedEnd h.expected]
    simp only [List.map_cons, List.cons_append, h.tail.reads]

/-- The documents with numbers from `k` on, when the first one has the number `j`. -/
theorem filter_numbered (k : Nat) : ∀ {docs : List GridFSChunk} {j : Nat},
    (∀ (i : Nat) (d : GridFSChunk), docs[i]? = some d → d.n = (j + i : Nat)) →
      docs.filter ((k : Int) ≤ ·.n) = docs.drop (k - j)
  | [], _, _ => by simp
  | d :: docs, j, h => by
    have hd : d.n = j := h 0 d rfl
    have htail : docs.filter ((k : Int) ≤ ·.n) = docs.drop (k - (j + 1)) := by
      refine filter_numbered k fun i e he => ?_
      have hn := h (i + 1) e he
      omega
    by_cases hk : k ≤ j
    · rw [List.filter_cons_of_pos (by simpa [hd] using hk), htail, Nat.sub_eq_zero_of_le hk,
        Nat.sub_eq_zero_of_le (Nat.le_succ_of_le hk), List.drop_zero, List.drop_zero]
    · rw [List.filter_cons_of_neg (by simpa [hd] using hk), htail, show k - j = k - (j + 1) + 1 by omega,
        List.drop_succ_cons]

/-- Documents that come in any order are found in the order of their numbers. -/
theorem findChunks_stored (h : Stored size id docs bytes)
    (hdocs : (collection.filter fun d => d.files_id = id).Perm docs) (k : Nat) (limit : Int) :
    findChunks collection id k limit = if limit = 0 then docs.drop k else (docs.drop k).take limit.natAbs := by
  have hfilter : (collection.filter fun d => d.files_id = id ∧ ((0 : Int) < k → (k : Int) ≤ d.n)) =
      (collection.filter fun d => d.files_id = id).filter fun d => (0 : Int) < k → (k : Int) ≤ d.n := by
    rw [List.filter_filter]
    refine List.filter_congr fun d _ => ?_
    rw [← Bool.decide_and]
    exact decide_eq_decide.2 and_comm
  have hdrop : docs.filter (fun d => (0 : Int) < k → (k : Int) ≤ d.n) = docs.drop (k - 0) := by
    have hnum : docs.filter (fun d => (0 : Int) < k → (k : Int) ≤ d.n) = docs.filter ((k : Int) ≤ ·.n) := by
      refine List.filter_congr fun d hd => decide_eq_decide.2 ?_
      obtain ⟨i, hi⟩ := List.mem_iff_getElem?.1 hd
      have hn := h.n_eq hi
      omega
    rw [hnum]
    refine filter_numbered k fun i d hd => ?_
    rw [h.n_eq hd, Nat.zero_add]
  have hsorted : docs.Pairwise (·.n < ·.n) := by
    rw [← List.pairwise_map (f := GridFSChunk.n) (R := (· < ·)), h.numbered]
    exact List.pairwise_map.2 (List.pairwise_lt_range.imp Int.ofNat_lt.2)
  have htotal : Std.Total fun a b : GridFSChunk => a.n ≤ b.n := ⟨fun a b => Int.le_total a.n b.n⟩
  have htrans : IsTrans GridFSChunk fun a b => a.n ≤ b.n := ⟨fun _ _ _ => Int.le_trans⟩
  have hperm := ((List.perm_insertionSort (fun a b : GridFSChunk => a.n ≤ b.n) _).trans
    (hdocs.filter fun d => (0 : Int) < k → (k : Int) ≤ d.n)).trans (.of_eq hdrop)
  have hfound : (((collection.filter fun d => d.files_id = id).filter fun d => (0 : Int) < k → (k : Int) ≤ d.n).insertionSort
      (·.n ≤ ·.n)) = docs.drop k := by
    refine List.Perm.eq_of_pairwise (fun a b ha hb hab hba => ?_) (List.pairwise_insertionSort _ _)
      ((hsorted.imp Int.le_of_lt).sublist (List.drop_sublist k docs)) hperm
    -- two different documents of the file have different numbers
    obtain ⟨i, hi⟩ := List.mem_iff_getElem?.1 (List.mem_of_mem_drop (hperm.subset ha))
    obtain ⟨j, hj⟩ := List.mem_iff_getElem?.1 (List.mem_of_mem_drop hb)
    have hai := h.n_eq hi
    have hbj := h.n_eq hj
    obtain rfl : i = j := by omega
    exact Option.some.inj (hi.symm.trans hj)
  unfold findChunks
  simp only [hfilter, hfound]

theorem findChunks_eq (h : Stored size id docs bytes)
    (hdocs : (collection.filter fun d => d.files_id = id).Perm docs) : findChunks collection id 0 0 = docs :=
  findChunks_stored h hdocs 0 0

theorem Stored.eq_nil_iff (h : Stored size id docs bytes) : docs = [] ↔ bytes = [] := by
  constructor
  · rintro rfl
    exact h.data.symm
  · intro hbytes
    by_contra hne
    have hlast := h.last (docs.getLast hne) (List.getLast?_eq_some_getLast hne)
    have hmem : (docs.getLast hne).data ∈ docs.map (·.data) := List.mem_map.2 ⟨_, List.getLast_mem hne, rfl⟩
    have hnil := List.flatten_eq_nil_iff.1 (h.data.trans hbytes) _ hmem
    rw [hnil] at hlast
    exact Nat.lt_irrefl 0 hlast.1

theorem handleStartOption_default {file : GridFSFile} (hfile : 0 ≤ file.length) (s : ReadState) :
    handleStartOption file {} s = .ok { s with bytesRead := 0, expected := 0, bytesToSkip := 0 } := by
  have hgt : ¬ (0 : Int) > file.length := by omega
  simp [handleStartOption, floorDiv, hgt]

theorem handleEndOption_default {file : GridFSFile} (hfile : 0 ≤ file.length) (s : ReadState) :
    handleEndOption file {} s = .ok (0, { s with expectedEnd := 0, bytesToTrim := 0 }) := by
  have hgt : ¬ (0 : Int) > file.length := by omega
  simp [handleEndOption, floorDiv, ceilDiv, hgt]

/-- A download with the default options passes on the chunks of a stored file. -/
theorem download_stored (hsize : 0 < size) (h : Stored size id docs bytes)
    (hdocs : (collection.filter fun d => d.files_id = id).Perm docs) (promoteBuffers : Bool) (identifier : String) :
    download {} promoteBuffers identifier (some { id, length := bytes.length, chunkSize := size }) collection =
      docs.map (Emission.data ·.data) ++ if bytes = [] then [.ended] else [.ended, .close] := by
  unfold download
  by_cases hbytes : bytes = []
  · rw [if_pos hbytes, h.eq_nil_iff.2 hbytes, hbytes]
    rfl
  · have hlength : ¬ (bytes.length : Int) ≤ 0 := fun hzero =>
      hbytes (List.eq_nil_of_length_eq_zero (by omega))
    have hfile : 0 ≤ ({ id, length := bytes.length, chunkSize := size } : GridFSFile).length := Int.natCast_nonneg _
    have hskip : floorDiv (({} : ReadOptions).start.getD 0) size = 0 := Int.zero_ediv _
    simp only [if_neg hlength, handleStartOption_default hfile, handleEndOption_default hfile, hskip, if_neg hbytes,
      findChunks_eq h hdocs]
    refine Remaining.reads ⟨rfl, rfl, Int.le_refl 0, fun i d hd => ?_, h.full, h.last, hsize, ?_⟩
    · rw [h.n_eq hd]
      exact (Int.zero_add _).symm
    · rw [h.data]
      exact Int.zero_add _

/-- So its data is that of the file, and it ends. -/
theorem delivers_stored (hsize : 0 < size) (h : Stored size id docs bytes)
    (hdocs : (collection.filter fun d => d.files_id = id).Perm docs) (promoteBuffers : Bool) (identifier : String) :
    Delivers (download {} promoteBuffers identifier (some { id, length := bytes.length, chunkSize := size }) collection)
      bytes := by
  rw [download_stored hsize h hdocs]
  refine ⟨docs.map (·.data), if bytes = [] then [.ended] else [.ended, .close], ?_, h.data, ?_⟩
  · rw [List.map_map]
    rfl
  · by_cases hbytes : bytes = []
    · exact .inl (if_pos hbytes)
    · exact .inr (if_neg hbytes)

end

end MongoDriver.Gridfs
