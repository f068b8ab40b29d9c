/-
What a download with the default options makes of damaged files (`src/gridfs/download.ts`): any files document, and any
chunks. Each chunk that arrives is checked against the number and the length that it should have, so that a chunk that
is missing before another, one too many or one of the wrong length ends in an error; but nothing arrives for the chunks
that are missing at the end, and the stream ends there as if the file were complete.
-/
import MongoDriver.Gridfs.RangeReads

namespace MongoDriver.Gridfs

open Cmap (Buffer)

/-- The number of chunks of a file. -/
def GridFSFile.chunkCount (file : GridFSFile) : Nat := (ceilDiv file.length file.chunkSize).toNat

/-- What is found are the first chunks of the file, each as it should be, and not all of them. -/
def StopsShort (file : GridFSFile) (found : List GridFSChunk) : Prop :=
  found.length < file.chunkCount ∧
    ∀ (i : Nat) (d : GridFSChunk), found[i]? = some d → d.n = i ∧ d.data.length = file.chunkSize

/-- The stream emits an error, or what it delivers are the chunks of the file and as long as the file. -/
def Integral (file : GridFSFile) (found : List GridFSChunk) (emissions : List Emission) : Prop :=
  (∃ e, Emission.error e ∈ emissions) ∨
    (found.take file.chunkCount).map (·.n) = (List.range file.chunkCount).map Nat.cast ∧
      (((found.take file.chunkCount).map (·.data)).flatten).length = file.length ∧
      Delivers emissions ((found.take file.chunkCount).map (·.data)).flatten

section

variable {file : GridFSFile} {done rest : List GridFSChunk} {d : GridFSChunk} (hfile : 0 ≤ file.length)
  (hsize : 0 < file.chunkSize)

include hfile hsize

/-- A file has as many chunks as it takes to hold it. -/
theorem GridFSFile.chunkCount_spec :
    file.length.toNat ≤ file.chunkCount * file.chunkSize ∧
      file.chunkCount * file.chunkSize < file.length.toNat + file.chunkSize := by
  obtain ⟨k, hk, hle, hlt⟩ := ceilDiv_spec file.length.toNat hsize
  have hcount : file.chunkCount = k := by
    unfold GridFSFile.chunkCount
    rw [← Int.toNat_of_nonneg hfile, hk]
    rfl
  rw [hcount]
  exact ⟨hle, hlt⟩

theorem GridFSFile.lt_chunkCount_iff (i : Nat) :
    i < file.chunkCount ↔ i * file.chunkSize < file.length.toNat := by
  obtain ⟨hle, hlt⟩ := chunkCount_spec hfile hsize
  constructor
  · intro hi
    have hmul : (i + 1) * file.chunkSize ≤ file.chunkCount * file.chunkSize := Nat.mul_le_mul_right _ hi
    have hsucc : (i + 1) * file.chunkSize = i * file.chunkSize + file.chunkSize := Nat.succ_mul _ _
    omega
  · intro hi
    by_contra hge
    have hmul : file.chunkCount * file.chunkSize ≤ i * file.chunkSize := Nat.mul_le_mul_right _ (by omega)
    omega

/-- The chunks that were passed on: numbered from zero, and each of the length that it should have. -/
structure Passed (file : GridFSFile) (done : List GridFSChunk) : Prop where
  count : done.length ≤ file.chunkCount
  numbered : ∀ (i : Nat) (d : GridFSChunk), done[i]? = some d → d.n = i
  full : ∀ (i : Nat) (d : GridFSChunk), done[i]? = some d → i + 1 < file.chunkCount → d.data.length = file.chunkSize
  length : ((done.map (·.data)).flatten).length = min (done.length * file.chunkSize) file.length.toNat

/-- The state of the stream after them. -/
def passedState (file : GridFSFile) (done : List GridFSChunk) : ReadState where
  bytesRead := (min (done.length * file.chunkSize) file.length.toNat : Nat)
  expected := done.length

omit hfile hsize in
theorem numbered_range : ∀ {docs : List GridFSChunk}, (∀ (i : Nat) (d : GridFSChunk), docs[i]? = some d → d.n = i) →
    docs.map (·.n) = (List.range docs.length).map Nat.cast := by
  intro docs h
  refine List.ext_getElem (by simp) fun i h₁ h₂ => ?_
  rw [List.getElem_map, List.getElem_map, List.getElem_range]
  exact h i _ (List.getElem?_eq_getElem _)

omit hfile hsize in
theorem getElem?_snoc (done rest : List GridFSChunk) (d : GridFSChunk) :
    (done ++ d :: rest)[done.length]? = some d := by
  rw [List.getElem?_append_right (Nat.le_refl _), Nat.sub_self]
  rfl

/-- What is passed on is numbered and complete when there is as much as the file has chunks. -/
theorem Passed.integral (h : Passed file done) (hcount : done.length = file.chunkCount) {emissions : List Emission}
    (hdelivers : Delivers emissions (done.map (·.data)).flatten) :
    Integral file (done ++ rest) emissions := by
  have htake : (done ++ rest).take file.chunkCount = done := by
    rw [← hcount, List.take_append_of_le_length (Nat.le_refl _), List.take_length]
  have hle := (GridFSFile.chunkCount_spec hfile hsize).1
  refine .inr ⟨?_, ?_, ?_⟩
  · rw [htake, numbered_range h.numbered, hcount]
  · rw [htake, h.length, hcount, Nat.min_eq_right hle, Int.toNat_of_nonneg hfile]
  · rwa [htake]

/-- The next chunk is passed on. -/
theorem Passed.snoc (h : Passed file done) (hn : d.n = done.length) (hcount : done.length < file.chunkCount)
    (hlength : d.data.length = min file.chunkSize (file.length.toNat - done.length * file.chunkSize)) :
    Passed file (done ++ [d]) := by
  have hbegin := (GridFSFile.lt_chunkCount_iff hfile hsize done.length).1 hcount
  have hlast : ∀ {i : Nat} {e : GridFSChunk}, (done ++ [d])[i]? = some e → done[i]? = some e ∨ i = done.length ∧ e = d := by
    intro i e he
    by_cases hi : i < done.length
    · rw [List.getElem?_append_left hi] at he
      exact .inl he
    · rw [List.getElem?_append_right (by omega), List.getElem?_singleton] at he
      split at he
      · exact .inr ⟨by omega, (Option.some.inj he).symm⟩
      · cases he
  constructor
  · rw [List.length_append]
    exact hcount
  · intro i e he
    rcases hlast he with he | ⟨rfl, rfl⟩
    · exact h.numbered i e he
    · exact hn
  · intro i e he hi
    rcases hlast he with he | ⟨rfl, rfl⟩
    · exact h.full i e he hi
    · have hnext := (GridFSFile.lt_chunkCount_iff hfile hsize (done.length + 1)).1 hi
      have hsucc : (done.length + 1) * file.chunkSize = done.length * file.chunkSize + file.chunkSize := Nat.succ_mul _ _
      omega
  · have hsucc : (done.length + 1) * file.chunkSize = done.length * file.chunkSize + file.chunkSize := Nat.succ_mul _ _
    rw [List.map_append, List.flatten_append, List.length_append, h.length, List.length_append, List.length_singleton,
      hsucc, List.map_singleton, List.flatten_singleton, hlength]
    omega

/-- Every chunk of a list that stops short has the right number and is full. -/
theorem StopsShort.next (h : StopsShort file (done ++ d :: rest)) :
    d.n = done.length ∧ d.data.length = min file.chunkSize (file.length.toNat - done.length * file.chunkSize) := by
  obtain ⟨hlt, hall⟩ := h
  obtain ⟨hn, hlen⟩ := hall done.length d (getElem?_snoc done rest d)
  rw [List.length_append, List.length_cons] at hlt
  have hnext := (GridFSFile.lt_chunkCount_iff hfile hsize (done.length + 1)).1 (by omega)
  have hsucc : (done.length + 1) * file.chunkSize = done.length * file.chunkSize + file.chunkSize := Nat.succ_mul _ _
  exact ⟨hn, by omega⟩

omit hsize in
/-- A chunk of another number or length is an error. -/
theorem doRead_wrong (promoteBuffers : Bool) (hwrong : ¬ (d.n = done.length ∧
      d.data.length = min file.chunkSize (file.length.toNat - done.length * file.chunkSize))) :
    ∃ s e, doRead file {} promoteBuffers (passedState file done) d = (s, .error e) := by
  unfold doRead passedState
  by_cases hgt : d.n > done.length
  · exact ⟨_, _, by simp only [if_pos hgt]; rfl⟩
  by_cases hlt : d.n < done.length
  · exact ⟨_, _, by simp only [if_neg hgt, if_pos hlt]; rfl⟩
  have hlength : (d.data.length : Int) ≠
      min (file.chunkSize : Int) (file.length - (min (done.length * file.chunkSize) file.length.toNat : Nat)) := by
    intro heq
    exact hwrong ⟨by omega, by omega⟩
  by_cases hrest : file.length - (min (done.length * file.chunkSize) file.length.toNat : Nat) ≤ 0
  · exact ⟨_, _, by simp only [if_neg hgt, if_neg hlt, if_pos hlength, if_pos hrest]; rfl⟩
  · exact ⟨_, _, by simp only [if_neg hgt, if_neg hlt, if_pos hlength, if_neg hrest]; rfl⟩

/-- The chunks that are still to be read, after some that were passed on. -/
theorem reads_integral_iff (promoteBuffers : Bool) :
    ∀ (rest : List GridFSChunk) {done : List GridFSChunk}, Passed file done →
    (Integral file (done ++ rest) (done.map (Emission.data ·.data) ++
        reads file {} promoteBuffers (passedState file done) (rest.map .ok)) ↔ ¬ StopsShort file (done ++ rest))
  | [], done, h => by
    have hemissions : Delivers (done.map (Emission.data ·.data) ++ [.ended, .close]) (done.map (·.data)).flatten :=
      ⟨done.map (·.data), [.ended, .close], by rw [List.map_map]; rfl, rfl, .inr rfl⟩
    rw [List.map_nil, reads]
    by_cases hcount : done.length = file.chunkCount
    · refine iff_of_true (h.integral hfile hsize hcount hemissions) fun hshort => ?_
      have hlt := hshort.1
      rw [List.append_nil] at hlt
      omega
    · -- the file has more chunks, and the stream ends
      have hlt := Nat.lt_of_le_of_ne h.count hcount
      rw [List.append_nil]
      refine iff_of_false ?_ fun hnot => hnot ⟨hlt, fun i d hd => ⟨h.numbered i d hd, h.full i d hd ?_⟩⟩
      · rintro (⟨e, he⟩ | ⟨hn, -, -⟩)
        · exact not_delivers_error he hemissions
        · have hlen := congrArg List.length hn
          rw [List.length_map, List.length_take, List.length_map, List.length_range] at hlen
          omega
      · have hi := (List.getElem?_eq_some_iff.1 hd).1
        omega
  | d :: rest, done, h => by
    rw [List.map_cons, reads]
    by_cases hright : d.n = done.length ∧
        d.data.length = min file.chunkSize (file.length.toNat - done.length * file.chunkSize)
    swap
    · obtain ⟨s, e, hread⟩ := doRead_wrong hfile promoteBuffers hright
      rw [hread]
      refine iff_of_true (.inl ⟨e, ?_⟩) fun hshort => hright (hshort.next hfile hsize)
      exact List.mem_append_right _ (List.mem_singleton_self _)
    obtain ⟨hn, hlength⟩ := hright
    have hexpect : (d.data.length : Int) =
        min (file.chunkSize : Int) (file.length - (passedState file done).bytesRead) := by
      simp only [passedState]
      omega
    by_cases hzero : d.data.length = 0
    · -- one empty chunk more than there should be
      have hcount : done.length = file.chunkCount := by
        by_contra hne
        have hlt := Nat.lt_of_le_of_ne h.count hne
        have hbegin := (GridFSFile.lt_chunkCount_iff hfile hsize done.length).1 hlt
        omega
      have hread : (doRead file {} promoteBuffers (passedState file done) d).2 = .ended := by
        have hnum : d.n = (passedState file done).expected := hn
        unfold doRead
        simp only [hnum, gt_iff_lt, Int.lt_irrefl, if_false, ← hexpect, ne_eq, not_true_eq_false, hzero, if_true]
      rcases hd : doRead file {} promoteBuffers (passedState file done) d with ⟨s, emission⟩
      obtain rfl : emission = .ended := by rw [← hread, hd]
      dsimp only
      refine iff_of_true (h.integral hfile hsize hcount ?_) fun hshort => ?_
      · exact ⟨done.map (·.data), [.ended], by rw [List.map_map]; rfl, rfl, .inl rfl⟩
      · have hlt := hshort.1
        rw [List.length_append, List.length_cons] at hlt
        omega
    · have hcount : done.length < file.chunkCount := by
        refine (GridFSFile.lt_chunkCount_iff hfile hsize done.length).2 ?_
        omega
      have hbegin := (GridFSFile.lt_chunkCount_iff hfile hsize done.length).1 hcount
      have hsucc : (done.length + 1) * file.chunkSize = done.length * file.chunkSize + file.chunkSize := Nat.succ_mul _ _
      have hstate : ({ passedState file done with
            expected := (passedState file done).expected + 1
            bytesRead := (passedState file done).bytesRead + d.data.length } : ReadState) =
          passedState file (done ++ [d]) := by
        simp only [passedState, List.length_append, List.length_singleton, ReadState.mk.injEq, and_true, true_and]
        refine ⟨?_, rfl⟩
        rw [hsucc]
        omega
      have hrest := reads_integral_iff promoteBuffers rest (h.snoc hfile hsize hn hcount hlength)
      rw [doRead_default hn hexpect (by omega) rfl rfl (Int.natCast_nonneg _), hstate]
      rw [List.append_assoc, List.singleton_append, List.map_append, List.append_assoc] at hrest
      exact hrest

end

/-- For every files document and all chunks: a download with the default options ends in an error or delivers the file as
its chunks hold it, exactly when the file has no negative length and what is found does not stop short. -/
theorem download_integral_iff (file : GridFSFile) (hsize : 0 < file.chunkSize) (promoteBuffers : Bool)
    (identifier : String) (chunks : List GridFSChunk) :
    Integral file (findChunks chunks file.id 0 0) (download {} promoteBuffers identifier (some file) chunks) ↔
      0 ≤ file.length ∧ ¬ StopsShort file (findChunks chunks file.id 0 0) := by
  by_cases hlength : file.length ≤ 0
  · have hempty : download {} promoteBuffers identifier (some file) chunks = [.ended] := by
      unfold download
      simp only [if_pos hlength]
    rw [hempty]
    by_cases hzero : file.length = 0
    · have hcount : file.chunkCount = 0 := by
        simp [GridFSFile.chunkCount, ceilDiv, hzero]
      refine iff_of_true (.inr ?_) ⟨hzero.ge, fun hshort => ?_⟩
      · rw [hcount, List.take_zero]
        exact ⟨rfl, hzero.symm, [], [.ended], rfl, rfl, .inl rfl⟩
      · rw [StopsShort, hcount] at hshort
        exact absurd hshort.1 (Nat.not_lt_zero _)
    · -- nothing is as long as a negative length
      refine iff_of_false ?_ fun hnonneg => hzero (Int.le_antisymm hlength hnonneg.1)
      rintro (⟨e, he⟩ | ⟨-, hlong, -⟩)
      · simp at he
      · omega
  · have hfile : 0 ≤ file.length := Int.le_of_lt (Int.not_le.1 hlength)
    have hskip : floorDiv (({} : ReadOptions).start.getD 0) file.chunkSize = 0 := Int.zero_ediv _
    have hnone : Passed file [] :=
      ⟨Nat.zero_le _, fun i d hd => (by cases hd), fun i d hd => (by cases hd), by simp⟩
    have hstate : passedState file [] = { bytesRead := 0, expected := 0 } := by
      simp [passedState]
    have hiff := reads_integral_iff hfile hsize promoteBuffers (findChunks chunks file.id 0 0) hnone
    rw [List.nil_append, List.map_nil, List.nil_append, hstate] at hiff
    unfold download
    simp only [if_neg hlength, handleStartOption_default hfile, handleEndOption_default hfile, hskip]
    rw [and_iff_right hfile]
    exact hiff

theorem download_integral_iff_missing :
    Integral { id := 7, length := 3, chunkSize := 2 }
        (findChunks [{ files_id := 7, n := 1, data := [3] }] 7 0 0)
        (download {} false "7" (some { id := 7, length := 3, chunkSize := 2 })
          [{ files_id := 7, n := 1, data := [3] }]) ↔
      (0 : Int) ≤ 3 ∧
        ¬ StopsShort { id := 7, length := 3, chunkSize := 2 } (findChunks [{ files_id := 7, n := 1, data := [3] }] 7 0 0) :=
  download_integral_iff { id := 7, length := 3, chunkSize := 2 } (by decide) false "7" _

/-- The last chunk is missing, and the stream ends with two bytes of three. -/
theorem missing_tail_ends :
    download {} false "7" (some { id := 7, length := 3, chunkSize := 2 }) [{ files_id := 7, n := 0, data := [1, 2] }] =
        [.data [1, 2], .ended, .close] ∧
      ¬ Integral { id := 7, length := 3, chunkSize := 2 }
        (findChunks [{ files_id := 7, n := 0, data := [1, 2] }] 7 0 0) [.data [1, 2], .ended, .close] := by
  refine ⟨by decide, ?_⟩
  rintro (⟨e, he⟩ | ⟨hn, -, -⟩)
  · simp at he
  · exact absurd hn (by decide)

end MongoDriver.Gridfs
