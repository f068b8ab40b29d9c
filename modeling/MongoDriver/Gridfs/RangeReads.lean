/-
Downloads of a part of a stored file (`src/gridfs/download.ts`). The chunks of the range are found by a filter on their
numbers and a limit of the cursor; the first is cut at its beginning and the last at its end. An end of zero is taken
for no end at all, and a limit of zero for no limit, so that some empty ranges are read to the end of the file, and a
start without an end is refused.
-/
import MongoDriver.Gridfs.Download

namespace MongoDriver.Gridfs

open Cmap (Buffer)

/-! ## Numbers and slices -/

/-- The number of chunks that `a` bytes are cut into. -/
theorem ceilDiv_spec (a : Nat) {size : Nat} (hsize : 0 < size) :
    ∃ k : Nat, ceilDiv a size = k ∧ a ≤ k * size ∧ k * size < a + size := by
  have hfloor := Nat.div_add_mod (a + size - 1) size
  have hmod := Nat.mod_lt (a + size - 1) hsize
  have hcomm := Nat.mul_comm size ((a + size - 1) / size)
  refine ⟨(a + size - 1) / size, ?_, by omega, by omega⟩
  have hdiv : -(a : Int) / size = -(((a + size - 1) / size : Nat) : Int) := by
    refine (Int.ediv_emod_unique (r := (((a + size - 1) / size * size : Nat) : Int) - a) (by omega)).2 ⟨?_, ?_, ?_⟩ |>.1
    · rw [Int.mul_neg, Int.natCast_mul, Int.mul_comm (size : Int)]
      omega
    · omega
    · omega
  unfold ceilDiv
  rw [hdiv, Int.neg_neg]

theorem floorDiv_eq (a size : Nat) : floorDiv a size = (a / size : Nat) := (Int.natCast_ediv a size).symm

theorem slice_eq (buf : Buffer) (a b : Nat) : slice buf a b = (buf.take b).drop a := by
  have ha : ¬ (a : Int) < 0 := by omega
  have hb : ¬ (b : Int) < 0 := by omega
  simp [slice, ha, hb]

/-- A part of a list, and the part after it. -/
theorem take_drop_append {α : Type} (l : List α) {a b c : Nat} (hab : a ≤ b) (hbc : b ≤ c) (hc : c ≤ l.length) :
    (l.take b).drop a ++ (l.take c).drop b = (l.take c).drop a := by
  have hsplit : l.take c = l.take b ++ (l.take c).drop b := by
    have htake : (l.take c).take b = l.take b := by rw [List.take_take, Nat.min_eq_left hbc]
    rw [← htake, List.take_append_drop]
  conv => rhs; rw [hsplit]
  rw [List.drop_append_of_le_length (by rw [List.length_take]; omega)]

/-- A part of a part. -/
theorem drop_take_drop {α : Type} (l : List α) {a size p stop : Nat} (hp : a ≤ p) (hstop : a ≤ stop)
    (hsize : stop ≤ a + size) :
    (((l.drop a).take size).take (stop - a)).drop (p - a) = (l.take stop).drop p := by
  rw [List.take_take, Nat.min_eq_left (by omega), List.take_drop, List.drop_drop, Nat.add_sub_cancel' hp,
    Nat.add_sub_cancel' hstop]

/-- The bytes that an emission passes on. -/
def Emission.bytes : Emission → Buffer
  | .data buf => buf
  | _ => []

/-- What a download delivers is determined. -/
theorem Delivers.bytes_eq {emissions : List Emission} {bytes : Buffer} (h : Delivers emissions bytes) :
    emissions.flatMap Emission.bytes = bytes := by
  obtain ⟨bufs, rest, rfl, rfl, hrest⟩ := h
  have hbufs : (bufs.map Emission.data).flatMap Emission.bytes = bufs.flatten := by
    rw [List.flatMap_map]
    exact List.flatMap_id'
  rw [List.flatMap_append, hbufs]
  rcases hrest with rfl | rfl <;> simp [Emission.bytes]

theorem not_delivers_error {emissions : List Emission} {bytes : Buffer} {e : AnyError} (he : .error e ∈ emissions) :
    ¬ Delivers emissions bytes := by
  rintro ⟨bufs, rest, rfl, -, hrest⟩
  rcases List.mem_append.1 he with hbuf | hend
  · obtain ⟨buf, -, hbuf⟩ := List.mem_map.1 hbuf
    cases hbuf
  · rcases hrest with rfl | rfl <;> simp at hend

/-! ## The chunks of a stored file -/

/-- The chunks from `i` on hold the bytes from the beginning of the chunk `i` on. -/
theorem flatten_drop {size : Nat} : ∀ (i : Nat) {docs : List GridFSChunk},
    (∀ d ∈ docs.dropLast, d.data.length = size) → (∀ d ∈ docs.getLast?, d.data.length ≤ size) →
      ((docs.drop i).map (·.data)).flatten = ((docs.map (·.data)).flatten).drop (i * size)
  | 0, docs, _, _ => by simp
  | i + 1, [], _, _ => by simp
  | i + 1, [d], _, hlast => by
    have hle : d.data.length ≤ size := hlast d rfl
    have hmul : size ≤ (i + 1) * size := Nat.le_mul_of_pos_left size (Nat.succ_pos i)
    simp only [List.drop_succ_cons, List.drop_nil, List.map_nil, List.flatten_nil, List.map_cons, List.flatten_cons,
      List.append_nil]
    exact (List.drop_eq_nil_of_le (by omega)).symm
  | i + 1, d :: d' :: docs, hfull, hlast => by
    have hd : d.data.length = size := hfull d List.mem_cons_self
    have hrest : (((d' :: docs).drop i).map (·.data)).flatten = (((d' :: docs).map (·.data)).flatten).drop (i * size) :=
      flatten_drop i (fun e he => hfull e (List.mem_cons_of_mem d he)) hlast
    have hgone : d.data.drop ((i + 1) * size) = [] :=
      List.drop_eq_nil_of_le (by rw [hd]; exact Nat.le_mul_of_pos_left size (Nat.succ_pos i))
    have hsplit : ((d :: d' :: docs).map (·.data)).flatten = d.data ++ ((d' :: docs).map (·.data)).flatten := by
      rw [List.map_cons, List.flatten_cons]
    rw [List.drop_succ_cons, hrest, hsplit, List.drop_append, hgone, List.nil_append, hd, Nat.succ_mul,
      Nat.add_sub_cancel]

section

variable {size id : Nat} {docs collection : List GridFSChunk} {bytes : Buffer}

theorem Stored.drop (h : Stored size id docs bytes) (i : Nat) :
    ((docs.drop i).map (·.data)).flatten = bytes.drop (i * size) := by
  rw [flatten_drop i h.full fun d hd => (h.last d hd).2, h.data]

theorem Stored.length_le (h : Stored size id docs bytes) : bytes.length ≤ docs.length * size := by
  have hnil := h.drop docs.length
  rw [List.drop_length] at hnil
  exact List.drop_eq_nil_iff.1 hnil.symm

theorem Stored.data_at (h : Stored size id docs bytes) {i : Nat} {d : GridFSChunk} (hd : docs[i]? = some d) :
    d.data = (bytes.drop (i * size)).take size ∧ 0 < d.data.length := by
  obtain ⟨hi, hget⟩ := List.getElem?_eq_some_iff.1 hd
  have hdrop := h.drop i
  rw [List.drop_eq_getElem_cons hi, hget, List.map_cons, List.flatten_cons] at hdrop
  rw [← hdrop]
  by_cases hlast : docs.drop (i + 1) = []
  · have hmem : d ∈ docs.getLast? := by
      have hlen : docs.length = i + 1 := by
        have hle := List.drop_eq_nil_iff.1 hlast
        omega
      rw [List.getLast?_eq_getElem?, hlen, Nat.add_sub_cancel, hd]
      rfl
    rw [hlast, List.map_nil, List.flatten_nil, List.append_nil, List.take_of_length_le (h.last d hmem).2]
    exact ⟨rfl, (h.last d hmem).1⟩
  · have hlt : i + 1 < docs.length := by
      by_contra hle
      exact hlast (List.drop_eq_nil_of_le (by omega))
    have hmem : d ∈ docs.dropLast := by
      refine List.mem_iff_getElem.2 ⟨i, by rw [List.length_dropLast]; omega, ?_⟩
      rw [List.getElem_dropLast, hget]
    have hfull := h.full d hmem
    have hlastpos := h.last (docs.getLast (List.ne_nil_of_length_pos (by omega)))
      (List.getLast?_eq_some_getLast _)
    refine ⟨by rw [List.take_append_of_le_length hfull.ge, List.take_of_length_le hfull.le], ?_⟩
    omega

/-- A chunk of the range is cut: at the beginning by what is to be skipped, and at the end when it is the last. -/
theorem doRead_range {file : GridFSFile} {options : ReadOptions} {promoteBuffers : Bool} {s : ReadState}
    {d : GridFSChunk} (sliceEnd : Nat) (hn : d.n = s.expected)
    (hlength : (d.data.length : Int) = min (file.chunkSize : Int) (file.length - s.bytesRead))
    (hpos : 0 < d.data.length)
    (hend : s.expected = s.expectedEnd - 1 → (file.chunkSize : Int) - s.bytesToTrim = sliceEnd ∧ 0 < sliceEnd)
    (hmid : s.expected ≠ s.expectedEnd - 1 → sliceEnd = d.data.length ∧
      (options.stop.getD 0 ≠ 0 → (d.data.length : Int) ≤ options.stop.getD 0)) :
    doRead file options promoteBuffers s d =
      ({ s with expected := s.expected + 1, bytesRead := s.bytesRead + d.data.length, bytesToSkip := 0 },
        .data (slice d.data s.bytesToSkip sliceEnd)) := by
  have hgt : ¬ d.n > s.expected := by omega
  have hlt : ¬ d.n < s.expected := by omega
  have hne : ¬ d.data.length = 0 := by omega
  unfold doRead
  simp only [hgt, hlt, if_false, ← hlength, ne_eq, not_true_eq_false, hne, Int.sub_zero]
  by_cases hstop : s.expected = s.expectedEnd - 1
  · obtain ⟨hcut, hcutpos⟩ := hend hstop
    have hnot : ¬ (sliceEnd : Int) = 0 := by omega
    simp only [if_pos hstop, hcut, Option.getD_some, if_neg hnot]
  · obtain ⟨hwhole, hle⟩ := hmid hstop
    have hnocut : ¬ (¬ options.stop.getD 0 = 0 ∧ promoteBuffers = true ∧ options.stop.getD 0 < d.data.length) := by
      rintro ⟨hgiven, -, hless⟩
      have hle' := hle hgiven
      omega
    simp only [if_neg hstop, if_neg hnocut, Option.getD_none, if_true, hwhole]

/-- The chunks `i` to `k - 1` pass on the bytes from `p` to the end of the range. -/
theorem reads_range (h : Stored size id docs bytes) {options : ReadOptions} (promoteBuffers : Bool) {stop k : Nat}
    (hstop : options.stop = some (stop : Int)) (hlen : stop ≤ bytes.length) (hk : stop ≤ k * size)
    (hk' : k * size < stop + size) : ∀ (m : Nat) {i p : Nat}, i + m = k → i * size ≤ p → p ≤ stop →
      (0 < m → p ≤ (i + 1) * size) → ∃ bufs : List Buffer,
        reads { id, length := bytes.length, chunkSize := size } options promoteBuffers
          { bytesRead := (i * size : Nat), bytesToTrim := (k * size : Nat) - stop, bytesToSkip := p - (i * size : Nat),
            expected := i, expectedEnd := k } (((docs.drop i).take m).map .ok) =
          bufs.map Emission.data ++ [.ended, .close] ∧ bufs.flatten = (bytes.take stop).drop p
  | 0, i, p, him, hip, hps, _ => by
    refine ⟨[], rfl, ?_⟩
    obtain rfl : i = k := by omega
    exact (List.drop_eq_nil_of_le (by rw [List.length_take]; omega)).symm
  | m + 1, i, p, him, hip, hps, hpi => by
    have hmul : (i + 1) * size ≤ k * size := Nat.mul_le_mul_right size (by omega)
    have hsucc : (i + 1) * size = i * size + size := Nat.succ_mul i size
    have hdocs : i < docs.length := by
      by_contra hge
      have hmul' : docs.length * size ≤ i * size := Nat.mul_le_mul_right size (by omega)
      have hle := h.length_le
      omega
    have hd : docs[i]? = some docs[i] := List.getElem?_eq_getElem hdocs
    obtain ⟨hdata, hpos⟩ := h.data_at hd
    have hn : docs[i].n = i := h.n_eq hd
    have hlength : docs[i].data.length = min size (bytes.length - i * size) := by
      rw [hdata, List.length_take, List.length_drop]
    have hexpect : (docs[i].data.length : Int) = min (size : Int) (bytes.length - (i * size : Nat)) := by omega
    have hskip : (p : Int) - (i * size : Nat) = (p - i * size : Nat) := by omega
    rw [List.drop_eq_getElem_cons hdocs, List.take_succ_cons, List.map_cons, reads, hskip]
    by_cases hlast : m = 0
    · -- the last chunk of the range
      subst hlast
      obtain rfl : i + 1 = k := him
      rw [doRead_range (stop - i * size) hn hexpect hpos (fun _ => ⟨by dsimp only; omega, by omega⟩)
        fun hne => absurd (by omega : (i : Int) = ((i + 1 : Nat) : Int) - 1) hne]
      refine ⟨[slice docs[i].data (p - i * size : Nat) (stop - i * size : Nat)], rfl, ?_⟩
      rw [List.flatten_singleton, slice_eq, hdata]
      exact drop_take_drop bytes hip (by omega) (by omega)
    · have hmul' : (i + 2) * size ≤ k * size := Nat.mul_le_mul_right size (by omega)
      have hsucc' : (i + 2) * size = (i + 1) * size + size := Nat.succ_mul (i + 1) size
      have hp := hpi (Nat.succ_pos m)
      obtain ⟨bufs, hbufs, hflat⟩ := reads_range h promoteBuffers hstop hlen hk hk' m
        (i := i + 1) (p := (i + 1) * size) (by omega) (Nat.le_refl _) (by omega)
        fun _ => Nat.mul_le_mul_right size (Nat.le_succ _)
      have hfull : docs[i].data.length = size := by omega
      rw [doRead_range docs[i].data.length hn hexpect hpos (fun hend => absurd hend (by dsimp only; omega))
        fun _ => ⟨rfl, fun _ => by rw [hstop, Option.getD_some]; omega⟩]
      have hstate : ({
            bytesRead := (i * size : Nat) + (docs[i].data.length : Int), bytesToTrim := (k * size : Nat) - stop
            bytesToSkip := 0, expected := i + 1, expectedEnd := k } : ReadState) =
          { bytesRead := ((i + 1) * size : Nat), bytesToTrim := (k * size : Nat) - stop
            bytesToSkip := ((i + 1) * size : Nat) - ((i + 1) * size : Nat), expected := (i + 1 : Nat), expectedEnd := k } := by
        rw [hfull, hsucc, Int.sub_self]
        rfl
      refine ⟨slice docs[i].data (p - i * size : Nat) docs[i].data.length :: bufs, ?_, ?_⟩
      · simp only [hstate, hbufs, List.map_cons, List.cons_append]
      · have hpart : slice docs[i].data (p - i * size : Nat) docs[i].data.length =
            (bytes.take ((i + 1) * size)).drop p := by
          rw [slice_eq, hfull, hdata]
          have hwhole := drop_take_drop bytes hip (show i * size ≤ (i + 1) * size by omega) (show _ ≤ i * size + size by omega)
          rwa [show (i + 1) * size - i * size = size by omega] at hwhole
        rw [List.flatten_cons, hpart, hflat]
        exact take_drop_append bytes hp (by omega) hlen

/-! ## Downloads -/

/-- A chunk that is stored begins before the end of the file. -/
theorem Stored.begins (h : Stored size id docs bytes) {i : Nat} (hi : i < docs.length) : i * size < bytes.length := by
  obtain ⟨hdata, hpos⟩ := h.data_at (List.getElem?_eq_getElem hi)
  rw [hdata, List.length_take, List.length_drop] at hpos
  omega

/-- A download whose options are accepted: the state before the first chunk, and the chunks. -/
theorem download_eq (h : Stored size id docs bytes)
    (hdocs : (collection.filter fun d => d.files_id = id).Perm docs) (promoteBuffers : Bool) (identifier : String)
    {start stop k : Nat} (hpos : 0 < bytes.length) (hss : start ≤ stop) (hstop : stop ≤ bytes.length)
    (hk : ceilDiv stop size = k) :
    download { start := some (start : Int), stop := some (stop : Int) } promoteBuffers identifier
        (some { id, length := bytes.length, chunkSize := size }) collection =
      reads { id, length := bytes.length, chunkSize := size } { start := some (start : Int), stop := some (stop : Int) }
        promoteBuffers
        { bytesRead := (start / size * size : Nat), bytesToTrim := (k * size : Nat) - stop
          bytesToSkip := start - (start / size * size : Nat), expected := (start / size : Nat), expectedEnd := k }
        ((if (k : Int) - (start / size : Nat) = 0 then docs.drop (start / size)
          else (docs.drop (start / size)).take ((k : Int) - (start / size : Nat)).natAbs).map .ok) := by
  have hzero : ¬ (bytes.length : Int) ≤ 0 := by omega
  have hfar : ¬ (start : Int) > bytes.length := by omega
  have hneg : ¬ (start : Int) < 0 := by omega
  have hless : (some (stop : Int)).any (· < (start : Int)) = false := by
    rw [Option.any_some]
    exact decide_eq_false (by omega)
  have hfar' : ¬ (stop : Int) > bytes.length := by omega
  unfold download
  simp only [handleStartOption, handleEndOption, if_neg hzero, if_neg hfar, if_neg hneg, hless, Bool.false_eq_true,
    if_false, if_neg hfar', hk, floorDiv_eq, Option.getD_some, findChunks_stored h hdocs, Int.natCast_mul]

/-- A range is delivered unless it is empty, begins with a chunk and is not at the end of the file. -/
theorem range_delivers_iff (hsize : 0 < size) (h : Stored size id docs bytes)
    (hdocs : (collection.filter fun d => d.files_id = id).Perm docs) (promoteBuffers : Bool) (identifier : String)
    {start stop : Nat} (hss : start ≤ stop) (hstop : stop ≤ bytes.length) :
    Delivers (download { start := some (start : Int), stop := some (stop : Int) } promoteBuffers identifier
        (some { id, length := bytes.length, chunkSize := size }) collection) ((bytes.take stop).drop start) ↔
      ¬ (start = stop ∧ size ∣ start ∧ start < bytes.length) := by
  by_cases hpos : 0 < bytes.length
  swap
  · -- an empty file is not read
    have hnil : bytes = [] := List.eq_nil_of_length_eq_zero (by omega)
    refine iff_of_true ?_ fun hbad => hpos (by omega)
    subst hnil
    unfold download
    rw [List.take_nil, List.drop_nil]
    exact ⟨[], [.ended], rfl, rfl, .inl rfl⟩
  obtain ⟨k, hk, hle, hlt⟩ := ceilDiv_spec stop hsize
  have hfloor : start / size * size ≤ start := Nat.div_mul_le_self start size
  have hnext : start < (start / size + 1) * size := by
    rw [Nat.mul_comm]
    exact Nat.lt_mul_div_succ start hsize
  rw [download_eq h hdocs promoteBuffers identifier hpos hss hstop hk]
  by_cases hsame : k = start / size
  · -- the limit is zero: the range is empty, and begins with the chunk `k`
    have haligned : start = stop ∧ start = k * size := by
      rw [← hsame] at hfloor
      omega
    rw [if_pos (by omega), ← hsame]
    obtain ⟨rfl, hstart⟩ := haligned
    have hempty : (bytes.take start).drop start = [] := List.drop_eq_nil_of_le (by rw [List.length_take]; omega)
    rw [hempty]
    by_cases hend : k < docs.length
    · have hbegin := h.begins hend
      have hd : docs[k]? = some docs[k] := List.getElem?_eq_getElem hend
      obtain ⟨hdata, hdpos⟩ := h.data_at hd
      have hlength : docs[k].data.length = min size (bytes.length - k * size) := by
        rw [hdata, List.length_take, List.length_drop]
      have hn : docs[k].n = k := h.n_eq hd
      refine iff_of_false (fun hdelivers => ?_) fun hnot => hnot ⟨rfl, ⟨k, by rw [hstart, Nat.mul_comm]⟩, by omega⟩
      have hbytes := hdelivers.bytes_eq
      have hmid : start ≠ 0 → size ≤ start := by
        intro hne
        rw [hstart]
        refine Nat.le_mul_of_pos_left size (Nat.pos_of_ne_zero fun hk0 => hne ?_)
        rw [hstart, hk0, Nat.zero_mul]
      rw [List.drop_eq_getElem_cons hend, List.map_cons, reads,
        doRead_range docs[k].data.length hn (by dsimp only; omega) hdpos (fun he => absurd he (by dsimp only; omega))
          fun _ => ⟨rfl, fun hne => by rw [Option.getD_some] at hne ⊢; have := hmid (by omega); omega⟩] at hbytes
      simp only [List.flatMap_cons, List.append_eq_nil_iff] at hbytes
      have hslice : slice docs[k].data ((start : Int) - (k * size : Nat)) docs[k].data.length = docs[k].data := by
        rw [hstart, Int.sub_self]
        exact slice_whole _
      rw [hslice] at hbytes
      rw [show docs[k].data = [] from hbytes.1] at hdpos
      exact Nat.lt_irrefl 0 hdpos
    · have hlast := h.length_le
      have hmul : docs.length * size ≤ k * size := Nat.mul_le_mul_right size (by omega)
      refine iff_of_true ?_ fun hbad => by omega
      rw [List.drop_eq_nil_of_le (by omega)]
      exact ⟨[], [.ended, .close], rfl, rfl, .inr rfl⟩
  · have hkle : start / size ≤ k := by
      by_contra hgt
      have hmul : (k + 1) * size ≤ start / size * size := Nat.mul_le_mul_right size (by omega)
      have hsucc : (k + 1) * size = k * size + size := Nat.succ_mul k size
      omega
    have hnat : ((k : Int) - (start / size : Nat)).natAbs = k - start / size := by omega
    rw [if_neg (by omega), hnat]
    refine iff_of_true ?_ ?_
    · obtain ⟨bufs, hreads, hflat⟩ := reads_range h promoteBuffers
        (show ({ start := some (start : Int), stop := some (stop : Int) } : ReadOptions).stop = some (stop : Int) from rfl)
        hstop hle hlt (k - start / size) (i := start / size) (p := start) (by omega) hfloor hss fun _ => hnext.le
      exact ⟨bufs, [.ended, .close], hreads, hflat, .inr rfl⟩
    · rintro ⟨rfl, ⟨j, hj⟩, -⟩
      refine hsame ?_
      rw [hj, Nat.mul_div_cancel_left j hsize]
      rw [Nat.mul_comm size j] at hj
      rw [hj] at hle hlt
      have hjk : j ≤ k := Nat.le_of_mul_le_mul_right hle hsize
      by_contra hne
      have hmul : (j + 1) * size ≤ k * size := Nat.mul_le_mul_right size (by omega)
      have hsucc : (j + 1) * size = j * size + size := Nat.succ_mul j size
      omega

/-- A start without an end is refused, unless it is the beginning of the file. -/
theorem start_delivers_iff (hsize : 0 < size) (h : Stored size id docs bytes)
    (hdocs : (collection.filter fun d => d.files_id = id).Perm docs) (promoteBuffers : Bool) (identifier : String)
    {start : Nat} (hstart : start ≤ bytes.length) :
    Delivers (download { start := some (start : Int) } promoteBuffers identifier
        (some { id, length := bytes.length, chunkSize := size }) collection) (bytes.drop start) ↔ start = 0 := by
  constructor
  · intro hdelivers
    by_contra hne
    have hzero : ¬ (bytes.length : Int) ≤ 0 := by omega
    have hfar : ¬ (start : Int) > bytes.length := by omega
    have hneg : ¬ (start : Int) < 0 := by omega
    have hless : (some (0 : Int)).any (· < (start : Int)) = true := by
      rw [Option.any_some]
      exact decide_eq_true (by omega)
    unfold download at hdelivers
    simp only [handleStartOption, if_neg hzero, if_neg hfar, if_neg hneg, hless, if_true] at hdelivers
    exact not_delivers_error (List.mem_singleton_self _) hdelivers
  · rintro rfl
    exact delivers_stored hsize h hdocs promoteBuffers identifier

end

/-- For every stored file and every range of it: the download delivers exactly the bytes of the range, unless the range
is empty, begins at the beginning of a chunk and is not at the end of the file; and with a start only it delivers the
bytes from there on exactly when the start is zero. -/
theorem range_read_iff {size id : Nat} {docs collection : List GridFSChunk} {bytes : Buffer} (hsize : 0 < size)
    (h : Stored size id docs bytes) (hdocs : (collection.filter fun d => d.files_id = id).Perm docs)
    (promoteBuffers : Bool) (identifier : String) (start : Nat) (hstart : start ≤ bytes.length) :
    (∀ stop : Nat, start ≤ stop → stop ≤ bytes.length →
      (Delivers (download { start := some (start : Int), stop := some (stop : Int) } promoteBuffers identifier
          (some { id, length := bytes.length, chunkSize := size }) collection) ((bytes.take stop).drop start) ↔
        ¬ (start = stop ∧ size ∣ start ∧ start < bytes.length))) ∧
      (Delivers (download { start := some (start : Int) } promoteBuffers identifier
          (some { id, length := bytes.length, chunkSize := size }) collection) (bytes.drop start) ↔ start = 0) :=
  ⟨fun _ hss hstop => range_delivers_iff hsize h hdocs promoteBuffers identifier hss hstop,
    start_delivers_iff hsize h hdocs promoteBuffers identifier hstart⟩

/-- Three bytes in chunks of two. -/
def twoChunks : List GridFSChunk := [{ files_id := 7, n := 0, data := [1, 2] }, { files_id := 7, n := 1, data := [3] }]

theorem twoChunks_stored : Stored 2 7 twoChunks [1, 2, 3] where
  numbered := rfl
  owned := by decide
  full := by decide
  last := by decide
  data := rfl

theorem range_read_iff_twoChunks :
    (∀ stop : Nat, 1 ≤ stop → stop ≤ 3 →
      (Delivers (download { start := some 1, stop := some (stop : Int) } false "7"
          (some { id := 7, length := 3, chunkSize := 2 }) twoChunks) ((([1, 2, 3] : Buffer).take stop).drop 1) ↔
        ¬ (1 = stop ∧ 2 ∣ 1 ∧ 1 < 3))) ∧
      (Delivers (download { start := some 1 } false "7" (some { id := 7, length := 3, chunkSize := 2 }) twoChunks)
        (([1, 2, 3] : Buffer).drop 1) ↔ 1 = 0) :=
  range_read_iff (by decide) twoChunks_stored (.refl _) false "7" 1 (by decide)

/-- A start alone is refused, and the empty range at the beginning is the whole file. -/
theorem start_alone_is_refused :
    ¬ Delivers (download { start := some 1 } false "7" (some { id := 7, length := 3, chunkSize := 2 }) twoChunks) [2, 3] ∧
      download { start := some 0, stop := some 0 } false "7" (some { id := 7, length := 3, chunkSize := 2 }) twoChunks =
        [.data [1, 2], .data [3], .ended, .close] :=
  ⟨not_delivers_error (List.mem_singleton_self _), by decide⟩

end MongoDriver.Gridfs
