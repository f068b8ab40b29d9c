/-
The sections of a received `OP_MSG`, against the grammar that `src/cmap/commands.ts` gives in a comment: flags, one or
more sections, and a checksum exactly when its flag is set. `parse` has no branch for the checksum and none for a kind
of section it does not know: it reads the checksum as more sections, and goes on one byte after an unknown kind. What
the loop makes of any bytes is told here by a relation on them, from which each case follows.
-/
import MongoDriver.Cmap.WireFormat

namespace MongoDriver.Cmap

/-! ## The grammar -/

section Grammar

variable {δ : Type}

/-- A BSON document: it begins with its size, and the library reads it. -/
structure IsDocument (docs : Documents δ) (bytes : Buffer) : Prop where
  size : readInt32LE bytes 0 = .ok (bytes.length : Int)
  reads : ∀ options, ∃ d, docs.deserialize bytes options = .ok d

/-- `Section`. -/
inductive Section
  | document (bytes : Buffer)
  | sequence (size : Int) (identifier : Buffer) (documents : List Buffer)

namespace Section

def bytes : Section → Buffer
  | document b => 0 :: b
  | sequence size identifier documents => 1 :: (writeInt32LE size ++ identifier ++ 0 :: documents.flatten)

def isSequence : Section → Bool
  | document _ => false
  | sequence .. => true

def Valid (docs : Documents δ) : Section → Prop
  | document b => IsDocument docs b
  | sequence size identifier documents =>
    size = 4 + identifier.length + 1 + documents.flatten.length ∧ 0 ∉ identifier ∧ ∀ b ∈ documents, IsDocument docs b

end Section

/-- The documents of the sections of kind 0. -/
def documentsOf : List Section → List Buffer
  | [] => []
  | .document b :: sections => b :: documentsOf sections
  | .sequence .. :: sections => documentsOf sections

/-- `OP_MSG` after its header. -/
structure OpMsgBody where
  flagBits : Int
  sections : List Section
  checksum : Buffer

def OpMsgBody.bytes (body : OpMsgBody) : Buffer :=
  writeInt32LE body.flagBits ++ (body.sections.flatMap Section.bytes ++ body.checksum)

structure OpMsgBody.Valid (docs : Documents δ) (body : OpMsgBody) : Prop where
  nonempty : body.sections ≠ []
  sections : ∀ s ∈ body.sections, s.Valid docs
  checksum : body.checksum.length = if hasFlag body.flagBits 1 then 4 else 0

end Grammar

/-! ## What the loop makes of bytes -/

/-- The loop over the bytes that are left, with what it returns or throws. -/
inductive Reads {π : Type} (parseDocument : Buffer → Except AnyError π) : Buffer → Except AnyError (List π) → Prop
  | done : Reads parseDocument [] (.ok [])
  /-- another kind of section is passed over, byte by byte -/
  | stray {kind : UInt8} {rest : Buffer} {r : Except AnyError (List π)} (h0 : kind ≠ 0) (h1 : kind ≠ 1)
    (h : Reads parseDocument rest r) : Reads parseDocument (kind :: rest) r
  | sequence {rest : Buffer} : Reads parseDocument (1 :: rest) (.error BinMsg.payloadTypeUnsupported)
  | cut {rest : Buffer} (h : rest.length < 4) : Reads parseDocument (0 :: rest) (.error outOfRange)
  | unread {rest : Buffer} {size : Nat} {e : AnyError} (hsize : readUInt32LE rest 0 = .ok size)
    (he : parseDocument (rest.take size) = .error e) : Reads parseDocument (0 :: rest) (.error e)
  | document {rest : Buffer} {size : Nat} {p : π} {r : Except AnyError (List π)}
    (hsize : readUInt32LE rest 0 = .ok size) (hp : parseDocument (rest.take size) = .ok p)
    (h : Reads parseDocument (rest.drop size) r) : Reads parseDocument (0 :: rest) (r.map (p :: ·))

section Reads

variable {π : Type} {parseDocument : Buffer → Except AnyError π} {bytes rest : Buffer}
  {r r' : Except AnyError (List π)}

theorem readUInt32LE_short {buffer : Buffer} {size : Nat} (h : buffer.length < 4) :
    ¬ readUInt32LE buffer 0 = .ok size := by
  unfold readUInt32LE
  rw [List.drop_zero]
  match buffer, h with
  | [], _ | [_], _ | [_, _], _ | [_, _, _], _ => exact fun h => (by cases h)

/-- The bytes decide the outcome. -/
theorem Reads.unique (h : Reads parseDocument bytes r) : ∀ {r'}, Reads parseDocument bytes r' → r = r' := by
  induction h with
  | done =>
    intro r' h'
    cases h'
    rfl
  | stray h0 h1 _ ih =>
    intro r' h'
    cases h' with
    | stray _ _ h' => exact ih h'
    | sequence => exact absurd rfl h1
    | cut => exact absurd rfl h0
    | unread => exact absurd rfl h0
    | document => exact absurd rfl h0
  | sequence =>
    intro r' h'
    cases h' with
    | stray _ h1 => exact absurd rfl h1
    | sequence => rfl
  | cut h =>
    intro r' h'
    cases h' with
    | stray h0 => exact absurd rfl h0
    | cut => rfl
    | unread hsize => exact absurd hsize (readUInt32LE_short h)
    | document hsize => exact absurd hsize (readUInt32LE_short h)
  | unread hsize he =>
    intro r' h'
    cases h' with
    | stray h0 => exact absurd rfl h0
    | cut h => exact absurd hsize (readUInt32LE_short h)
    | unread hsize' he' =>
      rw [hsize] at hsize'
      cases hsize'
      rw [he] at he'
      cases he'
      rfl
    | document hsize' hp =>
      rw [hsize] at hsize'
      cases hsize'
      rw [he] at hp
      cases hp
  | document hsize hp _ ih =>
    intro r' h'
    cases h' with
    | stray h0 => exact absurd rfl h0
    | cut h => exact absurd hsize (readUInt32LE_short h)
    | unread hsize' he =>
      rw [hsize] at hsize'
      cases hsize'
      rw [he] at hp
      cases hp
    | document hsize' hp' h' =>
      rw [hsize] at hsize'
      cases hsize'
      rw [hp] at hp'
      cases hp'
      rw [ih h']

theorem readUInt32LE_drop (buffer : Buffer) (n : Nat) : readUInt32LE (buffer.drop n) 0 = readUInt32LE buffer n := by
  unfold readUInt32LE
  rw [List.drop_drop, Nat.add_zero]

theorem readUInt32LE_cases (buffer : Buffer) :
    (∃ size, readUInt32LE buffer 0 = .ok size) ∨ (buffer.length < 4 ∧ readUInt32LE buffer 0 = .error outOfRange) := by
  unfold readUInt32LE
  rw [List.drop_zero]
  match buffer with
  | [] | [_] | [_, _] | [_, _, _] => exact .inr ⟨by simp, rfl⟩
  | _ :: _ :: _ :: _ :: _ => exact .inl ⟨_, rfl⟩

/-- The loop does what the relation says, given enough turns for the bytes that are left. -/
theorem parseSections_reads (parseDocument : Buffer → Except AnyError π) (data : Buffer) :
    ∀ (fuel index : Nat), data.length ≤ index + fuel →
      Reads parseDocument (data.drop index) (BinMsg.parseSections parseDocument data fuel index)
  | 0, index, h => by
    rw [List.drop_eq_nil_of_le (by omega)]
    exact .done
  | fuel + 1, index, h => by
    unfold BinMsg.parseSections
    cases hbyte : data[index]? with
    | none =>
      rw [List.drop_eq_nil_of_le (List.getElem?_eq_none_iff.1 hbyte)]
      exact .done
    | some kind =>
      obtain ⟨hlt, hget⟩ := List.getElem?_eq_some_iff.1 hbyte
      have hdrop : data.drop index = kind :: data.drop (index + 1) := by
        rw [← hget]
        exact List.drop_eq_getElem_cons hlt
      rw [hdrop]
      have hnext := parseSections_reads parseDocument data fuel (index + 1) (by omega)
      simp only
      by_cases h0 : kind = 0
      · subst h0
        rw [if_pos rfl, ← readUInt32LE_drop]
        rcases readUInt32LE_cases (data.drop (index + 1)) with ⟨size, hsize⟩ | ⟨hshort, hsize⟩
        · rw [hsize]
          simp only [bind, Except.bind]
          cases hp : parseDocument ((data.drop (index + 1)).take size) with
          | error e => exact .unread hsize hp
          | ok p =>
            have hrest := parseSections_reads parseDocument data fuel (index + 1 + size) (by omega)
            rw [← List.drop_drop] at hrest
            have hmap := Reads.document hsize hp hrest
            cases hr : BinMsg.parseSections parseDocument data fuel (index + 1 + size) with
            | error e => rw [hr] at hmap; exact hmap
            | ok ps => rw [hr] at hmap; exact hmap
        · rw [hsize]
          exact .cut hshort
      · rw [if_neg h0]
        by_cases h1 : kind = 1
        · subst h1
          rw [if_pos rfl]
          exact .sequence
        · rw [if_neg h1]
          exact .stray h0 h1 hnext

/-- Every byte sequence has an outcome. -/
theorem exists_reads (parseDocument : Buffer → Except AnyError π) (bytes : Buffer) :
    ∃ r, Reads parseDocument bytes r :=
  ⟨_, parseSections_reads parseDocument bytes bytes.length 0 (by omega)⟩

/-- A document that begins with its size is taken as a whole. -/
theorem Reads.append_document {b : Buffer} {p : π} (hsize : readInt32LE b 0 = .ok (b.length : Int))
    (hp : parseDocument b = .ok p) (h : Reads parseDocument rest r) :
    Reads parseDocument (0 :: (b ++ rest)) (r.map (p :: ·)) := by
  have h4 : 4 ≤ b.length := by
    by_contra hlt
    exact readUInt32LE_short (by omega) (readUInt32LE_of_int hsize)
  have hread : readUInt32LE (b ++ rest) 0 = .ok b.length := by
    refine readUInt32LE_of_int ?_
    rw [readInt32LE_append b rest 0 (by omega)]
    exact hsize
  refine .document hread ?_ ?_
  · rw [List.take_left]
    exact hp
  · rw [List.drop_left]
    exact h

/-- No document fits into four bytes: each is another kind of section, or stops the loop. -/
theorem reads_short {ps : List π} : ∀ {bytes : Buffer}, bytes.length ≤ 4 →
    (Reads parseDocument bytes (.ok ps) ↔ ps = [] ∧ ∀ b ∈ bytes, b ≠ 0 ∧ b ≠ 1)
  | [], _ => by
    constructor
    · intro h
      cases h
      exact ⟨rfl, fun b hb => (by cases hb)⟩
    · rintro ⟨rfl, -⟩
      exact .done
  | kind :: rest, hlen => by
    rw [List.length_cons] at hlen
    have ih : Reads parseDocument rest (.ok ps) ↔ ps = [] ∧ ∀ b ∈ rest, b ≠ 0 ∧ b ≠ 1 := reads_short (by omega)
    rw [List.forall_mem_cons]
    constructor
    · intro h
      generalize hr : (Except.ok ps : Except AnyError (List π)) = r at h
      cases h with
      | stray h0 h1 h =>
        subst hr
        obtain ⟨hps, hrest⟩ := ih.1 h
        exact ⟨hps, ⟨h0, h1⟩, hrest⟩
      | sequence => cases hr
      | cut => cases hr
      | unread => cases hr
      | document hsize => exact absurd hsize (readUInt32LE_short (by omega))
    · rintro ⟨hps, ⟨h0, h1⟩, hrest⟩
      exact .stray h0 h1 (ih.2 ⟨hps, hrest⟩)

/-! ## Sections of the grammar -/

variable {sections : List Section}

theorem mem_documentsOf {b : Buffer} : ∀ {sections : List Section}, b ∈ documentsOf sections →
    .document b ∈ sections
  | .document b' :: sections, h => by
    rcases List.mem_cons.1 h with rfl | h
    · exact List.mem_cons_self ..
    · exact List.mem_cons_of_mem _ (mem_documentsOf h)
  | .sequence .. :: sections, h => List.mem_cons_of_mem _ (mem_documentsOf h)

/-- Sections with one document each, and then other bytes. -/
theorem Reads.append_documents : ∀ {sections : List Section} {ps : List π},
    (∀ s ∈ sections, s.isSequence = false) →
    (∀ b ∈ documentsOf sections, readInt32LE b 0 = .ok (b.length : Int)) →
    (documentsOf sections).mapM parseDocument = .ok ps → Reads parseDocument rest r →
    Reads parseDocument (sections.flatMap Section.bytes ++ rest) (r.map (ps ++ ·))
  | [], ps, _, _, hps, h => by
    cases hps
    cases r <;> exact h
  | .document b :: sections, ps, hdocs, hsizes, hps, h => by
    simp only [documentsOf, List.mapM_cons] at hps
    obtain ⟨p, hp, hps⟩ := Run.bind_ok.1 hps
    obtain ⟨ps', hps', hcons⟩ := Run.bind_ok.1 hps
    cases hcons
    simp only [documentsOf] at hsizes
    obtain ⟨hsize, hsizes⟩ := List.forall_mem_cons.1 hsizes
    have ih := Reads.append_documents (fun s hs => hdocs s (List.mem_cons_of_mem _ hs)) hsizes hps' h
    have hall := Reads.append_document hsize hp ih
    rw [List.flatMap_cons, List.append_assoc]
    cases r with
    | error e => exact hall
    | ok qs => exact hall
  | .sequence .. :: sections, ps, hdocs, _, _, _ => by
    have := hdocs _ (List.mem_cons_self ..)
    cases this

/-- A section of kind 1 stops the loop. -/
theorem Reads.append_sequence : ∀ {sections : List Section}, (∃ s ∈ sections, s.isSequence = true) →
    (∀ b ∈ documentsOf sections, readInt32LE b 0 = .ok (b.length : Int)) →
    (∀ b ∈ documentsOf sections, ∃ p, parseDocument b = .ok p) →
    Reads parseDocument (sections.flatMap Section.bytes ++ rest) (.error BinMsg.payloadTypeUnsupported)
  | [], ⟨s, hs, _⟩, _, _ => by cases hs
  | .document b :: sections, hsome, hsizes, hparse => by
    simp only [documentsOf] at hsizes hparse
    obtain ⟨hsize, hsizes⟩ := List.forall_mem_cons.1 hsizes
    obtain ⟨⟨p, hp⟩, hparse⟩ := List.forall_mem_cons.1 hparse
    have hrest : ∃ s ∈ sections, s.isSequence = true := by
      obtain ⟨s, hs, hseq⟩ := hsome
      rcases List.mem_cons.1 hs with rfl | hs
      · cases hseq
      · exact ⟨s, hs, hseq⟩
    rw [List.flatMap_cons, List.append_assoc]
    exact Reads.append_document hsize hp (Reads.append_sequence hrest hsizes hparse)
  | .sequence size identifier documents :: sections, _, _, _ => by
    rw [List.flatMap_cons, List.append_assoc]
    exact .sequence

end Reads

/-! ## `parse` -/

namespace BinMsg

section Parse

variable {δ : Type} (docs : Documents δ) (m : BinMsg) (options : ParseOptions)

/-- How `parse` reads one document. -/
def documentParser : Buffer → Except AnyError (ParsedDocument δ) :=
  parseDocument docs options.raw (m.bsonOptions options)

/-- The end of `parse`: a single document is parsed after all. -/
def finish (documents : List (ParsedDocument δ)) : Except AnyError (List (ParsedDocument δ)) :=
  match documents, options.documentsReturnedIn.filter (· ≠ "") with
  | [.raw bytes], some field => do
    let doc ← docs.deserialize bytes { m.bsonOptions options with fieldsAsRaw := some field }
    return [.document doc]
  | _, _ => return documents

/-- What `parse` is to make of documents. -/
def yields (documents : List Buffer) : Except AnyError (List (ParsedDocument δ)) :=
  documents.mapM (m.documentParser docs options) >>= m.finish docs options

/-- What follows documents and a byte of an unknown kind is read without an error. -/
def PassesOver (documents : List Buffer) (rest : Buffer) : Prop :=
  ∃ ps more r, documents.mapM (m.documentParser docs options) = .ok ps ∧
    Reads (m.documentParser docs options) rest (.ok more) ∧ m.finish docs options (ps ++ more) = .ok r

variable {docs m options} {bytes : Buffer} {sections : List Section} {r : Except AnyError (List (ParsedDocument δ))}

/-- `parse` does with the bytes after the flags what the relation says. -/
theorem parse_of_reads (hdata : m.data.drop 4 = bytes) (h : Reads (m.documentParser docs options) bytes r) :
    m.parse docs options = r >>= m.finish docs options := by
  have hreads := parseSections_reads (m.documentParser docs options) m.data m.data.length 4 (by omega)
  rw [hdata] at hreads
  have hr := hreads.unique h
  show parseSections (m.documentParser docs options) m.data m.data.length 4 >>= m.finish docs options = _
  rw [hr]

theorem documentParser_ok (m : BinMsg) (options : ParseOptions) {b : Buffer} (h : IsDocument docs b) :
    ∃ p, m.documentParser docs options b = .ok p := by
  unfold documentParser parseDocument
  split
  · exact ⟨_, rfl⟩
  · obtain ⟨d, hd⟩ := h.reads (m.bsonOptions options)
    exact ⟨.document d, by rw [hd]; rfl⟩

theorem documentParser_raw {b bytes : Buffer} (h : m.documentParser docs options b = .ok (.raw bytes)) : bytes = b := by
  unfold documentParser parseDocument at h
  split at h
  · cases h
    rfl
  · cases hd : docs.deserialize b (m.bsonOptions options) with
    | error e => rw [hd] at h; cases h
    | ok d => rw [hd] at h; cases h

/-- Documents that the library reads are read, and those that are left as bytes are among them. -/
theorem mapM_ok (m : BinMsg) (options : ParseOptions) : ∀ {documents : List Buffer},
    (∀ b ∈ documents, IsDocument docs b) → ∃ ps, documents.mapM (m.documentParser docs options) = .ok ps ∧
      ∀ bytes, ParsedDocument.raw bytes ∈ ps → bytes ∈ documents
  | [], _ => ⟨[], rfl, fun bytes hb => (by cases hb)⟩
  | b :: documents, h => by
    obtain ⟨hb, hdocuments⟩ := List.forall_mem_cons.1 h
    obtain ⟨p, hp⟩ := documentParser_ok m options hb
    obtain ⟨ps, hps, hraw⟩ := mapM_ok m options hdocuments
    refine ⟨p :: ps, by rw [List.mapM_cons, hp, hps]; rfl, fun bytes hmem => ?_⟩
    rcases List.mem_cons.1 hmem with rfl | hmem
    · rw [documentParser_raw hp]
      exact List.mem_cons_self ..
    · exact List.mem_cons_of_mem _ (hraw bytes hmem)

/-- The last step reads a document that the library reads. -/
theorem finish_ok (m : BinMsg) (options : ParseOptions) {ps : List (ParsedDocument δ)}
    (h : ∀ bytes, ParsedDocument.raw bytes ∈ ps → IsDocument docs bytes) :
    ∃ r, m.finish docs options ps = .ok r := by
  unfold finish
  split
  · rename_i bytes field _
    obtain ⟨d, hd⟩ := (h bytes (List.mem_singleton_self _)).reads
      { m.bsonOptions options with fieldsAsRaw := some field }
    exact ⟨_, by rw [hd]; rfl⟩
  · exact ⟨_, rfl⟩

end Parse

end BinMsg

section Body

variable {δ : Type} {docs : Documents δ} {m : BinMsg} {options : ParseOptions} {sections : List Section}

theorem isDocument_of_valid (h : ∀ s ∈ sections, s.Valid docs) : ∀ b ∈ documentsOf sections, IsDocument docs b :=
  fun _ hb => h _ (mem_documentsOf hb)

theorem drop_flagBits (flagBits : Int) (bytes : Buffer) : (writeInt32LE flagBits ++ bytes).drop 4 = bytes := rfl

/-- Sections with a document each, with anything after them. -/
theorem BinMsg.parse_documents {rest : Buffer} {r : Except AnyError (List (ParsedDocument δ))}
    {ps : List (ParsedDocument δ)} (hdata : m.data.drop 4 = sections.flatMap Section.bytes ++ rest)
    (hvalid : ∀ s ∈ sections, s.Valid docs) (hdocs : ∀ s ∈ sections, s.isSequence = false)
    (hps : (documentsOf sections).mapM (m.documentParser docs options) = .ok ps)
    (hrest : Reads (m.documentParser docs options) rest r) :
    m.parse docs options = r.map (ps ++ ·) >>= m.finish docs options :=
  BinMsg.parse_of_reads hdata
    (Reads.append_documents hdocs (fun b hb => (isDocument_of_valid hvalid b hb).size) hps hrest)

/-- A section of kind 1 is refused, whatever follows it. -/
theorem BinMsg.parse_sequence {rest : Buffer} (hdata : m.data.drop 4 = sections.flatMap Section.bytes ++ rest)
    (hvalid : ∀ s ∈ sections, s.Valid docs) (hseq : ∃ s ∈ sections, s.isSequence = true) :
    m.parse docs options = .error BinMsg.payloadTypeUnsupported :=
  BinMsg.parse_of_reads hdata
    (Reads.append_sequence hseq (fun b hb => (isDocument_of_valid hvalid b hb).size)
      fun b hb => BinMsg.documentParser_ok m options (isDocument_of_valid hvalid b hb))

/-- A body of documents and a checksum is parsed to its documents exactly when no byte of the checksum is taken for a
section of kind 0 or 1. -/
theorem BinMsg.parse_checksum_iff {checksum : Buffer}
    (hdata : m.data.drop 4 = sections.flatMap Section.bytes ++ checksum) (hshort : checksum.length ≤ 4)
    (hvalid : ∀ s ∈ sections, s.Valid docs) (hdocs : ∀ s ∈ sections, s.isSequence = false) :
    ∃ documents, m.yields docs options (documentsOf sections) = .ok documents ∧
      (m.parse docs options = .ok documents ↔ ∀ b ∈ checksum, b ≠ 0 ∧ b ≠ 1) := by
  obtain ⟨ps, hps, hraw⟩ := BinMsg.mapM_ok m options (isDocument_of_valid hvalid)
  obtain ⟨documents, hfinish⟩ := BinMsg.finish_ok m options
    fun bytes hb => isDocument_of_valid hvalid bytes (hraw bytes hb)
  obtain ⟨r, hr⟩ := exists_reads (m.documentParser docs options) checksum
  have hparse := BinMsg.parse_documents hdata hvalid hdocs hps hr
  refine ⟨documents, Run.bind_ok.2 ⟨ps, hps, hfinish⟩, ?_⟩
  rw [hparse]
  constructor
  · intro h
    cases r with
    | error e => cases h
    | ok qs => exact ((reads_short hshort).1 hr).2
  · intro h
    obtain rfl := hr.unique ((reads_short hshort).2 ⟨rfl, h⟩)
    show m.finish docs options (ps ++ []) = _
    rw [List.append_nil]
    exact hfinish

/-- A body with an unknown kind of section is refused exactly when a section of kind 1 comes before it, or when what
follows the byte cannot be passed over. -/
theorem BinMsg.parse_unknown_iff {kind : UInt8} {rest : Buffer}
    (hdata : m.data.drop 4 = sections.flatMap Section.bytes ++ kind :: rest) (h0 : kind ≠ 0) (h1 : kind ≠ 1)
    (hvalid : ∀ s ∈ sections, s.Valid docs) :
    (∃ e, m.parse docs options = .error e) ↔
      (∃ s ∈ sections, s.isSequence = true) ∨ ¬ m.PassesOver docs options (documentsOf sections) rest := by
  by_cases hseq : ∃ s ∈ sections, s.isSequence = true
  · constructor
    · intro _
      exact .inl hseq
    · intro _
      exact ⟨_, BinMsg.parse_sequence hdata hvalid hseq⟩
  have hdocs : ∀ s ∈ sections, s.isSequence = false := by
    intro s hs
    rw [← Bool.not_eq_true]
    exact fun hs' => hseq ⟨s, hs, hs'⟩
  obtain ⟨ps, hps, -⟩ := BinMsg.mapM_ok m options (isDocument_of_valid hvalid)
  obtain ⟨r, hr⟩ := exists_reads (m.documentParser docs options) rest
  rw [BinMsg.parse_documents hdata hvalid hdocs hps (.stray h0 h1 hr)]
  constructor
  · rintro ⟨e, he⟩
    refine .inr ?_
    rintro ⟨ps', more, result, hps', hmore, hfinish⟩
    obtain rfl := hr.unique hmore
    rw [hps] at hps'
    cases hps'
    have hbind : (Except.ok (ps ++ more) >>= m.finish docs options) = .error e := he
    rw [show (Except.ok (ps ++ more) >>= m.finish docs options) = m.finish docs options (ps ++ more) from rfl,
      hfinish] at hbind
    cases hbind
  · rintro (h | h)
    · exact absurd h hseq
    · cases r with
      | error e => exact ⟨e, rfl⟩
      | ok more =>
        show ∃ e, m.finish docs options (ps ++ more) = .error e
        cases hfinish : m.finish docs options (ps ++ more) with
        | error e => exact ⟨e, rfl⟩
        | ok result => exact absurd ⟨ps, more, result, hps, hr, hfinish⟩ h

end Body

/-- A body of the grammar with a section of kind 1 is refused with the error for it; one without is parsed to its
documents, in order, exactly when no byte of the checksum is 0 or 1; and one with another kind of section is refused
exactly when a section of kind 1 comes first, or when the bytes after the unknown kind cannot be passed over. -/
theorem op_msg_parsed_iff {δ : Type} (docs : Documents δ) (m : BinMsg) (options : ParseOptions) :
    (∀ body : OpMsgBody, body.Valid docs → m.data = body.bytes →
      ((∃ s ∈ body.sections, s.isSequence = true) → m.parse docs options = .error BinMsg.payloadTypeUnsupported) ∧
      ((∀ s ∈ body.sections, s.isSequence = false) →
        ∃ documents, m.yields docs options (documentsOf body.sections) = .ok documents ∧
          (m.parse docs options = .ok documents ↔ ∀ b ∈ body.checksum, b ≠ 0 ∧ b ≠ 1))) ∧
    ∀ (flagBits : Int) (sections : List Section) (kind : UInt8) (rest : Buffer),
      (∀ s ∈ sections, s.Valid docs) → kind ≠ 0 → kind ≠ 1 →
      m.data = writeInt32LE flagBits ++ (sections.flatMap Section.bytes ++ kind :: rest) →
      ((∃ e, m.parse docs options = .error e) ↔
        (∃ s ∈ sections, s.isSequence = true) ∨ ¬ m.PassesOver docs options (documentsOf sections) rest) := by
  constructor
  · intro body hbody hdata
    have hdrop : m.data.drop 4 = body.sections.flatMap Section.bytes ++ body.checksum := by
      rw [hdata]
      exact drop_flagBits _ _
    have hshort : body.checksum.length ≤ 4 := by
      rw [hbody.checksum]
      split <;> omega
    exact ⟨BinMsg.parse_sequence hdrop hbody.sections, BinMsg.parse_checksum_iff hdrop hshort hbody.sections⟩
  · intro flagBits sections kind rest hvalid h0 h1 hdata
    have hdrop : m.data.drop 4 = sections.flatMap Section.bytes ++ kind :: rest := by
      rw [hdata]
      exact drop_flagBits _ _
    exact BinMsg.parse_unknown_iff hdrop h0 h1 hvalid

/-- A reply with one document and a checksum of zeros. -/
def checksummedBody : OpMsgBody where
  flagBits := 1
  sections := [.document pingBytes]
  checksum := [0, 0, 0, 0]

/-- The message a body arrives in. -/
def bodyMessage (data : Buffer) (flagBits : Int) : BinMsg where
  raw := []
  data := data
  header := { length := 16 + data.length, requestId := 1, responseTo := 7, opCode := opMsg }
  responseFlags := flagBits
  checksumPresent := hasFlag flagBits 1
  moreToCome := hasFlag flagBits 2
  exhaustAllowed := hasFlag flagBits 65536

theorem pingBytes_isDocument : IsDocument pingDocuments pingBytes := ⟨by decide, fun _ => ⟨.ping, rfl⟩⟩

theorem checksummedBody_valid : checksummedBody.Valid pingDocuments where
  nonempty := by decide
  sections := by
    intro s hs
    obtain rfl := List.mem_singleton.1 hs
    exact pingBytes_isDocument
  checksum := by decide

/-- The checksum is read as a document that is cut off; and a section of kind 2 is passed over. -/
theorem checksum_read_as_section :
    ¬ ((∀ body : OpMsgBody, body.Valid pingDocuments → (∀ s ∈ body.sections, s.isSequence = false) →
          ∃ documents,
            (bodyMessage body.bytes body.flagBits).yields pingDocuments {} (documentsOf body.sections) =
              .ok documents ∧
            (bodyMessage body.bytes body.flagBits).parse pingDocuments {} = .ok documents)) ∧
      ¬ ∀ (sections : List Section) (kind : UInt8) (rest : Buffer), (∀ s ∈ sections, s.Valid pingDocuments) →
          kind ≠ 0 → kind ≠ 1 →
          ∃ e, (bodyMessage (writeInt32LE 0 ++ (sections.flatMap Section.bytes ++ kind :: rest)) 0).parse
            pingDocuments {} = .error e := by
  constructor
  · intro h
    obtain ⟨documents, -, hparse⟩ := h checksummedBody checksummedBody_valid (by decide)
    have herror : (bodyMessage checksummedBody.bytes checksummedBody.flagBits).parse pingDocuments {} =
        .error outOfRange := rfl
    rw [herror] at hparse
    cases hparse
  · intro h
    obtain ⟨e, he⟩ := h [] 2 [] (fun s hs => (by cases hs)) (by decide) (by decide)
    cases he

end MongoDriver.Cmap
