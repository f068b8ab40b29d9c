/-
A cursor delivers the documents of its batches once and in order, over every history of batches that
ends in a zero cursor id and every sequence of calls. A cursor is in one of four shapes: not yet
opened, live on the server, dead on the server with a buffer, or closed; each call keeps what was
returned, what is buffered and what is to come, together.
-/
import MongoDriver.Base.Run
import MongoDriver.Cursor.AbstractCursor

namespace MongoDriver.Cursor

variable {δ τ : Type}

/-! ## Histories -/

/-- A history of batches, each with the cursor id of its reply. -/
abbrev History (δ : Type) := List (Int × List δ)

/-- The last reply has the zero id, and no earlier one has. -/
def EndsInZero : History δ → Prop
  | [] => False
  | [reply] => reply.1 = 0
  | reply :: next :: rest => reply.1 ≠ 0 ∧ EndsInZero (next :: rest)

/-- The documents of a history. -/
def History.documents (h : History δ) : List δ := h.flatMap (·.2)

/-- The replies that carry a history. -/
def History.replies (h : History δ) : Replies δ := h.map fun reply => .ok (.cursor reply.1 reply.2)

theorem EndsInZero.zero {batch : List δ} {rest : History δ} (h : EndsInZero ((0, batch) :: rest)) : rest = [] := by
  cases rest with
  | nil => rfl
  | cons reply rest => exact absurd rfl h.1

theorem EndsInZero.nonzero {id : Int} {batch : List δ} {rest : History δ} (h : EndsInZero ((id, batch) :: rest))
    (hid : id ≠ 0) : EndsInZero rest := by
  cases rest with
  | nil => exact absurd h hid
  | cons reply rest => exact h.2

/-! ## The shapes of a cursor -/

/-- What a cursor can be when it buffers `buffer` and `h` is to come. -/
inductive Shape (c : AbstractCursor δ τ) : (buffer : List δ) → (h : History δ) → Prop
  | unopened {h : History δ} (id : c.id = none) (closed : c.closed = false) (documents : c.documents = [])
      (history : EndsInZero h) : Shape c [] h
  | live {buffer : List δ} {h : History δ} {value : Int} (id : c.id = some (.decoded value)) (nonzero : value ≠ 0)
      (closed : c.closed = false) (documents : c.documents = buffer.map .document) (history : EndsInZero h) :
      Shape c buffer h
  | dead {buffer : List δ} (id : c.id = some (.decoded 0)) (closed : c.closed = false)
      (documents : c.documents = buffer.map .document) : Shape c buffer []
  | closed (id : c.id = some .zero) (closed : c.closed = true) (documents : c.documents = []) : Shape c [] []

section Fetch

variable {env : CursorEnv δ τ} {c : AbstractCursor δ τ} {buffer : List δ} {h : History δ}

/-- Releasing the session does no more than end it. -/
theorem releaseSession_eq (error : Option AnyError) : c.releaseSession error =
    { c with session := (c.releaseSession error).session, effects := (c.releaseSession error).effects } := by
  unfold AbstractCursor.releaseSession
  split
  · rfl
  · split
    · rfl
    · split <;> rfl

@[simp] theorem releaseSession_id (error : Option AnyError) : (c.releaseSession error).id = c.id := by
  rw [releaseSession_eq]

@[simp] theorem releaseSession_closed (error : Option AnyError) : (c.releaseSession error).closed = c.closed := by
  rw [releaseSession_eq]

@[simp] theorem releaseSession_documents (error : Option AnyError) :
    (c.releaseSession error).documents = c.documents := by
  rw [releaseSession_eq]

/-- A dead cursor that is cleaned up: it is closed when nothing is buffered. -/
theorem cleanupCursor_dead (env : CursorEnv δ τ) (hid : c.id = some (.decoded 0)) (hopen : c.closed = false)
    (hdocs : c.documents = buffer.map .document) : Shape (cleanupCursor env c none) buffer [] ∧
      (buffer = [] → (cleanupCursor env c none).id = some .zero) := by
  have hclean : cleanupCursor env c none =
      (if c.documents.isEmpty then { c with closed := true, id := some .zero }.emitClose else c).releaseSession
        none := by
    simp [cleanupCursor, hid, CursorId.isZero]
  rw [hclean]
  cases buffer with
  | nil =>
    rw [if_pos (by simp [hdocs])]
    refine ⟨.closed ?_ ?_ ?_, fun _ => ?_⟩ <;> simp [AbstractCursor.emitClose, hdocs]
  | cons d ds =>
    rw [if_neg (by simp [hdocs])]
    exact ⟨.dead (by simp [hid]) (by simp [hopen]) (by simp [hdocs]), nofun⟩

/-- Without a transform the next document of the buffer is returned as it is. -/
theorem nextDocument_cons {d : δ} {ds : List δ} (hmap : env.transform = none)
    (hdocs : c.documents = (d :: ds).map .document) :
    nextDocument env c = (some (.document d), { c with documents := ds.map .document }) := by
  unfold nextDocument
  rw [hdocs]
  simp [Item.truthy, hmap]

theorem nextDocument_nil (hdocs : c.documents = []) : nextDocument env c = (none, c) := by
  unfold nextDocument
  rw [hdocs]

/-- What a fetch owes: it returns no error; what it returns, buffers and leaves to come is what there
was; it returns nothing only with an empty buffer, and a blocking fetch only from a closed cursor; what
it returns can be put back. -/
structure Fetched (blocking : Bool) (buffer : List δ) (h : History δ) (out : Returned δ τ) (doc : Option δ)
    (buffer' : List δ) (h' : History δ) : Prop where
  error : out.error = none
  result : out.result = doc.map .document
  replies : out.replies = h'.replies
  shape : Shape out.cursor buffer' h'
  conserved : doc.toList ++ buffer' ++ h'.documents = buffer ++ h.documents
  nothing : doc = none → buffer' = [] ∧ (blocking = true → out.cursor.id = some .zero)
  putBack : ∀ d, doc = some d →
    Shape ({ out.cursor with documents := (d :: buffer').map .document } : AbstractCursor δ τ) (d :: buffer') h'

/-- A cursor that has something buffered can buffer anything. -/
theorem Shape.refill {d : δ} {ds items : List δ} (hs : Shape c (d :: ds) h) :
    Shape ({ c with documents := items.map .document } : AbstractCursor δ τ) items h := by
  cases hs with
  | live hid hne hopen _ hh => exact .live hid hne hopen rfl hh
  | dead hid hopen _ => exact .dead hid hopen rfl

theorem Shape.documents (hs : Shape c buffer h) : c.documents = buffer.map .document := by
  cases hs with
  | unopened _ _ hdocs _ => exact hdocs
  | live _ _ _ hdocs _ => exact hdocs
  | dead _ _ hdocs => exact hdocs
  | closed _ _ hdocs => exact hdocs

/-- The last batch has come. -/
theorem finish_fetched (env : CursorEnv δ τ) (blocking : Bool) (hmap : env.transform = none)
    (hid : c.id = some (.decoded 0)) (hopen : c.closed = false) (hdocs : c.documents = buffer.map .document) :
    ∃ doc buffer', Fetched blocking [] [(0, buffer)] (finish env c none []) doc buffer' [] := by
  obtain ⟨hshape, hzero⟩ := cleanupCursor_dead env hid hopen hdocs
  have hbuf := hshape.documents
  unfold finish
  cases buffer with
  | nil =>
    rw [nextDocument_nil hbuf]
    exact ⟨none, [], rfl, rfl, rfl, hshape, rfl, fun _ => ⟨rfl, fun _ => hzero rfl⟩, nofun⟩
  | cons d ds =>
    rw [nextDocument_cons hmap hbuf]
    refine ⟨some d, ds, rfl, rfl, rfl, hshape.refill, ?_, nofun, ?_⟩
    · simp [History.documents]
    · intro d' hd
      cases hd
      exact hshape.refill

/-! ## The branches of a fetch -/

theorem next_closed (blocking : Bool) (replies : Replies δ) (hclosed : c.closed = true) :
    next env blocking replies c = some { cursor := c, replies } := by
  unfold next
  rw [if_pos hclosed]

theorem next_buffered {d : δ} {ds : List δ} (blocking : Bool) (replies : Replies δ) (hmap : env.transform = none)
    (hopen : c.closed = false) (hdocs : c.documents = (d :: ds).map .document) : next env blocking replies c =
      some { result := some (.document d), cursor := { c with documents := ds.map .document }, replies } := by
  unfold next
  rw [if_neg (by simp [hopen]), if_pos (by simp [hdocs]), nextDocument_cons hmap hdocs]

theorem next_dead (blocking : Bool) (replies : Replies δ) (hid : c.id = some (.decoded 0)) (hopen : c.closed = false)
    (hdocs : c.documents = []) : next env blocking replies c =
      some { cursor := cleanupCursor env c none, replies } := by
  unfold next
  rw [if_neg (by simp [hopen]), if_neg (by simp [hdocs])]
  simp [hid, cursorIsDead, CursorId.isZero]

/-- The first command. -/
theorem next_unopened {id : Int} {batch : List δ} (blocking : Bool) (rest : Replies δ) (hid : c.id = none)
    (hopen : c.closed = false) (hdocs : c.documents = []) :
    next env blocking (.ok (.cursor id batch) :: rest) c =
      if id = 0 then some (finish env (receiveFirst (startSession env c) (.cursor id batch)) none rest)
      else next env blocking rest (receiveFirst (startSession env c) (.cursor id batch)) := by
  rw [next, if_neg (by simp [hopen]), if_neg (by simp [hdocs])]
  simp [hid, cursorIsDead, receiveFirst, CursorId.isZero]

/-- A `getMore`. -/
theorem next_live {value id : Int} {batch : List δ} (blocking : Bool) (rest : Replies δ)
    (hid : c.id = some (.decoded value)) (hne : value ≠ 0) (hopen : c.closed = false) (hdocs : c.documents = []) :
    next env blocking (.ok (.cursor id batch) :: rest) c =
      if id = 0 then
        some (finish env { c with documents := batch.map .document, id := some (.decoded id) } none rest)
      else if batch.isEmpty && !blocking then
        some { cursor := { c with documents := batch.map .document, id := some (.decoded id) }, replies := rest }
      else next env blocking rest { c with documents := batch.map .document, id := some (.decoded id) } := by
  rw [next, if_neg (by simp [hopen]), if_neg (by simp [hdocs])]
  simp [hid, hne, cursorIsDead, CursorId.isZero]

theorem startSession_closed (c : AbstractCursor δ τ) : (startSession env c).closed = c.closed := by
  unfold startSession
  split <;> rfl

/-- A batch has come, and the buffer was empty: the cursor is finished with, or fetches on. -/
theorem received_fetched {id : Int} {batch : List δ} {rest : History δ} (blocking : Bool) (hmap : env.transform = none)
    (hid : c.id = some (.decoded id)) (hopen : c.closed = false) (hdocs : c.documents = batch.map .document)
    (hh : EndsInZero ((id, batch) :: rest))
    (ih : ∀ {c : AbstractCursor δ τ} {buffer : List δ}, Shape c buffer rest → ∃ out doc buffer' h',
      next env blocking rest.replies c = some out ∧ Fetched blocking buffer rest out doc buffer' h') :
    ∃ out doc buffer' h',
      (if id = 0 then some (finish env c none rest.replies) else next env blocking rest.replies c) = some out ∧
        Fetched blocking [] ((id, batch) :: rest) out doc buffer' h' := by
  by_cases hzero : id = 0
  · subst hzero
    obtain rfl := hh.zero
    obtain ⟨doc, buffer', hf⟩ := finish_fetched env blocking hmap hid hopen hdocs
    exact ⟨_, doc, buffer', [], if_pos rfl, hf⟩
  · obtain ⟨out, doc, buffer', h', hout, hf⟩ := ih (.live hid hzero hopen hdocs (hh.nonzero hzero))
    exact ⟨out, doc, buffer', h', (if_neg hzero).trans hout,
      hf.error, hf.result, hf.replies, hf.shape, hf.conserved, hf.nothing, hf.putBack⟩

/-- Every fetch of a cursor in one of the shapes comes back with what it owes. -/
theorem next_fetched (env : CursorEnv δ τ) (blocking : Bool) (hmap : env.transform = none) (h : History δ) :
    ∀ {c : AbstractCursor δ τ} {buffer : List δ}, Shape c buffer h →
      ∃ out doc buffer' h', next env blocking h.replies c = some out ∧
        Fetched blocking buffer h out doc buffer' h' := by
  -- a request takes one reply off the history
  induction h with
  | nil =>
    intro c buffer hs
    cases hs with
    | unopened _ _ _ hh => exact hh.elim
    | live _ _ _ _ hh => exact hh.elim
    | closed hid hclosed hdocs =>
      refine ⟨_, none, [], [], next_closed blocking _ hclosed, rfl, rfl, rfl, .closed hid hclosed hdocs, rfl, ?_, nofun⟩
      exact fun _ => ⟨rfl, fun _ => hid⟩
    | dead hid hopen hdocs =>
      cases buffer with
      | nil =>
        obtain ⟨hshape, hzero⟩ := cleanupCursor_dead env hid hopen hdocs
        refine ⟨_, none, [], [], next_dead blocking _ hid hopen hdocs, rfl, rfl, rfl, hshape, rfl, ?_, nofun⟩
        exact fun _ => ⟨rfl, fun _ => hzero rfl⟩
      | cons d ds =>
        exact ⟨_, some d, ds, [], next_buffered blocking _ hmap hopen hdocs, rfl, rfl, rfl,
          .dead hid hopen rfl, rfl, nofun, fun _ hd => by cases hd; exact .dead hid hopen rfl⟩
  | cons reply rest ih =>
    intro c buffer hs
    obtain ⟨id, batch⟩ := reply
    cases hs with
    | unopened hid hopen hdocs hh =>
      rw [show History.replies ((id, batch) :: rest) = .ok (.cursor id batch) :: History.replies rest from rfl,
        next_unopened blocking _ hid hopen hdocs]
      exact received_fetched blocking hmap rfl ((startSession_closed c).trans hopen) rfl hh ih
    | live hid hne hopen hdocs hh =>
      cases buffer with
      | cons d ds =>
        exact ⟨_, some d, ds, _, next_buffered blocking _ hmap hopen hdocs, rfl, rfl, rfl,
          .live hid hne hopen rfl hh, rfl, nofun, fun _ hd => by cases hd; exact .live hid hne hopen rfl hh⟩
      | nil =>
        rw [show History.replies ((id, batch) :: rest) = .ok (.cursor id batch) :: History.replies rest from rfl,
          next_live blocking _ hid hne hopen hdocs]
        have hnext := received_fetched (c := { c with documents := batch.map .document, id := some (.decoded id) })
          blocking hmap rfl hopen rfl hh ih
        -- `tryNext` stops at an empty batch
        by_cases hempty : id ≠ 0 ∧ (batch.isEmpty && !blocking) = true
        · rw [if_neg hempty.1, if_pos hempty.2]
          have hboth := hempty.2
          simp only [Bool.and_eq_true, List.isEmpty_iff, Bool.not_eq_true'] at hboth
          obtain ⟨rfl, hb⟩ := hboth
          refine ⟨_, none, [], rest, rfl, rfl, rfl, rfl, .live rfl hempty.1 hopen rfl (hh.nonzero hempty.1), rfl, ?_,
            nofun⟩
          exact fun _ => ⟨rfl, fun hb' => by rw [hb] at hb'; cases hb'⟩
        · split
          · rename_i hzero
            rwa [if_pos hzero] at hnext
          · rename_i hzero
            rw [if_neg fun he => hempty ⟨hzero, he⟩]
            rwa [if_neg hzero] at hnext

end Fetch

/-! ## Calls -/

/-- The documents among the answers. -/
def returned (answers : List (Answer δ τ)) : List (Item δ τ) :=
  answers.filterMap fun
    | .item item => some item
    | _ => none

/-- The answer says that there is nothing left: nothing or an error from `next`, a no from `hasNext`,
and an error from `tryNext`. -/
def IsEnd : Method → Answer δ τ → Prop
  | .next, .null | .next, .error _ | .hasNext, .bool false | .hasNext, .error _ | .tryNext, .error _ => True
  | _, _ => False

/-- What a call owes: what it returns, buffers and leaves to come is what there was, and it reports the
end only when there was nothing. -/
structure Answered (m : Method) (buffer : List δ) (h : History δ) (a : Answer δ τ) (r : Reading δ τ)
    (items buffer' : List δ) (h' : History δ) : Prop where
  answer : returned [a] = items.map .document
  replies : r.replies = h'.replies
  shape : Shape r.cursor buffer' h'
  conserved : items ++ buffer' ++ h'.documents = buffer ++ h.documents
  ends : IsEnd m a → buffer ++ h.documents = []
  progress : m = .next → items.length = 1 ∨ IsEnd m a

section Calls

variable {env : CursorEnv δ τ} {r : Reading δ τ} {buffer : List δ} {h : History δ}

/-- A closed cursor has nothing left. -/
theorem Shape.drained {c : AbstractCursor δ τ} (hs : Shape c buffer h) (hid : c.id = some .zero) :
    buffer = [] ∧ h = [] := by
  cases hs with
  | unopened hid' _ _ _ => rw [hid] at hid'; cases hid'
  | live hid' _ _ _ _ => rw [hid] at hid'; cases hid'
  | dead hid' _ _ => rw [hid] at hid'; cases hid'
  | closed _ _ _ => exact ⟨rfl, rfl⟩

theorem fetch_answered (m : Method) (blocking : Bool) (hmap : env.transform = none) (hs : Shape r.cursor buffer h)
    (hr : r.replies = h.replies) (hm : m = .next ∧ blocking = true ∨ m = .tryNext) :
    ∃ a r' items buffer' h', AbstractCursor.fetch env blocking r = some (a, r') ∧
      Answered m buffer h a r' items buffer' h' := by
  unfold AbstractCursor.fetch
  by_cases hid : r.cursor.id = some .zero
  · obtain ⟨rfl, rfl⟩ := hs.drained hid
    rw [if_pos hid]
    refine ⟨_, r, [], [], [], rfl, rfl, hr, hs, rfl, fun _ => rfl, fun _ => .inr ?_⟩
    rcases hm with ⟨rfl, -⟩ | rfl <;> trivial
  · rw [if_neg hid, hr]
    obtain ⟨out, doc, buffer', h', hnext, hf⟩ := next_fetched env blocking hmap h hs
    rw [hnext]
    cases doc with
    | some d =>
      have hres : out.result = some (.document d) := hf.result
      refine ⟨.item (.document d), ⟨out.cursor, out.replies⟩, [d], buffer', h', ?_, rfl, hf.replies, hf.shape,
        hf.conserved, ?_, fun _ => .inl rfl⟩
      · simp [hf.error, hres]
      · rcases hm with ⟨rfl, -⟩ | rfl <;> exact False.elim
    | none =>
      have hres : out.result = none := hf.result
      obtain ⟨rfl, hzero⟩ := hf.nothing rfl
      refine ⟨.null, ⟨out.cursor, out.replies⟩, [], [], h', by simp [hf.error, hres], rfl, hf.replies, hf.shape,
        hf.conserved, ?_, ?_⟩
      · rcases hm with ⟨rfl, hb⟩ | rfl
        · -- a blocking fetch that returned nothing has closed the cursor
          intro _
          obtain ⟨-, rfl⟩ := hf.shape.drained (hzero hb)
          exact hf.conserved.symm
        · exact False.elim
      · rintro rfl
        exact .inr trivial

/-- `hasNext` returns nothing; it says yes with a document in the buffer, and no from a closed cursor. -/
theorem hasNext_answered (hmap : env.transform = none) (hs : Shape r.cursor buffer h) (hr : r.replies = h.replies) :
    ∃ b r' buffer' h', AbstractCursor.hasNext env r = some (.bool b, r') ∧
      Answered .hasNext buffer h (.bool b) r' [] buffer' h' ∧
      (b = true → buffer' ≠ []) ∧ (b = false → r'.cursor.id = some .zero) := by
  unfold AbstractCursor.hasNext
  by_cases hid : r.cursor.id = some .zero
  · obtain ⟨rfl, rfl⟩ := hs.drained hid
    rw [if_pos hid]
    exact ⟨false, r, [], [], rfl, ⟨rfl, hr, hs, rfl, fun _ => rfl, nofun⟩, nofun, fun _ => hid⟩
  rw [if_neg hid]
  cases buffer with
  | cons d ds =>
    rw [if_pos (by simp [hs.documents])]
    exact ⟨true, r, d :: ds, h, rfl, ⟨rfl, hr, hs, rfl, False.elim, nofun⟩, nofun, nofun⟩
  | nil =>
    rw [if_neg (by simp [hs.documents]), hr]
    obtain ⟨out, doc, buffer', h', hnext, hf⟩ := next_fetched env true hmap h hs
    rw [hnext]
    cases doc with
    | some d =>
      have hres : out.result = some (.document d) := hf.result
      refine ⟨true, ⟨{ out.cursor with documents := (d :: buffer').map .document }, out.replies⟩, d :: buffer', h', ?_,
        ⟨rfl, hf.replies, hf.putBack d rfl, hf.conserved, False.elim, nofun⟩, nofun, nofun⟩
      simp [hf.error, hres, Item.truthy, hf.shape.documents]
    | none =>
      have hres : out.result = none := hf.result
      obtain ⟨rfl, hzero⟩ := hf.nothing rfl
      obtain ⟨-, rfl⟩ := hf.shape.drained (hzero rfl)
      exact ⟨false, ⟨out.cursor, out.replies⟩, [], [], by simp [hf.error, hres],
        ⟨rfl, hf.replies, hf.shape, hf.conserved,
        fun _ => hf.conserved.symm, nofun⟩, nofun, fun _ => hzero rfl⟩

/-- Every call of a cursor in one of the shapes comes back with what it owes. -/
theorem call_answered (m : Method) (hmap : env.transform = none) (hs : Shape r.cursor buffer h)
    (hr : r.replies = h.replies) :
    ∃ a r' items buffer' h', AbstractCursor.call env r m = some (a, r') ∧
      Answered m buffer h a r' items buffer' h' := by
  cases m with
  | next => exact fetch_answered .next true hmap hs hr (.inl ⟨rfl, rfl⟩)
  | tryNext => exact fetch_answered .tryNext false hmap hs hr (.inr rfl)
  | hasNext =>
    obtain ⟨b, r', buffer', h', hcall, ha, -⟩ := hasNext_answered hmap hs hr
    exact ⟨.bool b, r', [], buffer', h', hcall, ha⟩

/-- A cursor with a document in its buffer returns one. -/
theorem call_next_buffered {d : δ} {ds : List δ} (hmap : env.transform = none) (hs : Shape r.cursor (d :: ds) h) :
    ∃ r', AbstractCursor.call env r .next = some (.item (.document d), r') := by
  have hopen : r.cursor.closed = false ∧ r.cursor.id ≠ some .zero := by
    cases hs with
    | live hid _ hopen _ _ => exact ⟨hopen, by rw [hid]; exact nofun⟩
    | dead hid hopen _ => exact ⟨hopen, by rw [hid]; exact nofun⟩
  refine ⟨⟨{ r.cursor with documents := ds.map .document }, r.replies⟩, ?_⟩
  unfold AbstractCursor.call AbstractCursor.fetch
  rw [if_neg hopen.2, next_buffered true r.replies hmap hopen.1 hs.documents]
  rfl

theorem call_next_exhausted (env : CursorEnv δ τ) (hid : r.cursor.id = some .zero) :
    AbstractCursor.call env r .next = some (.error cursorExhausted, r) := if_pos hid

end Calls

/-! ## Runs -/

/-- A call, with the answers so far. -/
def step (env : CursorEnv δ τ) (s : Reading δ τ × List (Answer δ τ)) (m : Method) :
    Option (Reading δ τ × List (Answer δ τ)) :=
  (AbstractCursor.call env s.1 m).map fun out => (out.2, s.2 ++ [out.1])

/-- A new cursor on a history. -/
def Reading.new (session : Option CursorSession) (h : History δ) : Reading δ τ := ⟨{ session }, h.replies⟩

/-- The documents of a history as a cursor returns them. -/
def History.items (h : History δ) : List (Item δ τ) := h.documents.map .document

/-- What was returned, what is buffered and what is to come make up the history. -/
def Kept (h₀ : History δ) (s : Reading δ τ × List (Answer δ τ)) : Prop :=
  ∃ buffer h, Shape s.1.cursor buffer h ∧ s.1.replies = h.replies ∧
    returned s.2 ++ (buffer ++ h.documents).map .document = h₀.items

/-- What a run delivers: an answer to every call; the documents in order and each once, and all of them
after enough calls of `next`; whatever call comes now reports the end only when all were returned; and
`hasNext` now says yes exactly when the `next` after it returns a document. -/
structure Delivered (env : CursorEnv δ τ) (h₀ : History δ) (calls : List Method) (r : Reading δ τ)
    (answers : List (Answer δ τ)) : Prop where
  answered : answers.length = calls.length
  inOrder : returned answers <+: h₀.items
  complete : h₀.documents.length < calls.count .next → returned answers = h₀.items
  ends : ∀ m a r', AbstractCursor.call env r m = some (a, r') → IsEnd m a → returned answers = h₀.items
  peek : ∃ b r', AbstractCursor.call env r .hasNext = some (.bool b, r') ∧
    ∃ a r'', AbstractCursor.call env r' .next = some (a, r'') ∧ (b = true ↔ ∃ item, a = .item item)

section Runs

variable {env : CursorEnv δ τ} {h₀ : History δ} {s : Reading δ τ × List (Answer δ τ)}

theorem returned_append (answers : List (Answer δ τ)) (a : Answer δ τ) :
    returned (answers ++ [a]) = returned answers ++ returned [a] := List.filterMap_append

theorem Kept.inOrder (hk : Kept h₀ s) : returned s.2 <+: h₀.items := by
  obtain ⟨buffer, h, -, -, hall⟩ := hk
  exact ⟨_, hall⟩

/-- One call: it comes back, it keeps the history, it reports the end only after everything was
returned, and `next` returns a document until then. -/
theorem call_kept (m : Method) (hmap : env.transform = none) (hk : Kept h₀ s) :
    ∃ a r', AbstractCursor.call env s.1 m = some (a, r') ∧ Kept h₀ (r', s.2 ++ [a]) ∧
      (IsEnd m a → returned s.2 = h₀.items) ∧
      (m = .next → (returned [a]).length = 1 ∨ returned s.2 = h₀.items) := by
  obtain ⟨buffer, h, hs, hr, hall⟩ := hk
  obtain ⟨a, r', items, buffer', h', hcall, ha⟩ := call_answered m hmap hs hr
  have hend : IsEnd m a → returned s.2 = h₀.items := by
    intro he
    rw [← hall, ha.ends he, List.map_nil, List.append_nil]
  refine ⟨a, r', hcall, ⟨buffer', h', ha.shape, ha.replies, ?_⟩, hend, ?_⟩
  · rw [returned_append, ha.answer, ← hall, ← ha.conserved]
    simp
  · intro hm
    rcases ha.progress hm with hone | he
    · exact .inl (by rw [ha.answer, List.length_map, hone])
    · exact .inr (hend he)

/-- A run: every call comes back, the history is kept, and each `next` has returned a document or
everything was returned. -/
theorem exec_kept (hmap : env.transform = none) : ∀ (calls : List Method) {s : Reading δ τ × List (Answer δ τ)},
    Kept h₀ s → ∃ t, Run.exec (step env) s calls = some t ∧ Kept h₀ t ∧ t.2.length = s.2.length + calls.length ∧
      (returned s.2).length ≤ (returned t.2).length ∧
      (returned t.2 = h₀.items ∨ (returned s.2).length + calls.count .next ≤ (returned t.2).length)
  | [], s, hk => ⟨s, rfl, hk, rfl, Nat.le_refl _, .inr (Nat.le_refl _)⟩
  | m :: calls, s, hk => by
    obtain ⟨a, r', hcall, hk', -, hnext⟩ := call_kept m hmap hk
    obtain ⟨t, hrun, hkt, hlen, hgrow, hcount⟩ := exec_kept hmap calls hk'
    have hstep : step env s m = some (r', s.2 ++ [a]) := by unfold step; rw [hcall]; rfl
    have hret : (returned (s.2 ++ [a])).length = (returned s.2).length + (returned [a]).length := by
      rw [returned_append, List.length_append]
    simp only [hret, List.length_append, List.length_singleton] at hlen hgrow hcount
    refine ⟨t, (Run.exec_cons _).2 ⟨_, hstep, hrun⟩, hkt, ?_, by omega, ?_⟩
    · rw [hlen, List.length_cons]; omega
    rcases hcount with hall | hcount
    · exact .inl hall
    by_cases hm : m = .next
    · rcases hnext hm with hone | hall
      · refine .inr ?_
        rw [List.count_cons, if_pos (by simp [hm])]
        omega
      · -- nothing can come after everything
        refine .inl (hkt.inOrder.eq_of_length_le ?_)
        rw [← hall]; omega
    · refine .inr ?_
      rw [List.count_cons, if_neg (by simpa using hm)]
      omega

end Runs

/-- For every history that ends in a zero id, every session and every sequence of calls on a cursor
without a transform: each call comes back, and the run delivers the documents of the history. -/
theorem cursor_delivers (env : CursorEnv δ τ) (hmap : env.transform = none) (session : Option CursorSession)
    (h₀ : History δ) (hh : EndsInZero h₀) (calls : List Method) :
    ∃ r answers, Run.exec (step env) (Reading.new session h₀, []) calls = some (r, answers) ∧
      Delivered env h₀ calls r answers := by
  have hinit : Kept h₀ ((Reading.new session h₀, []) : Reading δ τ × List (Answer δ τ)) :=
    ⟨[], h₀, .unopened rfl rfl rfl hh, rfl, rfl⟩
  obtain ⟨⟨r, answers⟩, hrun, hk, hlen, -, hcount⟩ := exec_kept hmap calls hinit
  refine ⟨r, answers, hrun, by simpa using hlen, hk.inOrder, ?_, ?_, ?_⟩
  · intro hmany
    rcases hcount with hall | hcount
    · exact hall
    · have hle := hk.inOrder.length_le
      simp only [History.items, List.length_map] at hle
      simp only [returned, List.filterMap_nil, List.length_nil] at hcount
      simp only [returned] at hle
      omega
  · intro m a r' hcall he
    obtain ⟨a', r₁, hcall', -, hend, -⟩ := call_kept m hmap hk
    obtain ⟨rfl, rfl⟩ := Prod.mk.inj (Option.some.inj (hcall.symm.trans hcall'))
    exact hend he
  · obtain ⟨buffer, h, hs, hr, -⟩ := hk
    obtain ⟨b, r', buffer', h', hcall, ha, hyes, hno⟩ := hasNext_answered hmap hs hr
    refine ⟨b, r', hcall, ?_⟩
    cases b with
    | true =>
      obtain ⟨d, ds, rfl⟩ := List.exists_cons_of_ne_nil (hyes rfl)
      obtain ⟨r'', hnext⟩ := call_next_buffered hmap ha.shape
      exact ⟨_, r'', hnext, iff_of_true rfl ⟨_, rfl⟩⟩
    | false =>
      refine ⟨_, r', call_next_exhausted env (hno rfl), iff_of_false nofun ?_⟩
      rintro ⟨item, hitem⟩
      cases hitem

/-- A first batch, an empty one and a last one, read in turns. -/
theorem cursor_delivers_three_batches :
    EndsInZero [(7, [1, 2]), (7, []), (0, [3])] ∧
      ∃ r answers, Run.exec (step ({ truthy := fun _ => true } : CursorEnv Nat Unit))
          (Reading.new none [(7, [1, 2]), (7, []), (0, [3])], []) [.hasNext, .next, .tryNext, .tryNext, .next, .next] =
          some (r, answers) ∧
        Delivered { truthy := fun _ => true } [(7, [1, 2]), (7, []), (0, [3])]
          [.hasNext, .next, .tryNext, .tryNext, .next, .next] r answers := by
  have hends : EndsInZero [(7, [1, 2]), (7, []), (0, [3])] := ⟨by decide, by decide, rfl⟩
  exact ⟨hends, cursor_delivers _ rfl none _ hends _⟩

end MongoDriver.Cursor
