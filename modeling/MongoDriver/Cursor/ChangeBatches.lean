/-
The batches of a change stream as its cursor takes them. A resume token stands for a place in the history of
batches: the number of changes before it. A read that comes back took some batches off the history, of which
only the last has changes, and it asks the server for a batch only with an empty buffer.
-/
import MongoDriver.Cursor.ChangeStream
import MongoDriver.Cursor.Delivery

namespace MongoDriver.Cursor

variable {τ : Type}

/-! ## Places in a history -/

/-- The changes of a history of batches. -/
def changes (h : List (Batch τ)) : List (Change τ) := h.flatMap (·.changes)

/-- The token stands for the place after the first `n` changes of the history: it is the one the stream began
with, the `_id` of the last of them, or the `postBatchResumeToken` of a batch that ends there. -/
inductive PointsAt (t₀ : Option τ) (h : List (Batch τ)) : Option τ → Nat → Prop
  | start : PointsAt t₀ h t₀ 0
  | change {pre post : List (Change τ)} {c : Change τ} {t : τ} (history : changes h = pre ++ c :: post)
      (id : c.id = some t) : PointsAt t₀ h (some t) (pre.length + 1)
  | batch {pre post : List (Batch τ)} {b : Batch τ} {t : τ} (history : h = pre ++ b :: post)
      (token : b.postBatchResumeToken = some t) : PointsAt t₀ h (some t) (changes (pre ++ [b])).length

/-- No token stands for two places. -/
def OnePlace (t₀ : Option τ) (h : List (Batch τ)) : Prop :=
  ∀ t m n, PointsAt t₀ h t m → PointsAt t₀ h t n → m = n

@[simp] theorem changes_nil : changes ([] : List (Batch τ)) = [] := rfl

@[simp] theorem changes_cons (b : Batch τ) (h : List (Batch τ)) : changes (b :: h) = b.changes ++ changes h := by
  simp [changes]

@[simp] theorem changes_append (h h' : List (Batch τ)) : changes (h ++ h') = changes h ++ changes h' := by
  simp [changes]

/-- The last token that came with a batch. -/
def latestToken (h : List (Batch τ)) : Option τ := h.foldl (fun t b => b.postBatchResumeToken <|> t) none

@[simp] theorem latestToken_concat (h : List (Batch τ)) (b : Batch τ) :
    latestToken (h ++ [b]) = (b.postBatchResumeToken <|> latestToken h) := by
  simp [latestToken]

/-- The last token is that of a batch, after which none had one. -/
theorem latestToken_some {h : List (Batch τ)} {t : τ} (ht : latestToken h = some t) :
    ∃ pre b post, h = pre ++ b :: post ∧ b.postBatchResumeToken = some t ∧
      ∀ b' ∈ post, b'.postBatchResumeToken = none := by
  induction h using List.reverseRecOn with
  | nil => cases ht
  | append_singleton h b ih =>
    rw [latestToken_concat] at ht
    cases hb : b.postBatchResumeToken with
    | some u =>
      rw [hb] at ht
      cases ht
      exact ⟨h, b, [], rfl, hb, nofun⟩
    | none =>
      rw [hb] at ht
      obtain ⟨pre, b', post, rfl, hb', hpost⟩ := ih ht
      refine ⟨pre, b', post ++ [b], by simp, hb', fun x hx => ?_⟩
      rcases List.mem_append.1 hx with hx | hx
      · exact hpost x hx
      · rw [List.mem_singleton.1 hx, hb]

theorem latestToken_none {h : List (Batch τ)} (ht : latestToken h = none) :
    ∀ b ∈ h, b.postBatchResumeToken = none := by
  induction h using List.reverseRecOn with
  | nil => nofun
  | append_singleton h b ih =>
    rw [latestToken_concat] at ht
    cases hb : b.postBatchResumeToken with
    | some u => rw [hb] at ht; cases ht
    | none =>
      rw [hb] at ht
      intro x hx
      rcases List.mem_append.1 hx with hx | hx
      · exact ih ht x hx
      · rw [List.mem_singleton.1 hx, hb]

/-! ## The shapes of a cursor -/

/-- What the cursor of a change stream can be when it buffers `buffer`. -/
inductive Stage (c : AbstractCursor (Change τ) Empty) : (buffer : List (Change τ)) → Prop
  | unopened (id : c.id = none) (closed : c.closed = false) (documents : c.documents = []) : Stage c []
  | live {buffer : List (Change τ)} {value : Int} (id : c.id = some (.decoded value)) (nonzero : value ≠ 0)
      (closed : c.closed = false) (documents : c.documents = buffer.map .document) : Stage c buffer
  | dead {buffer : List (Change τ)} (id : c.id = some (.decoded 0)) (closed : c.closed = false)
      (documents : c.documents = buffer.map .document) : Stage c buffer
  | closed (id : c.id = some .zero) (closed : c.closed = true) (documents : c.documents = []) : Stage c []

theorem Shape.stage {c : AbstractCursor (Change τ) Empty} {buffer : List (Change τ)} (hs : Shape c buffer []) :
    Stage c buffer := by
  cases hs with
  | unopened _ _ _ hh => exact hh.elim
  | live _ _ _ _ hh => exact hh.elim
  | dead hid hopen hdocs => exact .dead hid hopen hdocs
  | closed hid hclosed hdocs => exact .closed hid hclosed hdocs

/-! ## What a read finds -/

/-- The change a cursor buffers. -/
def Item.change : Item (Change τ) Empty → Change τ
  | .document change => change
  | .mapped value => value.elim

/-- The changes a cursor hands out of its replies: none after the one with the zero cursor id. -/
def handed : List (Batch τ) → List (Change τ)
  | [] => []
  | b :: rest => b.changes ++ if b.cursorId = 0 then [] else handed rest

/-- The cursor asks the server for more. -/
def AbstractCursor.asks (c : AbstractCursor (Change τ) Empty) : Bool := !c.closed && !cursorIsDead c

/-- The changes a cursor is still to hand out. -/
def upcoming (c : AbstractCursor (Change τ) Empty) (batches : List (Batch τ)) : List (Change τ) :=
  c.documents.map Item.change ++ if c.asks then handed batches else []

/-- The batches that a read takes at most when it does not block: the next one, and from a cursor that is not
yet open also the one after it. -/
def inReach (c : AbstractCursor (Change τ) Empty) (batches : List (Batch τ)) : List (Batch τ) :=
  if c.asks then
    match c.id, batches with
    | none, b :: rest => if b.cursorId = 0 then [b] else b :: rest.take 1
    | _, batches => batches.take 1
  else []

/-- A read that does not block finds nothing. -/
def Idle (c : AbstractCursor (Change τ) Empty) (batches : List (Batch τ)) : Prop :=
  c.documents = [] ∧ changes (inReach c batches) = []

/-! ## Fetching -/

/-- What a fetch owes: it takes batches off the history, of which only the last has changes, and none while it has
a buffer; what it returns and buffers is what there was and what it took. -/
structure Fetches (blocking : Bool) (c : AbstractCursor (Change τ) Empty) (buffer : List (Change τ))
    (batches : List (Batch τ)) (out : Returned (Change τ) Empty) (doc : Option (Change τ)) (buffer' : List (Change τ))
    (took rest : List (Batch τ)) : Prop where
  error : out.error = none
  result : out.result = doc.map .document
  split : batches = took ++ rest
  replies : out.replies = rest.map Batch.reply
  stage : Stage out.cursor buffer'
  conserved : buffer ++ changes took = doc.toList ++ buffer'
  early : changes took.dropLast = []
  buffered : buffer ≠ [] → took = []
  nothing : doc = none → buffer' = []
  putBack : ∀ d, doc = some d →
    Stage ({ out.cursor with documents := (d :: buffer').map .document } :
      AbstractCursor (Change τ) Empty) (d :: buffer')
  ahead : blocking = true → doc = (upcoming c batches).head?
  idle : blocking = false → (doc = none ↔ Idle c batches)

section Fetch

variable {env : CursorEnv (Change τ) Empty} {blocking : Bool} {c : AbstractCursor (Change τ) Empty}
  {buffer : List (Change τ)} {batches : List (Batch τ)} {out : Returned (Change τ) Empty}

theorem Stage.documents (hs : Stage c buffer) : c.documents = buffer.map .document := by
  cases hs with
  | unopened _ _ hdocs => exact hdocs
  | live _ _ _ hdocs => exact hdocs
  | dead _ _ hdocs => exact hdocs
  | closed _ _ hdocs => exact hdocs

/-- A cursor that has something buffered can buffer anything. -/
theorem Stage.refill {d : Change τ} {ds items : List (Change τ)} (hs : Stage c (d :: ds)) :
    Stage ({ c with documents := items.map .document } : AbstractCursor (Change τ) Empty) items := by
  cases hs with
  | live hid hne hopen _ => exact .live hid hne hopen rfl
  | dead hid hopen _ => exact .dead hid hopen rfl

theorem Stage.open {d : Change τ} {ds : List (Change τ)} (hs : Stage c (d :: ds)) : c.closed = false := by
  cases hs with
  | live _ _ hopen _ => exact hopen
  | dead _ hopen _ => exact hopen

@[simp] theorem map_change_document (items : List (Change τ)) :
    (items.map (Item.document (τ := Empty))).map Item.change = items := by
  rw [List.map_map]
  exact List.map_id'' (fun _ => rfl) items

/-- The next change of the buffer. -/
theorem fetches_buffered {d : Change τ} {ds : List (Change τ)} (hs : Stage c (d :: ds)) (batches : List (Batch τ)) :
    Fetches blocking c (d :: ds) batches
      { result := some (.document d), cursor := { c with documents := ds.map .document },
        replies := batches.map Batch.reply } (some d) ds [] batches where
  error := rfl
  result := rfl
  split := rfl
  replies := rfl
  stage := hs.refill
  conserved := by simp
  early := rfl
  buffered _ := rfl
  nothing := nofun
  putBack d' hd := by cases hd; exact hs.refill
  ahead _ := by simp [upcoming, hs.documents, Item.change]
  idle _ := by simp [Idle, hs.documents]

/-- The last batch has come. -/
theorem fetches_last {b : Batch τ} {rest : List (Batch τ)} (c₁ : AbstractCursor (Change τ) Empty)
    (hmap : env.transform = none) (hid : c₁.id = some (.decoded 0)) (hopen : c₁.closed = false)
    (hdocs : c₁.documents = b.changes.map .document) (hb : b.cursorId = 0) (hempty : c.documents = [])
    (hasks : c.asks = true) :
    ∃ doc buffer', Fetches blocking c [] (b :: rest) (finish env c₁ none (rest.map Batch.reply)) doc
      buffer' [b] rest := by
  have hstage := (cleanupCursor_dead env hid hopen hdocs).1.stage
  have hbuf := hstage.documents
  have hup : upcoming c (b :: rest) = b.changes := by simp [upcoming, hempty, hasks, handed, hb]
  have hreach : changes (inReach c (b :: rest)) = b.changes := by
    unfold inReach
    rw [if_pos hasks]
    cases c.id <;> simp [hb]
  unfold finish
  cases hc : b.changes with
  | nil =>
    rw [hc] at hbuf hstage
    rw [nextDocument_nil hbuf]
    refine ⟨none, [], ⟨rfl, rfl, rfl, rfl, hstage, by simp [hc], rfl, nofun, fun _ => rfl, nofun, ?_, ?_⟩⟩
    · intro _; rw [hup, hc]; rfl
    · intro _; simp [Idle, hempty, hreach, hc]
  | cons d ds =>
    rw [hc] at hbuf hstage
    rw [nextDocument_cons hmap hbuf]
    refine ⟨some d, ds, ⟨rfl, rfl, rfl, rfl, hstage.refill, by simp [hc], rfl, nofun, nofun, ?_, ?_, ?_⟩⟩
    · intro d' hd; cases hd; exact hstage.refill
    · intro _; rw [hup, hc]; rfl
    · intro _; simp [Idle, hempty, hreach, hc]

/-- A batch has come to an empty buffer, and the cursor `c₁` that holds it fetches on. -/
theorem fetches_more {b : Batch τ} {took rest rest' : List (Batch τ)} {doc : Option (Change τ)}
    {buffer' : List (Change τ)} {c₁ : AbstractCursor (Change τ) Empty}
    (hf : Fetches blocking c₁ b.changes rest out doc buffer' took rest') (hid : c₁.id = some (.decoded b.cursorId))
    (hne : b.cursorId ≠ 0) (hopen : c₁.closed = false) (hdocs : c₁.documents = b.changes.map .document)
    (hempty : c.documents = []) (hasks : c.asks = true)
    (hstop : blocking = true ∨ c.id = none ∨ c.id.isSome ∧ b.changes ≠ []) :
    Fetches blocking c [] (b :: rest) out doc buffer' (b :: took) rest' := by
  have hasks₁ : c₁.asks = true := by simp [AbstractCursor.asks, hopen, cursorIsDead, hid, CursorId.isZero, hne]
  have hup : upcoming c (b :: rest) = upcoming c₁ rest := by
    rw [upcoming, upcoming, if_pos hasks, if_pos hasks₁, hempty, hdocs, map_change_document, handed, if_neg hne]
    rfl
  refine ⟨hf.error, hf.result, by rw [hf.split]; rfl, hf.replies, hf.stage, ?_, ?_,
    fun h => absurd rfl h, hf.nothing, hf.putBack, ?_, ?_⟩
  · rw [List.nil_append, changes_cons, hf.conserved]
  · cases htook : took with
    | nil => rfl
    | cons b' bs =>
      -- only a cursor without a buffer takes a further batch
      have hnil : b.changes = [] := by
        by_contra hb
        rw [hf.buffered hb] at htook
        cases htook
      have hearly := hf.early
      rw [htook] at hearly
      rw [List.dropLast_cons_cons, changes_cons, hnil, hearly, List.append_nil]
  · intro hb
    rw [hup]
    exact hf.ahead hb
  · intro hb
    rw [hf.idle hb]
    have hreach₁ : inReach c₁ rest = rest.take 1 := by simp [inReach, hasks₁, hid]
    rcases hstop with hstop | hnone | ⟨hsome, hchanges⟩
    · rw [hb] at hstop; cases hstop
    · have hreach : inReach c (b :: rest) = b :: rest.take 1 := by simp [inReach, hasks, hnone, hne]
      simp [Idle, hreach, hreach₁, hdocs, hempty]
    · have hreach : inReach c (b :: rest) = [b] := by
        obtain ⟨id, hid'⟩ := Option.isSome_iff_exists.1 hsome
        simp [inReach, hasks, hid']
      simp [Idle, hreach, hdocs, hempty, hchanges]

/-- A read that does not block stops at an empty batch. -/
theorem fetches_empty {b : Batch τ} {rest : List (Batch τ)} {value : Int} {c₁ : AbstractCursor (Change τ) Empty}
    (hid : c.id = some (.decoded value)) (hs : Stage c₁ b.changes) (hb : b.changes = []) (hempty : c.documents = [])
    (hasks : c.asks = true) (hblock : blocking = false) :
    Fetches blocking c [] (b :: rest) { cursor := c₁, replies := rest.map Batch.reply } none [] [b] rest := by
  rw [hb] at hs
  refine ⟨rfl, rfl, rfl, rfl, hs, by simp [hb], rfl, nofun, fun _ => rfl, nofun, ?_, fun _ => ?_⟩
  · intro hb'; rw [hblock] at hb'; cases hb'
  · exact iff_of_true rfl ⟨hempty, by simp [inReach, hasks, hid, hb]⟩

/-- A cursor that has ended has nothing to return. -/
theorem fetches_ended (hs : Stage c []) (hasks : c.asks = false)
    (hout : next env blocking (batches.map Batch.reply) c = some out) :
    Fetches blocking c [] batches out none [] [] batches := by
  have hup : upcoming c batches = [] := by simp [upcoming, hs.documents, hasks]
  have hidle : Idle c batches := ⟨hs.documents, by simp [inReach, hasks]⟩
  have hmk : ∀ c' : AbstractCursor (Change τ) Empty, Stage c' [] →
      Fetches blocking c [] batches { cursor := c', replies := batches.map Batch.reply } none [] [] batches := by
    intro c' hs'
    refine ⟨rfl, rfl, rfl, rfl, hs', rfl, rfl, fun _ => rfl, fun _ => rfl, nofun, fun _ => ?_, fun _ => ?_⟩
    · rw [hup]; rfl
    · exact iff_of_true rfl hidle
  cases hs with
  | unopened hid hopen _ => simp [AbstractCursor.asks, hopen, cursorIsDead, hid] at hasks
  | live hid hne hopen _ => simp [AbstractCursor.asks, hopen, cursorIsDead, hid, CursorId.isZero, hne] at hasks
  | dead hid hopen hdocs =>
    rw [next_dead blocking _ hid hopen hdocs] at hout
    cases hout
    exact hmk _ (cleanupCursor_dead env hid hopen hdocs).1.stage
  | closed hid hclosed hdocs =>
    rw [next_closed blocking _ hclosed] at hout
    cases hout
    exact hmk c (.closed hid hclosed hdocs)

/-- Without a reply the request of a cursor does not come back. -/
theorem next_unanswered (hs : Stage c []) (hasks : c.asks = true) : next env blocking [] c = none := by
  cases hs with
  | unopened hid hopen hdocs => simp [next.eq_def, hopen, hdocs, hid]
  | live hid hne hopen hdocs => simp [next.eq_def, hopen, hdocs, hid, cursorIsDead, CursorId.isZero, hne]
  | dead hid hopen hdocs => simp [AbstractCursor.asks, cursorIsDead, hid, CursorId.isZero] at hasks
  | closed hid hclosed hdocs => simp [AbstractCursor.asks, hclosed] at hasks

/-- A fetch that comes back owes what it owes. -/
theorem next_fetches (hmap : env.transform = none) : ∀ {batches : List (Batch τ)} {c : AbstractCursor (Change τ) Empty}
    {buffer : List (Change τ)}, Stage c buffer → next env blocking (batches.map Batch.reply) c = some out →
      ∃ doc buffer' took rest, Fetches blocking c buffer batches out doc buffer' took rest := by
  intro batches
  -- a request takes one batch off the history
  induction batches with
  | nil =>
    intro c buffer hs hout
    cases buffer with
    | cons d ds =>
      rw [next_buffered blocking _ hmap hs.open hs.documents] at hout
      cases hout
      exact ⟨_, _, _, _, fetches_buffered hs []⟩
    | nil =>
      cases hasks : c.asks with
      | true => rw [List.map_nil, next_unanswered hs hasks] at hout; cases hout
      | false => exact ⟨_, _, _, _, fetches_ended hs hasks hout⟩
  | cons b rest ih =>
    intro c buffer hs hout
    cases buffer with
    | cons d ds =>
      rw [next_buffered blocking _ hmap hs.open hs.documents] at hout
      cases hout
      exact ⟨_, _, _, _, fetches_buffered hs _⟩
    | nil =>
      cases hasks : c.asks with
      | false => exact ⟨_, _, _, _, fetches_ended hs hasks hout⟩
      | true =>
        have hempty : c.documents = [] := hs.documents
        cases hs with
        | dead hid hopen hdocs => simp [AbstractCursor.asks, cursorIsDead, hid, CursorId.isZero] at hasks
        | closed hid hclosed hdocs => simp [AbstractCursor.asks, hclosed] at hasks
        | unopened hid hopen hdocs =>
          rw [List.map_cons, Batch.reply, next_unopened blocking _ hid hopen hdocs] at hout
          have hopen₁ : (startSession env c).closed = false := (startSession_closed c).trans hopen
          split at hout
          · rename_i hzero
            cases hout
            obtain ⟨doc, buffer', hf⟩ := fetches_last (receiveFirst (startSession env c) (.cursor b.cursorId b.changes))
              hmap (by simp [receiveFirst, hzero]) hopen₁ rfl hzero hempty hasks
            exact ⟨doc, buffer', _, _, hf⟩
          · rename_i hne
            have hlive : Stage (receiveFirst (startSession env c) (.cursor b.cursorId b.changes)) b.changes :=
              .live rfl hne hopen₁ rfl
            obtain ⟨doc, buffer', took, rest', hf⟩ := ih hlive hout
            exact ⟨doc, buffer', _, rest', fetches_more hf rfl hne hopen₁ rfl hempty hasks (.inr (.inl hid))⟩
        | live hid hne₀ hopen hdocs =>
          rw [List.map_cons, Batch.reply, next_live blocking _ hid hne₀ hopen hdocs] at hout
          split at hout
          · rename_i hzero
            cases hout
            obtain ⟨doc, buffer', hf⟩ := fetches_last
              { c with documents := b.changes.map .document, id := some (.decoded b.cursorId) }
              hmap (by simp [hzero]) hopen rfl hzero hempty hasks
            exact ⟨doc, buffer', _, _, hf⟩
          · rename_i hne
            have hlive : Stage ({ c with documents := b.changes.map .document, id := some (.decoded b.cursorId) } :
                AbstractCursor (Change τ) Empty) b.changes := .live rfl hne hopen rfl
            split at hout
            · rename_i hstop
              cases hout
              rw [Bool.and_eq_true, List.isEmpty_iff] at hstop
              exact ⟨none, [], [b], rest, fetches_empty hid hlive hstop.1 hempty hasks (by simpa using hstop.2)⟩
            · rename_i hstop
              obtain ⟨doc, buffer', took, rest', hf⟩ := ih hlive hout
              have hgo : blocking = true ∨ c.id = none ∨ c.id.isSome ∧ b.changes ≠ [] := by
                cases blocking with
                | true => exact .inl rfl
                | false => exact .inr (.inr ⟨by simp [hid], fun hb => hstop (by simp [hb])⟩)
              exact ⟨doc, buffer', _, rest', fetches_more hf rfl hne hopen rfl hempty hasks hgo⟩

end Fetch

/-! ## Calls of the cursor -/

/-- The changes among the answers to a call. -/
def Answer.changes : Answer (Change τ) Empty → List (Change τ)
  | .item value => [value.change]
  | _ => []

/-- What a call of the cursor owes. -/
structure Calls (m : Method) (c : AbstractCursor (Change τ) Empty) (buffer : List (Change τ)) (batches : List (Batch τ))
    (answer : Answer (Change τ) Empty) (r : Reading (Change τ) Empty) (buffer' : List (Change τ))
    (took rest : List (Batch τ)) : Prop where
  split : batches = took ++ rest
  replies : r.replies = rest.map Batch.reply
  stage : Stage r.cursor buffer'
  conserved : buffer ++ changes took = answer.changes ++ buffer'
  early : changes took.dropLast = []
  buffered : buffer ≠ [] → took = []
  error : ∀ e, answer = .error e → e = cursorExhausted
  hasNext : m = .hasNext → answer.changes = []
  next : m = .next → answer.changes = (upcoming c batches).head?.toList
  tryNext : m = .tryNext → (answer.changes = [] ↔ Idle c batches)

section Calls

variable {env : CursorEnv (Change τ) Empty} {c : AbstractCursor (Change τ) Empty} {buffer : List (Change τ)}
  {batches : List (Batch τ)} {answer : Answer (Change τ) Empty} {r : Reading (Change τ) Empty}

/-- A cursor that is known to be at its end. -/
theorem Stage.drained (hs : Stage c buffer) (hid : c.id = some .zero) : buffer = [] ∧ c.asks = false := by
  cases hs with
  | unopened hid' _ _ => rw [hid] at hid'; cases hid'
  | live hid' _ _ _ => rw [hid] at hid'; cases hid'
  | dead hid' _ _ => rw [hid] at hid'; cases hid'
  | closed _ hclosed _ => exact ⟨rfl, by simp [AbstractCursor.asks, hclosed]⟩

/-- A call that answers with what it fetched. -/
theorem Fetches.calls {m : Method} {blocking : Bool} {out : Returned (Change τ) Empty} {doc : Option (Change τ)}
    {buffer' : List (Change τ)} {took rest : List (Batch τ)}
    (hf : Fetches blocking c buffer batches out doc buffer' took rest)
    (hm : m = .next ∧ blocking = true ∨ m = .tryNext ∧ blocking = false) (hanswer : answer.changes = doc.toList)
    (herror : ∀ e, answer ≠ .error e) :
    Calls m c buffer batches answer ⟨out.cursor, out.replies⟩ buffer' took rest := by
  refine ⟨hf.split, hf.replies, hf.stage, ?_, hf.early, hf.buffered, fun e he => absurd he (herror e), ?_, ?_, ?_⟩
  · rw [hanswer]
    exact hf.conserved
  · rintro rfl
    rcases hm with ⟨h, -⟩ | ⟨h, -⟩
    · cases h
    · cases h
  · rintro rfl
    obtain ⟨-, hb⟩ | ⟨h, -⟩ := hm
    · rw [hanswer, hf.ahead hb]
    · cases h
  · rintro rfl
    obtain ⟨h, -⟩ | ⟨-, hb⟩ := hm
    · cases h
    · rw [hanswer, ← hf.idle hb]
      exact Option.toList_eq_nil_iff

theorem fetch_calls (m : Method) (blocking : Bool) (hmap : env.transform = none) (hs : Stage c buffer)
    (hm : m = .next ∧ blocking = true ∨ m = .tryNext ∧ blocking = false)
    (hcall : AbstractCursor.fetch env blocking ⟨c, batches.map Batch.reply⟩ = some (answer, r)) :
    ∃ buffer' took rest, Calls m c buffer batches answer r buffer' took rest := by
  unfold AbstractCursor.fetch at hcall
  by_cases hid : c.id = some .zero
  · obtain ⟨rfl, hasks⟩ := hs.drained hid
    rw [if_pos hid] at hcall
    cases hcall
    have hup : upcoming c batches = [] := by simp [upcoming, hs.documents, hasks]
    refine ⟨[], [], batches, ⟨rfl, rfl, hs, rfl, rfl, fun _ => rfl, ?_, fun _ => rfl, fun _ => ?_, fun _ => ?_⟩⟩
    · intro e he; cases he; rfl
    · rw [hup]; rfl
    · exact iff_of_true rfl ⟨hs.documents, by simp [inReach, hasks]⟩
  · rw [if_neg hid, Option.bind_eq_bind, Option.bind_eq_some_iff] at hcall
    obtain ⟨out, hout, hcall⟩ := hcall
    obtain ⟨doc, buffer', took, rest, hf⟩ := next_fetches hmap hs hout
    rw [hf.error, hf.result] at hcall
    cases doc with
    | none =>
      cases hcall
      exact ⟨buffer', took, rest, hf.calls hm (by rfl) (by intro e he; cases he)⟩
    | some d =>
      cases hcall
      exact ⟨buffer', took, rest, hf.calls hm (by rfl) (by intro e he; cases he)⟩

theorem hasNext_calls (hmap : env.transform = none) (hs : Stage c buffer)
    (hcall : AbstractCursor.hasNext env ⟨c, batches.map Batch.reply⟩ = some (answer, r)) :
    ∃ buffer' took rest, Calls .hasNext c buffer batches answer r buffer' took rest := by
  have hsame : ∀ value : Bool, Calls .hasNext c buffer batches (.bool value) ⟨c, batches.map Batch.reply⟩ buffer []
      batches := fun _ =>
    ⟨rfl, rfl, hs, by simp [Answer.changes], rfl, fun _ => rfl, fun e he => (by cases he), fun _ => rfl,
      fun h => (by cases h), fun h => (by cases h)⟩
  unfold AbstractCursor.hasNext at hcall
  split at hcall
  · cases hcall
    exact ⟨_, _, _, hsame false⟩
  · split at hcall
    · cases hcall
      exact ⟨_, _, _, hsame true⟩
    · rw [Option.bind_eq_bind, Option.bind_eq_some_iff] at hcall
      obtain ⟨out, hout, hcall⟩ := hcall
      obtain ⟨doc, buffer', took, rest, hf⟩ := next_fetches hmap hs hout
      rw [hf.error, hf.result] at hcall
      cases doc with
      | none =>
        cases hcall
        exact ⟨buffer', took, rest, hf.split, hf.replies, hf.stage, hf.conserved, hf.early, hf.buffered,
          fun e he => (by cases he), fun _ => rfl, fun h => (by cases h), fun h => (by cases h)⟩
      | some d =>
        -- the change goes back to the front of the buffer
        have hdocs := hf.stage.documents
        simp only [Option.map_some, Item.truthy, if_true, hdocs] at hcall
        cases hcall
        exact ⟨d :: buffer', took, rest, hf.split, hf.replies, hf.putBack d rfl, hf.conserved, hf.early, hf.buffered,
          fun e he => (by cases he), fun _ => rfl, fun h => (by cases h), fun h => (by cases h)⟩

/-- A call of the cursor that comes back owes what it owes. -/
theorem call_calls {m : Method} (hmap : env.transform = none) (hs : Stage c buffer)
    (hcall : AbstractCursor.call env ⟨c, batches.map Batch.reply⟩ m = some (answer, r)) :
    ∃ buffer' took rest, Calls m c buffer batches answer r buffer' took rest := by
  cases m with
  | next => exact fetch_calls .next true hmap hs (.inl ⟨rfl, rfl⟩) hcall
  | tryNext => exact fetch_calls .tryNext false hmap hs (.inr ⟨rfl, rfl⟩) hcall
  | hasNext => exact hasNext_calls hmap hs hcall

end Calls

end MongoDriver.Cursor
