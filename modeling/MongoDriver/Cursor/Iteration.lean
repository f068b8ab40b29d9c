/-
The methods that take whole batches off a cursor (`forEach` and `toArray` of `src/cursor/abstract_cursor.ts`). Both get
a document from the internal `next`, which has been transformed, and then the rest of the batch from the buffer, which
they transform themselves. A transform changes what is returned and never the cursor, so that a cursor with one goes
through the states of the cursor without it.
-/
import MongoDriver.Cursor.Delivery

namespace MongoDriver.Cursor

variable {δ τ : Type}

/-! ## The methods -/

/-- The transform applied to a buffered value, alone or at its place in an array; it may come to nothing. -/
def CursorEnv.apply (env : CursorEnv δ τ) (item : Item δ τ) (place : Option (Nat × List (Item δ τ)) := none) :
    Option (Item δ τ) :=
  match env.transform with
  | some transform => (transform item place).map .mapped
  | none => some item

/-- `items.map(transform)`: the transform is passed the index and the array. -/
def CursorEnv.mapArray (env : CursorEnv δ τ) (items : List (Item δ τ)) : List (Option (Item δ τ)) :=
  items.mapIdx fun i item => env.apply item (some (i, items))

/-- What the iterator of `forEach` does with a value: it returns, returns `false` or throws. -/
inductive Verdict
  | proceed
  | stop
  | throw (error : AnyError)
deriving DecidableEq

/-- The error of the iterator. -/
def Verdict.error : Verdict → Option AnyError
  | .throw error => some error
  | _ => none

/-- An iterator, which may go by the values that it was passed before. -/
abbrev Iterator (δ τ : Type) := List (Option (Item δ τ)) → Option (Item δ τ) → Verdict

/-- What `forEach` leaves when it calls back: the values that were passed, and the cursor. -/
structure Iterated (δ τ : Type) where
  error : Option AnyError := none
  passed : List (Option (Item δ τ))
  reading : Reading δ τ

/-- The values of a batch are passed until the iterator stops. -/
def iterateBatch (iterator : Iterator δ τ) :
    List (Option (Item δ τ)) → List (Option (Item δ τ)) → List (Option (Item δ τ)) × Verdict
  | [], passed => (passed, .proceed)
  | value :: values, passed =>
    if iterator passed value = .proceed then iterateBatch iterator values (passed ++ [value])
    else (passed ++ [value], iterator passed value)

/-- The loop of `forEach` and of `toArray`, with at most `fuel` fetches: what the callback makes of a fetch is the end of
the loop, or what it goes on with. -/
def fetchDocs {σ ρ : Type} (env : CursorEnv δ τ) (callback : σ → Returned δ τ → ρ ⊕ (σ × Reading δ τ)) :
    Nat → σ → Reading δ τ → Option ρ
  | 0, _, _ => none
  | fuel + 1, s, r => do
    let out ← Cursor.next env true r.replies r.cursor
    match callback s out with
    | .inl done => some done
    | .inr (s, r) => fetchDocs env callback fuel s r

/-- The callback of `forEach`. -/
def forEachCallback (env : CursorEnv δ τ) (iterator : Iterator δ τ) (passed : List (Option (Item δ τ)))
    (out : Returned δ τ) : Iterated δ τ ⊕ (List (Option (Item δ τ)) × Reading δ τ) :=
  let reading : Reading δ τ := ⟨out.cursor, out.replies⟩
  match out.error, out.result with
  | some error, _ => .inl { error, passed, reading }
  | none, none => .inl { passed, reading }
  | none, some doc =>
    match iterator passed (some doc) with
    | .throw error => .inl { error, passed := passed ++ [some doc], reading }
    | .stop => .inl { passed := passed ++ [some doc], reading }
    | .proceed =>
      let internalDocs := out.cursor.documents.map (env.apply ·)
      -- the rest of the batch is out of the buffer before it is passed
      let reading : Reading δ τ := ⟨{ out.cursor with documents := [] }, out.replies⟩
      match iterateBatch iterator internalDocs (passed ++ [some doc]) with
      | (passed, .throw error) => .inl { error, passed, reading }
      | (passed, .stop) => .inl { passed, reading }
      | (passed, .proceed) => .inr (passed, reading)

/-- `forEach`, when `passed` have been passed. -/
def AbstractCursor.forEach (env : CursorEnv δ τ) (iterator : Iterator δ τ) (fuel : Nat)
    (passed : List (Option (Item δ τ))) (r : Reading δ τ) : Option (Iterated δ τ) :=
  fetchDocs env (forEachCallback env iterator) fuel passed r

/-- The callback of `toArray`. -/
def toArrayCallback (env : CursorEnv δ τ) (docs : List (Option (Item δ τ))) (out : Returned δ τ) :
    (Except AnyError (List (Option (Item δ τ))) × Reading δ τ) ⊕ (List (Option (Item δ τ)) × Reading δ τ) :=
  match out.error, out.result with
  | some error, _ => .inl (.error error, ⟨out.cursor, out.replies⟩)
  | none, none => .inl (.ok docs, ⟨out.cursor, out.replies⟩)
  | none, some doc =>
    let internalDocs := env.mapArray out.cursor.documents
    .inr (docs ++ [some doc] ++ internalDocs, ⟨{ out.cursor with documents := [] }, out.replies⟩)

/-- `toArray`, when there are `docs` in the array. -/
def AbstractCursor.toArray (env : CursorEnv δ τ) (fuel : Nat) (docs : List (Option (Item δ τ))) (r : Reading δ τ) :
    Option (Except AnyError (List (Option (Item δ τ))) × Reading δ τ) :=
  fetchDocs env (toArrayCallback env) fuel docs r

/-! ## Transforms -/

/-- The transform never comes to nothing: applying it to a value alone is `f`. -/
def CursorEnv.Maps (env : CursorEnv δ τ) (f : Item δ τ → Item δ τ) : Prop := ∀ item, env.apply item = some (f item)

/-- The same without the transform. -/
def CursorEnv.plain (env : CursorEnv δ τ) : CursorEnv δ τ := { env with transform := none }

/-- The result transformed. -/
def Returned.mapped (f : Item δ τ → Item δ τ) (out : Returned δ τ) : Returned δ τ :=
  { out with result := out.result.map f }

section Transform

variable {env : CursorEnv δ τ} {f : Item δ τ → Item δ τ}

theorem nextDocument_maps (hf : env.Maps f) (c : AbstractCursor δ τ) :
    nextDocument env c = ((nextDocument env.plain c).1.map f, (nextDocument env.plain c).2) := by
  unfold nextDocument
  cases hdocs : c.documents with
  | nil => rfl
  | cons doc rest =>
    have happly := hf doc
    unfold CursorEnv.apply at happly
    have htruthy : doc.truthy env.plain = doc.truthy env := by cases doc <;> rfl
    simp only [htruthy]
    by_cases ht : doc.truthy env = true
    · simp only [if_pos ht]
      cases htransform : env.transform with
      | none =>
        rw [htransform] at happly
        simp only [Option.some.injEq] at happly
        simp [CursorEnv.plain, ← happly]
      | some transform =>
        rw [htransform] at happly
        simp only at happly
        simp [CursorEnv.plain, happly]
    · simp only [if_neg ht]
      rfl

theorem finish_maps (hf : env.Maps f) (c : AbstractCursor δ τ) (error : Option AnyError) (replies : Replies δ) :
    finish env c error replies = (finish env.plain c error replies).mapped f := by
  unfold finish
  rw [nextDocument_maps hf]
  rfl

/-- The buffer is what a fetch looks at first. -/
theorem next_maps_buffered (hf : env.Maps f) (blocking : Bool) (replies : Replies δ) (c : AbstractCursor δ τ)
    (h : c.closed = true ∨ c.documents.isEmpty = false) :
    next env blocking replies c = (next env.plain blocking replies c).map (·.mapped f) := by
  unfold next
  by_cases hclosed : c.closed = true
  · simp only [if_pos hclosed]
    rfl
  · have hdocs : (!c.documents.isEmpty) = true := by simp [h.resolve_left hclosed]
    simp only [if_neg hclosed, if_pos hdocs, nextDocument_maps hf]
    rfl

/-- The transform changes what a fetch returns and nothing else. -/
theorem next_maps (hf : env.Maps f) (blocking : Bool) (replies : Replies δ) (c : AbstractCursor δ τ) :
    next env blocking replies c = (next env.plain blocking replies c).map (·.mapped f) := by
  induction replies generalizing c with
  | nil =>
    by_cases h : c.closed = true ∨ c.documents.isEmpty = false
    · exact next_maps_buffered hf blocking [] c h
    obtain ⟨hopen, hdocs⟩ := not_or.1 h
    have hdocs : ¬ (!c.documents.isEmpty) = true := by simpa using hdocs
    unfold next
    simp only [if_neg hopen, if_neg hdocs]
    cases c.id with
    | none => rfl
    | some id =>
      dsimp only
      by_cases hdead : cursorIsDead c = true
      · rw [if_pos hdead, if_pos hdead]
        rfl
      · rw [if_neg hdead, if_neg hdead]
        rfl
  | cons reply rest ih =>
    by_cases h : c.closed = true ∨ c.documents.isEmpty = false
    · exact next_maps_buffered hf blocking _ c h
    obtain ⟨hopen, hdocs⟩ := not_or.1 h
    have hdocs : ¬ (!c.documents.isEmpty) = true := by simpa using hdocs
    unfold next
    simp only [if_neg hopen, if_neg hdocs]
    cases hid : c.id with
    | none =>
      have hstart : startSession env.plain c = startSession env c := rfl
      cases reply with
      | error e => simp only [hstart, finish_maps hf, Option.map_some]
      | ok reply =>
        simp only [hstart]
        by_cases hdead : cursorIsDead (receiveFirst (startSession env c) reply) = true
        · simp only [if_pos hdead, finish_maps hf, Option.map_some]
        · simp only [if_neg hdead, ih]
    | some id =>
      by_cases hdead : cursorIsDead c = true
      · simp only [if_pos hdead]
        rfl
      simp only [if_neg hdead]
      cases reply with
      | error e => simp only [finish_maps hf, Option.map_some]
      | ok reply =>
        cases reply with
        | other cursorId documents response => rfl
        | cursor value batch =>
          simp only [finish_maps hf, ih]
          split
          · rfl
          · split <;> rfl

end Transform

/-! ## Batches -/

/-- The first batch with a document: the document, the rest of the batch and what comes after it. -/
def History.nextBatch : History δ → Option (δ × List δ × History δ)
  | [] => none
  | (_, []) :: h => History.nextBatch h
  | (_, d :: rest) :: h => some (d, rest, h)

theorem History.nextBatch_none {h : History δ} (hn : h.nextBatch = none) : h.documents = [] := by
  induction h with
  | nil => rfl
  | cons reply h ih =>
    obtain ⟨id, batch⟩ := reply
    cases batch with
    | nil => exact ih hn
    | cons d rest => cases hn

theorem History.nextBatch_some {h h' : History δ} {d : δ} {rest : List δ} (hn : h.nextBatch = some (d, rest, h')) :
    h.documents = d :: (rest ++ h'.documents) := by
  induction h with
  | nil => cases hn
  | cons reply h ih =>
    obtain ⟨id, batch⟩ := reply
    cases batch with
    | nil => exact ih hn
    | cons d' rest' =>
      cases hn
      rfl

/-- What a blocking fetch with an empty buffer owes: the first document that is to come, and the rest of its batch in
the buffer; or nothing, from a closed cursor. -/
structure Batched (h : History δ) (out : Returned δ τ) : Prop where
  error : out.error = none
  nothing : h.nextBatch = none → out.result = none ∧ out.replies = [] ∧ Shape out.cursor [] []
  batch : ∀ d rest h', h.nextBatch = some (d, rest, h') →
    out.result = some (.document d) ∧ out.replies = h'.replies ∧ Shape out.cursor rest h' ∧
      Shape ({ out.cursor with documents := [] } : AbstractCursor δ τ) [] h'

section Batches

variable {env : CursorEnv δ τ} {c : AbstractCursor δ τ} {h : History δ}

/-- A cursor that has something buffered can have its buffer taken out. -/
theorem Shape.emptied {d : δ} {ds : List δ} (hs : Shape c (d :: ds) h) :
    Shape ({ c with documents := [] } : AbstractCursor δ τ) [] h := by
  cases hs with
  | live hid hne hopen _ hh => exact .live hid hne hopen rfl hh
  | dead hid hopen _ => exact .dead hid hopen rfl

/-- The last batch has come. -/
theorem finish_batched {batch : List δ} (hmap : env.transform = none) (hid : c.id = some (.decoded 0))
    (hopen : c.closed = false) (hdocs : c.documents = batch.map .document) :
    Batched [(0, batch)] (finish env c none []) := by
  obtain ⟨hshape, -⟩ := cleanupCursor_dead env hid hopen hdocs
  have hbuf := hshape.documents
  unfold finish
  cases batch with
  | nil =>
    rw [nextDocument_nil hbuf]
    refine ⟨rfl, fun _ => ⟨rfl, rfl, hshape⟩, ?_⟩
    intro d rest h' hn
    cases hn
  | cons d ds =>
    rw [nextDocument_cons hmap hbuf]
    refine ⟨rfl, fun hn => (by cases hn), ?_⟩
    intro d' rest h' hn
    cases hn
    exact ⟨rfl, rfl, hshape.refill, hshape.emptied⟩

/-- A batch has come, and the buffer was empty. -/
theorem received_batched {id : Int} {batch : List δ} {rest : History δ} (hmap : env.transform = none)
    (hid : c.id = some (.decoded id)) (hopen : c.closed = false) (hdocs : c.documents = batch.map .document)
    (hh : EndsInZero ((id, batch) :: rest))
    (ih : ∀ {c : AbstractCursor δ τ}, Shape c [] rest → ∃ out, next env true rest.replies c = some out ∧
      Batched rest out) :
    ∃ out, (if id = 0 then some (finish env c none rest.replies) else next env true rest.replies c) = some out ∧
      Batched ((id, batch) :: rest) out := by
  by_cases hzero : id = 0
  · subst hzero
    obtain rfl := hh.zero
    exact ⟨_, if_pos rfl, finish_batched hmap hid hopen hdocs⟩
  rw [if_neg hzero]
  cases batch with
  | nil =>
    obtain ⟨out, hout, hb⟩ := ih (.live hid hzero hopen hdocs (hh.nonzero hzero))
    exact ⟨out, hout, hb.error, hb.nothing, hb.batch⟩
  | cons d ds =>
    refine ⟨_, next_buffered true _ hmap hopen hdocs, rfl, fun hn => (by cases hn), ?_⟩
    intro d' rest' h' hn
    cases hn
    exact ⟨rfl, rfl, .live hid hzero hopen rfl (hh.nonzero hzero), .live hid hzero hopen rfl (hh.nonzero hzero)⟩

theorem next_batched (env : CursorEnv δ τ) (hmap : env.transform = none) (h : History δ) :
    ∀ {c : AbstractCursor δ τ}, Shape c [] h → ∃ out, next env true h.replies c = some out ∧ Batched h out := by
  induction h with
  | nil =>
    intro c hs
    obtain ⟨out, doc, buffer', h', hnext, hf⟩ := next_fetched env true hmap [] hs
    have hall : doc = none ∧ buffer' = [] ∧ h'.documents = [] := by simpa [History.documents] using hf.conserved
    obtain ⟨rfl, rfl, -⟩ := hall
    obtain ⟨-, rfl⟩ := hf.shape.drained ((hf.nothing rfl).2 rfl)
    refine ⟨out, hnext, hf.error, fun _ => ⟨hf.result, hf.replies, hf.shape⟩, ?_⟩
    intro d rest h' hn
    cases hn
  | cons reply rest ih =>
    intro c hs
    obtain ⟨id, batch⟩ := reply
    rw [show History.replies ((id, batch) :: rest) = .ok (.cursor id batch) :: History.replies rest from rfl]
    cases hs with
    | unopened hid hopen hdocs hh =>
      rw [next_unopened true _ hid hopen hdocs]
      exact received_batched hmap rfl ((startSession_closed c).trans hopen) rfl hh ih
    | live hid hne hopen hdocs hh =>
      rw [next_live true _ hid hne hopen hdocs]
      simp only [Bool.not_true, Bool.and_false, Bool.false_eq_true, if_false]
      exact received_batched hmap rfl hopen rfl hh ih

end Batches

/-! ## Where an iterator stops -/

namespace Iterator

variable (iterator : Iterator δ τ)

/-- The iterator proceeds at each of the values. -/
def GoesOn : List (Option (Item δ τ)) → List (Option (Item δ τ)) → Prop
  | _, [] => True
  | passed, value :: values => iterator passed value = .proceed ∧ GoesOn (passed ++ [value]) values

/-- The iterator stops at one of the values that is not the last. -/
def StopsAmong : List (Option (Item δ τ)) → List (Option (Item δ τ)) → Prop
  | _, [] => False
  | passed, value :: values =>
    iterator passed value ≠ .proceed ∧ values ≠ [] ∨
      iterator passed value = .proceed ∧ StopsAmong (passed ++ [value]) values

/-- The iterator stops at a value that is neither the first of its batch nor the last. -/
def StopsInside : List (Option (Item δ τ)) → List (List (Option (Item δ τ))) → Prop
  | _, [] => False
  | passed, [] :: batches => StopsInside passed batches
  | passed, (first :: rest) :: batches =>
    iterator passed first = .proceed ∧
      (StopsAmong iterator (passed ++ [first]) rest ∨
        GoesOn iterator (passed ++ [first]) rest ∧ StopsInside (passed ++ first :: rest) batches)

variable {iterator} {passed values values' : List (Option (Item δ τ))}

theorem GoesOn.not_stopsAmong (h : iterator.GoesOn passed values) : ¬ iterator.StopsAmong passed values := by
  induction values generalizing passed with
  | nil => exact id
  | cons value values ih =>
    rintro (⟨hstop, -⟩ | ⟨-, hlater⟩)
    · exact hstop h.1
    · exact ih h.2 hlater

theorem goesOn_append :
    iterator.GoesOn passed (values ++ values') ↔
      iterator.GoesOn passed values ∧ iterator.GoesOn (passed ++ values) values' := by
  induction values generalizing passed with
  | nil => simp [GoesOn]
  | cons value values ih => simp [GoesOn, ih, and_assoc]

end Iterator

/-- An iterator that goes on is passed the whole batch. -/
theorem iterateBatch_goesOn {iterator : Iterator δ τ} {passed values : List (Option (Item δ τ))}
    (h : iterator.GoesOn passed values) : iterateBatch iterator values passed = (passed ++ values, .proceed) := by
  induction values generalizing passed with
  | nil => simp [iterateBatch]
  | cons value values ih => rw [iterateBatch, if_pos h.1, ih h.2, List.append_assoc, List.singleton_append]

/-- One that does not is passed the batch up to where it stops. -/
theorem iterateBatch_stops {iterator : Iterator δ τ} {passed values : List (Option (Item δ τ))}
    (h : ¬ iterator.GoesOn passed values) : ∃ taken left verdict, values = taken ++ left ∧
      iterateBatch iterator values passed = (passed ++ taken, verdict) ∧ verdict ≠ .proceed ∧
      (left ≠ [] ↔ iterator.StopsAmong passed values) := by
  induction values generalizing passed with
  | nil => exact absurd trivial h
  | cons value values ih =>
    by_cases hv : iterator passed value = .proceed
    · obtain ⟨taken, left, verdict, hvalues, hbatch, hverdict, hleft⟩ := ih fun hlater => h ⟨hv, hlater⟩
      refine ⟨value :: taken, left, verdict, by rw [hvalues, List.cons_append], ?_, hverdict, hleft.trans ?_⟩
      · rw [iterateBatch, if_pos hv, hbatch, List.append_assoc, List.singleton_append]
      · simp [Iterator.StopsAmong, hv]
    · refine ⟨[value], values, iterator passed value, rfl, ?_, hv, ?_⟩
      · rw [iterateBatch, if_neg hv]
      · simp [Iterator.StopsAmong, hv]

/-! ## Rounds -/

/-- The documents of a list as they are passed by a cursor whose transform is `f`. -/
def values (f : Item δ τ → Item δ τ) (docs : List δ) : List (Option (Item δ τ)) :=
  docs.map fun d => some (f (.document d))

/-- The same batch by batch. -/
def History.batches (f : Item δ τ → Item δ τ) (h : History δ) : List (List (Option (Item δ τ))) :=
  h.map fun reply => values f reply.2

section Rounds

variable {env : CursorEnv δ τ} {f : Item δ τ → Item δ τ} {iterator : Iterator δ τ}
  {passed : List (Option (Item δ τ))} {r : Reading δ τ} {h h' : History δ} {d : δ} {rest : List δ}

theorem values_append (docs docs' : List δ) : values f (docs ++ docs') = values f docs ++ values f docs' :=
  List.map_append

theorem values_eq (docs : List δ) : ((docs.map Item.document).map f).map some = values f docs := by
  simp [values, Function.comp_def]

theorem stopsInside_none (hn : h.nextBatch = none) : ¬ iterator.StopsInside passed (h.batches f) := by
  induction h with
  | nil => exact id
  | cons reply h ih =>
    obtain ⟨id, batch⟩ := reply
    cases batch with
    | nil => exact ih hn
    | cons d rest => cases hn

theorem stopsInside_some (hn : h.nextBatch = some (d, rest, h')) :
    iterator.StopsInside passed (h.batches f) ↔
      iterator passed (some (f (.document d))) = .proceed ∧
        (iterator.StopsAmong (passed ++ [some (f (.document d))]) (values f rest) ∨
          iterator.GoesOn (passed ++ [some (f (.document d))]) (values f rest) ∧
            iterator.StopsInside (passed ++ [some (f (.document d))] ++ values f rest) (h'.batches f)) := by
  induction h with
  | nil => cases hn
  | cons reply h ih =>
    obtain ⟨id, batch⟩ := reply
    cases batch with
    | nil => exact ih hn
    | cons d' rest' =>
      cases hn
      rw [List.append_assoc]
      exact Iff.rfl

/-- The buffer is transformed as it is taken out. -/
theorem apply_documents (hf : env.Maps f) {c : AbstractCursor δ τ} (hs : Shape c rest h) :
    c.documents.map (env.apply ·) = values f rest := by
  rw [hs.documents, List.map_map]
  exact List.map_congr_left fun d _ => hf (.document d)

/-- A fetch with an empty buffer, of a cursor with a transform. -/
theorem next_batched_maps (hf : env.Maps f) (hs : Shape r.cursor [] h) (hr : r.replies = h.replies) :
    ∃ out, next env true r.replies r.cursor = some (out.mapped f) ∧ Batched h out := by
  obtain ⟨out, hnext, hb⟩ := next_batched env.plain rfl h hs
  rw [next_maps hf, hr, hnext]
  exact ⟨out, rfl, hb⟩

/-- What `toArray` makes of a batch: the first document comes from a fetch, and the rest is mapped as an array. -/
def CursorEnv.arrayBatch (env : CursorEnv δ τ) (f : Item δ τ → Item δ τ) : List δ → List (Option (Item δ τ))
  | [] => []
  | d :: rest => some (f (.document d)) :: env.mapArray (rest.map .document)

theorem arrayBatches_none (hn : h.nextBatch = none) : h.flatMap (fun reply => env.arrayBatch f reply.2) = [] := by
  induction h with
  | nil => rfl
  | cons reply h ih =>
    obtain ⟨id, batch⟩ := reply
    cases batch with
    | nil => exact ih hn
    | cons d rest => cases hn

theorem arrayBatches_some (hn : h.nextBatch = some (d, rest, h')) :
    h.flatMap (fun reply => env.arrayBatch f reply.2) =
      some (f (.document d)) :: env.mapArray (rest.map .document) ++
        h'.flatMap fun reply => env.arrayBatch f reply.2 := by
  induction h with
  | nil => cases hn
  | cons reply h ih =>
    obtain ⟨id, batch⟩ := reply
    cases batch with
    | nil => exact ih hn
    | cons d' rest' =>
      cases hn
      rfl

/-- `toArray` returns everything that is to come, batch by batch. -/
theorem toArray_batches (hf : env.Maps f) : ∀ (fuel : Nat) (docs : List (Option (Item δ τ))) {r : Reading δ τ}
    {h : History δ}, Shape r.cursor [] h → r.replies = h.replies → h.documents.length < fuel →
      ∃ r', AbstractCursor.toArray env fuel docs r =
        some (.ok (docs ++ h.flatMap fun reply => env.arrayBatch f reply.2), r')
  | 0, _, _, _, _, _, hfuel => absurd hfuel (Nat.not_lt_zero _)
  | fuel + 1, docs, r, h, hs, hr, hfuel => by
    obtain ⟨out, hnext, hb⟩ := next_batched_maps hf hs hr
    unfold AbstractCursor.toArray fetchDocs
    rw [hnext]
    cases hn : h.nextBatch with
    | none =>
      obtain ⟨hres, -, -⟩ := hb.nothing hn
      refine ⟨⟨out.cursor, out.replies⟩, ?_⟩
      rw [arrayBatches_none hn]
      simp [toArrayCallback, Returned.mapped, hb.error, hres]
    | some found =>
      obtain ⟨d, rest, h'⟩ := found
      obtain ⟨hres, hreplies, hshape, hempty⟩ := hb.batch d rest h' hn
      have hdocs := History.nextBatch_some hn
      have hlen : h'.documents.length < fuel := by
        rw [hdocs, List.length_cons, List.length_append] at hfuel
        omega
      obtain ⟨r', hrest⟩ := toArray_batches hf fuel
        (docs ++ [some (f (.document d))] ++ env.mapArray (rest.map .document))
        (r := ⟨{ out.cursor with documents := [] }, out.replies⟩) hempty hreplies hlen
      refine ⟨r', ?_⟩
      unfold AbstractCursor.toArray at hrest
      simp only [toArrayCallback, Returned.mapped, hb.error, hres, Option.bind_eq_bind, Option.bind_some, Option.map_some,
        hshape.documents, hrest, arrayBatches_some hn]
      simp

/-- The transform makes the same of the documents of an array, with their places, as of each alone. -/
def CursorEnv.SameInArray (env : CursorEnv δ τ) (items : List (Item δ τ)) : Prop :=
  ∀ i item, items[i]? = some item → env.apply item (some (i, items)) = env.apply item

theorem mapArray_eq_iff (hf : env.Maps f) (items : List (Item δ τ)) :
    env.mapArray items = (items.map f).map some ↔ env.SameInArray items := by
  unfold CursorEnv.SameInArray CursorEnv.mapArray
  rw [List.ext_getElem?_iff]
  refine forall_congr' fun i => ?_
  rw [List.getElem?_mapIdx, List.getElem?_map, List.getElem?_map]
  cases items[i]? with
  | none => simp
  | some item => simp [hf item]

/-- `toArray` transforms each document once if and only if the transform minds no document's place in the rest of its
batch. -/
theorem arrayBatches_eq_iff (hf : env.Maps f) (h : History δ) :
    h.flatMap (fun reply => env.arrayBatch f reply.2) = values f h.documents ↔
      ∀ reply ∈ h, env.SameInArray (reply.2.tail.map .document) := by
  induction h with
  | nil => simp [History.documents, values]
  | cons reply h ih =>
    obtain ⟨id, batch⟩ := reply
    have hbatch : env.arrayBatch f batch = values f batch ↔ env.SameInArray (batch.tail.map .document) := by
      cases batch with
      | nil => exact iff_of_true rfl fun i item hi => by simp at hi
      | cons d rest =>
        rw [List.tail_cons, ← mapArray_eq_iff hf, values_eq]
        exact ⟨fun heq => (List.cons.inj heq).2, fun heq => congrArg (some (f (.document d)) :: ·) heq⟩
    have hlength : (env.arrayBatch f batch).length = (values f batch).length := by
      cases batch with
      | nil => rfl
      | cons d rest => simp [CursorEnv.arrayBatch, CursorEnv.mapArray, values]
    have hdocs : History.documents ((id, batch) :: h) = batch ++ History.documents h := rfl
    rw [List.flatMap_cons, hdocs, values_append, List.forall_mem_cons, ← ih, ← hbatch]
    exact ⟨fun heq => List.append_inj heq hlength, fun heq => by rw [heq.1, heq.2]⟩

/-- What `forEach` leaves when `h` was to come: of its documents the first are passed, then some are lost, and the
others can still be read. -/
structure Left (f : Item δ τ → Item δ τ) (iterator : Iterator δ τ) (passed : List (Option (Item δ τ))) (h : History δ)
    (out : Iterated δ τ) (taken lost buffer : List δ) (h' : History δ) : Prop where
  passing : out.passed = passed ++ values f taken
  documents : h.documents = taken ++ lost ++ (buffer ++ h'.documents)
  replies : out.reading.replies = h'.replies
  shape : Shape out.reading.cursor buffer h'
  lost : lost ≠ [] ↔ iterator.StopsInside passed (h.batches f)
  everything : iterator.GoesOn passed (values f h.documents) → out.error = none ∧ taken = h.documents

/-- One fetch of `forEach` and the batch that it brings, when the iterator proceeds at the first document. -/
theorem forEach_round (hf : env.Maps f) {fuel : Nat} {out : Returned δ τ}
    (hnext : next env true r.replies r.cursor = some (out.mapped f)) (herror : out.error = none)
    (hres : out.result = some (.document d)) (hshape : Shape out.cursor rest h')
    (hfirst : iterator passed (some (f (.document d))) = .proceed) {taken : List (Option (Item δ τ))} {verdict : Verdict}
    (hbatch : iterateBatch iterator (values f rest) (passed ++ [some (f (.document d))]) = (taken, verdict)) :
    AbstractCursor.forEach env iterator (fuel + 1) passed r =
      if verdict = .proceed then
        AbstractCursor.forEach env iterator fuel taken ⟨{ out.cursor with documents := [] }, out.replies⟩
      else some
        { error := verdict.error, passed := taken, reading := ⟨{ out.cursor with documents := [] }, out.replies⟩ } := by
  rw [AbstractCursor.forEach, fetchDocs, hnext]
  simp only [forEachCallback, Returned.mapped, herror, hres, Option.bind_eq_bind, Option.bind_some, Option.map_some, hfirst,
    apply_documents hf hshape, hbatch]
  cases verdict <;> rfl

theorem forEach_left (hf : env.Maps f) (iterator : Iterator δ τ) : ∀ (fuel : Nat)
    (passed : List (Option (Item δ τ))) {r : Reading δ τ} {h : History δ}, Shape r.cursor [] h → r.replies = h.replies →
      h.documents.length < fuel → ∃ out taken lost buffer h',
        AbstractCursor.forEach env iterator fuel passed r = some out ∧
          Left f iterator passed h out taken lost buffer h'
  | 0, _, _, _, _, _, hfuel => absurd hfuel (Nat.not_lt_zero _)
  | fuel + 1, passed, r, h, hs, hr, hfuel => by
    obtain ⟨out, hnext, hb⟩ := next_batched_maps hf hs hr
    cases hn : h.nextBatch with
    | none =>
      obtain ⟨hres, hreplies, hshape⟩ := hb.nothing hn
      have hdocs := History.nextBatch_none hn
      refine ⟨{ passed, reading := ⟨out.cursor, out.replies⟩ }, [], [], [], [], ?_, by simp [values], ?_, hreplies,
        hshape, iff_of_false (fun hne => hne rfl) (stopsInside_none hn), fun _ => ⟨rfl, hdocs.symm⟩⟩
      · rw [AbstractCursor.forEach, fetchDocs, hnext]
        simp [forEachCallback, Returned.mapped, hb.error, hres]
      · rw [hdocs]
        rfl
    | some found =>
      obtain ⟨d, rest, h'⟩ := found
      obtain ⟨hres, hreplies, hshape, hempty⟩ := hb.batch d rest h' hn
      have hdocs := History.nextBatch_some hn
      have hinside : iterator.StopsInside passed (h.batches f) ↔ _ := stopsInside_some hn
      have hgoes : iterator.GoesOn passed (values f h.documents) ↔
          iterator passed (some (f (.document d))) = .proceed ∧
            iterator.GoesOn (passed ++ [some (f (.document d))]) (values f rest) ∧
            iterator.GoesOn (passed ++ [some (f (.document d))] ++ values f rest) (values f h'.documents) := by
        rw [hdocs, show values f (d :: (rest ++ h'.documents)) =
          some (f (.document d)) :: (values f rest ++ values f h'.documents) by simp [values]]
        exact and_congr_right' Iterator.goesOn_append
      by_cases hfirst : iterator passed (some (f (.document d))) = .proceed
      swap
      · -- stopped at the first document: the rest of the batch is still in the buffer
        refine ⟨{
            error := (iterator passed (some (f (.document d)))).error
            passed := passed ++ [some (f (.document d))], reading := ⟨out.cursor, out.replies⟩ },
          [d], [], rest, h', ?_, rfl, by rw [hdocs]; rfl, hreplies, hshape,
          iff_of_false (fun hne => hne rfl) fun hin => hfirst (hinside.1 hin).1, fun hall => ?_⟩
        · rw [AbstractCursor.forEach, fetchDocs, hnext]
          simp only [forEachCallback, Returned.mapped, hb.error, hres, Option.bind_eq_bind, Option.bind_some,
            Option.map_some]
          cases hverdict : iterator passed (some (f (.document d))) with
          | proceed => exact absurd hverdict hfirst
          | stop => rfl
          | throw error => rfl
        · exact absurd (hgoes.1 hall).1 hfirst
      by_cases hrest : iterator.GoesOn (passed ++ [some (f (.document d))]) (values f rest)
      · -- the whole batch is passed
        have hlen : h'.documents.length < fuel := by
          rw [hdocs, List.length_cons, List.length_append] at hfuel
          omega
        obtain ⟨final, taken, lost, buffer, h'', hrun, hl⟩ := forEach_left hf iterator fuel
          (passed ++ [some (f (.document d))] ++ values f rest)
          (r := ⟨{ out.cursor with documents := [] }, out.replies⟩) hempty hreplies hlen
        refine ⟨final, d :: (rest ++ taken), lost, buffer, h'', ?_, ?_, ?_, hl.replies, hl.shape, ?_, ?_⟩
        · rw [forEach_round hf hnext hb.error hres hshape hfirst (iterateBatch_goesOn hrest), if_pos rfl, hrun]
        · rw [hl.passing]
          simp [values]
        · rw [hdocs, hl.documents]
          simp
        · rw [hl.lost, hinside]
          exact ⟨fun hin => ⟨hfirst, .inr ⟨hrest, hin⟩⟩, fun hin => (hin.2.resolve_left hrest.not_stopsAmong).2⟩
        · intro hall
          obtain ⟨herror, htaken⟩ := hl.everything (hgoes.1 hall).2.2
          exact ⟨herror, by rw [htaken, hdocs]⟩
      · -- stopped inside the batch, which is out of the buffer
        obtain ⟨taken, left, verdict, hvalues, hbatch, hverdict, hleft⟩ := iterateBatch_stops hrest
        obtain ⟨taken, lost, rfl, rfl, rfl⟩ := List.map_eq_append_iff.1 hvalues
        refine ⟨{
            error := verdict.error, passed := passed ++ [some (f (.document d))] ++ values f taken
            reading := ⟨{ out.cursor with documents := [] }, out.replies⟩ },
          d :: taken, lost, [], h', ?_, ?_, ?_, hreplies, hempty, ?_, ?_⟩
        · rw [forEach_round hf hnext hb.error hres hshape hfirst hbatch, if_neg hverdict]
          rfl
        · simp [values]
        · rw [hdocs]
          simp
        · rw [hinside, ← hleft, ne_eq, ne_eq, List.map_eq_nil_iff]
          exact ⟨fun hne => ⟨hfirst, .inl hne⟩, fun hin => hin.2.resolve_right fun hg => hrest hg.1⟩
        · exact fun hall => absurd (hgoes.1 hall).2.1 hrest

end Rounds

end MongoDriver.Cursor
