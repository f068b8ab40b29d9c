/-
What a cursor with a transform returns (`hasNext`, `next`, `tryNext`, `forEach` and `toArray` of
`src/cursor/abstract_cursor.ts`), over every history of batches that ends in a zero cursor id. A fetch transforms what
it takes from the buffer. `hasNext` puts the value that it fetched back into the buffer, from where it is transformed
a second time, and a value that is not truthy it drops; so the transform is applied once to each document exactly when
`hasNext` fetches only documents that come to a truthy value which the transform leaves as it is. `toArray` passes the
transform also the index of a document in the rest of its batch, and that rest, which it must not mind.
-/
import MongoDriver.Cursor.Iteration

namespace MongoDriver.Cursor

variable {δ τ : Type}

/-! ## Fetches take replies -/

section Takes

variable {env : CursorEnv δ τ} {c : AbstractCursor δ τ} {buffer : List δ} {h : History δ}

theorem History.replies_length (h : History δ) : h.replies.length = h.length := List.length_map ..

/-- A fetch gives no reply back, and with an empty buffer it takes one. -/
theorem next_takes (blocking : Bool) (hmap : env.transform = none) (h : History δ) :
    ∀ {c : AbstractCursor δ τ} {buffer : List δ} {out : Returned δ τ}, Shape c buffer h →
      next env blocking h.replies c = some out →
      out.replies.length ≤ h.length ∧ (buffer = [] → h ≠ [] → out.replies.length < h.length) := by
  induction h with
  | nil =>
    intro c buffer out hs hout
    obtain ⟨out', doc, buffer', h', hnext, hf⟩ := next_fetched env blocking hmap [] hs
    obtain rfl := Option.some.inj (hnext.symm.trans hout)
    refine ⟨?_, fun _ hne => absurd rfl hne⟩
    cases hs with
    | unopened _ _ _ hh => exact hh.elim
    | live _ _ _ _ hh => exact hh.elim
    | closed hid hclosed hdocs =>
      rw [next_closed blocking _ hclosed] at hnext
      cases hnext
      exact Nat.le_refl _
    | dead hid hopen hdocs =>
      cases buffer with
      | nil =>
        rw [next_dead blocking _ hid hopen hdocs] at hnext
        cases hnext
        exact Nat.le_refl _
      | cons d ds =>
        rw [next_buffered blocking _ hmap hopen hdocs] at hnext
        cases hnext
        exact Nat.le_refl _
  | cons reply rest ih =>
    intro c buffer out hs hout
    obtain ⟨id, batch⟩ := reply
    -- once the reply is taken the rest is a matter of the rest
    have hlater : ∀ {c : AbstractCursor δ τ}, next env blocking (History.replies rest) c = some out → Shape c batch rest →
        out.replies.length < List.length ((id, batch) :: rest) := by
      intro c hout hs
      have hle := (ih hs hout).1
      rw [List.length_cons]
      omega
    have hfinish : ∀ c : AbstractCursor δ τ, some (finish env c none (History.replies rest)) = some out →
        out.replies.length < List.length ((id, batch) :: rest) := by
      intro c hc
      cases hc
      rw [List.length_cons, show (finish env c none (History.replies rest)).replies = History.replies rest from rfl,
        History.replies_length]
      omega
    rw [show History.replies ((id, batch) :: rest) = .ok (.cursor id batch) :: History.replies rest from rfl] at hout
    cases hs with
    | unopened hid hopen hdocs hh =>
      rw [next_unopened blocking _ hid hopen hdocs] at hout
      have hlt : out.replies.length < List.length ((id, batch) :: rest) := by
        by_cases hzero : id = 0
        · rw [if_pos hzero] at hout
          exact hfinish _ hout
        · rw [if_neg hzero] at hout
          exact hlater hout (.live rfl hzero ((startSession_closed c).trans hopen) rfl (hh.nonzero hzero))
      exact ⟨hlt.le, fun _ _ => hlt⟩
    | live hid hne hopen hdocs hh =>
      cases buffer with
      | cons d ds =>
        rw [next_buffered blocking _ hmap hopen hdocs] at hout
        cases hout
        refine ⟨?_, fun hnil => (by cases hnil)⟩
        rw [List.length_cons, List.length_cons, History.replies_length]
      | nil =>
        rw [next_live blocking _ hid hne hopen hdocs] at hout
        have hlt : out.replies.length < List.length ((id, batch) :: rest) := by
          by_cases hzero : id = 0
          · rw [if_pos hzero] at hout
            exact hfinish _ hout
          rw [if_neg hzero] at hout
          by_cases hempty : (batch.isEmpty && !blocking) = true
          · rw [if_pos hempty] at hout
            cases hout
            rw [List.length_cons, History.replies_length]
            omega
          · rw [if_neg hempty] at hout
            exact hlater hout (.live rfl hzero hopen rfl (hh.nonzero hzero))
        exact ⟨hlt.le, fun _ _ => hlt⟩

end Takes

/-! ## Cursors with a value in the buffer -/

/-- The cursor buffers `items`, each of them truthy, and `h` is to come. The items stand where documents stood. -/
structure Holds (env : CursorEnv δ τ) (c : AbstractCursor δ τ) (items : List (Item δ τ)) (h : History δ) : Prop where
  documents : c.documents = items
  truthy : ∀ item ∈ items, item.truthy env = true
  shape : ∃ docs : List δ, docs.length = items.length ∧
    Shape ({ c with documents := docs.map .document } : AbstractCursor δ τ) docs h

/-- A bound on the fetches that are left. -/
def work (items : List (Item δ τ)) (h : History δ) : Nat := items.length + h.documents.length + h.length

section Holding

variable {env : CursorEnv δ τ} {f : Item δ τ → Item δ τ} {c : AbstractCursor δ τ} {r : Reading δ τ}
  {buffer : List δ} {item : Item δ τ} {items : List (Item δ τ)} {h : History δ}

theorem Shape.holds (hs : Shape c buffer h) : Holds env c (buffer.map .document) h := by
  refine ⟨hs.documents, ?_, buffer, (List.length_map ..).symm, ?_⟩
  · intro item hitem
    obtain ⟨d, -, rfl⟩ := List.mem_map.1 hitem
    rfl
  · rw [← hs.documents]
    exact hs

/-- A cursor with nothing in the buffer. -/
theorem Holds.empty (hc : Holds env c [] h) : Shape c [] h := by
  obtain ⟨docs, hlen, hs⟩ := hc.shape
  obtain rfl := List.eq_nil_of_length_eq_zero hlen
  have hdocs := hc.documents
  obtain ⟨id, session, server, documents, initialized, closed, killed, effects⟩ := c
  cases hdocs
  exact hs

/-- A cursor with something in the buffer can still be read. -/
theorem Holds.opened (hc : Holds env c (item :: items) h) :
    c.closed = false ∧ c.id ≠ some .zero ∧ Holds env { c with documents := items } items h := by
  obtain ⟨docs, hlen, hs⟩ := hc.shape
  cases docs with
  | nil => cases hlen
  | cons d ds =>
    have hopen : c.closed = false ∧ c.id ≠ some .zero := by
      cases hs with
      | live hid _ hopen _ _ => exact ⟨hopen, fun hz => by cases hid.symm.trans hz⟩
      | dead hid hopen _ => exact ⟨hopen, fun hz => by cases hid.symm.trans hz⟩
    exact ⟨hopen.1, hopen.2, rfl, fun i hi => hc.truthy i (List.mem_cons_of_mem _ hi), ds, Nat.succ.inj hlen, hs.refill⟩

/-- What a fetch leaves: what it returns, buffers and leaves to come is what there was, transformed. -/
structure Advanced (env : CursorEnv δ τ) (f : Item δ τ → Item δ τ) (items : List (Item δ τ)) (h : History δ)
    (result : Option (Item δ τ)) (r : Reading δ τ) (items' : List (Item δ τ)) (h' : History δ) : Prop where
  replies : r.replies = h'.replies
  holds : Holds env r.cursor items' h'
  conserved : result.toList ++ (items' ++ h'.items).map f = (items ++ h.items).map f
  work : work items' h' ≤ work items h - 1

theorem next_advanced (hf : env.Maps f) (blocking : Bool) (hc : Holds env r.cursor items h)
    (hr : r.replies = h.replies) :
    ∃ out items' h', next env blocking r.replies r.cursor = some out ∧ out.error = none ∧
      Advanced env f items h out.result ⟨out.cursor, out.replies⟩ items' h' := by
  cases items with
  | cons item items =>
    obtain ⟨hopen, -, hrest⟩ := hc.opened
    have hnext : nextDocument env r.cursor = (some (f item), { r.cursor with documents := items }) := by
      have happly := hf item
      unfold CursorEnv.apply at happly
      unfold nextDocument
      rw [hc.documents]
      simp only [hc.truthy item (List.mem_cons_self ..), if_true]
      cases htransform : env.transform with
      | none =>
        rw [htransform] at happly
        simp only [happly]
      | some transform =>
        rw [htransform] at happly
        simp only [happly]
    refine ⟨{ result := some (f item), cursor := { r.cursor with documents := items }, replies := r.replies }, items,
      h, ?_, rfl, hr, hrest, rfl, ?_⟩
    · unfold next
      rw [if_neg (by simp [hopen]), if_pos (by simp [hc.documents]), hnext]
    · unfold work
      rw [List.length_cons]
      omega
  | nil =>
    have hs := hc.empty
    obtain ⟨out, doc, buffer', h', hnext, hfetched⟩ := next_fetched env.plain blocking rfl h hs
    obtain ⟨hle, htakes⟩ := next_takes blocking rfl h hs hnext
    have hitems : doc.toList.map .document ++ buffer'.map .document ++ h'.items = (h.items : List (Item δ τ)) := by
      unfold History.items
      rw [← List.map_append, ← List.map_append, hfetched.conserved]
      rfl
    refine ⟨out.mapped f, buffer'.map .document, h', ?_, hfetched.error, hfetched.replies, hfetched.shape.holds, ?_, ?_⟩
    · rw [next_maps hf, hr, hnext]
      rfl
    · rw [List.nil_append, ← hitems, List.append_assoc, List.map_append, show (out.mapped f).result = out.result.map f
        from rfl, hfetched.result]
      cases doc <;> simp
    · have hlen := congrArg List.length hfetched.conserved
      rw [hfetched.replies, History.replies_length] at hle htakes
      simp only [List.length_append, List.length_nil] at hlen
      unfold work
      rw [List.length_map, List.length_nil]
      by_cases hne : h = []
      · subst hne
        simp only [History.documents, List.flatMap_nil, List.length_nil] at hle hlen ⊢
        omega
      · have hlt := htakes rfl hne
        omega

/-- Nothing is buffered or to come when the cursor has the id of a closed one. -/
theorem Holds.drained (hc : Holds env c items h) (hid : c.id = some .zero) : items = [] ∧ h = [] := by
  cases items with
  | nil => exact ⟨rfl, (hc.empty.drained hid).2⟩
  | cons item items => exact absurd hid hc.opened.2.1

/-- `next` and `tryNext`. -/
theorem call_advanced (hf : env.Maps f) {m : Method} (hm : m ≠ .hasNext) (hc : Holds env r.cursor items h)
    (hr : r.replies = h.replies) :
    ∃ a r' result items' h', AbstractCursor.call env r m = some (a, r') ∧ returned [a] = result.toList ∧
      Advanced env f items h result r' items' h' := by
  obtain ⟨blocking, hcall⟩ : ∃ blocking, AbstractCursor.call env r m = AbstractCursor.fetch env blocking r := by
    cases m with
    | next => exact ⟨true, rfl⟩
    | tryNext => exact ⟨false, rfl⟩
    | hasNext => exact absurd rfl hm
  rw [hcall]
  unfold AbstractCursor.fetch
  by_cases hid : r.cursor.id = some .zero
  · obtain ⟨rfl, rfl⟩ := hc.drained hid
    rw [if_pos hid]
    exact ⟨_, r, none, [], [], rfl, rfl, hr, hc, rfl, Nat.zero_le _⟩
  · obtain ⟨out, items', h', hnext, herror, ha⟩ := next_advanced hf blocking hc hr
    rw [if_neg hid, hnext]
    refine ⟨_, _, out.result, items', h', rfl, ?_, ha⟩
    rw [herror]
    cases out.result <;> rfl

/-- `hasNext`: what is buffered and to come is transformed as before exactly when the document that it has to fetch
comes to a truthy value that the transform leaves as it is. -/
theorem hasNext_looks (hf : env.Maps f) (hc : Holds env r.cursor items h) (hr : r.replies = h.replies) :
    ∃ b r' items' h', AbstractCursor.hasNext env r = some (.bool b, r') ∧ r'.replies = h'.replies ∧
      Holds env r'.cursor items' h' ∧
      ((items' ++ h'.items).map f = (items ++ h.items).map f ↔ ∀ d, items = [] → h.documents.head? = some d →
        (f (.document d)).truthy env = true ∧ f (f (.document d)) = f (.document d)) := by
  unfold AbstractCursor.hasNext
  by_cases hid : r.cursor.id = some .zero
  · obtain ⟨rfl, rfl⟩ := hc.drained hid
    rw [if_pos hid]
    exact ⟨false, r, [], [], rfl, hr, hc, iff_of_true rfl fun d _ hd => (by cases hd)⟩
  rw [if_neg hid]
  cases items with
  | cons item items =>
    rw [if_pos (by simp [hc.documents])]
    exact ⟨true, r, _, h, rfl, hr, hc, iff_of_true rfl fun d hnil => (by cases hnil)⟩
  | nil =>
    obtain ⟨out, doc, buffer', h', hnext, hfetched⟩ := next_fetched env.plain true rfl h hc.empty
    have herror : (out.mapped f).error = none := hfetched.error
    rw [if_neg (by simp [hc.documents]), next_maps hf, hr, hnext]
    cases doc with
    | none =>
      have hres : (out.mapped f).result = none := congrArg (Option.map f) hfetched.result
      obtain ⟨rfl, hzero⟩ := hfetched.nothing rfl
      obtain ⟨-, rfl⟩ := hfetched.shape.drained (hzero rfl)
      have hdocs : h.documents = [] := hfetched.conserved.symm
      refine ⟨false, ⟨out.cursor, out.replies⟩, [], [], ?_, hfetched.replies, hfetched.shape.holds,
        iff_of_true ?_ fun d _ hd => ?_⟩
      · simp only [Option.map_some, Option.bind_eq_bind, Option.bind_some, herror, hres]
        rfl
      · rw [show (h.items : List (Item δ τ)) = h.documents.map .document from rfl, hdocs]
        rfl
      · rw [hdocs] at hd
        cases hd
    | some d =>
      have hres : (out.mapped f).result = some (f (.document d)) := congrArg (Option.map f) hfetched.result
      have hdocs : h.documents = d :: (buffer' ++ h'.documents) := hfetched.conserved.symm
      have hitems : (h.items : List (Item δ τ)) = .document d :: (buffer'.map .document ++ h'.items) := by
        simp [History.items, hdocs]
      by_cases ht : (f (.document d)).truthy env = true
      · -- the value is put back
        refine ⟨true, ⟨{ out.cursor with documents := f (.document d) :: out.cursor.documents }, out.replies⟩,
          f (.document d) :: buffer'.map .document, h', ?_, hfetched.replies, ⟨?_, ?_, d :: buffer', ?_, ?_⟩, ?_⟩
        · simp only [Option.map_some, Option.bind_eq_bind, Option.bind_some, herror, hres, ht, if_true]
          rfl
        · rw [hfetched.shape.documents]
        · intro item hitem
          rcases List.mem_cons.1 hitem with rfl | hrest
          · exact ht
          · obtain ⟨d', -, rfl⟩ := List.mem_map.1 hrest
            rfl
        · simp
        · exact hfetched.putBack d rfl
        · rw [hitems, hdocs]
          simp only [List.cons_append, List.nil_append, List.map_cons, List.head?_cons, Option.some.injEq, List.cons.injEq,
            and_true]
          exact ⟨fun heq d' _ hd => by subst hd; exact ⟨ht, heq⟩, fun hall => (hall d trivial rfl).2⟩
      · -- the value is dropped
        refine ⟨false, ⟨out.cursor, out.replies⟩, buffer'.map .document, h', ?_, hfetched.replies, hfetched.shape.holds,
          iff_of_false (fun heq => ?_) fun hall => ht (hall d rfl (by rw [hdocs, List.head?_cons])).1⟩
        · simp only [Option.map_some, Option.bind_eq_bind, Option.bind_some, herror, hres, if_neg ht]
          rfl
        · have hlen := congrArg List.length heq
          rw [hitems] at hlen
          simp at hlen

end Holding

/-! ## Runs -/

/-- The documents of the batches to come. -/
def pending (replies : Replies δ) : List δ :=
  replies.flatMap fun
    | .ok (.cursor _ batch) => batch
    | _ => []

/-- The values that the calls before returned, and those that fetches can still return. -/
def foretold (f : Item δ τ → Item δ τ) (s : Reading δ τ × List (Answer δ τ)) : List (Item δ τ) :=
  returned s.2 ++ (s.1.cursor.documents ++ (pending s.1.replies).map Item.document).map f

/-- The state is one of a cursor that is read to the end of a history. -/
def Sound (env : CursorEnv δ τ) (s : Reading δ τ × List (Answer δ τ)) : Prop :=
  ∃ items h, s.1.replies = History.replies h ∧ Holds env s.1.cursor items h

/-- When `hasNext` has to fetch a document, it comes to a truthy value that the transform leaves as it is. -/
def PutsBackAlike (env : CursorEnv δ τ) (f : Item δ τ → Item δ τ) (s : Reading δ τ × List (Answer δ τ)) (m : Method) :
    Prop :=
  m = .hasNext → s.1.cursor.documents = [] → ∀ d, (pending s.1.replies).head? = some d →
    (f (.document d)).truthy env = true ∧ f (f (.document d)) = f (.document d)

/-- What was returned and what enough further calls of `next` and `tryNext` return are the documents of the history,
each transformed once. -/
def MapsOnce (env : CursorEnv δ τ) (f : Item δ τ → Item δ τ) (h₀ : History δ) (s : Reading δ τ × List (Answer δ τ)) :
    Prop :=
  ∃ enough, ∀ more : List Method, (∀ m ∈ more, m ≠ .hasNext) → enough ≤ more.length →
    ∃ t, Run.exec (step env) s more = some t ∧ returned t.2 = h₀.items.map f

section Runs

variable {env : CursorEnv δ τ} {f : Item δ τ → Item δ τ} {h₀ : History δ} {s : Reading δ τ × List (Answer δ τ)}

theorem pending_replies (h : History δ) : pending h.replies = h.documents := by
  unfold pending History.replies History.documents
  rw [List.flatMap_map]

/-- What a sound state foretells, told by its buffer and history. -/
theorem foretold_eq {r : Reading δ τ} {answers : List (Answer δ τ)} {items : List (Item δ τ)} {h : History δ}
    (hr : r.replies = h.replies) (hc : Holds env r.cursor items h) :
    foretold f (r, answers) = returned answers ++ (items ++ h.items).map f := by
  unfold foretold
  rw [hc.documents, hr, pending_replies]
  rfl

/-- A call of `next` or `tryNext` keeps what is foretold, and there is less to do. -/
theorem step_fetch (hf : env.Maps f) {m : Method} (hm : m ≠ .hasNext) (answers : List (Answer δ τ)) {r : Reading δ τ}
    {items : List (Item δ τ)} {h : History δ} (hr : r.replies = h.replies) (hc : Holds env r.cursor items h) :
    ∃ a r' items' h', step env (r, answers) m = some (r', answers ++ [a]) ∧ r'.replies = History.replies h' ∧
      Holds env r'.cursor items' h' ∧ foretold f (r', answers ++ [a]) = foretold f (r, answers) ∧
      work items' h' ≤ work items h - 1 := by
  obtain ⟨a, r', result, items', h', hcall, hret, ha⟩ := call_advanced hf hm hc hr
  refine ⟨a, r', items', h', ?_, ha.replies, ha.holds, ?_, ha.work⟩
  · unfold step
    rw [hcall]
    rfl
  · rw [foretold_eq ha.replies ha.holds, foretold_eq hr hc, returned_append, hret, List.append_assoc, ha.conserved]

/-- Every call comes back, and it keeps what is foretold exactly when it puts back what it found. -/
theorem step_sound (hf : env.Maps f) (m : Method) (hs : Sound env s) :
    ∃ t, step env s m = some t ∧ Sound env t ∧ (foretold f t = foretold f s ↔ PutsBackAlike env f s m) := by
  obtain ⟨r, answers⟩ := s
  obtain ⟨items, h, hr, hc⟩ := hs
  by_cases hm : m = .hasNext
  · subst hm
    obtain ⟨b, r', items', h', hcall, hr', hc', hsame⟩ := hasNext_looks hf hc hr
    refine ⟨(r', answers ++ [.bool b]), ?_, ⟨items', h', hr', hc'⟩, ?_⟩
    · unfold step AbstractCursor.call
      rw [hcall]
      rfl
    · rw [foretold_eq hr' hc', foretold_eq hr hc, returned_append, show returned [Answer.bool b] =
        ([] : List (Item δ τ)) from rfl, List.append_nil, List.append_cancel_left_eq, hsame]
      unfold PutsBackAlike
      rw [hc.documents, hr, pending_replies]
      exact ⟨fun hall _ hnil d hd => hall d hnil hd, fun hall d hnil hd => hall rfl hnil d hd⟩
  · obtain ⟨a, r', items', h', hstep, hr', hc', hsame, -⟩ := step_fetch hf hm answers hr hc
    exact ⟨_, hstep, ⟨items', h', hr', hc'⟩, iff_of_true hsame fun hhas => absurd hhas hm⟩

theorem exec_sound (hf : env.Maps f) : ∀ (calls : List Method) {s : Reading δ τ × List (Answer δ τ)}, Sound env s →
    ∃ t, Run.exec (step env) s calls = some t ∧ Sound env t
  | [], s, hs => ⟨s, rfl, hs⟩
  | m :: calls, s, hs => by
    obtain ⟨u, hstep, hu, -⟩ := step_sound hf m hs
    obtain ⟨t, hrun, ht⟩ := exec_sound hf calls hu
    exact ⟨t, (Run.exec_cons _).2 ⟨u, hstep, hrun⟩, ht⟩

/-- Enough calls of `next` and `tryNext` return what is foretold. -/
theorem exec_foretold (hf : env.Maps f) : ∀ (more : List Method) (answers : List (Answer δ τ)) {r : Reading δ τ}
    {items : List (Item δ τ)} {h : History δ}, (∀ m ∈ more, m ≠ .hasNext) → r.replies = h.replies →
      Holds env r.cursor items h → work items h ≤ more.length →
      ∃ t, Run.exec (step env) (r, answers) more = some t ∧ returned t.2 = foretold f (r, answers)
  | [], answers, r, items, h, _, hr, hc, hwork => by
    unfold work at hwork
    simp only [List.length_nil, Nat.le_zero, Nat.add_eq_zero_iff, List.length_eq_zero_iff] at hwork
    obtain ⟨⟨rfl, -⟩, rfl⟩ := hwork
    refine ⟨_, rfl, ?_⟩
    rw [foretold_eq hr hc]
    exact (List.append_nil _).symm
  | m :: more, answers, r, items, h, hfetch, hr, hc, hwork => by
    obtain ⟨a, r', items', h', hstep, hr', hc', hsame, hless⟩ :=
      step_fetch hf (hfetch m (List.mem_cons_self ..)) answers hr hc
    rw [List.length_cons] at hwork
    obtain ⟨t, hrun, hret⟩ := exec_foretold hf more (answers ++ [a])
      (fun m' hm' => hfetch m' (List.mem_cons_of_mem _ hm')) hr' hc' (by omega)
    exact ⟨t, (Run.exec_cons _).2 ⟨_, hstep, hrun⟩, hret.trans hsame⟩

theorem Sound.mapsOnce_iff (hf : env.Maps f) (hs : Sound env s) :
    MapsOnce env f h₀ s ↔ foretold f s = h₀.items.map f := by
  obtain ⟨r, answers⟩ := s
  obtain ⟨items, h, hr, hc⟩ := hs
  constructor
  · rintro ⟨enough, hall⟩
    have hnexts : ∀ m ∈ List.replicate (max enough (work items h)) Method.next, m ≠ .hasNext := by
      intro m hm
      rw [List.eq_of_mem_replicate hm]
      exact fun he => by cases he
    obtain ⟨t, hrun, hret⟩ := hall _ hnexts (by rw [List.length_replicate]; exact Nat.le_max_left ..)
    obtain ⟨t', hrun', hret'⟩ := exec_foretold hf _ answers hnexts hr hc
      (by rw [List.length_replicate]; exact Nat.le_max_right ..)
    obtain rfl := Option.some.inj (hrun.symm.trans hrun')
    exact hret'.symm.trans hret
  · intro heq
    refine ⟨work items h, fun more hmore hlong => ?_⟩
    obtain ⟨t, hrun, hret⟩ := exec_foretold hf more answers hmore hr hc hlong
    exact ⟨t, hrun, hret.trans heq⟩

theorem Reading.new_sound (session : Option CursorSession) (hh : EndsInZero h₀) :
    Sound env (Reading.new session h₀, []) :=
  ⟨[], h₀, rfl, (Shape.unopened rfl rfl rfl hh : Shape (Reading.new session h₀ : Reading δ τ).cursor [] h₀).holds⟩

theorem foretold_new (session : Option CursorSession) : foretold f (Reading.new session h₀, []) = h₀.items.map f := by
  unfold foretold Reading.new
  rw [pending_replies]
  rfl

end Runs

/-- For every transform that returns a value for every document, and every history that ends in a zero id: `forEach`
with an iterator that goes on to the end, and the calls of `next` and `tryNext` return the documents of the history,
each transformed once. A run with calls of `hasNext` does so in every state that it reaches exactly when each `hasNext`
that fetches a document puts back what `next` then makes the same of, and `toArray` exactly when the transform does not
mind the places of the documents behind the first of a batch. -/
theorem transformed_once_iff (env : CursorEnv δ τ) (f : Item δ τ → Item δ τ) (hf : env.Maps f)
    (session : Option CursorSession) (h₀ : History δ) (hh : EndsInZero h₀) :
    (∀ calls : List Method, (∃ t, Run.exec (step env) (Reading.new session h₀, []) calls = some t) ∧
      ((∀ calls₁ calls₂ s, calls = calls₁ ++ calls₂ →
          Run.exec (step env) (Reading.new session h₀, []) calls₁ = some s → MapsOnce env f h₀ s) ↔
        Run.Meets (step env) (PutsBackAlike env f) (Reading.new session h₀, []) calls)) ∧
    (∀ iterator : Iterator δ τ, (∀ passed value, iterator passed value = .proceed) → ∀ fuel, h₀.documents.length < fuel →
      ∃ out, AbstractCursor.forEach env iterator fuel [] (Reading.new session h₀) = some out ∧ out.error = none ∧
        out.passed = (h₀.items.map f).map some) ∧
    (∀ fuel, h₀.documents.length < fuel → ∃ docs r,
      AbstractCursor.toArray env fuel [] (Reading.new session h₀) = some (.ok docs, r) ∧
        (docs = (h₀.items.map f).map some ↔ ∀ reply ∈ h₀, env.SameInArray (reply.2.tail.map .document))) := by
  have hvalues : (h₀.items.map f).map some = values f h₀.documents := values_eq _
  have hnew : Shape (Reading.new session h₀ : Reading δ τ).cursor [] h₀ := .unopened rfl rfl rfl hh
  refine ⟨fun calls => ?_, fun iterator hall fuel hfuel => ?_, fun fuel hfuel => ?_⟩
  · have hsound : Sound env (Reading.new session h₀, []) := Reading.new_sound session hh
    obtain ⟨t, hrun, -⟩ := exec_sound hf calls hsound
    refine ⟨⟨t, hrun⟩, ?_⟩
    -- a good state foretells the history, and one call keeps that exactly when it meets the condition
    have hstep : ∀ s m t, Sound env s ∧ foretold f s = h₀.items.map f → step env s m = some t →
        (Sound env t ∧ foretold f t = h₀.items.map f ↔ PutsBackAlike env f s m) := by
      rintro s m t ⟨hs, hsame⟩ ht
      obtain ⟨t', ht', hsound', hiff⟩ := step_sound hf m hs
      obtain rfl := Option.some.inj (ht.symm.trans ht')
      rw [← hiff, hsame]
      exact and_iff_right hsound'
    rw [Run.meets_iff (step env) hstep ⟨hsound, foretold_new session⟩ hrun]
    have hreach : ∀ calls₁ s, Run.exec (step env) (Reading.new session h₀, []) calls₁ = some s → Sound env s := by
      intro calls₁ s hs
      obtain ⟨s', hs', hsound'⟩ := exec_sound hf calls₁ hsound
      rwa [Option.some.inj (hs.symm.trans hs')]
    constructor
    · intro hmaps calls₁ calls₂ s hcalls hs
      exact ⟨hreach calls₁ s hs, ((hreach calls₁ s hs).mapsOnce_iff hf).1 (hmaps calls₁ calls₂ s hcalls hs)⟩
    · intro hgood calls₁ calls₂ s hcalls hs
      exact ((hreach calls₁ s hs).mapsOnce_iff hf).2 (hgood calls₁ calls₂ s hcalls hs).2
  · obtain ⟨out, taken, lost, buffer, h', hrun, hl⟩ := forEach_left hf iterator fuel [] hnew rfl hfuel
    have hgoes : ∀ values passed, iterator.GoesOn passed values := by
      intro values
      induction values with
      | nil => exact fun _ => trivial
      | cons value values ih => exact fun passed => ⟨hall passed value, ih _⟩
    obtain ⟨herror, rfl⟩ := hl.everything (hgoes _ _)
    exact ⟨out, hrun, herror, by rw [hl.passing, hvalues, List.nil_append]⟩
  · obtain ⟨r, hrun⟩ := toArray_batches hf fuel [] hnew rfl hfuel
    refine ⟨_, r, hrun, ?_⟩
    rw [hvalues, List.nil_append]
    exact arrayBatches_eq_iff hf h₀

/-- `(d, n = 0) => d + n`. -/
private def addIndex : CursorEnv Nat Nat where
  transform := some fun
    | .document d, place => some (d + (place.map (·.1)).getD 0)
    | .mapped d, place => some (d + (place.map (·.1)).getD 0)
  truthy _ := true

example : (AbstractCursor.toArray addIndex 5 [] (Reading.new none [(0, [10, 20, 30])])).map (·.1.toOption) =
    some (some [some (.mapped 10), some (.mapped 20), some (.mapped 31)]) := rfl

/-- The transform that adds one. -/
def addOne : CursorEnv Nat Nat where
  transform := some fun
    | .document n, _ => some (n + 1)
    | .mapped n, _ => some (n + 1)
  truthy n := n != 0

/-- What `addOne` makes of a value. -/
def plusOne : Item Nat Nat → Item Nat Nat
  | .document n => .mapped (n + 1)
  | .mapped n => .mapped (n + 1)

theorem addOne_maps : addOne.Maps plusOne := by
  intro item
  cases item <;> rfl

theorem addOne_sameInArray (items : List (Item Nat Nat)) : addOne.SameInArray items := by
  intro i item _
  cases item <;> rfl

theorem transformed_once_iff_addOne :
    (∀ calls : List Method, (∃ t, Run.exec (step addOne) (Reading.new none [(7, [1, 2]), (0, [3])], []) calls = some t) ∧
      ((∀ calls₁ calls₂ s, calls = calls₁ ++ calls₂ →
          Run.exec (step addOne) (Reading.new none [(7, [1, 2]), (0, [3])], []) calls₁ = some s →
            MapsOnce addOne plusOne [(7, [1, 2]), (0, [3])] s) ↔
        Run.Meets (step addOne) (PutsBackAlike addOne plusOne) (Reading.new none [(7, [1, 2]), (0, [3])], []) calls)) ∧
    (∀ iterator : Iterator Nat Nat, (∀ passed value, iterator passed value = .proceed) → ∀ fuel, 3 < fuel →
      ∃ out, AbstractCursor.forEach addOne iterator fuel [] (Reading.new none [(7, [1, 2]), (0, [3])]) = some out ∧
        out.error = none ∧ out.passed = [some (.mapped 2), some (.mapped 3), some (.mapped 4)]) ∧
    (∀ fuel, 3 < fuel → ∃ r, AbstractCursor.toArray addOne fuel [] (Reading.new none [(7, [1, 2]), (0, [3])]) =
      some (.ok [some (.mapped 2), some (.mapped 3), some (.mapped 4)], r)) := by
  obtain ⟨hcalls, hforEach, htoArray⟩ := transformed_once_iff addOne plusOne addOne_maps none [(7, [1, 2]), (0, [3])]
    ⟨by decide, rfl⟩
  refine ⟨hcalls, hforEach, fun fuel hfuel => ?_⟩
  obtain ⟨docs, r, hrun, hiff⟩ := htoArray fuel hfuel
  refine ⟨r, ?_⟩
  rw [hrun, hiff.2 fun _ _ => addOne_sameInArray _]
  rfl

/-- `hasNext` and then `next`: the transform is applied twice. -/
theorem hasNext_transforms_twice :
    ∃ t, Run.exec (step addOne) (Reading.new none [(0, [1])], []) [.hasNext, .next] = some t ∧
      returned t.2 = [.mapped 3] ∧ ¬ MapsOnce addOne plusOne [(0, [1])] t := by
  refine ⟨_, rfl, rfl, ?_⟩
  obtain ⟨t, hrun, hsound⟩ := exec_sound addOne_maps [.hasNext, .next]
    (Reading.new_sound none (show EndsInZero [(0, [1])] from rfl))
  obtain rfl := Option.some.inj hrun
  rw [hsound.mapsOnce_iff addOne_maps]
  decide

end MongoDriver.Cursor
