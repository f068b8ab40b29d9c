/-
The commands of a cursor and its session (`close`, `rewind`, the internal `next` and `cleanupCursor` of
`src/cursor/abstract_cursor.ts`). A fetch issues each command with the session of the cursor, which starts one when it
has none; and a session that was made for a caller is neither owned by the cursor nor ended by it, whatever is called.
-/
import MongoDriver.Cursor.Iteration

namespace MongoDriver.Cursor

variable {δ τ : Type}

/-! ## Commands -/

/-- A command of a cursor, with the session that it is issued with: the one it is made for (a `find` or an `aggregate`),
or a `getMore`. -/
inductive CursorCommand
  | creating (session : Option CursorSession)
  | getMore (session : Option CursorSession)
deriving DecidableEq

def CursorCommand.session : CursorCommand → Option CursorSession
  | .creating session => session
  | .getMore session => session

/-- The internal `next` with the commands that it issues. The last one may not be answered. -/
def nextIssuing (env : CursorEnv δ τ) (blocking : Bool) (replies : Replies δ) (c : AbstractCursor δ τ) :
    List CursorCommand × Option (Returned δ τ) :=
  if c.closed then ([], some { cursor := c, replies })
  else if !c.documents.isEmpty then
    let (doc, c) := nextDocument env c
    ([], some { result := doc, cursor := c, replies })
  else
    match c.id with
    | none =>
      let c := startSession env c
      match replies with
      | [] => ([.creating c.session], none)
      | .error e :: rest => ([.creating c.session], some (finish env { c with initialized := true } (some e) rest))
      | .ok reply :: rest =>
        let received := receiveFirst c reply
        if cursorIsDead received then ([.creating c.session], some (finish env received none rest))
        else
          let (commands, out) := nextIssuing env blocking rest received
          (.creating c.session :: commands, out)
    | some _ =>
      if cursorIsDead c then ([], some { cursor := cleanupCursor env c none, replies })
      else
        match replies with
        | [] => ([.getMore c.session], none)
        | .error e :: rest => ([.getMore c.session], some (finish env c (some e) rest))
        | .ok (.other ..) :: _ => ([.getMore c.session], none)
        | .ok (.cursor id batch) :: rest =>
          let received := { c with documents := batch.map .document, id := some (.decoded id) }
          if cursorIsDead received then ([.getMore c.session], some (finish env received none rest))
          else if received.documents.isEmpty && !blocking then
            ([.getMore c.session], some { cursor := received, replies := rest })
          else
            let (commands, out) := nextIssuing env blocking rest received
            (.getMore c.session :: commands, out)

/-- The loop of `forEach` and of `toArray` with the commands that it issues. -/
def fetchDocsIssuing {σ ρ : Type} (env : CursorEnv δ τ) (callback : σ → Returned δ τ → ρ ⊕ (σ × Reading δ τ)) :
    Nat → σ → Reading δ τ → List CursorCommand × Option ρ
  | 0, _, _ => ([], none)
  | fuel + 1, s, r =>
    match nextIssuing env true r.replies r.cursor with
    | (commands, none) => (commands, none)
    | (commands, some out) =>
      match callback s out with
      | .inl done => (commands, some done)
      | .inr (s, r) =>
        let (more, done) := fetchDocsIssuing env callback fuel s r
        (commands ++ more, done)

/-- Without the commands it is `next`. -/
theorem nextIssuing_erase (env : CursorEnv δ τ) (blocking : Bool) (replies : Replies δ) (c : AbstractCursor δ τ) :
    (nextIssuing env blocking replies c).2 = next env blocking replies c := by
  induction replies generalizing c with
  | nil =>
    unfold nextIssuing next
    by_cases hclosed : c.closed = true
    · simp only [if_pos hclosed]
    by_cases hdocs : (!c.documents.isEmpty) = true
    · simp only [if_neg hclosed, if_pos hdocs]
    simp only [if_neg hclosed, if_neg hdocs]
    cases c.id with
    | none => rfl
    | some id => by_cases hdead : cursorIsDead c = true <;> simp [hdead]
  | cons reply rest ih =>
    unfold nextIssuing next
    by_cases hclosed : c.closed = true
    · simp only [if_pos hclosed]
    by_cases hdocs : (!c.documents.isEmpty) = true
    · simp only [if_neg hclosed, if_pos hdocs]
    simp only [if_neg hclosed, if_neg hdocs]
    cases c.id with
    | none =>
      cases reply with
      | error e => rfl
      | ok reply =>
        dsimp only
        by_cases hdead : cursorIsDead (receiveFirst (startSession env c) reply) = true
        · simp only [if_pos hdead]
        · simp only [if_neg hdead, ih]
    | some id =>
      by_cases hdead : cursorIsDead c = true
      · simp only [if_pos hdead]
      simp only [if_neg hdead]
      cases reply with
      | error e => rfl
      | ok reply =>
        cases reply with
        | other cursorId documents response => rfl
        | cursor value batch =>
          simp only [← ih]
          split
          · rfl
          · split <;> rfl

theorem fetchDocsIssuing_erase {σ ρ : Type} (env : CursorEnv δ τ)
    (callback : σ → Returned δ τ → ρ ⊕ (σ × Reading δ τ)) :
    ∀ (fuel : Nat) (s : σ) (r : Reading δ τ), (fetchDocsIssuing env callback fuel s r).2 = fetchDocs env callback fuel s r
  | 0, _, _ => rfl
  | fuel + 1, s, r => by
    unfold fetchDocsIssuing fetchDocs
    rw [← nextIssuing_erase]
    obtain ⟨commands, out⟩ := nextIssuing env true r.replies r.cursor
    cases out with
    | none => rfl
    | some out =>
      simp only [Option.bind_eq_bind, Option.bind_some]
      cases callback s out with
      | inl done => rfl
      | inr next => exact fetchDocsIssuing_erase env callback fuel next.1 next.2

/-! ## Calls -/

namespace AbstractCursor

/-- `close`. -/
def close (env : CursorEnv δ τ) (c : AbstractCursor δ τ) : AbstractCursor δ τ :=
  cleanupCursor env { c with closed := true } none (some !c.closed)

/-- `rewind`. A session that the cursor made is ended; whichever it has is taken away. -/
def rewind (c : AbstractCursor δ τ) : AbstractCursor δ τ :=
  if !c.initialized then c
  else
    let c := { c with id := none, documents := [], closed := false, killed := false, initialized := false }
    match c.session with
    | none => c
    | some session =>
      if session.explicit = false ∧ session.hasEnded = false then
        { c with session := none, effects := c.effects ++ [.endSession session none] }
      else { c with session := none }

end AbstractCursor

/-- What is done with a cursor, or by its holder with the session: it enters or leaves a transaction, or is ended. -/
inductive Call (δ τ : Type)
  | method (m : Method)
  | toArray
  | forEach (iterator : Iterator δ τ)
  | close
  | rewind
  | session (inTransaction hasEnded : Bool)

/-- The call reads the cursor. -/
def Call.fetches : Call δ τ → Bool
  | .method _ | .toArray | .forEach _ => true
  | _ => false

def Call.isClose : Call δ τ → Bool
  | .close => true
  | _ => false

def Call.isRewind : Call δ τ → Bool
  | .rewind => true
  | _ => false

/-- A cursor with the commands that it has issued. A call that does not come back leaves it waiting. -/
structure Issuing (δ τ : Type) where
  reading : Reading δ τ
  commands : List CursorCommand := []
  waiting : Bool := false

/-- The commands of a call, and the cursor that it leaves when it comes back. -/
def AbstractCursor.issue (env : CursorEnv δ τ) (fuel : Nat) (r : Reading δ τ) :
    Call δ τ → List CursorCommand × Option (Reading δ τ)
  | .method m =>
    let commands :=
      match m with
      | .next => if r.cursor.id = some .zero then [] else (nextIssuing env true r.replies r.cursor).1
      | .tryNext => if r.cursor.id = some .zero then [] else (nextIssuing env false r.replies r.cursor).1
      | .hasNext =>
        if r.cursor.id = some .zero ∨ r.cursor.documents ≠ [] then []
        else (nextIssuing env true r.replies r.cursor).1
    (commands, (AbstractCursor.call env r m).map (·.2))
  | .toArray =>
    ((fetchDocsIssuing env (toArrayCallback env) fuel [] r).1, (AbstractCursor.toArray env fuel [] r).map (·.2))
  | .forEach iterator =>
    ((fetchDocsIssuing env (forEachCallback env iterator) fuel [] r).1,
      (AbstractCursor.forEach env iterator fuel [] r).map (·.reading))
  | .close => ([], some { r with cursor := r.cursor.close env })
  | .rewind => ([], some { r with cursor := r.cursor.rewind })
  | .session inTransaction hasEnded =>
    -- a session of its own is in nobody else's hands
    let session := r.cursor.session.map fun session =>
      if session.explicit then { session with inTransaction, hasEnded } else session
    ([], some { r with cursor := { r.cursor with session } })

/-- A call, when no other is waiting for an answer. -/
def Issuing.step (env : CursorEnv δ τ) (fuel : Nat) (s : Issuing δ τ) (call : Call δ τ) : Option (Issuing δ τ) :=
  if s.waiting then none
  else
    match AbstractCursor.issue env fuel s.reading call with
    | (commands, some reading) => some { reading, commands := s.commands ++ commands }
    | (commands, none) => some { s with commands := s.commands ++ commands, waiting := true }

/-- A new cursor with a session. -/
def Issuing.new (session : CursorSession) (replies : Replies δ) : Issuing δ τ where
  reading := ⟨{ session := some session }, replies⟩

/-! ## What becomes of a session -/

/-- The cursor has a session that was made for a caller, which it does not own. -/
def HasExplicit (c : AbstractCursor δ τ) : Prop := ∃ session, c.session = some session ∧ session.explicit = true ∧
  session.owned = false

/-- The cursor owns no session that was made for a caller, and has ended none. -/
structure OwnsImplicit (c : AbstractCursor δ τ) : Prop where
  session : ∀ session, c.session = some session → session.explicit = true → session.owned = false
  effects : ∀ session error, CursorEffect.endSession session error ∈ c.effects → session.explicit = false

/-- What the cursor has and owns is as good after as before. -/
structure Keeps (c c' : AbstractCursor δ τ) : Prop where
  explicit : HasExplicit c → HasExplicit c'
  owns : OwnsImplicit c → OwnsImplicit c'

/-- The command is issued with a session that was made for a caller. -/
def CursorCommand.Explicit (command : CursorCommand) : Prop :=
  ∃ session, command.session = some session ∧ session.explicit = true

section Keeping

variable {env : CursorEnv δ τ} {c c' c'' : AbstractCursor δ τ}

theorem Keeps.refl (c : AbstractCursor δ τ) : Keeps c c := ⟨id, id⟩

theorem Keeps.trans (h : Keeps c c') (h' : Keeps c' c'') : Keeps c c'' :=
  ⟨h'.explicit ∘ h.explicit, h'.owns ∘ h.owns⟩

/-- A change of anything but the session, with effects that end none. -/
theorem Keeps.of_session (hsession : c'.session = c.session)
    (heffects : ∀ session error, CursorEffect.endSession session error ∈ c'.effects →
      CursorEffect.endSession session error ∈ c.effects) : Keeps c c' := by
  refine ⟨?_, fun h => ⟨?_, fun s e he => h.effects s e (heffects s e he)⟩⟩
  · rintro ⟨s, hs, hall⟩
    exact ⟨s, hsession.trans hs, hall⟩
  · intro s hs
    exact h.session s (hsession.symm.trans hs)

theorem emitClose_keeps (c : AbstractCursor δ τ) : Keeps c c.emitClose := by
  refine .of_session rfl fun session error he => ?_
  simpa [AbstractCursor.emitClose] using he

/-- Only a session of its own is ended. -/
theorem releaseSession_keeps (c : AbstractCursor δ τ) (error : Option AnyError) : Keeps c (c.releaseSession error) := by
  unfold AbstractCursor.releaseSession
  cases hsession : c.session with
  | none => exact .refl c
  | some session =>
    dsimp only
    by_cases howned : session.owned = true
    · rw [if_pos howned]
      constructor
      · rintro ⟨s, hs, -, hnot⟩
        obtain rfl := Option.some.inj (hsession.symm.trans hs)
        rw [howned] at hnot
        cases hnot
      · intro h
        have hexplicit : session.explicit = false := by
          rw [Bool.eq_false_iff]
          intro he
          have hnot := h.session session hsession he
          rw [howned] at hnot
          cases hnot
        constructor
        · intro s hs he
          cases hs
          rw [show ({ session with hasEnded := true } : CursorSession).explicit = session.explicit from rfl,
            hexplicit] at he
          cases he
        · intro s e he
          simp only [List.mem_append, List.mem_singleton, CursorEffect.endSession.injEq] at he
          rcases he with he | ⟨rfl, -⟩
          · exact h.effects s e he
          · exact hexplicit
    · rw [if_neg howned]
      split
      · exact .of_session hsession.symm fun s e he => by simpa using he
      · exact .refl c

theorem cleanupCursor_keeps (env : CursorEnv δ τ) (c : AbstractCursor δ τ) (error : Option AnyError)
    (needsToEmitClosed : Option Bool) : Keeps c (cleanupCursor env c error needsToEmitClosed) := by
  unfold cleanupCursor
  dsimp only
  by_cases hnetwork : (env.loadBalanced && error.any (·.isNetworkError)) = true
  · rw [if_pos hnetwork]
    exact (releaseSession_keeps c error).trans (emitClose_keeps _)
  rw [if_neg hnetwork]
  by_cases hzero : (c.id.all (·.isZero) || !c.server) = true
  · rw [if_pos hzero]
    refine Keeps.trans ?_ (releaseSession_keeps _ error)
    split
    · exact .of_session rfl fun s e he => by simpa [AbstractCursor.emitClose] using he
    · exact .refl c
  · rw [if_neg hzero]
    refine Keeps.trans ?_ ((releaseSession_keeps _ error).trans (emitClose_keeps _))
    exact .of_session rfl fun s e he => by simpa using he

theorem startSession_keeps (env : CursorEnv δ τ) (c : AbstractCursor δ τ) : Keeps c (startSession env c) := by
  unfold startSession
  split
  · rename_i hnone
    simp only [Bool.and_eq_true, Option.isNone_iff_eq_none] at hnone
    constructor
    · rintro ⟨s, hs, -⟩
      rw [hnone.1] at hs
      cases hs
    · refine fun h => ⟨fun s hs he => ?_, h.effects⟩
      cases hs
      cases he
  · exact .refl c

theorem receiveFirst_keeps (c : AbstractCursor δ τ) (reply : Reply δ) : Keeps c (receiveFirst c reply) := by
  rcases reply with ⟨id, batch⟩ | ⟨_ | cursorId, documents, response⟩ <;>
    exact .of_session rfl fun _ _ he => he

theorem nextDocument_keeps (env : CursorEnv δ τ) (c : AbstractCursor δ τ) : Keeps c (nextDocument env c).2 := by
  unfold nextDocument
  cases c.documents with
  | nil => exact .refl c
  | cons doc rest =>
    dsimp only
    split
    · split <;> exact .of_session rfl fun _ _ he => he
    · exact .of_session rfl fun _ _ he => he

theorem finish_keeps (env : CursorEnv δ τ) (c : AbstractCursor δ τ) (error : Option AnyError) (replies : Replies δ) :
    Keeps c (finish env c error replies).cursor :=
  (cleanupCursor_keeps env c error none).trans (nextDocument_keeps env _)

theorem HasExplicit.creating (h : HasExplicit c) : (CursorCommand.creating c.session).Explicit := by
  obtain ⟨session, hs, he, -⟩ := h
  exact ⟨session, hs, he⟩

theorem HasExplicit.getMore (h : HasExplicit c) : (CursorCommand.getMore c.session).Explicit := by
  obtain ⟨session, hs, he, -⟩ := h
  exact ⟨session, hs, he⟩

/-- A cursor with a session of the caller fetches with it. -/
structure IssuesExplicit (c : AbstractCursor δ τ) (issued : List CursorCommand × Option (AbstractCursor δ τ)) : Prop where
  commands : HasExplicit c → ∀ command ∈ issued.1, command.Explicit
  keeps : ∀ c', issued.2 = some c' → Keeps c c'

theorem IssuesExplicit.one {command : CursorCommand} (hcommand : HasExplicit c → command.Explicit)
    {out : Option (AbstractCursor δ τ)} (hout : ∀ c', out = some c' → Keeps c c') : IssuesExplicit c ([command], out) := by
  refine ⟨fun h command' hmem => ?_, hout⟩
  obtain rfl := List.mem_singleton.1 hmem
  exact hcommand h

theorem IssuesExplicit.cons {command : CursorCommand} {issued : List CursorCommand × Option (AbstractCursor δ τ)}
    (hcommand : HasExplicit c → command.Explicit) (hkeeps : Keeps c c') (h : IssuesExplicit c' issued) :
    IssuesExplicit c (command :: issued.1, issued.2) := by
  refine ⟨fun hc command' hmem => ?_, fun c'' hout => hkeeps.trans (h.keeps c'' hout)⟩
  rcases List.mem_cons.1 hmem with rfl | hlater
  · exact hcommand hc
  · exact h.commands (hkeeps.explicit hc) command' hlater

theorem keeps_returned {out : Returned δ τ} (hkeeps : Keeps c out.cursor) :
    ∀ c', (some out).map (·.cursor) = some c' → Keeps c c' := by
  intro c' hout
  cases hout
  exact hkeeps

/-- Nothing has to be fetched. -/
theorem IssuesExplicit.nothing {out : Returned δ τ} (hkeeps : Keeps c out.cursor) :
    IssuesExplicit c (([] : List CursorCommand), (some out).map (·.cursor)) :=
  ⟨fun _ _ hmem => absurd hmem List.not_mem_nil, keeps_returned hkeeps⟩

theorem nextIssuing_explicit (env : CursorEnv δ τ) (blocking : Bool) (replies : Replies δ) (c : AbstractCursor δ τ) :
    IssuesExplicit c ((nextIssuing env blocking replies c).1,
      (nextIssuing env blocking replies c).2.map (·.cursor)) := by
  induction replies generalizing c with
  | nil =>
    unfold nextIssuing
    by_cases hclosed : c.closed = true
    · rw [if_pos hclosed]
      exact .nothing (.refl c)
    by_cases hdocs : (!c.documents.isEmpty) = true
    · rw [if_neg hclosed, if_pos hdocs]
      exact .nothing (nextDocument_keeps env c)
    rw [if_neg hclosed, if_neg hdocs]
    have hnone : ∀ c', (none : Option (Returned δ τ)).map (·.cursor) = some c' → Keeps c c' :=
      fun c' hout => by cases hout
    cases c.id with
    | none => exact .one (fun h => ((startSession_keeps env c).explicit h).creating) hnone
    | some id =>
      dsimp only
      by_cases hdead : cursorIsDead c = true
      · rw [if_pos hdead]
        exact .nothing (cleanupCursor_keeps env c none none)
      · rw [if_neg hdead]
        exact .one HasExplicit.getMore hnone
  | cons reply rest ih =>
    unfold nextIssuing
    by_cases hclosed : c.closed = true
    · rw [if_pos hclosed]
      exact .nothing (.refl c)
    by_cases hdocs : (!c.documents.isEmpty) = true
    · rw [if_neg hclosed, if_pos hdocs]
      exact .nothing (nextDocument_keeps env c)
    rw [if_neg hclosed, if_neg hdocs]
    cases c.id with
    | none =>
      have hstart := startSession_keeps env c
      have hcommand := fun h => (hstart.explicit h).creating
      cases reply with
      | error e =>
        have hinit : Keeps (startSession env c) { startSession env c with initialized := true } :=
          .of_session rfl fun _ _ he => he
        exact .one hcommand (keeps_returned ((hstart.trans hinit).trans (finish_keeps env _ (some e) rest)))
      | ok reply =>
        have hreceived := hstart.trans (receiveFirst_keeps (startSession env c) reply)
        dsimp only
        by_cases hdead : cursorIsDead (receiveFirst (startSession env c) reply) = true
        · rw [if_pos hdead]
          exact .one hcommand (keeps_returned (hreceived.trans (finish_keeps env _ none rest)))
        · rw [if_neg hdead]
          have hrest := ih (receiveFirst (startSession env c) reply)
          exact hrest.cons hcommand hreceived
    | some id =>
      dsimp only
      by_cases hdead : cursorIsDead c = true
      · rw [if_pos hdead]
        exact .nothing (cleanupCursor_keeps env c none none)
      rw [if_neg hdead]
      have hcommand : HasExplicit c → (CursorCommand.getMore c.session).Explicit := HasExplicit.getMore
      cases reply with
      | error e => exact .one hcommand (keeps_returned (finish_keeps env c (some e) rest))
      | ok reply =>
        cases reply with
        | other cursorId documents response => exact .one hcommand fun c' hout => by cases hout
        | cursor value batch =>
          have hreceived : Keeps c { c with documents := batch.map .document, id := some (.decoded value) } :=
            .of_session rfl fun _ _ he => he
          dsimp only
          split
          · exact .one hcommand (keeps_returned (hreceived.trans (finish_keeps env _ none rest)))
          · split
            · exact .one hcommand (keeps_returned hreceived)
            · have hrest := ih { c with documents := batch.map .document, id := some (.decoded value) }
              exact hrest.cons hcommand hreceived

/-- A loop whose callback leaves the session as it is, where `final` is the cursor that it ends with. -/
theorem fetchDocsIssuing_explicit {σ ρ : Type} (env : CursorEnv δ τ) (final : ρ → AbstractCursor δ τ)
    {callback : σ → Returned δ τ → ρ ⊕ (σ × Reading δ τ)}
    (hdone : ∀ s out done, callback s out = .inl done → Keeps out.cursor (final done))
    (hnext : ∀ s out s' r, callback s out = .inr (s', r) → Keeps out.cursor r.cursor) :
    ∀ (fuel : Nat) (s : σ) (r : Reading δ τ), IssuesExplicit r.cursor
      ((fetchDocsIssuing env callback fuel s r).1, (fetchDocsIssuing env callback fuel s r).2.map final)
  | 0, _, _ => ⟨fun _ _ hmem => absurd hmem List.not_mem_nil, fun _ hout => by cases hout⟩
  | fuel + 1, s, r => by
    have hissued := nextIssuing_explicit env true r.replies r.cursor
    unfold fetchDocsIssuing
    rcases hissue : nextIssuing env true r.replies r.cursor with ⟨commands, out⟩
    rw [hissue] at hissued
    cases out with
    | none => exact ⟨hissued.commands, fun _ hout => by cases hout⟩
    | some out =>
      have hkeeps := hissued.keeps out.cursor rfl
      dsimp only
      cases hcallback : callback s out with
      | inl done =>
        refine ⟨hissued.commands, fun c' hout => ?_⟩
        cases hout
        exact hkeeps.trans (hdone s out done hcallback)
      | inr again =>
        obtain ⟨s', r'⟩ := again
        have hrest := fetchDocsIssuing_explicit env final hdone hnext fuel s' r'
        have hboth := hkeeps.trans (hnext s out s' r' hcallback)
        refine ⟨fun hc command hmem => ?_, fun c' hout => hboth.trans (hrest.keeps c' hout)⟩
        rcases List.mem_append.1 hmem with hfirst | hlater
        · exact hissued.commands hc command hfirst
        · exact hrest.commands (hboth.explicit hc) command hlater

theorem keeps_documents (c : AbstractCursor δ τ) (items : List (Item δ τ)) : Keeps c { c with documents := items } :=
  .of_session rfl fun _ _ he => he

theorem toArrayCallback_keeps (env : CursorEnv δ τ) (docs : List (Option (Item δ τ))) (out : Returned δ τ) :
    (∀ done, toArrayCallback env docs out = .inl done → Keeps out.cursor done.2.cursor) ∧
      ∀ docs' r, toArrayCallback env docs out = .inr (docs', r) → Keeps out.cursor r.cursor := by
  unfold toArrayCallback
  cases out.error with
  | some error => exact ⟨fun done hout => by cases hout; exact .refl _, fun _ _ hout => by cases hout⟩
  | none =>
    cases out.result with
    | none => exact ⟨fun done hout => by cases hout; exact .refl _, fun _ _ hout => by cases hout⟩
    | some doc => exact ⟨fun _ hout => (by cases hout), fun docs' r hout => by cases hout; exact keeps_documents _ []⟩

theorem forEachCallback_keeps (env : CursorEnv δ τ) (iterator : Iterator δ τ) (passed : List (Option (Item δ τ)))
    (out : Returned δ τ) :
    (∀ done, forEachCallback env iterator passed out = .inl done → Keeps out.cursor done.reading.cursor) ∧
      ∀ passed' r, forEachCallback env iterator passed out = .inr (passed', r) → Keeps out.cursor r.cursor := by
  unfold forEachCallback
  cases out.error with
  | some error => exact ⟨fun done hout => by cases hout; exact .refl _, fun _ _ hout => by cases hout⟩
  | none =>
    cases out.result with
    | none => exact ⟨fun done hout => by cases hout; exact .refl _, fun _ _ hout => by cases hout⟩
    | some doc =>
      dsimp only
      cases iterator passed (some doc) with
      | throw error => exact ⟨fun done hout => by cases hout; exact .refl _, fun _ _ hout => by cases hout⟩
      | stop => exact ⟨fun done hout => by cases hout; exact .refl _, fun _ _ hout => by cases hout⟩
      | proceed =>
        dsimp only
        obtain ⟨passed', verdict⟩ := iterateBatch iterator (out.cursor.documents.map env.apply) (passed ++ [some doc])
        have hempty := keeps_documents out.cursor []
        cases verdict with
        | throw error => exact ⟨fun done hout => by cases hout; exact hempty, fun _ _ hout => by cases hout⟩
        | stop => exact ⟨fun done hout => by cases hout; exact hempty, fun _ _ hout => by cases hout⟩
        | proceed => exact ⟨fun _ hout => (by cases hout), fun passed' r hout => by cases hout; exact hempty⟩

theorem close_keeps (env : CursorEnv δ τ) (c : AbstractCursor δ τ) : Keeps c (c.close env) := by
  have hclosed : Keeps c { c with closed := true } := .of_session rfl fun _ _ he => he
  exact hclosed.trans (cleanupCursor_keeps env _ none _)

/-- `rewind` ends only a session that was not made for a caller. -/
theorem rewind_owns (h : OwnsImplicit c) : OwnsImplicit c.rewind := by
  unfold AbstractCursor.rewind
  by_cases hinit : (!c.initialized) = true
  · rwa [if_pos hinit]
  rw [if_neg hinit]
  cases hsession : c.session with
  | none => exact ⟨fun s hs => (by cases hs), h.effects⟩
  | some session =>
    dsimp only
    split
    · rename_i hends
      refine ⟨fun s hs => (by cases hs), fun s e he => ?_⟩
      simp only [List.mem_append, List.mem_singleton, CursorEffect.endSession.injEq] at he
      rcases he with he | ⟨rfl, -⟩
      · exact h.effects s e he
      · exact hends.1
    · exact ⟨fun s hs => (by cases hs), h.effects⟩

end Keeping

/-! ## Calls and sessions -/

section Calls

variable {env : CursorEnv δ τ} {r : Reading δ τ}

/-- A call of `next`, `hasNext` or `tryNext` issues the commands of a fetch, or none. -/
theorem method_explicit (env : CursorEnv δ τ) (fuel : Nat) (r : Reading δ τ) (m : Method) :
    IssuesExplicit r.cursor ((AbstractCursor.issue env fuel r (.method m)).1,
      (AbstractCursor.issue env fuel r (.method m)).2.map (·.cursor)) := by
  have hfetch := nextIssuing_explicit env
  have hnothing : ∀ {command : CursorCommand}, command ∉ ([] : List CursorCommand) := List.not_mem_nil
  constructor
  · intro hc command hmem
    unfold AbstractCursor.issue at hmem
    cases m with
    | next =>
      dsimp only at hmem
      split at hmem
      · exact absurd hmem hnothing
      · exact (hfetch true r.replies r.cursor).commands hc command hmem
    | tryNext =>
      dsimp only at hmem
      split at hmem
      · exact absurd hmem hnothing
      · exact (hfetch false r.replies r.cursor).commands hc command hmem
    | hasNext =>
      dsimp only at hmem
      split at hmem
      · exact absurd hmem hnothing
      · exact (hfetch true r.replies r.cursor).commands hc command hmem
  · intro c' hout
    have hkeeps : ∀ blocking out, next env blocking r.replies r.cursor = some out → Keeps r.cursor out.cursor := by
      intro blocking out hnext
      refine (hfetch blocking r.replies r.cursor).keeps out.cursor ?_
      rw [nextIssuing_erase, hnext]
      rfl
    have hread : ∀ blocking a r', AbstractCursor.fetch env blocking r = some (a, r') → Keeps r.cursor r'.cursor := by
      intro blocking a r' hcall
      unfold AbstractCursor.fetch at hcall
      by_cases hid : r.cursor.id = some .zero
      · rw [if_pos hid] at hcall
        cases hcall
        exact .refl _
      · rw [if_neg hid] at hcall
        obtain ⟨out, hnext, hcall⟩ := Option.bind_eq_some_iff.1 hcall
        cases hcall
        exact hkeeps blocking out hnext
    simp only [AbstractCursor.issue, Option.map_eq_some_iff, Prod.exists, exists_eq_right] at hout
    obtain ⟨r', ⟨a, hcall⟩, rfl⟩ := hout
    cases m with
    | next => exact hread true a r' hcall
    | tryNext => exact hread false a r' hcall
    | hasNext =>
      replace hcall : AbstractCursor.hasNext env r = some (a, r') := hcall
      unfold AbstractCursor.hasNext at hcall
      by_cases hid : r.cursor.id = some .zero
      · rw [if_pos hid] at hcall
        cases hcall
        exact .refl _
      rw [if_neg hid] at hcall
      by_cases hdocs : (!r.cursor.documents.isEmpty) = true
      · rw [if_pos hdocs] at hcall
        cases hcall
        exact .refl _
      rw [if_neg hdocs] at hcall
      obtain ⟨out, hnext, hcall⟩ := Option.bind_eq_some_iff.1 hcall
      have hout := hkeeps true out hnext
      cases herror : out.error with
      | some error =>
        simp only [herror] at hcall
        cases hcall
        exact hout
      | none =>
        cases hresult : out.result with
        | none =>
          simp only [herror, hresult] at hcall
          cases hcall
          exact hout
        | some item =>
          simp only [herror, hresult] at hcall
          split at hcall
          · cases hcall
            exact hout.trans (keeps_documents _ _)
          · cases hcall
            exact hout

/-- Any call but the rewind of a cursor that is initialized keeps the session and issues its commands with it. -/
theorem issue_explicit (env : CursorEnv δ τ) (fuel : Nat) (r : Reading δ τ) (call : Call δ τ)
    (hcall : call.isRewind = true → r.cursor.initialized = false) :
    IssuesExplicit r.cursor ((AbstractCursor.issue env fuel r call).1,
      (AbstractCursor.issue env fuel r call).2.map (·.cursor)) := by
  have hnone : ∀ {c' : AbstractCursor δ τ}, Keeps r.cursor c' →
      IssuesExplicit r.cursor (([] : List CursorCommand), some c') := by
    intro c' hkeeps
    refine ⟨fun _ _ hmem => absurd hmem List.not_mem_nil, fun c'' hout => ?_⟩
    cases hout
    exact hkeeps
  cases call with
  | method m => exact method_explicit env fuel r m
  | toArray =>
    have hloop := fetchDocsIssuing_explicit env (fun done => done.2.cursor)
      (fun docs out => (toArrayCallback_keeps env docs out).1) (fun docs out => (toArrayCallback_keeps env docs out).2)
      fuel [] r
    rw [fetchDocsIssuing_erase] at hloop
    simpa [AbstractCursor.issue, AbstractCursor.toArray, Function.comp_def] using hloop
  | forEach iterator =>
    have hloop := fetchDocsIssuing_explicit env (fun done => done.reading.cursor)
      (fun docs out => (forEachCallback_keeps env iterator docs out).1)
      (fun docs out => (forEachCallback_keeps env iterator docs out).2) fuel [] r
    rw [fetchDocsIssuing_erase] at hloop
    simpa [AbstractCursor.issue, AbstractCursor.forEach, Function.comp_def] using hloop
  | close => exact hnone (close_keeps env r.cursor)
  | rewind =>
    refine hnone ?_
    unfold AbstractCursor.rewind
    rw [if_pos (by rw [hcall rfl]; rfl)]
    exact .refl _
  | session inTransaction hasEnded =>
    refine hnone ⟨?_, fun h => ⟨?_, h.effects⟩⟩
    · rintro ⟨session, hs, he, ho⟩
      exact ⟨{ session with inTransaction, hasEnded }, by simp [hs, he], he, ho⟩
    · intro session hs he
      obtain ⟨session', hs', rfl⟩ := Option.map_eq_some_iff.1 hs
      by_cases he' : session'.explicit = true
      · rw [if_pos he']
        exact h.session session' hs' he'
      · rw [if_neg he'] at he
        exact absurd he he'

/-- No call ends a session that was made for a caller. -/
theorem issue_owns (env : CursorEnv δ τ) (fuel : Nat) {r r' : Reading δ τ} {call : Call δ τ}
    (h : OwnsImplicit r.cursor) (hout : (AbstractCursor.issue env fuel r call).2 = some r') :
    OwnsImplicit r'.cursor := by
  by_cases hcall : call.isRewind = true
  · cases call with
    | rewind =>
      cases hout
      exact rewind_owns h
    | method _ => cases hcall
    | toArray => cases hcall
    | forEach _ => cases hcall
    | close => cases hcall
    | session _ _ => cases hcall
  · refine ((issue_explicit env fuel r call fun hr => absurd hr hcall).keeps r'.cursor ?_).owns h
    dsimp only
    rw [hout]
    rfl

end Calls

end MongoDriver.Cursor
