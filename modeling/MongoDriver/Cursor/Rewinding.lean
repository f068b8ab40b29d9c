/-
When the commands of a cursor are issued with the session that it was given (`src/cursor/abstract_cursor.ts`). `rewind`
takes the session away, also one that was made for a caller, and the next command starts another; so the commands are
issued with the given session exactly in the runs that do not read after a rewind.
-/
import MongoDriver.Base.Run
import MongoDriver.Cursor.Issuing

namespace MongoDriver.Cursor

variable {δ τ : Type}

/-- No rewind of an initialized cursor is followed by a call that reads, unless the cursor is closed in between. -/
def RewindsUnread (env : CursorEnv δ τ) (fuel : Nat) : Issuing δ τ → List (Call δ τ) → Prop
  | _, [] => True
  | s, call :: calls =>
    (call.isRewind = true → s.reading.cursor.initialized = true →
      ∀ later ∈ calls.takeWhile (!·.isClose), later.fetches = false) ∧
    ∀ t, Issuing.step env fuel s call = some t → RewindsUnread env fuel t calls

/-! ## After a rewind -/

section Calls

variable {env : CursorEnv δ τ} {r : Reading δ τ}

/-- The cursor is as new, and has no session. -/
structure Rewound (c : AbstractCursor δ τ) : Prop where
  id : c.id = none
  documents : c.documents = []
  closed : c.closed = false
  initialized : c.initialized = false
  session : c.session = none

/-- The cursor was closed before it was initialized. -/
structure Done (c : AbstractCursor δ τ) : Prop where
  id : c.id = some .zero
  closed : c.closed = true
  initialized : c.initialized = false

theorem rewind_rewound {c : AbstractCursor δ τ} (h : c.initialized = true) : Rewound c.rewind := by
  unfold AbstractCursor.rewind
  rw [if_neg (by simp [h])]
  cases hsession : c.session with
  | none => exact ⟨rfl, rfl, rfl, rfl, rfl⟩
  | some session =>
    dsimp only
    split <;> exact ⟨rfl, rfl, rfl, rfl, rfl⟩

/-- The rewind of a cursor that is not initialized does nothing. -/
theorem rewind_eq {c : AbstractCursor δ τ} (h : c.initialized = false) : c.rewind = c := by
  unfold AbstractCursor.rewind
  rw [if_pos (by rw [h]; rfl)]

theorem Rewound.close_done {c : AbstractCursor δ τ} (h : Rewound c) : Done (c.close env) := by
  unfold AbstractCursor.close cleanupCursor
  simp [h.id, h.closed, h.session, h.initialized, AbstractCursor.releaseSession, AbstractCursor.emitClose]
  exact ⟨rfl, rfl, rfl⟩

theorem releaseSession_initialized (c : AbstractCursor δ τ) (error : Option AnyError) :
    (c.releaseSession error).initialized = c.initialized := by
  rw [releaseSession_eq]

theorem Done.close_done {c : AbstractCursor δ τ} (h : Done c) : Done (c.close env) := by
  have hclose : c.close env = ({ c with closed := true } : AbstractCursor δ τ).releaseSession none := by
    unfold AbstractCursor.close cleanupCursor
    simp [h.id, h.closed, CursorId.isZero]
  rw [hclose]
  refine ⟨?_, ?_, ?_⟩
  · rw [releaseSession_id, h.id]
  · rw [releaseSession_closed]
  · rw [releaseSession_initialized, h.initialized]

/-- Such a cursor issues no command and stays as it is. -/
theorem Done.issue (fuel : Nat) (h : Done r.cursor) (call : Call δ τ) :
    ∃ r', AbstractCursor.issue env (fuel + 1) r call = ([], some r') ∧ Done r'.cursor := by
  have hissuing : ∀ blocking, nextIssuing env blocking r.replies r.cursor =
      ([], some { cursor := r.cursor, replies := r.replies }) := by
    intro blocking
    unfold nextIssuing
    rw [if_pos h.closed]
  have hnext : next env true r.replies r.cursor = some { cursor := r.cursor, replies := r.replies } :=
    next_closed true r.replies h.closed
  cases call with
  | method m =>
    refine ⟨r, ?_, h⟩
    cases m <;>
      simp [AbstractCursor.issue, AbstractCursor.call, AbstractCursor.fetch, AbstractCursor.hasNext, h.id]
  | toArray =>
    refine ⟨r, ?_, h⟩
    simp [AbstractCursor.issue, AbstractCursor.toArray, fetchDocsIssuing, fetchDocs, hissuing, hnext, toArrayCallback]
  | forEach iterator =>
    refine ⟨r, ?_, h⟩
    simp [AbstractCursor.issue, AbstractCursor.forEach, fetchDocsIssuing, fetchDocs, hissuing, hnext, forEachCallback]
  | close => exact ⟨_, rfl, h.close_done⟩
  | rewind =>
    refine ⟨_, rfl, ?_⟩
    dsimp only
    rw [rewind_eq h.initialized]
    exact h
  | session inTransaction hasEnded => exact ⟨_, rfl, h.id, h.closed, h.initialized⟩

/-- A rewound cursor that is read issues its first command with no session of a caller. -/
theorem Rewound.reads (fuel : Nat) (h : Rewound r.cursor) {call : Call δ τ} (hcall : call.fetches = true) :
    ∃ command ∈ (AbstractCursor.issue env (fuel + 1) r call).1, ¬ command.Explicit := by
  have hissuing : ∀ blocking, ∃ more, (nextIssuing env blocking r.replies r.cursor).1 =
      .creating (startSession env r.cursor).session :: more := by
    intro blocking
    unfold nextIssuing
    rw [if_neg (by simp [h.closed]), if_neg (by simp [h.documents])]
    simp only [h.id]
    cases r.replies with
    | nil => exact ⟨[], rfl⟩
    | cons reply rest =>
      cases reply with
      | error e => exact ⟨[], rfl⟩
      | ok reply =>
        dsimp only
        split
        · exact ⟨[], rfl⟩
        · exact ⟨_, rfl⟩
  have hnot : ¬ (CursorCommand.creating (startSession env r.cursor).session).Explicit := by
    rintro ⟨session, hs, he⟩
    unfold startSession at hs
    rw [h.session] at hs
    split at hs
    · cases hs
      cases he
    · rw [CursorCommand.session, h.session] at hs
      cases hs
  have hloop : ∀ {σ ρ : Type} (callback : σ → Returned δ τ → ρ ⊕ (σ × Reading δ τ)) (s : σ),
      .creating (startSession env r.cursor).session ∈ (fetchDocsIssuing env callback (fuel + 1) s r).1 := by
    intro σ ρ callback s
    obtain ⟨more, hmore⟩ := hissuing true
    unfold fetchDocsIssuing
    rcases hissue : nextIssuing env true r.replies r.cursor with ⟨commands, out⟩
    rw [hissue] at hmore
    obtain rfl : commands = _ := hmore
    cases out with
    | none => exact List.mem_cons_self ..
    | some out =>
      dsimp only
      cases callback s out with
      | inl done => exact List.mem_cons_self ..
      | inr again => exact List.mem_cons_self ..
  refine ⟨_, ?_, hnot⟩
  cases call with
  | method m =>
    obtain ⟨more, hmore⟩ := hissuing true
    obtain ⟨more', hmore'⟩ := hissuing false
    cases m <;> simp [AbstractCursor.issue, h.id, h.documents, hmore, hmore']
  | toArray => exact hloop (toArrayCallback env) []
  | forEach iterator => exact hloop (forEachCallback env iterator) []
  | close => cases hcall
  | rewind => cases hcall
  | session _ _ => cases hcall

/-- Other calls leave it rewound, or close it. -/
theorem Rewound.issue (fuel : Nat) (h : Rewound r.cursor) {call : Call δ τ} (hcall : call.fetches = false) :
    ∃ r', AbstractCursor.issue env (fuel + 1) r call = ([], some r') ∧
      (call.isClose = true → Done r'.cursor) ∧ (call.isClose = false → Rewound r'.cursor) := by
  cases call with
  | method m => cases hcall
  | toArray => cases hcall
  | forEach iterator => cases hcall
  | close => exact ⟨_, rfl, fun _ => h.close_done, fun hc => by cases hc⟩
  | rewind =>
    refine ⟨_, rfl, fun hc => (by cases hc), fun _ => ?_⟩
    dsimp only
    rw [rewind_eq h.initialized]
    exact h
  | session inTransaction hasEnded =>
    refine ⟨_, rfl, fun hc => (by cases hc), fun _ => ⟨h.id, h.documents, h.closed, h.initialized, ?_⟩⟩
    rw [show r.cursor.session = none from h.session]
    rfl

end Calls

/-! ## Runs -/

section Runs

variable {env : CursorEnv δ τ} {fuel : Nat} {s t : Issuing δ τ} {call : Call δ τ} {calls : List (Call δ τ)}

/-- All commands so far were issued with the session of the caller. -/
def Issuing.AllExplicit (s : Issuing δ τ) : Prop := ∀ command ∈ s.commands, command.Explicit

/-- What a call adds to the commands, and the cursor that it leaves. -/
theorem step_cases (h : Issuing.step env fuel s call = some t) :
    s.waiting = false ∧ t.commands = s.commands ++ (AbstractCursor.issue env fuel s.reading call).1 ∧
      ((AbstractCursor.issue env fuel s.reading call).2 = some t.reading ∧ t.waiting = false ∨
        (AbstractCursor.issue env fuel s.reading call).2 = none ∧ t.reading = s.reading ∧ t.waiting = true) := by
  unfold Issuing.step at h
  by_cases hwaiting : s.waiting = true
  · rw [if_pos hwaiting] at h
    cases h
  rw [if_neg hwaiting] at h
  rcases hissue : AbstractCursor.issue env fuel s.reading call with ⟨commands, out⟩
  rw [hissue] at h
  cases out with
  | some r =>
    cases h
    exact ⟨by simpa using hwaiting, rfl, .inl ⟨rfl, rfl⟩⟩
  | none =>
    cases h
    exact ⟨by simpa using hwaiting, rfl, .inr ⟨rfl, rfl, rfl⟩⟩

theorem exec_commands : ∀ {calls : List (Call δ τ)} {s t : Issuing δ τ},
    Run.exec (Issuing.step env fuel) s calls = some t → ∃ more, t.commands = s.commands ++ more
  | [], s, t, h => by
    cases h
    exact ⟨[], (List.append_nil _).symm⟩
  | call :: calls, s, t, h => by
    obtain ⟨u, hstep, hrun⟩ := (Run.exec_cons _).1 h
    obtain ⟨more, hmore⟩ := exec_commands hrun
    rw [(step_cases hstep).2.1, List.append_assoc] at hmore
    exact ⟨_, hmore⟩

/-- A call that waits for an answer is the last one. -/
theorem exec_waiting (hs : s.waiting = true) (h : Run.exec (Issuing.step env fuel) s calls = some t) :
    calls = [] ∧ s = t := by
  cases calls with
  | nil =>
    cases h
    exact ⟨rfl, rfl⟩
  | cons call calls =>
    obtain ⟨u, hstep, -⟩ := (Run.exec_cons _).1 h
    rw [(step_cases hstep).1] at hs
    cases hs

theorem allExplicit_append {more : List CursorCommand} (h : t.commands = s.commands ++ more) :
    t.AllExplicit ↔ s.AllExplicit ∧ ∀ command ∈ more, command.Explicit := by
  unfold Issuing.AllExplicit
  rw [h]
  exact List.forall_mem_append

/-- The step of a cursor that comes back. -/
theorem step_eq (hs : s.waiting = false) {commands : List CursorCommand} {r : Reading δ τ}
    (hissue : AbstractCursor.issue env fuel s.reading call = (commands, some r)) :
    Issuing.step env fuel s call = some { reading := r, commands := s.commands ++ commands } := by
  unfold Issuing.step
  rw [hissue, if_neg (by rw [hs]; exact Bool.false_ne_true)]

theorem exec_done : ∀ {calls : List (Call δ τ)} {s t : Issuing δ τ}, Done s.reading.cursor →
    Run.exec (Issuing.step env (fuel + 1)) s calls = some t → t.commands = s.commands
  | [], s, t, _, h => by
    cases h
    rfl
  | call :: calls, s, t, hs, h => by
    obtain ⟨u, hstep, hrun⟩ := (Run.exec_cons _).1 h
    obtain ⟨r, hissue, hr⟩ := hs.issue fuel call
    rw [step_eq (step_cases hstep).1 hissue] at hstep
    cases hstep
    exact (exec_done hr hrun).trans (List.append_nil _)

theorem rewindsUnread_done : ∀ {calls : List (Call δ τ)} {s : Issuing δ τ}, Done s.reading.cursor →
    RewindsUnread env (fuel + 1) s calls
  | [], _, _ => trivial
  | call :: calls, s, hs => by
    refine ⟨fun _ hinit => ?_, fun t hstep => ?_⟩
    · rw [hs.initialized] at hinit
      cases hinit
    · obtain ⟨r, hissue, hr⟩ := hs.issue fuel call
      rw [step_eq (step_cases hstep).1 hissue] at hstep
      cases hstep
      exact rewindsUnread_done hr

theorem takeWhile_open (h : call.isClose = false) :
    (call :: calls).takeWhile (!·.isClose) = call :: calls.takeWhile (!·.isClose) := by
  rw [List.takeWhile_cons, if_pos (by rw [h]; rfl)]

/-- After a rewind: all commands are issued with the session of the caller when there are none. -/
theorem exec_rewound : ∀ {calls : List (Call δ τ)} {s t : Issuing δ τ}, Rewound s.reading.cursor →
    Run.exec (Issuing.step env (fuel + 1)) s calls = some t →
      (t.AllExplicit ↔ s.AllExplicit ∧ ∀ later ∈ calls.takeWhile (!·.isClose), later.fetches = false)
  | [], s, t, _, h => by
    cases h
    exact (and_iff_left fun later hmem => absurd hmem List.not_mem_nil).symm
  | call :: calls, s, t, hs, h => by
    obtain ⟨u, hstep, hrun⟩ := (Run.exec_cons _).1 h
    by_cases hfetches : call.fetches = true
    · -- a command without the session, and it stays
      obtain ⟨command, hmem, hnot⟩ := hs.reads fuel hfetches
      obtain ⟨more, hmore⟩ := exec_commands hrun
      have hopen : call.isClose = false := by
        cases call <;> first | rfl | cases hfetches
      refine iff_of_false (fun hall => hnot (hall command ?_)) fun hall => ?_
      · rw [hmore, (step_cases hstep).2.1]
        exact List.mem_append_left _ (List.mem_append_right _ hmem)
      · have hno := hall.2 call (by rw [takeWhile_open hopen]; exact List.mem_cons_self ..)
        rw [hfetches] at hno
        cases hno
    have hno : call.fetches = false := by simpa using hfetches
    obtain ⟨r, hissue, hdone, hagain⟩ := hs.issue fuel hno
    rw [step_eq (step_cases hstep).1 hissue] at hstep
    cases hstep
    by_cases hclose : call.isClose = true
    · rw [List.takeWhile_cons_of_neg (by simp [hclose])]
      have hsame := (exec_done (hdone hclose) hrun).trans (List.append_nil _)
      unfold Issuing.AllExplicit
      rw [hsame]
      exact (and_iff_left fun later hmem => absurd hmem List.not_mem_nil).symm
    · have hopen : call.isClose = false := by simpa using hclose
      rw [takeWhile_open hopen, exec_rewound (hagain hopen) hrun, List.forall_mem_cons,
        and_iff_right hno]
      unfold Issuing.AllExplicit
      rw [List.append_nil]

theorem rewindsUnread_rewound : ∀ {calls : List (Call δ τ)} {s : Issuing δ τ}, Rewound s.reading.cursor →
    (∀ later ∈ calls.takeWhile (!·.isClose), later.fetches = false) → RewindsUnread env (fuel + 1) s calls
  | [], _, _, _ => trivial
  | call :: calls, s, hs, hunread => by
    refine ⟨fun _ hinit => ?_, fun t hstep => ?_⟩
    · rw [hs.initialized] at hinit
      cases hinit
    by_cases hclose : call.isClose = true
    · have hno : call.fetches = false := by
        cases call <;> first | rfl | cases hclose
      obtain ⟨r, hissue, hdone, -⟩ := hs.issue fuel hno
      rw [step_eq (step_cases hstep).1 hissue] at hstep
      cases hstep
      exact rewindsUnread_done (hdone hclose)
    · have hopen : call.isClose = false := by simpa using hclose
      rw [takeWhile_open hopen, List.forall_mem_cons] at hunread
      obtain ⟨r, hissue, -, hagain⟩ := hs.issue fuel hunread.1
      rw [step_eq (step_cases hstep).1 hissue] at hstep
      cases hstep
      exact rewindsUnread_rewound (hagain hopen) hunread.2

/-- While the cursor has its session: all commands are issued with it exactly when no rewind is read after. -/
theorem exec_explicit : ∀ {calls : List (Call δ τ)} {s t : Issuing δ τ}, HasExplicit s.reading.cursor →
    Run.exec (Issuing.step env (fuel + 1)) s calls = some t →
      (t.AllExplicit ↔ s.AllExplicit ∧ RewindsUnread env (fuel + 1) s calls)
  | [], s, t, _, h => by
    cases h
    exact (and_iff_left trivial).symm
  | call :: calls, s, t, hs, h => by
    obtain ⟨u, hstep, hrun⟩ := (Run.exec_cons _).1 h
    obtain ⟨hwaiting, hcommands, hcases⟩ := step_cases hstep
    have honly : (∀ v, Issuing.step env (fuel + 1) s call = some v → RewindsUnread env (fuel + 1) v calls) ↔
        RewindsUnread env (fuel + 1) u calls := by
      refine ⟨fun hall => hall u hstep, fun hu v hv => ?_⟩
      rwa [← Option.some.inj (hstep.symm.trans hv)]
    rw [RewindsUnread, honly]
    by_cases hrewinds : call.isRewind = true ∧ s.reading.cursor.initialized = true
    · -- the session is taken away
      obtain ⟨hrewind, hinit⟩ := hrewinds
      have hu : Rewound u.reading.cursor ∧ u.commands = s.commands := by
        cases call with
        | rewind =>
          rcases hcases with ⟨hr, -⟩ | ⟨hr, -⟩
          · have hreading := Option.some.inj hr
            rw [← hreading]
            exact ⟨rewind_rewound hinit, hcommands.trans (List.append_nil _)⟩
          · cases hr
        | method _ => cases hrewind
        | toArray => cases hrewind
        | forEach _ => cases hrewind
        | close => cases hrewind
        | session _ _ => cases hrewind
      rw [exec_rewound hu.1 hrun]
      unfold Issuing.AllExplicit
      rw [hu.2]
      refine and_congr_right' ⟨fun hunread => ⟨fun _ _ => hunread, rewindsUnread_rewound hu.1 hunread⟩, ?_⟩
      exact fun hall => hall.1 hrewind hinit
    · have hissue := issue_explicit env (fuel + 1) s.reading call fun hr => by
        simpa using fun hinit => hrewinds ⟨hr, hinit⟩
      have hu : u.AllExplicit ↔ s.AllExplicit :=
        (allExplicit_append hcommands).trans (and_iff_left (hissue.commands hs))
      rw [and_iff_right fun hr hinit => absurd ⟨hr, hinit⟩ hrewinds, ← hu]
      rcases hcases with ⟨hr, -⟩ | ⟨-, -, hwait⟩
      · refine exec_explicit ((hissue.keeps u.reading.cursor ?_).explicit hs) hrun
        rw [hr]
        rfl
      · obtain ⟨rfl, rfl⟩ := exec_waiting hwait hrun
        exact (and_iff_left trivial).symm

/-- No run ends a session that was made for a caller. -/
theorem exec_owns {es : List (Call δ τ)} (hs : OwnsImplicit s.reading.cursor)
    (h : Run.exec (Issuing.step env fuel) s es = some t) : OwnsImplicit t.reading.cursor := by
  refine Run.exec_inv (Issuing.step env fuel) (P := fun s => OwnsImplicit s.reading.cursor) ?_ hs h
  intro s call t hs hstep
  obtain ⟨-, -, ⟨hr, -⟩ | ⟨-, hr, -⟩⟩ := step_cases hstep
  · exact issue_owns env fuel hs hr
  · rw [hr]
    exact hs

end Runs

/-- For every session that was made for a caller, every server and every sequence of calls (also when the holder of the
session begins and ends transactions or ends it in between): the cursor never ends that session, and every command is
issued with it exactly when no rewind of an initialized cursor is followed by a call that reads. -/
theorem session_kept_iff (env : CursorEnv δ τ) (fuel : Nat) (session : CursorSession)
    (hexplicit : session.explicit = true) (howned : session.owned = false) (replies : Replies δ)
    (calls : List (Call δ τ)) (t : Issuing δ τ)
    (hrun : Run.exec (Issuing.step env (fuel + 1)) (Issuing.new session replies) calls = some t) :
    (∀ ended error, CursorEffect.endSession ended error ∈ t.reading.cursor.effects → ended.explicit = false) ∧
      ((∀ command ∈ t.commands, command.Explicit) ↔
        RewindsUnread env (fuel + 1) (Issuing.new session replies) calls) := by
  constructor
  · refine (exec_owns ⟨fun s hs _ => ?_, fun _ _ he => absurd he List.not_mem_nil⟩ hrun).effects
    cases hs
    exact howned
  · have hnew : HasExplicit (Issuing.new session replies : Issuing δ τ).reading.cursor :=
      ⟨session, rfl, hexplicit, howned⟩
    exact (exec_explicit hnew hrun).trans (and_iff_right fun _ hmem => absurd hmem List.not_mem_nil)

/-- A session of a caller who has begun a transaction, and a cursor on a server that has one document. -/
def reader : Issuing Nat Unit :=
  .new { owned := false, explicit := true, inTransaction := true } [.ok (.cursor 0 [1]), .ok (.cursor 0 [1])]

def readerEnv : CursorEnv Nat Unit where
  truthy _ := true

/-- Read to the end, rewound and closed. -/
theorem session_kept_iff_closed : ∃ t, Run.exec (Issuing.step readerEnv 5) reader [.toArray, .rewind, .close] = some t ∧
    (∀ ended error, CursorEffect.endSession ended error ∈ t.reading.cursor.effects → ended.explicit = false) ∧
      ((∀ command ∈ t.commands, command.Explicit) ↔ RewindsUnread readerEnv 5 reader [.toArray, .rewind, .close]) :=
  ⟨_, rfl, session_kept_iff readerEnv 4 _ rfl rfl _ _ _ rfl⟩

/-- Rewound and read again, in the transaction: the second `find` is not in it. -/
theorem rewound_leaves_the_transaction :
    ∃ t, Run.exec (Issuing.step readerEnv 5) reader [.toArray, .rewind, .toArray] = some t ∧
      t.commands = [.creating (some { owned := false, explicit := true, inTransaction := true }),
        .creating (some { owned := true })] ∧
      ¬ ∀ command ∈ t.commands, command.Explicit := by
  refine ⟨_, rfl, rfl, fun hall => ?_⟩
  obtain ⟨session, hs, he⟩ := hall (.creating (some { owned := true })) (List.mem_cons_of_mem _ (List.mem_cons_self ..))
  cases hs
  cases he

end MongoDriver.Cursor
