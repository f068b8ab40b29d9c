/-
What becomes of a change stream that is closed. A stream that is closed while it resumes has no cursor to close, and
nothing keeps the resume from creating one afterwards; closed at any other time it stays without a cursor.
-/
import MongoDriver.Cursor.ResumeQueue
import MongoDriver.Base.Heap

namespace MongoDriver.Cursor

/-- A task of the stream itself, not of a caller. -/
def Flight.isTask : Flight → Bool
  | .operation _ _ => false
  | _ => true

/-- A part of a resume. -/
def Flight.isResume : Flight → Bool
  | .waiting _ => true
  | .probing _ _ => true
  | _ => false

def Flight.isWaiting : Flight → Bool
  | .waiting _ => true
  | _ => false

def Flight.isProbing : Flight → Bool
  | .probing _ _ => true
  | _ => false

/-- A `next` of the cursor. -/
def Flight.isNext : Flight → Bool
  | .operation m _ => m = .next
  | _ => false

/-- The part of a stream that closing and resuming read and change. -/
structure Core where
  closed : Bool
  cursor : Option Nat
  cursors : List Bool
  changes : Nat
  closeDone : Option Nat
  tasks : List Flight

namespace ResumableStream

def core (s : ResumableStream) : Core where
  closed := s.closed
  cursor := s.cursor
  cursors := s.cursors
  changes := s.changes
  closeDone := s.closeDone
  tasks := s.flights.filter Flight.isTask

/-! ## Callers and requests leave the core alone -/

variable {τ : Type} (s : ResumableStream)

theorem core_answer (k : Nat) (result : Except AnyError Unit) : (s.answer k result).core = s.core := rfl

theorem core_operate (m : Method) (k : Nat) : (s.operate m k).core = s.core := by
  simp [core, operate, List.filter_append, Flight.isTask]

theorem core_begin (m : Method) (k : Nat) : (s.begin m k).core = s.core := by
  unfold begin
  split
  · exact core_answer s ..
  · split
    · exact core_operate s ..
    · rfl

theorem core_callRequest (err : Option AnyError) (request : Request) : (s.callRequest err request).core = s.core := by
  cases request with
  | next k => exact core_begin s ..
  | getCursor m k =>
    cases err with
    | some e => exact core_answer s ..
    | none =>
      cases hcursor : s.cursor with
      | none =>
        simp only [callRequest, hcursor]
        exact core_answer s ..
      | some r =>
        simp only [callRequest, hcursor]
        exact core_operate s ..

theorem core_drainQueue (err : Option AnyError) :
    ∀ (fuel : Nat) (s : ResumableStream) (called : List (Request × Except AnyError Nat)),
      (drainQueue err fuel s called).1.core = s.core
  | 0, _, _ => rfl
  | fuel + 1, s, called => by
    obtain hnil | ⟨requests, request, hqueue⟩ := List.eq_nil_or_concat' s.queue
    · rw [drainQueue_nil err _ called hnil]
    · obtain ⟨err', result, -, hstop | hgo⟩ := drainQueue_append err fuel called hqueue
      · rw [hstop]
        exact core_callRequest _ _ request
      · rw [hgo]
        exact (core_drainQueue err fuel _ _).trans (core_callRequest _ _ request)

theorem core_processResumeQueue (err : Option AnyError) : (s.processResumeQueue err).core = s.core :=
  core_drainQueue err _ s []

theorem core_callBack (callback : Option Nat) (result : Except AnyError Unit) :
    (s.callBack callback result).core = s.core := by
  cases callback with
  | none => rfl
  | some k => rfl

end ResumableStream

/-! ## Closing, changes and errors on the core -/

namespace Core

variable (c : Core)

/-- `close` is done. -/
def finished : Core := { c with closeDone := c.closeDone <|> some c.changes }

def close (after : AfterClose) : Core :=
  match c.cursor with
  | none => { c with closed := true }.finished
  | some r => { c with closed := true, cursors := c.cursors.set r true, tasks := c.tasks ++ [.closing after] }

/-- A resumable error: the cursor is given up. -/
def giveUp (r : Nat) (callback : Option Nat) : Core :=
  { c with cursor := none, cursors := c.cursors.set r true, tasks := c.tasks ++ [.waiting callback] }

end Core

/-- A change that closes an open stream. -/
def endsStream {τ : Type} : Option (Change τ) → Bool
  | none => true
  | some change => change.id.isNone

namespace ResumableStream

variable {τ : Type} (s : ResumableStream)

theorem core_finishClose (after : AfterClose) : (s.finishClose after).core = s.core.finished := by
  unfold finishClose
  split
  · rfl
  · rfl
  · rfl
  · exact core_processResumeQueue _ _

theorem core_close (after : AfterClose) : (s.close after).core = s.core.close after := by
  unfold close Core.close
  dsimp only
  cases hcursor : s.cursor with
  | none =>
    have hcore : s.core.cursor = none := hcursor
    rw [hcore]
    exact core_finishClose _ after
  | some r =>
    have hcore : s.core.cursor = some r := hcursor
    rw [hcore]
    simp [core, closeCursor, List.filter_append, Flight.isTask]

/-- A change closes the stream, is emitted or goes to the caller. -/
theorem core_processNewChange (change : Option (Change τ)) (callback : Option Nat) :
    (s.closed = true ∧ (s.processNewChange change callback).core = s.core) ∨
    (s.closed = false ∧ endsStream change = true ∧
      ∃ after, (s.processNewChange change callback).core = s.core.close after) ∨
    (s.closed = false ∧ endsStream change = false ∧
      ∃ n, (s.processNewChange change callback).core = { s.core with changes := n }) := by
  unfold processNewChange
  cases hclosed : s.closed with
  | true => exact .inl ⟨rfl, core_callBack s ..⟩
  | false =>
    refine .inr ?_
    cases change with
    | none => exact .inl ⟨rfl, rfl, _, core_close s _⟩
    | some change =>
      cases hid : change.id.isNone with
      | true =>
        refine .inl ⟨rfl, hid, .withError callback noResumeToken, ?_⟩
        simp only [hid, if_true]
        exact core_close s _
      | false =>
        refine .inr ⟨rfl, hid, ?_⟩
        simp only [hid]
        cases callback with
        | none => exact ⟨s.changes + 1, by simp [core, hclosed]⟩
        | some k => exact ⟨s.changes, rfl⟩

/-- An error of an open stream gives up its cursor or closes the stream. -/
theorem core_processError (maxWireVersion : Nat) (error : AnyError) (callback : Option Nat) :
    (s.closed = true ∧ (s.processError maxWireVersion error callback).core = s.core) ∨
    (s.closed = false ∧ ∃ after, (s.processError maxWireVersion error callback).core = s.core.close after) ∨
    (s.closed = false ∧ ∃ r, s.cursor = some r ∧
      (s.processError maxWireVersion error callback).core = s.core.giveUp r callback) := by
  unfold processError
  cases hclosed : s.closed with
  | true => exact .inl ⟨rfl, core_callBack s ..⟩
  | false =>
    refine .inr ?_
    cases hcursor : s.cursor with
    | none => exact .inl ⟨rfl, _, core_close s _⟩
    | some r =>
      by_cases hresumable : error.isResumableError maxWireVersion = true
      · refine .inr ⟨rfl, r, rfl, ?_⟩
        simp only [hresumable, if_true]
        simp [core, closeCursor, Core.giveUp, List.filter_append, Flight.isTask, hclosed]
      · refine .inl ⟨rfl, .withError callback error, ?_⟩
        simp only [hresumable]
        exact core_close s _

theorem core_attach (r : Nat) : (s.resumeWithCursor r).core = { s.core with cursor := some r } :=
  core_processResumeQueue _ _

theorem core_probe (k r : Nat) :
    { s.createCursor with flights := s.flights ++ [Flight.probing k r] }.core =
      { s.core with cursors := s.core.cursors ++ [false], tasks := s.core.tasks ++ [Flight.probing k r] } := by
  simp [core, createCursor, List.filter_append, Flight.isTask]

end ResumableStream

/-! ## What holds of every stream -/

namespace Core

/-- A resume is under way and `f` is what it waits for. No cursor is open but the one it tries, and if the stream is
closed, then closing it is done. -/
structure Resuming (c : Core) (f : Flight) : Prop where
  tasks : c.tasks = [f]
  resume : f.isResume = true
  cursor : c.cursor = none
  opened : ∀ r : Nat, c.cursors[r]? = some false ↔ ∃ k, f = .probing k r
  done : c.closed = true → c.closeDone.isSome = true

/-- No resume is under way. No cursor is open but the stream's, and none at all while the stream is being closed. -/
structure Settled (c : Core) : Prop where
  tasks : ∀ f ∈ c.tasks, ∃ after, f = .closing after
  known : ∀ r, c.cursor = some r → r < c.cursors.length
  opened : ∀ r : Nat, c.cursors[r]? = some false → c.cursor = some r
  closing : c.tasks ≠ [] → c.closed = true ∧ ∀ r : Nat, c.cursors[r]? ≠ some false

structure Coherent (c : Core) : Prop where
  ended : ∀ n, c.closeDone = some n → c.closed = true ∧ c.changes = n
  phase : (∃ f, c.Resuming f) ∨ c.Settled

/-- Closing the stream, once it is done, leaves no cursor. -/
def Released (c : Core) : Prop :=
  c.closeDone.isSome = true → c.cursor = none ∧ ∀ r : Nat, c.cursors[r]? ≠ some false

variable {c : Core}

theorem not_open_set {cursors : List Bool} {r : Nat} (h : ∀ q, cursors[q]? = some false → q = r) (q : Nat) :
    (cursors.set r true)[q]? ≠ some false := by
  intro hq
  obtain ⟨-, hfalse⟩ | ⟨hne, hopen⟩ := Heap.get_set_cases hq
  · cases hfalse
  · exact hne (h q hopen)

/-! ### Closing -/

theorem finished_isSome : c.finished.closeDone.isSome = true := by
  unfold finished
  cases c.closeDone with
  | none => rfl
  | some n => rfl

theorem ended_finished (h : ∀ n, c.closeDone = some n → c.closed = true ∧ c.changes = n) (hclosed : c.closed = true) :
    ∀ n, c.finished.closeDone = some n → c.closed = true ∧ c.changes = n := by
  intro n hn
  unfold finished at hn
  cases hdone : c.closeDone with
  | some m =>
    rw [hdone] at hn
    exact h n (hdone.trans hn)
  | none =>
    rw [hdone] at hn
    exact ⟨hclosed, Option.some.inj hn⟩

theorem close_of_none (after : AfterClose) (hcursor : c.cursor = none) :
    c.close after = { c with closed := true }.finished := by
  simp only [close, hcursor]

theorem close_of_some (after : AfterClose) {r : Nat} (hcursor : c.cursor = some r) :
    c.close after =
      { c with closed := true, cursors := c.cursors.set r true, tasks := c.tasks ++ [.closing after] } := by
  simp only [close, hcursor]

theorem Coherent.close (h : c.Coherent) (after : AfterClose) : (c.close after).Coherent := by
  have hended : ∀ n, c.closeDone = some n → true = true ∧ c.changes = n := fun n hn => ⟨rfl, (h.ended n hn).2⟩
  cases hcursor : c.cursor with
  | none =>
    rw [close_of_none after hcursor]
    refine ⟨ended_finished hended rfl, ?_⟩
    obtain ⟨f, hf⟩ | hs := h.phase
    · exact .inl ⟨f, hf.tasks, hf.resume, hf.cursor, hf.opened, fun _ => finished_isSome⟩
    · exact .inr ⟨hs.tasks, hs.known, hs.opened, fun hne => ⟨rfl, (hs.closing hne).2⟩⟩
  | some r =>
    rw [close_of_some after hcursor]
    refine ⟨hended, .inr ?_⟩
    obtain ⟨f, hf⟩ | hs := h.phase
    · exact absurd (hf.cursor.symm.trans hcursor) (by simp)
    · have hclosed : ∀ q, (c.cursors.set r true)[q]? ≠ some false :=
        not_open_set fun q hq => Option.some.inj ((hs.opened q hq).symm.trans hcursor)
      refine ⟨?_, ?_, fun q hq => absurd hq (hclosed q), fun _ => ⟨rfl, hclosed⟩⟩
      · intro f hf
        obtain hf | hf := List.mem_append.1 hf
        · exact hs.tasks f hf
        · exact ⟨after, List.mem_singleton.1 hf⟩
      · intro q hq
        rw [List.length_set]
        exact hs.known q hq

/-- A stream can be closed for good unless a new cursor is being tried. -/
theorem released_close (h : c.Coherent) (hr : c.Released) (after : AfterClose) :
    (c.close after).Released ↔ ∀ k r, Flight.probing k r ∉ c.tasks := by
  cases hcursor : c.cursor with
  | none =>
    rw [close_of_none after hcursor]
    obtain ⟨f, hf⟩ | hs := h.phase
    · constructor
      · intro hreleased k r hk
        rw [hf.tasks] at hk
        have hopen : c.cursors[r]? = some false := (hf.opened r).2 ⟨k, (List.mem_singleton.1 hk).symm⟩
        exact (hreleased finished_isSome).2 r hopen
      · intro hnone _
        refine ⟨hcursor, fun r hopen => ?_⟩
        obtain ⟨k, rfl⟩ := (hf.opened r).1 hopen
        exact hnone k r (by simp [hf.tasks])
    · refine iff_of_true (fun _ => ⟨hcursor, fun r hopen => ?_⟩) ?_
      · exact absurd ((hs.opened r hopen).symm.trans hcursor) (by simp)
      · intro k r hk
        obtain ⟨after, hafter⟩ := hs.tasks _ hk
        cases hafter
  | some r =>
    rw [close_of_some after hcursor]
    refine iff_of_true (fun hdone => ?_) ?_
    · exact absurd ((hr hdone).1.symm.trans hcursor) (by simp)
    · intro k q hk
      obtain ⟨f, hf⟩ | hs := h.phase
      · exact absurd (hf.cursor.symm.trans hcursor) (by simp)
      · obtain ⟨after, hafter⟩ := hs.tasks _ hk
        cases hafter

/-! ### Resuming -/

theorem Coherent.done_eq_none (h : c.Coherent) (hclosed : c.closed = false) : c.closeDone = none := by
  cases hdone : c.closeDone with
  | none => rfl
  | some n => exact absurd (hclosed.symm.trans (h.ended n hdone).1) (by simp)

/-- A stream that resumes is open as long as closing it is not done. -/
theorem Coherent.done_iff {f : Flight} (h : c.Coherent) (hf : c.Resuming f) :
    c.closeDone.isSome = true ↔ c.closed = true := by
  refine ⟨fun hdone => ?_, hf.done⟩
  obtain ⟨n, hn⟩ := Option.isSome_iff_exists.1 hdone
  exact (h.ended n hn).1

/-- Without a task and without an open cursor. -/
theorem Settled.of_all_closed (htasks : c.tasks = []) (hcursor : c.cursor = none)
    (hopen : ∀ r : Nat, c.cursors[r]? ≠ some false) : c.Settled where
  tasks := by simp [htasks]
  known := by simp [hcursor]
  opened := fun r hr => absurd hr (hopen r)
  closing := fun hne => absurd htasks hne

theorem Coherent.giveUp {r : Nat} (h : c.Coherent) (hclosed : c.closed = false) (hcursor : c.cursor = some r)
    (callback : Option Nat) : (c.giveUp r callback).Coherent := by
  refine ⟨h.ended, .inl ⟨.waiting callback, ?_⟩⟩
  obtain ⟨f, hf⟩ | hs := h.phase
  · exact absurd (hf.cursor.symm.trans hcursor) (by simp)
  · have htasks : c.tasks = [] := by
      by_contra hne
      exact absurd (hclosed.symm.trans (hs.closing hne).1) (by simp)
    refine ⟨by simp [Core.giveUp, htasks], rfl, rfl, ?_, fun htrue => ?_⟩
    · intro q
      refine iff_of_false (not_open_set (fun q hq => ?_) q) (by simp)
      exact Option.some.inj ((hs.opened q hq).symm.trans hcursor)
    · exact absurd (hclosed.symm.trans htrue) (by simp)

/-- The wait for the topology is over. -/
theorem Resuming.waited {callback : Option Nat} (hf : c.Resuming (.waiting callback)) (r : Nat) :
    c.cursors[r]? ≠ some false := by
  intro hopen
  obtain ⟨k, hk⟩ := (hf.opened r).1 hopen
  cases hk

theorem open_append {cursors : List Bool} (h : ∀ r : Nat, cursors[r]? ≠ some false) (r : Nat) :
    (cursors ++ [false])[r]? = some false ↔ r = cursors.length := by
  constructor
  · intro hr
    obtain ⟨hlast, -⟩ | hr := Heap.get_alloc_cases hr
    · exact hlast
    · exact absurd hr (h r)
  · rintro rfl
    simp

/-- A resume that fails leaves nothing behind. -/
theorem Coherent.failed {cursors : List Bool} (h : c.Coherent) {f : Flight} (hf : c.Resuming f)
    (hopen : ∀ r : Nat, cursors[r]? ≠ some false) :
    Coherent { c with cursors, tasks := [] } ∧ Released { c with cursors, tasks := [] } :=
  ⟨⟨h.ended, .inr (.of_all_closed rfl hf.cursor hopen)⟩, fun _ => ⟨hf.cursor, hopen⟩⟩

/-- A resume of an emitter attaches the new cursor at once. -/
theorem Coherent.attach {callback : Option Nat} (h : c.Coherent) (hf : c.Resuming (.waiting callback)) :
    Coherent { c with cursors := c.cursors ++ [false], cursor := some c.cursors.length, tasks := [] } := by
  refine ⟨h.ended, .inr ⟨by simp, ?_, fun r hr => ?_, fun hne => absurd rfl hne⟩⟩
  · intro r hr
    cases hr
    simp
  · rw [(open_append hf.waited r).1 hr]

/-- A resume of an iterator tries the new cursor first. -/
theorem Coherent.probe {callback : Option Nat} (h : c.Coherent) (hf : c.Resuming (.waiting callback)) (k : Nat) :
    Coherent { c with cursors := c.cursors ++ [false], tasks := [.probing k c.cursors.length] } := by
  refine ⟨h.ended, .inl ⟨_, rfl, rfl, hf.cursor, fun r => ?_, hf.done⟩⟩
  rw [open_append hf.waited r]
  constructor
  · rintro rfl
    exact ⟨k, rfl⟩
  · rintro ⟨k', hk⟩
    cases hk
    rfl

theorem Coherent.probed {k r : Nat} (h : c.Coherent) (hf : c.Resuming (.probing k r)) :
    Coherent { c with cursor := some r, tasks := [] } := by
  have hown : c.cursors[r]? = some false := (hf.opened r).2 ⟨k, rfl⟩
  refine ⟨h.ended, .inr ⟨by simp, ?_, fun q hq => ?_, fun hne => absurd rfl hne⟩⟩
  · intro q hq
    cases hq
    exact (List.getElem?_eq_some_iff.1 hown).1
  · obtain ⟨k', hk⟩ := (hf.opened q).1 hq
    cases hk
    rfl

/-- The cursor that was being closed is. -/
theorem Coherent.closedCursor {tasks : List Flight} (h : c.Coherent) (hs : c.Settled) (hne : c.tasks ≠ [])
    (hsub : ∀ f ∈ tasks, f ∈ c.tasks) :
    Coherent { c with cursor := none, tasks }.finished ∧ Released { c with cursor := none, tasks }.finished := by
  obtain ⟨hclosed, hopen⟩ := hs.closing hne
  refine ⟨⟨ended_finished h.ended hclosed, .inr ?_⟩, fun _ => ⟨rfl, hopen⟩⟩
  exact ⟨fun f hf => hs.tasks f (hsub f hf), fun r hr => (by cases hr), fun r hr => absurd hr (hopen r),
    fun _ => ⟨hclosed, hopen⟩⟩

/-- A stream that is closed for good has no new cursor that is being tried. -/
theorem Released.done_of_probing {k r : Nat} (hr : c.Released) (hf : c.Resuming (.probing k r)) :
    c.closeDone.isSome = false := by
  cases hdone : c.closeDone.isSome with
  | false => rfl
  | true => exact absurd ((hf.opened r).2 ⟨k, rfl⟩) ((hr hdone).2 r)

end Core

/-! ## The steps that keep a closed stream closed -/

namespace ResumableStream

variable {τ : Type} {s t : ResumableStream} {maxWireVersion : Nat}

/-- The answer to a `next` that closes an open stream without a cursor. -/
def failsNext : Except AnyError (Option (Change τ)) → Bool
  | .error _ => true
  | .ok change => endsStream change

/-- The event closes a stream that has no cursor. -/
def ClosesDetached (s : ResumableStream) : ResumeEvent τ → Prop
  | .call _ => False
  | .close => True
  | .answer i result => s.closed = false ∧ failsNext result = true ∧ ∃ f ∈ s.flights[i]?, f.isNext = true
  | .data change => s.closed = false ∧ endsStream change = true
  | .streamError _ => s.closed = false

/-- The topology is connected again, and a new cursor is created. -/
def Reconnects (s : ResumableStream) : ResumeEvent τ → Prop
  | .answer i (.ok _) => ∃ f ∈ s.flights[i]?, f.isWaiting = true
  | _ => False

/-- No cursor is created for a closed stream, and the stream is not closed while a new cursor is tried. -/
def ClosedInTurn (s : ResumableStream) (e : ResumeEvent τ) : Prop :=
  (s.closed = true → ¬ s.Reconnects e) ∧ ((∃ f ∈ s.flights, f.isProbing = true) → ¬ s.ClosesDetached e)

instance : (s : ResumableStream) → (e : ResumeEvent τ) → Decidable (s.ClosesDetached e)
  | _, .call _ => instDecidableFalse
  | _, .close => instDecidableTrue
  | _, .answer _ _ => inferInstanceAs (Decidable (_ ∧ _ ∧ _))
  | _, .data _ => inferInstanceAs (Decidable (_ ∧ _))
  | s, .streamError _ => inferInstanceAs (Decidable (s.closed = false))

instance : (s : ResumableStream) → (e : ResumeEvent τ) → Decidable (s.Reconnects e)
  | s, .answer i (.ok _) => inferInstanceAs (Decidable (∃ f ∈ s.flights[i]?, f.isWaiting = true))
  | _, .answer _ (.error _) => instDecidableFalse
  | _, .call _ => instDecidableFalse
  | _, .close => instDecidableFalse
  | _, .data _ => instDecidableFalse
  | _, .streamError _ => instDecidableFalse

instance (s : ResumableStream) (e : ResumeEvent τ) : Decidable (s.ClosedInTurn e) :=
  inferInstanceAs (Decidable (_ ∧ _))

/-- Closing the stream, once it is done, leaves it without a cursor and its cursors closed, and no change is emitted
from then on. -/
def ClosedForGood (s : ResumableStream) : Prop :=
  ∀ n, s.closeDone = some n → s.cursor = none ∧ (∀ closed ∈ s.cursors, closed = true) ∧ s.changes = n

theorem exists_of_isProbing {f : Flight} (hf : f.isProbing = true) : ∃ k r, f = .probing k r := by
  cases f with
  | operation m k => cases hf
  | waiting callback => cases hf
  | probing k r => exact ⟨k, r, rfl⟩
  | closing after => cases hf

theorem isTask_of_isResume {f : Flight} (hf : f.isResume = true) : f.isTask = true := by
  cases f with
  | operation m k => cases hf
  | waiting callback => rfl
  | probing k c => rfl
  | closing after => rfl

theorem mem_core_tasks {f : Flight} (hf : f.isTask = true) : f ∈ s.core.tasks ↔ f ∈ s.flights := by
  simp [core, hf]

/-- What a step that closes the stream, or does nothing to the core, needs. -/
theorem released_close_iff (h : s.core.Coherent) (hr : s.core.Released) (after : AfterClose) :
    (s.core.close after).Released ↔ ¬ ∃ f ∈ s.flights, f.isProbing = true := by
  rw [Core.released_close h hr after]
  constructor
  · rintro hnone ⟨f, hmem, hf⟩
    obtain ⟨k, r, rfl⟩ := exists_of_isProbing hf
    exact hnone k r ((mem_core_tasks rfl).2 hmem)
  · intro hnone k r hmem
    exact hnone ⟨_, (mem_core_tasks rfl).1 hmem, rfl⟩

/-- A change that comes to the stream. -/
theorem processNewChange_closed (h : s.core.Coherent) (change : Option (Change τ)) (callback : Option Nat) :
    (s.processNewChange change callback).core.Coherent ∧
    (s.core.Released → ((s.processNewChange change callback).core.Released ↔
      ((∃ f ∈ s.flights, f.isProbing = true) → ¬ (s.closed = false ∧ endsStream change = true)))) := by
  obtain ⟨hclosed, hcore⟩ | ⟨hclosed, hends, after, hcore⟩ | ⟨hclosed, hends, n, hcore⟩ :=
    core_processNewChange s change callback
  · rw [hcore]
    exact ⟨h, fun hr => iff_of_true hr (by simp [hclosed])⟩
  · rw [hcore]
    refine ⟨h.close after, fun hr => (released_close_iff h hr after).trans ?_⟩
    simp [hclosed, hends]
  · rw [hcore]
    have hdone : s.core.closeDone = none := h.done_eq_none hclosed
    refine ⟨⟨fun m hm => absurd (hdone.symm.trans hm) (by simp), ?_⟩, fun hr => iff_of_true hr (by simp [hends])⟩
    obtain ⟨f, hf⟩ | hs := h.phase
    · exact .inl ⟨f, hf.tasks, hf.resume, hf.cursor, hf.opened, hf.done⟩
    · exact .inr ⟨hs.tasks, hs.known, hs.opened, hs.closing⟩

/-- An error that comes to the stream. -/
theorem processError_closed (maxWireVersion : Nat) (h : s.core.Coherent) (error : AnyError) (callback : Option Nat) :
    (s.processError maxWireVersion error callback).core.Coherent ∧
    (s.core.Released → ((s.processError maxWireVersion error callback).core.Released ↔
      ((∃ f ∈ s.flights, f.isProbing = true) → ¬ s.closed = false))) := by
  obtain ⟨hclosed, hcore⟩ | ⟨hclosed, after, hcore⟩ | ⟨hclosed, r, hcursor, hcore⟩ :=
    core_processError s maxWireVersion error callback
  · rw [hcore]
    exact ⟨h, fun hr => iff_of_true hr (by simp [hclosed])⟩
  · rw [hcore]
    refine ⟨h.close after, fun hr => (released_close_iff h hr after).trans ?_⟩
    simp [hclosed]
  · rw [hcore]
    refine ⟨h.giveUp hclosed hcursor callback, fun hr => iff_of_true ?_ ?_⟩
    · intro hdone
      exact absurd ((hr hdone).1.symm.trans hcursor) (by simp)
    · rintro ⟨f, hmem, hf⟩
      obtain ⟨k, q, rfl⟩ := exists_of_isProbing hf
      obtain ⟨f, hf⟩ | hs := h.phase
      · exact absurd (hf.cursor.symm.trans hcursor) (by simp)
      · obtain ⟨after, hafter⟩ := hs.tasks _ ((mem_core_tasks rfl).2 hmem)
        cases hafter

/-! ### Answers -/

variable {before after : List Flight} {f : Flight}

theorem core_tasks_split (hflights : s.flights = before ++ f :: after) (hf : f.isTask = true) :
    s.core.tasks = before.filter Flight.isTask ++ f :: after.filter Flight.isTask := by
  simp [core, hflights, hf]

theorem core_answered_operation {m : Method} {k : Nat} (hflights : s.flights = before ++ .operation m k :: after) :
    { s with flights := before ++ after }.core = s.core := by
  simp [core, hflights, Flight.isTask]

/-- The answer to a resume: it was the only task. -/
theorem core_answered_resume (h : s.core.Coherent) (hflights : s.flights = before ++ f :: after)
    (hf : f.isResume = true) :
    s.core.Resuming f ∧ { s with flights := before ++ after }.core = { s.core with tasks := [] } := by
  have hsplit := core_tasks_split hflights (isTask_of_isResume hf)
  obtain ⟨g, hg⟩ | hs := h.phase
  · have hlength := congrArg List.length (hg.tasks.symm.trans hsplit)
    simp only [List.length_append, List.length_cons, List.length_nil] at hlength
    have hbefore : before.filter Flight.isTask = [] := List.length_eq_zero_iff.1 (by omega)
    have hafter : after.filter Flight.isTask = [] := List.length_eq_zero_iff.1 (by omega)
    rw [hg.tasks, hbefore, hafter] at hsplit
    obtain rfl : g = f := (List.cons.inj hsplit).1
    refine ⟨hg, ?_⟩
    simp [core, hbefore, hafter]
  · have hmem : f ∈ s.core.tasks := by simp [hsplit]
    obtain ⟨after, rfl⟩ := hs.tasks f hmem
    cases hf

/-- The answer to a cursor that was being closed. -/
theorem core_answered_closing {done : AfterClose} (h : s.core.Coherent)
    (hflights : s.flights = before ++ .closing done :: after) :
    s.core.Settled ∧ s.core.tasks ≠ [] ∧ ∀ f ∈ (before ++ after).filter Flight.isTask, f ∈ s.core.tasks := by
  have hsplit := core_tasks_split hflights rfl
  refine ⟨?_, by simp [hsplit], ?_⟩
  · obtain ⟨g, hg⟩ | hs := h.phase
    · have hmem : Flight.closing done ∈ s.core.tasks := by simp [hsplit]
      rw [hg.tasks] at hmem
      obtain rfl := List.mem_singleton.1 hmem
      exact absurd hg.resume (by simp [Flight.isResume])
    · exact hs
  · intro g hg
    rw [List.filter_append] at hg
    rw [hsplit]
    simp only [List.mem_append, List.mem_cons] at hg ⊢
    tauto

/-- The answer to a method of the cursor. -/
theorem receive_operation_closed (maxWireVersion : Nat) (h : s.core.Coherent) {m : Method} {k : Nat}
    (hflights : s.flights = before ++ .operation m k :: after) (result : Except AnyError (Option (Change τ))) :
    let t := { s with flights := before ++ after }.receive maxWireVersion result (.operation m k)
    t.core.Coherent ∧ (s.core.Released → (t.core.Released ↔
      ((∃ f ∈ s.flights, f.isProbing = true) → ¬ (s.closed = false ∧ failsNext result = true ∧ m = .next)))) := by
  intro t
  have hcore := core_answered_operation hflights
  have hprobing : (∃ f ∈ before ++ after, f.isProbing = true) ↔ ∃ f ∈ s.flights, f.isProbing = true := by
    have hnot : (Flight.operation m k).isProbing = false := rfl
    simp [hflights, or_and_right, exists_or, hnot]
  rw [← hcore] at h ⊢
  rw [← hprobing]
  by_cases hm : m = .next
  · subst hm
    cases result with
    | error e =>
      obtain ⟨hcoherent, hiff⟩ := processError_closed maxWireVersion
        (s := { s with flights := before ++ after, queue := s.queue ++ [Request.next k] }) h e (some k)
      refine ⟨hcoherent, fun hr => (hiff hr).trans ?_⟩
      simp [failsNext]
    | ok change =>
      obtain ⟨hcoherent, hiff⟩ := processNewChange_closed h change (some k)
      refine ⟨hcoherent, fun hr => (hiff hr).trans ?_⟩
      simp [failsNext]
  · have ht : t = { s with flights := before ++ after }.answer k (result.map fun _ => ()) := if_neg hm
    rw [ht, core_answer]
    exact ⟨h, fun hr => iff_of_true hr (by simp [hm])⟩

/-- The answer to the wait for the topology. -/
theorem receive_waiting_closed (maxWireVersion : Nat) (h : s.core.Coherent) {callback : Option Nat}
    (hflights : s.flights = before ++ .waiting callback :: after) (result : Except AnyError (Option (Change τ))) :
    let t := { s with flights := before ++ after }.receive maxWireVersion result (.waiting callback)
    t.core.Coherent ∧ (t.core.Released ↔ (s.closed = true → ∀ change, result ≠ .ok change)) := by
  intro t
  obtain ⟨hf, hcore⟩ := core_answered_resume h hflights rfl
  have hdone : s.core.closeDone.isSome = true ↔ s.closed = true := h.done_iff hf
  cases result with
  | error e =>
    obtain ⟨hcoherent, hreleased⟩ := h.failed hf hf.waited
    have ht : t.core = Core.close { s.core with tasks := [] } (.unresumable e) := by
      rw [← hcore]
      exact core_close _ _
    rw [ht, Core.released_close hcoherent hreleased]
    exact ⟨hcoherent.close _, iff_of_true (by simp) (by simp)⟩
  | ok change =>
    cases callback with
    | none =>
      have ht : t.core = { s.core with
          cursors := s.core.cursors ++ [false], cursor := some s.core.cursors.length, tasks := [] } := by
        refine (core_attach _ _).trans ?_
        have hcreated : { s with flights := before ++ after }.createCursor.core =
            { s.core with cursors := s.core.cursors ++ [false], tasks := [] } := by
          have htasks := congrArg Core.tasks hcore
          exact congrArg (fun tasks => Core.mk s.closed s.cursor (s.cursors ++ [false]) s.changes
            s.closeDone tasks) htasks
        rw [hcreated]
        rfl
      rw [ht]
      refine ⟨h.attach hf, ?_⟩
      rw [← hdone]
      simp [Core.Released]
    | some k =>
      have ht : t.core = { s.core with
          cursors := s.core.cursors ++ [false], tasks := [.probing k s.core.cursors.length] } := by
        refine (core_probe _ _ _).trans ?_
        rw [hcore]
        rfl
      rw [ht]
      refine ⟨h.probe hf k, ?_⟩
      rw [← hdone]
      constructor
      · intro hreleased htrue change' _
        exact absurd ((Core.open_append hf.waited _).2 rfl) ((hreleased htrue).2 s.core.cursors.length)
      · intro hopen htrue
        exact absurd rfl (hopen htrue change)

/-- The answer of a new cursor that was tried. -/
theorem receive_probing_closed (maxWireVersion : Nat) (h : s.core.Coherent) {k r : Nat}
    (hflights : s.flights = before ++ .probing k r :: after) (result : Except AnyError (Option (Change τ))) :
    let t := { s with flights := before ++ after }.receive maxWireVersion result (.probing k r)
    t.core.Coherent ∧ (s.core.Released → t.core.Released) := by
  intro t
  obtain ⟨hf, hcore⟩ := core_answered_resume h hflights rfl
  cases result with
  | error e =>
    have hopen : ∀ q : Nat, (s.core.cursors.set r true)[q]? ≠ some false := by
      refine Core.not_open_set fun q hq => ?_
      obtain ⟨k', hk⟩ := (hf.opened q).1 hq
      cases hk
      rfl
    obtain ⟨hcoherent, hreleased⟩ := h.failed hf hopen
    have ht : t.core = Core.close { s.core with cursors := s.core.cursors.set r true, tasks := [] }
      (.unresumable e) := by
      refine (core_close _ _).trans ?_
      have htasks := congrArg Core.tasks hcore
      exact congrArg (fun tasks => Core.close
        (Core.mk s.closed s.cursor (s.cursors.set r true) s.changes s.closeDone tasks) _) htasks
    rw [ht]
    exact ⟨hcoherent.close _, fun _ => (Core.released_close hcoherent hreleased _).2 (by simp)⟩
  | ok change =>
    have ht : t.core = { s.core with cursor := some r, tasks := [] } := by
      refine (core_attach _ _).trans ?_
      rw [hcore]
    rw [ht]
    refine ⟨h.probed hf, fun hr hdone => ?_⟩
    exact absurd ((hr.done_of_probing hf).symm.trans hdone) (by simp)

/-- The answer of a cursor that was being closed. -/
theorem receive_closing_closed (maxWireVersion : Nat) (h : s.core.Coherent) {done : AfterClose}
    (hflights : s.flights = before ++ .closing done :: after) (result : Except AnyError (Option (Change τ))) :
    let t := { s with flights := before ++ after }.receive maxWireVersion result (.closing done)
    t.core.Coherent ∧ t.core.Released := by
  intro t
  obtain ⟨hs, hne, hsub⟩ := core_answered_closing h hflights
  have ht : t.core = Core.finished { s.core with cursor := none, tasks := (before ++ after).filter Flight.isTask } :=
    core_finishClose _ _
  rw [ht]
  exact h.closedCursor hs hne hsub

/-! ## Runs -/

/-- The condition on an answer, by what is answered. -/
theorem closedInTurn_answer_iff {i : Nat} (hf : s.flights[i]? = some f) (result : Except AnyError (Option (Change τ))) :
    s.ClosedInTurn (.answer i result) ↔
      (s.closed = true → f.isWaiting = true → ∀ change, result ≠ .ok change) ∧
      ((∃ f ∈ s.flights, f.isProbing = true) → ¬ (s.closed = false ∧ failsNext result = true ∧ f.isNext = true)) := by
  cases result with
  | error e => simp [ClosedInTurn, Reconnects, ClosesDetached, hf]
  | ok change => simp [ClosedInTurn, Reconnects, ClosesDetached, hf]

/-- A step from a stream that is closed for good, if it is closed at all, leads to one if and only if it meets the
condition. -/
theorem step_closed {e : ResumeEvent τ} (h : s.core.Coherent) (hstep : step maxWireVersion s e = some t) :
    t.core.Coherent ∧ (s.core.Released → (t.core.Released ↔ s.ClosedInTurn e)) := by
  cases e with
  | call m =>
    obtain ⟨-, rfl⟩ := step_call hstep
    rw [core_begin]
    exact ⟨h, fun hr => iff_of_true hr ⟨fun _ => id, fun _ => id⟩⟩
  | close =>
    cases hstep
    rw [core_close]
    refine ⟨h.close _, fun hr => (released_close_iff h hr _).trans ?_⟩
    simp [ClosedInTurn, Reconnects, ClosesDetached]
  | answer i result =>
    obtain ⟨before, f, after, hf, hflights, rfl⟩ := step_answer hstep
    rw [closedInTurn_answer_iff hf]
    cases f with
    | operation m k =>
      obtain ⟨hcoherent, hiff⟩ := receive_operation_closed maxWireVersion h hflights result
      refine ⟨hcoherent, fun hr => (hiff hr).trans ?_⟩
      simp [Flight.isWaiting, Flight.isNext]
    | waiting callback =>
      obtain ⟨hcoherent, hiff⟩ := receive_waiting_closed maxWireVersion h hflights result
      refine ⟨hcoherent, fun _ => hiff.trans ?_⟩
      simp [Flight.isWaiting, Flight.isNext]
    | probing k r =>
      obtain ⟨hcoherent, hreleased⟩ := receive_probing_closed maxWireVersion h hflights result
      refine ⟨hcoherent, fun hr => iff_of_true (hreleased hr) ?_⟩
      simp [Flight.isWaiting, Flight.isNext]
    | closing done =>
      obtain ⟨hcoherent, hreleased⟩ := receive_closing_closed maxWireVersion h hflights result
      refine ⟨hcoherent, fun _ => iff_of_true hreleased ?_⟩
      simp [Flight.isWaiting, Flight.isNext]
  | data change =>
    obtain ⟨-, rfl⟩ := step_data hstep
    obtain ⟨hcoherent, hiff⟩ := processNewChange_closed h change none
    refine ⟨hcoherent, fun hr => (hiff hr).trans ?_⟩
    simp [ClosedInTurn, Reconnects, ClosesDetached]
  | streamError error =>
    obtain ⟨-, rfl⟩ := step_streamError hstep
    obtain ⟨hcoherent, hiff⟩ := processError_closed maxWireVersion h error none
    refine ⟨hcoherent, fun hr => (hiff hr).trans ?_⟩
    simp [ClosedInTurn, Reconnects, ClosesDetached]

theorem closedForGood_iff (h : s.core.Coherent) : s.ClosedForGood ↔ s.core.Released := by
  constructor
  · intro hgood hdone
    obtain ⟨n, hn⟩ := Option.isSome_iff_exists.1 hdone
    obtain ⟨hcursor, hclosed, -⟩ := hgood n hn
    refine ⟨hcursor, fun r hr => ?_⟩
    have hfalse := hclosed false (List.mem_of_getElem? hr)
    cases hfalse
  · intro hr n hn
    obtain ⟨hcursor, hopen⟩ := hr (Option.isSome_iff_exists.2 ⟨n, hn⟩)
    refine ⟨hcursor, fun b hb => ?_, (h.ended n hn).2⟩
    obtain ⟨r, hget⟩ := List.mem_iff_getElem?.1 hb
    cases b with
    | true => rfl
    | false => exact absurd hget (hopen r)

theorem new_coherent (emitter : Bool) : (new emitter).core.Coherent := by
  refine ⟨fun n hn => (by cases hn), .inr ⟨by simp [core, new], ?_, ?_, fun hne => absurd rfl hne⟩⟩
  · intro r hr
    cases hr
    exact Nat.zero_lt_one
  · intro r hr
    cases r with
    | zero => rfl
    | succ r => cases hr

theorem new_released (emitter : Bool) : (new emitter).core.Released := fun hdone => (by cases hdone)

/-- A stream stays closed, with its cursors, in every state of exactly those runs that create no cursor for a closed
stream and do not close the stream while a new cursor is tried. -/
theorem closed_streams_stay_closed_iff {τ : Type} (maxWireVersion : Nat) (emitter : Bool) (es : List (ResumeEvent τ))
    (t : ResumableStream) (hrun : Run.exec (step maxWireVersion) (new emitter) es = some t) :
    Run.Meets (step maxWireVersion) ClosedInTurn (new emitter) es ↔
      ∀ es₁ es₂ u, es = es₁ ++ es₂ → Run.exec (step maxWireVersion) (new emitter) es₁ = some u → u.ClosedForGood := by
  have hinv : ∀ (s : ResumableStream) (e : ResumeEvent τ) t, s.core.Coherent → step maxWireVersion s e = some t →
      t.core.Coherent := fun s e t h hstep => (step_closed h hstep).1
  have hexact : ∀ (s : ResumableStream) (e : ResumeEvent τ) t, s.core.Coherent ∧ s.core.Released →
      step maxWireVersion s e = some t → (t.core.Coherent ∧ t.core.Released ↔ s.ClosedInTurn e) := by
    intro s e t hs hstep
    obtain ⟨hcoherent, hiff⟩ := step_closed hs.1 hstep
    exact (and_iff_right hcoherent).trans (hiff hs.2)
  refine (Run.meets_iff _ hexact ⟨new_coherent emitter, new_released emitter⟩ hrun).trans ?_
  refine forall_congr' fun es₁ => forall_congr' fun es₂ => forall_congr' fun u =>
    forall_congr' fun _ => forall_congr' fun hu => ?_
  have hcoherent := Run.exec_inv _ hinv (new_coherent emitter) hu
  exact (and_iff_right hcoherent).trans (closedForGood_iff hcoherent).symm

def connectionLost : AnyError := { cls := .mongoNetworkError, message := "connection 3 to 127.0.0.1:27017 closed" }

/-- A `next` fails, the stream resumes and calls `next` again, and is closed while the second call is under way. -/
def resumedThenClosed : List (ResumeEvent Nat) :=
  [.call .next, .answer 0 (.error connectionLost), .answer 0 (.ok none), .answer 0 (.ok none), .close,
    .answer 1 (.ok none)]

theorem resumedThenClosed_stays_closed :
    (Run.exec (step 13) (new false) resumedThenClosed).map (fun s => (s.closeDone, s.cursor, s.cursors)) =
      some (some 0, none, [true, true]) ∧
    ∀ s, Run.exec (step 13) (new false) resumedThenClosed = some s → s.ClosedForGood := by
  refine ⟨by decide, fun s hs => ?_⟩
  have hmeets : Run.Meets (step 13) ClosedInTurn (new false) resumedThenClosed := by
    refine .cons ?_ rfl (.cons ?_ rfl (.cons ?_ rfl (.cons ?_ rfl (.cons ?_ rfl (.cons ?_ rfl trivial)))))
    all_goals decide
  exact (closed_streams_stay_closed_iff 13 false resumedThenClosed s hs).1 hmeets resumedThenClosed [] s
    (List.append_nil _).symm hs

/-- A stream is closed during the wait for the topology: closing it is done at once, and when the topology is connected
a new cursor is created and attached, which nobody closes. -/
theorem closed_while_waiting_reopens : ∃ s : ResumableStream,
    Run.exec (step 13) (new true) [(.streamError connectionLost : ResumeEvent Nat), .close,
      .answer 0 (.ok none)] = some s ∧
    s.closeDone = some 0 ∧ s.cursor = some 1 ∧ s.cursors = [true, false] ∧ ¬ s.ClosedForGood := by
  have hrun : (Run.exec (step 13) (new true)
      [(.streamError connectionLost : ResumeEvent Nat), .close, .answer 0 (.ok none)]).map
        (fun s => (s.closeDone, s.cursor, s.cursors)) = some (some 0, some 1, [true, false]) := by
    decide
  obtain ⟨s, hs, hstate⟩ := Option.map_eq_some_iff.1 hrun
  simp only [Prod.mk.injEq] at hstate
  obtain ⟨hdone, hcursor, hcursors⟩ := hstate
  refine ⟨s, hs, hdone, hcursor, hcursors, fun hgood => ?_⟩
  obtain ⟨hnone, -, -⟩ := hgood 0 hdone
  exact absurd (hcursor.symm.trans hnone) (by simp)

end ResumableStream

end MongoDriver.Cursor
