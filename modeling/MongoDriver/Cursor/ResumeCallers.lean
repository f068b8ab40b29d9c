/-
The callers of a change stream. Each call that is made is answered, or will be by something under way, or waits for a
resume with a request in the queue. What the methods of the stream do to this is stated once for each of them, and what
a stream owes to its callers is carried through calls, answers and the start and the end of a resume.
-/
import MongoDriver.Cursor.ClosedStreams

namespace MongoDriver.Cursor

def Request.caller : Request → Nat
  | .getCursor _ k => k
  | .next k => k

/-- The callers that what is under way will answer. -/
def AfterClose.callers : AfterClose → List Nat
  | .caller k => [k]
  | .withError callback _ => callback.toList
  | .unresumable _ => []

def Flight.callers : Flight → List Nat
  | .operation _ k => [k]
  | .closing after => after.callers
  | _ => []

namespace ResumableStream

/-! ## The callers that are answered or will be -/

/-- How often a caller was answered or will be by something under way other than a resume. -/
def tally (s : ResumableStream) (k : Nat) : Nat :=
  (s.answered.map Prod.fst).count k + (s.flights.flatMap Flight.callers).count k

/-- What is left after an answer was under way. -/
theorem mem_flights {s : ResumableStream} {before after : List Flight} {f g : Flight}
    (hflights : s.flights = before ++ f :: after) (hmem : g ∈ before ++ after) : g ∈ s.flights := by
  rw [hflights]
  simp only [List.mem_append, List.mem_cons] at hmem ⊢
  tauto

/-- A resume is under way. -/
def Resumes (s : ResumableStream) : Prop := ∃ f ∈ s.flights, f.isResume = true

/-- The stream goes on without a resume's doing: the callers of the list, and no others, are answered or get a method
of the cursor under way. -/
structure Serves (s t : ResumableStream) (callers : List Nat) : Prop where
  tally : ∀ k, t.tally k = s.tally k + callers.count k
  queue : t.queue = s.queue
  calls : t.calls = s.calls
  emitter : t.emitter = s.emitter
  stream : t.cursorStream = s.cursorStream ∨ t.cursorStream = none
  resumes : t.Resumes ↔ s.Resumes
  opened : t.closed = false → s.closed = false ∧ t.cursor = s.cursor
  operations : ∀ m k, Flight.operation m k ∈ t.flights → Flight.operation m k ∈ s.flights ∨ s.emitter = false
  failures : ∀ e, Flight.closing (.unresumable e) ∈ t.flights → Flight.closing (.unresumable e) ∈ s.flights

section

variable {τ : Type} (s : ResumableStream)

theorem serves_refl : s.Serves s [] where
  tally := fun k => by simp
  queue := rfl
  calls := rfl
  emitter := rfl
  stream := .inl rfl
  resumes := Iff.rfl
  opened := fun hclosed => ⟨hclosed, rfl⟩
  operations := fun _ _ h => .inl h
  failures := fun _ h => h

theorem serves_answer (k : Nat) (result : Except AnyError Unit) : s.Serves (s.answer k result) [k] :=
  { serves_refl s with
    tally := by
      intro k'
      simp only [tally, answer, List.map_append, List.count_append, List.map_cons, List.map_nil]
      omega
    resumes := Iff.rfl }

theorem serves_operate (hemitter : s.emitter = false) (m : Method) (k : Nat) : s.Serves (s.operate m k) [k] :=
  { serves_refl s with
    tally := by
      intro k'
      simp only [tally, operate, List.flatMap_append, List.count_append, List.flatMap_cons, List.flatMap_nil,
        Flight.callers, List.append_nil]
      omega
    resumes := by simp [Resumes, operate, or_and_right, exists_or, Flight.isResume]
    operations := fun _ _ _ => .inr hemitter
    failures := by simp [operate] }

/-- A method of a stream that is closed or has a cursor. -/
theorem serves_begin (hemitter : s.emitter = false) (hready : s.closed = true ∨ s.cursor.isSome = true) (m : Method)
    (k : Nat) : s.Serves (s.begin m k) [k] := by
  unfold begin
  cases hclosed : s.closed with
  | true => exact serves_answer s k _
  | false =>
    obtain htrue | hsome := hready
    · exact absurd (hclosed.symm.trans htrue) (by simp)
    · obtain ⟨c, hc⟩ := Option.isSome_iff_exists.1 hsome
      rw [hc]
      exact serves_operate s hemitter m k

theorem serves_callRequest (hemitter : s.emitter = false) (hready : s.closed = true ∨ s.cursor.isSome = true)
    (err : Option AnyError) (request : Request) : s.Serves (s.callRequest err request) [request.caller] := by
  cases request with
  | next k => exact serves_begin s hemitter hready .next k
  | getCursor m k =>
    cases err with
    | some e => exact serves_answer s k _
    | none =>
      cases hcursor : s.cursor with
      | none =>
        simp only [callRequest, hcursor]
        exact serves_answer s k _
      | some c =>
        simp only [callRequest, hcursor]
        exact serves_operate s hemitter m k

theorem serves_callBack (callback : Option Nat) (result : Except AnyError Unit) :
    s.Serves (s.callBack callback result) callback.toList := by
  cases callback with
  | none => exact serves_refl s
  | some k => exact serves_answer s k result

theorem Serves.trans {s t u : ResumableStream} {a b : List Nat} (h₁ : s.Serves t a) (h₂ : t.Serves u b) :
    s.Serves u (a ++ b) where
  tally := by
    intro k
    rw [h₂.tally, h₁.tally, List.count_append]
    omega
  queue := h₂.queue.trans h₁.queue
  calls := h₂.calls.trans h₁.calls
  emitter := h₂.emitter.trans h₁.emitter
  stream := by
    obtain hsame | hnone := h₂.stream
    · rw [hsame]
      exact h₁.stream
    · exact .inr hnone
  resumes := h₂.resumes.trans h₁.resumes
  opened := by
    intro hclosed
    obtain ⟨ht, hcursor⟩ := h₂.opened hclosed
    obtain ⟨hs, hcursor'⟩ := h₁.opened ht
    exact ⟨hs, hcursor.trans hcursor'⟩
  operations := by
    intro m k hmem
    obtain ht | hemitter := h₂.operations m k hmem
    · exact h₁.operations m k ht
    · exact .inr (h₁.emitter.symm.trans hemitter)
  failures := fun e hmem => h₁.failures e (h₂.failures e hmem)

/-! ### Closing -/

theorem serves_finishClose (after : AfterClose) (hafter : ∀ e, after ≠ .unresumable e) :
    s.Serves (s.finishClose after) after.callers := by
  have hdone : s.Serves { s with closeDone := s.closeDone <|> some s.changes } [] :=
    { serves_refl s with }
  unfold finishClose
  cases after with
  | caller k => exact hdone.trans (serves_answer _ k _)
  | withError callback error =>
    cases callback with
    | none => exact hdone
    | some k => exact hdone.trans (serves_answer _ k _)
  | unresumable e => exact absurd rfl (hafter e)

theorem serves_close (after : AfterClose) (hafter : ∀ e, after ≠ .unresumable e) :
    s.Serves (s.close after) after.callers := by
  have hclosed : s.Serves { s with closed := true } [] :=
    { serves_refl s with opened := fun h => (by cases h) }
  unfold close
  dsimp only
  cases hcursor : s.cursor with
  | none =>
    simp only [hcursor] at hclosed
    exact hclosed.trans (serves_finishClose _ after hafter)
  | some c =>
    refine
      { serves_refl s with
        tally := ?_
        resumes := ?_
        opened := fun h => (by cases h)
        operations := ?_
        failures := ?_ }
    · intro k
      simp only [tally, closeCursor, List.flatMap_append, List.count_append, List.flatMap_cons, List.flatMap_nil,
        Flight.callers, List.append_nil]
      omega
    · simp [Resumes, or_and_right, exists_or, Flight.isResume]
    · intro m k hmem
      simpa using Or.inl hmem
    · intro e hmem
      obtain hmem | hmem := List.mem_append.1 hmem
      · exact hmem
      · cases List.mem_singleton.1 hmem
        exact absurd rfl (hafter e)

/-! ### Changes and errors -/

theorem serves_processNewChange (change : Option (Change τ)) (callback : Option Nat) :
    s.Serves (s.processNewChange change callback) callback.toList := by
  have hends : ∀ error, s.Serves (s.closeWithError error callback) callback.toList :=
    fun error => serves_close s (.withError callback error) (by simp)
  unfold processNewChange
  split
  · exact serves_callBack s callback _
  · cases change with
    | none => exact hends _
    | some change =>
      dsimp only
      split
      · exact hends _
      · cases callback with
        | none => exact { serves_refl s with }
        | some k => exact serves_answer s k _

theorem closed_close (after : AfterClose) : (s.close after).closed = true := by
  have hcore : (s.close after).core.closed = (s.core.close after).closed := by rw [core_close]
  refine hcore.trans ?_
  cases hcursor : s.core.cursor with
  | none =>
    rw [Core.close_of_none after hcursor]
    rfl
  | some c => rw [Core.close_of_some after hcursor]

/-- An error that no resume follows. -/
theorem serves_processError (maxWireVersion : Nat) (error : AnyError) (callback : Option Nat)
    (hno : s.closed = false → ∀ c, s.cursor = some c → error.isResumableError maxWireVersion = false) :
    s.Serves (s.processError maxWireVersion error callback) callback.toList ∧
      (s.processError maxWireVersion error callback).closed = true := by
  have hends : s.Serves (s.closeWithError error callback) callback.toList ∧
      (s.closeWithError error callback).closed = true :=
    ⟨serves_close s (.withError callback error) (by simp), closed_close s _⟩
  unfold processError
  cases hclosed : s.closed with
  | true =>
    refine ⟨serves_callBack s callback _, ?_⟩
    exact (congrArg Core.closed (core_callBack s callback _)).trans hclosed
  | false =>
    cases hcursor : s.cursor with
    | none => exact hends
    | some c =>
      rw [hno hclosed c hcursor]
      exact hends

/-- What is in the queue is of no concern to an error. -/
theorem processError_queue (maxWireVersion : Nat) (error : AnyError) (callback : Option Nat) (queue : List Request) :
    { s with queue }.processError maxWireVersion error callback =
      { s.processError maxWireVersion error callback with queue } := by
  obtain ⟨closed, cursor⟩ := s
  cases closed with
  | true =>
    cases callback with
    | none => rfl
    | some k => rfl
  | false =>
    cases cursor with
    | none =>
      cases callback with
      | none => rfl
      | some k => rfl
    | some c =>
      unfold processError
      cases error.isResumableError maxWireVersion with
      | true => rfl
      | false => rfl

end

/-! ## The callers that are owed an answer -/

/-- No caller is answered twice, and every caller but those of the list `owed` was answered, or will be by something
under way or by the resume that its request waits for. -/
structure Owes (s : ResumableStream) (owed : List Nat) : Prop where
  once : ∀ k, s.tally k + owed.count k ≤ 1
  fresh : ∀ k, s.calls ≤ k → s.tally k + owed.count k = 0
  kept : ∀ k, k < s.calls → s.tally k + owed.count k = 1 ∨ (s.Resumes ∧ ∃ r ∈ s.queue, r.caller = k)
  queued : ∀ r ∈ s.queue, r.caller < s.calls
  /-- of several requests all but the first may be those of callers that were answered -/
  live : s.Resumes → s.queue.length ≤ 1 → ∀ r ∈ s.queue, s.tally r.caller + owed.count r.caller = 0
  /-- a resume of an iterator has the request of the `next` that failed -/
  asked : s.Resumes → s.emitter = false → s.queue ≠ []
  silent : s.emitter = true → s.queue = [] ∧ ∀ m k, Flight.operation m k ∉ s.flights
  mode : s.emitter = false → s.cursorStream = none
  idle : s.closed = false → ¬ s.Resumes → s.queue = []
  detached : s.closed = false → s.cursor = none → s.Resumes
  failures : ∀ e, Flight.closing (.unresumable e) ∉ s.flights

namespace Owes

variable {τ : Type} {s t : ResumableStream} {owed : List Nat}

/-- The callers that were owed an answer are served. -/
theorem serve (h : s.Owes owed) (hserves : s.Serves t owed) : t.Owes [] where
  once := by
    intro k
    have hk := h.once k
    rw [hserves.tally]
    simpa using hk
  fresh := by
    intro k hk
    rw [hserves.calls] at hk
    rw [hserves.tally]
    simpa using h.fresh k hk
  kept := by
    intro k hk
    rw [hserves.calls] at hk
    rw [hserves.tally, hserves.resumes, hserves.queue]
    simpa using h.kept k hk
  queued := by
    rw [hserves.queue, hserves.calls]
    exact h.queued
  live := by
    rw [hserves.resumes, hserves.queue]
    intro hresumes hlength r hr
    rw [hserves.tally]
    simpa using h.live hresumes hlength r hr
  asked := by
    rw [hserves.resumes, hserves.emitter, hserves.queue]
    exact h.asked
  silent := by
    rw [hserves.emitter, hserves.queue]
    intro hemitter
    refine ⟨(h.silent hemitter).1, fun m k hmem => ?_⟩
    obtain hs | hfalse := hserves.operations m k hmem
    · exact (h.silent hemitter).2 m k hs
    · exact absurd (hfalse.symm.trans hemitter) (by simp)
  mode := by
    rw [hserves.emitter]
    intro hemitter
    obtain hsame | hnone := hserves.stream
    · exact hsame.trans (h.mode hemitter)
    · exact hnone
  idle := by
    rw [hserves.resumes, hserves.queue]
    intro hclosed
    exact h.idle (hserves.opened hclosed).1
  detached := by
    rw [hserves.resumes]
    intro hclosed hcursor
    obtain ⟨hs, hsame⟩ := hserves.opened hclosed
    exact h.detached hs (hsame.symm.trans hcursor)
  failures := fun e hmem => h.failures e (hserves.failures e hmem)

/-- A new caller. -/
theorem newCaller (h : s.Owes []) : { s with calls := s.calls + 1 }.Owes [s.calls] where
  once := by
    intro k
    have honce := h.once k
    show s.tally k + [s.calls].count k ≤ 1
    by_cases hk : s.calls = k
    · have hzero := h.fresh k (by omega)
      simp only [List.count_nil] at hzero
      simp [hk]
      omega
    · simpa [hk] using honce
  fresh := by
    intro k hk
    have hk : s.calls + 1 ≤ k := hk
    have hne : s.calls ≠ k := by omega
    have hzero := h.fresh k (by omega)
    show s.tally k + [s.calls].count k = 0
    simpa [hne] using hzero
  kept := by
    intro k hk
    have hk : k < s.calls + 1 := hk
    show s.tally k + [s.calls].count k = 1 ∨ s.Resumes ∧ _
    by_cases heq : s.calls = k
    · have hzero := h.fresh k (by omega)
      simp only [List.count_nil] at hzero
      left
      simp [heq]
      omega
    · simpa [heq] using h.kept k (by omega)
  queued := fun r hr => Nat.lt_succ_of_lt (h.queued r hr)
  live := by
    intro hresumes hlength r hr
    have hlt := h.queued r hr
    have hne : s.calls ≠ r.caller := by omega
    show s.tally r.caller + [s.calls].count r.caller = 0
    simpa [hne] using h.live hresumes hlength r hr
  asked := h.asked
  silent := h.silent
  mode := h.mode
  idle := h.idle
  detached := h.detached
  failures := h.failures

/-- Something under way other than a resume is answered: its callers are still to be. -/
theorem answered {before after : List Flight} {f : Flight} (h : s.Owes []) (hflights : s.flights = before ++ f :: after)
    (hf : f.isResume = false) : { s with flights := before ++ after }.Owes f.callers := by
  have htally : ∀ k, { s with flights := before ++ after }.tally k + f.callers.count k = s.tally k + [].count k := by
    intro k
    simp only [tally, hflights, List.flatMap_append, List.flatMap_cons, List.count_append, List.count_nil]
    omega
  have hresumes : { s with flights := before ++ after }.Resumes ↔ s.Resumes := by
    simp [Resumes, hflights, or_and_right, exists_or, hf]
  refine
    { once := fun k => (htally k).trans_le (h.once k)
      fresh := fun k hk => (htally k).trans (h.fresh k hk)
      kept := ?_
      queued := h.queued
      live := fun hr hlength r hmem => (htally _).trans (h.live (hresumes.1 hr) hlength r hmem)
      asked := fun hr => h.asked (hresumes.1 hr)
      silent := ?_
      mode := h.mode
      idle := fun hclosed hr => h.idle hclosed fun hs => hr (hresumes.2 hs)
      detached := fun hclosed hcursor => hresumes.2 (h.detached hclosed hcursor)
      failures := ?_ }
  · intro k hk
    rw [htally k, hresumes]
    exact h.kept k hk
  · intro hemitter
    obtain ⟨hqueue, hnone⟩ := h.silent hemitter
    exact ⟨hqueue, fun m k hmem => hnone m k (mem_flights hflights hmem)⟩
  · intro e hmem
    exact h.failures e (mem_flights hflights hmem)

/-- A request that joins the queue of a resume, or that of a closed stream. -/
theorem push (h : s.Owes owed) (r : Request) (hgoes : s.closed = true ∨ s.Resumes) (hemitter : s.emitter = false)
    (hr : r.caller < s.calls) : { s with queue := s.queue ++ [r] }.Owes owed where
  once := h.once
  fresh := h.fresh
  kept := by
    intro k hk
    obtain hone | ⟨hresumes, r', hr', hcaller⟩ := h.kept k hk
    · exact .inl hone
    · exact .inr ⟨hresumes, r', List.mem_append_left _ hr', hcaller⟩
  queued := by
    intro r' hr'
    obtain hr' | hr' := List.mem_append.1 hr'
    · exact h.queued r' hr'
    · rw [List.mem_singleton.1 hr']
      exact hr
  live := by
    -- the request is not the first one
    intro hresumes hlength
    have hlength : (s.queue ++ [r]).length ≤ 1 := hlength
    rw [List.length_append, List.length_singleton] at hlength
    exact absurd (List.length_eq_zero_iff.1 (by omega)) (h.asked hresumes hemitter)
  asked := fun _ _ => List.append_ne_nil_of_right_ne_nil _ (List.cons_ne_nil _ _)
  silent := fun htrue => absurd (hemitter.symm.trans htrue) (by simp)
  mode := h.mode
  idle := by
    intro hclosed hresumes
    obtain htrue | hs := hgoes
    · exact absurd (hclosed.symm.trans htrue) (by simp)
    · exact absurd hs hresumes
  detached := h.detached
  failures := h.failures

/-- A caller waits for the resume. -/
theorem wait {k : Nat} (h : s.Owes [k]) (hresumes : s.Resumes) (hqueue : ∃ r ∈ s.queue, r.caller = k) : s.Owes [] :=
  { h with
    once := by
      intro k'
      have hle := h.once k'
      simp only [List.count_nil]
      omega
    fresh := by
      intro k' hk'
      have hzero := h.fresh k' hk'
      simp only [List.count_nil]
      omega
    kept := by
      intro k' hk'
      by_cases heq : k = k'
      · subst heq
        exact .inr ⟨hresumes, hqueue⟩
      · simpa [heq] using h.kept k' hk'
    live := by
      intro hr hlength r hmem
      have hzero := h.live hr hlength r hmem
      simp only [List.count_nil]
      omega }

/-- A resume starts. The only request is that of the `next` that failed. -/
theorem startResume {callback : Option Nat} (h : s.Owes callback.toList) (hclosed : s.closed = false)
    (hresumes : ¬ s.Resumes) (hcallback : callback = none ↔ s.emitter = true) (c : Nat) :
    { s.closeCursor c with
      cursor := none
      cursorStream := none
      flights := s.flights ++ [Flight.waiting callback]
      queue := s.queue ++ callback.toList.map Request.next }.Owes [] := by
  have hqueue : s.queue = [] := h.idle hclosed hresumes
  rw [hqueue, List.nil_append]
  set t := { s.closeCursor c with
      cursor := none
      cursorStream := none
      flights := s.flights ++ [Flight.waiting callback]
      queue := callback.toList.map Request.next } with ht
  have htally : ∀ k, t.tally k = s.tally k := by
    intro k
    simp [tally, ht, closeCursor, Flight.callers]
  have hstarted : t.Resumes := ⟨.waiting callback, by simp [ht], rfl⟩
  refine
    { once := ?_
      fresh := ?_
      kept := ?_
      queued := ?_
      live := ?_
      asked := ?_
      silent := ?_
      mode := fun _ => rfl
      idle := fun _ hnot => absurd hstarted hnot
      detached := fun _ _ => hstarted
      failures := ?_ }
  · intro k
    have honce := h.once k
    rw [htally, List.count_nil]
    omega
  · intro k hk
    have hfresh := h.fresh k hk
    rw [htally, List.count_nil]
    omega
  · intro k hk
    obtain hone | ⟨hs, -⟩ := h.kept k hk
    · rw [htally, List.count_nil]
      by_cases hmem : k ∈ callback.toList
      · exact .inr ⟨hstarted, .next k, List.mem_map_of_mem hmem, rfl⟩
      · rw [List.count_eq_zero_of_not_mem hmem] at hone
        exact .inl hone
    · exact absurd hs hresumes
  · intro r hr
    obtain ⟨k, hk, rfl⟩ := List.mem_map.1 hr
    by_contra hlt
    have hzero := h.fresh k (Nat.le_of_not_lt hlt)
    have hpos := List.count_pos_iff.2 hk
    omega
  · intro _ _ r hr
    obtain ⟨k, hk, rfl⟩ := List.mem_map.1 hr
    have honce := h.once k
    have hpos := List.count_pos_iff.2 hk
    show t.tally k + [].count k = 0
    rw [htally, List.count_nil]
    omega
  · intro _ hemitter
    cases callback with
    | none => exact absurd (hemitter.symm.trans (hcallback.1 rfl)) (by simp)
    | some k => simp [ht]
  · intro hemitter
    obtain rfl := hcallback.2 hemitter
    refine ⟨rfl, fun m k hmem => (h.silent hemitter).2 m k ?_⟩
    simpa [ht] using hmem
  · intro e hmem
    apply h.failures e
    simpa [ht] using hmem

/-- The wait for the topology gives way to the trial of a new cursor. -/
theorem probe {before after : List Flight} {k : Nat} (h : s.Owes [])
    (hflights : s.flights = before ++ .waiting (some k) :: after) :
    { { s with flights := before ++ after }.createCursor with
      flights := before ++ after ++ [Flight.probing k s.cursors.length] }.Owes [] := by
  set t := { { s with flights := before ++ after }.createCursor with
    flights := before ++ after ++ [Flight.probing k s.cursors.length] } with ht
  have htally : ∀ k, t.tally k = s.tally k := by
    intro k
    simp [tally, ht, hflights, createCursor, Flight.callers]
  have hs : s.Resumes := ⟨.waiting (some k), by simp [hflights], rfl⟩
  have hresumes : t.Resumes := ⟨.probing k s.cursors.length, by simp [ht], rfl⟩
  have hmem : ∀ f, f ∈ t.flights → f ∈ s.flights ∨ f = .probing k s.cursors.length := by
    intro f hf
    simp only [ht, hflights, List.mem_append, List.mem_cons, List.not_mem_nil, or_false] at hf ⊢
    tauto
  refine
    { once := fun k => (congrArg (· + _) (htally k)).trans_le (h.once k)
      fresh := fun k hk => (congrArg (· + _) (htally k)).trans (h.fresh k hk)
      kept := ?_
      queued := h.queued
      live := fun _ hlength r hr => (congrArg (· + _) (htally _)).trans (h.live hs hlength r hr)
      asked := fun _ => h.asked hs
      silent := ?_
      mode := ?_
      idle := fun _ hnot => absurd hresumes hnot
      detached := fun _ _ => hresumes
      failures := ?_ }
  · intro k' hk'
    obtain hone | ⟨-, hqueue⟩ := h.kept k' hk'
    · exact .inl ((congrArg (· + _) (htally k')).trans hone)
    · exact .inr ⟨hresumes, hqueue⟩
  · intro hemitter
    refine ⟨(h.silent hemitter).1, fun m k' hop => ?_⟩
    obtain hop | hop := hmem _ hop
    · exact (h.silent hemitter).2 m k' hop
    · cases hop
  · intro hemitter
    have hfalse : s.emitter = false := hemitter
    show (if s.emitter then some s.cursors.length else s.cursorStream) = none
    rw [hfalse]
    exact h.mode hfalse
  · intro e hclosing
    obtain hclosing | hclosing := hmem _ hclosing
    · exact h.failures e hclosing
    · cases hclosing

/-- A resume is over: the caller of the only request is to be answered. -/
theorem endResume (h : s.Owes []) (hs : s.Resumes) (hlength : s.queue.length ≤ 1) (ht : ¬ t.Resumes)
    (hready : t.closed = true ∨ t.cursor.isSome = true) (htally : ∀ k, t.tally k = s.tally k) (hqueue : t.queue = [])
    (hcalls : t.calls = s.calls) (hemitter : t.emitter = s.emitter) (hmode : t.emitter = false → t.cursorStream = none)
    (hflights : ∀ f ∈ t.flights, f ∈ s.flights) : t.Owes (s.queue.map Request.caller) := by
  have hcount : ∀ k, k ∈ s.queue.map Request.caller → (s.queue.map Request.caller).count k = 1 := by
    intro k hk
    have hpos := List.count_pos_iff.2 hk
    have hle := List.count_le_length (a := k) (l := s.queue.map Request.caller)
    rw [List.length_map] at hle
    omega
  have hlive : ∀ k, k ∈ s.queue.map Request.caller → s.tally k = 0 := by
    intro k hk
    obtain ⟨r, hr, rfl⟩ := List.mem_map.1 hk
    simpa using h.live hs hlength r hr
  refine
    { once := ?_
      fresh := ?_
      kept := ?_
      queued := by simp [hqueue]
      live := fun hr => absurd hr ht
      asked := fun hr => absurd hr ht
      silent := fun htrue => ⟨hqueue, fun m k hmem => (h.silent (hemitter.symm.trans htrue)).2 m k (hflights _ hmem)⟩
      mode := hmode
      idle := fun _ _ => hqueue
      detached := ?_
      failures := fun e hmem => h.failures e (hflights _ hmem) }
  · intro k
    rw [htally]
    by_cases hk : k ∈ s.queue.map Request.caller
    · rw [hcount k hk, hlive k hk]
    · rw [List.count_eq_zero_of_not_mem hk]
      exact h.once k
  · intro k hk
    rw [hcalls] at hk
    rw [htally]
    have hnot : k ∉ s.queue.map Request.caller := by
      intro hmem
      obtain ⟨r, hr, rfl⟩ := List.mem_map.1 hmem
      have hlt := h.queued r hr
      omega
    rw [List.count_eq_zero_of_not_mem hnot]
    exact h.fresh k hk
  · intro k hk
    rw [hcalls] at hk
    rw [htally]
    left
    by_cases hmem : k ∈ s.queue.map Request.caller
    · rw [hcount k hmem, hlive k hmem]
    · rw [List.count_eq_zero_of_not_mem hmem]
      obtain hone | ⟨-, r, hr, rfl⟩ := h.kept k hk
      · exact hone
      · exact absurd (List.mem_map_of_mem hr) hmem
  · intro hclosed hcursor
    obtain htrue | hsome := hready
    · exact absurd (hclosed.symm.trans htrue) (by simp)
    · rw [hcursor] at hsome
      cases hsome

end Owes

end ResumableStream

end MongoDriver.Cursor
