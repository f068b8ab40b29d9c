/-
The answers to the requests that wait for a resume. `processResumeQueue` takes the last request first and may stop
after one, and a `next` that fails is both queued and given to `processError`; so the requests are answered as they
were made, and no callback is called twice, as long as a resume never ends with more than one request in the queue.
-/
import MongoDriver.Cursor.ResumeCallers

namespace MongoDriver.Cursor

/-- The answer ends a resume, and `processResumeQueue` runs. -/
def Flight.endsResume {τ : Type} (result : Except AnyError (Option (Change τ))) : Flight → Bool
  | .waiting callback =>
    match result, callback with
    | .error _, _ => true
    | .ok _, none => true
    | .ok _, some _ => false
  | .probing _ _ => true
  | .closing (.unresumable _) => true
  | _ => false

/-- The caller of a method of the cursor. -/
def Flight.operators : Flight → List Nat
  | .operation _ k => [k]
  | _ => []

namespace ResumableStream

/-- How often a caller has a request in the queue or a method of the cursor under way. -/
def pending (s : ResumableStream) (k : Nat) : Nat :=
  (s.queue.map Request.caller).count k + (s.flights.flatMap Flight.operators).count k

/-! ## The end of a resume -/

section Drained

variable (s : ResumableStream)

theorem queue_callRequest (hready : s.closed = true ∨ s.cursor.isSome = true) (err : Option AnyError)
    (request : Request) : (s.callRequest err request).queue = s.queue := by
  cases request with
  | next k =>
    show (s.begin .next k).queue = s.queue
    unfold begin
    cases hclosed : s.closed with
    | true => rfl
    | false =>
      obtain htrue | hsome := hready
      · exact absurd (hclosed.symm.trans htrue) (by simp)
      · obtain ⟨c, hc⟩ := Option.isSome_iff_exists.1 hsome
        rw [hc]
        rfl
  | getCursor m k =>
    cases err with
    | some e => rfl
    | none =>
      cases hcursor : s.cursor with
      | none =>
        simp only [callRequest, hcursor]
        rfl
      | some c =>
        simp only [callRequest, hcursor]
        rfl

/-- The requests are called from the last one on. -/
theorem drainQueue_called (err : Option AnyError) :
    ∀ (fuel : Nat) (s : ResumableStream) (called : List (Request × Except AnyError Nat)),
      (s.closed = true ∨ s.cursor.isSome = true) → s.queue.length = fuel →
      ∃ n, ((drainQueue err fuel s called).2.map Prod.fst) = called.map Prod.fst ++ s.queue.reverse.take n ∧
        (s.queue ≠ [] → 0 < n)
  | 0, s, called, _, hfuel => by
    have hqueue := List.length_eq_zero_iff.1 hfuel
    rw [drainQueue_nil err _ called hqueue]
    exact ⟨0, by simp, fun hne => absurd hqueue hne⟩
  | fuel + 1, s, called, hready, hfuel => by
    obtain hnil | ⟨requests, request, hqueue⟩ := List.eq_nil_or_concat' s.queue
    · rw [hnil] at hfuel
      cases hfuel
    · obtain ⟨err', result, herr, hstop | hgo⟩ := drainQueue_append err fuel called hqueue
      · rw [hstop]
        exact ⟨1, by simp [hqueue], fun _ => Nat.zero_lt_one⟩
      · rw [hgo]
        have hcore := core_callRequest { s with queue := requests } err' request
        have hclosed := congrArg Core.closed hcore
        have hcursor := congrArg Core.cursor hcore
        have hrest : ({ s with queue := requests }.callRequest err' request).queue = requests :=
          queue_callRequest { s with queue := requests } hready err' request
        have hlength : requests.length = fuel := by
          rw [hqueue, List.length_append, List.length_singleton] at hfuel
          omega
        obtain ⟨n, hn, -⟩ := drainQueue_called err fuel
          ({ s with queue := requests }.callRequest err' request) (called ++ [(request, result)])
          (hready.imp hclosed.trans fun hsome => (congrArg Option.isSome hcursor).trans hsome)
          ((congrArg List.length hrest).trans hlength)
        refine ⟨n + 1, ?_, fun _ => Nat.succ_pos n⟩
        rw [hn, hrest, hqueue]
        simp

/-- The drains, the calls and, at most, the requests and methods of callers that are not in the list stay. -/
structure Stays (s t : ResumableStream) (callers : List Nat) : Prop where
  drains : t.drains = s.drains
  calls : t.calls = s.calls
  pending : ∀ k, t.pending k ≤ s.pending k + callers.count k

theorem stays_answer (k : Nat) (result : Except AnyError Unit) (callers : List Nat) :
    s.Stays (s.answer k result) callers :=
  ⟨rfl, rfl, fun _ => Nat.le_add_right _ _⟩

theorem stays_operate (m : Method) (k : Nat) : s.Stays (s.operate m k) [k] := by
  refine ⟨rfl, rfl, fun k' => ?_⟩
  simp only [pending, operate, List.flatMap_append, List.count_append, List.flatMap_cons, List.flatMap_nil,
    Flight.operators, List.append_nil]
  omega

theorem stays_begin (m : Method) (k : Nat) : s.Stays (s.begin m k) [k] := by
  unfold begin
  split
  · exact stays_answer s k _ [k]
  · split
    · exact stays_operate s m k
    · refine ⟨rfl, rfl, fun k' => ?_⟩
      simp only [pending, List.map_append, List.count_append, List.map_cons, List.map_nil, Request.caller]
      omega

theorem stays_callRequest (err : Option AnyError) (request : Request) :
    s.Stays (s.callRequest err request) [request.caller] := by
  cases request with
  | next k => exact stays_begin s .next k
  | getCursor m k =>
    cases err with
    | some e => exact stays_answer s k _ [k]
    | none =>
      cases hcursor : s.cursor with
      | none =>
        simp only [callRequest, hcursor]
        exact stays_answer s k _ [k]
      | some c =>
        simp only [callRequest, hcursor]
        exact stays_operate s m k

theorem stays_drainQueue (err : Option AnyError) :
    ∀ (fuel : Nat) (s : ResumableStream) (called : List (Request × Except AnyError Nat)),
      s.Stays (drainQueue err fuel s called).1 []
  | 0, s, called => ⟨rfl, rfl, fun k => Nat.le_add_right _ _⟩
  | fuel + 1, s, called => by
    obtain hnil | ⟨requests, request, hqueue⟩ := List.eq_nil_or_concat' s.queue
    · rw [drainQueue_nil err _ called hnil]
      exact ⟨rfl, rfl, fun k => Nat.le_add_right _ _⟩
    · obtain ⟨err', result, -, hround⟩ := drainQueue_append err fuel called hqueue
      have hcall := stays_callRequest { s with queue := requests } err' request
      have hpending : ∀ k, ({ s with queue := requests }.callRequest err' request).pending k ≤ s.pending k := by
        intro k
        refine (hcall.pending k).trans (Nat.le_of_eq ?_)
        simp only [pending, hqueue, List.map_append, List.count_append, List.map_cons, List.map_nil]
        omega
      obtain hstop | hgo := hround
      · rw [hstop]
        exact ⟨hcall.drains, hcall.calls, hpending⟩
      · rw [hgo]
        have hrest := stays_drainQueue err fuel ({ s with queue := requests }.callRequest err' request)
          (called ++ [(request, result)])
        refine ⟨hrest.drains.trans hcall.drains, hrest.calls.trans hcall.calls, fun k => ?_⟩
        exact (hrest.pending k).trans (hpending k)

/-- A run of `processResumeQueue` calls requests from the last one on. -/
theorem processResumeQueue_drains (err : Option AnyError) (hready : s.closed = true ∨ s.cursor.isSome = true) :
    ∃ d n, (s.processResumeQueue err).drains = s.drains ++ [d] ∧ d.queued = s.queue ∧
      d.called.map Prod.fst = s.queue.reverse.take n ∧ (s.queue ≠ [] → 0 < n) := by
  obtain ⟨n, hn, hpos⟩ := drainQueue_called err s.queue.length s [] hready rfl
  refine ⟨⟨s.queue, (drainQueue err s.queue.length s []).2⟩, n, ?_, rfl, hn, hpos⟩
  exact congrArg (· ++ _) (stays_drainQueue err s.queue.length s []).drains

/-- A single request is answered. -/
theorem serves_processResumeQueue (err : Option AnyError) (hready : s.closed = true ∨ s.cursor.isSome = true)
    (hlength : s.queue.length ≤ 1) (hemitter : s.queue ≠ [] → s.emitter = false) :
    { s with queue := [] }.Serves (s.processResumeQueue err) (s.queue.map Request.caller) := by
  have hdrained : ∀ (t : ResumableStream) drains, t.Serves { t with drains } [] :=
    fun t drains => { serves_refl t with }
  unfold processResumeQueue
  obtain hnil | ⟨requests, request, hqueue⟩ := List.eq_nil_or_concat' s.queue
  · rw [drainQueue_nil err _ [] hnil, hnil]
    refine { serves_refl s with queue := hnil }
  · have hone : requests = [] := by
      rw [hqueue, List.length_append, List.length_singleton] at hlength
      exact List.length_eq_zero_iff.1 (by omega)
    subst hone
    have hfalse : s.emitter = false := hemitter (by simp [hqueue])
    obtain ⟨err', result, -, hround⟩ := drainQueue_append err 0 [] hqueue
    have hcall := serves_callRequest { s with queue := [] } hfalse hready err' request
    have hfinish : drainQueue err 1 s [] = ({ s with queue := [] }.callRequest err' request, [] ++
      [(request, result)]) := by
      obtain hstop | hgo := hround
      · exact hstop
      · exact hgo
    rw [hqueue]
    show { s with queue := [] }.Serves _ [request.caller]
    rw [List.nil_append, List.length_singleton, hfinish]
    exact hcall.trans (hdrained _ _)

theorem stays_finishClose (after : AfterClose) (hafter : ∀ e, after ≠ .unresumable e) :
    s.Stays (s.finishClose after) [] := by
  unfold finishClose
  cases after with
  | caller k => exact ⟨rfl, rfl, fun _ => Nat.le_refl _⟩
  | withError callback error =>
    cases callback with
    | none => exact ⟨rfl, rfl, fun _ => Nat.le_refl _⟩
    | some k => exact ⟨rfl, rfl, fun _ => Nat.le_refl _⟩
  | unresumable e => exact absurd rfl (hafter e)

theorem stays_close (after : AfterClose) (hafter : ∀ e, after ≠ .unresumable e) : s.Stays (s.close after) [] := by
  unfold close
  dsimp only
  cases hcursor : s.cursor with
  | none =>
    obtain ⟨hdrains, hcalls, hpending⟩ := stays_finishClose { s with closed := true, cursor := none } after hafter
    exact ⟨hdrains, hcalls, hpending⟩
  | some c =>
    refine ⟨rfl, rfl, fun k => ?_⟩
    simp [pending, closeCursor, Flight.operators]

theorem stays_callBack (callback : Option Nat) (result : Except AnyError Unit) :
    s.Stays (s.callBack callback result) [] := by
  cases callback with
  | none => exact ⟨rfl, rfl, fun _ => Nat.le_refl _⟩
  | some k => exact stays_answer s k result []

theorem stays_processNewChange {τ : Type} (change : Option (Change τ)) (callback : Option Nat) :
    s.Stays (s.processNewChange change callback) [] := by
  have hends : ∀ error, s.Stays (s.closeWithError error callback) [] :=
    fun error => stays_close s (.withError callback error) (by simp)
  unfold processNewChange
  split
  · exact stays_callBack s callback _
  · cases change with
    | none => exact hends _
    | some change =>
      dsimp only
      split
      · exact hends _
      · cases callback with
        | none => exact ⟨rfl, rfl, fun _ => Nat.le_refl _⟩
        | some k => exact stays_answer s k _ []

theorem stays_processError (maxWireVersion : Nat) (error : AnyError) (callback : Option Nat) :
    s.Stays (s.processError maxWireVersion error callback) [] := by
  have hends : s.Stays (s.closeWithError error callback) [] := stays_close s (.withError callback error) (by simp)
  unfold processError
  split
  · exact stays_callBack s callback _
  · split
    · exact hends
    · split
      · refine ⟨rfl, rfl, fun k => ?_⟩
        simp [pending, closeCursor, Flight.operators]
      · exact hends

end Drained

/-! ### The ways a resume ends -/

section Ends

variable {τ : Type} {s t : ResumableStream}

/-- `t` is the stream `s` when its queue is processed. -/
structure Ready (s t : ResumableStream) : Prop where
  queue : t.queue = s.queue
  flights : t.flights = s.flights
  answered : t.answered = s.answered
  calls : t.calls = s.calls
  drains : t.drains = s.drains
  emitter : t.emitter = s.emitter
  stream : s.emitter = false → t.cursorStream = s.cursorStream ∨ t.cursorStream = none
  ready : t.closed = true ∨ t.cursor.isSome = true

theorem unresumableError_ready (error : AnyError) (hcursor : s.cursor = none) :
    ∃ t, s.Ready t ∧ s.unresumableError error = t.processResumeQueue (some error) := by
  refine ⟨{ s with closed := true, closeDone := s.closeDone <|> some s.changes }, ?_, ?_⟩
  · exact ⟨rfl, rfl, rfl, rfl, rfl, rfl, fun _ => .inl rfl, .inl rfl⟩
  · simp [unresumableError, close, hcursor, finishClose]

/-- A resume that has failed, or whose new cursor is attached, processes the queue. -/
theorem receive_ready (maxWireVersion : Nat) {f : Flight} (result : Except AnyError (Option (Change τ)))
    (hf : f.endsResume result = true) (hcursor : f.isResume = true → s.cursor = none)
    (hclosed : ∀ after, f = .closing after → s.closed = true) :
    ∃ t err, s.Ready t ∧ s.receive maxWireVersion result f = t.processResumeQueue err := by
  cases f with
  | operation m k => cases hf
  | waiting callback =>
    cases result with
    | error e =>
      obtain ⟨t, hready, ht⟩ := unresumableError_ready e (hcursor rfl)
      exact ⟨t, some e, hready, ht⟩
    | ok change =>
      cases callback with
      | some k => cases hf
      | none =>
        refine ⟨{ s.createCursor with cursor := some s.cursors.length }, none, ?_, rfl⟩
        refine ⟨rfl, rfl, rfl, rfl, rfl, rfl, fun hemitter => .inl ?_, .inr rfl⟩
        simp [createCursor, hemitter]
  | probing k c =>
    cases result with
    | error e =>
      obtain ⟨t, hready, ht⟩ := unresumableError_ready (s := s.closeCursor c) e (hcursor rfl)
      exact ⟨t, some e, ⟨hready.queue, hready.flights, hready.answered, hready.calls, hready.drains, hready.emitter,
        hready.stream, hready.ready⟩, ht⟩
    | ok change =>
      refine ⟨{ s with cursor := some c }, none, ?_, rfl⟩
      exact ⟨rfl, rfl, rfl, rfl, rfl, rfl, fun _ => .inl rfl, .inr rfl⟩
  | closing after =>
    cases after with
    | caller k => cases hf
    | withError callback e => cases hf
    | unresumable e =>
      refine
        ⟨{ s with cursorStream := none, cursor := none, closeDone := s.closeDone <|> some s.changes }, some e, ?_, rfl⟩
      exact ⟨rfl, rfl, rfl, rfl, rfl, rfl, fun _ => .inr rfl, .inl (hclosed _ rfl)⟩

end Ends

/-! ## The order of the answers -/

/-- The event ends a resume. -/
def EndsResume {τ : Type} (s : ResumableStream) : ResumeEvent τ → Prop
  | .answer i result => ∃ f ∈ s.flights[i]?, f.endsResume result = true
  | _ => False

/-- A resume ends with one request in the queue at most. -/
def OneRequest {τ : Type} (s : ResumableStream) (e : ResumeEvent τ) : Prop := s.EndsResume e → s.queue.length ≤ 1

instance {τ : Type} : (s : ResumableStream) → (e : ResumeEvent τ) → Decidable (s.EndsResume e)
  | s, .answer i result => inferInstanceAs (Decidable (∃ f ∈ s.flights[i]?, f.endsResume result = true))
  | _, .call _ => instDecidableFalse
  | _, .close => instDecidableFalse
  | _, .data _ => instDecidableFalse
  | _, .streamError _ => instDecidableFalse

instance {τ : Type} (s : ResumableStream) (e : ResumeEvent τ) : Decidable (s.OneRequest e) :=
  inferInstanceAs (Decidable (_ → _))

/-- Every run of `processResumeQueue` called all the requests, in the order they were made. -/
def InOrder (s : ResumableStream) : Prop := ∀ d ∈ s.drains, d.called.map Prod.fst = d.queued

/-- The requests in the queue and the methods under way are those of different callers. -/
structure Distinct (s : ResumableStream) : Prop where
  once : ∀ k, s.pending k ≤ 1
  fresh : ∀ k, s.calls ≤ k → s.pending k = 0

/-- A run of `processResumeQueue` that called requests from the last one on. -/
def Drained (s t : ResumableStream) : Prop :=
  ∃ d n, t.drains = s.drains ++ [d] ∧ d.queued = s.queue ∧ d.called.map Prod.fst = s.queue.reverse.take n ∧
    (s.queue ≠ [] → 0 < n)

section Order

variable {τ : Type} {s t : ResumableStream} {maxWireVersion : Nat}

theorem Distinct.stay (h : s.Distinct) (hcalls : t.calls = s.calls) (hpending : ∀ k, t.pending k ≤ s.pending k) :
    t.Distinct := by
  constructor
  · intro k
    exact (hpending k).trans (h.once k)
  · intro k hk
    rw [hcalls] at hk
    exact Nat.le_zero.1 ((hpending k).trans_eq (h.fresh k hk))

theorem Distinct.queue_nodup (h : s.Distinct) : s.queue.Nodup := by
  apply List.Nodup.of_map Request.caller
  rw [List.nodup_iff_count_le_one]
  intro k
  have honce := h.once k
  unfold pending at honce
  omega

/-- Something under way is answered: its caller is no longer pending. -/
theorem Distinct.answered {before after : List Flight} {f : Flight} (h : s.Distinct)
    (hflights : s.flights = before ++ f :: after) : { s with flights := before ++ after }.Distinct := by
  refine h.stay rfl fun k => ?_
  simp only [pending, hflights, List.flatMap_append, List.flatMap_cons, List.count_append]
  omega

theorem length_le_one_of_reverse {α : Type} {l : List α} (hnodup : l.Nodup) (h : l.reverse = l) : l.length ≤ 1 := by
  cases l with
  | nil => exact Nat.zero_le _
  | cons a rest =>
    obtain rfl | ⟨init, b, rfl⟩ := List.eq_nil_or_concat' rest
    · exact Nat.le_refl _
    · have hends : b = a := by
        rw [List.reverse_cons, List.reverse_append] at h
        exact (List.cons.inj h).1
      rw [hends, List.nodup_cons] at hnodup
      exact absurd (by simp) hnodup.1

/-- The order of several requests is reversed. -/
theorem inOrder_drained_iff (hnodup : s.queue.Nodup) (hs : s.InOrder) (hd : s.Drained t) :
    t.InOrder ↔ s.queue.length ≤ 1 := by
  obtain ⟨d, n, hdrains, hqueued, hcalled, hpos⟩ := hd
  have hiff : t.InOrder ↔ s.queue.reverse.take n = s.queue := by
    unfold InOrder
    rw [hdrains]
    constructor
    · intro h
      have hlast := h d (by simp)
      rwa [hcalled, hqueued] at hlast
    · intro heq d' hd'
      obtain hd' | hd' := List.mem_append.1 hd'
      · exact hs d' hd'
      · obtain rfl := List.mem_singleton.1 hd'
        rw [hcalled, hqueued, heq]
  rw [hiff]
  constructor
  · intro heq
    have hlength := congrArg List.length heq
    rw [List.length_take, List.length_reverse] at hlength
    rw [List.take_of_length_le (by rw [List.length_reverse]; omega)] at heq
    exact length_le_one_of_reverse hnodup heq
  · intro hlength
    cases hqueue : s.queue with
    | nil => simp
    | cons r rest =>
      have hrest : rest = [] := by
        rw [hqueue, List.length_cons] at hlength
        exact List.length_eq_zero_iff.1 (by omega)
      subst hrest
      have hpos := hpos (by simp [hqueue])
      obtain ⟨m, rfl⟩ := Nat.exists_eq_add_of_lt hpos
      simp

theorem drained_processResumeQueue (hready : s.Ready t) (err : Option AnyError) :
    s.Drained (t.processResumeQueue err) := by
  obtain ⟨d, n, hdrains, hqueued, hcalled, hpos⟩ := processResumeQueue_drains t err hready.ready
  rw [hready.queue] at hqueued hcalled hpos
  exact ⟨d, n, hdrains.trans (congrArg (· ++ [d]) hready.drains), hqueued, hcalled, hpos⟩

theorem Distinct.processResumeQueue (h : s.Distinct) (hready : s.Ready t) (err : Option AnyError) :
    (t.processResumeQueue err).Distinct := by
  have hpending : ∀ k, t.pending k = s.pending k := fun k => by simp only [pending, hready.queue, hready.flights]
  obtain ⟨-, hcalls, hdrained⟩ := stays_drainQueue err t.queue.length t []
  exact h.stay (hcalls.trans hready.calls) fun k => (hdrained k).trans_eq (hpending k)

/-- An answer that ends a resume. -/
theorem receive_drained (maxWireVersion : Nat) {before after : List Flight} {f : Flight} (h : s.core.Coherent)
    (hflights : s.flights = before ++ f :: after) (result : Except AnyError (Option (Change τ)))
    (hf : f.endsResume result = true) :
    ∃ t err, { s with flights := before ++ after }.Ready t ∧
      { s with flights := before ++ after }.receive maxWireVersion result f = t.processResumeQueue err := by
  refine receive_ready maxWireVersion result hf (fun hresume => ?_) (fun done hdone => ?_)
  · exact (core_answered_resume h hflights hresume).1.cursor
  · subst hdone
    obtain ⟨hs, hne, -⟩ := core_answered_closing h hflights
    exact (hs.closing hne).1

/-- An answer that does not end a resume processes no queue. -/
theorem receive_stays (maxWireVersion : Nat) {f : Flight} (s : ResumableStream)
    (result : Except AnyError (Option (Change τ))) (hf : f.endsResume result = false) :
    s.Stays (s.receive maxWireVersion result f) f.operators := by
  cases f with
  | operation m k =>
    unfold receive
    dsimp only
    split
    · cases result with
      | error e =>
        obtain ⟨hdrains, hcalls, hpending⟩ :=
          stays_processError { s with queue := s.queue ++ [Request.next k] } maxWireVersion e (some k)
        refine ⟨hdrains, hcalls, fun k' => (hpending k').trans_eq ?_⟩
        simp only [pending, List.map_append, List.count_append, List.map_cons, List.map_nil, Request.caller,
          Flight.operators, List.count_nil]
        omega
      | ok change =>
        obtain ⟨hdrains, hcalls, hpending⟩ := stays_processNewChange s change (some k)
        exact ⟨hdrains, hcalls, fun k' => (hpending k').trans (Nat.le_add_right _ _)⟩
    · exact stays_answer s k _ _
  | waiting callback =>
    cases result with
    | error e => cases hf
    | ok change =>
      cases callback with
      | none => cases hf
      | some k =>
        refine ⟨rfl, rfl, fun k' => ?_⟩
        simp [pending, receive, createCursor, Flight.operators]
  | probing k c => cases hf
  | closing after =>
    obtain ⟨hdrains, hcalls, hpending⟩ :=
      stays_finishClose { s with cursorStream := none, cursor := none } after (by rintro e rfl; cases hf)
    exact ⟨hdrains, hcalls, hpending⟩

/-- What a step does to the queue. -/
theorem step_queue {e : ResumeEvent τ} (h : s.core.Coherent) (hd : s.Distinct)
    (hstep : step maxWireVersion s e = some t) :
    t.Distinct ∧ ((¬ s.EndsResume e ∧ t.drains = s.drains) ∨ (s.EndsResume e ∧ s.Drained t)) := by
  cases e with
  | call m =>
    obtain ⟨-, rfl⟩ := step_call hstep
    obtain ⟨hdrains, hcalls, hpending⟩ := stays_begin { s with calls := s.calls + 1 } m s.calls
    refine ⟨⟨fun k => ?_, fun k hk => ?_⟩, .inl ⟨id, hdrains⟩⟩
    · have hle : _ ≤ s.pending k + [s.calls].count k := hpending k
      by_cases hk : s.calls = k
      · have hzero := hd.fresh k (by omega)
        have hone : [s.calls].count k = 1 := by simp [hk]
        omega
      · have honce := hd.once k
        have hzero : [s.calls].count k = 0 := by simp [hk]
        omega
    · rw [hcalls] at hk
      have hk : s.calls + 1 ≤ k := hk
      have hle : _ ≤ s.pending k + [s.calls].count k := hpending k
      have hzero := hd.fresh k (by omega)
      have hne : s.calls ≠ k := by omega
      have hcount : [s.calls].count k = 0 := by simp [hne]
      omega
  | close =>
    cases hstep
    obtain ⟨hdrains, hcalls, hpending⟩ := stays_close { s with calls := s.calls + 1 } (.caller s.calls) (by simp)
    refine ⟨⟨fun k => (hpending k).trans (hd.once k), fun k hk => ?_⟩, .inl ⟨id, hdrains⟩⟩
    rw [hcalls] at hk
    exact Nat.le_zero.1 ((hpending k).trans_eq (hd.fresh k (Nat.le_of_succ_le hk)))
  | answer i result =>
    obtain ⟨before, f, after, hf, hflights, rfl⟩ := step_answer hstep
    cases hends : f.endsResume result with
    | true =>
      obtain ⟨t, err, hready, ht⟩ := receive_drained maxWireVersion h hflights result hends
      rw [ht]
      refine ⟨(hd.answered hflights).processResumeQueue hready err, .inr ⟨⟨f, hf, hends⟩, ?_⟩⟩
      exact drained_processResumeQueue hready err
    | false =>
      obtain ⟨hdrains, hcalls, hpending⟩ :=
        receive_stays maxWireVersion { s with flights := before ++ after } result hends
      refine ⟨hd.stay hcalls fun k => (hpending k).trans_eq ?_, .inl ⟨?_, hdrains⟩⟩
      · simp only [pending, hflights, List.flatMap_append, List.flatMap_cons, List.count_append]
        omega
      · rintro ⟨f', hf', hends'⟩
        obtain rfl := Option.some.inj (hf.symm.trans hf')
        exact absurd (hends.symm.trans hends') (by simp)
  | data change =>
    obtain ⟨-, rfl⟩ := step_data hstep
    obtain ⟨hdrains, hcalls, hpending⟩ := stays_processNewChange s change none
    exact ⟨hd.stay hcalls hpending, .inl ⟨id, hdrains⟩⟩
  | streamError error =>
    obtain ⟨-, rfl⟩ := step_streamError hstep
    obtain ⟨hdrains, hcalls, hpending⟩ := stays_processError s maxWireVersion error none
    exact ⟨hd.stay hcalls hpending, .inl ⟨id, hdrains⟩⟩

/-- The answers of a step are in order if and only if it does not end a resume with several requests. -/
theorem step_inOrder {e : ResumeEvent τ} (h : s.core.Coherent) (hd : s.Distinct) (hs : s.InOrder)
    (hstep : step maxWireVersion s e = some t) : t.InOrder ↔ s.OneRequest e := by
  obtain ⟨hno, hdrains⟩ | ⟨hends, hdrained⟩ := (step_queue h hd hstep).2
  · refine iff_of_true ?_ fun hends => absurd hends hno
    unfold InOrder
    rw [hdrains]
    exact hs
  · rw [inOrder_drained_iff hd.queue_nodup hs hdrained]
    exact ⟨fun hlength _ => hlength, fun hone => hone hends⟩

end Order

/-! ## The callers of a run -/

section Callers

variable {τ : Type} {s t : ResumableStream} {maxWireVersion : Nat}

theorem cursor_of_resumes (h : s.core.Coherent) (hresumes : s.Resumes) : s.cursor = none := by
  obtain ⟨f, hmem, hf⟩ := hresumes
  obtain ⟨g, hg⟩ | hs := h.phase
  · exact hg.cursor
  · obtain ⟨after, rfl⟩ := hs.tasks f ((mem_core_tasks (isTask_of_isResume hf)).2 hmem)
    cases hf

/-- The answer to a resume leaves none under way. -/
theorem not_resumes_of_answered {before after : List Flight} {f : Flight} (h : s.core.Coherent)
    (hflights : s.flights = before ++ f :: after) (hf : f.isResume = true) :
    ¬ { s with flights := before ++ after }.Resumes := by
  rintro ⟨g, hmem, hg⟩
  have htasks := congrArg Core.tasks (core_answered_resume h hflights hf).2
  have hg' := (mem_core_tasks (s := { s with flights := before ++ after }) (isTask_of_isResume hg)).2 hmem
  rw [htasks] at hg'
  cases hg'

theorem owes_call (h : s.Owes []) (hemitter : s.emitter = false) (m : Method) :
    ({ s with calls := s.calls + 1 }.begin m s.calls).Owes [] := by
  have hnew := h.newCaller
  by_cases hready : s.closed = true ∨ s.cursor.isSome = true
  · exact hnew.serve (serves_begin { s with calls := s.calls + 1 } hemitter hready m s.calls)
  · -- the request waits for the resume
    have hclosed : s.closed = false := by
      cases hclosed : s.closed with
      | false => rfl
      | true => exact absurd (.inl hclosed) hready
    have hcursor : s.cursor = none := by
      cases hcursor : s.cursor with
      | none => rfl
      | some c => exact absurd (.inr (by simp [hcursor])) hready
    have hresumes : s.Resumes := h.detached hclosed hcursor
    have hbegin : { s with calls := s.calls + 1 }.begin m s.calls =
        { s with calls := s.calls + 1, queue := s.queue ++ [.getCursor m s.calls] } := by
      simp [begin, hclosed, hcursor]
    rw [hbegin]
    have hpush := hnew.push (.getCursor m s.calls) (.inr hresumes) hemitter (Nat.lt_succ_self _)
    exact hpush.wait hresumes ⟨.getCursor m s.calls, by simp, rfl⟩

/-- An error: the stream resumes, or the caller is answered. -/
theorem owes_processError (maxWireVersion : Nat) (error : AnyError) (callback : Option Nat) (h : s.core.Coherent)
    (ho : s.Owes callback.toList) (hcallback : callback = none ↔ s.emitter = true) :
    ({ s with queue := s.queue ++ callback.toList.map Request.next }.processError maxWireVersion error callback).Owes
      [] := by
  by_cases hgoes : s.closed = false ∧ ∃ c, s.cursor = some c ∧ error.isResumableError maxWireVersion = true
  · obtain ⟨hclosed, c, hcursor, hresumable⟩ := hgoes
    have hresumes : ¬ s.Resumes := by
      intro hresumes
      exact absurd ((cursor_of_resumes h hresumes).symm.trans hcursor) (by simp)
    have hstart := ho.startResume hclosed hresumes hcallback c
    simpa [processError, closeCursor, hclosed, hcursor, hresumable] using hstart
  · have hno : s.closed = false → ∀ c, s.cursor = some c → error.isResumableError maxWireVersion = false := by
      intro hclosed c hcursor
      cases hresumable : error.isResumableError maxWireVersion with
      | false => rfl
      | true => exact absurd ⟨hclosed, c, hcursor, hresumable⟩ hgoes
    obtain ⟨hserves, hclosed⟩ := serves_processError s maxWireVersion error callback hno
    have hserved := ho.serve hserves
    rw [processError_queue, ← hserves.queue]
    cases callback with
    | none =>
      rw [Option.toList_none, List.map_nil, List.append_nil]
      exact hserved
    | some k =>
      -- the request stays in the queue of the closed stream
      have hemitter : s.emitter = false := by
        cases hemitter : s.emitter with
        | false => rfl
        | true => exact absurd (hcallback.2 hemitter) (by simp)
      have hk : k < s.calls := by
        by_contra hle
        have hfresh := ho.fresh k (Nat.le_of_not_lt hle)
        simp at hfresh
      exact hserved.push (.next k) (.inl hclosed) (hserves.emitter.trans hemitter) (hserves.calls ▸ hk)

/-- A resume ends, and the caller of its request is answered. -/
theorem owes_ended {before after : List Flight} {f : Flight} (h : s.core.Coherent) (ho : s.Owes [])
    (hflights : s.flights = before ++ f :: after) (hf : f.isResume = true) (hlength : s.queue.length ≤ 1)
    (hready : { s with flights := before ++ after }.Ready t) (err : Option AnyError) :
    (t.processResumeQueue err).Owes [] := by
  have hcallers : f.callers = [] := by
    cases f with
    | operation m k => cases hf
    | waiting callback => rfl
    | probing k c => rfl
    | closing after => cases hf
  have hqueue : t.queue = s.queue := hready.queue
  have hended : { t with queue := [] }.Owes (s.queue.map Request.caller) := by
    refine ho.endResume ⟨f, by simp [hflights], hf⟩ hlength ?_ hready.ready ?_ rfl hready.calls hready.emitter ?_ ?_
    · rintro ⟨g, hmem, hg⟩
      have hmem : g ∈ t.flights := hmem
      rw [hready.flights] at hmem
      exact not_resumes_of_answered h hflights hf ⟨g, hmem, hg⟩
    · intro k
      simp [tally, hready.answered, hready.flights, hflights, hcallers]
    · intro hemitter
      have hs : s.emitter = false := hready.emitter.symm.trans hemitter
      obtain hsame | hnone := hready.stream hs
      · exact hsame.trans (ho.mode hs)
      · exact hnone
    · intro g hmem
      have hmem : g ∈ t.flights := hmem
      rw [hready.flights] at hmem
      exact mem_flights hflights hmem
  rw [← hqueue] at hended hlength
  refine hended.serve (serves_processResumeQueue t err hready.ready hlength fun hne => ?_)
  cases hemitter : t.emitter with
  | false => rfl
  | true => exact absurd (hqueue.trans (ho.silent (hready.emitter.symm.trans hemitter)).1) hne

/-- An answer that does not end a resume. -/
theorem owes_receive (maxWireVersion : Nat) {before after : List Flight} {f : Flight} (h : s.core.Coherent)
    (ho : s.Owes []) (hflights : s.flights = before ++ f :: after) (result : Except AnyError (Option (Change τ)))
    (hf : f.endsResume result = false) :
    ({ s with flights := before ++ after }.receive maxWireVersion result f).Owes [] := by
  cases f with
  | operation m k =>
    have hanswered : { s with flights := before ++ after }.Owes [k] := ho.answered hflights rfl
    by_cases hm : m = .next
    · subst hm
      cases result with
      | error e =>
        have hemitter : s.emitter = false := by
          cases hemitter : s.emitter with
          | false => rfl
          | true => exact absurd (by simp [hflights]) ((ho.silent hemitter).2 .next k)
        have hcoherent : { s with flights := before ++ after }.core.Coherent := by
          rw [core_answered_operation hflights]
          exact h
        exact owes_processError maxWireVersion e (some k) hcoherent hanswered (by simp [hemitter])
      | ok change => exact hanswered.serve (serves_processNewChange _ change (some k))
    · have hreceive : { s with flights := before ++ after }.receive maxWireVersion result (.operation m k) =
          { s with flights := before ++ after }.answer k (result.map fun _ => ()) := if_neg hm
      rw [hreceive]
      exact hanswered.serve (serves_answer _ k _)
  | waiting callback =>
    cases result with
    | error e => cases hf
    | ok change =>
      cases callback with
      | none => cases hf
      | some k => exact ho.probe hflights
  | probing k c => cases hf
  | closing done =>
    have hanswered : { s with flights := before ++ after }.Owes done.callers := ho.answered hflights rfl
    have hclosed : s.closed = true := by
      obtain ⟨hs, hne, -⟩ := core_answered_closing h hflights
      exact (hs.closing hne).1
    have hdetach : { s with flights := before ++ after }.Serves
        { s with flights := before ++ after, cursorStream := none, cursor := none } [] :=
      { serves_refl _ with
        stream := .inr rfl
        opened := fun hfalse => absurd (hclosed.symm.trans hfalse) (by simp) }
    have hfinish := serves_finishClose { s with flights := before ++ after, cursorStream := none, cursor := none } done
      (by rintro e rfl; cases hf)
    exact hanswered.serve (hdetach.trans hfinish)

/-- No step leaves a caller behind or answers one twice, unless it ends a resume with several requests. -/
theorem step_owes {e : ResumeEvent τ} (h : s.core.Coherent) (ho : s.Owes []) (hone : s.OneRequest e)
    (hstep : step maxWireVersion s e = some t) : t.Owes [] := by
  cases e with
  | call m =>
    obtain ⟨hemitter, rfl⟩ := step_call hstep
    exact owes_call ho hemitter m
  | close =>
    cases hstep
    exact ho.newCaller.serve (serves_close _ (.caller s.calls) (by simp))
  | answer i result =>
    obtain ⟨before, f, after, hf, hflights, rfl⟩ := step_answer hstep
    cases hends : f.endsResume result with
    | false => exact owes_receive maxWireVersion h ho hflights result hends
    | true =>
      obtain ⟨t, err, hready, ht⟩ := receive_drained maxWireVersion h hflights result hends
      rw [ht]
      refine owes_ended h ho hflights ?_ (hone ⟨f, hf, hends⟩) hready err
      cases f with
      | operation m k => cases hends
      | waiting callback => rfl
      | probing k c => rfl
      | closing after =>
        cases after with
        | caller k => cases hends
        | withError callback e => cases hends
        | unresumable e => exact absurd (by simp [hflights]) (ho.failures e)
  | data change =>
    obtain ⟨-, rfl⟩ := step_data hstep
    exact ho.serve (serves_processNewChange s change none)
  | streamError error =>
    obtain ⟨hstream, rfl⟩ := step_streamError hstep
    have hemitter : s.emitter = true := by
      cases hemitter : s.emitter with
      | true => rfl
      | false =>
        rw [ho.mode hemitter] at hstream
        cases hstream
    have hnext := owes_processError maxWireVersion error none h ho (by simp [hemitter])
    simpa using hnext

/-! ## Runs -/

theorem new_distinct (emitter : Bool) : (new emitter).Distinct := ⟨fun _ => Nat.zero_le _, fun _ _ => rfl⟩

theorem new_owes (emitter : Bool) : (new emitter).Owes [] where
  once := fun _ => Nat.zero_le _
  fresh := fun _ _ => rfl
  kept := fun k hk => absurd hk (Nat.not_lt_zero k)
  queued := fun r hr => (by cases hr)
  live := fun _ _ r hr => (by cases hr)
  asked := by
    rintro ⟨f, hf, -⟩
    cases hf
  silent := fun _ => ⟨rfl, fun _ _ h => (by cases h)⟩
  mode := by
    rintro rfl
    rfl
  idle := fun _ _ => rfl
  detached := fun _ h => (by cases h)
  failures := fun _ h => (by cases h)

/-- No callback was called twice, every run of `processResumeQueue` answered the requests it found in the order they
were made, and every caller was answered, or is by something under way or by the resume that its request waits for. -/
structure AnsweredInTurn (s : ResumableStream) : Prop where
  once : (s.answered.map Prod.fst).Nodup
  inOrder : s.InOrder
  kept : ∀ k < s.calls, k ∈ s.answered.map Prod.fst ∨ (∃ f ∈ s.flights, k ∈ f.callers) ∨
    (s.Resumes ∧ ∃ r ∈ s.queue, r.caller = k)

theorem answeredInTurn_of_owes (ho : s.Owes []) (horder : s.InOrder) : s.AnsweredInTurn where
  once := by
    rw [List.nodup_iff_count_le_one]
    intro k
    have honce := ho.once k
    unfold tally at honce
    omega
  inOrder := horder
  kept := by
    intro k hk
    obtain hone | hwaits := ho.kept k hk
    · by_cases hanswered : k ∈ s.answered.map Prod.fst
      · exact .inl hanswered
      · have hpos : 0 < (s.flights.flatMap Flight.callers).count k := by
          have hzero := List.count_eq_zero_of_not_mem hanswered
          unfold tally at hone
          rw [List.count_nil] at hone
          omega
        exact .inr (.inl (List.mem_flatMap.1 (List.count_pos_iff.1 hpos)))
    · exact .inr (.inr hwaits)

end Callers

/-- The requests that wait for a resume are answered in turn, and every caller once, in every state of exactly those
runs in which no resume ends with more than one request in the queue. -/
theorem requests_answered_in_turn_iff {τ : Type} (maxWireVersion : Nat) (emitter : Bool) (es : List (ResumeEvent τ))
    (t : ResumableStream) (hrun : Run.exec (step maxWireVersion) (new emitter) es = some t) :
    Run.Meets (step maxWireVersion) OneRequest (new emitter) es ↔
      ∀ es₁ es₂ u, es = es₁ ++ es₂ → Run.exec (step maxWireVersion) (new emitter) es₁ = some u → u.AnsweredInTurn := by
  have hfound : ∀ (s : ResumableStream) (e : ResumeEvent τ) t, s.core.Coherent ∧ s.Distinct →
      step maxWireVersion s e = some t → t.core.Coherent ∧ t.Distinct :=
    fun s e t hs hstep => ⟨(step_closed hs.1 hstep).1, (step_queue hs.1 hs.2 hstep).1⟩
  have hexact : ∀ (s : ResumableStream) (e : ResumeEvent τ) t, (s.core.Coherent ∧ s.Distinct) ∧ s.InOrder →
      step maxWireVersion s e = some t → ((t.core.Coherent ∧ t.Distinct) ∧ t.InOrder ↔ s.OneRequest e) :=
    fun s e t hs hstep => (and_iff_right (hfound s e t hs.1 hstep)).trans (step_inOrder hs.1.1 hs.1.2 hs.2 hstep)
  have hserved : ∀ (s : ResumableStream) (e : ResumeEvent τ) t, s.core.Coherent ∧ s.Owes [] → s.OneRequest e →
      step maxWireVersion s e = some t → t.core.Coherent ∧ t.Owes [] :=
    fun s e t hs hone hstep => ⟨(step_closed hs.1 hstep).1, step_owes hs.1 hs.2 hone hstep⟩
  have hnew : (new emitter).core.Coherent ∧ (new emitter).Distinct := ⟨new_coherent emitter, new_distinct emitter⟩
  have horder := Run.meets_iff (step maxWireVersion) hexact ⟨hnew, fun d hd => (by cases hd)⟩ hrun
  constructor
  · rintro hmeets es₁ es₂ u rfl hu
    have howes := Run.exec_inv_meets _ hserved ⟨new_coherent emitter, new_owes emitter⟩ hmeets.left hu
    exact answeredInTurn_of_owes howes.2 (horder.1 hmeets es₁ es₂ u rfl hu).2
  · intro hanswered
    refine horder.2 fun es₁ es₂ u hes hu => ⟨?_, (hanswered es₁ es₂ u hes hu).inOrder⟩
    exact Run.exec_inv _ hfound hnew hu

/-- A `next` fails, the stream resumes and calls `next` again, which gets a change. -/
def nextResumed : List (ResumeEvent Nat) :=
  [.call .next, .answer 0 (.error connectionLost), .answer 0 (.ok none), .answer 0 (.ok none),
    .answer 0 (.ok (some ⟨some 1⟩))]

theorem nextResumed_answered :
    (Run.exec (step 13) (new false) nextResumed).map (fun s => s.answered.map Prod.fst) = some [0] ∧
    ∀ s, Run.exec (step 13) (new false) nextResumed = some s → s.AnsweredInTurn := by
  refine ⟨by decide, fun s hs => ?_⟩
  have hmeets : Run.Meets (step 13) OneRequest (new false) nextResumed := by
    refine .cons ?_ rfl (.cons ?_ rfl (.cons ?_ rfl (.cons ?_ rfl (.cons ?_ rfl trivial))))
    all_goals decide
  exact (requests_answered_in_turn_iff 13 false nextResumed s hs).1 hmeets nextResumed [] s
    (List.append_nil _).symm hs

/-- A `next` fails and `hasNext` is called while the stream resumes. -/
def calledMeanwhile : List (ResumeEvent Nat) :=
  [.call .next, .answer 0 (.error connectionLost), .call .hasNext, .answer 0 (.ok none), .answer 0 (.ok none)]

/-- Two calls of `next` overlap and both fail. -/
def failedTwice : List (ResumeEvent Nat) :=
  [.call .next, .call .next, .answer 0 (.error connectionLost), .answer 0 (.error connectionLost),
    .answer 0 (.ok none), .answer 0 (.ok none)]

/-- The request of `hasNext` is answered before that of `next`. Of two calls of `next` that fail the second is answered
twice, and the first, with nothing under way, never. -/
theorem requests_out_of_turn :
    (∃ s, Run.exec (step 13) (new false) calledMeanwhile = some s ∧
      s.drains.map (fun d => (d.queued, d.called.map Prod.fst)) =
        [([.next 0, .getCursor .hasNext 1], [.getCursor .hasNext 1, .next 0])] ∧ ¬ s.AnsweredInTurn) ∧
    ∃ s, Run.exec (step 13) (new false) failedTwice = some s ∧ s.calls = 2 ∧ s.answered.map Prod.fst = [1, 1] ∧
      s.flights = [] ∧ ¬ s.AnsweredInTurn := by
  constructor
  · have hrun : (Run.exec (step 13) (new false) calledMeanwhile).map
        (fun s => s.drains.map (fun d => (d.queued, d.called.map Prod.fst))) =
          some [([.next 0, .getCursor .hasNext 1], [.getCursor .hasNext 1, .next 0])] := by
      decide
    obtain ⟨s, hs, hdrains⟩ := Option.map_eq_some_iff.1 hrun
    refine ⟨s, hs, hdrains, fun hturn => ?_⟩
    obtain ⟨d, hd, hpair⟩ := List.mem_map.1 (hdrains ▸ List.mem_singleton_self _)
    have horder := hturn.inOrder d hd
    rw [Prod.mk.injEq] at hpair
    rw [hpair.1, hpair.2] at horder
    exact absurd horder (by decide)
  · have hrun : (Run.exec (step 13) (new false) failedTwice).map
        (fun s => (s.calls, s.answered.map Prod.fst, s.flights)) = some (2, [1, 1], []) := by
      decide
    obtain ⟨s, hs, hstate⟩ := Option.map_eq_some_iff.1 hrun
    simp only [Prod.mk.injEq] at hstate
    obtain ⟨hcalls, hanswered, hflights⟩ := hstate
    refine ⟨s, hs, hcalls, hanswered, hflights, fun hturn => ?_⟩
    have honce := hturn.once
    rw [hanswered] at honce
    exact absurd honce (by decide)

end ResumableStream

end MongoDriver.Cursor
