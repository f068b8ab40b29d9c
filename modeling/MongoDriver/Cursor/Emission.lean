/-
The resume token of a change stream that emits its changes. Between the cursor and the emission stands the Readable,
which may hold a change that was pulled already. The token cached with a change is that of the last batch that had one,
as soon as the cursor buffers nothing, and the changes that the Readable still holds are not counted. It is right when
no more changes are held behind the one emitted than came after the batch of the token.
-/
import MongoDriver.Base.Run
import MongoDriver.Cursor.CursorStream
import MongoDriver.Cursor.Resumption

namespace MongoDriver.Cursor

variable {δ τ : Type}

/-! ## The cut `next` -/

theorem startSession_id {env : CursorEnv δ τ} (c : AbstractCursor δ τ) : (startSession env c).id = c.id := by
  unfold startSession
  split <;> rfl

/-- A cursor that waits for a reply has nothing buffered; it is not yet open, or it is live. -/
theorem pull_request {env : CursorEnv δ τ} {c c' : AbstractCursor δ τ} (hpull : pull env c = (none, c')) :
    c.closed = false ∧ c.documents = [] ∧ (c.id = none ∧ c' = startSession env c ∨
      ∃ value, c.id = some (.decoded value) ∧ value ≠ 0 ∧ c' = c) := by
  unfold pull at hpull
  by_cases hclosed : c.closed = true
  · rw [if_pos hclosed] at hpull
    cases hpull
  · rw [if_neg hclosed] at hpull
    by_cases hdocs : (!c.documents.isEmpty) = true
    · rw [if_pos hdocs] at hpull
      cases hpull
    · rw [if_neg hdocs] at hpull
      refine ⟨by simpa using hclosed, by simpa using hdocs, ?_⟩
      cases hid : c.id with
      | none =>
        simp only [hid] at hpull
        cases hpull
        exact .inl ⟨rfl, rfl⟩
      | some id =>
        simp only [hid] at hpull
        by_cases hdead : cursorIsDead c = true
        · rw [if_pos hdead] at hpull
          cases hpull
        · rw [if_neg hdead] at hpull
          cases hpull
          cases id with
          | zero => simp [cursorIsDead, hid, CursorId.isZero] at hdead
          | decoded value => exact .inr ⟨value, rfl, by simpa [cursorIsDead, hid, CursorId.isZero] using hdead, rfl⟩

theorem next_pull (env : CursorEnv δ τ) (replies : Replies δ) (c : AbstractCursor δ τ) {result : Option (Item δ τ)}
    {c' : AbstractCursor δ τ} (hpull : pull env c = (some result, c')) :
    next env true replies c = some { result, cursor := c', replies } := by
  unfold pull at hpull
  unfold next
  by_cases hclosed : c.closed = true
  · rw [if_pos hclosed] at hpull ⊢
    cases hpull
    rfl
  · rw [if_neg hclosed] at hpull ⊢
    by_cases hdocs : (!c.documents.isEmpty) = true
    · rw [if_pos hdocs] at hpull ⊢
      cases hpull
      rfl
    · rw [if_neg hdocs] at hpull ⊢
      cases hid : c.id with
      | none => simp [hid] at hpull
      | some id =>
        simp only [hid] at hpull ⊢
        by_cases hdead : cursorIsDead c = true
        · rw [if_pos hdead] at hpull ⊢
          cases hpull
          rfl
        · rw [if_neg hdead] at hpull
          cases hpull

theorem holdBatch_id (c : AbstractCursor δ τ) (id : Int) (batch : List δ) :
    (holdBatch c id batch).id = some (.decoded id) := by
  unfold holdBatch
  cases c.id <;> rfl

theorem receive_eq (env : CursorEnv δ τ) (c : AbstractCursor δ τ) (id : Int) (batch : List δ) (replies : Replies δ) :
    receive env c id batch =
      if id = 0 then
        (some (finish env (holdBatch c id batch) none replies).result,
          (finish env (holdBatch c id batch) none replies).cursor)
      else pull env (holdBatch c id batch) := by
  have hdead : cursorIsDead (holdBatch c id batch) = decide (id = 0) := by
    simp [cursorIsDead, holdBatch_id, CursorId.isZero]
  unfold receive
  simp only [hdead, decide_eq_true_eq]
  rfl

/-- A cursor that asks is answered. -/
theorem next_answered (env : CursorEnv δ τ) {c c' : AbstractCursor δ τ} (hpull : pull env c = (none, c')) (id : Int)
    (batch : List δ) (replies : Replies δ) : next env true (.ok (.cursor id batch) :: replies) c =
      if id = 0 then some (finish env (holdBatch c' id batch) none replies)
      else next env true replies (holdBatch c' id batch) := by
  obtain ⟨hopen, hdocs, ⟨hid, rfl⟩ | ⟨value, hid, hne, rfl⟩⟩ := pull_request hpull
  · have hhold : holdBatch (startSession env c) id batch = receiveFirst (startSession env c) (.cursor id batch) := by
      unfold holdBatch
      rw [startSession_id, hid]
    rw [next_unopened true _ hid hopen hdocs, hhold]
  · have hhold : holdBatch c' id batch = { c' with documents := batch.map .document, id := some (.decoded id) } := by
      unfold holdBatch
      rw [hid]
    rw [next_live true _ hid hne hopen hdocs, hhold, Bool.not_true, Bool.and_false]
    rfl

/-- The internal `next` is the one that is given its replies one by one. -/
theorem next_eq_serve (env : CursorEnv δ τ) (h : History δ) : ∀ c : AbstractCursor δ τ,
    next env true h.replies c = (serve env h (pull env c)).map fun out =>
      { result := out.1, cursor := out.2.1, replies := History.replies out.2.2 } := by
  induction h with
  | nil =>
    intro c
    rcases hpull : pull env c with ⟨_ | result, c'⟩
    · obtain ⟨hopen, hdocs, ⟨hid, -⟩ | ⟨value, hid, hne, -⟩⟩ := pull_request hpull
      · simp [next.eq_def, hopen, hdocs, hid, History.replies, serve]
      · simp [next.eq_def, hopen, hdocs, hid, History.replies, serve, cursorIsDead, CursorId.isZero, hne]
    · rw [next_pull env _ c hpull, serve]
      rfl
  | cons reply rest ih =>
    intro c
    obtain ⟨id, batch⟩ := reply
    rcases hpull : pull env c with ⟨_ | result, c'⟩
    · have hanswer := next_answered env hpull id batch (History.replies rest)
      rw [serve, receive_eq env c' id batch (History.replies rest)]
      refine hanswer.trans ?_
      split
      · rw [serve]
        rfl
      · exact ih _
    · rw [next_pull env _ c hpull, serve]
      rfl

/-! ## What a read pulls -/

/-- What a read of a buffer comes to: the first change, or nothing, or a request. -/
structure Pulls (buffer : List (Change τ))
    (out : Option (Option (Item (Change τ) Empty)) × AbstractCursor (Change τ) Empty) (doc : Option (Change τ))
      (buffer' : List (Change τ)) : Prop where
  result : out.1 = some (doc.map .document) ∨ (out.1 = none ∧ out.2.asks = true ∧ doc = none)
  stage : Stage out.2 buffer'
  conserved : buffer = doc.toList ++ buffer'
  nothing : doc = none → buffer' = []

section Pull

variable {env : CursorEnv (Change τ) Empty} {c : AbstractCursor (Change τ) Empty} {buffer : List (Change τ)}

theorem pull_pulls (hmap : env.transform = none) (hs : Stage c buffer) :
    ∃ doc buffer', Pulls buffer (pull env c) doc buffer' := by
  cases buffer with
  | cons d ds =>
    have hpull : pull env c = (some (some (.document d)), { c with documents := ds.map .document }) := by
      unfold pull
      rw [if_neg (by simp [hs.open]), if_pos (by simp [hs.documents]), nextDocument_cons hmap hs.documents]
    rw [hpull]
    exact ⟨some d, ds, .inl rfl, hs.refill, rfl, nofun⟩
  | nil =>
    cases hs with
    | unopened hid hopen hdocs =>
      have hpull : pull env c = (none, startSession env c) := by simp [pull, hopen, hdocs, hid]
      rw [hpull]
      have hopen' : (startSession env c).closed = false := (startSession_closed c).trans hopen
      have hid' : (startSession env c).id = none := (startSession_id c).trans hid
      have hdocs' : (startSession env c).documents = [] := by
        unfold startSession
        split <;> exact hdocs
      refine ⟨none, [], .inr ⟨rfl, ?_, rfl⟩, .unopened hid' hopen' hdocs', rfl, fun _ => rfl⟩
      simp [AbstractCursor.asks, hopen', cursorIsDead, hid']
    | live hid hne hopen hdocs =>
      have hpull : pull env c = (none, c) := by simp [pull, hopen, hdocs, hid, cursorIsDead, CursorId.isZero, hne]
      rw [hpull]
      refine ⟨none, [], .inr ⟨rfl, ?_, rfl⟩, .live hid hne hopen hdocs, rfl, fun _ => rfl⟩
      simp [AbstractCursor.asks, hopen, cursorIsDead, hid, CursorId.isZero, hne]
    | dead hid hopen hdocs =>
      have hpull : pull env c = (some none, cleanupCursor env c none) := by
        simp [pull, hopen, hdocs, hid, cursorIsDead, CursorId.isZero]
      rw [hpull]
      exact ⟨none, [], .inl rfl, (cleanupCursor_dead env hid hopen hdocs).1.stage, rfl, fun _ => rfl⟩
    | closed hid hclosed hdocs =>
      have hpull : pull env c = (some none, c) := by simp [pull, hclosed]
      rw [hpull]
      exact ⟨none, [], .inl rfl, .closed hid hclosed hdocs, rfl, fun _ => rfl⟩

theorem receive_pulls (hmap : env.transform = none) (hasks : c.asks = true) (id : Int)
    (batch : List (Change τ)) : ∃ doc buffer', Pulls batch (receive env c id batch) doc buffer' := by
  have hid := holdBatch_id c id batch
  have hopen : (holdBatch c id batch).closed = false ∧ (holdBatch c id batch).documents = batch.map .document := by
    have hopen : c.closed = false := by
      simp only [AbstractCursor.asks, Bool.and_eq_true, Bool.not_eq_true'] at hasks
      exact hasks.1
    unfold holdBatch
    cases c.id <;> exact ⟨hopen, rfl⟩
  rw [receive_eq env c id batch []]
  by_cases hzero : id = 0
  · rw [if_pos hzero]
    rw [hzero] at hid hopen ⊢
    have hstage := (cleanupCursor_dead env hid hopen.1 hopen.2).1.stage
    unfold finish
    cases batch with
    | nil =>
      rw [nextDocument_nil hstage.documents]
      exact ⟨none, [], .inl rfl, hstage, rfl, fun _ => rfl⟩
    | cons d ds =>
      rw [nextDocument_cons hmap hstage.documents]
      exact ⟨some d, ds, .inl rfl, hstage.refill, rfl, fun h => absurd h (Option.some_ne_none d)⟩
  · rw [if_neg hzero]
    exact pull_pulls hmap (.live hid hzero hopen.1 hopen.2)

end Pull

/-! ## The place of the last token -/

/-- The changes that came after the last token. -/
def sinceToken (h : List (Batch τ)) : List (Change τ) :=
  h.foldl (fun since b => if b.postBatchResumeToken.isSome then [] else since ++ b.changes) []

theorem sinceToken_concat (h : List (Batch τ)) (b : Batch τ) :
    sinceToken (h ++ [b]) = if b.postBatchResumeToken.isSome then [] else sinceToken h ++ b.changes := by
  simp [sinceToken]

/-- The last token is that of a batch, and what came after it is the rest of the changes. -/
theorem latestToken_place {h : List (Batch τ)} {t : τ} (ht : latestToken h = some t) :
    ∃ pre b post, h = pre ++ b :: post ∧ b.postBatchResumeToken = some t ∧
      changes h = changes (pre ++ [b]) ++ sinceToken h := by
  induction h using List.reverseRecOn with
  | nil => cases ht
  | append_singleton h b ih =>
    rw [latestToken_concat] at ht
    rw [sinceToken_concat]
    cases hb : b.postBatchResumeToken with
    | some u =>
      rw [hb] at ht
      cases ht
      exact ⟨h, b, [], rfl, hb, (List.append_nil _).symm⟩
    | none =>
      rw [hb] at ht
      obtain ⟨pre, b', post, hh, hb', hplace⟩ := ih ht
      refine ⟨pre, b', post ++ [b], by rw [hh]; simp, hb', ?_⟩
      rw [changes_append, hplace]
      simp

/-! ## Runs -/

namespace Emitter

/-- The token is the `_id` of the change, or that of a batch up to whose last change all was emitted: to resume there
loses nothing that was not emitted. -/
def Covered (h : List (Batch τ)) (emitted : List (Change τ)) (change : Change τ) (token : Option τ) : Prop :=
  token = change.id ∨ ∃ pre b post t, h = pre ++ b :: post ∧ b.postBatchResumeToken = some t ∧ token = some t ∧
    changes (pre ++ [b]) <+: emitted

/-- When the step emits a change, its token covers no more than what was emitted. -/
def Emits (h : List (Batch τ)) (s : Emitter τ) (_ : EmitterEvent) (s' : Emitter τ) : Prop :=
  ∀ change, s'.emitted = s.emitted ++ [change] →
    ∃ token, s'.stream.resumeToken = some token ∧ Covered h s'.emitted change token

/-- The condition on a step that emits a change: the cursor buffers something, or there is no token of a batch, or no
more changes are held behind the one emitted than came after that token. -/
def Clear (s : Emitter τ) (e : EmitterEvent) : Prop :=
  e = .data → ∀ c change behind, s.stream.cursor = some c → s.readable.pushed = change :: behind → change.id ≠ none →
    c.bufferedCount ≠ 0 ∨ c.postBatchResumeToken = none ∨ behind.length ≤ (sinceToken s.received).length

/-- The cursor has read what was received; what was not emitted is held by the Readable and then by the cursor. -/
structure Holds (s : Emitter τ) (c : ChangeStreamCursor τ) (buffer : List (Change τ)) : Prop where
  stage : Stage c.cursor buffer
  conserved : changes s.received = s.emitted ++ s.readable.pushed ++ buffer
  token : c.postBatchResumeToken = latestToken s.received
  waiting : s.readable.waiting = true → buffer = [] ∧ c.cursor.asks = true

/-- What holds of a stream that emits, in any order of events. -/
structure Inv (h : List (Batch τ)) (s : Emitter τ) : Prop where
  history : h = s.received ++ s.batches
  closed : s.stream.closed = true → s.stream.cursor = none
  holds : ∀ c, s.stream.cursor = some c → ∃ buffer, s.Holds c buffer

section Runs

variable {t₀ : Option τ} {h : List (Batch τ)} {s s' : Emitter τ} {e : EmitterEvent} {c : ChangeStreamCursor τ}

theorem start_inv (options : ChangeStreamOptions τ) (deployment : Deployment) (h : List (Batch τ)) :
    (Emitter.start options deployment h).Inv h where
  history := rfl
  closed := nofun
  holds c hc := by
    cases hc
    exact ⟨[], .unopened rfl rfl rfl, rfl, rfl, nofun⟩

/-- What a read or a reply came to is pushed, or waited for. -/
theorem goOn_holds {out : Option (Option (Item (Change τ) Empty)) × AbstractCursor (Change τ) Empty}
    {buffer buffer' : List (Change τ)} {doc : Option (Change τ)} (hp : Pulls buffer out doc buffer')
    (hconserved : changes s.received = s.emitted ++ s.readable.pushed ++ buffer)
    (htoken : c.postBatchResumeToken = latestToken s.received) :
    (s.goOn c out).Holds { c with cursor := out.2 } buffer' := by
  obtain ⟨result, c'⟩ := out
  rcases hp.result with hresult | ⟨hresult, hasks, rfl⟩
  · obtain rfl : result = some (doc.map .document) := hresult
    cases doc with
    | none =>
      refine ⟨hp.stage, ?_, htoken, nofun⟩
      rw [hp.conserved] at hconserved
      exact hconserved
    | some d =>
      refine ⟨hp.stage, ?_, htoken, nofun⟩
      rw [hp.conserved] at hconserved
      refine hconserved.trans ?_
      simp [goOn, CursorStream.push]
  · obtain rfl : result = none := hresult
    refine ⟨hp.stage, ?_, htoken, fun _ => ⟨hp.nothing rfl, hasks⟩⟩
    rw [hp.conserved] at hconserved
    exact hconserved

theorem processBatch_frame (c : ChangeStreamCursor τ) (b : Batch τ) :
    (c.processBatch b).cursor = c.cursor ∧ (c.processBatch b).env = c.env := by
  unfold ChangeStreamCursor.processBatch
  cases b.postBatchResumeToken with
  | none => exact ⟨rfl, rfl⟩
  | some t => by_cases hb : b.changes.isEmpty = true <;> simp [hb, ChangeStreamCursor.env]

/-- The effect of a step on a stream with a cursor. -/
inductive Moves (s : Emitter τ) (c : ChangeStreamCursor τ) : EmitterEvent → Emitter τ → Prop
  /-- a read while another one is under way -/
  | idle : Moves s c .read s
  | read : Moves s c .read
      ({ s with readable := { s.readable with reading := true } }.goOn c (pull c.env c.cursor))
  | reply {b : Batch τ} {rest : List (Batch τ)} (waiting : s.readable.waiting = true)
    (batches : s.batches = b :: rest) :
      Moves s c .reply ({ s with batches := rest, received := s.received ++ [b] }.goOn (c.processBatch b)
        (receive c.env c.cursor b.cursorId b.changes))
  | emitted {change : Change τ} {behind : List (Change τ)} {id : τ} (pushed : s.readable.pushed = change :: behind)
      (token : change.id = some id) :
      Moves s c .data
        { s with
          readable := { s.readable with pushed := behind }
          stream := { s.stream with cursor := some (c.cacheResumeToken id) }
          emitted := s.emitted ++ [change] }
  /-- a change without an `_id` -/
  | closed {change : Change τ} {behind : List (Change τ)} (pushed : s.readable.pushed = change :: behind)
      (token : change.id = none) :
      Moves s c .data { s with readable := { s.readable with pushed := behind }, stream := s.stream.close }

theorem step_moves (hi : s.Inv h) (hstep : s.step e = some s') : ∃ c, s.stream.cursor = some c ∧ s.Moves c e s' := by
  unfold step at hstep
  rw [Option.bind_eq_bind, Option.bind_eq_some_iff] at hstep
  obtain ⟨c, hc, hstep⟩ := hstep
  refine ⟨c, hc, ?_⟩
  cases e with
  | read =>
    simp only at hstep
    split at hstep
    · cases hstep
    · split at hstep
      · cases hstep
        exact .idle
      · cases hstep
        exact .read
  | reply =>
    simp only at hstep
    split at hstep
    · cases hstep
    · rename_i hwaiting
      split at hstep
      · cases hstep
      · rename_i b rest hbatches
        cases hstep
        rw [(processBatch_frame c b).1, (processBatch_frame c b).2]
        exact .reply (by simpa using hwaiting) hbatches
  | data =>
    simp only at hstep
    split at hstep
    · cases hstep
    · rename_i change behind hpushed
      have hopen := open_of_cursor hi.closed hc
      cases hid : change.id with
      | none =>
        simp only [ChangeStream.processNewChange, hopen, hid] at hstep
        cases hstep
        exact .closed hpushed hid
      | some id =>
        simp only [processNewChange_ok hopen hid, hc, Option.map_some] at hstep
        cases hstep
        exact .emitted hpushed hid

theorem inv_of_holds {buffer : List (Change τ)} (hh : h = s.received ++ s.batches) (hopen : s.stream.closed = false)
    (hc : s.stream.cursor = some c) (hs : s.Holds c buffer) : s.Inv h where
  history := hh
  closed hclosed := by rw [hopen] at hclosed; cases hclosed
  holds c' hc' := by
    rw [hc] at hc'
    cases hc'
    exact ⟨buffer, hs⟩

theorem goOn_frame (s : Emitter τ) (c : ChangeStreamCursor τ)
    (out : Option (Option (Item (Change τ) Empty)) × AbstractCursor (Change τ) Empty) :
    (s.goOn c out).received = s.received ∧ (s.goOn c out).batches = s.batches ∧ (s.goOn c out).emitted = s.emitted ∧
      (s.goOn c out).stream = { s.stream with cursor := some { c with cursor := out.2 } } := by
  unfold goOn
  cases out.1 <;> exact ⟨rfl, rfl, rfl, rfl⟩

theorem goOn_inv {out : Option (Option (Item (Change τ) Empty)) × AbstractCursor (Change τ) Empty}
    {buffer buffer' : List (Change τ)} {doc : Option (Change τ)} (hp : Pulls buffer out doc buffer')
    (hh : h = s.received ++ s.batches) (hopen : s.stream.closed = false)
    (hconserved : changes s.received = s.emitted ++ s.readable.pushed ++ buffer)
    (htoken : c.postBatchResumeToken = latestToken s.received) : (s.goOn c out).Inv h := by
  obtain ⟨hreceived, hbatches, -, hstream⟩ := goOn_frame s c out
  refine inv_of_holds ?_ ?_ ?_ (goOn_holds hp hconserved htoken)
  · rw [hreceived, hbatches]; exact hh
  · rw [hstream]; exact hopen
  · rw [hstream]

/-- In whatever order the events come, nothing is lost between the cursor and the emission. -/
theorem step_inv (hi : s.Inv h) (hstep : s.step e = some s') : s'.Inv h := by
  obtain ⟨c, hc, hmove⟩ := step_moves hi hstep
  obtain ⟨buffer, hs⟩ := hi.holds c hc
  have hopen := open_of_cursor hi.closed hc
  cases hmove with
  | idle => exact hi
  | read =>
    obtain ⟨doc, buffer', hp⟩ : ∃ doc buffer', Pulls buffer (pull c.env c.cursor) doc buffer' := pull_pulls rfl hs.stage
    exact goOn_inv hp hi.history hopen hs.conserved hs.token
  | @reply b rest hwaiting hbatches =>
    obtain ⟨hnil, hasks⟩ := hs.waiting hwaiting
    obtain ⟨doc, buffer', hp⟩ : ∃ doc buffer',
      Pulls b.changes (receive c.env c.cursor b.cursorId b.changes) doc buffer' :=
      receive_pulls rfl hasks b.cursorId b.changes
    refine goOn_inv hp ?_ hopen ?_ ?_
    · rw [hi.history, hbatches, List.append_assoc]; rfl
    · have hread := hs.conserved
      rw [hnil, List.append_nil] at hread
      rw [changes_append, hread]
      simp
    · rw [processBatch_token, latestToken_concat, hs.token]
  | @emitted change behind id hpushed hid =>
    obtain ⟨hcursor, htoken⟩ := cacheResumeToken_frame c id
    have hstage : Stage (c.cacheResumeToken id).cursor buffer := by rw [hcursor]; exact hs.stage
    refine inv_of_holds hi.history hopen rfl ⟨hstage, ?_, ?_, ?_⟩
    · rw [hs.conserved, hpushed]; simp
    · rw [htoken]; exact hs.token
    · rw [hcursor]; exact hs.waiting
  | closed =>
    refine ⟨hi.history, fun _ => rfl, fun c hc => ?_⟩
    cases hc

/-- The place of the token against the place of the change that is emitted, when the cursor buffers nothing. -/
theorem place_of_token {change : Change τ} {behind : List (Change τ)} {t : τ} (hi : s.Inv h) (hs : s.Holds c [])
    (hpushed : s.readable.pushed = change :: behind) (ht : c.postBatchResumeToken = some t) :
    ∃ pre b post, h = pre ++ b :: post ∧ b.postBatchResumeToken = some t ∧
      changes (pre ++ [b]) ++ sinceToken s.received = s.emitted ++ [change] ++ behind := by
  rw [hs.token] at ht
  obtain ⟨pre, b, post, hreceived, hb, hplace⟩ := latestToken_place ht
  refine ⟨pre, b, post ++ s.batches, ?_, hb, ?_⟩
  · rw [hi.history, hreceived, List.append_assoc]; rfl
  · rw [← hplace, hs.conserved, hpushed]
    simp

/-- What a step does that emits a change. -/
theorem emits_data {change : Change τ} {behind : List (Change τ)} {id : τ} (hc : s.stream.cursor = some c)
    (hpushed : s.readable.pushed = change :: behind) (hid : change.id = some id) {t : Emitter τ}
    (ht : t = { s with
      readable := { s.readable with pushed := behind }
      stream := { s.stream with cursor := some (c.cacheResumeToken id) }
      emitted := s.emitted ++ [change] }) :
    (s.Emits h .data t ↔ Covered h (s.emitted ++ [change]) change (c.cacheResumeToken id).resumeToken) ∧
      (s.Clear .data ↔ c.bufferedCount ≠ 0 ∨ c.postBatchResumeToken = none ∨
        behind.length ≤ (sinceToken s.received).length) := by
  subst ht
  constructor
  · constructor
    · intro he
      obtain ⟨token, htoken, hcov⟩ := he change rfl
      cases htoken
      exact hcov
    · intro hcov change' hchange
      obtain rfl : change = change' := by simpa using hchange
      exact ⟨_, rfl, hcov⟩
  · constructor
    · intro hclear
      exact hclear rfl c change behind hc hpushed (by simp [hid])
    · intro hclear _ c' change' behind' hc' hpushed' _
      rw [hc] at hc'
      rw [hpushed] at hpushed'
      cases hc'
      cases hpushed'
      exact hclear

/-- A change that is emitted on the condition has a token that covers no more than what was emitted. -/
theorem covered_of_clear {buffer : List (Change τ)} {change : Change τ} {behind : List (Change τ)}
    {id : τ} (hi : s.Inv h)
    (hs : s.Holds c buffer) (hpushed : s.readable.pushed = change :: behind) (hid : change.id = some id)
    (hclear : c.bufferedCount ≠ 0 ∨ c.postBatchResumeToken = none ∨ behind.length ≤ (sinceToken s.received).length) :
    Covered h (s.emitted ++ [change]) change (c.cacheResumeToken id).resumeToken := by
  have hcount := bufferedCount_of_stage hs.stage
  rw [cacheResumeToken_resumeToken]
  cases buffer with
  | cons => exact .inl (by simp [hcount, hid])
  | nil =>
    cases ht : c.postBatchResumeToken with
    | none => exact .inl (by simp [hid])
    | some t =>
      obtain hb | hb | hle := hclear
      · exact absurd hcount hb
      · rw [ht] at hb; cases hb
      · obtain ⟨pre, b, post, hh, hb, hplace⟩ := place_of_token hi hs hpushed ht
        refine .inr ⟨pre, b, post, t, hh, hb, by simp [hcount], ?_⟩
        have hpre : changes (pre ++ [b]) <+: s.emitted ++ [change] ++ behind := ⟨_, hplace⟩
        have hlen := congrArg List.length hplace
        rw [List.length_append, List.length_append] at hlen
        exact List.prefix_of_prefix_length_le hpre (List.prefix_append _ _) (by omega)

/-- When a token stands for one place, the condition is met by every change that has such a token. -/
theorem clear_of_covered {buffer : List (Change τ)} {change : Change τ} {behind : List (Change τ)} {id : τ}
    (hone : OnePlace t₀ h) (hi : s.Inv h) (hs : s.Holds c buffer) (hpushed : s.readable.pushed = change :: behind)
    (hcov : Covered h (s.emitted ++ [change]) change (c.cacheResumeToken id).resumeToken) :
    c.bufferedCount ≠ 0 ∨ c.postBatchResumeToken = none ∨ behind.length ≤ (sinceToken s.received).length := by
  have hcount := bufferedCount_of_stage hs.stage
  cases buffer with
  | cons => exact .inl (by simp [hcount])
  | nil =>
    cases ht : c.postBatchResumeToken with
    | none => exact .inr (.inl rfl)
    | some t =>
      refine .inr (.inr ?_)
      rw [cacheResumeToken_resumeToken, hcount, ht] at hcov
      obtain ⟨pre, b, post, hh, hb, hplace⟩ := place_of_token hi hs hpushed ht
      have hlen := congrArg List.length hplace
      rw [List.length_append, List.length_append] at hlen
      have hpoint : PointsAt t₀ h (some t) (changes (pre ++ [b])).length := .batch hh hb
      rcases hcov with hid | ⟨pre', b', post', t', hh', hb', htoken, hpre⟩
      · have hchanges : changes h = s.emitted ++ change :: (behind ++ changes s.batches) := by
          rw [hi.history, changes_append, hs.conserved, hpushed]
          simp
        have hplace' := hone _ _ _ hpoint (.change hchanges hid.symm)
        rw [List.length_append, List.length_singleton] at hlen
        omega
      · cases htoken
        have hplace' := hone _ _ _ hpoint (.batch hh' hb')
        have hle := hpre.length_le
        omega

/-- A step from a good state emits nothing that is not covered when it meets the condition. -/
theorem emits_of_clear (hi : s.Inv h) (hclear : s.Clear e) (hstep : s.step e = some s') : s.Emits h e s' := by
  obtain ⟨c, hc, hmove⟩ := step_moves hi hstep
  obtain ⟨buffer, hs⟩ := hi.holds c hc
  have hnothing : s'.emitted = s.emitted → s.Emits h e s' := by
    intro hsame change hchange
    rw [hsame] at hchange
    exact absurd hchange (by simp)
  cases hmove with
  | idle => exact hnothing rfl
  | read => exact hnothing (goOn_frame _ _ _).2.2.1
  | reply => exact hnothing (goOn_frame _ _ _).2.2.1
  | closed => exact hnothing rfl
  | emitted hpushed hid =>
    obtain ⟨hemits, hclear'⟩ := emits_data hc hpushed hid rfl
    exact hemits.2 (covered_of_clear hi hs hpushed hid (hclear'.1 hclear))

theorem clear_of_emits (hone : OnePlace t₀ h) (hi : s.Inv h) (hstep : s.step e = some s') (hemits : s.Emits h e s') :
    s.Clear e := by
  obtain ⟨c, hc, hmove⟩ := step_moves hi hstep
  obtain ⟨buffer, hs⟩ := hi.holds c hc
  cases hmove with
  | idle => nofun
  | read => nofun
  | reply => nofun
  | @closed change behind hpushed hid =>
    intro _ c' change' behind' _ hpushed' hid'
    rw [hpushed] at hpushed'
    cases hpushed'
    exact absurd hid hid'
  | emitted hpushed hid =>
    obtain ⟨hemits', hclear⟩ := emits_data (h := h) hc hpushed hid rfl
    exact hclear.2 (clear_of_covered hone hi hs hpushed (hemits'.1 hemits))

end Runs

end Emitter

/-- Over every history of batches and every order of reads, replies and 'data': a change is emitted with its `_id` as
the token, or with that of a batch up to whose end all was emitted, when the condition holds of each step that emits
one; and only then, when a token stands for one place in the history. -/
theorem resumeToken_emitter_iff (options : ChangeStreamOptions τ) (deployment : Deployment) (h : List (Batch τ))
    (events : List EmitterEvent) (s : Emitter τ)
    (hrun : Run.exec Emitter.step (Emitter.start options deployment h) events = some s) :
    (Run.Meets Emitter.step Emitter.Clear (Emitter.start options deployment h) events →
      ∀ es₁ e es₂ u v, events = es₁ ++ e :: es₂ →
        Run.exec Emitter.step (Emitter.start options deployment h) es₁ = some u → u.step e = some v → u.Emits h e v) ∧
    (OnePlace options.token h →
      (∀ es₁ e es₂ u v, events = es₁ ++ e :: es₂ →
        Run.exec Emitter.step (Emitter.start options deployment h) es₁ = some u → u.step e = some v → u.Emits h e v) →
      Run.Meets Emitter.step Emitter.Clear (Emitter.start options deployment h) events) := by
  have hstart := Emitter.start_inv options deployment h
  have hinv : ∀ (s : Emitter τ) (e : EmitterEvent) (s' : Emitter τ), s.Inv h → s.step e = some s' → s'.Inv h :=
    fun _ _ _ => Emitter.step_inv
  constructor
  · rintro hm es₁ e es₂ u v rfl hu hv
    exact Emitter.emits_of_clear (Run.exec_inv Emitter.step hinv hstart hu) (hm.holds hu) hv
  · intro hone hemits
    have hexact : ∀ (s : Emitter τ) (e : EmitterEvent) (s' : Emitter τ), s.Inv h → s.step e = some s' →
        (s.Clear e ↔ s.Emits h e s') := fun s e s' hi hstep =>
      ⟨fun hclear => Emitter.emits_of_clear hi hclear hstep, Emitter.clear_of_emits hone hi hstep⟩
    exact (Run.meets_iff_steps_inv Emitter.step hinv hexact hstart hrun).2 hemits

/-- Nothing is held behind the one change of the Readable. -/
theorem Emitter.clear_of_one {s : Emitter τ} {change : Change τ} (e : EmitterEvent)
    (hpushed : s.readable.pushed = [change]) : s.Clear e := by
  intro _ c change' behind _ hpushed' _
  rw [hpushed] at hpushed'
  cases hpushed'
  exact .inr (.inr (Nat.zero_le _))

def oneChange : List (Batch Nat) := [⟨7, [⟨some 1⟩], some 9⟩]

/-- A batch of one change, emitted as it comes, with the token of its batch. -/
theorem oneChange_emits :
    (Run.exec Emitter.step (Emitter.start {} modernServer oneChange) [.read, .reply, .data]).map
      (fun s => (s.emitted, s.stream.resumeToken)) = some ([⟨some 1⟩], some (some 9)) ∧
    ∀ es₁ e es₂ u v, [.read, .reply, .data] = es₁ ++ e :: es₂ →
      Run.exec Emitter.step (Emitter.start {} modernServer oneChange) es₁ = some u → u.step e = some v →
        u.Emits oneChange e v := by
  have hrun : (Run.exec Emitter.step (Emitter.start {} modernServer oneChange) [.read, .reply, .data]).map
      (fun s => (s.emitted, s.stream.resumeToken)) = some ([⟨some 1⟩], some (some 9)) := by
    decide
  have hheld : (Run.exec Emitter.step (Emitter.start {} modernServer oneChange) [.read, .reply]).map
      (fun s => s.readable.pushed) = some [⟨some 1⟩] := by
    decide
  have hmeets : Run.Meets Emitter.step Emitter.Clear (Emitter.start {} modernServer oneChange)
    [.read, .reply, .data] := by
    refine ⟨nofun, fun t ht => ⟨nofun, fun u hu => ⟨?_, fun _ _ => trivial⟩⟩⟩
    have hexec : Run.exec Emitter.step (Emitter.start {} modernServer oneChange) [.read, .reply] = some u :=
      (Run.exec_cons Emitter.step).2 ⟨t, ht, (Run.exec_cons Emitter.step).2 ⟨u, hu, rfl⟩⟩
    rw [hexec, Option.map_some, Option.some.injEq] at hheld
    exact Emitter.clear_of_one .data hheld
  obtain ⟨s, hs, -⟩ := Option.map_eq_some_iff.1 hrun
  exact ⟨hrun, (resumeToken_emitter_iff {} modernServer oneChange [.read, .reply, .data] s hs).1 hmeets⟩

def twoChanges : List (Batch Nat) := [⟨7, [⟨some 1⟩, ⟨some 2⟩], some 9⟩]

/-- The Readable holds two changes of a batch when it emits the first: the token is that of the batch, and a stream that
resumes there loses the second change. -/
theorem pulled_change_lost :
    ∃ u v, Run.exec Emitter.step (Emitter.start {} modernServer twoChanges) [.read, .reply, .read] = some u ∧
      u.step .data = some v ∧ u.emitted = [] ∧ v.emitted = [⟨some 1⟩] ∧ v.stream.resumeToken = some (some 9) ∧
      ¬ u.Emits twoChanges .data v := by
  have hbefore : (Run.exec Emitter.step (Emitter.start {} modernServer twoChanges) [.read, .reply, .read]).map
      (fun s => s.emitted) = some [] := by
    decide
  have hrun : (Run.exec Emitter.step (Emitter.start {} modernServer twoChanges) ([.read, .reply, .read] ++ [.data])).map
      (fun s => (s.emitted, s.stream.resumeToken)) = some ([⟨some 1⟩], some (some 9)) := by
    decide
  obtain ⟨v, hv, hafter⟩ := Option.map_eq_some_iff.1 hrun
  obtain ⟨u, hu, hv⟩ := (Run.exec_append Emitter.step).1 hv
  obtain ⟨v', hv', hend⟩ := (Run.exec_cons Emitter.step).1 hv
  cases hend
  rw [hu, Option.map_some, Option.some.injEq] at hbefore
  rw [Prod.mk.injEq] at hafter
  refine ⟨u, v, hu, hv', hbefore, hafter.1, hafter.2, fun hemits => ?_⟩
  obtain ⟨token, htoken, hcov⟩ := hemits ⟨some 1⟩ (by rw [hafter.1, hbefore]; rfl)
  rw [hafter.2] at htoken
  cases htoken
  rw [hafter.1] at hcov
  rcases hcov with hid | ⟨pre, b, post, t, hh, hb, ht, hpre⟩
  · cases hid
  · -- the one batch has two changes
    have hall : pre = [] ∧ b :: post = twoChanges := by
      cases pre with
      | nil => exact ⟨rfl, hh.symm⟩
      | cons x pre => exact absurd (congrArg List.length hh) (by simp [twoChanges])
    obtain ⟨rfl, hall⟩ := hall
    obtain ⟨rfl, -⟩ := List.cons.inj hall
    exact absurd hpre.length_le (by decide)

end MongoDriver.Cursor
