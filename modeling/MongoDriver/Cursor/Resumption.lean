/-
The resume token of a change stream that is read as an iterator. The token is right when it stands for the
place after the changes that were delivered. Batches arrive only at an empty buffer, so that the token of an
empty batch is right; the token cached with a change is that of the last batch that had one, which is right
when that is the batch of the change. `tryNext` caches nothing, and what it delivers leaves the token behind.
-/
import MongoDriver.Base.Run
import MongoDriver.Cursor.ChangeBatches

namespace MongoDriver.Cursor

variable {τ : Type}

/-! ## Tokens -/

section Tokens

variable {t₀ : Option τ} {h : List (Batch τ)} {c : ChangeStreamCursor τ} {read took rest : List (Batch τ)}
  {delivered buffer : List (Change τ)}

theorem processBatch_token (c : ChangeStreamCursor τ) (b : Batch τ) :
    (c.processBatch b).postBatchResumeToken = (b.postBatchResumeToken <|> c.postBatchResumeToken) := by
  unfold ChangeStreamCursor.processBatch
  cases b.postBatchResumeToken with
  | none => rfl
  | some t => by_cases hb : b.changes.isEmpty <;> simp [hb]

/-- The batches leave the token of the last one that had one. -/
theorem processBatches_token : ∀ {took : List (Batch τ)} {c : ChangeStreamCursor τ} {read : List (Batch τ)},
    c.postBatchResumeToken = latestToken read →
      (took.foldl ChangeStreamCursor.processBatch c).postBatchResumeToken = latestToken (read ++ took)
  | [], c, read, hc => by rw [List.append_nil]; exact hc
  | b :: took, c, read, hc => by
    have hb : (c.processBatch b).postBatchResumeToken = latestToken (read ++ [b]) := by
      rw [processBatch_token, latestToken_concat, hc]
    rw [List.foldl_cons, processBatches_token hb, List.append_assoc]
    rfl

/-- A batch that arrives after everything was delivered leaves the token right. -/
theorem processBatch_points {b : Batch τ} (hh : h = read ++ b :: rest)
    (hc : PointsAt t₀ h c.resumeToken (changes read).length) :
    PointsAt t₀ h (c.processBatch b).resumeToken (changes read).length := by
  unfold ChangeStreamCursor.processBatch
  cases ht : b.postBatchResumeToken with
  | none => exact hc
  | some t =>
    by_cases hb : b.changes.isEmpty = true
    · have hplace : (changes (read ++ [b])).length = (changes read).length := by
        rw [List.isEmpty_iff] at hb
        simp [hb]
      simp only [hb, if_true]
      rw [← hplace]
      exact .batch hh ht
    · simp only [hb]
      exact hc

/-- So do the batches of a call, of which only the last has changes. -/
theorem processBatches_points : ∀ {took : List (Batch τ)} {c : ChangeStreamCursor τ} {read : List (Batch τ)},
    h = read ++ took ++ rest → changes took.dropLast = [] → PointsAt t₀ h c.resumeToken (changes read).length →
      PointsAt t₀ h (took.foldl ChangeStreamCursor.processBatch c).resumeToken (changes read).length
  | [], _, _, _, _, hc => hc
  | [b], _, _, hh, _, hc => processBatch_points (by simpa using hh) hc
  | b :: b' :: took, c, read, hh, hearly, hc => by
    rw [List.dropLast_cons_cons, changes_cons, List.append_eq_nil_iff] at hearly
    have hb := processBatch_points (by simpa using hh) hc
    have hplace : (changes (read ++ [b])).length = (changes read).length := by simp [hearly.1]
    rw [← hplace] at hb ⊢
    rw [List.foldl_cons]
    exact processBatches_points (by simpa using hh) hearly.2 hb

/-- The cursor of a stream has read `read` of the history, and has delivered all of it but the buffer. -/
structure Tracks (h : List (Batch τ)) (c : ChangeStreamCursor τ) (delivered buffer : List (Change τ))
    (read rest : List (Batch τ)) : Prop where
  history : h = read ++ rest
  stage : Stage c.cursor buffer
  conserved : changes read = delivered ++ buffer
  token : c.postBatchResumeToken = latestToken read
  last : buffer ≠ [] → ∃ pre b, read = pre ++ [b] ∧ buffer <:+ b.changes

/-- The batch of the change that ends the first `n`, when that is its last, has a token, or none before it had. -/
def Fresh (h : List (Batch τ)) (n : Nat) : Prop :=
  ∀ pre b post, h = pre ++ b :: post → b.changes ≠ [] → (changes (pre ++ [b])).length = n →
    b.postBatchResumeToken = none → ∀ b' ∈ pre, b'.postBatchResumeToken = none

/-- What a call of the cursor does: what it hands out is delivered and comes, with what it then buffers, from the batch
that was read last; the token is right for what was delivered before. -/
structure Hands (t₀ : Option τ) (h : List (Batch τ)) (m : Method) (c : ChangeStreamCursor τ)
    (delivered : List (Change τ)) (rest : List (Batch τ)) (answer : Answer (Change τ) Empty) (c' : ChangeStreamCursor τ)
    (rest' : List (Batch τ)) (buffer' : List (Change τ)) (read' : List (Batch τ)) : Prop where
  tracks : Tracks h c' (delivered ++ answer.changes) buffer' read' rest'
  last : answer.changes ++ buffer' ≠ [] → ∃ pre b, read' = pre ++ [b] ∧ answer.changes ++ buffer' <:+ b.changes
  points : PointsAt t₀ h c.resumeToken delivered.length → PointsAt t₀ h c'.resumeToken delivered.length
  error : ∀ e, answer = .error e → e = cursorExhausted
  hasNext : m = .hasNext → answer.changes = []
  next : m = .next → answer.changes = (upcoming c.cursor rest).head?.toList
  tryNext : m = .tryNext → (answer.changes = [] ↔ Idle c.cursor rest)

theorem Tracks.call {m : Method} {answer : Answer (Change τ) Empty} {c' : ChangeStreamCursor τ} {rest' : List (Batch τ)}
    (t₀ : Option τ) (ht : Tracks h c delivered buffer read rest) (hcall : c.call rest m = some (answer, c', rest')) :
    ∃ buffer' read', Hands t₀ h m c delivered rest answer c' rest' buffer' read' := by
  unfold ChangeStreamCursor.call at hcall
  rw [Option.bind_eq_bind, Option.bind_eq_some_iff] at hcall
  obtain ⟨⟨answer', r⟩, hr, hcall⟩ := hcall
  obtain ⟨buffer', took, rest', hs⟩ := call_calls rfl ht.stage hr
  have htaken : rest.length - r.replies.length = took.length := by
    rw [hs.replies, hs.split, List.length_append, List.length_map, Nat.add_sub_cancel]
  simp only [htaken] at hcall
  rw [hs.split, List.take_left, List.drop_left] at hcall
  cases hcall
  have hh : h = read ++ took ++ rest' := by rw [ht.history, hs.split, List.append_assoc]
  -- what is returned and buffered comes from the batch that was read last
  have hlast : answer.changes ++ buffer' ≠ [] →
      ∃ pre b, read ++ took = pre ++ [b] ∧ answer.changes ++ buffer' <:+ b.changes := by
    intro hne
    rw [← hs.conserved] at hne ⊢
    rcases List.eq_nil_or_concat took with rfl | ⟨took', b, rfl⟩
    · rw [changes_nil, List.append_nil] at hne ⊢
      rw [List.append_nil]
      exact ht.last hne
    · have hbuf : buffer = [] := by
        by_contra hb
        have := hs.buffered hb
        simp at this
      have hearly := hs.early
      rw [List.concat_eq_append, List.dropLast_concat] at hearly
      refine ⟨read ++ took', b, by simp, ?_⟩
      simp [hbuf, hearly]
  refine ⟨buffer', read ++ took, ⟨hh, hs.stage, ?_, processBatches_token ht.token, ?_⟩, hlast, ?_, hs.error, hs.hasNext,
    hs.next, hs.tryNext⟩
  · rw [changes_append, ht.conserved, List.append_assoc, List.append_assoc, hs.conserved]
  · intro hne
    obtain ⟨pre, b, hread, hsuf⟩ := hlast (by simp [hne])
    exact ⟨pre, b, hread, (List.suffix_append _ _).trans hsuf⟩
  · intro hp
    cases buffer with
    | cons d ds => rw [hs.buffered (List.cons_ne_nil d ds)]; exact hp
    | nil =>
      have hread : changes read = delivered := by rw [ht.conserved, List.append_nil]
      rw [← hread] at hp ⊢
      exact processBatches_points hh hs.early hp

/-- Two batches with changes between which no change ends are one. -/
theorem boundary_unique {pre pre' post post' : List (Batch τ)} {b b' : Batch τ}
    (hh : pre ++ b :: post = pre' ++ b' :: post') (hne : b'.changes ≠ [])
      (hlt : (changes pre).length < (changes (pre' ++ [b'])).length)
    (hle : (changes (pre' ++ [b'])).length ≤ (changes (pre ++ [b])).length) : pre' = pre ∧ b' = b := by
  have hpos : 0 < b'.changes.length := List.length_pos_iff.2 hne
  rcases List.append_eq_append_iff.1 hh with ⟨a, hpre, hb⟩ | ⟨a, hpre, hb⟩
  · cases a with
    | nil => exact ⟨by simpa using hpre, ((List.cons.inj hb).1).symm⟩
    | cons x a =>
      obtain ⟨rfl, -⟩ := List.cons.inj hb
      subst hpre
      simp only [changes_append, changes_cons, changes_nil, List.length_append, List.append_nil] at hle
      omega
  · cases a with
    | nil => exact ⟨by simpa using hpre.symm, (List.cons.inj hb).1⟩
    | cons x a =>
      obtain ⟨rfl, -⟩ := List.cons.inj hb
      subst hpre
      simp only [changes_append, changes_cons, changes_nil, List.length_append, List.append_nil] at hlt
      omega

theorem cacheResumeToken_resumeToken (c : ChangeStreamCursor τ) (t : τ) : (c.cacheResumeToken t).resumeToken =
    if c.bufferedCount = 0 then (c.postBatchResumeToken <|> some t) else some t := by
  unfold ChangeStreamCursor.cacheResumeToken
  by_cases hb : c.bufferedCount = 0 <;> cases c.postBatchResumeToken <;> simp [hb]

theorem cacheResumeToken_frame (c : ChangeStreamCursor τ) (id : τ) : (c.cacheResumeToken id).cursor = c.cursor ∧
    (c.cacheResumeToken id).postBatchResumeToken = c.postBatchResumeToken := by
  unfold ChangeStreamCursor.cacheResumeToken
  split <;> exact ⟨rfl, rfl⟩

theorem bufferedCount_of_stage (hs : Stage c.cursor buffer) : c.bufferedCount = buffer.length := by
  rw [ChangeStreamCursor.bufferedCount, hs.documents, List.length_map]

section Cache

variable {d : Change τ} {id : τ} {pre : List (Batch τ)} {b : Batch τ}

/-- The token cached with a change is right when the batch of the change is fresh. -/
theorem cacheResumeToken_points (t₀ : Option τ) (ht : Tracks h c (delivered ++ [d]) buffer (pre ++ [b]) rest)
    (hsuf : d :: buffer <:+ b.changes) (hid : d.id = some id) (hfresh : Fresh h (delivered.length + 1)) :
    PointsAt t₀ h (c.cacheResumeToken id).resumeToken (delivered.length + 1) := by
  have hchange : PointsAt t₀ h (some id) (delivered.length + 1) := by
    have hh : changes h = delivered ++ d :: (buffer ++ changes rest) := by
      rw [ht.history, changes_append, ht.conserved]
      simp
    exact .change hh hid
  rw [cacheResumeToken_resumeToken, bufferedCount_of_stage ht.stage, ht.token, latestToken_concat]
  cases buffer with
  | cons => exact hchange
  | nil =>
    have hh : h = pre ++ b :: rest := by rw [ht.history, List.append_assoc]; rfl
    have hplace : (changes (pre ++ [b])).length = delivered.length + 1 := by rw [ht.conserved]; simp
    cases hb : b.postBatchResumeToken with
    | some t =>
      rw [← hplace]
      exact .batch hh hb
    | none =>
      cases hpre : latestToken pre with
      | none => exact hchange
      | some t =>
        obtain ⟨pre', b', post, rfl, hb', -⟩ := latestToken_some hpre
        have hne : b.changes ≠ [] := fun he => by rw [he] at hsuf; exact absurd (List.eq_nil_of_suffix_nil hsuf) nofun
        have hnone := hfresh _ b rest hh hne hplace hb b' (by simp)
        rw [hb'] at hnone
        cases hnone

/-- It is right only then when a token stands for one place. -/
theorem fresh_of_points (hone : OnePlace t₀ h) (ht : Tracks h c (delivered ++ [d]) buffer (pre ++ [b]) rest)
    (hsuf : d :: buffer <:+ b.changes)
    (hp : PointsAt t₀ h (c.cacheResumeToken id).resumeToken (delivered.length + 1)) :
      Fresh h (delivered.length + 1) := by
  intro pre' b' post' hh' hne' hplace' hnone' x hx
  have hh : h = pre ++ b :: rest := by rw [ht.history, List.append_assoc]; rfl
  have hlen : (changes (pre ++ [b])).length = delivered.length + 1 + buffer.length := by
    rw [ht.conserved, List.length_append, List.length_append]
    rfl
  have hpre : (changes pre).length ≤ delivered.length := by
    have hle := hsuf.length_le
    simp only [changes_append, changes_cons, changes_nil, List.append_nil, List.length_append,
      List.length_cons] at hlen hle
    omega
  obtain ⟨rfl, rfl⟩ := boundary_unique (hh.symm.trans hh') hne' (by omega) (by omega)
  have hbuf : buffer = [] := List.length_eq_zero_iff.1 (by omega)
  rw [cacheResumeToken_resumeToken, bufferedCount_of_stage ht.stage, hbuf, ht.token, latestToken_concat, hnone'] at hp
  cases hlast : latestToken pre' with
  | none => exact latestToken_none hlast x hx
  | some t =>
    -- the token of an earlier batch stands for an earlier place
    obtain ⟨pre, b, post, rfl, hb, -⟩ := latestToken_some hlast
    rw [hlast] at hp
    have hsplit : h = pre ++ b :: (post ++ b' :: rest) := by rw [hh, List.append_assoc]; rfl
    have hplace := hone _ _ _ hp (.batch hsplit hb)
    simp only [changes_append, changes_cons, changes_nil, List.append_nil, List.length_append] at hplace hpre
    omega

end Cache

end Tokens

/-! ## Runs -/

/-- A change stream that is read, with the batches to come and the changes that were delivered. -/
structure Reader (τ : Type) where
  stream : ChangeStream τ
  batches : List (Batch τ)
  delivered : List (Change τ) := []

/-- A call, one after the other. -/
def Reader.step (s : Reader τ) (m : Method) : Option (Reader τ) := do
  let called ← s.stream.call s.batches m
  some ⟨called.stream, called.batches, s.delivered ++ called.answer.changes⟩

def Reader.start (options : ChangeStreamOptions τ) (deployment : Deployment) (h : List (Batch τ)) : Reader τ :=
  { stream := .new options deployment, batches := h }

/-- The token a stream begins with. -/
def ChangeStreamOptions.token (options : ChangeStreamOptions τ) : Option τ := options.startAfter <|> options.resumeAfter

/-- The token of the stream, which it has as long as it has its cursor, stands for the place after the changes that
were delivered: to resume there neither skips a change nor repeats one. -/
def Reader.Resumable (t₀ : Option τ) (h : List (Batch τ)) (s : Reader τ) : Prop :=
  ∀ t, s.stream.resumeToken = some t → s.delivered <+: changes h ∧ PointsAt t₀ h t s.delivered.length

/-- The condition on a call: a `tryNext` finds nothing, and the change that a `next` delivers is not the last of a batch
without a token after one that had one. -/
def Reader.Keeps (h : List (Batch τ)) (s : Reader τ) (m : Method) : Prop :=
  ∀ c, s.stream.cursor = some c →
    match m with
    | .hasNext => True
    | .next => ∀ d id, (upcoming c.cursor s.batches).head? = some d → d.id = some id → Fresh h (s.delivered.length + 1)
    | .tryNext => Idle c.cursor s.batches

/-- What holds of a stream that is read in any way. -/
structure Reader.Inv (h : List (Batch τ)) (s : Reader τ) : Prop where
  mode : s.stream.mode ≠ some .emitter
  closed : s.stream.closed = true → s.stream.cursor = none
  tracks : ∀ c, s.stream.cursor = some c → ∃ buffer read, Tracks h c s.delivered buffer read s.batches

section Runs

variable {t₀ : Option τ} {h : List (Batch τ)} {s s' : Reader τ} {m : Method}

/-- A stream that has its cursor is open. -/
theorem open_of_cursor {s : ChangeStream τ} {c : ChangeStreamCursor τ} (hclosed : s.closed = true → s.cursor = none)
    (hc : s.cursor = some c) : s.closed = false := by
  by_contra hopen
  have hnone := hclosed (by simpa using hopen)
  rw [hc] at hnone
  cases hnone

theorem Reader.start_inv (options : ChangeStreamOptions τ) (deployment : Deployment) (h : List (Batch τ)) :
    (Reader.start options deployment h).Inv h where
  mode := nofun
  closed := nofun
  tracks c hc := by
    cases hc
    exact ⟨[], [], ⟨rfl, .unopened rfl rfl rfl, rfl, rfl, nofun⟩⟩

theorem Reader.start_resumable (options : ChangeStreamOptions τ) (deployment : Deployment) (h : List (Batch τ)) :
    (Reader.start options deployment h).Resumable options.token h := by
  intro t ht
  cases ht
  exact ⟨List.nil_prefix, .start⟩

/-- The stream `s` while it is called, with the cursor `c`. -/
def ChangeStream.holding (s : ChangeStream τ) (c : ChangeStreamCursor τ) : ChangeStream τ :=
  { s with mode := some .iterator, cursor := some c }

/-- What a call does that comes back with an answer of the cursor. -/
inductive Turns (s : Reader τ) (answer : Answer (Change τ) Empty) (c' : ChangeStreamCursor τ) (rest : List (Batch τ)) :
    Method → Reader τ → Prop
  /-- `hasNext` and `tryNext` pass the answer on -/
  | passed {m : Method} (method : m ≠ .next) :
      Turns s answer c' rest m ⟨s.stream.holding c', rest, s.delivered ++ answer.changes⟩
  | delivered {d : Change τ} {id : τ} (change : answer.changes = [d]) (token : d.id = some id) :
      Turns s answer c' rest .next ⟨s.stream.holding (c'.cacheResumeToken id), rest, s.delivered ++ [d]⟩
  /-- there is no change, or it has no `_id` -/
  | closed (change : ∀ d, answer.changes = [d] → d.id = none) :
      Turns s answer c' rest .next ⟨(s.stream.holding c').close, rest, s.delivered⟩

theorem cursorExhausted_not_resumable (wireVersion : Nat) : cursorExhausted.isResumableError wireVersion = false := by
  simp [AnyError.isResumableError, AnyError.isNetworkError, AnyError.hasErrorLabel, cursorExhausted]

/-- A call finds a closed stream, or goes on with the cursor. -/
theorem Reader.withCursor_cases {body : ChangeStream τ → ChangeStreamCursor τ → Option (Called τ)} {called : Called τ}
    (hi : s.Inv h) (hcall : s.stream.withCursor s.batches body = some called) :
    (s.stream.cursor = none ∧
      called = ⟨.error changeStreamClosed, { s.stream with mode := some .iterator }, s.batches⟩) ∨
    (s.stream.closed = false ∧ ∃ c, s.stream.cursor = some c ∧
      body { s.stream with mode := some .iterator } c = some called) := by
  unfold ChangeStream.withCursor at hcall
  rw [if_neg hi.mode] at hcall
  by_cases hclosed : s.stream.closed = true
  · rw [if_pos hclosed] at hcall
    exact .inl ⟨hi.closed hclosed, (Option.some.inj hcall).symm⟩
  · rw [if_neg hclosed, Option.bind_eq_some_iff] at hcall
    obtain ⟨c, hc, hcall⟩ := hcall
    exact .inr ⟨by simpa using hclosed, c, hc, hcall⟩

theorem processNewChange_ok {s : ChangeStream τ} {d : Change τ} {id : τ} (hopen : s.closed = false)
    (hid : d.id = some id) :
    s.processNewChange (some d) = (.ok d, { s with cursor := s.cursor.map (·.cacheResumeToken id) }) := by
  unfold ChangeStream.processNewChange
  rw [if_neg (by simp [hopen])]
  simp only [hid]

/-- What `next` does with the answer of the cursor. -/
theorem processed_turns {answer : Answer (Change τ) Empty} {c' : ChangeStreamCursor τ} {rest : List (Batch τ)}
    {called : Called τ} (hopen : s.stream.closed = false) (herr : ∀ e, answer = .error e → e = cursorExhausted)
    (hcall : (s.stream.holding c').processAnswer answer rest = some called) :
    Turns s answer c' rest .next ⟨called.stream, called.batches, s.delivered ++ called.answer.changes⟩ := by
  have hopen' : (s.stream.holding c').closed = false := hopen
  have hclosed : ∀ error : AnyError, (∀ d, answer.changes = [d] → d.id = none) →
      some (⟨.error error, (s.stream.holding c').close, rest⟩ : Called τ) = some called →
      Turns s answer c' rest .next ⟨called.stream, called.batches, s.delivered ++ called.answer.changes⟩ := by
    intro error hd he
    cases he
    have hdel : s.delivered ++ (Answer.error error : Answer (Change τ) Empty).changes = s.delivered := List.append_nil _
    rw [hdel]
    exact .closed hd
  cases answer with
  | error e =>
    obtain rfl := herr e rfl
    have hnot : ((s.stream.holding c').cursor.any fun c =>
        cursorExhausted.isResumableError c.deployment.maxWireVersion) = false := cursorExhausted_not_resumable _
    simp only [ChangeStream.processAnswer, ChangeStream.processError, hopen', hnot] at hcall
    exact hclosed _ nofun hcall
  | item value =>
    cases value with
    | mapped value => exact value.elim
    | document d =>
      cases hid : d.id with
      | none =>
        simp only [ChangeStream.processAnswer, ChangeStream.processNewChange, hopen', hid] at hcall
        refine hclosed _ ?_ hcall
        intro d' hd
        cases hd
        exact hid
      | some id =>
        rw [ChangeStream.processAnswer, processNewChange_ok hopen' hid] at hcall
        cases hcall
        have hd : (Answer.item (.document d) : Answer (Change τ) Empty).changes = [d] := rfl
        exact .delivered hd hid
  | null =>
    simp only [ChangeStream.processAnswer, ChangeStream.processNewChange, hopen'] at hcall
    exact hclosed _ nofun hcall
  | bool value =>
    simp only [ChangeStream.processAnswer, ChangeStream.processNewChange, hopen'] at hcall
    exact hclosed _ nofun hcall

/-- A call finds a closed stream, or the cursor is called. -/
theorem Reader.step_cases (hi : s.Inv h) (hstep : s.step m = some s') :
    (s.stream.cursor = none ∧ s' = { s with stream := { s.stream with mode := some .iterator } }) ∨
      ∃ c answer c' rest, s.stream.cursor = some c ∧ c.call s.batches m = some (answer, c', rest) ∧
        ((∀ e, answer = .error e → e = cursorExhausted) → Turns s answer c' rest m s') := by
  unfold Reader.step at hstep
  rw [Option.bind_eq_bind, Option.bind_eq_some_iff] at hstep
  obtain ⟨called, hcall, hstep⟩ := hstep
  cases hstep
  have hnothing : ∀ s₁ : ChangeStream τ, called = ⟨.error changeStreamClosed, s₁, s.batches⟩ →
      (⟨called.stream, called.batches, s.delivered ++ called.answer.changes⟩ : Reader τ) = { s with stream := s₁ } := by
    intro s₁ hc
    rw [hc]
    simp [Answer.changes]
  -- only `next` looks at the answer
  obtain ⟨after, hafter, hcall⟩ : ∃ after : ChangeStream τ → Answer (Change τ) Empty →
      List (Batch τ) → Option (Called τ), (m = .next ∧ after = ChangeStream.processAnswer ∨
        m ≠ .next ∧ after = fun s₁ answer rest => some ⟨answer, s₁, rest⟩) ∧
      s.stream.withCursor s.batches (fun s₁ c => (c.call s.batches m).bind fun out =>
        after { s₁ with cursor := some out.2.1 } out.1 out.2.2) = some called := by
    cases m with
    | next => exact ⟨_, .inl ⟨rfl, rfl⟩, hcall⟩
    | tryNext => exact ⟨_, .inr ⟨fun h => (by cases h), rfl⟩, hcall⟩
    | hasNext => exact ⟨_, .inr ⟨fun h => (by cases h), rfl⟩, hcall⟩
  rcases Reader.withCursor_cases hi hcall with ⟨hnone, hc⟩ | ⟨hopen, c, hc, hbody⟩
  · exact .inl ⟨hnone, hnothing _ hc⟩
  · rw [Option.bind_eq_some_iff] at hbody
    obtain ⟨⟨answer, c', rest⟩, hcur, hbody⟩ := hbody
    refine .inr ⟨c, answer, c', rest, hc, hcur, fun herr => ?_⟩
    rcases hafter with ⟨rfl, rfl⟩ | ⟨hm, rfl⟩
    · exact processed_turns hopen herr hbody
    · cases hbody
      exact .passed hm

/-- The place after what was delivered, for a cursor that tracks the history. -/
theorem Tracks.resumable {c : ChangeStreamCursor τ} {buffer : List (Change τ)} {read : List (Batch τ)}
    (hs : s.stream.cursor = some c) (ht : Tracks h c s.delivered buffer read s.batches) :
    s.Resumable t₀ h ↔ PointsAt t₀ h c.resumeToken s.delivered.length := by
  have htoken : s.stream.resumeToken = some c.resumeToken := by rw [ChangeStream.resumeToken, hs, Option.map_some]
  constructor
  · intro hr
    exact (hr _ htoken).2
  · intro hp t he
    rw [htoken] at he
    cases he
    refine ⟨?_, hp⟩
    rw [ht.history, changes_append, ht.conserved, List.append_assoc]
    exact List.prefix_append _ _

theorem Tracks.cacheResumeToken {c : ChangeStreamCursor τ} {delivered buffer : List (Change τ)}
    {read rest : List (Batch τ)} (ht : Tracks h c delivered buffer read rest) (id : τ) :
    Tracks h (c.cacheResumeToken id) delivered buffer read rest := by
  obtain ⟨hcursor, htoken⟩ := cacheResumeToken_frame c id
  refine ⟨ht.history, ?_, ht.conserved, htoken.trans ht.token, ht.last⟩
  rw [hcursor]
  exact ht.stage

theorem Reader.inv_of_tracks {c : ChangeStreamCursor τ} {buffer : List (Change τ)} {read : List (Batch τ)}
    (hmode : s.stream.mode ≠ some .emitter) (hopen : s.stream.closed = false) (hs : s.stream.cursor = some c)
    (ht : Tracks h c s.delivered buffer read s.batches) : s.Inv h where
  mode := hmode
  closed hc := by rw [hopen] at hc; cases hc
  tracks c' hc' := by
    rw [hs] at hc'
    cases hc'
    exact ⟨buffer, read, ht⟩

/-- Whatever is called, the stream tracks the history. -/
theorem Reader.step_inv (hi : s.Inv h) (hstep : s.step m = some s') : s'.Inv h := by
  rcases Reader.step_cases hi hstep with ⟨hnone, rfl⟩ | ⟨c, answer, c', rest, hc, hcall, hturn⟩
  · refine ⟨nofun, fun _ => hnone, fun c hc => ?_⟩
    rw [show s.stream.cursor = some c from hc] at hnone
    cases hnone
  · obtain ⟨buffer, read, ht⟩ := hi.tracks c hc
    obtain ⟨buffer', read', hh⟩ := ht.call none hcall
    have hopen := open_of_cursor hi.closed hc
    cases hturn hh.error with
    | passed _ => exact Reader.inv_of_tracks nofun hopen rfl hh.tracks
    | delivered hd _ =>
      have ht' := hh.tracks
      rw [hd] at ht'
      exact Reader.inv_of_tracks nofun hopen rfl (ht'.cacheResumeToken _)
    | closed _ =>
      refine ⟨nofun, fun _ => rfl, fun c hc => ?_⟩
      cases hc

/-- A call that meets the condition leaves a token that is right. -/
theorem Reader.step_resumable (hi : s.Inv h) (hr : s.Resumable t₀ h) (hk : s.Keeps h m) (hstep : s.step m = some s') :
    s'.Resumable t₀ h := by
  rcases Reader.step_cases hi hstep with ⟨hnone, rfl⟩ | ⟨c, answer, c', rest, hc, hcall, hturn⟩
  · exact hr
  · obtain ⟨buffer, read, ht⟩ := hi.tracks c hc
    obtain ⟨buffer', read', hh⟩ := ht.call t₀ hcall
    have hp := hh.points ((ht.resumable hc).1 hr)
    have hkeep := hk c hc
    cases hturn hh.error with
    | passed hm =>
      -- nothing is delivered
      have hnil : answer.changes = [] := by
        cases m with
        | next => exact absurd rfl hm
        | hasNext => exact hh.hasNext rfl
        | tryNext => exact (hh.tryNext rfl).2 hkeep
      refine (Tracks.resumable rfl hh.tracks).2 ?_
      simpa [hnil] using hp
    | delivered hd hid =>
      have ht' := hh.tracks
      have hne : answer.changes ++ buffer' ≠ [] := by rw [hd]; nofun
      obtain ⟨pre, b, rfl, hsuf⟩ := hh.last hne
      have hhead := hh.next rfl
      rw [hd] at ht' hsuf hhead
      have hfresh := hkeep _ _ (Option.toList_eq_singleton_iff.1 hhead.symm) hid
      refine (Tracks.resumable rfl (ht'.cacheResumeToken _)).2 ?_
      simpa using cacheResumeToken_points t₀ ht' hsuf hid hfresh
    | closed _ =>
      intro t ht
      cases ht

/-- A call that leaves a token that is right meets the condition. -/
theorem Reader.keeps_of_resumable (hone : OnePlace t₀ h) (hi : s.Inv h) (hr : s.Resumable t₀ h)
    (hr' : s'.Resumable t₀ h) (hstep : s.step m = some s') : s.Keeps h m := by
  rcases Reader.step_cases hi hstep with ⟨hnone, -⟩ | ⟨c, answer, c', rest, hc, hcall, hturn⟩
  · intro c hc
    rw [hc] at hnone
    cases hnone
  · intro c₁ hc₁
    rw [hc] at hc₁
    cases hc₁
    obtain ⟨buffer, read, ht⟩ := hi.tracks c hc
    obtain ⟨buffer', read', hh⟩ := ht.call t₀ hcall
    cases hturn hh.error with
    | passed hm =>
      cases m with
      | next => exact absurd rfl hm
      | hasNext => trivial
      | tryNext =>
        have hp := hh.points ((ht.resumable hc).1 hr)
        have hplace := hone _ _ _ ((Tracks.resumable rfl hh.tracks).1 hr') hp
        refine (hh.tryNext rfl).1 (List.length_eq_zero_iff.1 ?_)
        simpa using hplace
    | delivered hd hid =>
      intro _ _ _ _
      have ht' := hh.tracks
      have hne : answer.changes ++ buffer' ≠ [] := by rw [hd]; nofun
      obtain ⟨pre, b, rfl, hsuf⟩ := hh.last hne
      rw [hd] at ht' hsuf
      have hp' := (Tracks.resumable rfl (ht'.cacheResumeToken _)).1 hr'
      rw [List.length_append] at hp'
      exact fresh_of_points hone ht' hsuf hp'
    | closed hnone =>
      intro d id hhead hid
      have hd := hnone d (by rw [hh.next rfl, hhead]; rfl)
      rw [hid] at hd
      cases hd

/-- Over every history of batches and every run of `next`, `tryNext` and `hasNext`: the token of the stream is right
after every call when no `tryNext` finds a change and no `next` delivers the last change of a batch without a token
after one with a token; and only then, when a token stands for one place in the history. -/
theorem resumeToken_iterator_iff (options : ChangeStreamOptions τ) (deployment : Deployment) (h : List (Batch τ))
    (calls : List Method) (s : Reader τ)
    (hrun : Run.exec Reader.step (Reader.start options deployment h) calls = some s) :
    (Run.Meets Reader.step (Reader.Keeps h) (Reader.start options deployment h) calls →
      ∀ calls₁ calls₂ u, calls = calls₁ ++ calls₂ →
        Run.exec Reader.step (Reader.start options deployment h) calls₁ = some u → u.Resumable options.token h) ∧
    (OnePlace options.token h →
      (∀ calls₁ calls₂ u, calls = calls₁ ++ calls₂ →
        Run.exec Reader.step (Reader.start options deployment h) calls₁ = some u → u.Resumable options.token h) →
      Run.Meets Reader.step (Reader.Keeps h) (Reader.start options deployment h) calls) := by
  have hstart := And.intro (Reader.start_inv options deployment h) (Reader.start_resumable options deployment h)
  have hsound : ∀ (s : Reader τ) (m : Method) (s' : Reader τ), s.Inv h ∧ s.Resumable options.token h → s.Keeps h m →
      s.step m = some s' → s'.Inv h ∧ s'.Resumable options.token h :=
    fun _ _ _ hs hk hstep => ⟨Reader.step_inv hs.1 hstep, Reader.step_resumable hs.1 hs.2 hk hstep⟩
  constructor
  · rintro hm calls₁ calls₂ u rfl hu
    exact (Run.exec_inv_meets Reader.step hsound hstart hm.left hu).2
  · intro hone hr
    have hexact : ∀ (s : Reader τ) (m : Method) (s' : Reader τ), s.Inv h ∧ s.Resumable options.token h →
        s.step m = some s' → (s'.Inv h ∧ s'.Resumable options.token h ↔ s.Keeps h m) := fun s m s' hs hstep =>
      ⟨fun hs' => Reader.keeps_of_resumable hone hs.1 hs.2 hs'.2 hstep, fun hk => hsound s m s' hs hk hstep⟩
    refine (Run.meets_iff Reader.step hexact hstart hrun).2 ?_
    intro calls₁ calls₂ u hcalls hu
    refine ⟨?_, hr calls₁ calls₂ u hcalls hu⟩
    exact Run.exec_inv Reader.step (fun _ _ _ => Reader.step_inv) hstart.1 hu

end Runs

/-- In a history in which every batch has a token, calls other than `tryNext` meet the condition. -/
theorem meets_of_tokens {h : List (Batch τ)} {calls : List Method} (s : Reader τ)
    (ht : ∀ b ∈ h, b.postBatchResumeToken ≠ none) (hc : ∀ m ∈ calls, m ≠ .tryNext) :
    Run.Meets Reader.step (Reader.Keeps h) s calls := by
  have hfresh : ∀ n, Fresh h n := by
    intro n pre b post hh _ _ hnone
    exact absurd hnone (ht b (by rw [hh]; simp))
  have hkeeps : ∀ (s : Reader τ) (m : Method), True → m ≠ .tryNext → s.Keeps h m := by
    intro s m _ hm c _
    cases m with
    | next => exact fun _ _ _ _ => hfresh _
    | hasNext => trivial
    | tryNext => exact absurd rfl hm
  exact Run.meets_of_inv Reader.step (fun _ _ _ _ _ _ => trivial) hkeeps trivial (Run.meets_of_forall Reader.step s hc)

def modernServer : Deployment := { hasSessionSupport := true, loadBalanced := false, maxWireVersion := 13 }

/-- Two batches without changes, then one with two; each with its token. -/
def threeBatches : List (Batch Nat) := [⟨7, [], some 10⟩, ⟨7, [], some 11⟩, ⟨7, [⟨some 1⟩, ⟨some 2⟩], some 12⟩]

/-- `tryNext` takes the two empty batches, and `next` delivers the first change. -/
theorem threeBatches_resumable :
    (Run.exec Reader.step (Reader.start {} modernServer threeBatches) [.tryNext, .next]).bind
      (fun s => s.stream.resumeToken) = some (some 1) ∧
    ∀ s, Run.exec Reader.step (Reader.start {} modernServer threeBatches) [.tryNext, .next] = some s →
      s.Resumable none threeBatches := by
  refine ⟨by decide, fun s hs => ?_⟩
  have hidle : (Reader.start {} modernServer threeBatches).Keeps threeBatches .tryNext := by
    intro c hc
    cases hc
    exact ⟨rfl, rfl⟩
  have hmeets : Run.Meets Reader.step (Reader.Keeps threeBatches) (Reader.start {} modernServer threeBatches)
      [.tryNext, .next] := ⟨hidle, fun t _ => meets_of_tokens t (by decide) (by decide)⟩
  exact (resumeToken_iterator_iff {} modernServer threeBatches [.tryNext, .next] s hs).1 hmeets
    [.tryNext, .next] [] s rfl hs

/-- The change that `tryNext` delivers after `next` is delivered again by a stream that resumes: its token is still that
of the first change. -/
theorem tryNext_leaves_token : ∃ s, Run.exec Reader.step
      (Reader.start {} modernServer [⟨7, [⟨some 1⟩, ⟨some 2⟩, ⟨some 3⟩], none⟩]) [.next, .tryNext] = some s ∧
    s.delivered = [⟨some 1⟩, ⟨some 2⟩] ∧ s.stream.resumeToken = some (some 1) ∧
    ¬ s.Resumable none [⟨7, [⟨some 1⟩, ⟨some 2⟩, ⟨some 3⟩], none⟩] := by
  have hrun : (Run.exec Reader.step (Reader.start {} modernServer [⟨7, [⟨some 1⟩, ⟨some 2⟩, ⟨some 3⟩], none⟩])
      [.next, .tryNext]).map (fun s => (s.delivered, s.stream.resumeToken)) =
        some ([⟨some 1⟩, ⟨some 2⟩], some (some 1)) := by
    decide
  obtain ⟨s, hs, he⟩ := Option.map_eq_some_iff.1 hrun
  rw [Prod.mk.injEq] at he
  refine ⟨s, hs, he.1, he.2, fun hr => ?_⟩
  have hp := (hr _ he.2).2
  rw [he.1] at hp
  generalize hn : ([⟨some 1⟩, ⟨some 2⟩] : List (Change Nat)).length = n at hp
  generalize ht : (some 1 : Option Nat) = t at hp
  cases hp with
  | start => cases hn
  | @change pre post c t hh hid =>
    -- the second change has another `_id`
    have hpre : pre.length = 1 := by simpa using hn.symm
    obtain ⟨x, rfl⟩ := List.length_eq_one_iff.1 hpre
    simp only [changes, List.flatMap_cons, List.flatMap_nil, List.append_nil, List.cons_append, List.nil_append,
      List.cons.injEq] at hh
    rw [← hh.2.1, ← ht] at hid
    cases hid
  | @batch pre post b t hh hb =>
    have hb' : b ∈ pre ++ b :: post := by simp
    rw [← hh, List.mem_singleton] at hb'
    rw [hb'] at hb
    cases hb

end MongoDriver.Cursor
