/-
What the callback of a bulk gets when something fails (`executeCommands` and `handleMongoWriteConcernError` of
`src/bulk/common.ts`, with the constructors of the operations in `src/operations`). The options are resolved for each
batch, its operation is built and handed to `executeOperation`; each of the three may throw. The last two are inside a
`try` whose `catch` merges the error and calls back with nothing at all, and the first is outside of it. So a failure is
reported exactly when no batch that is reached throws: an answer that is an error always is.
-/
import MongoDriver.Bulk.ResultIndices
import MongoDriver.ReadPreference

namespace MongoDriver.Bulk

variable {δ ι : Type}

/-! ## Building an operation -/

/-- `ExplainVerbosityLike`. -/
inductive ExplainVerbosityLike
  | flag (b : Bool)
  | verbosity (text : String)
deriving DecidableEq

/-- `Explain.fromOptions`: the verbosity it stands for. -/
def ExplainVerbosityLike.toVerbosity : ExplainVerbosityLike → String
  | flag true => "allPlansExecution"
  | flag false => "queryPlanner"
  | verbosity text => text

def explainNotSupported : AnyError :=
  { cls := .mongoInvalidArgumentError, message := "Option \"explain\" is not supported on this command" }

/-- The constructor of `CommandOperation`, for an operation with or without the aspect `EXPLAINABLE`. -/
def commandOperation (explainable : Bool) (explain : Option ExplainVerbosityLike) : Except AnyError (Option String) :=
  if explainable then .ok (explain.map (·.toVerbosity))
  else if explain.isSome then .error explainNotSupported
  else .ok none

/-- The options of `execute` that are read on the way to an operation. -/
structure BulkWriteOptions where
  ordered : Option Bool := none
  explain : Option ExplainVerbosityLike := none
  bypassDocumentValidation : Option Bool := none
  checkKeys : Option Bool := none
  retryWrites : Option Bool := none
deriving DecidableEq

/-- What a bulk holds besides its batches, with the two flags of a statement that are read. -/
structure BulkSettings (δ : Type) where
  isOrdered : Bool
  bypassDocumentValidation : Option Bool := none
  checkKeys : Option Bool := none
  multi : δ → Bool
  limit : δ → Option Int

/-- An `InsertOperation`, an `UpdateOperation` or a `DeleteOperation`; none of them is explainable. -/
structure Operation (δ : Type) where
  batchType : BatchType
  statements : List δ
  options : BulkWriteOptions
deriving DecidableEq

/-- What `executeOperation` calls back with: an error of the driver, the reply to the command, or neither, when the
write is not acknowledged. -/
inductive Answer (δ ι : Type)
  | error (err : AnyError)
  | reply (reply : Reply δ ι)
  | unacknowledged

/-- A batch, with what is found when its turn comes: the read preferences that its options refer to, and what starting
its operation does. -/
structure Turn (δ ι : Type) where
  batch : Batch δ
  preferences : Preferences := ReadPreference.statics
  readPreference : ReadPreferenceFromOptions := {}
  executeOperation : Operation δ → Except AnyError (Answer δ ι)

section Build

variable (bulk : BulkSettings δ) (options : BulkWriteOptions) (t : Turn δ ι)

/-- `resolveOptions`: the read preference of the options is made an instance, which may throw. -/
def Turn.resolveOptions : Except AnyError BulkWriteOptions :=
  match (ReadPreference.fromOptions t.preferences (some t.readPreference)).2 with
  | .error e => .error e
  | .ok _ => .ok { options with ordered := some bulk.isOrdered }

/-- The options of the operation of a batch. -/
def finalOptions (batch : Batch δ) (resolved : BulkWriteOptions) : BulkWriteOptions :=
  { resolved with
    bypassDocumentValidation :=
      if resolved.bypassDocumentValidation = some true ∨ bulk.bypassDocumentValidation = some true then some true
      else none
    checkKeys := if bulk.checkKeys = some false then some false else resolved.checkKeys
    retryWrites :=
      if resolved.retryWrites = some true then
        match batch.batchType with
        | .insert => some true
        | .update => some !(batch.operations.any bulk.multi)
        | .delete => some !(batch.operations.any fun op => bulk.limit op = some 0)
      else resolved.retryWrites }

/-- The constructor of the operation of a batch. -/
def newOperation (batch : Batch δ) (options : BulkWriteOptions) : Except AnyError (Operation δ) :=
  match commandOperation false options.explain with
  | .error e => .error e
  | .ok _ => .ok {
      batchType := batch.batchType
      statements := batch.operations
      options := if batch.batchType = .insert then { options with checkKeys := some (options.checkKeys.getD false) }
        else options }

/-- The `try` block: the operation is built and started. -/
def Turn.start (resolved : BulkWriteOptions) : Except AnyError (Operation δ × Answer δ ι) := do
  let operation ← newOperation t.batch (finalOptions bulk t.batch resolved)
  let answer ← t.executeOperation operation
  return (operation, answer)

end Build

/-! ## Execution -/

namespace BulkOperation

/-- What the callback of `execute` is called with. -/
inductive Called (δ ι : Type)
  /-- a `MongoBulkWriteError`, which carries the result so far -/
  | failed (error : BulkWriteError δ) (result : BulkResult δ ι)
  /-- an error as it was thrown -/
  | thrown (error : AnyError)
  | succeeded (result : BulkResult δ ι)
  /-- no arguments -/
  | nothing

inductive Action (δ ι : Type)
  | send (operation : Operation δ)
  | callback (called : Called δ ι)
  | throw (error : AnyError)

/-- What `resultHandler` merges of an answer, or the error it calls back with. -/
def resultHandler (batch : Batch δ) (bulkResult : BulkResult δ ι) :
    Answer δ ι → Except (BulkWriteError δ × BulkResult δ ι) (BulkResult δ ι)
  | .error err => .error ({ message := some err.message, code := err.code }, bulkResult)
  | .unacknowledged => .ok bulkResult
  | .reply reply =>
    match messageHandler reply with
    | .serverError reply => .error ({ message := some reply.errorMessage, code := reply.code }, bulkResult)
    | .writeConcernError error result =>
      .error ({ message := some error.errmsg }, mergeBatchResults batch bulkResult result)
    | .result reply => .ok (mergeBatchResults batch bulkResult reply)

section Execute

variable (bulk : BulkSettings δ) (options : BulkWriteOptions)

/-- `executeCommands`. The error that the `catch` merges is in the result, but the result is not passed on. -/
def executeCommands : List (Turn δ ι) → BulkResult δ ι → List (Action δ ι)
  | [], bulkResult => [.callback (.succeeded bulkResult)]
  | t :: rest, bulkResult =>
    match t.resolveOptions bulk options with
    | .error err => [.throw err]
    | .ok resolved =>
      match t.start bulk resolved with
      | .error _ => [.callback .nothing]
      | .ok (operation, answer) =>
        .send operation ::
          match resultHandler t.batch bulkResult answer with
          | .error (error, bulkResult) => [.callback (.failed error bulkResult)]
          | .ok bulkResult =>
            match handleWriteError bulk.isOrdered rest.length bulkResult with
            | some error => [.callback (.failed error bulkResult)]
            | none => executeCommands rest bulkResult

/-- `executeLegacyOperation(topology, executeCommands, ..)`: what is thrown at once is passed to the callback and thrown
again; what is thrown later, when a reply has come, nobody catches. -/
def executeLegacyOperation (turns : List (Turn δ ι)) : List (Action δ ι) :=
  match executeCommands bulk options turns {} with
  | .throw err :: rest => .callback (.thrown err) :: .throw err :: rest
  | actions => actions

end Execute

def callbacks (actions : List (Action δ ι)) : List (Called δ ι) :=
  actions.filterMap fun
    | .callback called => some called
    | _ => none

/-- How many operations were started. -/
def started (actions : List (Action δ ι)) : Nat :=
  (actions.filter fun
    | .send _ => true
    | _ => false).length

/-! ## What is to be reported -/

section Report

variable (bulk : BulkSettings δ) (options : BulkWriteOptions)

/-- The result with the reply of an answer. -/
def received (batch : Batch δ) (bulkResult : BulkResult δ ι) : Answer δ ι → BulkResult δ ι
  | .reply reply => reply.merged.elim bulkResult (mergeBatchResults batch bulkResult)
  | _ => bulkResult

/-- The answer to the operation of a batch, if nothing throws. -/
def Turn.answer (t : Turn δ ι) : Except AnyError (Answer δ ι) := do
  let resolved ← t.resolveOptions bulk options
  let (_, answer) ← t.start bulk resolved
  return answer

/-- The result of the batches whose operations were answered. -/
def accumulated (turns : List (Turn δ ι)) (bulkResult : BulkResult δ ι) : BulkResult δ ι :=
  turns.foldl (fun bulkResult t =>
    match Turn.answer bulk options t with
    | .error _ => bulkResult
    | .ok answer => received t.batch bulkResult answer) bulkResult

/-- The answer is an error. -/
def IsError : Answer δ ι → Prop
  | .error _ => True
  | .unacknowledged => False
  | .reply reply => ∀ result, messageHandler reply ≠ .result result

/-- The answer is an error or reports write errors. -/
def AnswerFails (answer : Answer δ ι) : Prop :=
  IsError answer ∨ ∃ reply, answer = .reply reply ∧ reply.writeErrors ≠ []

/-- Resolving the options of a batch, building or starting its operation throws. -/
def Throws (t : Turn δ ι) : Prop := ∃ err, Turn.answer bulk options t = .error err

def Fails (t : Turn δ ι) : Prop :=
  Throws bulk options t ∨ ∃ answer, Turn.answer bulk options t = .ok answer ∧ AnswerFails answer

/-- The callback is called once and with the result so far when a batch fails, and it hears of no error only with a
result and when every batch succeeded. -/
structure Reports (turns : List (Turn δ ι)) (actions : List (Action δ ι)) : Prop where
  failure : (∃ t ∈ turns, Fails bulk options t) → ∃ error, callbacks actions =
    [.failed error (accumulated bulk options (turns.take (started actions)) {})]
  success : ∀ called ∈ callbacks actions, (∃ error result, called = .failed error result) ∨
    (∃ error, called = .thrown error) ∨
      called = .succeeded (accumulated bulk options turns {}) ∧ ∀ t ∈ turns, ¬ Fails bulk options t

/-- The execution goes on after the batch: an ordered one only when the batch succeeded. -/
def GoesOn (t : Turn δ ι) : Prop :=
  ∃ answer, Turn.answer bulk options t = .ok answer ∧ ¬ IsError answer ∧ (bulk.isOrdered = true → ¬ AnswerFails answer)

/-- A batch that is reached throws. -/
def Stumbles (turns : List (Turn δ ι)) : Prop :=
  ∃ pre t post, turns = pre ++ t :: post ∧ (∀ p ∈ pre, GoesOn bulk options p) ∧ Throws bulk options t

end Report

/-! ## One batch -/

section Turns

variable {bulk : BulkSettings δ} {options : BulkWriteOptions} {t : Turn δ ι} {rest turns : List (Turn δ ι)}
variable {bulkResult : BulkResult δ ι} {answer : Answer δ ι}

/-- An answer that is merged: the write errors that it reports are added. -/
structure Merges (batch : Batch δ) (bulkResult : BulkResult δ ι) (answer : Answer δ ι) : Prop where
  handled : resultHandler batch bulkResult answer = .ok (received batch bulkResult answer)
  noError : ¬ IsError answer
  concerns : (received batch bulkResult answer).writeConcernErrors = bulkResult.writeConcernErrors
  errors : (received batch bulkResult answer).writeErrors ≠ [] ↔ bulkResult.writeErrors ≠ [] ∨ AnswerFails answer

theorem messageHandler_cases (reply : Reply δ ι) :
    (∃ error result, messageHandler reply = .writeConcernError error result) ∨
      messageHandler reply = .serverError reply ∨
        messageHandler reply = .result reply ∧ reply.ok = true ∧ reply.writeConcernError = none := by
  unfold messageHandler
  cases hconcern : reply.writeConcernError with
  | some e => exact .inl ⟨e, _, rfl⟩
  | none =>
    by_cases herror : (reply.ok = false || reply.err.any (· ≠ "") || reply.errmsg.any (· ≠ "") ||
        reply.code.any (· ≠ 0)) = true
    · exact .inr (.inl (if_pos herror))
    · refine .inr (.inr ⟨if_neg herror, ?_, rfl⟩)
      by_contra hok
      rw [Bool.not_eq_true] at hok
      exact herror (by simp [hok])

/-- What `resultHandler` does with an answer: it calls back with an error and merges anything else. -/
theorem resultHandler_cases (batch : Batch δ) (bulkResult : BulkResult δ ι) (answer : Answer δ ι) :
    (IsError answer ∧ ∃ error, resultHandler batch bulkResult answer =
        .error (error, received batch bulkResult answer)) ∨
      Merges batch bulkResult answer := by
  cases answer with
  | error err => exact .inl ⟨trivial, _, rfl⟩
  | unacknowledged =>
    refine .inr ⟨rfl, id, rfl, (or_iff_left ?_).symm⟩
    rintro (herror | ⟨reply, hreply, -⟩)
    · exact herror
    · cases hreply
  | reply reply =>
    rcases messageHandler_cases reply with ⟨error, result, hconcern⟩ | herror | ⟨hresult, hok, hnone⟩
    · refine .inl ⟨fun result h => ?_, { message := some error.errmsg }, ?_⟩
      · rw [hconcern] at h
        cases h
      · simp only [resultHandler, received, Reply.merged, hconcern, Option.elim_some]
    · refine .inl ⟨fun result h => ?_, { message := some reply.errorMessage, code := reply.code }, ?_⟩
      · rw [herror] at h
        cases h
      · simp only [resultHandler, received, Reply.merged, herror, Option.elim_none]
    · have hreceived : received batch bulkResult (.reply reply) = mergeBatchResults batch bulkResult reply := by
        simp only [received, Reply.merged, hresult, Option.elim_some]
      have hnot : ¬ IsError (.reply reply) := fun h => h reply hresult
      have hfails : AnswerFails (.reply reply) ↔ reply.Fails := by
        have hone : (∃ r, Answer.reply reply = .reply r ∧ r.writeErrors ≠ []) ↔ reply.writeErrors ≠ [] := by
          simp
        unfold AnswerFails
        rw [or_iff_right hnot, hone]
        exact (or_iff_left (by simp [hnone])).symm
      refine .inr ⟨?_, hnot, ?_, ?_⟩
      · simp only [resultHandler, hresult, hreceived]
      · rw [hreceived, (merge_errors hok).2, hnone, Option.toList_none, List.append_nil]
      · rw [hreceived, hfails]
        exact merge_writeErrors_ne_nil hok hnone

/-- The execution of a batch and of those after it: it throws, the callback is called with an error after the answer,
or the next batch is begun. -/
theorem executeCommands_cons (bulk : BulkSettings δ) (options : BulkWriteOptions) (t : Turn δ ι)
    (rest : List (Turn δ ι)) (bulkResult : BulkResult δ ι) :
    (Throws bulk options t ∧ ((∃ err, executeCommands bulk options (t :: rest) bulkResult = [.throw err]) ∨
        executeCommands bulk options (t :: rest) bulkResult = [.callback .nothing])) ∨
      ∃ operation answer, Turn.answer bulk options t = .ok answer ∧
        ((IsError answer ∧ ∃ error, executeCommands bulk options (t :: rest) bulkResult =
            [.send operation, .callback (.failed error (received t.batch bulkResult answer))]) ∨
          Merges t.batch bulkResult answer ∧
            ((∃ error, handleWriteError bulk.isOrdered rest.length (received t.batch bulkResult answer) = some error ∧
                executeCommands bulk options (t :: rest) bulkResult =
                  [.send operation, .callback (.failed error (received t.batch bulkResult answer))]) ∨
              handleWriteError bulk.isOrdered rest.length (received t.batch bulkResult answer) = none ∧
                executeCommands bulk options (t :: rest) bulkResult =
                  .send operation :: executeCommands bulk options rest (received t.batch bulkResult answer))) := by
  rw [executeCommands]
  unfold Throws Turn.answer
  cases hresolved : t.resolveOptions bulk options with
  | error err => exact .inl ⟨⟨err, rfl⟩, .inl ⟨err, rfl⟩⟩
  | ok resolved =>
    cases hstart : t.start bulk resolved with
    | error err =>
      refine .inl ⟨⟨err, ?_⟩, .inr (by simp only [hstart])⟩
      simp [bind, Except.bind, hstart]
    | ok started =>
      obtain ⟨operation, answer⟩ := started
      refine .inr ⟨operation, answer, ?_, ?_⟩
      · simp [bind, Except.bind, hstart, pure, Except.pure]
      · simp only [hstart]
        rcases resultHandler_cases t.batch bulkResult answer with ⟨hfails, error, hhandler⟩ | hmerges
        · exact .inl ⟨hfails, error, by simp only [hhandler]⟩
        · refine .inr ⟨hmerges, ?_⟩
          simp only [hmerges.handled]
          cases hwrite : handleWriteError bulk.isOrdered rest.length (received t.batch bulkResult answer) with
          | some error => exact .inl ⟨error, rfl, rfl⟩
          | none => exact .inr ⟨rfl, rfl⟩

/-- Without write-concern errors the execution goes on when there are no write errors, and in an unordered bulk as long
as batches are left. -/
theorem handleWriteError_none_iff {isOrdered : Bool} {remaining : Nat} (h : bulkResult.writeConcernErrors = []) :
    handleWriteError isOrdered remaining bulkResult = none ↔
      (isOrdered = false ∧ remaining ≠ 0) ∨ bulkResult.writeErrors = [] := by
  have hbase : handleWriteErrorBase bulkResult = none ↔ bulkResult.writeErrors = [] := by
    unfold handleWriteErrorBase
    cases hwrite : bulkResult.writeErrors with
    | nil => simp [BulkResult.getWriteConcernError, h]
    | cons e es => simp
  unfold handleWriteError
  by_cases hleft : isOrdered = false ∧ remaining ≠ 0
  · rw [if_pos (by simp [hleft])]
    exact iff_of_true rfl (.inl hleft)
  · rw [if_neg (by simpa using hleft), hbase, or_iff_right hleft]

theorem fails_iff (h : Turn.answer bulk options t = .ok answer) : Fails bulk options t ↔ AnswerFails answer := by
  unfold Fails Throws
  rw [h]
  constructor
  · rintro (⟨err, herr⟩ | ⟨answer', hanswer, hfails⟩)
    · cases herr
    · cases hanswer
      exact hfails
  · exact fun hfails => .inr ⟨answer, rfl, hfails⟩

theorem goesOn_iff (h : Turn.answer bulk options t = .ok answer) :
    GoesOn bulk options t ↔ ¬ IsError answer ∧ (bulk.isOrdered = true → ¬ AnswerFails answer) := by
  unfold GoesOn
  rw [h]
  constructor
  · rintro ⟨answer', hanswer, hgoes⟩
    cases hanswer
    exact hgoes
  · exact fun hgoes => ⟨answer, rfl, hgoes⟩

theorem stumbles_cons (hgoes : GoesOn bulk options t) (h : Stumbles bulk options rest) :
    Stumbles bulk options (t :: rest) := by
  obtain ⟨pre, s, post, rfl, hpre, hthrows⟩ := h
  exact ⟨t :: pre, s, post, rfl, List.forall_mem_cons.2 ⟨hgoes, hpre⟩, hthrows⟩

theorem callbacks_send (operation : Operation δ) (actions : List (Action δ ι)) :
    callbacks (.send operation :: actions) = callbacks actions := rfl

theorem started_send (operation : Operation δ) (actions : List (Action δ ι)) :
    started (.send operation :: actions) = started actions + 1 := by
  simp [started]

theorem accumulated_cons (h : Turn.answer bulk options t = .ok answer) (rest : List (Turn δ ι))
    (bulkResult : BulkResult δ ι) : accumulated bulk options (t :: rest) bulkResult =
      accumulated bulk options rest (received t.batch bulkResult answer) := by
  unfold accumulated
  rw [List.foldl_cons, h]

end Turns

/-! ## Whole executions -/

section Runs

variable {bulk : BulkSettings δ} {options : BulkWriteOptions} {turns : List (Turn δ ι)}
variable {bulkResult : BulkResult δ ι}

/-- From a result without write-concern errors, and without write errors that would have ended the execution: when no
batch that is reached throws, the callback gets the result, with an error if one was reported. -/
theorem run_reports (turns : List (Turn δ ι)) (bulkResult : BulkResult δ ι)
    (hconcerns : bulkResult.writeConcernErrors = [])
    (herrors : bulk.isOrdered = true ∨ turns = [] → bulkResult.writeErrors = []) (h : ¬ Stumbles bulk options turns) :
    ((bulkResult.writeErrors ≠ [] ∨ ∃ t ∈ turns, Fails bulk options t) →
      ∃ error, callbacks (executeCommands bulk options turns bulkResult) = [.failed error
        (accumulated bulk options (turns.take (started (executeCommands bulk options turns bulkResult))) bulkResult)]) ∧
      (¬ (bulkResult.writeErrors ≠ [] ∨ ∃ t ∈ turns, Fails bulk options t) →
        callbacks (executeCommands bulk options turns bulkResult) =
          [.succeeded (accumulated bulk options turns bulkResult)]) := by
  induction turns generalizing bulkResult with
  | nil =>
    refine ⟨?_, fun _ => rfl⟩
    rintro (hne | ⟨t, ht, -⟩)
    · exact absurd (herrors (.inr rfl)) hne
    · cases ht
  | cons t rest ih =>
    rcases executeCommands_cons bulk options t rest bulkResult with ⟨hthrows, -⟩ | ⟨operation, answer, hanswer, hcases⟩
    · exact absurd ⟨[], t, rest, rfl, fun p hp => (by cases hp), hthrows⟩ h
    have hfails := fails_iff hanswer
    have hexists : (∃ s ∈ t :: rest, Fails bulk options s) ↔ AnswerFails answer ∨ ∃ s ∈ rest, Fails bulk options s := by
      rw [List.exists_mem_cons_iff, hfails]
    rcases hcases with ⟨hbad, error, hexec⟩ | ⟨hmerges, ⟨error, hwrite, hexec⟩ | ⟨hwrite, hexec⟩⟩
    · -- the answer is an error
      rw [hexec]
      refine ⟨fun _ => ⟨error, ?_⟩, fun hnot => absurd (.inr (hexists.2 (.inl (.inl hbad)))) hnot⟩
      rw [started_send, List.take_succ_cons, accumulated_cons hanswer]
      rfl
    · -- a write error ends the execution
      have hne : (received t.batch bulkResult answer).writeErrors ≠ [] := fun hnil => by
        have hnone : handleWriteError bulk.isOrdered rest.length (received t.batch bulkResult answer) = none :=
          (handleWriteError_none_iff (hmerges.concerns.trans hconcerns)).2 (.inr hnil)
        rw [hwrite] at hnone
        cases hnone
      rw [hexec]
      refine ⟨fun _ => ⟨error, ?_⟩, fun hnot => absurd ?_ hnot⟩
      · rw [started_send, List.take_succ_cons, accumulated_cons hanswer]
        rfl
      · exact (hmerges.errors.1 hne).imp_right fun hbad => hexists.2 (.inl hbad)
    · -- the next batch is begun
      have hgo := (handleWriteError_none_iff (hmerges.concerns.trans hconcerns)).1 hwrite
      have hnil : bulk.isOrdered = true ∨ rest = [] → (received t.batch bulkResult answer).writeErrors = [] := by
        intro hend
        refine hgo.resolve_left fun hleft => ?_
        rcases hend with hordered | rfl
        · rw [hleft.1] at hordered
          cases hordered
        · exact hleft.2 rfl
      have hgoes : GoesOn bulk options t := (goesOn_iff hanswer).2 ⟨hmerges.noError, fun hordered hbad =>
        hmerges.errors.2 (.inr hbad) (hnil (.inl hordered))⟩
      obtain ⟨hfailure, hsuccess⟩ := ih (received t.batch bulkResult answer) (hmerges.concerns.trans hconcerns) hnil
        fun hstumbles => h (stumbles_cons hgoes hstumbles)
      have hsame : (bulkResult.writeErrors ≠ [] ∨ ∃ s ∈ t :: rest, Fails bulk options s) ↔
          (received t.batch bulkResult answer).writeErrors ≠ [] ∨ ∃ s ∈ rest, Fails bulk options s := by
        rw [hexists, hmerges.errors, or_assoc]
      rw [hsame, hexec, callbacks_send, started_send, List.take_succ_cons, accumulated_cons hanswer,
        accumulated_cons hanswer]
      exact ⟨hfailure, hsuccess⟩

/-- When a batch that is reached throws, no error with a result is called back with. -/
theorem run_stumbles (turns : List (Turn δ ι)) (bulkResult : BulkResult δ ι)
    (hconcerns : bulkResult.writeConcernErrors = []) (herrors : bulk.isOrdered = true → bulkResult.writeErrors = [])
    (h : Stumbles bulk options turns) (error : BulkWriteError δ) (result : BulkResult δ ι) :
    .failed error result ∉ callbacks (executeCommands bulk options turns bulkResult) := by
  obtain ⟨pre, t, post, rfl, hpre, err, hthrows⟩ := h
  induction pre generalizing bulkResult with
  | nil =>
    rcases executeCommands_cons bulk options t post bulkResult with ⟨-, ⟨err', hexec⟩ | hexec⟩ | ⟨_, answer, hanswer, -⟩
    · rw [List.nil_append, hexec]
      simp [callbacks]
    · rw [List.nil_append, hexec]
      simp [callbacks]
    · rw [hthrows] at hanswer
      cases hanswer
  | cons p pre ih =>
    obtain ⟨hgoes, hpre⟩ := List.forall_mem_cons.1 hpre
    rw [List.cons_append]
    have hleft : (pre ++ t :: post).length ≠ 0 := by simp
    rcases executeCommands_cons bulk options p (pre ++ t :: post) bulkResult with
      ⟨⟨err', hthrows'⟩, -⟩ | ⟨operation, answer, hanswer, hcases⟩
    · obtain ⟨answer, hanswer, -⟩ := hgoes
      rw [hthrows'] at hanswer
      cases hanswer
    obtain ⟨hnoError, hsucceeds⟩ := (goesOn_iff hanswer).1 hgoes
    rcases hcases with ⟨herror, -⟩ | ⟨hmerges, hcases⟩
    · exact absurd herror hnoError
    · have hclean : bulk.isOrdered = true → (received p.batch bulkResult answer).writeErrors = [] := by
        intro hordered
        by_contra hne
        rcases hmerges.errors.1 hne with hold | hbad
        · exact hold (herrors hordered)
        · exact hsucceeds hordered hbad
      have hnone : handleWriteError bulk.isOrdered (pre ++ t :: post).length (received p.batch bulkResult answer) =
          none := by
        refine (handleWriteError_none_iff (hmerges.concerns.trans hconcerns)).2 ?_
        cases hordered : bulk.isOrdered with
        | true => exact .inr (hclean hordered)
        | false => exact .inl ⟨rfl, hleft⟩
      rcases hcases with ⟨error', hwrite, -⟩ | ⟨-, hexec⟩
      · rw [hnone] at hwrite
        cases hwrite
      · rw [hexec, callbacks_send]
        exact ih (received p.batch bulkResult answer) (hmerges.concerns.trans hconcerns) hclean hpre

/-- What is thrown at once is thrown by the first batch. -/
theorem executeLegacyOperation_eq (h : ¬ Stumbles bulk options turns) :
    executeLegacyOperation bulk options turns = executeCommands bulk options turns {} := by
  unfold executeLegacyOperation
  split
  · rename_i err actions hexec
    cases turns with
    | nil =>
      rw [executeCommands] at hexec
      cases hexec
    | cons t rest =>
      rcases executeCommands_cons bulk options t rest {} with ⟨hthrows, -⟩ | ⟨operation, answer, -, hcases⟩
      · exact absurd ⟨[], t, rest, rfl, fun p hp => (by cases hp), hthrows⟩ h
      · rcases hcases with ⟨-, error, hsend⟩ | ⟨-, ⟨error, -, hsend⟩ | ⟨-, hsend⟩⟩
        all_goals
          rw [hsend] at hexec
          cases hexec
  · rfl

theorem executeLegacyOperation_stumbles (h : Stumbles bulk options turns) (error : BulkWriteError δ)
    (result : BulkResult δ ι) : .failed error result ∉ callbacks (executeLegacyOperation bulk options turns) := by
  have hnot := run_stumbles turns {} rfl (fun _ => rfl) h error result
  unfold executeLegacyOperation
  split
  · rename_i err actions hexec
    rw [hexec] at hnot
    simpa [callbacks] using hnot
  · exact hnot

end Runs

/-! ## Batches whose operations are answered -/

section Answered

variable {bulk : BulkSettings δ} {options : BulkWriteOptions} {turns : List (Turn δ ι)}

/-- A call with an error or without one. -/
def Called.outcome : Called δ ι → Option (Option (BulkWriteError δ) × BulkResult δ ι)
  | failed error result => some (some error, result)
  | succeeded result => some (none, result)
  | _ => none

theorem answer_ok {t : Turn δ ι} {answer : Answer δ ι} (h : Turn.answer bulk options t = .ok answer) :
    ∃ resolved operation, t.resolveOptions bulk options = .ok resolved ∧
      t.start bulk resolved = .ok (operation, answer) := by
  unfold Turn.answer at h
  cases hresolved : t.resolveOptions bulk options with
  | error err =>
    rw [hresolved] at h
    cases h
  | ok resolved =>
    rw [hresolved] at h
    cases hstart : t.start bulk resolved with
    | error err => simp [bind, Except.bind, hstart] at h
    | ok started =>
      obtain ⟨operation, answer'⟩ := started
      simp only [bind, Except.bind, hstart, pure, Except.pure, Except.ok.injEq] at h
      exact ⟨resolved, operation, rfl, h ▸ hstart⟩

/-- When every operation is answered with a reply, the callback gets what `Bulk.executeCommands` calls it with. -/
theorem executeCommands_refines {work : List (Batch δ × Reply δ ι)} (bulkResult : BulkResult δ ι)
    (h : List.Forall₂ (fun t w => t.batch = w.1 ∧ Turn.answer bulk options t = .ok (.reply w.2)) turns work) :
    (callbacks (executeCommands bulk options turns bulkResult)).map Called.outcome =
      (Bulk.callbacks (Bulk.executeCommands bulk.isOrdered work bulkResult)).map some := by
  induction h generalizing bulkResult with
  | nil => rfl
  | @cons t w turns work hw hrest ih =>
    obtain ⟨batch, reply⟩ := w
    obtain ⟨rfl, hanswer⟩ := hw
    obtain ⟨resolved, operation, hresolved, hstart⟩ := answer_ok hanswer
    have hlen := hrest.length_eq
    rw [executeCommands, Bulk.executeCommands, hresolved]
    simp only [hstart, resultHandler]
    cases hreply : messageHandler reply with
    | serverError r => rfl
    | writeConcernError e r => rfl
    | result r =>
      simp only [hlen]
      cases hwrite : handleWriteError bulk.isOrdered work.length (mergeBatchResults t.batch bulkResult r) with
      | some error => rfl
      | none => exact ih _

end Answered

/-! ## Main result -/

/-- For every bulk, options and answers: when a batch fails the callback is called once, with an error that carries the
result so far, and without an error only with the result of batches that all succeeded, exactly when no batch that is
reached throws. -/
theorem failures_reported_iff (bulk : BulkSettings δ) (options : BulkWriteOptions) (turns : List (Turn δ ι)) :
    Reports bulk options turns (executeLegacyOperation bulk options turns) ↔ ¬ Stumbles bulk options turns := by
  constructor
  · intro hreports hstumbles
    have hfails : ∃ t ∈ turns, Fails bulk options t := by
      obtain ⟨pre, t, post, rfl, -, hthrows⟩ := hstumbles
      exact ⟨t, by simp, .inl hthrows⟩
    obtain ⟨error, hcalled⟩ := hreports.failure hfails
    refine executeLegacyOperation_stumbles hstumbles error
      (accumulated bulk options (turns.take (started (executeLegacyOperation bulk options turns))) {}) ?_
    rw [hcalled]
    exact List.mem_singleton_self _
  · intro h
    rw [executeLegacyOperation_eq h]
    obtain ⟨hfailure, hsuccess⟩ := run_reports turns {} rfl (fun _ => rfl) h
    refine ⟨fun hfails => hfailure (.inr hfails), fun called hcalled => ?_⟩
    by_cases hfails : ∃ t ∈ turns, Fails bulk options t
    · obtain ⟨error, hone⟩ := hfailure (.inr hfails)
      rw [hone, List.mem_singleton] at hcalled
      exact .inl ⟨error, _, hcalled⟩
    · have hnone : ¬ ((({} : BulkResult δ ι).writeErrors ≠ []) ∨ ∃ t ∈ turns, Fails bulk options t) := by
        rintro (hne | hany)
        · exact hne rfl
        · exact hfails hany
      rw [hsuccess hnone, List.mem_singleton] at hcalled
      exact .inr (.inr ⟨hcalled, fun t ht hfail => hfails ⟨t, ht, hfail⟩⟩)

section Failing

private def numbers : BulkSettings Nat where
  isOrdered := true
  multi _ := false
  limit _ := none

/-- An insert that the server answers. -/
private def inserted : Turn Nat Nat where
  batch := { batchType := .insert, originalZeroIndex := 0, originalIndexes := [0], operations := [1] }
  executeOperation _ := .ok (.reply { n := 1 })

/-- With the option `explain` the operation cannot be built, and the callback is called with nothing. -/
theorem explain_reports_nothing : ¬ ∀ (bulk : BulkSettings Nat) (options : BulkWriteOptions)
    (turns : List (Turn Nat Nat)), Reports bulk options turns (executeLegacyOperation bulk options turns) := by
  intro h
  have hthrows : Throws numbers { explain := some (.flag true) } inserted := ⟨explainNotSupported, rfl⟩
  obtain ⟨error, hcalled⟩ := (h numbers { explain := some (.flag true) } [inserted]).failure
    ⟨inserted, List.mem_singleton_self _, .inl hthrows⟩
  cases hcalled

end Failing

end BulkOperation

end MongoDriver.Bulk
