/-
Running an operation on a selected server, with one retry (`executeWithServerSelection` of
`src/operations/execute_operation.ts`). The code is a program over callbacks: it asks for a server, for
the outcome of an attempt and for the state of the session, and calls back. A run of the program is the
list of its effects under given answers; each question is answered once.
-/
import MongoDriver.Sdam.Server

namespace MongoDriver.Operations

open Sdam (Server maxWireVersion supportsRetryableWrites)

/-! ## Operations, sessions and programs -/

/-- `Aspect`, of which an operation has some. -/
inductive Aspect
  | readOperation
  | writeOperation
  | retryable
  | cursorCreating
  | cursorIterating
deriving DecidableEq

/-- What is read of an `AbstractOperation`. A read preference is its mode. -/
structure AbstractOperation where
  aspects : List Aspect := []
  readPreference : Option String := none
  trySecondaryWrite : Bool := false
  canRetryRead : Bool := true
  canRetryWrite : Bool := true
  bypassPinningCheck : Bool := false

def AbstractOperation.hasAspect (op : AbstractOperation) (aspect : Aspect) : Bool := op.aspects.contains aspect

/-- What is read of the session of an operation. -/
structure ExecutionSession where
  inTransaction : Bool := false
  isPinned : Bool := false
  isCommitted : Bool := false

/-- The retry options of the topology. -/
structure RetryOptions where
  retryReads : Option Bool := none
  retryWrites : Option Bool := none

inductive ServerSelector
  | readPreference (mode : String)
  | sameServer
  | secondaryWritable (mode : String)
deriving DecidableEq

/-- The arguments of a callback. -/
structure Outcome (ρ : Type) where
  error : Option AnyError := none
  result : Option ρ := none
deriving DecidableEq

/-- A program over callbacks. -/
inductive Prog (ρ : Type)
  | done
  | callback (outcome : Outcome ρ) (next : Prog ρ)
  | selectServer (selector : ServerSelector) (next : Except AnyError Server → Prog ρ)
  | execute (server : Server) (next : Outcome ρ → Prog ρ)
  | readSession (next : ExecutionSession → Prog ρ)
  | unpin (forceClear : Bool) (next : Prog ρ)
  | willRetryWrite (next : Prog ρ)

/-- An effect, with the answer of a question. -/
inductive Effect (ρ : Type)
  | callback (outcome : Outcome ρ)
  | selectServer (selector : ServerSelector)
  | execute (outcome : Outcome ρ)
  | unpin (forceClear : Bool)
  | willRetryWrite

/-- The answers to the questions of a run, in order. -/
structure Answers (ρ : Type) where
  selection : Nat → Except AnyError Server
  attempt : Nat → Outcome ρ
  session : ExecutionSession := {}

variable {ρ : Type}

/-- The effects of a program that has had `selections` and `attempts` answers so far. -/
def Prog.run (answers : Answers ρ) : Prog ρ → (selections attempts : Nat) → List (Effect ρ)
  | .done, _, _ => []
  | .callback outcome next, s, a => .callback outcome :: next.run answers s a
  | .selectServer selector next, s, a => .selectServer selector :: (next (answers.selection s)).run answers (s + 1) a
  | .execute _ next, s, a => .execute (answers.attempt a) :: (next (answers.attempt a)).run answers s (a + 1)
  | .readSession next, s, a => (next answers.session).run answers s a
  | .unpin forceClear next, s, a => .unpin forceClear :: next.run answers s a
  | .willRetryWrite next, s, a => .willRetryWrite :: next.run answers s a

/-! ## The source functions -/

def mmapv1RetryWritesErrorCode : Int := MongoErrorCodes.illegalOperation

def mmapv1RetryWritesError : AnyError :=
  { cls := .mongoServerError
    message := "This MongoDB deployment does not support retryable writes. Please add retryWrites=false to your " ++
      "connection string." }

def transactionReadPreference (mode : String) : AnyError :=
  { cls := .mongoTransactionError, message := "Read preference in a transaction must be primary, not: " ++ mode }

def supportsRetryableReads (server : Server) : Bool := maxWireVersion server ≥ 6

def shouldRetryWrite (err : AnyError) : Bool := err.isMongoError && err.hasErrorLabel "RetryableWriteError"

/-- The server cannot retry the operation. -/
def cannotRetry (op : AbstractOperation) (server : Server) : Bool :=
  (op.hasAspect .readOperation && !supportsRetryableReads server) ||
    (op.hasAspect .writeOperation && !supportsRetryableWrites server)

/-- The first attempt's error is final. -/
def isFinal (op : AbstractOperation) (err : AnyError) : Bool :=
  (op.hasAspect .readOperation && !err.isRetryableError) || (op.hasAspect .writeOperation && !shouldRetryWrite err)

/-- The error tells that the storage engine knows no transaction numbers. Its `errmsg` is its message. -/
def isMMAPv1Error (op : AbstractOperation) (err : AnyError) : Bool :=
  op.hasAspect .writeOperation && shouldRetryWrite err && err.code = some mmapv1RetryWritesErrorCode &&
    err.mentions "Transaction numbers"

/-- The selection callback of the retry. When the server cannot retry the operation, the callback is
called with the error of the selection, which there is none of. -/
def retryOn (op : AbstractOperation) (session : Option ExecutionSession) (err : AnyError) :
    Except AnyError Server → Prog ρ
  | .error e => .callback { error := some e } .done
  | .ok server =>
    if cannotRetry op server then .callback { error := none } .done
    else
      let attempt : Prog ρ := .execute server fun o => .callback o .done
      if err.isNetworkError && server.loadBalanced && session.isSome then
        .readSession fun s =>
          if s.isPinned && !s.inTransaction && op.hasAspect .cursorCreating then .unpin true attempt else attempt
      else attempt

/-- `callbackWithRetry(err, result)`. -/
def callbackWithRetry (op : AbstractOperation) (session : Option ExecutionSession) (selector : ServerSelector)
    (o : Outcome ρ) : Prog ρ :=
  match o.error with
  | none => .callback { result := o.result } .done
  | some err =>
    if isFinal op err then .callback { error := some err } .done
    else if isMMAPv1Error op err then .callback { error := some mmapv1RetryWritesError } .done
    else .selectServer selector (retryOn op session err)

/-- The first attempt on this server will be retried: as a read, as a write. -/
def willRetryRead (options : RetryOptions) (session : ExecutionSession) (op : AbstractOperation) (server : Server) :
    Bool :=
  options.retryReads ≠ some false && !session.inTransaction && supportsRetryableReads server && op.canRetryRead

def willRetryWrite (options : RetryOptions) (session : ExecutionSession) (op : AbstractOperation) (server : Server) :
    Bool :=
  options.retryWrites = some true && !session.inTransaction && supportsRetryableWrites server && op.canRetryWrite

def willRetry (options : RetryOptions) (session : ExecutionSession) (op : AbstractOperation) (server : Server) : Bool :=
  op.hasAspect .retryable &&
    ((op.hasAspect .readOperation && willRetryRead options session op server) ||
      (op.hasAspect .writeOperation && willRetryWrite options session op server))

/-- The first selection callback. -/
def executeOn (options : RetryOptions) (session : Option ExecutionSession) (op : AbstractOperation)
    (selector : ServerSelector) : Except AnyError Server → Prog ρ
  | .error err => .callback { error := some err } .done
  | .ok server =>
    match session with
    | none => .execute server fun o => .callback o .done
    | some s =>
      if willRetry options s op server then
        let attempt : Prog ρ := .execute server (callbackWithRetry op session selector)
        if op.hasAspect .writeOperation && willRetryWrite options s op server then .willRetryWrite attempt else attempt
      else .execute server fun o => .callback o .done

/-- `executeWithServerSelection`. The read preference of a transaction is checked a second time after
the selector was chosen, where the first check has already returned. -/
def executeWithServerSelection (options : RetryOptions) (session : Option ExecutionSession) (op : AbstractOperation) :
    Prog ρ :=
  let readPreference := op.readPreference.getD "primary"
  let inTransaction := session.any (·.inTransaction)
  if inTransaction && readPreference ≠ "primary" then
    .callback { error := some (transactionReadPreference readPreference) } .done
  else
    let selector : ServerSelector :=
      if op.hasAspect .cursorIterating then .sameServer
      else if op.trySecondaryWrite then .secondaryWritable readPreference
      else .readPreference readPreference
    let select : Prog ρ :=
      if readPreference ≠ "primary" && inTransaction then
        .callback { error := some (transactionReadPreference readPreference) } .done
      else .selectServer selector (executeOn options session op selector)
    if session.any (fun s => s.isPinned && s.isCommitted) && !op.bypassPinningCheck then .unpin false select
    else select

/-! ## What a run delivers -/

/-- The outcomes of the attempts of a run. -/
def attempts (effects : List (Effect ρ)) : List (Outcome ρ) :=
  effects.filterMap fun
    | .execute outcome => some outcome
    | _ => none

/-- What the callback was called with. -/
def callbacks (effects : List (Effect ρ)) : List (Outcome ρ) :=
  effects.filterMap fun
    | .callback outcome => some outcome
    | _ => none

/-- At most two attempts, one call of the callback; when the first attempt failed it receives an error
or the result of a second attempt that succeeded, and it is told success only when an attempt
succeeded. -/
structure Delivers (tried called : List (Outcome ρ)) : Prop where
  twice : tried.length ≤ 2
  once : called.length = 1
  retried : ∀ first rest, tried = first :: rest → first.error.isSome →
    ∀ o ∈ called, o.error.isSome ∨ ∃ second, rest = [second] ∧ second.error = none ∧ o = second
  honest : ∀ o ∈ called, o.error = none → ∃ a ∈ tried, a.error = none

section Traces

variable {first : Outcome ρ} {err : AnyError}

/-- An error passed on, before or after a failed attempt. -/
theorem delivers_error (tried : List (Outcome ρ)) (err : AnyError) (h : tried.length ≤ 1) :
    Delivers tried [{ error := some err }] := by
  refine ⟨by omega, rfl, ?_, ?_⟩
  · intro _ _ _ _ o ho
    obtain rfl := List.mem_singleton.1 ho
    exact .inl rfl
  · intro o ho hn
    obtain rfl := List.mem_singleton.1 ho
    cases hn

/-- The outcome of the only attempt passed on. -/
theorem delivers_first {o : Outcome ρ} (h : o.error = first.error) : Delivers [first] [o] := by
  refine ⟨by simp, rfl, ?_, ?_⟩
  · intro f rest hf hfail o' ho'
    obtain rfl := List.mem_singleton.1 ho'
    cases hf
    exact .inl (by rw [h]; exact hfail)
  · intro o' ho' hn
    obtain rfl := List.mem_singleton.1 ho'
    exact ⟨first, List.mem_singleton_self _, h.symm.trans hn⟩

/-- The outcome of the second attempt passed on. -/
theorem delivers_second (first second : Outcome ρ) : Delivers [first, second] [second] := by
  refine ⟨by simp, rfl, ?_, ?_⟩
  · intro f rest hf _ o ho
    obtain rfl := List.mem_singleton.1 ho
    cases hf
    cases hs : o.error with
    | none => exact .inr ⟨o, rfl, hs, rfl⟩
    | some e => exact .inl rfl
  · intro o ho hn
    obtain rfl := List.mem_singleton.1 ho
    exact ⟨o, by simp, hn⟩

/-- Success reported after a failed attempt. -/
theorem not_delivers (h : first.error = some err) : ¬ Delivers [first] [{ error := none }] := by
  intro hd
  obtain ⟨a, ha, hn⟩ := hd.honest _ (List.mem_singleton_self _) rfl
  obtain rfl := List.mem_singleton.1 ha
  rw [h] at hn; cases hn

end Traces

/-! ## The retry -/

/-- The first attempt failed with an error that is retried, and the server selected for the retry
cannot retry the operation. -/
def MeetsUnable (op : AbstractOperation) (first : Outcome ρ) (selection : Except AnyError Server) : Prop :=
  ∃ err server, first.error = some err ∧ isFinal op err = false ∧ isMMAPv1Error op err = false ∧
    selection = .ok server ∧ cannotRetry op server = true

section Programs

variable (answers : Answers ρ)

theorem run_retryOn_able {op : AbstractOperation} {server : Server} (session : Option ExecutionSession) (err : AnyError)
    (h : cannotRetry op server = false) (s a : Nat) :
    attempts ((retryOn op session err (.ok server)).run answers s a) = [answers.attempt a] ∧
      callbacks ((retryOn op session err (.ok server)).run answers s a) = [answers.attempt a] := by
  unfold retryOn
  simp only [h, Bool.false_eq_true, if_false]
  -- unpinning the session is no attempt and no callback
  split
  · simp only [Prog.run]
    split <;> exact ⟨rfl, rfl⟩
  · exact ⟨rfl, rfl⟩

/-- The selection callback of the retry, after a failed attempt. -/
theorem retryOn_delivers (op : AbstractOperation) (session : Option ExecutionSession) {first : Outcome ρ}
    {err : AnyError} (herr : first.error = some err) (selection : Except AnyError Server) (s a : Nat) :
    Delivers (first :: attempts ((retryOn op session err selection).run answers s a))
        (callbacks ((retryOn op session err selection).run answers s a)) ↔
      ¬ ∃ server, selection = .ok server ∧ cannotRetry op server = true := by
  cases selection with
  | error e =>
    refine iff_of_true (delivers_error [first] e (Nat.le_refl 1)) ?_
    rintro ⟨server, hs, -⟩
    cases hs
  | ok server =>
    cases hcan : cannotRetry op server with
    | true =>
      refine iff_of_false ?_ (not_not.2 ⟨server, rfl, hcan⟩)
      have hrun : (retryOn op session err (.ok server)).run answers s a = [.callback { error := none }] := by
        simp only [retryOn, hcan, if_true]; rfl
      rw [hrun]
      exact not_delivers herr
    | false =>
      obtain ⟨ht, hc⟩ := run_retryOn_able answers session err hcan s a
      rw [ht, hc]
      refine iff_of_true (delivers_second first _) ?_
      rintro ⟨server', hs, hcan'⟩
      cases hs
      rw [hcan] at hcan'; cases hcan'

/-- The callback with retry, after the first attempt: right unless the second server is found and
cannot retry the operation. -/
theorem callbackWithRetry_delivers (op : AbstractOperation) (session : Option ExecutionSession)
    (selector : ServerSelector) (first : Outcome ρ) (s a : Nat) :
    Delivers (first :: attempts ((callbackWithRetry op session selector first).run answers s a))
        (callbacks ((callbackWithRetry op session selector first).run answers s a)) ↔
      ¬ MeetsUnable op first (answers.selection s) := by
  unfold callbackWithRetry MeetsUnable
  cases herr : first.error with
  | none =>
    refine iff_of_true (delivers_first herr.symm) ?_
    rintro ⟨err, server, he, -⟩
    cases he
  | some err =>
    simp only
    by_cases hfinal : isFinal op err = true
    · rw [if_pos hfinal]
      refine iff_of_true (delivers_error [first] err (Nat.le_refl 1)) ?_
      rintro ⟨err', server, he, hf, -⟩
      cases he
      rw [hfinal] at hf; cases hf
    rw [if_neg hfinal]
    by_cases hmmap : isMMAPv1Error op err = true
    · rw [if_pos hmmap]
      refine iff_of_true (delivers_error [first] mmapv1RetryWritesError (Nat.le_refl 1)) ?_
      rintro ⟨err', server, he, -, hm, -⟩
      cases he
      rw [hmmap] at hm; cases hm
    rw [if_neg hmmap]
    -- what is left is the selection for the retry, whose effect is neither attempt nor callback
    refine (retryOn_delivers answers op session herr (answers.selection s) (s + 1) a).trans (not_congr ?_)
    constructor
    · rintro ⟨server, hs, hcan⟩
      exact ⟨err, server, rfl, by simpa using hfinal, by simpa using hmmap, hs, hcan⟩
    · rintro ⟨err', server, -, -, -, hs, hcan⟩
      exact ⟨server, hs, hcan⟩

end Programs

/-! ## The whole run -/

/-- The operation is tried on a server on which it will be retried, and the retry meets a server that
cannot retry it. -/
def RetryMeetsUnable (options : RetryOptions) (session : Option ExecutionSession) (op : AbstractOperation)
    (answers : Answers ρ) : Prop :=
  ∃ s server, session = some s ∧ answers.selection 0 = .ok server ∧ willRetry options s op server = true ∧
    MeetsUnable op (answers.attempt 0) (answers.selection 1)

/-- The first attempt, when it will be retried. -/
theorem run_firstAttempt (options : RetryOptions) (s : ExecutionSession) (op : AbstractOperation)
    (selector : ServerSelector) (server : Server) (answers : Answers ρ)
    (h : willRetry options s op server = true) :
    attempts ((executeOn options (some s) op selector (.ok server)).run answers 1 0) = answers.attempt 0 ::
        attempts ((callbackWithRetry op (some s) selector (answers.attempt 0)).run answers 1 1) ∧
      callbacks ((executeOn options (some s) op selector (.ok server)).run answers 1 0) =
        callbacks ((callbackWithRetry op (some s) selector (answers.attempt 0)).run answers 1 1) := by
  simp only [executeOn, h, if_true]
  split <;> exact ⟨rfl, rfl⟩

/-- The first selection callback, from the first attempt on. -/
theorem executeOn_delivers (options : RetryOptions) (session : Option ExecutionSession) (op : AbstractOperation)
    (selector : ServerSelector) (answers : Answers ρ) :
    Delivers (attempts ((executeOn options session op selector (answers.selection 0)).run answers 1 0))
        (callbacks ((executeOn options session op selector (answers.selection 0)).run answers 1 0)) ↔
      ¬ RetryMeetsUnable options session op answers := by
  unfold RetryMeetsUnable
  cases hsel : answers.selection 0 with
  | error e =>
    refine iff_of_true (delivers_error [] e (Nat.zero_le 1)) ?_
    rintro ⟨s, server, -, hs, -⟩
    cases hs
  | ok server =>
    cases session with
    | none =>
      refine iff_of_true (delivers_first rfl) ?_
      rintro ⟨s, server, hs, -⟩
      cases hs
    | some s =>
      by_cases hretry : willRetry options s op server = true
      · obtain ⟨ht, hc⟩ := run_firstAttempt options s op selector server answers hretry
        rw [ht, hc, callbackWithRetry_delivers]
        refine not_congr ⟨fun hm => ⟨s, server, rfl, rfl, hretry, hm⟩, ?_⟩
        rintro ⟨_, _, -, -, -, hm⟩
        exact hm
      · simp only [executeOn, hretry]
        refine iff_of_true (delivers_first rfl) ?_
        rintro ⟨s', server', hs, hsrv, hr, -⟩
        cases hs; cases hsrv
        exact hretry hr

/-- For every operation, session, options and answers: there are at most two attempts, one callback,
and the callback is told the truth, exactly when the retry does not meet a server unable to retry. -/
theorem executeWithServerSelection_delivers (options : RetryOptions) (session : Option ExecutionSession)
    (op : AbstractOperation) (answers : Answers ρ) :
    Delivers (attempts ((executeWithServerSelection options session op).run answers 0 0))
        (callbacks ((executeWithServerSelection options session op).run answers 0 0)) ↔
      ¬ RetryMeetsUnable options session op answers := by
  unfold executeWithServerSelection
  simp only
  by_cases hpref : (session.any (·.inTransaction) && decide (op.readPreference.getD "primary" ≠ "primary")) = true
  · rw [if_pos hpref]
    refine iff_of_true (delivers_error [] _ (Nat.zero_le 1)) ?_
    rintro ⟨s, server, rfl, -, hretry, -⟩
    -- nothing is retried in a transaction
    have htx : s.inTransaction = true := by
      simp only [Option.any_some, Bool.and_eq_true] at hpref
      exact hpref.1
    simp [willRetry, willRetryRead, willRetryWrite, htx] at hretry
  · have hpref' : ¬ (decide (op.readPreference.getD "primary" ≠ "primary") && session.any (·.inTransaction)) =
      true := by
      rw [Bool.and_comm]; exact hpref
    rw [if_neg hpref, if_neg hpref']
    generalize hsel : (if op.hasAspect .cursorIterating = true then ServerSelector.sameServer
      else if op.trySecondaryWrite = true then .secondaryWritable (op.readPreference.getD "primary")
      else .readPreference (op.readPreference.getD "primary")) = selector
    split
    · exact executeOn_delivers options session op selector answers
    · exact executeOn_delivers options session op selector answers

/-! ## An election between the attempts -/

section Failing

private def steppedDown : AnyError where
  cls := .mongoServerError
  message := "not primary"
  code := some MongoErrorCodes.notWritablePrimary
  errorLabels := ["RetryableWriteError"]

private def member (type : Sdam.ServerType) : Server where
  hostAddress := .tcp "a" 27017 false
  description := { address := "a:27017", type, maxWireVersion := 9, logicalSessionTimeoutMinutes := some 30 }

/-- A retryable insert in an implicit session. -/
private def insertOne : AbstractOperation where
  aspects := [.retryable, .writeOperation]

/-- The first server steps down, and the address has become a standalone at the retry. -/
private def replacedByStandalone : Answers Unit where
  selection n := .ok (member (if n = 0 then .rsPrimary else .standalone))
  attempt _ := { error := some steppedDown }

/-- The only attempt of a write fails and the callback is told success. -/
theorem unable_retry_reports_success :
    callbacks ((executeWithServerSelection { retryWrites := some true } (some {}) insertOne).run replacedByStandalone
        0 0) = [{ error := none }] ∧
      ¬ Delivers
        (attempts ((executeWithServerSelection { retryWrites := some true } (some {})
          insertOne).run replacedByStandalone
          0 0))
        (callbacks ((executeWithServerSelection { retryWrites := some true } (some {}) insertOne).run
          replacedByStandalone 0 0)) := by
  have hcalled : callbacks ((executeWithServerSelection { retryWrites := some true } (some {}) insertOne).run
      replacedByStandalone 0 0) = [{ error := none }] := by decide
  have htried : attempts ((executeWithServerSelection { retryWrites := some true } (some {}) insertOne).run
      replacedByStandalone 0 0) = [{ error := some steppedDown }] := by decide
  refine ⟨hcalled, ?_⟩
  rw [hcalled, htried]
  exact not_delivers rfl

end Failing

end MongoDriver.Operations
