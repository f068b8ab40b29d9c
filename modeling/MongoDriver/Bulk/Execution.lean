/-
Execution of the batches of a bulk (`executeCommands`, `mergeBatchResults` and `handleWriteError` of
`src/bulk/common.ts`, `unordered.ts`), with the part of `messageHandler` (`src/cmap/connection.ts`) that turns a reply
into an error. Write errors stay in the reply and are merged; a write-concern error becomes an exception of the
connection, which ends the execution at once. So an unordered bulk sends all its batches exactly when no reply but the
last has a write-concern error.
-/
import MongoDriver.Base.Long
import MongoDriver.Bulk.Common
import Mathlib.Data.List.Basic

namespace MongoDriver.Bulk

open Bson (Long LongLike)

variable {δ ι : Type}

/-! ## Replies and results -/

/-- `WriteConcernErrorData`. -/
structure WriteConcernErrorData (δ : Type) where
  code : Int
  errmsg : String
  errInfo : Option δ := none
deriving DecidableEq

/-- An element of `writeErrors` in a reply; its index is that in the batch. -/
structure ServerWriteError (δ : Type) where
  index : Nat
  code : Int
  errmsg : Option String := none
  errInfo : Option δ := none
deriving DecidableEq

/-- `lastOp` or `opTime` of a reply. -/
inductive OpTime
  | timestamp (ts : BitVec 64)
  | object (ts t : LongLike)
deriving DecidableEq

/-- `upserted` of a reply: the upserted documents with their index in the batch, or one `_id`. -/
inductive Upserted (ι : Type)
  | many (docs : List (Nat × ι))
  | one (id : ι)
deriving DecidableEq

/-- The reply to a write command. `ok` tells that it is not zero; counts that are missing are zero. -/
structure Reply (δ ι : Type) where
  ok : Bool := true
  err : Option String := none
  errmsg : Option String := none
  message : Option String := none
  code : Option Int := none
  errInfo : Option δ := none
  n : Nat := 0
  nModified : Option Nat := none
  upserted : Option (Upserted ι) := none
  writeErrors : List (ServerWriteError δ) := []
  writeConcernError : Option (WriteConcernErrorData δ) := none
  opTime : Option OpTime := none
  lastOp : Option OpTime := none

/-- `WriteError`, with the index and the operation in the bulk. -/
structure WriteError (δ : Type) where
  index : Option Nat
  code : Int
  errmsg : Option String
  errInfo : Option δ
  op : Option δ
deriving DecidableEq

/-- `BulkResult`; an operation time is kept as its parts. -/
structure BulkResult (δ ι : Type) where
  ok : Bool := true
  writeErrors : List (WriteError δ) := []
  writeConcernErrors : List (WriteConcernErrorData δ) := []
  nInserted : Nat := 0
  nUpserted : Nat := 0
  nMatched : Int := 0
  nModified : Nat := 0
  nRemoved : Nat := 0
  upserted : List (Nat × ι) := []
  opTime : Option (LongLike × LongLike) := none

/-! ## Merging -/

section Merge

variable (batch : Batch δ)

/-- A timestamp has the term zero. -/
def OpTime.parts : OpTime → LongLike × LongLike
  | .timestamp ts => (.timestamp ts, .long Long.zero)
  | .object ts t => (ts, t)

/-- The later operation time, by `ts` and then by `t`. -/
def laterOpTime (last : Option (LongLike × LongLike)) (opTime : LongLike × LongLike) : Option (LongLike × LongLike) :=
  match last with
  | none => some opTime
  | some last =>
    if opTime.1.toLong.greaterThan last.1.toLong then some opTime
    else if opTime.1.toLong.equals last.1.toLong then
      if opTime.2.toLong.greaterThan last.2.toLong then some opTime else some last
    else some last

/-- The upserted documents of a reply, under their index in the bulk. -/
def upsertedOf : Option (Upserted ι) → List (Nat × ι)
  | none => []
  | some (.many docs) => docs.map fun d => (d.1 + batch.originalZeroIndex, d.2)
  | some (.one id) => [(batch.originalZeroIndex, id)]

/-- A write error of a reply, under its index in the bulk. -/
def writeErrorOf (e : ServerWriteError δ) : WriteError δ where
  index := batch.originalIndexes[e.index]?
  code := e.code
  errmsg := e.errmsg
  errInfo := e.errInfo
  op := batch.operations[e.index]?

/-- The counts of a reply. -/
def mergeCounts (result : Reply δ ι) (bulkResult : BulkResult δ ι) : BulkResult δ ι :=
  let upserted := upsertedOf batch result.upserted
  let bulkResult := { bulkResult with upserted := bulkResult.upserted ++ upserted }
  if result.n = 0 then bulkResult
  else match batch.batchType with
    | .insert => { bulkResult with nInserted := bulkResult.nInserted + result.n }
    | .delete => { bulkResult with nRemoved := bulkResult.nRemoved + result.n }
    | .update => { bulkResult with
        nUpserted := bulkResult.nUpserted + upserted.length
        nMatched := bulkResult.nMatched + (result.n - upserted.length)
        -- a reply without the count resets it
        nModified := result.nModified.elim 0 (bulkResult.nModified + ·) }

/-- `mergeBatchResults` of a reply. -/
def mergeBatchResults (bulkResult : BulkResult δ ι) (result : Reply δ ι) : BulkResult δ ι :=
  if result.ok = false then
    if bulkResult.ok then { bulkResult with
      ok := false
      writeErrors := bulkResult.writeErrors ++ [{
        index := some 0
        code := result.code.getD 0
        errmsg := result.message
        errInfo := result.errInfo
        op := batch.operations[0]? }] }
    else bulkResult
  else
    let opTime := match result.lastOp <|> result.opTime with
      | none => bulkResult.opTime
      | some opTime => laterOpTime bulkResult.opTime opTime.parts
    let bulkResult := mergeCounts batch result { bulkResult with opTime }
    { bulkResult with
      writeErrors := bulkResult.writeErrors ++ result.writeErrors.map (writeErrorOf batch)
      writeConcernErrors := bulkResult.writeConcernErrors ++ result.writeConcernError.toList }

end Merge

/-! ## Errors -/

/-- What a `MongoBulkWriteError` is made from. -/
structure BulkWriteError (δ : Type) where
  message : Option String
  code : Option Int := none
  writeErrors : List (WriteError δ) := []
  err : Option (WriteConcernErrorData δ) := none

/-- `BulkWriteResult.getWriteConcernError`, which combines several. -/
def BulkResult.getWriteConcernError (bulkResult : BulkResult δ ι) : Option (WriteConcernErrorData δ) :=
  match bulkResult.writeConcernErrors with
  | [] => none
  | [e] => some e
  | e :: es => some { code := 64, errmsg := e.errmsg ++ " and " ++ String.join (es.map (·.errmsg)) }

/-- `BulkOperationBase.handleWriteError`: the error it calls back with. -/
def handleWriteErrorBase (bulkResult : BulkResult δ ι) : Option (BulkWriteError δ) :=
  match bulkResult.writeErrors with
  | e :: _ => some {
      message := some (((e.errmsg.filter (· ≠ "")).getD "write operation failed"))
      code := some e.code
      writeErrors := bulkResult.writeErrors }
  | [] => bulkResult.getWriteConcernError.map fun e => { message := some e.errmsg, code := some e.code, err := some e }

/-- `handleWriteError`: an unordered bulk waits for its last batch. -/
def handleWriteError (isOrdered : Bool) (remaining : Nat) (bulkResult : BulkResult δ ι) : Option (BulkWriteError δ) :=
  if !isOrdered && remaining ≠ 0 then none else handleWriteErrorBase bulkResult

/-- `makeWriteConcernResultObject`. -/
def makeWriteConcernResultObject (input : Reply δ ι) : Reply δ ι :=
  if input.ok = false then { input with ok := true, errmsg := none, code := none } else input

/-- The message of a `MongoServerError`. -/
def Reply.errorMessage (reply : Reply δ ι) : String :=
  (reply.message.filter (· ≠ "") <|> reply.errmsg.filter (· ≠ "") <|> reply.err.filter (· ≠ "")).getD "n/a"

/-- What the callback of a command gets. -/
inductive Delivered (δ ι : Type)
  | writeConcernError (error : WriteConcernErrorData δ) (result : Reply δ ι)
  | serverError (reply : Reply δ ι)
  | result (reply : Reply δ ι)

/-- The end of `messageHandler`, for the reply to a command. -/
def messageHandler (reply : Reply δ ι) : Delivered δ ι :=
  match reply.writeConcernError with
  | some e => .writeConcernError e (makeWriteConcernResultObject reply)
  | none =>
    if reply.ok = false || reply.err.any (· ≠ "") || reply.errmsg.any (· ≠ "") || reply.code.any (· ≠ 0) then
      .serverError reply
    else .result reply

/-! ## Execution -/

/-- What `executeCommands` does: a batch is sent, or the caller called back. -/
inductive Action (δ ι : Type)
  | send (batch : Batch δ)
  | callback (error : Option (BulkWriteError δ)) (result : BulkResult δ ι)

/-- `executeCommands`, for batches with the reply that each gets if it is sent. -/
def executeCommands (isOrdered : Bool) : List (Batch δ × Reply δ ι) → BulkResult δ ι → List (Action δ ι)
  | [], bulkResult => [.callback none bulkResult]
  | (batch, reply) :: rest, bulkResult =>
    .send batch ::
      match messageHandler reply with
      | .serverError reply =>
        [.callback (some { message := some reply.errorMessage, code := reply.code }) bulkResult]
      -- `handleMongoWriteConcernError`: the code is read from a field that does not exist
      | .writeConcernError error result =>
        [.callback (some { message := some error.errmsg }) (mergeBatchResults batch bulkResult result)]
      | .result reply =>
        let bulkResult := mergeBatchResults batch bulkResult reply
        match handleWriteError isOrdered rest.length bulkResult with
        | some error => [.callback (some error) bulkResult]
        | none => executeCommands isOrdered rest bulkResult

/-- The batches that were sent. -/
def sends (actions : List (Action δ ι)) : List (Batch δ) :=
  actions.filterMap fun
    | .send batch => some batch
    | .callback _ _ => none

/-- What the caller was called back with. -/
def callbacks (actions : List (Action δ ι)) : List (Option (BulkWriteError δ) × BulkResult δ ι) :=
  actions.filterMap fun
    | .send _ => none
    | .callback error result => some (error, result)

/-- Every reply, merged. -/
def merged (work : List (Batch δ × Reply δ ι)) (bulkResult : BulkResult δ ι) : BulkResult δ ι :=
  work.foldl (fun bulkResult w => mergeBatchResults w.1 bulkResult w.2) bulkResult

/-- The reply is that of a command that ran: it has no error but in `writeErrors` and `writeConcernError`. -/
structure Reply.Ran (reply : Reply δ ι) : Prop where
  ok : reply.ok = true
  err : reply.err = none
  errmsg : reply.errmsg = none
  code : reply.code = none

/-- The reply reports a failure. -/
def Reply.Fails (reply : Reply δ ι) : Prop := reply.writeErrors ≠ [] ∨ reply.writeConcernError ≠ none

/-- Every batch was sent once, and at the end the caller was called back once, with every reply merged, and with an
error when a reply reported one. -/
structure ExecutesAll (work : List (Batch δ × Reply δ ι)) (actions : List (Action δ ι)) : Prop where
  sent : sends actions = work.map (·.1)
  calledBack : ∃ error, actions.getLast? = some (.callback error (merged work {})) ∧
    callbacks actions = [(error, merged work {})] ∧ (error.isSome ↔ ∃ w ∈ work, w.2.Fails)

/-! ## What one reply does -/

section Steps

variable {isOrdered : Bool} {batch : Batch δ} {reply : Reply δ ι} {rest : List (Batch δ × Reply δ ι)}
  {bulkResult : BulkResult δ ι}

theorem mergeCounts_errors (batch : Batch δ) (result : Reply δ ι) (bulkResult : BulkResult δ ι) :
    (mergeCounts batch result bulkResult).writeErrors = bulkResult.writeErrors ∧
      (mergeCounts batch result bulkResult).writeConcernErrors = bulkResult.writeConcernErrors := by
  unfold mergeCounts
  simp only
  split
  · exact ⟨rfl, rfl⟩
  · split <;> exact ⟨rfl, rfl⟩

/-- The errors after a reply was merged. -/
theorem merge_errors (h : reply.ok = true) :
    (mergeBatchResults batch bulkResult reply).writeErrors =
        bulkResult.writeErrors ++ reply.writeErrors.map (writeErrorOf batch) ∧
      (mergeBatchResults batch bulkResult reply).writeConcernErrors =
        bulkResult.writeConcernErrors ++ reply.writeConcernError.toList := by
  have hok : ¬ reply.ok = false := by simp [h]
  unfold mergeBatchResults
  rw [if_neg hok]
  simp only [mergeCounts_errors, and_self]

/-- There are write errors after a reply was merged, when there were some or the reply reports one. -/
theorem merge_writeErrors_ne_nil (h : reply.ok = true) (hnone : reply.writeConcernError = none) :
    (mergeBatchResults batch bulkResult reply).writeErrors ≠ [] ↔ bulkResult.writeErrors ≠ [] ∨ reply.Fails := by
  have hfails : reply.Fails ↔ reply.writeErrors ≠ [] := or_iff_left (by simp [hnone])
  rw [(merge_errors h).1, hfails, ne_eq, List.append_eq_nil_iff, List.map_eq_nil_iff, not_and_or]

theorem messageHandler_result (h : reply.Ran) (hnone : reply.writeConcernError = none) :
    messageHandler reply = .result reply := by
  simp [messageHandler, hnone, h.ok, h.err, h.errmsg, h.code]

theorem messageHandler_writeConcernError {e : WriteConcernErrorData δ} (h : reply.Ran)
    (hsome : reply.writeConcernError = some e) : messageHandler reply = .writeConcernError e reply := by
  simp [messageHandler, hsome, makeWriteConcernResultObject, h.ok]

/-- A write-concern error ends the execution. -/
theorem execute_stops {e : WriteConcernErrorData δ} (h : reply.Ran) (hsome : reply.writeConcernError = some e) :
    executeCommands isOrdered ((batch, reply) :: rest) bulkResult =
      [.send batch, .callback (some { message := some e.errmsg }) (mergeBatchResults batch bulkResult reply)] := by
  simp only [executeCommands, messageHandler_writeConcernError h hsome]

/-- Any other reply lets an unordered bulk go on while batches are left. -/
theorem execute_goes_on (h : reply.Ran) (hnone : reply.writeConcernError = none) (hrest : rest ≠ []) :
    executeCommands false ((batch, reply) :: rest) bulkResult =
      .send batch :: executeCommands false rest (mergeBatchResults batch bulkResult reply) := by
  have hlen : rest.length ≠ 0 := fun h => hrest (List.length_eq_zero_iff.1 h)
  simp [executeCommands, messageHandler_result h hnone, handleWriteError, hlen]

/-- After the last batch the write errors of all batches decide. -/
theorem execute_last (batch : Batch δ) (h : reply.Ran) (hnone : reply.writeConcernError = none)
    (hwce : bulkResult.writeConcernErrors = []) :
    ∃ error, executeCommands false [(batch, reply)] bulkResult =
        [.send batch, .callback error (mergeBatchResults batch bulkResult reply)] ∧
      (error.isSome ↔ (mergeBatchResults batch bulkResult reply).writeErrors ≠ []) := by
  have hconcern : (mergeBatchResults batch bulkResult reply).writeConcernErrors = [] := by
    rw [(merge_errors h.ok).2, hwce, hnone]
    rfl
  simp only [executeCommands, messageHandler_result h hnone, handleWriteError, List.length_nil,
    ne_eq, not_true_eq_false, decide_false, Bool.and_false, Bool.false_eq_true, if_false, handleWriteErrorBase]
  cases hwe : (mergeBatchResults batch bulkResult reply).writeErrors with
  | nil =>
    refine ⟨none, ?_, by simp⟩
    simp [BulkResult.getWriteConcernError, hconcern]
  | cons e es => exact ⟨_, rfl, by simp⟩

end Steps

/-! ## Whole executions -/

/-- An unordered bulk, from a result without write-concern errors, when only the last reply may report one. -/
theorem unordered_executes_all : ∀ (work : List (Batch δ × Reply δ ι)) (bulkResult : BulkResult δ ι),
    (∀ w ∈ work, w.2.Ran) → (∀ w ∈ work.dropLast, w.2.writeConcernError = none) → bulkResult.writeConcernErrors = [] →
    (work = [] → bulkResult.writeErrors = []) →
    ∃ error, executeCommands false work bulkResult =
        work.map (fun w => .send w.1) ++ [.callback error (merged work bulkResult)] ∧
      (error.isSome ↔ bulkResult.writeErrors ≠ [] ∨ ∃ w ∈ work, w.2.Fails)
  | [], bulkResult, _, _, _, hempty => ⟨none, rfl, by simp [hempty]⟩
  | [(batch, reply)], bulkResult, hran, _, hwce, _ => by
    have hr := hran (batch, reply) (List.mem_singleton_self _)
    simp only [List.mem_singleton, exists_eq_left]
    cases hsome : reply.writeConcernError with
    | some e =>
      have hfails : reply.Fails := .inr (by simp [hsome])
      exact ⟨_, execute_stops hr hsome, iff_of_true rfl (.inr hfails)⟩
    | none =>
      obtain ⟨error, hexec, herror⟩ := execute_last batch hr hsome hwce
      exact ⟨error, hexec, herror.trans (merge_writeErrors_ne_nil hr.ok hsome)⟩
  | (batch, reply) :: next :: rest, bulkResult, hran, hconcern, hwce, _ => by
    have hr := hran (batch, reply) (List.mem_cons_self ..)
    have hnone : reply.writeConcernError = none := hconcern (batch, reply) (by simp [List.dropLast])
    have hconcerns : (mergeBatchResults batch bulkResult reply).writeConcernErrors = [] := by
      rw [(merge_errors hr.ok).2, hwce, hnone]
      rfl
    obtain ⟨error, hexec, herror⟩ := unordered_executes_all (next :: rest) (mergeBatchResults batch bulkResult reply)
      (fun w hw => hran w (List.mem_cons_of_mem _ hw))
      (fun w hw => hconcern w (List.mem_cons_of_mem _ hw)) hconcerns (fun h => (by cases h))
    refine ⟨error, ?_, ?_⟩
    · rw [execute_goes_on hr hnone (List.cons_ne_nil _ _), hexec]
      rfl
    · rw [herror, merge_writeErrors_ne_nil hr.ok hnone, or_assoc, List.exists_mem_cons_iff _ (batch, reply)]

/-- An execution that sends every batch has met no write-concern error before the last one. -/
theorem no_concern_of_sent : ∀ (work : List (Batch δ × Reply δ ι)) (bulkResult : BulkResult δ ι),
    (∀ w ∈ work, w.2.Ran) → sends (executeCommands false work bulkResult) = work.map (·.1) →
    ∀ w ∈ work.dropLast, w.2.writeConcernError = none
  | [], _, _, _ => fun w hw => (by cases hw)
  | [_], _, _, _ => fun w hw => (by cases hw)
  | (batch, reply) :: next :: rest, bulkResult, hran, hsent => by
    have hr := hran (batch, reply) (List.mem_cons_self ..)
    cases hsome : reply.writeConcernError with
    | some e =>
      -- nothing is sent after it
      rw [execute_stops hr hsome] at hsent
      cases hsent
    | none =>
      rw [execute_goes_on hr hsome (List.cons_ne_nil _ _)] at hsent
      refine List.forall_mem_cons.2 ⟨hsome, ?_⟩
      exact no_concern_of_sent (next :: rest) _ (fun w hw => hran w (List.mem_cons_of_mem _ hw)) (List.cons.inj hsent).2

theorem sends_all (work : List (Batch δ × Reply δ ι)) (error : Option (BulkWriteError δ)) (result : BulkResult δ ι) :
    sends (work.map (fun w => Action.send w.1) ++ [.callback error result]) = work.map (·.1) := by
  simp [sends, List.filterMap_append, List.filterMap_map]

theorem callbacks_all (work : List (Batch δ × Reply δ ι)) (error : Option (BulkWriteError δ))
    (result : BulkResult δ ι) :
    callbacks (work.map (fun w => Action.send w.1) ++ [.callback error result]) = [(error, result)] := by
  simp [callbacks, List.filterMap_append, List.filterMap_map]

/-- For every list of batches and the replies they get, write errors and write-concern errors included: an unordered
bulk sends every batch once, merges every reply and calls back once at the end, with an error exactly when a reply
reports one; this holds exactly when no reply but the last has a write-concern error. -/
theorem unordered_execution_iff (work : List (Batch δ × Reply δ ι)) (hran : ∀ w ∈ work, w.2.Ran) :
    ExecutesAll work (executeCommands false work {}) ↔ ∀ w ∈ work.dropLast, w.2.writeConcernError = none := by
  constructor
  · intro h
    exact no_concern_of_sent work {} hran h.sent
  · intro hconcern
    obtain ⟨error, hexec, herror⟩ := unordered_executes_all work {} hran hconcern rfl fun _ => rfl
    rw [hexec]
    refine ⟨sends_all work error _, error, by simp, callbacks_all work error _, herror.trans ?_⟩
    exact or_iff_right fun hne => hne rfl

/-! ## Two batches -/

section Runs

private def inserts : Batch Nat :=
  { batchType := .insert, originalZeroIndex := 0, originalIndexes := [0], operations := [10] }

private def deletes : Batch Nat :=
  { batchType := .delete, originalZeroIndex := 1, originalIndexes := [1], operations := [20] }

private def notReplicated : WriteConcernErrorData Nat := { code := 64, errmsg := "waiting for replication timed out" }

/-- The first batch has a write error and the second a write-concern error. -/
private def lastConcern : List (Batch Nat × Reply Nat Nat) :=
  [(inserts, { writeErrors := [{ index := 0, code := 11000 }] }),
    (deletes, { n := 1, writeConcernError := notReplicated })]

theorem lastConcern_executes_all : (∀ w ∈ lastConcern, w.2.Ran) ∧
    ExecutesAll lastConcern (executeCommands false lastConcern {}) := by
  have hran : ∀ w ∈ lastConcern, w.2.Ran := by
    simp only [lastConcern, List.forall_mem_cons]
    exact ⟨⟨rfl, rfl, rfl, rfl⟩, ⟨rfl, rfl, rfl, rfl⟩, fun w hw => (by cases hw)⟩
  refine ⟨hran, (unordered_execution_iff lastConcern hran).2 ?_⟩
  simp [lastConcern]

/-- The first batch has a write-concern error. -/
private def firstConcern : List (Batch Nat × Reply Nat Nat) :=
  [(inserts, { n := 1, writeConcernError := notReplicated }), (deletes, { n := 1 })]

/-- The second batch is not sent. -/
theorem firstConcern_stops : sends (executeCommands false firstConcern {}) = [inserts] ∧
    firstConcern.map (·.1) = [inserts, deletes] ∧ (callbacks (executeCommands false firstConcern {})).length = 1 :=
  ⟨rfl, rfl, rfl⟩

end Runs

end MongoDriver.Bulk
