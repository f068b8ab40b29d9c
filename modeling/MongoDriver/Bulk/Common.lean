/-
Bulk operations (`src/bulk/common.ts`, `ordered.ts`, `unordered.ts`): the batches, the limits they are
cut by, adding an operation to an ordered or unordered bulk, and handing the batches to execution.
Batches are objects shared by reference: the list of saved batches and the current ones hold
references into a heap. A call returns the state it leaves also when it throws.
-/
import MongoDriver.Error

namespace MongoDriver.Bulk

/-! ## Batches and limits -/

/-- `BatchType`. -/
inductive BatchType
  | insert
  | update
  | delete
deriving DecidableEq, Repr

/-- `Batch`. -/
structure Batch (δ : Type) where
  batchType : BatchType
  originalZeroIndex : Nat
  originalIndexes : List Nat := []
  operations : List δ := []
  size : Nat := 0
  sizeBytes : Nat := 0
deriving DecidableEq

/-- What adding an operation asks of a document: its BSON size (which throws on what cannot be
serialised), whether it is an array, and its `_id`, with the document that has a given one. -/
structure Documents (δ ι : Type) where
  calculateObjectSize : δ → Except AnyError Nat
  isArray : δ → Bool
  id : δ → Option ι
  withId : δ → ι → δ

/-- The limits a bulk takes from the server's `hello`. -/
structure Limits where
  maxBsonObjectSize : Nat
  maxBatchSizeBytes : Nat
  maxWriteBatchSize : Nat
  maxKeySize : Nat

/-- The limits of a new bulk. A limit that is missing or zero has its default; with automatic
encryption batches are split at two megabytes. The largest key of an array is that of the last index. -/
def Limits.new (maxBsonObjectSize maxWriteBatchSize : Option Nat) (usingAutoEncryption : Bool) : Limits :=
  let bson := (maxBsonObjectSize.filter (· ≠ 0)).getD (1024 * 1024 * 16)
  let count := (maxWriteBatchSize.filter (· ≠ 0)).getD 1000
  { maxBsonObjectSize := bson
    maxBatchSizeBytes := if usingAutoEncryption then 1024 * 1024 * 2 else bson
    maxWriteBatchSize := count
    maxKeySize := (Nat.toDigits 10 (count - 1)).length + 2 }

/-- `BulkOperationPrivate`: the part that adding operations and `execute` use. -/
structure BulkOperationPrivate (δ ι : Type) where
  /-- the batches created so far; the other fields refer to them -/
  heap : List (Batch δ) := []
  currentBatch : Option Nat := none
  currentIndex : Nat := 0
  currentBatchSize : Nat := 0
  currentBatchSizeBytes : Nat := 0
  currentInsertBatch : Option Nat := none
  currentUpdateBatch : Option Nat := none
  currentRemoveBatch : Option Nat := none
  batches : List Nat := []
  /-- `bulkResult.insertedIds` -/
  insertedIds : List (Nat × Option ι) := []
  executed : Bool := false
deriving DecidableEq

/-- A call of `addToOperationsList`. -/
structure Call (δ : Type) where
  batchType : BatchType
  document : δ

variable {δ ι : Type}

namespace BulkOperationPrivate

variable (s : BulkOperationPrivate δ ι)

/-- The object the current batch refers to. -/
def current : Option (Batch δ) := s.currentBatch.bind (s.heap[·]?)

/-- `this.s.currentBatch = new Batch(batchType, this.s.currentIndex)`. -/
def newBatch (batchType : BatchType) : BulkOperationPrivate δ ι :=
  { s with
    heap := s.heap ++ [{ batchType, originalZeroIndex := s.currentIndex }]
    currentBatch := some s.heap.length }

/-- A new batch if there is no current one. -/
def ensureBatch (batchType : BatchType) : BulkOperationPrivate δ ι :=
  if s.currentBatch.isNone then s.newBatch batchType else s

/-- `this.s.batches.push(this.s.currentBatch)`. -/
def saveBatch : BulkOperationPrivate δ ι := { s with batches := s.batches ++ s.currentBatch.toList }

/-- An update of the current batch in place. -/
def modifyCurrent (f : Batch δ → Batch δ) : BulkOperationPrivate δ ι :=
  match s.currentBatch with
  | some r => { s with heap := s.heap.modify r f }
  | none => s

/-- The current batch of a type in an unordered bulk. -/
def batchOf : BatchType → Option Nat
  | .insert => s.currentInsertBatch
  | .update => s.currentUpdateBatch
  | .delete => s.currentRemoveBatch

def setBatchOf (batchType : BatchType) (r : Option Nat) : BulkOperationPrivate δ ι :=
  match batchType with
  | .insert => { s with currentInsertBatch := r }
  | .update => { s with currentUpdateBatch := r }
  | .delete => { s with currentRemoveBatch := r }

end BulkOperationPrivate

/-! ## Adding an operation -/

/-- The error of a document that is too large. -/
def documentTooLarge (limits : Limits) : AnyError :=
  { cls := .mongoInvalidArgumentError
    message := "Document is larger than the maximum size " ++ toString limits.maxBsonObjectSize }

def arrayPassedIn : AnyError :=
  { cls := .mongoInvalidArgumentError, message := "Operation passed in cannot be an Array" }

/-- An operation starts a new batch: by count, by bytes when the batch has an operation, or by type. -/
def needsNewBatch (limits : Limits) (size sizeBytes bsonSize : Nat) (current batchType : BatchType) : Bool :=
  size + 1 ≥ limits.maxWriteBatchSize ||
    (size > 0 && sizeBytes + limits.maxKeySize + bsonSize ≥ limits.maxBatchSizeBytes) || current ≠ batchType

section Add

variable (docs : Documents δ ι) (limits : Limits)

/-- The outcome of a call: the state it leaves and what it throws. -/
abbrev Added (δ ι : Type) := BulkOperationPrivate δ ι × Option AnyError

namespace OrderedBulkOperation

/-- An ordered bulk counts the size of its only current batch itself. -/
def startsNewBatch (s : BulkOperationPrivate δ ι) (batchType : BatchType) (bsonSize : Nat) : Bool :=
  s.current.any fun b =>
    needsNewBatch limits s.currentBatchSize s.currentBatchSizeBytes bsonSize b.batchType batchType

/-- The current batch is saved and a new one begun. -/
def cutBatch (s : BulkOperationPrivate δ ι) (batchType : BatchType) : BulkOperationPrivate δ ι :=
  { s.saveBatch.newBatch batchType with currentBatchSize := 0, currentBatchSizeBytes := 0 }

/-- The current batch is made ready for an operation. -/
def prepare (s : BulkOperationPrivate δ ι) (batchType : BatchType) (bsonSize : Nat) : BulkOperationPrivate δ ι :=
  let s := s.ensureBatch batchType
  if startsNewBatch limits s batchType bsonSize then cutBatch s batchType else s

/-- The `_id` of an inserted document is recorded under its index. -/
def recordId (s : BulkOperationPrivate δ ι) (call : Call δ) : BulkOperationPrivate δ ι :=
  if call.batchType = .insert then
    { s with insertedIds := s.insertedIds ++ [(s.currentIndex, docs.id call.document)] }
  else s

/-- The operation joins the current batch. -/
def push (s : BulkOperationPrivate δ ι) (document : δ) (bsonSize : Nat) : BulkOperationPrivate δ ι :=
  let s := s.modifyCurrent fun b =>
    { b with originalIndexes := b.originalIndexes ++ [s.currentIndex], operations := b.operations ++ [document] }
  { s with
    currentBatchSize := s.currentBatchSize + 1
    currentBatchSizeBytes := s.currentBatchSizeBytes + (limits.maxKeySize + bsonSize)
    currentIndex := s.currentIndex + 1 }

/-- `OrderedBulkOperation.addToOperationsList`. The array check comes after the batch was cut and the
`_id` recorded. -/
def addToOperationsList (s : BulkOperationPrivate δ ι) (call : Call δ) : Added δ ι :=
  match docs.calculateObjectSize call.document with
  | .error e => (s, some e)
  | .ok bsonSize =>
    if bsonSize ≥ limits.maxBsonObjectSize then (s, some (documentTooLarge limits))
    else
      let s := recordId docs (prepare limits s call.batchType bsonSize) call
      -- the throw keeps what was done to the bulk so far
      if docs.isArray call.document then (s, some arrayPassedIn)
      else (push limits s call.document bsonSize, none)

end OrderedBulkOperation

namespace UnorderedBulkOperation

/-- An unordered bulk keeps the sizes in each batch. -/
def startsNewBatch (s : BulkOperationPrivate δ ι) (batchType : BatchType) (bsonSize : Nat) : Bool :=
  s.current.any fun b => needsNewBatch limits b.size b.sizeBytes bsonSize b.batchType batchType

/-- The current batch is the one of the type, made ready for an operation. -/
def prepare (s : BulkOperationPrivate δ ι) (batchType : BatchType) (bsonSize : Nat) : BulkOperationPrivate δ ι :=
  let s := { s with currentBatch := s.batchOf batchType }
  let s := s.ensureBatch batchType
  if startsNewBatch limits s batchType bsonSize then s.saveBatch.newBatch batchType else s

/-- The `_id` of an inserted document is recorded under its position among the inserts. -/
def recordId (s : BulkOperationPrivate δ ι) (call : Call δ) : BulkOperationPrivate δ ι :=
  if call.batchType = .insert then
    { s with insertedIds := s.insertedIds ++ [(s.insertedIds.length, docs.id call.document)] }
  else s

/-- The operation joins the current batch, which becomes the one of its type. -/
def push (s : BulkOperationPrivate δ ι) (call : Call δ) (bsonSize : Nat) : BulkOperationPrivate δ ι :=
  let s := s.modifyCurrent fun b =>
    { b with operations := b.operations ++ [call.document], originalIndexes := b.originalIndexes ++ [s.currentIndex] }
  let s := { s with currentIndex := s.currentIndex + 1 }
  let s := s.setBatchOf call.batchType s.currentBatch
  let s := recordId docs s call
  s.modifyCurrent fun b =>
    { b with size := b.size + 1, sizeBytes := b.sizeBytes + (limits.maxKeySize + bsonSize) }

/-- `UnorderedBulkOperation.addToOperationsList`. The array check comes after the batch was cut and
before the new one becomes the one of its type. -/
def addToOperationsList (s : BulkOperationPrivate δ ι) (call : Call δ) : Added δ ι :=
  match docs.calculateObjectSize call.document with
  | .error e => (s, some e)
  | .ok bsonSize =>
    if bsonSize ≥ limits.maxBsonObjectSize then (s, some (documentTooLarge limits))
    else
      let s := prepare limits s call.batchType bsonSize
      -- a batch cut here has been saved, and is still the one of its type
      if docs.isArray call.document then (s, some arrayPassedIn)
      else (push docs limits s call bsonSize, none)

end UnorderedBulkOperation

/-- `addToOperationsList` of a bulk. -/
def addToOperationsList (isOrdered : Bool) (s : BulkOperationPrivate δ ι) (call : Call δ) : Added δ ι :=
  if isOrdered then OrderedBulkOperation.addToOperationsList docs limits s call
  else UnorderedBulkOperation.addToOperationsList docs limits s call

/-- The call `insert` makes: a document without an `_id` gets a new one first. -/
def insert (forceServerObjectId : Bool) (newId : ι) (document : δ) : Call δ :=
  { batchType := .insert
    document := if (docs.id document).isNone && !forceServerObjectId then docs.withId document newId else document }

end Add

/-! ## Execution -/

def emptyBatchError : AnyError :=
  { cls := .mongoInvalidArgumentError, message := "Invalid BulkOperation, Batch cannot be empty" }

def batchReExecutionError : AnyError :=
  { cls := .mongoBatchReExecutionError
    message := "This batch has already been executed, create new batch to execute" }

/-- The current batches, in the order they are sent. -/
def currentBatches (isOrdered : Bool) (s : BulkOperationPrivate δ ι) : List Nat :=
  if isOrdered then s.currentBatch.toList
  else s.currentInsertBatch.toList ++ s.currentUpdateBatch.toList ++ s.currentRemoveBatch.toList

/-- `execute`: the state it leaves, and the batches it hands to `executeCommands`. -/
def execute (isOrdered : Bool) (s : BulkOperationPrivate δ ι) :
    BulkOperationPrivate δ ι × Except AnyError (List (Batch δ)) :=
  if s.executed then (s, .error batchReExecutionError)
  else
    let s := { s with batches := s.batches ++ currentBatches isOrdered s }
    if s.batches.isEmpty then (s, .error emptyBatchError)
    else ({ s with executed := true }, .ok (s.batches.filterMap (s.heap[·]?)))

end MongoDriver.Bulk
