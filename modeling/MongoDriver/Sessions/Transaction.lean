/-
Transactions (`src/transactions.ts`): the states, the transitions between them and the options a
transaction is started with. The server or connection a transaction is pinned to is left out here.
-/
import MongoDriver.Error

namespace MongoDriver.Sessions

/-- `TxnState`. -/
inductive TxnState
  | noTransaction
  | startingTransaction
  | transactionInProgress
  | transactionCommitted
  | transactionCommittedEmpty
  | transactionAborted
deriving DecidableEq

namespace TxnState

/-- The text of a state in messages. -/
def name : TxnState → String
  | noTransaction => "NO_TRANSACTION"
  | startingTransaction => "STARTING_TRANSACTION"
  | transactionInProgress => "TRANSACTION_IN_PROGRESS"
  | transactionCommitted => "TRANSACTION_COMMITTED"
  | transactionCommittedEmpty => "TRANSACTION_COMMITTED_EMPTY"
  | transactionAborted => "TRANSACTION_ABORTED"

/-- `stateMachine`: the states that may come next. -/
def stateMachine : TxnState → List TxnState
  | noTransaction => [noTransaction, startingTransaction]
  | startingTransaction => [transactionInProgress, transactionCommitted, transactionCommittedEmpty, transactionAborted]
  | transactionInProgress => [transactionInProgress, transactionCommitted, transactionAborted]
  | transactionCommitted => [transactionCommitted, transactionCommittedEmpty, startingTransaction, noTransaction]
  | transactionAborted => [startingTransaction, noTransaction]
  | transactionCommittedEmpty => [transactionCommittedEmpty, noTransaction]

/-- `ACTIVE_STATES`. -/
def isActive (s : TxnState) : Bool := s = startingTransaction || s = transactionInProgress

/-- `COMMITTED_STATES`. -/
def isCommitted (s : TxnState) : Bool :=
  s = transactionCommitted || s = transactionCommittedEmpty || s = transactionAborted

theorem not_active_of_isCommitted {s : TxnState} (h : s.isCommitted = true) : s.isActive = false := by
  cases s with
  | noTransaction => cases h
  | startingTransaction => cases h
  | transactionInProgress => cases h
  | _ => rfl

theorem ne_starting_of_isCommitted {s : TxnState} (h : s.isCommitted = true) : s ≠ startingTransaction := by
  rintro rfl
  cases h

/-- A transaction that ends without a command. -/
theorem isCommitted_of_settled {s : TxnState} (h : s = transactionCommittedEmpty ∨ s = transactionAborted) :
    s.isCommitted = true := by
  rcases h with rfl | rfl
  · rfl
  · rfl

/-- And one that ends with a command. -/
theorem isCommitted_of_finished {s : TxnState} {p q : Prop}
    (h : s = transactionCommitted ∧ p ∨ s = transactionAborted ∧ q) : s.isCommitted = true := by
  rcases h with ⟨rfl, -⟩ | ⟨rfl, -⟩
  · rfl
  · rfl

end TxnState

/-- The `w` of a write concern. -/
inductive W
  | number (n : Nat)
  | tag (name : String)
deriving DecidableEq

structure WriteConcern where
  w : Option W := none
  j : Option Bool := none
  wtimeout : Option Nat := none
deriving DecidableEq

structure ReadConcern where
  level : Option String := none
  afterClusterTime : Option Nat := none
  atClusterTime : Option Nat := none
deriving DecidableEq

/-- `TransactionOptions`, of which the client's own options have the first two. -/
structure TransactionOptions where
  readConcern : Option ReadConcern := none
  writeConcern : Option WriteConcern := none
  maxCommitTimeMS : Option Nat := none
deriving DecidableEq

/-- `Transaction`. The recovery token of a sharded cluster is opaque. -/
structure Transaction where
  state : TxnState := .noTransaction
  readConcern : Option ReadConcern := none
  writeConcern : Option WriteConcern := none
  maxTimeMS : Option Nat := none
  recoveryToken : Option Nat := none
deriving DecidableEq

def unacknowledgedTransaction : AnyError :=
  { cls := .mongoTransactionError, message := "Transactions do not support unacknowledged write concern" }

def illegalTransition (state nextState : TxnState) : AnyError :=
  { cls := .mongoRuntimeError
    message := "Attempted illegal state transition from [" ++ state.name ++ "] to [" ++ nextState.name ++ "]" }

namespace Transaction

/-- The constructor, which throws on a write concern that asks for no acknowledgement. -/
def new (options : TransactionOptions) : Except AnyError Transaction :=
  if options.writeConcern.any (·.w = some (.number 0)) then .error unacknowledgedTransaction
  else .ok {
    readConcern := options.readConcern
    writeConcern := options.writeConcern
    maxTimeMS := options.maxCommitTimeMS.filter (· ≠ 0) }

/-- `transition(nextState)`. -/
def transition (t : Transaction) (nextState : TxnState) : Except AnyError Transaction :=
  if nextState ∈ t.state.stateMachine then .ok { t with state := nextState }
  else .error (illegalTransition t.state nextState)

theorem transition_ok {t t' : Transaction} {nextState : TxnState} :
    t.transition nextState = .ok t' ↔ nextState ∈ t.state.stateMachine ∧ t' = { t with state := nextState } := by
  unfold transition
  split
  · rename_i h
    constructor
    · intro heq; cases heq; exact ⟨h, rfl⟩
    · rintro ⟨-, rfl⟩; rfl
  · rename_i h
    constructor
    · intro heq; cases heq
    · rintro ⟨hmem, -⟩; exact absurd hmem h

end Transaction

end MongoDriver.Sessions
