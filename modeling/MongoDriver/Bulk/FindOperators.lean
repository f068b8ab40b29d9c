/-
The two ways to fill a bulk (`src/bulk/common.ts`, with the statements of `src/operations/update.ts` and
`src/operations/delete.ts`): `raw`, which is given a whole operation, and `find`, whose `FindOperators` collect one in
`currentOp` of the bulk. A `FindOperators` holds nothing but the bulk, so it does not matter which of them a method is
called on. Both ways fill a bulk with the same statements, apart from a check that `update` does not make.
-/
import MongoDriver.Base.Run
import MongoDriver.Base.Value
import MongoDriver.Bulk.Common

namespace MongoDriver.Bulk

/-! ## Statements -/

/-- A value that is passed in: an array, or what `Js.Value` tells apart. -/
inductive Argument
  | array (elements : List Argument)
  | value (v : Js.Value)

namespace Argument

def undefined : Argument := .value .undefined

def truthy : Argument → Bool
  | .array _ => true
  | .value v => v.truthy

/-- `value != null && typeof value === 'object'`. -/
def isObject : Argument → Bool
  | .array _ => true
  | .value (.object _) => true
  | .value _ => false

/-- The value, when its type is `boolean`. -/
def boolean : Argument → Option Bool
  | .value (.boolean b) => some b
  | _ => none

/-- The value of an option that is set when it is truthy. -/
def given (option : Argument) : Option Argument := if option.truthy then some option else none

end Argument

def notConvertible : AnyError := { cls := .typeError, message := "Cannot convert undefined or null to object" }

mutual

def hasAtomicOperators : Argument → Except AnyError Bool
  | .array elements => anyHasAtomicOperators elements
  | .value v =>
    match v.keys with
    | .error _ => .error notConvertible
    | .ok keys => .ok (keys.head?.any fun key => key.toList.head? = some '$')

/-- The loop over a pipeline. -/
def anyHasAtomicOperators : List Argument → Except AnyError Bool
  | [] => .ok false
  | document :: rest =>
    match hasAtomicOperators document with
    | .error e => .error e
    | .ok true => .ok true
    | .ok false => anyHasAtomicOperators rest

end

def invalidArgument (message : String) : AnyError := { cls := .mongoInvalidArgumentError, message }

/-- An `UpdateStatement`; `multi` is left out when it is false. -/
structure UpdateStatement where
  q : Argument
  u : Argument
  upsert : Option Bool
  multi : Bool
  hint : Option Argument
  arrayFilters : Option Argument
  collation : Option Argument

structure DeleteStatement where
  q : Argument
  limit : Nat
  collation : Option Argument
  hint : Option Argument
  comment : Option Argument

/-- The options the statements read. -/
structure StatementOptions where
  upsert : Argument := .undefined
  hint : Argument := .undefined
  arrayFilters : Argument := .undefined
  collation : Argument := .undefined
  comment : Argument := .undefined
  single : Argument := .undefined

def makeUpdateStatement (filter update : Argument) (options : StatementOptions) (multi : Bool) :
    Except AnyError UpdateStatement :=
  if !filter.isObject then .error (invalidArgument "Selector must be a valid JavaScript object")
  else if !update.isObject then .error (invalidArgument "Document must be a valid JavaScript object")
  else .ok {
    q := filter
    u := update
    upsert := options.upsert.boolean
    multi
    hint := options.hint.given
    arrayFilters := options.arrayFilters.given
    collation := options.collation.given }

def makeDeleteStatement (filter : Argument) (options : StatementOptions) (limit : Nat) : DeleteStatement where
  q := filter
  limit := if options.single.boolean = some true then 1 else limit
  collation := options.collation.given
  hint := options.hint.given
  comment := options.comment.given

/-- An operation of a batch. -/
inductive Statement
  | insert (document : Argument)
  | update (statement : UpdateStatement)
  | delete (statement : DeleteStatement)

/-! ## Operations -/

/-- `insertOne`: the model, its `document`, if it has one, and the `_id` that is made when one is needed. -/
structure InsertOneModel (ι : Type) where
  model : Argument
  document : Option Argument
  newId : ι

/-- Every other model; `q` tells that it has such a key. -/
structure WriteModel extends StatementOptions where
  q : Bool := false
  filter : Argument := .undefined
  update : Argument := .undefined
  replacement : Argument := .undefined

structure AnyBulkWriteOperation (ι : Type) where
  insertOne : Option (InsertOneModel ι) := none
  replaceOne : Option WriteModel := none
  updateOne : Option WriteModel := none
  updateMany : Option WriteModel := none
  deleteOne : Option WriteModel := none
  deleteMany : Option WriteModel := none

structure CurrentOp where
  selector : Argument := .undefined
  upsert : Argument := .undefined
  collation : Argument := .undefined
  arrayFilters : Argument := .undefined

def CurrentOp.options (op : CurrentOp) : StatementOptions where
  upsert := op.upsert
  collation := op.collation
  arrayFilters := op.arrayFilters

/-- A `BulkOperationBase`: what its batches hold, and the operation that is being described. -/
structure BulkOperation (ι : Type) where
  s : BulkOperationPrivate Statement ι := {}
  currentOp : Option CurrentOp := none

/-- What a call leaves and what it throws. -/
abbrev CallOutcome (ι : Type) := BulkOperation ι × Option AnyError

/-- The update document must have operators, or a replacement must not. -/
def requireOperators (update : Argument) : Except AnyError Unit := do
  if !(← hasAtomicOperators update) then
    throw (invalidArgument "Update document requires atomic operators")

def refuseOperators (replacement : Argument) : Except AnyError Unit := do
  if ← hasAtomicOperators replacement then
    throw (invalidArgument "Replacement document must not use atomic operators")

/-- What is the same in all calls: the kind of the bulk, its limits, and who makes an `_id`. -/
structure FillSettings (ι : Type) where
  isOrdered : Bool
  docs : Documents Statement ι
  limits : Limits
  forceServerObjectId : Bool

namespace BulkOperation

variable {ι : Type} (settings : FillSettings ι) (b : BulkOperation ι)

def add (call : Call Statement) : CallOutcome ι :=
  let (s, error) := addToOperationsList settings.docs settings.limits settings.isOrdered b.s call
  ({ b with s }, error)

/-- A statement that could be made is added. -/
def addUpdate (statement : Except AnyError UpdateStatement) : CallOutcome ι :=
  match statement with
  | .error e => (b, some e)
  | .ok statement => b.add settings { batchType := .update, document := .update statement }

def addDelete (statement : DeleteStatement) : CallOutcome ι :=
  b.add settings { batchType := .delete, document := .delete statement }

def insert (model : InsertOneModel ι) : CallOutcome ι :=
  b.add settings <| Bulk.insert settings.docs settings.forceServerObjectId model.newId
    (.insert (model.document.getD model.model))

/-! ### Raw operations -/

/-- The statement of an update or a replacement, whose document is looked at when it is made. -/
def checked (check : Argument → Except AnyError Unit) (statement : Except AnyError UpdateStatement) :
    Except AnyError UpdateStatement := do
  let statement ← statement
  check statement.u
  return statement

def rawNotAllowed : AnyError := invalidArgument "Raw operations are not allowed"

def raw (op : AnyBulkWriteOperation ι) : CallOutcome ι :=
  match op.insertOne, op.replaceOne, op.updateOne, op.updateMany, op.deleteOne, op.deleteMany with
  | some model, _, _, _, _, _ => b.insert settings model
  | none, some model, _, _, _, _ =>
    if model.q then (b, some rawNotAllowed)
    else b.addUpdate settings
      (checked refuseOperators (makeUpdateStatement model.filter model.replacement model.toStatementOptions false))
  | none, none, some model, _, _, _ =>
    if model.q then (b, some rawNotAllowed)
    else b.addUpdate settings
      (checked requireOperators (makeUpdateStatement model.filter model.update model.toStatementOptions false))
  | none, none, none, some model, _, _ =>
    if model.q then (b, some rawNotAllowed)
    else b.addUpdate settings
      (checked requireOperators (makeUpdateStatement model.filter model.update model.toStatementOptions true))
  | none, none, none, none, some model, _ =>
    if model.q then (b, some rawNotAllowed)
    else b.addDelete settings (makeDeleteStatement model.filter model.toStatementOptions 1)
  | none, none, none, none, none, some model =>
    if model.q then (b, some rawNotAllowed)
    else b.addDelete settings (makeDeleteStatement model.filter model.toStatementOptions 0)
  | none, none, none, none, none, none => (b, some (invalidArgument
      "bulkWrite only supports insertOne, updateOne, updateMany, deleteOne, deleteMany"))

/-! ### `FindOperators` -/

def find (selector : Argument) : CallOutcome ι :=
  if !selector.truthy then (b, some (invalidArgument "Bulk find operation must specify a selector"))
  else ({ b with currentOp := some { selector } }, none)

/-- A modifier; the operation begins with it when there is none. -/
def modify (f : CurrentOp → CurrentOp) : CallOutcome ι :=
  ({ b with currentOp := some (f (b.currentOp.getD {})) }, none)

def upsert : CallOutcome ι := b.modify fun op => { op with upsert := .value (.boolean true) }

def collation (collation : Argument) : CallOutcome ι := b.modify fun op => { op with collation }

def arrayFilters (arrayFilters : Argument) : CallOutcome ι := b.modify fun op => { op with arrayFilters }

def buildCurrentOp : CurrentOp × BulkOperation ι := (b.currentOp.getD {}, { b with currentOp := none })

def update (updateDocument : Argument) : CallOutcome ι :=
  let (op, b) := b.buildCurrentOp
  b.addUpdate settings (makeUpdateStatement op.selector updateDocument op.options true)

def updateOne (updateDocument : Argument) : CallOutcome ι :=
  match requireOperators updateDocument with
  | .error e => (b, some e)
  | .ok _ =>
    let (op, b) := b.buildCurrentOp
    b.addUpdate settings (makeUpdateStatement op.selector updateDocument op.options false)

def replaceOne (replacement : Argument) : CallOutcome ι :=
  match refuseOperators replacement with
  | .error e => (b, some e)
  | .ok _ =>
    let (op, b) := b.buildCurrentOp
    b.addUpdate settings (makeUpdateStatement op.selector replacement op.options false)

def deleteOne : CallOutcome ι :=
  let (op, b) := b.buildCurrentOp
  b.addDelete settings (makeDeleteStatement op.selector op.options 1)

def delete : CallOutcome ι :=
  let (op, b) := b.buildCurrentOp
  b.addDelete settings (makeDeleteStatement op.selector op.options 0)

end BulkOperation

/-! ## Programs -/

/-- A call of a method of a bulk or of one of its `FindOperators`. -/
inductive BulkCall (ι : Type)
  | insert (model : InsertOneModel ι)
  | raw (op : AnyBulkWriteOperation ι)
  | find (selector : Argument)
  | upsert
  | collation (collation : Argument)
  | arrayFilters (arrayFilters : Argument)
  | update (updateDocument : Argument)
  | updateOne (updateDocument : Argument)
  | replaceOne (replacement : Argument)
  | deleteOne
  | delete

section

variable {ι : Type} (settings : FillSettings ι)

def BulkOperation.call (b : BulkOperation ι) : BulkCall ι → CallOutcome ι
  | .insert model => b.insert settings model
  | .raw op => b.raw settings op
  | .find selector => b.find selector
  | .upsert => b.upsert
  | .collation collation => b.collation collation
  | .arrayFilters arrayFilters => b.arrayFilters arrayFilters
  | .update updateDocument => b.update settings updateDocument
  | .updateOne updateDocument => b.updateOne settings updateDocument
  | .replaceOne replacement => b.replaceOne settings replacement
  | .deleteOne => b.deleteOne settings
  | .delete => b.delete settings

/-- The calls one after the other, whatever they throw. -/
def BulkOperation.fill (b : BulkOperation ι) : List (BulkCall ι) → BulkOperation ι × List (Option AnyError)
  | [] => (b, [])
  | call :: calls =>
    let (b, error) := b.call settings call
    let (b, errors) := b.fill calls
    (b, error :: errors)

/-! ## What the calls amount to -/

/-- What a call amounts to: nothing, when it only describes an operation; an error of its own; a raw operation; or a
statement for many documents whose update document a raw operation would be refused for. -/
inductive Planned (ι : Type)
  | nothing
  | refused (error : AnyError)
  | operation (op : AnyBulkWriteOperation ι)
  | unchecked (statement : UpdateStatement) (model : WriteModel)

/-- The operation that is described, as a model. -/
def CurrentOp.model (op : CurrentOp) : WriteModel where
  toStatementOptions := op.options
  filter := op.selector

/-- A call after a description, and the description it leaves. Neither depends on what the bulk holds. -/
def BulkCall.plan (currentOp : Option CurrentOp) : BulkCall ι → Planned ι × Option CurrentOp
  | .insert model => (.operation { insertOne := some model }, currentOp)
  | .raw op => (.operation op, currentOp)
  | .find selector =>
    if selector.truthy then (.nothing, some { selector })
    else (.refused (invalidArgument "Bulk find operation must specify a selector"), currentOp)
  | .upsert => (.nothing, some { currentOp.getD {} with upsert := .value (.boolean true) })
  | .collation value => (.nothing, some { currentOp.getD {} with collation := value })
  | .arrayFilters filters => (.nothing, some { currentOp.getD {} with arrayFilters := filters })
  | .update document =>
    let model := { (currentOp.getD {}).model with update := document }
    match requireOperators document with
    | .ok _ => (.operation { updateMany := some model }, none)
    | .error _ =>
      match makeUpdateStatement model.filter document model.toStatementOptions true with
      | .ok statement => (.unchecked statement model, none)
      | .error _ => (.operation { updateMany := some model }, none)
  | .updateOne document =>
    match requireOperators document with
    | .error e => (.refused e, currentOp)
    | .ok _ => (.operation { updateOne := some { (currentOp.getD {}).model with update := document } }, none)
  | .replaceOne replacement =>
    match refuseOperators replacement with
    | .error e => (.refused e, currentOp)
    | .ok _ => (.operation { replaceOne := some { (currentOp.getD {}).model with replacement } }, none)
  | .deleteOne => (.operation { deleteOne := some (currentOp.getD {}).model }, none)
  | .delete => (.operation { deleteMany := some (currentOp.getD {}).model }, none)

/-- The plan of a program. -/
def plan (currentOp : Option CurrentOp) : List (BulkCall ι) → List (Planned ι)
  | [] => []
  | call :: calls => (call.plan currentOp).1 :: plan (call.plan currentOp).2 calls

/-- The plan carried out on a bulk that is only given raw operations and the unchecked statements. -/
def BulkOperation.carry (b : BulkOperation ι) : Planned ι → CallOutcome ι
  | .nothing => (b, none)
  | .refused error => (b, some error)
  | .operation op => b.raw settings op
  | .unchecked statement _ => b.addUpdate settings (.ok statement)

def BulkOperation.carryOut (b : BulkOperation ι) : List (Planned ι) → BulkOperation ι × List (Option AnyError)
  | [] => (b, [])
  | planned :: rest =>
    let (b, error) := b.carry settings planned
    let (b, errors) := b.carryOut rest
    (b, error :: errors)

end

/-! ## The two ways agree -/

section

variable {ι : Type} {settings : FillSettings ι} {b b' : BulkOperation ι}

/-- Two calls fill the bulk alike and throw alike. -/
structure Alike (called called' : CallOutcome ι) : Prop where
  filled : called.1.s = called'.1.s
  thrown : called.2 = called'.2

theorem makeUpdateStatement_u {filter update : Argument} {options : StatementOptions} {multi : Bool}
    {statement : UpdateStatement} (h : makeUpdateStatement filter update options multi = .ok statement) :
    statement.u = update := by
  unfold makeUpdateStatement at h
  split_ifs at h
  cases h
  rfl

namespace BulkOperation

theorem add_alike (h : b.s = b'.s) (call : Call Statement) : Alike (b.add settings call) (b'.add settings call) := by
  unfold add
  rw [h]
  exact ⟨rfl, rfl⟩

theorem addUpdate_alike (h : b.s = b'.s) (statement : Except AnyError UpdateStatement) :
    Alike (b.addUpdate settings statement) (b'.addUpdate settings statement) := by
  cases statement with
  | error e => exact ⟨h, rfl⟩
  | ok statement => exact add_alike h _

/-- `buildCurrentOp` changes nothing else. -/
theorem addUpdate_alike_built (h : b.s = b'.s) (statement : Except AnyError UpdateStatement) :
    Alike (addUpdate settings b.buildCurrentOp.2 statement) (b'.addUpdate settings statement) :=
  @addUpdate_alike _ settings b.buildCurrentOp.2 b' h statement

theorem addDelete_alike_built (h : b.s = b'.s) (statement : DeleteStatement) :
    Alike (addDelete settings b.buildCurrentOp.2 statement) (b'.addDelete settings statement) :=
  @add_alike _ settings b.buildCurrentOp.2 b' h _

@[simp] theorem add_currentOp (call : Call Statement) : (b.add settings call).1.currentOp = b.currentOp := rfl

@[simp] theorem addDelete_currentOp (statement : DeleteStatement) :
    (b.addDelete settings statement).1.currentOp = b.currentOp := rfl

@[simp] theorem addUpdate_currentOp (statement : Except AnyError UpdateStatement) :
    (b.addUpdate settings statement).1.currentOp = b.currentOp := by
  cases statement <;> rfl

@[simp] theorem raw_currentOp (op : AnyBulkWriteOperation ι) : (b.raw settings op).1.currentOp = b.currentOp := by
  unfold raw
  split
  · rfl
  all_goals try split
  all_goals simp

theorem raw_alike (h : b.s = b'.s) (op : AnyBulkWriteOperation ι) :
    Alike (b.raw settings op) (b'.raw settings op) := by
  unfold raw
  split
  · exact add_alike h _
  · split
    · exact ⟨h, rfl⟩
    · exact addUpdate_alike h _
  · split
    · exact ⟨h, rfl⟩
    · exact addUpdate_alike h _
  · split
    · exact ⟨h, rfl⟩
    · exact addUpdate_alike h _
  · split
    · exact ⟨h, rfl⟩
    · exact add_alike h _
  · split
    · exact ⟨h, rfl⟩
    · exact add_alike h _
  · exact ⟨h, rfl⟩

/-- A document that passes the check is added in the same way when it is checked after the statement is made. -/
theorem checked_eq {check : Argument → Except AnyError Unit} {filter update : Argument} {options : StatementOptions}
    {multi : Bool} (h : check update = .ok ()) :
    checked check (makeUpdateStatement filter update options multi) =
      makeUpdateStatement filter update options multi := by
  unfold checked
  cases hstatement : makeUpdateStatement filter update options multi with
  | error e => rfl
  | ok statement =>
    have hu := makeUpdateStatement_u hstatement
    simp only [bind, Except.bind, hu, h, pure, Except.pure]

end BulkOperation

open BulkOperation

/-- A call fills the bulk like what it amounts to, and leaves the description that was planned. -/
theorem call_alike (h : b.s = b'.s) (call : BulkCall ι) :
    Alike (b.call settings call) (b'.carry settings (call.plan b.currentOp).1) ∧
      (b.call settings call).1.currentOp = (call.plan b.currentOp).2 := by
  cases call with
  | insert model => exact ⟨add_alike h _, rfl⟩
  | raw op => exact ⟨raw_alike h op, raw_currentOp op⟩
  | find selector =>
    cases htruthy : selector.truthy with
    | true => simp only [call, find, BulkCall.plan, htruthy]; exact ⟨⟨h, rfl⟩, rfl⟩
    | false => simp only [call, find, BulkCall.plan, htruthy]; exact ⟨⟨h, rfl⟩, rfl⟩
  | upsert => exact ⟨⟨h, rfl⟩, rfl⟩
  | collation value => exact ⟨⟨h, rfl⟩, rfl⟩
  | arrayFilters filters => exact ⟨⟨h, rfl⟩, rfl⟩
  | update document =>
    simp only [call, update, buildCurrentOp, BulkCall.plan, addUpdate_currentOp]
    cases hcheck : requireOperators document with
    | ok u =>
      refine ⟨?_, rfl⟩
      simp only [carry, raw, CurrentOp.model, checked_eq hcheck]
      exact addUpdate_alike_built h _
    | error e =>
      simp only [CurrentOp.model]
      cases hstatement : makeUpdateStatement (b.currentOp.getD {}).selector document (b.currentOp.getD {}).options
        true with
      | ok statement => exact ⟨addUpdate_alike_built h _, rfl⟩
      | error e' =>
        refine ⟨?_, rfl⟩
        simp only [carry, raw, hstatement]
        exact addUpdate_alike_built h _
  | updateOne document =>
    cases hcheck : requireOperators document with
    | error e =>
      simp only [call, updateOne, BulkCall.plan, hcheck]
      exact ⟨⟨h, rfl⟩, trivial⟩
    | ok u =>
      simp only [call, updateOne, buildCurrentOp, BulkCall.plan, hcheck, carry, raw, CurrentOp.model,
        checked_eq hcheck, addUpdate_currentOp]
      exact ⟨addUpdate_alike_built h _, trivial⟩
  | replaceOne document =>
    cases hcheck : refuseOperators document with
    | error e =>
      simp only [call, replaceOne, BulkCall.plan, hcheck]
      exact ⟨⟨h, rfl⟩, trivial⟩
    | ok u =>
      simp only [call, replaceOne, buildCurrentOp, BulkCall.plan, hcheck, carry, raw, CurrentOp.model,
        checked_eq hcheck, addUpdate_currentOp]
      exact ⟨addUpdate_alike_built h _, trivial⟩
  | deleteOne => exact ⟨addDelete_alike_built h _, rfl⟩
  | delete => exact ⟨addDelete_alike_built h _, rfl⟩

theorem fill_alike (calls : List (BulkCall ι)) : ∀ {b b' : BulkOperation ι}, b.s = b'.s →
    (b.fill settings calls).1.s = (b'.carryOut settings (plan b.currentOp calls)).1.s ∧
      (b.fill settings calls).2 = (b'.carryOut settings (plan b.currentOp calls)).2 := by
  induction calls with
  | nil => exact fun h => ⟨h, rfl⟩
  | cons call calls ih =>
    intro b b' h
    obtain ⟨⟨hfilled, hthrown⟩, hcurrent⟩ := @call_alike _ settings _ _ h call
    obtain ⟨hs, herrors⟩ := ih hfilled
    rw [hcurrent] at hs herrors
    exact ⟨hs, congrArg₂ List.cons hthrown herrors⟩

/-- A statement that is not checked is that of an `update`, and raw operations of it are refused. -/
theorem unchecked_of_mem_plan {statement : UpdateStatement} {model : WriteModel} :
    ∀ {calls : List (BulkCall ι)} {currentOp : Option CurrentOp}, .unchecked statement model ∈ plan currentOp calls →
      .update model.update ∈ calls ∧
        makeUpdateStatement model.filter model.update model.toStatementOptions true = .ok statement ∧
        ∃ e, requireOperators model.update = .error e ∧
          ∀ b : BulkOperation ι, b.raw settings { updateMany := some model } = (b, some e) := by
  intro calls
  induction calls with
  | nil => exact fun hmem => by cases hmem
  | cons call calls ih =>
    intro currentOp hmem
    rcases List.mem_cons.1 hmem with heq | hmem
    · cases call with
      | update document =>
        simp only [BulkCall.plan] at heq
        cases hcheck : requireOperators document with
        | ok u =>
          rw [hcheck] at heq
          cases heq
        | error e =>
          simp only [hcheck] at heq
          cases hstatement : makeUpdateStatement ((currentOp.getD {}).model).filter document
            ((currentOp.getD {}).model).toStatementOptions true with
          | error e' =>
            rw [hstatement] at heq
            cases heq
          | ok made =>
            rw [hstatement] at heq
            cases heq
            refine ⟨List.mem_cons_self, hstatement, e, hcheck, fun b => ?_⟩
            have hrefused : checked requireOperators (.ok statement) = .error e := by
              simp only [checked, bind, Except.bind, makeUpdateStatement_u hstatement, hcheck]
            simp only [raw, CurrentOp.model] at hstatement ⊢
            rw [hstatement, hrefused]
            rfl
      | updateOne document =>
        simp only [BulkCall.plan] at heq
        cases hcheck : requireOperators document <;> rw [hcheck] at heq <;> cases heq
      | replaceOne document =>
        simp only [BulkCall.plan] at heq
        cases hcheck : refuseOperators document <;> rw [hcheck] at heq <;> cases heq
      | find selector =>
        simp only [BulkCall.plan] at heq
        split_ifs at heq
      | _ => cases heq
    · obtain ⟨hcall, hrest⟩ := ih hmem
      exact ⟨List.mem_cons_of_mem _ hcall, hrest⟩

end

/-- Whatever methods of a bulk and of its `FindOperators` are called, on whichever of them, the bulk is filled and every
call throws as in the raw operations the calls amount to. The exception is an `update` of many documents whose update
document has no operators: its statement is added, where `raw` refuses the operation and leaves the bulk as it is. -/
theorem fluent_fills_like_raw {ι : Type} (settings : FillSettings ι) (b : BulkOperation ι) (calls : List (BulkCall ι)) :
    (b.fill settings calls).1.s = (b.carryOut settings (plan b.currentOp calls)).1.s ∧
      (b.fill settings calls).2 = (b.carryOut settings (plan b.currentOp calls)).2 ∧
      ∀ statement model, .unchecked statement model ∈ plan b.currentOp calls →
        .update model.update ∈ calls ∧
          makeUpdateStatement model.filter model.update model.toStatementOptions true = .ok statement ∧
          ∃ e, requireOperators model.update = .error e ∧
            ∀ b' : BulkOperation ι, b'.raw settings { updateMany := some model } = (b', some e) :=
  ⟨(fill_alike calls rfl).1, (fill_alike calls rfl).2, fun _ _ => unchecked_of_mem_plan⟩

end MongoDriver.Bulk
