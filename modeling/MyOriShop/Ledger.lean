import MyOriShop.Lib.Sums
import MyOriShop.Lib.Transaction
import MyOriShop.Models

/-!
# Ledger: the single write path for stock (`app/services/ledger.py`)

* `parseOpDate` is `parse_op_date`: empty is «today», then the format, the floor of the year 2000
  and the future, each with its own message. Dates are compared as the source compares them: the
  floor as a day, the future as text.
* `recordOperation` is `record_operation`: the guards in their order, then one appended row and the
  two SQL-side increments, `Db.applyOperation`.
* `computeStock`, `computeBatchStock` and `recomputeDerived` are the recomputation of the two
  cached quantities and the check that they agree. An assignment that does not change a quantity
  emits no UPDATE, so `updated_at` moves only with the quantity.

`session.get`, and every query, first flushes what is pending; `flush` stands where the source's
flush can raise.
-/

namespace MyOriShop

open Lib.Json (Value)
open Lib.Text Lib.IsoDate Lib.Sums Lib.Transaction

/-- A program over the database session. -/
abbrev Act := Tx Db Exn

/-- Autoflush before a query: the constraints are checked. -/
def flush : Act Unit := Tx.flush Db.check .integrity

/-- `session.commit()`. -/
def commit : Act Unit := Tx.commit Db.check .integrity

/-- `utcnow_iso()`. -/
def utcnowIso (env : Env) : Act String := do
  let n ← Tx.tick
  return (env.clock n).isoformat

/-- `local_today_iso(settings.display_tz)`, as a day. -/
def localToday (env : Env) : Act Date := do
  let n ← Tx.tick
  return env.localDay (env.clock n)

/-- The operation types, `OPERATION_TYPES`. -/
def operationTypes : List String :=
  ["receipt", "sale", "writeoff", "return", "correction", "transfer", "price_change",
    "product_created", "product_edited"]

/-- `STOCK_AFFECTING_TYPES`. -/
def stockAffectingTypes : List String :=
  ["receipt", "sale", "writeoff", "return", "correction", "transfer"]

/-! ## Form errors and answers -/

/-- The error dictionary of a form: field and message, in the order the fields were set. -/
abbrev Errors := List (String × String)

/-- `errors[field] = message`. -/
def Errors.put (errors : Errors) (field message : String) : Errors :=
  if errors.any (fun e => e.1 = field) then
    errors.map fun e => if e.1 = field then (field, message) else e
  else errors ++ [(field, message)]

/-- `errors[field] = message` under a condition. -/
def Errors.putIf (errors : Errors) (bad : Bool) (field message : String) : Errors :=
  if bad then errors.put field message else errors

theorem Errors.put_ne_nil (errors : Errors) (field message : String) :
    errors.put field message ≠ [] := by
  unfold Errors.put
  split_ifs with h
  · intro hnil
    rw [List.map_eq_nil_iff.mp hnil] at h
    cases h
  · exact List.append_ne_nil_of_right_ne_nil _ (List.cons_ne_nil _ _)

@[simp] theorem Errors.putIf_eq_nil {errors : Errors} {bad : Bool} {field message : String} :
    errors.putIf bad field message = [] ↔ bad = false ∧ errors = [] := by
  cases bad with
  | false => simp [Errors.putIf]
  | true => simp [Errors.putIf, Errors.put_ne_nil]

/-- One entry of an oversell warning: what is there and what was asked for. -/
structure Oversell where
  productId : String
  batchId : String
  available : Int
  requested : Int
  deriving DecidableEq

/-- A warning that the operator may confirm. -/
structure Warning where
  oversell : List Oversell := []
  /-- Product, entered price and minimum price. -/
  belowMinimum : List (String × Int × Int) := []
  /-- Balance and amount of a withdrawal. -/
  negativeBalance : Option (Int × Int) := none

/-- What a service answers: a result, a warning without any write, or form errors. -/
inductive Outcome (α : Type) where
  | done (result : α)
  | warned (warning : Warning)
  | refused (errors : Errors)

/-- A service's checks, which answer early or hand a plan on, and then its writes. -/
def orAnswer {α β : Type} (checked : Except (Outcome α) β) (write : β → Act (Outcome α)) :
    Act (Outcome α) :=
  match checked with
  | .error answer => return answer
  | .ok plan => write plan

/-- `if errors: return None, errors`. -/
def Errors.stop {α : Type} (errors : Errors) : Except (Outcome α) Unit :=
  if errors = [] then .ok () else .error (.refused errors)

theorem Errors.stop_ok_iff {α : Type} {errors : Errors} {u : Unit} :
    (errors.stop : Except (Outcome α) Unit) = .ok u ↔ errors = [] := by
  unfold Errors.stop
  split_ifs with h
  · exact iff_of_true rfl h
  · exact iff_of_false (fun hu => nomatch hu) h

/-- `return None, {field: message}`. -/
def refuse {α β : Type} (field message : String) : Except (Outcome α) β :=
  .error (.refused [(field, message)])

/-! ## The business date -/

/-- `OP_DATE_FORMAT_ERROR`. -/
def opDateFormatError : String := "Укажите дату в формате ГГГГ-ММ-ДД."

/-- `OP_DATE_FUTURE_ERROR`. -/
def opDateFutureError : String := "Дата операции не может быть в будущем."

/-- `OP_DATE_TOO_OLD_ERROR`. -/
def opDateTooOldError : String := "Дата операции слишком старая — проверьте год."

/-- `OP_DATE_FLOOR`'s year: the floor is its first day. -/
def opDateFloorYear : Nat := 2000

/-- `parse_op_date`: no date for an empty field, a message for a bad one. -/
def parseOpDate (env : Env) (raw : String) : Act (Except String (Option Date)) := do
  if strip raw = "" then return .ok none
  match Date.fromIso (strip raw) with
  | none => return .error opDateFormatError
  | some parsed =>
    if parsed.year < opDateFloorYear then return .error opDateTooOldError
    let today ← localToday env
    if today.isoformat < parsed.isoformat then return .error opDateFutureError
    return .ok (some parsed)

/-- The error a failed `parse_op_date` sets. -/
def Errors.putDate (errors : Errors) (parsed : Except String (Option Date)) : Errors :=
  match parsed with
  | .ok _ => errors
  | .error message => errors.put "op_date" message

@[simp] theorem Errors.putDate_eq_nil {errors : Errors} {parsed : Except String (Option Date)} :
    errors.putDate parsed = [] ↔ (∃ day, parsed = .ok day) ∧ errors = [] := by
  cases parsed with
  | ok day => simp [Errors.putDate]
  | error message => simp [Errors.putDate, Errors.put_ne_nil]

/-- The parsed date, none when there is none or it was refused. -/
def opDate (parsed : Except String (Option Date)) : Option Date :=
  match parsed with
  | .ok day => day
  | .error _ => none

/-! ## The write path -/

/-- The keyword arguments of `record_operation`. -/
structure OperationArgs where
  type : String
  productId : String
  qtyDelta : Int
  unitCostCents : Option Int := none
  unitPriceCents : Option Int := none
  payload : Value := .null
  saleId : Option String := none
  batchId : Option String := none
  businessDate : Option Date := none

/-- `next_seq` over the `(device_id, seq)` pairs of a ledger. -/
def nextSeq (pairs : List (String × Int)) (deviceId : String) : Int :=
  (((pairs.filter fun q => q.1 = deviceId).map Prod.snd).max?.getD 0) + 1

/-- The seqs of a device in a ledger. -/
theorem mem_seqs {pairs : List (String × Int)} {deviceId : String} {n : Int} :
    n ∈ (pairs.filter fun q => q.1 = deviceId).map Prod.snd ↔ (deviceId, n) ∈ pairs := by
  simp

theorem nextSeq_eq_iff {pairs : List (String × Int)} {deviceId : String} {n : Int} :
    nextSeq pairs deviceId = n ↔
      (n = 1 ∧ ∀ m, (deviceId, m) ∉ pairs) ∨
        (deviceId, n - 1) ∈ pairs ∧ ∀ m, (deviceId, m) ∈ pairs → m < n := by
  unfold nextSeq
  simp only [← mem_seqs]
  generalize (pairs.filter fun q => q.1 = deviceId).map Prod.snd = seqs
  cases hmax : seqs.max? with
  | none =>
    rw [List.max?_eq_none_iff] at hmax
    simp [hmax, eq_comm]
  | some top =>
    obtain ⟨hmem, htop⟩ := List.max?_eq_some_iff.mp hmax
    rw [Option.getD_some]
    constructor
    · rintro rfl
      exact .inr ⟨by simpa using hmem, fun m hm => Int.lt_add_one_of_le (htop m hm)⟩
    · rintro (⟨-, hnone⟩ | ⟨hn, hlt⟩)
      · exact absurd hmem (hnone top)
      · have hle := htop _ hn
        have hlt := hlt _ hmem
        omega

/-- **The next number** is above every number of the device. -/
theorem lt_nextSeq {pairs : List (String × Int)} {deviceId : String} {n : Int}
    (h : (deviceId, n) ∈ pairs) : n < nextSeq pairs deviceId := by
  rcases nextSeq_eq_iff.mp rfl with ⟨-, hnone⟩ | ⟨-, hlt⟩
  · exact absurd h (hnone n)
  · exact hlt n h

/-- The number after the next one. -/
theorem nextSeq_append (pairs : List (String × Int)) (deviceId : String) :
    nextSeq (pairs ++ [(deviceId, nextSeq pairs deviceId)]) deviceId = nextSeq pairs deviceId + 1 := by
  refine nextSeq_eq_iff.mpr (.inr ⟨?_, fun m hm => ?_⟩)
  · rw [Int.add_sub_cancel]
    exact List.mem_append_right _ (List.mem_singleton_self _)
  · rcases List.mem_append.mp hm with hm | hm
    · exact Int.lt_add_one_of_le (lt_nextSeq hm).le
    · cases List.mem_singleton.mp hm
      exact Int.lt_add_one_of_le (Int.le_refl _)
/-- `product.quantity = Product.quantity + delta`; the UPDATE stamps `updated_at`. -/
def Product.bump (delta : Int) (stamp : String) (p : Product) : Product :=
  { p with quantity := p.quantity + delta, updatedAt := stamp }

/-- `batch.quantity = Batch.quantity + delta`; the UPDATE stamps `updated_at`. -/
def Batch.bump (delta : Int) (stamp : String) (b : Batch) : Batch :=
  { b with quantity := b.quantity + delta, updatedAt := stamp }

/-- Append a ledger row and add its delta to the two cached quantities. -/
def Db.applyOperation (d : Db) (op : Operation) (stamp : String) : Db :=
  let d := (d.insert .operation [op]).edit .product op.productId (Product.bump op.qtyDelta stamp)
  match op.batchId with
  | none => d
  | some b => d.edit .batch b (Batch.bump op.qtyDelta stamp)

/-- The batch guards of `record_operation`; they also decide what the row's `batch_id` is. -/
def batchGuard (env : Env) (db : Db) (args : OperationArgs) : Except Exn (Option String) :=
  if args.type ∈ stockAffectingTypes then
    match args.batchId with
    | none => .error (.value s!"batch_id is required for \x27{args.type}\x27 operations")
    | some batchId =>
      match db.find .batch batchId with
      | none => .error (.value s!"unknown batch: \x27{batchId}\x27")
      | some batch =>
        if batch.productId ≠ args.productId then
          .error (.value "batch does not belong to product")
        -- an operator may send goods to any warehouse: the incoming leg is not checked
        else if !env.warehouseAllowed batch.warehouseId &&
            !(args.type = "transfer" && decide (args.qtyDelta > 0)) then
          .error (.warehouseAccess batch.warehouseId)
        else .ok (some batchId)
  else match args.batchId with
    | none => .ok none
    | some _ => .error (.value s!"\x27{args.type}\x27 operations are batch-less")

/-- The type guard of `record_operation`. -/
def typeGuard (args : OperationArgs) : Except Exn Unit :=
  if args.type ∈ operationTypes then .ok ()
  else .error (.value s!"unknown operation type: \x27{args.type}\x27")

/-- The product guard of `record_operation`. -/
def productGuard (db : Db) (args : OperationArgs) : Except Exn Unit :=
  match db.find .product args.productId with
  | none => .error (.value s!"unknown product: \x27{args.productId}\x27")
  | some product =>
    if product.deletedAt.isSome then
      .error (.value s!"product is deleted: \x27{args.productId}\x27")
    else .ok ()

/-- Raise the error of a guard. -/
def orRaise {α β : Type} (r : Except Exn α) (k : α → Act β) : Act β :=
  match r with
  | .ok a => k a
  | .error e => Tx.raise e

/-- The row `record_operation` appends. -/
def newOperation (env : Env) (db : Db) (args : OperationArgs) (batchId : Option String)
    (createdAt : String) (day : Date) : Operation where
  id := env.newId db.usedIds
  type := args.type
  productId := args.productId
  qtyDelta := args.qtyDelta
  unitCostCents := args.unitCostCents
  unitPriceCents := args.unitPriceCents
  payload := args.payload
  saleId := args.saleId
  batchId := batchId
  reversesOpId := none
  authorId := env.authorFields.1
  deviceId := env.deviceId
  seq := nextSeq (db.operations.map fun o => (o.deviceId, o.seq)) env.deviceId
  createdAt := createdAt
  businessDate := some day.isoformat
  createdBy := env.authorFields.2
  syncedAt := none

/-- The given day, or today. -/
def dayOrToday (env : Env) (day : Option Date) : Act Date :=
  match day with
  | some day => return day
  | none => localToday env

/-- `record_operation(..., commit=False)`: one row and the two increments, staged. -/
def recordOperation (env : Env) (args : OperationArgs) : Act Operation :=
  orRaise (typeGuard args) fun _ => do
    flush
    let db ← Tx.read
    orRaise (productGuard db args) fun _ =>
      orRaise (batchGuard env db args) fun batchId => do
        let createdAt ← utcnowIso env
        let day ← dayOrToday env args.businessDate
        let stamp ← utcnowIso env
        let op := newOperation env db args batchId createdAt day
        Tx.stage fun d => d.applyOperation op stamp
        return op

/-- `record_operation` with its default `commit=True`. -/
def recordOperationCommit (env : Env) (args : OperationArgs) : Act Operation := do
  let op ← recordOperation env args
  commit
  return op

/-! ## Recomputation -/

/-- `SUM(qty_delta)` of the operations that satisfy `p`. -/
def sumDelta (ops : List Operation) (p : Operation → Bool) : Int :=
  sumOver Operation.qtyDelta p ops

/-- `compute_stock`. -/
def computeStock (ops : List Operation) (productId : String) : Int :=
  sumDelta ops fun o => o.productId = productId

/-- The operations of a batch. -/
def batchSum (ops : List Operation) (batchId : String) : Int :=
  sumDelta ops fun o => o.batchId = some batchId

/-- A product's operations without a batch: the NULL bucket. -/
def nullBucket (ops : List Operation) (productId : String) : Int :=
  sumDelta ops fun o => o.productId = productId && o.batchId.isNone

/-- `compute_batch_stock`: a legacy batch also absorbs its product's NULL bucket. -/
def computeBatchStock (ops : List Operation) (b : Batch) : Int :=
  batchSum ops b.id + if b.isLegacy ≠ 0 then nullBucket ops b.productId else 0

/-- `product.quantity = q`: no UPDATE when nothing changes. -/
def Product.setQuantity (now : String) (q : Int) (p : Product) : Product :=
  if p.quantity = q then p else { p with quantity := q, updatedAt := now }

/-- `batch.quantity = q`: no UPDATE when nothing changes. -/
def Batch.setQuantity (now : String) (q : Int) (b : Batch) : Batch :=
  if b.quantity = q then b else { b with quantity := q, updatedAt := now }

/-- The first two passes: every cached quantity from the ledger. -/
def Db.recompute (now : String) (d : Db) : Db :=
  { d with
    products := d.products.map fun p => p.setQuantity now (computeStock d.operations p.id)
    batches := d.batches.map fun b => b.setQuantity now (computeBatchStock d.operations b) }

/-- The quantities of a product's batches, added up. -/
def batchTotal (batches : List Batch) (productId : String) : Int :=
  sumOver Batch.quantity (fun b => b.productId = productId) batches

/-- Some batch of the product is a legacy batch. -/
def hasLegacy (batches : List Batch) (productId : String) : Bool :=
  batches.any fun b => b.productId = productId && b.isLegacy != 0

/-- What the third pass expects of a product. -/
def expectedQuantity (d : Db) (productId : String) : Int :=
  batchTotal d.batches productId +
    if hasLegacy d.batches productId then 0 else nullBucket d.operations productId

/-- The product the third pass stops at, if any. -/
def stockMismatch (d : Db) : Option Product :=
  d.products.find? fun p => p.quantity ≠ expectedQuantity d p.id

/-- `recompute_derived`: repair the caches and check them. -/
def recomputeDerived (now : String) (d : Db) : Except Exn Db :=
  let d' := d.recompute now
  match stockMismatch d' with
  | some p => .error (.stockInvariant p.id)
  | none => .ok d'

end MyOriShop
