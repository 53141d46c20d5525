import Mathlib.Data.List.Sort
import MyOriShop.Services.Receipts

/-!
# Sales and returns (`app/services/sales.py`, `app/services/returns.py`)

* `registerSale` is `register_sale`: a basket of lines, one header, one stock row for each line and
  one cash row for the whole basket, in one transaction.
* `registerReturn` is `register_return`: one stock row with the origin's frozen prices and, when the
  origin had a price, one cash row. A sale from before the batches goes back to the product's legacy
  batch, `resolveOrCreateReturnBatchId`, which is created when there is none.

Results:
* `keeps_registerSale`, `keeps_registerReturn`: every stock row goes through `recordOperation`; the
  only batch a return creates is the first legacy batch of its product.
-/

namespace MyOriShop

open Lib.Json (Value)
open Lib.Text Lib.IsoDate Lib.Sums Lib.Transaction

/-! ## The basket -/

/-- A raw basket line: code, quantity, price and the picked batch. -/
structure RawLine where
  code : String
  qty : String
  price : String
  batchId : String

/-- `zip(codes, qtys, prices)` with the padded `batch_ids` alongside. -/
def zipLines : List String → List String → List String → List String → List RawLine
  | code :: codes, qty :: qtys, price :: prices, batchIds =>
    ⟨code, qty, price, batchIds.headD ""⟩ :: zipLines codes qtys prices batchIds.tail
  | _, _, _, _ => []

/-- `non_blank_lines`: the batch column never makes a line count. -/
def nonBlankLines (codes qtys prices batchIds : List String) : List RawLine :=
  (zipLines codes qtys prices batchIds).filter fun l =>
    strip l.code ≠ "" || strip l.qty ≠ "" || strip l.price ≠ ""

/-- A line whose fields have been resolved; a refused field is `none`. -/
structure ResolvedLine where
  product : Option Product
  qty : Int
  priceCents : Option Int
  batch : Option Batch

/-- The required, not negative price of a line. -/
def linePrice (raw : String) : Except String Int :=
  if strip raw = "" then .error "Укажите цену продажи."
  else match toCents (strip raw) with
    | none => .error priceError
    | some cents => if cents < 0 then .error priceError else .ok cents

/-- The picked batch of a line: known, the product's, in one of the operator's warehouses. -/
def lineBatch (env : Env) (db : Db) (product : Option Product) (raw : String) : Option Batch :=
  let b := if strip raw = "" then none else db.find .batch (strip raw)
  b.filter fun b =>
    (product.all fun p => Batch.productId b = p.id) && env.warehouseAllowed (Batch.warehouseId b)

/-- Resolve one line. -/
def resolveLine (env : Env) (db : Db) (l : RawLine) : ResolvedLine :=
  let product := activeProduct db (strip l.code)
  { product := product
    qty := parseQty l.qty
    priceCents := (linePrice l.price).toOption
    batch := lineBatch env db product l.batchId }

/-- The errors of line `i`. -/
def lineErrors (env : Env) (db : Db) (errors : Errors) (i : Nat) (l : RawLine) : Errors :=
  let r := resolveLine env db l
  let errors := errors.putIf (r.qty ≤ 0) s!"qty-{i}" qtyError
  let errors := errors.putField s!"price-{i}" (linePrice l.price)
  let errors := errors.putIf r.product.isNone s!"code-{i}" (productNotFoundError (strip l.code))
  errors.putIf r.batch.isNone s!"batch-{i}" batchRequiredError

/-- The errors of every line, in order, from line `i` on. -/
def basketErrors (env : Env) (db : Db) : Errors → Nat → List RawLine → Errors
  | errors, _, [] => errors
  | errors, i, l :: ls => basketErrors env db (lineErrors env db errors i l) (i + 1) ls

/-- A basket line with everything there. -/
structure BasketLine where
  product : Product
  qty : Int
  priceCents : Int
  batch : Batch

/-- The line, when nothing about it was refused. -/
def ResolvedLine.complete (r : ResolvedLine) : Option BasketLine := do
  return ⟨← r.product, r.qty, ← r.priceCents, ← r.batch⟩

/-- `SAVE_ROLLBACK`. -/
def saveRollbackError : String := "Не удалось сохранить продажу. Попробуйте ещё раз."

/-- The currencies of the warehouses the basket draws from. -/
def basketCurrencies (db : Db) (lines : List BasketLine) : List String :=
  ((db.warehouses.filter fun w => lines.any fun l => l.batch.warehouseId = w.id).map
    Warehouse.currency).dedup

/-- The quantity the basket requests of a batch. -/
def requestedOf (lines : List BasketLine) (batchId : String) : Int :=
  sumOver BasketLine.qty (fun l => l.batch.id = batchId) lines

/-- The oversold batches of a basket, by product name. -/
def oversold (lines : List BasketLine) : List Oversell :=
  -- the last line of a batch names its product, the first one its place
  let ids := (lines.map fun l => l.batch.id).reverse.dedup.reverse
  let entries := ids.filterMap fun id =>
    match lines.reverse.find? fun l => l.batch.id = id with
    | none => none
    | some l =>
      if l.batch.quantity < requestedOf lines id then
        some (l.product.name, ⟨l.product.id, id, l.batch.quantity, requestedOf lines id⟩)
      else none
  (entries.insertionSort fun a b => a.1 ≤ b.1).map Prod.snd

/-- The lines priced below the card's minimum in the basket's currency, by product name. -/
def belowMinimum (currency : String) (lines : List BasketLine) : List (String × Int × Int) :=
  let field := (cardPriceFields currency).minSale
  let entries := lines.filterMap fun l =>
    match l.product.price field with
    | none => none
    | some minimum =>
      if l.priceCents < minimum then some (l.product.name, l.product.id, l.priceCents, minimum)
      else none
  (entries.insertionSort fun a b => a.1 ≤ b.1).map Prod.snd

/-- The sale form. -/
structure SaleForm where
  customerId : Option String
  codes : List String
  qtys : List String
  prices : List String
  batchIds : List String := []
  confirm : String := ""
  opDate : String := ""

/-- What a checked basket writes. -/
structure SalePlan where
  lines : List BasketLine
  currency : String

/-- What a sale answers: the header's id, the line count and the total. -/
structure SaleResult where
  header : String
  lineCount : Nat
  totalCents : Int

/-- The checks of `register_sale`. -/
def saleCheck (env : Env) (db : Db) (form : SaleForm) (day : Except String (Option Date)) :
    Except (Outcome SaleResult) SalePlan := do
  let raw := nonBlankLines form.codes form.qtys form.prices form.batchIds
  if raw = [] then
    refuse "basket" "Добавьте хотя бы одну строку, чтобы оформить продажу."
  ((basketErrors env db [] 0 raw).putDate day).stop
  let lines := raw.filterMap fun l => (resolveLine env db l).complete
  match basketCurrencies db lines with
  | [] => refuse "basket" saveRollbackError
  | _ :: _ :: _ =>
    refuse "basket" "Нельзя добавить в одну продажу товары со складов с разной валютой."
  | [currency] =>
    let warning : Warning :=
      { oversell := oversold lines, belowMinimum := belowMinimum currency lines }
    if form.confirm ≠ "1" ∧ (warning.oversell ≠ [] ∨ warning.belowMinimum ≠ []) then
      throw (.warned warning)
    return ⟨lines, currency⟩

/-- The header of a sale; its author column stays empty. -/
def newSale (env : Env) (form : SaleForm) (id createdAt : String) : Sale where
  id := id
  customerId := form.customerId.bind orNone
  createdAt := createdAt
  createdBy := env.operatorName
  authorId := none
  deviceId := some env.deviceId

/-- The `sale` row of a line; the batch's cost goes before the card's. -/
def saleArgs (currency saleId : String) (day : Date) (l : BasketLine) : OperationArgs where
  type := "sale"
  productId := l.product.id
  qtyDelta := -l.qty
  unitCostCents := l.batch.costCents.or (l.product.price (cardPriceFields currency).cost)
  unitPriceCents := some l.priceCents
  saleId := some saleId
  batchId := some l.batch.id
  businessDate := some day

/-- One staged row for each line. -/
def recordLines (env : Env) (currency saleId : String) (day : Date) : List BasketLine → Act Unit
  | [] => return ()
  | l :: ls => do
    let _ ← recordOperation env (saleArgs currency saleId day l)
    recordLines env currency saleId day ls

/-- The total of a basket. -/
def saleTotal (lines : List BasketLine) : Int := (lines.map fun l => l.qty * l.priceCents).sum

/-- `register_sale`. -/
def registerSale (env : Env) (form : SaleForm) : Act (Outcome SaleResult) := do
  let day ← parseOpDate env form.opDate
  let db ← Tx.read
  orAnswer (saleCheck env db form day) fun plan => do
    let resolved ← dayOrToday env (opDate day)
    let createdAt ← utcnowIso env
    let header := newSale env form (env.newId db.usedIds) createdAt
    Tx.stage fun d => d.insert .sale [header]
    Tx.recover
      (do
        recordLines env plan.currency header.id resolved plan.lines
        let _ ← recordCashMovement env
          { category := "sale", amountCents := saleTotal plan.lines, currency := plan.currency,
            businessDate := some resolved, saleId := some header.id }
        commit
        return .done ⟨header.id, plan.lines.length, saleTotal plan.lines⟩)
      (rollbackWith (.refused [("basket", saveRollbackError)]) integrityOrValue)

/-- The write step of `register_sale`: what follows its checks. -/
def writeSale (env : Env) (form : SaleForm) (day : Except String (Option Date)) (plan : SalePlan) :
    Act (Outcome SaleResult) := do
  let db ← Tx.read
  let resolved ← dayOrToday env (opDate day)
  let createdAt ← utcnowIso env
  let header := newSale env form (env.newId db.usedIds) createdAt
  Tx.stage fun d => d.insert .sale [header]
  Tx.recover
    (do
      recordLines env plan.currency header.id resolved plan.lines
      let _ ← recordCashMovement env
        { category := "sale", amountCents := saleTotal plan.lines, currency := plan.currency,
          businessDate := some resolved, saleId := some header.id }
      commit
      return .done ⟨header.id, plan.lines.length, saleTotal plan.lines⟩)
    (rollbackWith (.refused [("basket", saveRollbackError)]) integrityOrValue)

theorem registerSale_eq (env : Env) (form : SaleForm) :
    registerSale env form =
      (do
        let day ← parseOpDate env form.opDate
        let db ← Tx.read
        orAnswer (saleCheck env db form day) (writeSale env form day)) := by
  refine congrArg (parseOpDate env form.opDate >>= ·) (funext fun day => read_bind_congr fun s => ?_)
  unfold orAnswer
  cases saleCheck env s.working form day <;> rfl

/-! ## Returns -/

/-- `DEFAULT_WAREHOUSE_ID`. -/
def defaultWarehouseId : String := "00000000-0000-4000-8000-000000000010"

/-- `LEGACY_BATCH_COMMENT`. -/
def legacyBatchComment : String := "Остаток до внедрения партий"

/-- The units of a product moved by the operations of one type linked to a sale. -/
def movedQty (db : Db) (type : String) (saleId productId : String) : Int :=
  sumDelta db.operations fun o =>
    o.saleId = some saleId && o.productId = productId && o.type = type

/-- `returnable_qty`: sold less returned. -/
def returnableQty (db : Db) (saleId productId : String) : Int :=
  -movedQty db "sale" saleId productId - movedQty db "return" saleId productId

/-- `resolve_return_batch`. -/
def resolveReturnBatch (db : Db) (origin : Operation) : Option Batch :=
  match origin.batchId with
  | some batchId => db.find .batch batchId
  | none => legacyBatch db origin.productId

/-- `origin_allowed`. -/
def originAllowed (env : Env) (db : Db) (origin : Operation) : Bool :=
  env.warehouseAllowed ((resolveReturnBatch db origin).elim defaultWarehouseId Batch.warehouseId)

/-- The lazily created legacy batch. -/
def lazyLegacyBatch (productId id now : String) : Batch where
  id := id
  productId := productId
  warehouseId := defaultWarehouseId
  expiry := none
  priceCents := none
  costCents := none
  location := none
  comment := some legacyBatchComment
  name := none
  quantity := 0
  isLegacy := 1
  createdAt := now
  updatedAt := now

/-- `_resolve_or_create_return_batch_id`. -/
def resolveOrCreateReturnBatchId (env : Env) (origin : Operation) : Act String := do
  match origin.batchId with
  | some batchId => return batchId
  | none =>
    let db ← Tx.read
    match legacyBatch db origin.productId with
    | some b => return Batch.id b
    | none =>
      let now ← utcnowIso env
      let b := lazyLegacyBatch origin.productId (env.newId db.usedIds) now
      Tx.stage fun d => d.insert .batch [b]
      flush
      return Batch.id b

/-- The return form. -/
structure ReturnForm where
  originOpId : String
  qtyRaw : String
  opDate : String := ""

/-- The origin of a return: a sale row linked to its header, in a warehouse of the operator's. -/
def returnOrigin (env : Env) (db : Db) (originOpId : String) : Option (Operation × String) := do
  let origin ← db.find .operation originOpId
  let saleId ← Operation.saleId origin
  if Operation.type origin = "sale" ∧ originAllowed env db origin then some (origin, saleId)
  else none

/-- The checks of `register_return` before the date: the origin, its sale and what is left to
return. -/
def returnCheck (env : Env) (db : Db) (form : ReturnForm) :
    Except (Outcome (Operation × Int)) (Operation × String × Int) := do
  let some (origin, saleId) := returnOrigin env db form.originOpId |
    refuse "form" "Исходная продажа не найдена."
  if parseQty form.qtyRaw ≤ 0 then refuse "quantity" qtyError
  let remaining := returnableQty db saleId origin.productId
  if remaining ≤ 0 then refuse "quantity" "Эта позиция уже возвращена полностью."
  if remaining < parseQty form.qtyRaw then
    refuse "quantity" s!"Нельзя вернуть больше, чем доступно ({remaining})."
  return (origin, saleId, remaining)

/-- The `return` row: the origin's frozen prices. -/
def returnArgs (origin : Operation) (saleId : String) (qty : Int) (batchId : String) (day : Date) :
    OperationArgs where
  type := "return"
  productId := origin.productId
  qtyDelta := qty
  unitPriceCents := origin.unitPriceCents
  unitCostCents := origin.unitCostCents
  saleId := some saleId
  batchId := some batchId
  payload := .obj [("origin_op_id", .str origin.id)]
  businessDate := some day

/-- The warehouse a batch lies in, if both are there. -/
def warehouseOfBatch (db : Db) (batchId : String) : Option Warehouse :=
  (db.find .batch batchId).bind fun b => db.find .warehouse (Batch.warehouseId b)

/-- The money side of a return and the end of its transaction. -/
def settleReturn (env : Env) (saleId : String) (debit : Int) (batchId : String) (day : Date)
    (answer : Outcome (Operation × Int)) : Act (Outcome (Operation × Int)) := do
  if debit = 0 then
    commit
    return answer
  else
    let db ← Tx.read
    match warehouseOfBatch db batchId with
    | none =>
      Tx.rollback
      return .refused [("form", saveFailedError)]
    | some warehouse =>
      let _ ← recordCashMovement env
        { category := "return", amountCents := -debit, currency := warehouse.currency,
          businessDate := some day, saleId := some saleId }
      commit
      return answer

/-- `except ValueError` and `except IntegrityError` of `register_return`. -/
def returnHandler (e : Exn) : Option (Act (Outcome (Operation × Int))) :=
  if e.isValueError then
    rollbackWith (.refused [("form", "Товар недоступен для возврата.")]) Exn.isValueError e
  else rollbackWith (.refused [("form", saveFailedError)]) (· = .integrity) e

/-- `register_return`. -/
def registerReturn (env : Env) (form : ReturnForm) : Act (Outcome (Operation × Int)) := do
  let db ← Tx.read
  orAnswer (returnCheck env db form) fun (origin, saleId, remaining) => do
    let day ← parseOpDate env form.opDate
    orAnswer (Errors.putDate [] day).stop fun _ => do
      let resolved ← dayOrToday env (opDate day)
      let qty := parseQty form.qtyRaw
      Tx.recover
        (do
          let batchId ← resolveOrCreateReturnBatchId env origin
          let op ← recordOperation env (returnArgs origin saleId qty batchId resolved)
          settleReturn env saleId (qty * origin.unitPriceCents.getD 0) batchId resolved
            (.done (op, remaining - qty)))
        returnHandler

/-- The write step of `register_return`: what follows its checks. -/
def writeReturn (env : Env) (form : ReturnForm) :
    Operation × String × Int → Act (Outcome (Operation × Int))
  | (origin, saleId, remaining) => do
    let day ← parseOpDate env form.opDate
    orAnswer (Errors.putDate [] day).stop fun _ => do
      let resolved ← dayOrToday env (opDate day)
      let qty := parseQty form.qtyRaw
      Tx.recover
        (do
          let batchId ← resolveOrCreateReturnBatchId env origin
          let op ← recordOperation env (returnArgs origin saleId qty batchId resolved)
          settleReturn env saleId (qty * origin.unitPriceCents.getD 0) batchId resolved
            (.done (op, remaining - qty)))
        returnHandler

theorem registerReturn_eq (env : Env) (form : ReturnForm) :
    registerReturn env form =
      (do
        let db ← Tx.read
        orAnswer (returnCheck env db form) (writeReturn env form)) := rfl

/-! ## What is written -/

variable {free : String → Prop} {steady : Prop}

/-- The scope of a service that sells. -/
def selling (free : String → Prop) (steady : Prop) : Scope := ⟨free, False, steady⟩

theorem keeps_recordLines {env : Env} {currency saleId : String} {day : Date}
    (ls : List BasketLine) : Keeps (Scoped (selling free steady) env) (recordLines env currency saleId day ls) := by
  induction ls with
  | nil => exact fun w => keepsAt_pure w _
  | cons l ls ih =>
    refine fun w => keepsAt_bind (keeps_recordOperation (.inl ?_) False.elim w) fun _ => ih
    simp [saleArgs, stockAffectingTypes]

theorem keeps_registerSale {env : Env} {form : SaleForm} :
    Keeps (Scoped (selling free steady) env) (registerSale env form) := by
  intro w
  unfold registerSale
  refine keepsAt_bind_still (still_parseOpDate env _) fun day => keepsAt_read ?_
  refine keepsAt_orAnswer fun plan _ => keepsAt_dayOrToday fun resolved => ?_
  refine keepsAt_utcnowIso fun createdAt _ => ?_
  refine keepsAt_stage (.born .sale _ (env.newId w.usedIds).2 trivial False.elim) ?_
  refine keepsAt_recover ?_ fun e y h => keeps_rollbackWith h
  refine keepsAt_bind (keeps_recordLines _ _) fun _ w => ?_
  refine keepsAt_bind (keeps_recordCashMovement False.elim w) fun _ w => ?_
  exact keepsAt_bind (keeps_commit _ _ w) fun _ w' => keepsAt_pure w' _

theorem legacyBatch_none {db : Db} {productId : String} (h : legacyBatch db productId = none) :
    ∀ b ∈ db.batches, b.productId = productId → b.isLegacy ≠ 1 := by
  intro b hb hp hl
  have := List.find?_eq_none.mp h b hb
  simp [hp, hl] at this

/-- A return creates at most the first legacy batch of its product. -/
theorem keeps_resolveOrCreate {env : Env} {origin : Operation} :
    Keeps (Scoped (selling free steady) env) (resolveOrCreateReturnBatchId env origin) := by
  intro w
  unfold resolveOrCreateReturnBatchId
  split
  · exact keepsAt_pure _ _
  · refine keepsAt_read ?_
    split
    · exact keepsAt_pure _ _
    · next hnone =>
      refine keepsAt_utcnowIso fun now _ => ?_
      refine keepsAt_stage (.born .batch _ (env.newId w.usedIds).2 ?_ False.elim) ?_
      · exact ⟨rfl, fun e he => absurd he (by simp [lazyLegacyBatch]),
          .inr ⟨rfl, legacyBatch_none hnone⟩⟩
      · exact keepsAt_flush' fun _ => keepsAt_pure _ _

theorem keeps_settleReturn {env : Env} {saleId : String} {debit : Int} {batchId : String}
    {day : Date} {answer : Outcome (Operation × Int)} :
    Keeps (Scoped (selling free steady) env) (settleReturn env saleId debit batchId day answer) := by
  intro w
  unfold settleReturn
  split
  · exact keepsAt_bind (keeps_commit _ _ w) fun _ w' => keepsAt_pure w' _
  · refine keepsAt_read ?_
    split
    · exact keeps_rollback_bind (f := fun _ => pure _) (fun w' => keepsAt_pure w' _) w
    · refine keepsAt_bind (keeps_recordCashMovement False.elim w) fun _ w' => ?_
      exact keepsAt_bind (keeps_commit _ _ w') fun _ w'' => keepsAt_pure w'' _

theorem keeps_returnHandler {e : Exn} {y : Act (Outcome (Operation × Int))}
    (h : returnHandler e = some y) : Keeps (Scoped (selling free steady) env) y := by
  unfold returnHandler at h
  split_ifs at h <;> exact keeps_rollbackWith h

theorem keeps_registerReturn {env : Env} {form : ReturnForm} :
    Keeps (Scoped (selling free steady) env) (registerReturn env form) := by
  intro w
  unfold registerReturn
  refine keepsAt_read (keepsAt_orAnswer fun plan _ => ?_)
  refine keepsAt_bind_still (still_parseOpDate env _) fun day => keepsAt_orAnswer fun _ _ => ?_
  refine keepsAt_dayOrToday fun resolved => ?_
  refine keepsAt_recover ?_ fun e y h => keeps_returnHandler h
  refine keepsAt_bind (keeps_resolveOrCreate w) fun batchId w => ?_
  refine keepsAt_bind (keeps_recordOperation (.inl ?_) False.elim w) fun op w => keeps_settleReturn w
  simp [returnArgs, stockAffectingTypes]

end MyOriShop
