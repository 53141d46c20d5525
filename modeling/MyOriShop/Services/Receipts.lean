import MyOriShop.Services.Catalog

/-!
# Receipts and batches (`app/services/receipts.py`, `app/services/batches.py`)

* `registerReceipt` is `register_receipt`: an unknown code makes a new card, a known one takes the
  entered prices; then a new batch or a top-up of an existing one, and the `receipt` row.
* `updateBatch` is `update_batch`, the operator's edit of a batch's descriptive fields.
* `parseOptionalExpiry`, `activeWarehouses`, `warehouseCurrency`, `legacyBatch` are the helpers of
  those names.

Results:
* `keeps_registerReceipt`, `keeps_updateBatch`: a new batch starts at quantity 0 and its expiry is
  the canonical text of a day; an edit leaves what identifies a batch as it is.
-/

namespace MyOriShop

open Lib.Json (Value)
open Lib.Text Lib.IsoDate Lib.Transaction

/-! ## Helpers of the stock services -/

/-- The quantity guard of every stock form: a positive integer, 0 for anything else. -/
def parseQty (raw : String) : Int := (parseDigits (strip raw)).getD 0

/-- `QTY_ERROR`, the same text in every service. -/
def qtyError : String := "Укажите количество — целое число больше нуля."

/-- `BATCH_REQUIRED_ERROR`, the same text in every service. -/
def batchRequiredError : String := "Выберите партию."

/-- `PRODUCT_NOT_FOUND_TMPL` of sales, write-offs and transfers. -/
def productNotFoundError (code : String) : String :=
  s!"Товар с кодом „{code}“ не найден. Сначала оприходуйте товар."

/-- The active product of a code. -/
def activeProduct (db : Db) (code : String) : Option Product :=
  db.products.find? fun p => p.activeCode = some code

/-- `active_warehouses`, the ids; `own` (the source's `scoped`) limits them to the operator's. -/
def activeWarehouses (env : Env) (db : Db) (own : Bool) : List String :=
  (db.warehouses.filter fun w =>
    w.deletedAt.isNone && (!own || env.warehouseAllowed w.id)).map Warehouse.id

/-- `warehouse_currency`: an unknown warehouse has the default currency. -/
def warehouseCurrency (db : Db) (warehouseId : String) : String :=
  match db.find .warehouse warehouseId with
  | none => defaultCurrency
  | some w => if Warehouse.currency w = "" then defaultCurrency else Warehouse.currency w

/-- `legacy_batch`. -/
def legacyBatch (db : Db) (productId : String) : Option Batch :=
  db.batches.find? fun b => b.productId = productId && b.isLegacy == 1

/-- `parse_optional_expiry`. -/
def parseOptionalExpiry (raw : String) : Except String (Option Date) :=
  if strip raw = "" then .ok none
  else match Date.fromIso (strip raw) with
    | some day => .ok (some day)
    | none => .error "Укажите срок годности в формате ГГГГ-ММ-ДД."

/-- The stored text of an optional expiry. -/
def expiryText (parsed : Except String (Option Date)) : Option String :=
  (fieldValue parsed).map Date.isoformat

theorem canonical_expiryText {parsed : Except String (Option Date)} {e : String}
    (h : e ∈ expiryText parsed) : CanonicalDate e := by
  obtain ⟨d, -, rfl⟩ := Option.map_eq_some_iff.mp h
  exact ⟨d, rfl⟩

/-! ## Receipts -/

/-- The receipt form. -/
structure ReceiptForm where
  code : String
  name : String
  qtyRaw : String
  costRaw : String
  saleRaw : String
  warehouseId : String
  batchChoice : String
  expiryRaw : String := ""
  locationRaw : String := ""
  commentRaw : String := ""
  opDate : String := ""

/-- The field checks of `register_receipt`. -/
def receiptErrors (env : Env) (db : Db) (form : ReceiptForm) (day : Except String (Option Date)) :
    Errors :=
  let active := activeWarehouses env db true
  let choice := strip form.batchChoice
  let errors := Errors.putIf [] (strip form.code = "") "code" codeRequiredError
  let errors := errors.putIf (strip form.name = "") "name" "Укажите название."
  let errors := errors.putIf (parseQty form.qtyRaw ≤ 0) "quantity" qtyError
  let errors := errors.putField "cost" (parseOptionalCents form.costRaw)
  let errors := errors.putField "sale" (parseOptionalCents form.saleRaw)
  let errors :=
    if active = [] then errors.put "warehouse"
      "Нет активных складов. Чтобы оформить приход, сначала создайте склад."
    else errors.putIf (strip form.warehouseId ∉ active) "warehouse" "Выберите склад."
  let errors := errors.putIf (choice = "") "batch_choice"
    "Выберите партию для пополнения или «Новая партия»."
  let errors :=
    if choice = "new" then errors.putField "expiry" (parseOptionalExpiry form.expiryRaw) else errors
  errors.putDate day

/-- The entered prices under the card columns of the receipt's currency. -/
def enteredPrices (db : Db) (form : ReceiptForm) : List (PriceField × Option Int) :=
  let fields := cardPriceFields (warehouseCurrency db (strip form.warehouseId))
  [(fields.cost, fieldValue (parseOptionalCents form.costRaw)),
    (fields.sale, fieldValue (parseOptionalCents form.saleRaw))]

/-- The card a receipt creates for an unknown code. -/
def receiptProduct (env : Env) (form : ReceiptForm) (entered : List (PriceField × Option Int))
    (id now : String) : Product :=
  let name := strip form.name
  let p := { blankProduct id now with
    code := some (strip form.code), name := name, nameLc := some (env.lower name) }
  entered.foldl (fun q e => q.setPrice e.1 e.2) p

/-- The `price_change` row of an entered price. -/
def enteredPriceArgs (product : Product) (f : PriceField) (cents : Option Int) :
    OperationArgs where
  type := "price_change"
  productId := product.id
  qtyDelta := 0
  payload := .obj [("field", .str f.key), ("old_cents", (product.price f).elim .null .int),
    ("new_cents", cents.elim .null .int)]

/-- Entered prices go on an existing card, one audit row for each that changes it. -/
def applyEntered (env : Env) (product : Product) : List (PriceField × Option Int) → Act Unit
  | [] => return ()
  | (f, cents) :: rest =>
    if cents = none ∨ cents = product.price f then applyEntered env product rest
    else do
      let _ ← recordOperation env (enteredPriceArgs product f cents)
      let stamp ← utcnowIso env
      Tx.stage fun d => d.edit .product product.id fun p => (p.setPrice f cents).touch stamp
      applyEntered env product rest

/-- The card of a receipt: found and repriced, or created with its audit row. -/
def receiptCard (env : Env) (form : ReceiptForm) : Act Product := do
  let db ← Tx.read
  match activeProduct db (strip form.code) with
  | some product =>
    applyEntered env product (enteredPrices db form)
    return product
  | none =>
    let now ← utcnowIso env
    let product := receiptProduct env form (enteredPrices db form) (env.newId db.usedIds) now
    Tx.stage fun d => d.insert .product [product]
    let _ ← recordOperation env (createdArgs product)
    return product

/-- The batch a receipt creates. -/
def receiptBatch (form : ReceiptForm) (product : Product) (day : Date) (id now : String) :
    Batch where
  id := id
  productId := product.id
  warehouseId := strip form.warehouseId
  expiry := expiryText (parseOptionalExpiry form.expiryRaw)
  priceCents := fieldValue (parseOptionalCents form.saleRaw)
  costCents := fieldValue (parseOptionalCents form.costRaw)
  location := orNone (strip form.locationRaw)
  comment := orNone (strip form.commentRaw)
  name := some (product.name ++ " — " ++ formatRuDate day)
  quantity := 0
  isLegacy := 0
  createdAt := now
  updatedAt := now

/-- The batch of a receipt: a new one, or the chosen one if it is the product's in the warehouse. -/
def receiptTarget (env : Env) (form : ReceiptForm) (product : Product) (day : Date) :
    Act (Option String) := do
  flush
  if strip form.batchChoice = "new" then do
    let now ← utcnowIso env
    let db ← Tx.read
    let batch := receiptBatch form product day (env.newId db.usedIds) now
    Tx.stage fun d => d.insert .batch [batch]
    return some batch.id
  else do
    let db ← Tx.read
    match db.find .batch (strip form.batchChoice) with
    | none => return none
    | some b =>
      if Batch.productId b ≠ product.id ∨ Batch.warehouseId b ≠ strip form.warehouseId then
        return none
      else return some (Batch.id b)

/-- The `receipt` row. -/
def receiptArgs (form : ReceiptForm) (product : Product) (day : Date) (batchId : String) :
    OperationArgs where
  type := "receipt"
  productId := product.id
  qtyDelta := parseQty form.qtyRaw
  unitCostCents := fieldValue (parseOptionalCents form.costRaw)
  unitPriceCents := fieldValue (parseOptionalCents form.saleRaw)
  batchId := some batchId
  businessDate := some day

/-- `register_receipt`. -/
def registerReceipt (env : Env) (form : ReceiptForm) : Act (Outcome Operation) := do
  let day ← parseOpDate env form.opDate
  let db ← Tx.read
  orAnswer (receiptErrors env db form day).stop fun _ => do
    let resolved ← dayOrToday env (opDate day)
    let product ← receiptCard env form
    let target ← receiptTarget env form product resolved
    match target with
    | none => do
      Tx.rollback
      return .refused [("batch_choice", "Выберите партию для пополнения или «Новая партия».")]
    | some batchId => do
      let op ← recordOperation env (receiptArgs form product resolved batchId)
      Tx.recover
        (do
          commit
          return .done op)
        (rollbackWith (.refused [("code", duplicateCodeError)]) (· = .integrity))

/-! ## Editing a batch -/

/-- The batch form. -/
structure BatchForm where
  nameRaw : String
  expiryRaw : String
  locationRaw : String
  commentRaw : String
  priceRaw : String
  costRaw : String

/-- The field checks of `update_batch`. -/
def batchErrors (form : BatchForm) : Errors :=
  let long (raw : String) (limit : Nat) : Bool := decide (limit < (strip raw).length)
  let errors := Errors.putIf [] (long form.nameRaw 220) "name"
    "Название партии слишком длинное — не больше 220 символов."
  let errors := errors.putIf (long form.locationRaw 100) "location"
    "Место хранения слишком длинное — не больше 100 символов."
  let errors := errors.putIf (long form.commentRaw 200) "comment"
    "Комментарий слишком длинный — не больше 200 символов."
  let errors := errors.putField "expiry" (parseOptionalExpiry form.expiryRaw)
  let errors := errors.putField "price" (parseOptionalCents form.priceRaw)
  errors.putField "cost" (parseOptionalCents form.costRaw)

/-- Write a validated form on a batch; a save that changes nothing leaves its stamp. -/
def BatchForm.onto (form : BatchForm) (stamp : String) (b : Batch) : Batch :=
  let b' := { b with
    name := orNone (strip form.nameRaw)
    expiry := expiryText (parseOptionalExpiry form.expiryRaw)
    location := orNone (strip form.locationRaw)
    comment := orNone (strip form.commentRaw)
    priceCents := fieldValue (parseOptionalCents form.priceRaw)
    costCents := fieldValue (parseOptionalCents form.costRaw) }
  if b'.name = b.name ∧ b'.expiry = b.expiry ∧ b'.location = b.location ∧ b'.comment = b.comment ∧
    b'.priceCents = b.priceCents ∧ b'.costCents = b.costCents then b
  else { b' with updatedAt := stamp }

/-- `update_batch`. -/
def updateBatch (env : Env) (batchId : String) (form : BatchForm) : Act (Outcome String) := do
  let db ← Tx.read
  let known := (db.find .batch batchId).any fun b => env.warehouseAllowed (Batch.warehouseId b)
  let errors := if known then batchErrors form else [("batch", "Партия не найдена.")]
  orAnswer errors.stop fun _ => do
    let stamp ← utcnowIso env
    Tx.stage fun d => d.edit .batch batchId (form.onto stamp)
    commit
    return .done batchId

/-! ## What is written -/

variable {sc : Scope}

theorem keeps_applyEntered {env : Env} {product : Product} (es : List (PriceField × Option Int)) :
    Keeps (Scoped sc env) (applyEntered env product es) := by
  induction es with
  | nil => exact fun w => keepsAt_pure w _
  | cons e es ih =>
    intro w
    unfold applyEntered
    split_ifs
    · exact ih w
    · have hplain : (enteredPriceArgs product e.1 e.2).Plain := by
        simp [OperationArgs.Plain, enteredPriceArgs]
      refine keepsAt_bind (keeps_recordOperation (.inr rfl) (fun _ => hplain) w) fun _ w' => ?_
      refine keepsAt_utcnowIso fun stamp _ => keepsAt_stage (.edited .product _ _ ?_ ?_) (ih _)
      · exact fun p _ => ⟨(Product.touch_id ..).trans (Product.setPrice_id ..),
          (Product.touch_quantity ..).trans (Product.setPrice_quantity ..)⟩
      · exact fun _ _ _ => trivial

theorem enter_id (es : List (PriceField × Option Int)) (p : Product) :
    (es.foldl (fun q e => q.setPrice e.1 e.2) p).id = p.id := by
  induction es generalizing p with
  | nil => rfl
  | cons e es ih => simp [ih]

theorem enter_quantity (es : List (PriceField × Option Int)) (p : Product) :
    (es.foldl (fun q e => q.setPrice e.1 e.2) p).quantity = p.quantity := by
  induction es generalizing p with
  | nil => rfl
  | cons e es ih => simp [ih]

theorem keeps_receiptCard {env : Env} {form : ReceiptForm} :
    Keeps (Scoped sc env) (receiptCard env form) := by
  intro w
  unfold receiptCard
  refine keepsAt_read ?_
  split
  · exact keepsAt_bind (keeps_applyEntered _ w) fun _ w' => keepsAt_pure w' _
  · refine keepsAt_utcnowIso fun now _ => keepsAt_stage (.born .product _ ?_ ?_ fun _ => by decide) ?_
    · show Fresh w (receiptProduct env form _ _ now).id
      rw [receiptProduct, enter_id]
      exact (env.newId w.usedIds).2
    · show (receiptProduct env form _ _ now).quantity = 0
      rw [receiptProduct, enter_quantity]
      rfl
    · refine keepsAt_bind (keeps_recordOperation (.inr rfl) ?_ _) fun _ w' => keepsAt_pure w' _
      exact fun _ => by simp [OperationArgs.Plain, createdArgs]

theorem keeps_receiptTarget {env : Env} {form : ReceiptForm} {product : Product} {day : Date} :
    Keeps (Scoped sc env) (receiptTarget env form product day) := by
  intro w
  unfold receiptTarget
  refine keepsAt_flush' fun _ => ?_
  split
  · refine keepsAt_utcnowIso fun now _ => keepsAt_read ?_
    refine keepsAt_stage (.born .batch _ (env.newId w.usedIds).2 ?_ fun _ => by decide)
      (keepsAt_pure _ _)
    exact ⟨rfl, fun e he => .inl (canonical_expiryText he), .inl rfl⟩
  · refine keepsAt_read ?_
    split
    · exact keepsAt_pure _ _
    · split_ifs <;> exact keepsAt_pure _ _

theorem keeps_registerReceipt {env : Env} {form : ReceiptForm} :
    Keeps (Scoped sc env) (registerReceipt env form) := by
  intro w
  unfold registerReceipt
  refine keepsAt_bind_still (still_parseOpDate env _) fun day => keepsAt_read ?_
  refine keepsAt_orAnswer fun _ _ => keepsAt_dayOrToday fun resolved => ?_
  refine keepsAt_bind (keeps_receiptCard w) fun product w => ?_
  refine keepsAt_bind (keeps_receiptTarget w) fun target w => ?_
  cases target with
  | none => exact keeps_rollback_bind (f := fun _ => pure _) (fun w' => keepsAt_pure w' _) w
  | some batchId =>
    refine keepsAt_bind (keeps_recordOperation (.inl ?_) ?_ w) fun op w => ?_
    · simp [receiptArgs, stockAffectingTypes]
    · exact fun _ => by simp [OperationArgs.Plain, receiptArgs]
    · refine keepsAt_recover ?_ fun e y h => keeps_rollbackWith h
      exact keepsAt_bind (keeps_commit _ _ w) fun _ w' => keepsAt_pure w' _

theorem edited_batch (form : BatchForm) (stamp : String) (b : Batch) :
    Edited .batch b (form.onto stamp b) := by
  unfold BatchForm.onto
  dsimp only
  split_ifs
  · exact ⟨rfl, rfl, rfl, rfl, rfl, fun e he => .inr he⟩
  · exact ⟨rfl, rfl, rfl, rfl, rfl, fun e he => .inl (canonical_expiryText he)⟩

theorem keeps_updateBatch {env : Env} {batchId : String} {form : BatchForm} :
    Keeps (Scoped sc env) (updateBatch env batchId form) := by
  intro w
  unfold updateBatch
  refine keepsAt_read (keepsAt_orAnswer fun _ _ => keepsAt_utcnowIso fun stamp _ => ?_)
  refine keepsAt_stage (.edited .batch batchId _ (fun b _ => edited_batch form stamp b)
    fun _ _ _ => trivial) ?_
  exact keepsAt_bind (keeps_commit _ _ _) fun _ w' => keepsAt_pure w' _

end MyOriShop
