import MyOriShop.Lib.Fallible
import MyOriShop.Services.Sales

/-!
# Write-offs, corrections and transfers (`app/services/writeoffs.py`, `corrections.py`,
`transfers.py`)

* `registerWriteoff`, `registerCorrection` are the two one-row services.
* `registerTransfer` is `register_transfer`: a new batch in the destination warehouse and two stock
  rows of one business date.
* A transfer stores `new_expiry.strip()` as it was typed. Every other writer of `batches.expiry`
  parses the text as a date first.

Results:
* `keeps_registerWriteoff`, `keeps_registerCorrection`.
* `keeps_registerTransfer`: the typed expiry of a transfer is the one text that may be stored
  unparsed.
-/

namespace MyOriShop

open Lib.Json (Value)
open Lib.Text Lib.IsoDate Lib.Fallible Lib.Transaction

/-- The picked batch of a stock form: known, the product's, in one of the operator's warehouses. -/
def pickedBatch (env : Env) (db : Db) (product : Product) (raw : String) : Option Batch :=
  let b := if strip raw = "" then none else db.find .batch (strip raw)
  b.filter fun b =>
    Batch.productId b = product.id && env.warehouseAllowed (Batch.warehouseId b)

/-- The warning about a removal beyond what the batch has. -/
def oversellWarning (product : Product) (batch : Batch) (requested : Int) : Warning :=
  { oversell := [⟨product.id, batch.id, batch.quantity, requested⟩] }

/-! ## Write-offs -/

/-- The keys of `WRITEOFF_REASONS`. -/
def writeoffReasons : List String := ["damaged", "expired", "lost", "personal", "gift", "other"]

/-- The write-off form. -/
structure WriteoffForm where
  code : String
  qtyRaw : String
  reasonCode : String
  note : String
  batchId : String := ""
  confirm : String := ""
  opDate : String := ""

/-- The `writeoff` row. -/
def writeoffArgs (form : WriteoffForm) (day : Option Date) (product : Product) (batch : Batch) :
    OperationArgs where
  type := "writeoff"
  productId := product.id
  qtyDelta := -parseQty form.qtyRaw
  payload := .obj [("reason_code", .str form.reasonCode), ("note", .str (strip form.note))]
  batchId := some batch.id
  businessDate := day

/-- The checks of `register_writeoff`. -/
def writeoffCheck (env : Env) (db : Db) (form : WriteoffForm) (day : Except String (Option Date)) :
    Except (Outcome Operation) (Product × Batch) := do
  let errors := Errors.putIf [] (strip form.code = "") "code" codeRequiredError
  let errors := errors.putIf (parseQty form.qtyRaw ≤ 0) "quantity" qtyError
  let errors :=
    errors.putIf (form.reasonCode ∉ writeoffReasons) "reason" "Выберите причину списания."
  (errors.putDate day).stop
  let some product := activeProduct db (strip form.code) |
    refuse "code" (productNotFoundError (strip form.code))
  let some batch := pickedBatch env db product form.batchId | refuse "batch" batchRequiredError
  if form.confirm ≠ "1" ∧ batch.quantity < parseQty form.qtyRaw then
    throw (.warned (oversellWarning product batch (parseQty form.qtyRaw)))
  return (product, batch)

/-- `record_operation(..., commit=True)` in the `try` block the one-row services share. -/
def recordOrFail (env : Env) (args : OperationArgs) : Act (Outcome Operation) :=
  Tx.recover
    (do
      let op ← recordOperationCommit env args
      return .done op)
    (rollbackWith (.refused [("form", saveFailedError)]) integrityOrValue)

/-- `register_writeoff`. -/
def registerWriteoff (env : Env) (form : WriteoffForm) : Act (Outcome Operation) := do
  let day ← parseOpDate env form.opDate
  let db ← Tx.read
  orAnswer (writeoffCheck env db form day) fun (product, batch) =>
    recordOrFail env (writeoffArgs form (opDate day) product batch)

/-! ## Corrections -/

/-- The correction form. -/
structure CorrectionForm where
  code : String
  mode : String
  valueRaw : String
  note : String
  batchId : String := ""
  confirm : String := ""
  opDate : String := ""

/-- A signed integer with at most one leading minus. -/
def parseSigned (s : String) : Option Int :=
  match s.toList with
  | '-' :: cs => (parseDigits (String.ofList cs)).map fun n => -(n : Int)
  | _ => (parseDigits s).map Int.ofNat

/-- The change a correction asks for: a count against the batch, or a signed change. -/
def correctionDelta (form : CorrectionForm) (batch : Batch) : Except String Int :=
  if form.mode = "count" then
    match parseDigits (strip form.valueRaw) with
    | some counted => .ok (counted - batch.quantity)
    | none => .error "Укажите фактический остаток — целое число не меньше нуля."
  else match parseSigned (strip form.valueRaw) with
    | some delta => .ok delta
    | none => .error "Укажите изменение — целое число, отличное от нуля."

/-- The product and the batch of a correction. -/
def correctionTarget (env : Env) (db : Db) (form : CorrectionForm) :
    Except (Outcome Operation) (Product × Batch) := do
  if form.mode ≠ "count" ∧ form.mode ≠ "delta" then refuse "mode" "Неверный режим."
  if strip form.code = "" then refuse "code" codeRequiredError
  let some product := activeProduct db (strip form.code) |
    refuse "code" s!"Товар с кодом „{strip form.code}“ не найден."
  let some batch := pickedBatch env db product form.batchId | refuse "batch" batchRequiredError
  return (product, batch)

/-- The checks of `register_correction`. -/
def correctionCheck (env : Env) (db : Db) (form : CorrectionForm)
    (day : Except String (Option Date)) :
    Except (Outcome Operation) (Product × Batch × Int) := do
  let (product, batch) ← correctionTarget env db form
  let parsed := correctionDelta form batch
  ((Errors.putField [] "quantity" parsed).putDate day).stop
  let delta := parsed.toOption.getD 0
  if delta = 0 then refuse "quantity" "Остаток не изменился — нечего сохранять."
  if form.confirm ≠ "1" ∧ batch.quantity < -delta then
    throw (.warned (oversellWarning product batch (-delta)))
  return (product, batch, delta)

/-- The `correction` row. -/
def correctionArgs (form : CorrectionForm) (day : Option Date) (product : Product) (batch : Batch)
    (delta : Int) : OperationArgs where
  type := "correction"
  productId := product.id
  qtyDelta := delta
  payload := .obj [("note", (orNone (strip form.note)).elim .null .str), ("mode", .str form.mode)]
  batchId := some batch.id
  businessDate := day

/-- `register_correction`. -/
def registerCorrection (env : Env) (form : CorrectionForm) : Act (Outcome Operation) := do
  let day ← parseOpDate env form.opDate
  let db ← Tx.read
  orAnswer (correctionCheck env db form day) fun (product, batch, delta) =>
    recordOrFail env (correctionArgs form (opDate day) product batch delta)

/-! ## Transfers -/

/-- The transfer form. -/
structure TransferForm where
  code : String
  qtyRaw : String
  batchId : String := ""
  destWarehouseId : String := ""
  newExpiry : String := ""
  newComment : String := ""
  costRaw : String := ""
  salePriceRaw : String := ""
  confirm : String := ""
  opDate : String := ""

/-- What a checked transfer writes. -/
structure TransferPlan where
  product : Product
  source : Batch
  priceCents : Option Int
  costCents : Option Int

/-- The typed cost of a transfer, `dflt` when the field is empty. -/
def transferCost (form : TransferForm) (dflt : Except (Outcome String) (Option Int)) :
    Except (Outcome String) (Option Int) :=
  if strip form.costRaw = "" then dflt
  else match toCents (strip form.costRaw) with
    | some cents => .ok (some cents)
    | none => refuse "cost" priceError

/-- Sale price and cost of the new batch: inherited within a currency, typed across currencies. -/
def transferMoney (form : TransferForm) (source : Batch) (crossCurrency : Bool) :
    Except (Outcome String) (Option Int × Option Int) := do
  if crossCurrency then
    let cost ← transferCost form (refuse "cost" <|
      "Укажите себестоимость партии в валюте склада назначения — " ++
        "склады используют разную валюту.")
    let price := parseOptionalCents form.salePriceRaw
    (Errors.putField [] "sale_price" price).stop
    return (fieldValue price, cost)
  else
    let cost ← transferCost form (.ok source.costCents)
    return (source.priceCents, cost)

/-- The product, the source batch and the two warehouses of a transfer. -/
def transferTarget (env : Env) (db : Db) (form : TransferForm) :
    Except (Outcome String) (Product × Batch × Warehouse × Warehouse) := do
  let some product := activeProduct db (strip form.code) |
    refuse "code" (productNotFoundError (strip form.code))
  let some source := pickedBatch env db product form.batchId | refuse "batch" batchRequiredError
  let some dest := (db.find .warehouse (strip form.destWarehouseId)).filter fun _ =>
      strip form.destWarehouseId ∈ activeWarehouses env db false |
    refuse "warehouse" "Выберите склад назначения."
  let some home := db.find .warehouse source.warehouseId | refuse "batch" batchRequiredError
  return (product, source, dest, home)

/-- The checks of `register_transfer`. -/
def transferCheck (env : Env) (db : Db) (form : TransferForm) (day : Except String (Option Date)) :
    Except (Outcome String) TransferPlan := do
  let errors := Errors.putIf [] (strip form.code = "") "code" codeRequiredError
  let errors := errors.putIf (parseQty form.qtyRaw ≤ 0) "quantity" qtyError
  (errors.putDate day).stop
  let (product, source, dest, home) ← transferTarget env db form
  let (price, cost) ← transferMoney form source (dest.currency ≠ home.currency)
  if strip form.destWarehouseId = source.warehouseId ∧ strip form.newExpiry = "" ∧
      strip form.newComment = "" then
    refuse "form" <|
      "Чтобы разделить партию в пределах одного склада, укажите новый срок годности или " ++
        "новое состояние/комментарий — иначе получится пустой дубликат партии."
  if form.confirm ≠ "1" ∧ source.quantity < parseQty form.qtyRaw then
    throw (.warned (oversellWarning product source (parseQty form.qtyRaw)))
  return ⟨product, source, price, cost⟩

/-- The destination batch; the typed expiry is stored as it is. -/
def transferBatch (form : TransferForm) (plan : TransferPlan) (id now : String) : Batch where
  id := id
  productId := plan.product.id
  warehouseId := strip form.destWarehouseId
  name := plan.source.name
  expiry := (orNone (strip form.newExpiry)).or plan.source.expiry
  priceCents := plan.priceCents
  costCents := plan.costCents
  location := plan.source.location
  comment := (orNone (strip form.newComment)).or plan.source.comment
  quantity := 0
  isLegacy := 0
  createdAt := now
  updatedAt := now

/-- One of the two `transfer` rows. -/
def transferArgs (plan : TransferPlan) (batchId : String) (qty : Int) (day : Date) :
    OperationArgs where
  type := "transfer"
  productId := plan.product.id
  qtyDelta := qty
  batchId := some batchId
  businessDate := some day

/-- `register_transfer`; the answer is the destination batch's id. -/
def registerTransfer (env : Env) (form : TransferForm) : Act (Outcome String) := do
  let day ← parseOpDate env form.opDate
  let db ← Tx.read
  orAnswer (transferCheck env db form day) fun plan => do
    let now ← utcnowIso env
    let dest := transferBatch form plan (env.newId db.usedIds) now
    Tx.stage fun d => d.insert .batch [dest]
    let resolved ← dayOrToday env (opDate day)
    let qty := parseQty form.qtyRaw
    Tx.recover
      (do
        let _ ← recordOperation env (transferArgs plan plan.source.id (-qty) resolved)
        let _ ← recordOperation env (transferArgs plan dest.id qty resolved)
        commit
        return .done dest.id)
      (rollbackWith (.refused [("form", saveFailedError)]) integrityOrValue)

/-- The write step of `register_transfer`: what follows its checks. -/
def writeTransfer (env : Env) (form : TransferForm) (day : Except String (Option Date))
    (plan : TransferPlan) : Act (Outcome String) := do
  let db ← Tx.read
  let now ← utcnowIso env
  let dest := transferBatch form plan (env.newId db.usedIds) now
  Tx.stage fun d => d.insert .batch [dest]
  let resolved ← dayOrToday env (opDate day)
  let qty := parseQty form.qtyRaw
  Tx.recover
    (do
      let _ ← recordOperation env (transferArgs plan plan.source.id (-qty) resolved)
      let _ ← recordOperation env (transferArgs plan dest.id qty resolved)
      commit
      return .done dest.id)
    (rollbackWith (.refused [("form", saveFailedError)]) integrityOrValue)

theorem registerTransfer_eq (env : Env) (form : TransferForm) :
    registerTransfer env form =
      (do
        let day ← parseOpDate env form.opDate
        let db ← Tx.read
        orAnswer (transferCheck env db form day) (writeTransfer env form day)) := by
  refine congrArg (parseOpDate env form.opDate >>= ·) (funext fun day => read_bind_congr fun s => ?_)
  unfold orAnswer
  cases transferCheck env s.working form day <;> rfl

/-! ## What is written -/

variable {sc : Scope}

theorem keeps_recordOrFail {env : Env} {args : OperationArgs} (h : args.Sound)
    (hplain : sc.plain → args.Plain) :
    Keeps (Scoped sc env) (recordOrFail env args) := by
  intro w
  refine keepsAt_recover ?_ fun e y h => keeps_rollbackWith h
  exact keepsAt_bind (keeps_recordOperationCommit h hplain w) fun _ w' => keepsAt_pure w' _

theorem keeps_registerWriteoff {env : Env} {form : WriteoffForm} :
    Keeps (Scoped sc env) (registerWriteoff env form) := by
  intro w
  unfold registerWriteoff
  refine keepsAt_bind_still (still_parseOpDate env _) fun day => keepsAt_read ?_
  refine keepsAt_orAnswer fun plan _ => keeps_recordOrFail (.inl ?_) ?_ w
  · simp [writeoffArgs, stockAffectingTypes]
  · exact fun _ => by simp [OperationArgs.Plain, writeoffArgs]

theorem keeps_registerCorrection {env : Env} {form : CorrectionForm} :
    Keeps (Scoped sc env) (registerCorrection env form) := by
  intro w
  unfold registerCorrection
  refine keepsAt_bind_still (still_parseOpDate env _) fun day => keepsAt_read ?_
  refine keepsAt_orAnswer fun plan _ => keeps_recordOrFail (.inl ?_) ?_ w
  · simp [correctionArgs, stockAffectingTypes]
  · exact fun _ => by simp [OperationArgs.Plain, correctionArgs]

theorem pickedBatch_mem {env : Env} {db : Db} {product : Product} {raw : String} {b : Batch}
    (h : pickedBatch env db product raw = some b) : b ∈ db.batches := by
  unfold pickedBatch at h
  have hb := (Option.filter_eq_some_iff.mp h).1
  split_ifs at hb
  exact (Db.mem_of_find (k := .batch) hb).1

theorem transferTarget_source {env : Env} {db : Db} {form : TransferForm}
    {target : Product × Batch × Warehouse × Warehouse}
    (h : transferTarget env db form = .ok target) : target.2.1 ∈ db.batches := by
  unfold transferTarget at h
  cases hp : activeProduct db (strip form.code) with
  | none => rw [hp] at h; cases h
  | some product =>
    rw [hp] at h
    cases hs : pickedBatch env db product form.batchId with
    | none => simp only [hs] at h; cases h
    | some source =>
      simp only [hs] at h
      split at h
      · split at h
        · cases h
          exact pickedBatch_mem hs
        · cases h
      · cases h

theorem transferCheck_source {env : Env} {db : Db} {form : TransferForm}
    {day : Except String (Option Date)} {plan : TransferPlan}
    (h : transferCheck env db form day = .ok plan) : plan.source ∈ db.batches := by
  unfold transferCheck at h
  obtain ⟨_, _, h⟩ := bind_ok_iff.mp h
  obtain ⟨target, htarget, h⟩ := bind_ok_iff.mp h
  obtain ⟨money, _, h⟩ := bind_ok_iff.mp h
  have hplan : plan = ⟨target.1, target.2.1, money.1, money.2⟩ := by
    dsimp only at h
    split_ifs at h
    all_goals
      first
      | cases h
        rfl
      | cases h
  rw [hplan]
  exact transferTarget_source htarget

/-- The expiry of a transfer's new batch is the typed one, or the source batch's. -/
theorem transferBatch_expiry {form : TransferForm} {plan : TransferPlan} {id now e : String}
    (h : e ∈ (transferBatch form plan id now).expiry) :
    (e = strip form.newExpiry ∧ e ≠ "") ∨ plan.source.expiry = some e := by
  have h' : (orNone (strip form.newExpiry)).or plan.source.expiry = some e := h
  unfold orNone at h'
  split_ifs at h' with hempty
  · exact .inr h'
  · cases h'
    exact .inl ⟨rfl, hempty⟩

/-- **A transfer** keeps to the writes in which its own typed expiry may be stored unparsed. -/
theorem keeps_registerTransfer {env : Env} {form : TransferForm}
    (hfree : strip form.newExpiry ≠ "" → CanonicalDate (strip form.newExpiry) ∨
      sc.free (strip form.newExpiry)) :
    Keeps (Scoped sc env) (registerTransfer env form) := by
  intro w
  unfold registerTransfer
  refine keepsAt_bind_still (still_parseOpDate env _) fun day => keepsAt_read ?_
  refine keepsAt_orAnswer fun plan hplan => keepsAt_utcnowIso fun now _ => ?_
  refine keepsAt_stage (.born .batch _ (env.newId w.usedIds).2 ⟨rfl, fun e he => ?_, .inl rfl⟩
    fun _ => by decide) ?_
  · rcases transferBatch_expiry he with ⟨rfl, hne⟩ | hsource
    · exact (hfree hne).imp_right .inl
    · exact .inr (.inr ⟨plan.source, transferCheck_source hplan, hsource⟩)
  · refine keepsAt_dayOrToday fun resolved => ?_
    refine keepsAt_recover ?_ fun e y h => keeps_rollbackWith h
    have hstock : ∀ b q, (transferArgs plan b q resolved).Sound := fun b q => .inl <| by
      simp [transferArgs, stockAffectingTypes]
    have hplain : ∀ b q, (transferArgs plan b q resolved).Plain := fun b q => by
      simp [OperationArgs.Plain, transferArgs]
    refine keepsAt_bind (keeps_recordOperation (hstock _ _) (fun _ => hplain _ _) _) fun _ w => ?_
    refine keepsAt_bind (keeps_recordOperation (hstock _ _) (fun _ => hplain _ _) w) fun _ w => ?_
    exact keepsAt_bind (keeps_commit _ _ w) fun _ w' => keepsAt_pure w' _

end MyOriShop
