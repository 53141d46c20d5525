import MyOriShop.Services.Finance

/-!
# Catalog: product cards (`app/services/catalog.py`)

* `parseOptionalCents`, `parseOptionalInt` are the two optional number fields.
* `createProduct`, `updateProduct`, `softDeleteProduct`, `quickDeleteProduct`, `restoreProduct` are
  the functions of those names. A card and its audit rows are one transaction; every audit row goes
  through `recordOperation` with delta 0.
* A form that omits a UAH or EUR price (`none`) leaves it as it is on an edit, and means no price on
  a new card.

Results:
* `keeps_createProduct` and the lemmas named alike: a card edit touches neither the product's id nor
  its cached quantity, and appends audit rows only.
-/

namespace MyOriShop

open Lib.Json (Value)
open Lib.Text Lib.IsoDate Lib.Transaction

/-- `PRICE_ERROR`. -/
def priceError : String := "Неверный формат цены — введите число, например 12,50."

/-- `DUPLICATE_CODE_ERROR`. -/
def duplicateCodeError : String :=
  "Код уже используется другим товаром — введите другой код."

/-- `THRESHOLD_ERROR`. -/
def thresholdError : String := "Введите целое число 0 или больше."

/-- The message of a missing code field, the same text in every form. -/
def codeRequiredError : String := "Укажите код товара."

/-- `parse_optional_cents`: nothing for an empty field, an error for garbage or a negative sum. -/
def parseOptionalCents (raw : String) : Except String (Option Int) :=
  if strip raw = "" then .ok none
  else match toCents (strip raw) with
    | none => .error priceError
    | some cents => if cents < 0 then .error priceError else .ok (some cents)

/-- `parse_optional_int`. -/
def parseOptionalInt (raw : String) : Except String (Option Int) :=
  if strip raw = "" then .ok none
  else match parseDigits (strip raw) with
    | some n => if n ≤ 2147483647 then .ok (some n) else .error thresholdError
    | none => .error thresholdError

/-- The error a failed field parse sets. -/
def Errors.putField {α : Type} (errors : Errors) (field : String) (parsed : Except String α) :
    Errors :=
  match parsed with
  | .ok _ => errors
  | .error message => errors.put field message

@[simp] theorem Errors.putField_eq_nil {α : Type} {errors : Errors} {field : String}
    {parsed : Except String α} :
    errors.putField field parsed = [] ↔ (∃ value, parsed = .ok value) ∧ errors = [] := by
  cases parsed with
  | ok value => simp [Errors.putField]
  | error message => simp [Errors.putField, Errors.put_ne_nil]

/-- The value of an optional field, none when it was refused. -/
def fieldValue {α : Type} (parsed : Except String (Option α)) : Option α :=
  match parsed with
  | .ok value => value
  | .error _ => none

/-- The product form. -/
structure ProductForm where
  code : String
  name : String
  category : String
  costRaw : String
  saleRaw : String
  minSaleRaw : String := ""
  lowStockThresholdRaw : String := ""
  staleDaysRaw : String := ""
  costUahRaw : Option String := none
  saleUahRaw : Option String := none
  minSaleUahRaw : Option String := none
  costEurRaw : Option String := none
  saleEurRaw : Option String := none
  minSaleEurRaw : Option String := none

/-- The submitted text of a price column. -/
def ProductForm.raw (form : ProductForm) : PriceField → Option String
  | .cost => some form.costRaw
  | .sale => some form.saleRaw
  | .minSale => some form.minSaleRaw
  | .costUah => form.costUahRaw
  | .saleUah => form.saleUahRaw
  | .minSaleUah => form.minSaleUahRaw
  | .costEur => form.costEurRaw
  | .saleEur => form.saleEurRaw
  | .minSaleEur => form.minSaleEurRaw

/-- The form field of a price column: the column's name without `_cents`. -/
def PriceField.formField : PriceField → String
  | .cost => "cost"
  | .sale => "sale"
  | .minSale => "min_sale"
  | .costUah => "cost_uah"
  | .saleUah => "sale_uah"
  | .minSaleUah => "min_sale_uah"
  | .costEur => "cost_eur"
  | .saleEur => "sale_eur"
  | .minSaleEur => "min_sale_eur"

/-- The new value of a price column, `old` when the form does not submit it. -/
def ProductForm.price (form : ProductForm) (old : PriceField → Option Int) (f : PriceField) :
    Option Int :=
  match form.raw f with
  | none => old f
  | some raw => fieldValue (parseOptionalCents raw)

/-- An active product other than `except` has the code. -/
def codeTaken (db : Db) (code : String) (except : Option String) : Bool :=
  db.products.any fun p => p.activeCode = some code && some p.id != except

/-- The field checks `create_product` and `update_product` share. -/
def productErrors (db : Db) (form : ProductForm) (except : Option String) : Errors :=
  let code := strip form.code
  let errors := Errors.putIf [] (code = "") "code" codeRequiredError
  let errors := errors.putIf (strip form.name = "") "name" "Укажите название."
  let errors :=
    errors.putIf (code ≠ "" ∧ codeTaken db code except) "code" duplicateCodeError
  let errors := PriceField.all.foldl (fun errors f =>
    match form.raw f with
    | none => errors
    | some raw => errors.putField f.formField (parseOptionalCents raw)) errors
  let errors :=
    errors.putField "low_stock_threshold" (parseOptionalInt form.lowStockThresholdRaw)
  errors.putField "stale_days" (parseOptionalInt form.staleDaysRaw)

/-- Write a validated form on a card. -/
def ProductForm.onto (env : Env) (form : ProductForm) (p : Product) : Product :=
  let name := strip form.name
  let p := { p with
    code := some (strip form.code)
    name := name
    nameLc := some (env.lower name)
    category := orNone (strip form.category)
    lowStockThreshold := fieldValue (parseOptionalInt form.lowStockThresholdRaw)
    staleDays := fieldValue (parseOptionalInt form.staleDaysRaw) }
  PriceField.all.foldl (fun q f => q.setPrice f (form.price p.price f)) p

/-- A card with an id and nothing on it yet. -/
def blankProduct (id : String) (now : String) : Product where
  id := id
  code := none
  name := ""
  category := none
  costCents := none
  saleCents := none
  minSaleCents := none
  costUahCents := none
  saleUahCents := none
  minSaleUahCents := none
  costEurCents := none
  saleEurCents := none
  minSaleEurCents := none
  lowStockThreshold := none
  staleDays := none
  nameLc := none
  quantity := 0
  createdAt := now
  updatedAt := now
  deletedAt := none

/-- The audit row of a new card. -/
def createdArgs (p : Product) : OperationArgs where
  type := "product_created"
  productId := p.id
  qtyDelta := 0
  payload := .obj [("code", p.code.elim .null .str), ("name", .str p.name)]

/-- `create_product`. -/
def createProduct (env : Env) (form : ProductForm) : Act (Outcome Product) := do
  let db ← Tx.read
  orAnswer (productErrors db form none).stop fun _ => do
    let now ← utcnowIso env
    let product := form.onto env (blankProduct (env.newId db.usedIds) now)
    Tx.stage fun d => d.insert .product [product]
    Tx.recover
      (do
        let _ ← recordOperationCommit env (createdArgs product)
        return .done product)
      (rollbackWith (.refused [("code", duplicateCodeError)]) (· = .integrity))

/-- The audit row of one changed price. -/
def priceChangeArgs (old new : Product) (f : PriceField) : OperationArgs where
  type := "price_change"
  productId := old.id
  qtyDelta := 0
  payload := .obj [("field", .str f.key), ("old_cents", (old.price f).elim .null .int),
    ("new_cents", (new.price f).elim .null .int)]

/-- One `price_change` row for each changed price, staged in order. -/
def recordPriceChanges (env : Env) (old new : Product) : List PriceField → Act Unit
  | [] => return ()
  | f :: fs => do
    let _ ← recordOperation env (priceChangeArgs old new f)
    recordPriceChanges env old new fs

/-- The changed fields that are not prices, sorted. -/
def changedFields (old new : Product) : List String :=
  [("category", decide (old.category ≠ new.category)), ("code", decide (old.code ≠ new.code)),
    ("low_stock_threshold", decide (old.lowStockThreshold ≠ new.lowStockThreshold)),
    ("name", decide (old.name ≠ new.name)), ("stale_days", decide (old.staleDays ≠ new.staleDays))]
    |>.filterMap fun c => if c.2 then some c.1 else none

/-- The changed price columns, in the order of `_PRICE_FIELDS`. -/
def changedPrices (old new : Product) : List PriceField :=
  PriceField.all.filter fun f => old.price f ≠ new.price f

/-- The audit row of the other changed fields. -/
def editedArgs (old : Product) (fields : List String) : OperationArgs where
  type := "product_edited"
  productId := old.id
  qtyDelta := 0
  payload := .obj [("fields", .arr (fields.map .str))]

/-- The `product_edited` row, when a field other than a price has changed. -/
def recordEdited (env : Env) (old : Product) (fields : List String) : Act Unit :=
  match fields with
  | [] => return ()
  | fields => do
    let _ ← recordOperation env (editedArgs old fields)
    return ()

/-- The `onupdate` stamp of a changed card. -/
def Product.touch (stamp : String) (p : Product) : Product := { p with updatedAt := stamp }

/-- The checks of `update_product`: the card as it is. -/
def updateCheck (db : Db) (productId : String) (form : ProductForm) :
    Except (Outcome Product) Product := do
  let some product := db.find .product productId | refuse "product" "Товар не найден."
  if product.deletedAt.isSome then
    refuse "product" "Товар удалён — восстановите его перед редактированием."
  (productErrors db form (some productId)).stop
  return product

/-- `update_product`. -/
def updateProduct (env : Env) (productId : String) (form : ProductForm) :
    Act (Outcome Product) := do
  let db ← Tx.read
  orAnswer (updateCheck db productId form) fun old => do
    let new := form.onto env old
    if changedPrices old new = [] ∧ changedFields old new = [] then return .done old
    else do
      let stamp ← utcnowIso env
      Tx.stage fun d => d.edit .product productId fun p => (form.onto env p).touch stamp
      Tx.recover
        (do
          recordPriceChanges env old new (changedPrices old new)
          recordEdited env old (changedFields old new)
          commit
          return .done (new.touch stamp))
        (rollbackWith (.refused [("code", duplicateCodeError)]) (· = .integrity))

/-- Set or clear `deleted_at` of a product and commit. -/
def stampProduct (env : Env) (productId : String) (deleted : Bool) : Act Unit := do
  let now ← utcnowIso env
  Tx.stage fun d => d.edit .product productId fun p =>
    { p with deletedAt := if deleted then some now else none, updatedAt := now }
  commit

/-- `soft_delete_product`. -/
def softDeleteProduct (env : Env) (productId : String) : Act Unit := do
  let db ← Tx.read
  match db.find .product productId with
  | none => return ()
  | some p => if p.deletedAt.isSome then return () else stampProduct env productId true

/-- `quick_delete_product`: whether it was deleted, and the stock that blocks it. -/
def quickDeleteProduct (env : Env) (productId : String) : Act (Bool × Option Int) := do
  let db ← Tx.read
  match db.find .product productId with
  | none => return (false, none)
  | some p =>
    if p.deletedAt.isSome then return (false, none)
    else if 0 < p.quantity then return (false, some p.quantity)
    else
      stampProduct env productId true
      return (true, none)

/-- `restore_product`. -/
def restoreProduct (env : Env) (productId : String) : Act Unit := do
  let db ← Tx.read
  match db.find .product productId with
  | none => return ()
  | some p => if p.deletedAt.isNone then return () else stampProduct env productId false

/-! ## What is written -/

variable {sc : Scope}

theorem setPrices_id (g : PriceField → Option Int) (fs : List PriceField) (p : Product) :
    (fs.foldl (fun q f => q.setPrice f (g f)) p).id = p.id := by
  induction fs generalizing p with
  | nil => rfl
  | cons f fs ih => simp [ih]

theorem setPrices_quantity (g : PriceField → Option Int) (fs : List PriceField) (p : Product) :
    (fs.foldl (fun q f => q.setPrice f (g f)) p).quantity = p.quantity := by
  induction fs generalizing p with
  | nil => rfl
  | cons f fs ih => simp [ih]

@[simp] theorem ProductForm.onto_id (env : Env) (form : ProductForm) (p : Product) :
    (form.onto env p).id = p.id :=
  setPrices_id ..

@[simp] theorem ProductForm.onto_quantity (env : Env) (form : ProductForm) (p : Product) :
    (form.onto env p).quantity = p.quantity :=
  setPrices_quantity ..

theorem keeps_createProduct {env : Env} {form : ProductForm} :
    Keeps (Scoped sc env) (createProduct env form) := by
  intro w
  unfold createProduct
  refine keepsAt_read (keepsAt_orAnswer fun _ _ => keepsAt_utcnowIso fun now _ => ?_)
  refine keepsAt_stage (.born .product _ ?_ (ProductForm.onto_quantity ..) fun _ => by decide) ?_
  · show Fresh w (form.onto env (blankProduct _ now)).id
    rw [ProductForm.onto_id]
    exact (env.newId w.usedIds).2
  · refine keepsAt_recover ?_ fun e y h => keeps_rollbackWith h
    refine keepsAt_bind (keeps_recordOperationCommit (.inr rfl) ?_ _) fun _ w' => keepsAt_pure w' _
    exact fun _ => by simp [OperationArgs.Plain, createdArgs]

theorem keeps_recordPriceChanges {env : Env} {old new : Product} (fs : List PriceField) :
    Keeps (Scoped sc env) (recordPriceChanges env old new fs) := by
  induction fs with
  | nil => exact fun w => keepsAt_pure w _
  | cons f fs ih =>
    refine fun w => keepsAt_bind (keeps_recordOperation (.inr rfl) ?_ w) fun _ => ih
    exact fun _ => by simp [OperationArgs.Plain, priceChangeArgs]

theorem keeps_recordEdited {env : Env} {old : Product} {fields : List String} :
    Keeps (Scoped sc env) (recordEdited env old fields) := by
  intro w
  unfold recordEdited
  split
  · exact keepsAt_pure _ _
  · refine keepsAt_bind (keeps_recordOperation (.inr rfl) ?_ w) fun _ w' => keepsAt_pure w' _
    exact fun _ => by simp [OperationArgs.Plain, editedArgs]

theorem Product.touch_id (stamp : String) (p : Product) : (p.touch stamp).id = p.id := rfl

theorem Product.touch_quantity (stamp : String) (p : Product) :
    (p.touch stamp).quantity = p.quantity := rfl

theorem edited_onto (env : Env) (form : ProductForm) (p : Product) (stamp : String) :
    Edited .product p ((form.onto env p).touch stamp) :=
  ⟨(Product.touch_id ..).trans (ProductForm.onto_id ..),
    (Product.touch_quantity ..).trans (ProductForm.onto_quantity ..)⟩

theorem keeps_updateProduct {env : Env} {productId : String} {form : ProductForm} :
    Keeps (Scoped sc env) (updateProduct env productId form) := by
  intro w
  unfold updateProduct
  refine keepsAt_read (keepsAt_orAnswer fun old _ => ?_)
  dsimp only
  split
  · exact keepsAt_pure _ _
  · refine keepsAt_utcnowIso fun stamp _ => keepsAt_stage (.edited .product productId _ ?_ ?_) ?_
    · exact fun p _ => edited_onto env form p stamp
    · exact fun _ _ _ => trivial
    · refine keepsAt_recover ?_ fun e y h => keeps_rollbackWith h
      refine keepsAt_bind (keeps_recordPriceChanges _ _) fun _ w' => ?_
      refine keepsAt_bind (keeps_recordEdited w') fun _ w' => ?_
      exact keepsAt_bind (keeps_commit _ _ w') fun _ w'' => keepsAt_pure w'' _

theorem keeps_stampProduct {env : Env} {productId : String} {deleted : Bool} :
    Keeps (Scoped sc env) (stampProduct env productId deleted) := by
  intro w
  unfold stampProduct
  refine keepsAt_utcnowIso fun now _ => keepsAt_stage (.edited .product productId _ ?_ ?_) ?_
  · exact fun p _ => ⟨rfl, rfl⟩
  · exact fun _ _ _ => trivial
  · exact keeps_commit _ _ _

theorem keeps_softDeleteProduct {env : Env} {productId : String} :
    Keeps (Scoped sc env) (softDeleteProduct env productId) := by
  intro w
  unfold softDeleteProduct
  refine keepsAt_read ?_
  split
  · exact keepsAt_pure _ _
  · split_ifs
    · exact keepsAt_pure _ _
    · exact keeps_stampProduct w

theorem keeps_quickDeleteProduct {env : Env} {productId : String} :
    Keeps (Scoped sc env) (quickDeleteProduct env productId) := by
  intro w
  unfold quickDeleteProduct
  refine keepsAt_read ?_
  split
  · exact keepsAt_pure _ _
  · split_ifs
    · exact keepsAt_pure _ _
    · exact keepsAt_pure _ _
    · exact keepsAt_bind (keeps_stampProduct w) fun _ w' => keepsAt_pure w' _

theorem keeps_restoreProduct {env : Env} {productId : String} :
    Keeps (Scoped sc env) (restoreProduct env productId) := by
  intro w
  unfold restoreProduct
  refine keepsAt_read ?_
  split
  · exact keepsAt_pure _ _
  · split_ifs
    · exact keepsAt_pure _ _
    · exact keeps_stampProduct w

end MyOriShop
