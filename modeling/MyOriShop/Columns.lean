import MyOriShop.Lib.Fallible
import MyOriShop.Exchange

/-!
# Columns: a wire record becomes a row (`app/services/merge.py`, `app/models.py`)

An `insert(model)` of a record's dictionary takes each column of the model from it. NULL takes the
column's Python default where it has one, and is refused by a NOT NULL column.

* `Driver` is the database driver on a JSON value that is not of its column's type. It is outside
  the repository; a value of the column's own type is stored as it is.
* `wireValue` is the column rule of `_reference_row` and `_ledger_row`: the cached quantity is
  dropped to 0, `synced_at` to NULL.
* `rowOf` reads a row column by column, `insertRow` the row an insert makes of a record.

Results:
* `rowOf_toData`: the columns of a row give the row back.
* `insertRow_toData`: what a row's own record inserts, `arrived`.
-/

namespace MyOriShop

open Lib.Json (Value valueAt lookup)
open Lib.Fallible (bind_ok_iff ok_bind)

/-! ## Reading columns -/

/-- How values other than NULL are fitted into a text and into an integer column. -/
structure Driver where
  text : Value → Option String
  integer : Value → Option Int
  text_str : ∀ s, text (.str s) = some s
  integer_int : ∀ n, integer (.int n) = some n

/-- The driver that refuses every value of another type. -/
def Driver.strict : Driver where
  text
    | .str s => some s
    | _ => none
  integer
    | .int n => some n
    | _ => none
  text_str _ := rfl
  integer_int _ := rfl

/-- The cells of one row on their way into a table. -/
structure Cells where
  driver : Driver
  kind : Kind
  value : String → Value

namespace Cells

/-- A value of a driver, or its refusal. -/
def fit {α : Type} (c : Cells) (field : String) (stored : Option α) : Except Exn α :=
  match stored with
  | some a => .ok a
  | none => .error (.data c.kind field)

/-- A value for a text column. -/
def storeText (c : Cells) (field : String) : Value → Except Exn (Option String)
  | .null => .ok none
  | v => (c.fit field (c.driver.text v)).map some

/-- A value for an integer column. -/
def storeInteger (c : Cells) (field : String) : Value → Except Exn (Option Int)
  | .null => .ok none
  | v => (c.fit field (c.driver.integer v)).map some

/-- NOT NULL. -/
def required {α : Type} : Option α → Except Exn α
  | some a => .ok a
  | none => .error .integrity

/-- A text column that may be NULL. -/
def optText (c : Cells) (field : String) : Except Exn (Option String) :=
  c.storeText field (c.value field)

/-- An integer column that may be NULL. -/
def optInteger (c : Cells) (field : String) : Except Exn (Option Int) :=
  c.storeInteger field (c.value field)

/-- A text column. -/
def text (c : Cells) (field : String) : Except Exn String := c.optText field >>= required

/-- An integer column. -/
def integer (c : Cells) (field : String) : Except Exn Int := c.optInteger field >>= required

@[simp] theorem required_some {α : Type} (a : α) : required (some a) = .ok a := rfl

@[simp] theorem storeText_str (c : Cells) (field s : String) :
    c.storeText field (.str s) = .ok (some s) := by
  simp only [storeText, c.driver.text_str]
  rfl

@[simp] theorem storeText_optStr (c : Cells) (field : String) (s : Option String) :
    c.storeText field (optStr s) = .ok s := by
  cases s with
  | none => rfl
  | some s => exact c.storeText_str field s

@[simp] theorem storeInteger_int (c : Cells) (field : String) (n : Int) :
    c.storeInteger field (.int n) = .ok (some n) := by
  simp only [storeInteger, c.driver.integer_int]
  rfl

@[simp] theorem storeInteger_optInt (c : Cells) (field : String) (n : Option Int) :
    c.storeInteger field (optInt n) = .ok n := by
  cases n with
  | none => rfl
  | some n => exact c.storeInteger_int field n

theorem text_ok_iff {c : Cells} {field s : String} :
    c.text field = .ok s ↔ c.optText field = .ok (some s) := by
  unfold text
  rw [bind_ok_iff]
  constructor
  · rintro ⟨o, ho, hs⟩
    cases o with
    | none => cases hs
    | some s' =>
      cases hs
      exact ho
  · exact fun h => ⟨some s, h, rfl⟩

/-- One cell changed. -/
def set (c : Cells) (field : String) (v : Value) : Cells :=
  { c with value := fun f => if f = field then v else c.value f }

theorem optText_set_ne {c : Cells} {f field : String} {v : Value} (h : f ≠ field) :
    (c.set field v).optText f = c.optText f := by
  have hvalue : (c.set field v).value f = c.value f := if_neg h
  unfold optText
  rw [hvalue]
  rfl

theorem optInteger_set_ne {c : Cells} {f field : String} {v : Value} (h : f ≠ field) :
    (c.set field v).optInteger f = c.optInteger f := by
  have hvalue : (c.set field v).value f = c.value f := if_neg h
  unfold optInteger
  rw [hvalue]
  rfl

theorem text_set_ne {c : Cells} {f field : String} {v : Value} (h : f ≠ field) :
    (c.set field v).text f = c.text f := by
  rw [text, text, optText_set_ne h]

theorem integer_set_ne {c : Cells} {f field : String} {v : Value} (h : f ≠ field) :
    (c.set field v).integer f = c.integer f := by
  rw [integer, integer, optInteger_set_ne h]

theorem value_set_ne {c : Cells} {f field : String} {v : Value} (h : f ≠ field) :
    (c.set field v).value f = c.value f := if_neg h

theorem text_set (c : Cells) (field s : String) : (c.set field (.str s)).text field = .ok s := by
  rw [text_ok_iff, optText, show (c.set field (.str s)).value field = .str s from if_pos rfl,
    storeText_str]

end Cells

/-- A row from its cells. -/
def rowOf : (k : Kind) → Cells → Except Exn (Row k)
  | .warehouse, c => do
    let id ← c.text "id"
    let name ← c.text "name"
    let address ← c.optText "address"
    let currency ← c.text "currency"
    let createdAt ← c.text "created_at"
    let updatedAt ← c.text "updated_at"
    let deletedAt ← c.optText "deleted_at"
    return ⟨id, name, address, currency, createdAt, updatedAt, deletedAt⟩
  | .product, c => do
    let id ← c.text "id"
    let code ← c.optText "code"
    let name ← c.text "name"
    let category ← c.optText "category"
    let costCents ← c.optInteger "cost_cents"
    let saleCents ← c.optInteger "sale_cents"
    let minSaleCents ← c.optInteger "min_sale_cents"
    let costUahCents ← c.optInteger "cost_uah_cents"
    let saleUahCents ← c.optInteger "sale_uah_cents"
    let minSaleUahCents ← c.optInteger "min_sale_uah_cents"
    let costEurCents ← c.optInteger "cost_eur_cents"
    let saleEurCents ← c.optInteger "sale_eur_cents"
    let minSaleEurCents ← c.optInteger "min_sale_eur_cents"
    let lowStockThreshold ← c.optInteger "low_stock_threshold"
    let staleDays ← c.optInteger "stale_days"
    let nameLc ← c.optText "name_lc"
    let quantity ← c.integer "quantity"
    let createdAt ← c.text "created_at"
    let updatedAt ← c.text "updated_at"
    let deletedAt ← c.optText "deleted_at"
    return ⟨id, code, name, category, costCents, saleCents, minSaleCents, costUahCents,
      saleUahCents, minSaleUahCents, costEurCents, saleEurCents, minSaleEurCents,
      lowStockThreshold, staleDays, nameLc, quantity, createdAt, updatedAt, deletedAt⟩
  | .customer, c => do
    let id ← c.text "id"
    let name ← c.text "name"
    let surname ← c.optText "surname"
    let consultantNumber ← c.optText "consultant_number"
    let address ← c.optText "address"
    let searchLc ← c.optText "search_lc"
    let createdAt ← c.text "created_at"
    let updatedAt ← c.text "updated_at"
    return ⟨id, name, surname, consultantNumber, address, searchLc, createdAt, updatedAt⟩
  | .dictionary, c => do
    let id ← c.text "id"
    let code ← c.text "code"
    let name ← c.text "name"
    let nameLc ← c.optText "name_lc"
    let rubric ← c.optText "rubric"
    let createdAt ← c.text "created_at"
    let updatedAt ← c.text "updated_at"
    return ⟨id, code, name, c.value "catalogs", nameLc, rubric, createdAt, updatedAt⟩
  | .batch, c => do
    let id ← c.text "id"
    let productId ← c.text "product_id"
    let warehouseId ← c.text "warehouse_id"
    let expiry ← c.optText "expiry"
    let priceCents ← c.optInteger "price_cents"
    let costCents ← c.optInteger "cost_cents"
    let location ← c.optText "location"
    let comment ← c.optText "comment"
    let name ← c.optText "name"
    let quantity ← c.integer "quantity"
    let isLegacy ← c.integer "is_legacy"
    let createdAt ← c.text "created_at"
    let updatedAt ← c.text "updated_at"
    return ⟨id, productId, warehouseId, expiry, priceCents, costCents, location, comment, name,
      quantity, isLegacy, createdAt, updatedAt⟩
  | .sale, c => do
    let id ← c.text "id"
    let customerId ← c.optText "customer_id"
    let createdAt ← c.text "created_at"
    let createdBy ← c.text "created_by"
    let authorId ← c.optText "author_id"
    let deviceId ← c.optText "device_id"
    return ⟨id, customerId, createdAt, createdBy, authorId, deviceId⟩
  | .operation, c => do
    let id ← c.text "id"
    let type ← c.text "type"
    let productId ← c.text "product_id"
    let qtyDelta ← c.integer "qty_delta"
    let unitCostCents ← c.optInteger "unit_cost_cents"
    let unitPriceCents ← c.optInteger "unit_price_cents"
    let saleId ← c.optText "sale_id"
    let batchId ← c.optText "batch_id"
    let reversesOpId ← c.optText "reverses_op_id"
    let authorId ← c.optText "author_id"
    let deviceId ← c.text "device_id"
    let seq ← c.integer "seq"
    let createdAt ← c.text "created_at"
    let businessDate ← c.optText "business_date"
    let createdBy ← c.text "created_by"
    let syncedAt ← c.optText "synced_at"
    return ⟨id, type, productId, qtyDelta, unitCostCents, unitPriceCents, c.value "payload",
      saleId, batchId, reversesOpId, authorId, deviceId, seq, createdAt, businessDate, createdBy,
      syncedAt⟩
  | .cashMovement, c => do
    let id ← c.text "id"
    let category ← c.text "category"
    let amountCents ← c.integer "amount_cents"
    let currency ← c.text "currency"
    let note ← c.optText "note"
    let saleId ← c.optText "sale_id"
    let reversesMovementId ← c.optText "reverses_movement_id"
    let authorId ← c.optText "author_id"
    let deviceId ← c.text "device_id"
    let seq ← c.integer "seq"
    let createdAt ← c.text "created_at"
    let businessDate ← c.optText "business_date"
    let createdBy ← c.text "created_by"
    let syncedAt ← c.optText "synced_at"
    return ⟨id, category, amountCents, currency, note, saleId, reversesMovementId, authorId,
      deviceId, seq, createdAt, businessDate, createdBy, syncedAt⟩

/-- The row has the id of its cells. -/
theorem rowOf_id {k : Kind} {c : Cells} {r : Row k} (h : rowOf k c = .ok r) :
    c.text "id" = .ok (rowId k r) := by
  cases k <;>
    obtain ⟨id, hid, h⟩ := bind_ok_iff.mp h <;>
    repeat obtain ⟨_, -, h⟩ := bind_ok_iff.mp h
  all_goals
    cases h
    exact hid

/-- The columns of the kind decide the row. -/
theorem rowOf_congr {k : Kind} (c c' : Cells) (hdriver : c.driver = c'.driver)
    (hkind : c.kind = c'.kind) (hvalue : ∀ f ∈ fields k, c.value f = c'.value f) :
    rowOf k c = rowOf k c' := by
  obtain ⟨driver, kind, value⟩ := c
  obtain ⟨driver', kind', value'⟩ := c'
  cases hdriver
  cases hkind
  cases k <;>
    simp only [fields, List.forall_mem_cons, List.not_mem_nil, false_implies, implies_true,
      and_true] at hvalue <;>
    simp only [rowOf, Cells.text, Cells.integer, Cells.optText, Cells.optInteger, hvalue,
      Cells.storeText, Cells.storeInteger, Cells.fit]

/-- **The columns of a row give it back.** -/
theorem rowOf_eq {k : Kind} {c : Cells} {r : Row k} (h : ∀ kv ∈ toData k r, c.value kv.1 = kv.2) :
    rowOf k c = .ok r := by
  cases k <;>
    simp only [toData, List.forall_mem_cons, List.not_mem_nil, false_implies, implies_true,
      and_true] at h <;>
    simp only [rowOf, Cells.text, Cells.integer, Cells.optText, Cells.optInteger, h,
      Cells.storeText_str, Cells.storeText_optStr, Cells.storeInteger_int,
      Cells.storeInteger_optInt, Cells.required_some, ok_bind] <;>
    rfl

/-! ## What an insert makes of a record -/

/-- The Python default of a column that is given NULL. -/
def defaultValue (now : String) (k : Kind) (field : String) : Value :=
  if field = "updated_at" then .str now
  -- a sale and a ledger row bring their own `created_at`
  else if field = "created_at" && !(k.isLedger || k = .sale) then .str now
  else if field = "currency" then .str defaultCurrency
  else if field = "quantity" || field = "is_legacy" then .int 0
  else .null

/-- `_reference_row` and `_ledger_row`: a record's value for a column of its kind. Only products
and batches have a quantity, only ledger rows a `synced_at`. -/
def wireValue (data : Data) (field : String) : Value :=
  if field = "quantity" then .int 0
  else if field = "synced_at" then .null
  else valueAt field data

/-- NULL takes the default of its column. -/
def orDefault (v default : Value) : Value :=
  match v with
  | .null => default
  | v => v

@[simp] theorem optStr_none : optStr none = .null := rfl

@[simp] theorem wireValue_quantity (data : Data) : wireValue data "quantity" = .int 0 := rfl

@[simp] theorem wireValue_syncedAt (data : Data) : wireValue data "synced_at" = .null := rfl

@[simp] theorem orDefault_str (s : String) (default : Value) : orDefault (.str s) default = .str s :=
  rfl

@[simp] theorem orDefault_int (n : Int) (default : Value) : orDefault (.int n) default = .int n :=
  rfl

@[simp] theorem orDefault_null (v : Value) : orDefault v .null = v := by cases v <;> rfl

/-- The cells of an inserted record. -/
def insertCells (driver : Driver) (now : String) (k : Kind) (data : Data) : Cells where
  driver := driver
  kind := k
  value field := orDefault (wireValue data field) (defaultValue now k field)

/-- The row an insert makes of a record. -/
def insertRow (driver : Driver) (now : String) (k : Kind) (data : Data) : Except Exn (Row k) :=
  rowOf k (insertCells driver now k data)

/-- A row as it arrives at another database: without its cached quantity and its sync stamp. -/
def arrived : (k : Kind) → Row k → Row k
  | .product, (p : Product) => { p with quantity := 0 }
  | .batch, (b : Batch) => { b with quantity := 0 }
  | .operation, (o : Operation) => { o with syncedAt := none }
  | .cashMovement, (m : CashMovement) => { m with syncedAt := none }
  | .warehouse, r | .customer, r | .dictionary, r | .sale, r => r

@[simp] theorem rowId_arrived (k : Kind) (r : Row k) : rowId k (arrived k r) = rowId k r := by
  cases k <;> rfl

/-- The received record inserts what the sent one would. -/
theorem insertRow_clearSynced (driver : Driver) (now : String) (k : Kind) (data : Data) :
    insertRow driver now k (clearSynced data) = insertRow driver now k data := by
  have hvalue : ∀ field, wireValue (clearSynced data) field = wireValue data field := by
    intro field
    unfold wireValue
    by_cases hs : field = "synced_at"
    · rw [if_pos hs, if_pos hs]
    · rw [if_neg hs, if_neg hs, valueAt, valueAt, lookup_clearSynced hs]
  unfold insertRow insertCells
  simp only [hvalue]

/-- An inserted row has the id of its record. -/
theorem insertRow_id {driver : Driver} {now : String} {k : Kind} {data : Data} {r : Row k}
    {id : String} (hid : valueAt "id" data = .str id) (h : insertRow driver now k data = .ok r) :
    rowId k r = id := by
  have hvalue : (insertCells driver now k data).value "id" = .str id := by
    have hwire : wireValue data "id" = .str id := by
      rw [wireValue, if_neg (by decide), if_neg (by decide), hid]
    show orDefault (wireValue data "id") _ = _
    rw [hwire]
    rfl
  have htext := Cells.text_ok_iff.mp (rowOf_id h)
  rw [Cells.optText, hvalue, Cells.storeText_str] at htext
  injection htext with htext
  injection htext with htext
  exact htext.symm

/-- **A row's own record inserts the row as it arrives.** -/
theorem insertRow_toData (driver : Driver) (now : String) (k : Kind) (r : Row k) :
    insertRow driver now k (toData k r) = .ok (arrived k r) := by
  refine rowOf_eq ?_
  have hwire : ∀ kv ∈ toData k r, kv.1 ≠ "quantity" → kv.1 ≠ "synced_at" →
      wireValue (toData k r) kv.1 = kv.2 := by
    intro kv hkv hquantity hsynced
    rw [wireValue, if_neg hquantity, if_neg hsynced, valueAt_toData hkv]
  cases k <;>
    simp only [toData, List.forall_mem_cons, List.not_mem_nil, false_implies, implies_true,
      and_true, ne_eq, String.reduceEq, not_false_eq_true, not_true_eq_false,
      forall_const] at hwire <;>
    simp only [toData, arrived, insertCells, List.forall_mem_cons, List.not_mem_nil, false_implies,
      implies_true, hwire, wireValue_quantity, wireValue_syncedAt, orDefault_str,
      orDefault_int, orDefault_null, defaultValue, String.reduceEq, if_false, if_true, decide_false,
      Bool.false_and, Bool.or_self, Bool.false_eq_true, optStr_none, and_self]

/-! ## Two inserts of one record -/

/-- `updated_at`, where the kind has it. -/
def setUpdated (s : String) : (k : Kind) → Row k → Row k
  | .warehouse, (r : Warehouse) => { r with updatedAt := s }
  | .product, (r : Product) => { r with updatedAt := s }
  | .customer, (r : Customer) => { r with updatedAt := s }
  | .dictionary, (r : Dictionary) => { r with updatedAt := s }
  | .batch, (r : Batch) => { r with updatedAt := s }
  | .sale, r | .operation, r | .cashMovement, r => r

/-- `created_at`, where the kind has a default for it. -/
def setCreated (s : String) : (k : Kind) → Row k → Row k
  | .warehouse, (r : Warehouse) => { r with createdAt := s }
  | .product, (r : Product) => { r with createdAt := s }
  | .customer, (r : Customer) => { r with createdAt := s }
  | .dictionary, (r : Dictionary) => { r with createdAt := s }
  | .batch, (r : Batch) => { r with createdAt := s }
  | .sale, r | .operation, r | .cashMovement, r => r

theorem rowOf_setUpdated {k : Kind} {c : Cells} {r : Row k} (s : String) (h : rowOf k c = .ok r) :
    rowOf k (c.set "updated_at" (.str s)) = .ok (setUpdated s k r) := by
  cases k with
  | sale | operation | cashMovement =>
    refine Eq.trans (rowOf_congr _ c rfl rfl fun f hf => Cells.value_set_ne ?_) h
    rintro rfl
    revert hf
    decide
  | product | warehouse | customer | dictionary | batch =>
    repeat obtain ⟨_, _, h⟩ := bind_ok_iff.mp h
    cases h
    simp only [rowOf, Cells.text_set, Cells.text_set_ne, Cells.integer_set_ne, Cells.optText_set_ne,
      Cells.optInteger_set_ne, Cells.value_set_ne, ne_eq, String.reduceEq, not_false_eq_true,
      ok_bind, *]
    rfl

theorem rowOf_setCreated {k : Kind} {c : Cells} {r : Row k} (s : String) (hk : k.isLedger = false)
    (hsale : k ≠ .sale) (h : rowOf k c = .ok r) :
    rowOf k (c.set "created_at" (.str s)) = .ok (setCreated s k r) := by
  cases k with
  | sale => exact absurd rfl hsale
  | operation | cashMovement => cases hk
  | product | warehouse | customer | dictionary | batch =>
    repeat obtain ⟨_, _, h⟩ := bind_ok_iff.mp h
    cases h
    simp only [rowOf, Cells.text_set, Cells.text_set_ne, Cells.integer_set_ne, Cells.optText_set_ne,
      Cells.optInteger_set_ne, Cells.value_set_ne, ne_eq, String.reduceEq, not_false_eq_true,
      ok_bind, *]
    rfl

/-- Two records say the same, as far as an insert reads them. -/
def Agree (k : Kind) (data data' : Data) : Prop :=
  ∀ f ∈ fields k, wireValue data f = wireValue data' f

/-- The only columns the clock can reach. -/
theorem defaultValue_now {k : Kind} {f : String} (now now' : String) (hupdated : f ≠ "updated_at")
    (hcreated : f = "created_at" → k.isLedger = true ∨ k = .sale) :
    defaultValue now k f = defaultValue now' k f := by
  unfold defaultValue
  by_cases hf : f = "created_at"
  · have hk : (!(k.isLedger || k = .sale)) = false := by
      rcases hcreated hf with h | h <;> simp [h]
    simp [hf, hk]
  · simp [hf, hupdated]

/-- Records that agree insert rows that agree but for the clock readings. -/
theorem insertRow_agree {driver : Driver} {now now' : String} {k : Kind} {data data' : Data}
    {r r' : Row k} (hagree : Agree k data data') (h : insertRow driver now k data = .ok r)
    (h' : insertRow driver now' k data' = .ok r') :
    setCreated "" k (setUpdated "" k r) = setCreated "" k (setUpdated "" k r') ∧
      (isNull (wireValue data "created_at") = false → setUpdated "" k r = setUpdated "" k r') := by
  have hupdated := rowOf_setUpdated "" h
  have hupdated' := rowOf_setUpdated "" h'
  have hvalue : ∀ f ∈ fields k, (f = "created_at" → (k.isLedger = true ∨ k = .sale) ∨
        isNull (wireValue data "created_at") = false) →
      ((insertCells driver now k data).set "updated_at" (.str "")).value f =
        ((insertCells driver now' k data').set "updated_at" (.str "")).value f := by
    intro f hf hcreated
    by_cases hfu : f = "updated_at"
    · exact (if_pos hfu).trans (if_pos hfu).symm
    · rw [Cells.value_set_ne hfu, Cells.value_set_ne hfu]
      show orDefault (wireValue data f) _ = orDefault (wireValue data' f) _
      rw [← hagree f hf]
      by_cases hfc : f = "created_at" ∧ isNull (wireValue data "created_at") = false
      · rw [hfc.1]
        cases hv : wireValue data "created_at" with
        | null =>
          rw [hv] at hfc
          exact absurd hfc.2 (by decide)
        | bool | int | float | str | arr | obj => rfl
      · rw [defaultValue_now now now' hfu fun hf' => ?_]
        exact (hcreated hf').resolve_right fun h => hfc ⟨hf', h⟩
  have hsame : ((∀ f ∈ fields k, f = "created_at" → (k.isLedger = true ∨ k = .sale) ∨
      isNull (wireValue data "created_at") = false)) → setUpdated "" k r = setUpdated "" k r' := by
    intro hall
    have heq := rowOf_congr (k := k) ((insertCells driver now k data).set "updated_at" (.str ""))
      ((insertCells driver now' k data').set "updated_at" (.str "")) rfl rfl
      fun f hf => hvalue f hf (hall f hf)
    rw [hupdated, hupdated'] at heq
    injection heq
  refine ⟨?_, fun hnull => hsame fun _ _ _ => .inr hnull⟩
  by_cases hk : k.isLedger = true ∨ k = .sale
  · rw [hsame fun _ _ _ => .inl hk]
  · rw [not_or] at hk
    have hcreated := rowOf_setCreated "" (by simpa using hk.1) hk.2 hupdated
    have hcreated' := rowOf_setCreated "" (by simpa using hk.1) hk.2 hupdated'
    have heq := rowOf_congr (k := k)
      (((insertCells driver now k data).set "updated_at" (.str "")).set "created_at" (.str ""))
      (((insertCells driver now' k data').set "updated_at" (.str "")).set "created_at" (.str ""))
      rfl rfl fun f hf => ?_
    · rw [hcreated, hcreated'] at heq
      injection heq
    · by_cases hfc : f = "created_at"
      · exact (if_pos hfc).trans (if_pos hfc).symm
      · rw [Cells.value_set_ne hfc, Cells.value_set_ne hfc]
        exact hvalue f hf fun h => absurd h hfc

end MyOriShop
