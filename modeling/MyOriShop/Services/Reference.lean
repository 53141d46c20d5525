import MyOriShop.Services.Receipts

/-!
# Warehouses, customers and the dictionary (`app/services/warehouses.py`, `customers.py`,
`dictionary.py`)

Plain rows without a ledger entry. An edit that changes nothing emits no UPDATE, so it leaves the
row's `updated_at` as it is. A customer's contacts live in a table of their own that does not
travel between devices; they are left out.

Results:
* `keeps_addWarehouse` and the lemmas named alike: each service makes one write, and no write
  changes an id.
-/

namespace MyOriShop

open Lib.Json (Value)
open Lib.Text Lib.IsoDate Lib.Sums Lib.Transaction

/-- Stage one edit of the row with an id and commit. -/
def editAndCommit (k : Kind) (id : String) (f : Row k → Row k) : Act Unit := do
  Tx.stage fun d => d.edit k id f
  commit

/-! ## Warehouses -/

/-- `NAME_REQUIRED_ERROR` of the warehouse service. -/
def warehouseNameError : String := "Укажите название склада."

/-- `WAREHOUSE_NOT_FOUND_ERROR`. -/
def warehouseNotFoundError : String := "Склад не найден."

/-- `CURRENCY_INVALID_ERROR`. -/
def currencyInvalidError : String := "Выберите валюту склада из списка."

/-- The warehouse form. -/
structure WarehouseForm where
  name : String
  address : String
  currency : String := ""

/-- The errors of a warehouse form whose currency came out as `code`. -/
def warehouseErrors (form : WarehouseForm) (code : Option String) : Errors :=
  (Errors.putIf [] code.isNone "currency" currencyInvalidError).putIf (strip form.name = "")
    "name" warehouseNameError

/-- `add_warehouse`. -/
def addWarehouse (env : Env) (form : WarehouseForm) : Act (Outcome String) := do
  let code := cleanCurrency env.upper form.currency
  orAnswer (warehouseErrors form code).stop fun _ => do
    let now ← utcnowIso env
    let db ← Tx.read
    let warehouse : Warehouse :=
      { id := env.newId db.usedIds, name := strip form.name, address := orNone (strip form.address)
        currency := code.getD defaultCurrency, createdAt := now, updatedAt := now
        deletedAt := none }
    Tx.stage fun d => d.insert .warehouse [warehouse]
    commit
    return .done warehouse.id

/-- The currency an edited warehouse gets: an empty field keeps the current one. -/
def editedCurrency (env : Env) (form : WarehouseForm) (w : Warehouse) : Option String :=
  if strip form.currency = "" then some w.currency else cleanCurrency env.upper form.currency

/-- Write a validated form on a warehouse. -/
def WarehouseForm.onto (env : Env) (form : WarehouseForm) (stamp : String) (w : Warehouse) :
    Warehouse :=
  let name := strip form.name
  let address := orNone (strip form.address)
  let currency := (editedCurrency env form w).getD defaultCurrency
  if name = w.name ∧ address = w.address ∧ currency = w.currency then w
  else { w with name := name, address := address, currency := currency, updatedAt := stamp }

/-- The checks of `update_warehouse`. -/
def updateWarehouseCheck (env : Env) (db : Db) (warehouseId : String) (form : WarehouseForm) :
    Except (Outcome String) Unit := do
  let some w := (db.find .warehouse warehouseId).filter fun w => (Warehouse.deletedAt w).isNone |
    refuse "warehouse" warehouseNotFoundError
  (warehouseErrors form (editedCurrency env form w)).stop

/-- `update_warehouse`. -/
def updateWarehouse (env : Env) (warehouseId : String) (form : WarehouseForm) :
    Act (Outcome String) := do
  let db ← Tx.read
  orAnswer (updateWarehouseCheck env db warehouseId form) fun _ => do
    let stamp ← utcnowIso env
    editAndCommit .warehouse warehouseId (form.onto env stamp)
    return .done warehouseId

/-- Set or clear `deleted_at` of a warehouse and commit. -/
def stampWarehouse (env : Env) (warehouseId : String) (deleted : Bool) : Act Unit := do
  let now ← utcnowIso env
  editAndCommit .warehouse warehouseId fun w : Warehouse =>
    { w with deletedAt := if deleted then some now else none, updatedAt := now }

/-- `restore_warehouse`. -/
def restoreWarehouse (env : Env) (warehouseId : String) : Act Unit := do
  let db ← Tx.read
  match db.find .warehouse warehouseId with
  | none => return ()
  | some w =>
    if (Warehouse.deletedAt w).isNone then return () else stampWarehouse env warehouseId false

/-- What a soft delete of a warehouse answers. -/
inductive WarehouseDeletion where
  | deleted
  | noop
  | stock (units : Int)
  | lastActive
  deriving DecidableEq

/-- The checks of `soft_delete_warehouse`, `none` for a deletion that may go on. -/
def warehouseDeletionBlock (db : Db) (warehouseId : String) (confirm : Bool) :
    Option WarehouseDeletion :=
  match (db.find .warehouse warehouseId).filter fun w => (Warehouse.deletedAt w).isNone with
  | none => some .noop
  | some _ =>
    let stock := sumOver Batch.quantity (fun b => b.warehouseId = warehouseId) db.batches
    if 0 < stock then some (.stock stock)
    else if !confirm && (db.warehouses.filter fun w => w.deletedAt.isNone).length ≤ 1 then
      some .lastActive
    else none

/-- `soft_delete_warehouse`. -/
def softDeleteWarehouse (env : Env) (warehouseId : String) (confirm : Bool) :
    Act WarehouseDeletion := do
  let db ← Tx.read
  match warehouseDeletionBlock db warehouseId confirm with
  | some block => return block
  | none => do
    stampWarehouse env warehouseId true
    return .deleted

/-! ## Customers -/

/-- The customer form. -/
structure CustomerForm where
  name : String
  surname : String
  consultantNumber : String
  address : String := ""

/-- `_search_lc`. -/
def CustomerForm.searchLc (env : Env) (form : CustomerForm) : String :=
  let parts := [strip form.name, strip form.surname, strip form.consultantNumber]
  env.lower (strip (" ".intercalate (parts.filter (· ≠ ""))))

/-- The errors of a customer form: a missing name answers alone. -/
def customerErrors (form : CustomerForm) : Errors :=
  let long (raw : String) (limit : Nat) : Bool := decide (limit < (strip raw).length)
  if strip form.name = "" then [("name", "Укажите имя покупателя.")]
  else
    let errors := Errors.putIf [] (long form.name 200) "name" "Слишком длинное имя."
    let errors := errors.putIf (long form.surname 200) "surname" "Слишком длинная фамилия."
    let errors := errors.putIf (long form.consultantNumber 50) "consultant_number"
      "Слишком длинный номер консультанта."
    errors.putIf (long form.address 300) "address"
      "Адрес слишком длинный — не больше 300 символов."

/-- `create_customer`. -/
def createCustomer (env : Env) (form : CustomerForm) : Act (Outcome String) :=
  orAnswer (customerErrors form).stop fun _ => do
    let now ← utcnowIso env
    let db ← Tx.read
    let customer : Customer :=
      { id := env.newId db.usedIds, name := strip form.name, surname := orNone (strip form.surname)
        consultantNumber := orNone (strip form.consultantNumber)
        address := orNone (strip form.address), searchLc := some (form.searchLc env)
        createdAt := now, updatedAt := now }
    Tx.stage fun d => d.insert .customer [customer]
    commit
    return .done customer.id

/-- Write a validated form on a customer. -/
def CustomerForm.onto (env : Env) (form : CustomerForm) (stamp : String) (c : Customer) :
    Customer :=
  let c' := { c with
    name := strip form.name
    surname := orNone (strip form.surname)
    consultantNumber := orNone (strip form.consultantNumber)
    address := orNone (strip form.address)
    searchLc := some (form.searchLc env) }
  if c'.name = c.name ∧ c'.surname = c.surname ∧ c'.consultantNumber = c.consultantNumber ∧
    c'.address = c.address ∧ c'.searchLc = c.searchLc then c
  else { c' with updatedAt := stamp }

/-- `update_customer`. -/
def updateCustomer (env : Env) (customerId : String) (form : CustomerForm) :
    Act (Outcome String) := do
  let db ← Tx.read
  let errors : Errors :=
    if (db.find .customer customerId).isNone then [("customer", "Покупатель не найден.")]
    else customerErrors form
  orAnswer errors.stop fun _ => do
    let stamp ← utcnowIso env
    editAndCommit .customer customerId (form.onto env stamp)
    return .done customerId

/-! ## The dictionary -/

/-- `DUPLICATE_ERROR`. -/
def dictionaryDuplicateError : String :=
  "Код уже есть в справочнике — отредактируйте существующую строку."

/-- `_validate` of the dictionary service. -/
def dictionaryErrors (db : Db) (code name : String) (except : Option String) : Errors :=
  let errors := Errors.putIf [] (strip code = "") "code" "Укажите код."
  let errors := errors.putIf (strip name = "") "name" "Укажите название."
  errors.putIf (strip code ≠ "" ∧ db.dictionary.any fun e =>
    e.code = strip code && some e.id != except) "code" dictionaryDuplicateError

/-- `add_entry`. -/
def addEntry (env : Env) (code name : String) : Act (Outcome String) := do
  let db ← Tx.read
  orAnswer (dictionaryErrors db code name none).stop fun _ => do
    let now ← utcnowIso env
    let entry : Dictionary :=
      { id := env.newId db.usedIds, code := strip code, name := strip name, catalogs := .null
        nameLc := some (env.lower (strip name)), rubric := none, createdAt := now
        updatedAt := now }
    Tx.stage fun d => d.insert .dictionary [entry]
    Tx.recover
      (do
        commit
        return .done entry.id)
      (rollbackWith (.refused [("code", dictionaryDuplicateError)]) (· = .integrity))

/-- The pair `update_entry` writes on an entry. -/
def Dictionary.rename (env : Env) (code name stamp : String) (e : Dictionary) : Dictionary :=
  let e' := { e with
    code := strip code, name := strip name, nameLc := some (env.lower (strip name)) }
  if e'.code = e.code ∧ e'.name = e.name ∧ e'.nameLc = e.nameLc then e
  else { e' with updatedAt := stamp }

/-- `update_entry`. -/
def updateEntry (env : Env) (entryId code name : String) : Act (Outcome String) := do
  let db ← Tx.read
  let errors : Errors :=
    if (db.find .dictionary entryId).isNone then [("entry", "Строка справочника не найдена.")]
    else dictionaryErrors db code name (some entryId)
  orAnswer errors.stop fun _ => do
    let stamp ← utcnowIso env
    Tx.recover
      (do
        editAndCommit .dictionary entryId (Dictionary.rename env code name stamp)
        return .done entryId)
      (rollbackWith (.refused [("code", dictionaryDuplicateError)]) (· = .integrity))

/-! ## What is written -/

variable {sc : Scope}

theorem keeps_editAndCommit {k : Kind} {id : String} {f : Row k → Row k}
    (h : ∀ r, Edited k r (f r)) (hsteady : sc.steady → ∀ r, Steady k r (f r)) :
    Keeps (Scoped sc env) (editAndCommit k id f) := fun _ =>
  keepsAt_stage (.edited k id f (fun r _ => h r) fun hs r _ => hsteady hs r) (keeps_commit _ _ _)

theorem keeps_addWarehouse {env : Env} {form : WarehouseForm} :
    Keeps (Scoped sc env) (addWarehouse env form) := by
  intro w
  unfold addWarehouse
  refine keepsAt_orAnswer fun _ _ => keepsAt_utcnowIso fun now _ => keepsAt_read ?_
  refine keepsAt_stage (.born .warehouse _ (env.newId w.usedIds).2 trivial fun _ => by decide) ?_
  exact keepsAt_bind (keeps_commit _ _ _) fun _ w' => keepsAt_pure w' _

theorem edited_warehouse (env : Env) (form : WarehouseForm) (stamp : String) (w : Warehouse) :
    Edited .warehouse w (form.onto env stamp w) := by
  unfold WarehouseForm.onto
  dsimp only
  split <;> rfl

/-- The edit of a warehouse is the one that may change a currency. -/
theorem keeps_updateWarehouse {env : Env} {warehouseId : String} {form : WarehouseForm}
    (hsteady : ¬sc.steady) : Keeps (Scoped sc env) (updateWarehouse env warehouseId form) := by
  intro w
  unfold updateWarehouse
  refine keepsAt_read (keepsAt_orAnswer fun _ _ => keepsAt_utcnowIso fun stamp _ => ?_)
  exact keepsAt_bind (keeps_editAndCommit (edited_warehouse env form stamp) hsteady.elim w) fun _ w' =>
    keepsAt_pure w' _

theorem keeps_stampWarehouse {env : Env} {warehouseId : String} {deleted : Bool} :
    Keeps (Scoped sc env) (stampWarehouse env warehouseId deleted) := by
  intro w
  unfold stampWarehouse
  refine keepsAt_utcnowIso fun now _ => keeps_editAndCommit ?_ ?_ w
  · exact fun _ => rfl
  · exact fun _ _ => rfl

theorem keeps_restoreWarehouse {env : Env} {warehouseId : String} :
    Keeps (Scoped sc env) (restoreWarehouse env warehouseId) := by
  intro w
  unfold restoreWarehouse
  refine keepsAt_read ?_
  split
  · exact keepsAt_pure _ _
  · split_ifs
    · exact keepsAt_pure _ _
    · exact keeps_stampWarehouse w

theorem keeps_softDeleteWarehouse {env : Env} {warehouseId : String} {confirm : Bool} :
    Keeps (Scoped sc env) (softDeleteWarehouse env warehouseId confirm) := by
  intro w
  unfold softDeleteWarehouse
  refine keepsAt_read ?_
  split
  · exact keepsAt_pure _ _
  · exact keepsAt_bind (keeps_stampWarehouse w) fun _ w' => keepsAt_pure w' _

theorem keeps_createCustomer {env : Env} {form : CustomerForm} :
    Keeps (Scoped sc env) (createCustomer env form) := by
  intro w
  unfold createCustomer
  refine keepsAt_orAnswer fun _ _ => keepsAt_utcnowIso fun now _ => keepsAt_read ?_
  refine keepsAt_stage (.born .customer _ (env.newId w.usedIds).2 trivial fun _ => by decide) ?_
  exact keepsAt_bind (keeps_commit _ _ _) fun _ w' => keepsAt_pure w' _

theorem edited_customer (env : Env) (form : CustomerForm) (stamp : String) (c : Customer) :
    Edited .customer c (form.onto env stamp c) := by
  unfold CustomerForm.onto
  dsimp only
  split <;> rfl

theorem keeps_updateCustomer {env : Env} {customerId : String} {form : CustomerForm} :
    Keeps (Scoped sc env) (updateCustomer env customerId form) := by
  intro w
  unfold updateCustomer
  refine keepsAt_read (keepsAt_orAnswer fun _ _ => keepsAt_utcnowIso fun stamp _ => ?_)
  exact keepsAt_bind (keeps_editAndCommit (k := .customer) (edited_customer env form stamp)
    (fun _ _ => trivial) w) fun _ w' =>
    keepsAt_pure w' _

theorem keeps_addEntry {env : Env} {code name : String} :
    Keeps (Scoped sc env) (addEntry env code name) := by
  intro w
  unfold addEntry
  refine keepsAt_read (keepsAt_orAnswer fun _ _ => keepsAt_utcnowIso fun now _ => ?_)
  refine keepsAt_stage (.born .dictionary _ (env.newId w.usedIds).2 trivial fun _ => by decide) ?_
  refine keepsAt_recover ?_ fun e y h => keeps_rollbackWith h
  exact keepsAt_bind (keeps_commit _ _ _) fun _ w' => keepsAt_pure w' _

theorem edited_dictionary (env : Env) (code name stamp : String) (e : Dictionary) :
    Edited .dictionary e (e.rename env code name stamp) := by
  unfold Dictionary.rename
  dsimp only
  split <;> rfl

theorem keeps_updateEntry {env : Env} {entryId code name : String} :
    Keeps (Scoped sc env) (updateEntry env entryId code name) := by
  intro w
  unfold updateEntry
  refine keepsAt_read (keepsAt_orAnswer fun _ _ => keepsAt_utcnowIso fun stamp _ => ?_)
  refine keepsAt_recover ?_ fun e y h => keeps_rollbackWith h
  exact keepsAt_bind (keeps_editAndCommit (k := .dictionary) (edited_dictionary env code name stamp)
    (fun _ _ => trivial) w) fun _ w' =>
    keepsAt_pure w' _

end MyOriShop
