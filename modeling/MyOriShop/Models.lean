import MyOriShop.Lib.Json
import MyOriShop.Core

/-!
# Models: the tables and their constraints (`app/models.py`, the migrations)

The eight tables that travel between devices, one record type each, under the column names of
`app/models.py`. A NULL is `none`; a JSON column holds a `Value`, SQL NULL and JSON null both
being `Value.null` (that is how they read back). Integers are unbounded.

* `Kind` is the wire vocabulary without the header (`KIND_TO_MODEL`), `Row k` the record of a kind,
  `Db.get`/`Db.set` a table by kind. A table is the list of its rows.
* `Db.Ok` is what the database enforces by itself: primary keys, `uq_products_code_active`, the
  unique dictionary code, `UNIQUE (device_id, seq)` of both ledgers, and the foreign keys the
  migrations create. `operations.batch_id`, `operations.sale_id` and `author_id` are bare columns
  in the migrations, so nothing is enforced for them.
* `Database` is a `Db` with its constraints.
* `Db.usedIds` is every id stored anywhere, as a key or as a reference.
-/

namespace MyOriShop

open Lib.Json (Value FloatLit)

/-! ## Rows -/

structure Warehouse where
  id : String
  name : String
  address : Option String
  currency : String
  createdAt : String
  updatedAt : String
  deletedAt : Option String

structure Product where
  id : String
  code : Option String
  name : String
  category : Option String
  costCents : Option Int
  saleCents : Option Int
  minSaleCents : Option Int
  costUahCents : Option Int
  saleUahCents : Option Int
  minSaleUahCents : Option Int
  costEurCents : Option Int
  saleEurCents : Option Int
  minSaleEurCents : Option Int
  lowStockThreshold : Option Int
  staleDays : Option Int
  nameLc : Option String
  quantity : Int
  createdAt : String
  updatedAt : String
  deletedAt : Option String
  deriving DecidableEq

structure Customer where
  id : String
  name : String
  surname : Option String
  consultantNumber : Option String
  address : Option String
  searchLc : Option String
  createdAt : String
  updatedAt : String

structure Dictionary where
  id : String
  code : String
  name : String
  catalogs : Value
  nameLc : Option String
  rubric : Option String
  createdAt : String
  updatedAt : String

structure Batch where
  id : String
  productId : String
  warehouseId : String
  expiry : Option String
  priceCents : Option Int
  costCents : Option Int
  location : Option String
  comment : Option String
  name : Option String
  quantity : Int
  isLegacy : Int
  createdAt : String
  updatedAt : String
  deriving DecidableEq

structure Sale where
  id : String
  customerId : Option String
  createdAt : String
  createdBy : String
  authorId : Option String
  deviceId : Option String

structure Operation where
  id : String
  type : String
  productId : String
  qtyDelta : Int
  unitCostCents : Option Int
  unitPriceCents : Option Int
  payload : Value
  saleId : Option String
  batchId : Option String
  reversesOpId : Option String
  authorId : Option String
  deviceId : String
  seq : Int
  createdAt : String
  businessDate : Option String
  createdBy : String
  syncedAt : Option String

structure CashMovement where
  id : String
  category : String
  amountCents : Int
  currency : String
  note : Option String
  saleId : Option String
  reversesMovementId : Option String
  authorId : Option String
  deviceId : String
  seq : Int
  createdAt : String
  businessDate : Option String
  createdBy : String
  syncedAt : Option String

/-- The literal reads as the floating point number 0: it rounds to it. -/
def floatIsZero (lit : FloatLit) : Bool :=
  match parseDecimal lit.chars with
  | some (_, coefficient, .ofNat _) => coefficient = 0
  | some (_, coefficient, .negSucc k) => coefficient * 2 ^ 1075 ≤ 10 ^ (k + 1)
  | none => false

/-- `bool(value)`. -/
def isTruthy : Value → Bool
  | .null => false
  | .bool b => b
  | .int n => n ≠ 0
  | .float lit => !floatIsZero lit
  | .str s => s ≠ ""
  | .arr items => !items.isEmpty
  | .obj pairs => !pairs.isEmpty

/-- The price of a card column. -/
def Product.price (p : Product) : PriceField → Option Int
  | .cost => p.costCents
  | .sale => p.saleCents
  | .minSale => p.minSaleCents
  | .costUah => p.costUahCents
  | .saleUah => p.saleUahCents
  | .minSaleUah => p.minSaleUahCents
  | .costEur => p.costEurCents
  | .saleEur => p.saleEurCents
  | .minSaleEur => p.minSaleEurCents

/-- `setattr(product, field, cents)`. -/
def Product.setPrice (p : Product) (field : PriceField) (cents : Option Int) : Product :=
  match field with
  | .cost => { p with costCents := cents }
  | .sale => { p with saleCents := cents }
  | .minSale => { p with minSaleCents := cents }
  | .costUah => { p with costUahCents := cents }
  | .saleUah => { p with saleUahCents := cents }
  | .minSaleUah => { p with minSaleUahCents := cents }
  | .costEur => { p with costEurCents := cents }
  | .saleEur => { p with saleEurCents := cents }
  | .minSaleEur => { p with minSaleEurCents := cents }

/-- A product the partial unique index looks at: not deleted, with its code. -/
def Product.activeCode (p : Product) : Option String :=
  if p.deletedAt.isSome then none else p.code

@[simp] theorem Product.setPrice_id (p : Product) (f : PriceField) (c : Option Int) :
    (p.setPrice f c).id = p.id := by
  cases f <;> rfl

@[simp] theorem Product.setPrice_quantity (p : Product) (f : PriceField) (c : Option Int) :
    (p.setPrice f c).quantity = p.quantity := by
  cases f <;> rfl

/-! ## Tables by kind -/

/-- The record kinds of the wire vocabulary. -/
inductive Kind where
  | warehouse | product | customer | dictionary | batch | sale | operation | cashMovement
  deriving DecidableEq

/-- The value of the `kind` discriminator. -/
def Kind.key : Kind → String
  | .warehouse => "warehouse"
  | .product => "product"
  | .customer => "customer"
  | .dictionary => "dictionary"
  | .batch => "batch"
  | .sale => "sale"
  | .operation => "operation"
  | .cashMovement => "cash_movement"

/-- Every kind, parents first. -/
def Kind.all : List Kind :=
  [.warehouse, .product, .customer, .dictionary, .batch, .sale, .operation, .cashMovement]

theorem Kind.mem_all (k : Kind) : k ∈ Kind.all := by cases k <;> decide

theorem Kind.key_injective {k k' : Kind} (h : k.key = k'.key) : k = k' := by
  cases k <;> cases k' <;> first | rfl | exact absurd h (by decide)

/-- The row type of a kind. -/
abbrev Row : Kind → Type
  | .warehouse => Warehouse
  | .product => Product
  | .customer => Customer
  | .dictionary => Dictionary
  | .batch => Batch
  | .sale => Sale
  | .operation => Operation
  | .cashMovement => CashMovement

/-- The primary key of a row. -/
def rowId : (k : Kind) → Row k → String
  | .warehouse, r => Warehouse.id r
  | .product, r => Product.id r
  | .customer, r => Customer.id r
  | .dictionary, r => Dictionary.id r
  | .batch, r => Batch.id r
  | .sale, r => Sale.id r
  | .operation, r => Operation.id r
  | .cashMovement, r => CashMovement.id r

/-- The tables. -/
structure Db where
  warehouses : List Warehouse := []
  products : List Product := []
  customers : List Customer := []
  dictionary : List Dictionary := []
  batches : List Batch := []
  sales : List Sale := []
  operations : List Operation := []
  cashMovements : List CashMovement := []

namespace Db

/-- The table of a kind. -/
def get (d : Db) : (k : Kind) → List (Row k)
  | .warehouse => d.warehouses
  | .product => d.products
  | .customer => d.customers
  | .dictionary => d.dictionary
  | .batch => d.batches
  | .sale => d.sales
  | .operation => d.operations
  | .cashMovement => d.cashMovements

/-- Replace the table of a kind. -/
def set (d : Db) : (k : Kind) → List (Row k) → Db
  | .warehouse, rows => { d with warehouses := rows }
  | .product, rows => { d with products := rows }
  | .customer, rows => { d with customers := rows }
  | .dictionary, rows => { d with dictionary := rows }
  | .batch, rows => { d with batches := rows }
  | .sale, rows => { d with sales := rows }
  | .operation, rows => { d with operations := rows }
  | .cashMovement, rows => { d with cashMovements := rows }

@[simp] theorem get_set_same (d : Db) (k : Kind) (rows : List (Row k)) :
    (d.set k rows).get k = rows := by
  cases k <;> rfl

@[simp] theorem get_set_ne (d : Db) {k k' : Kind} (h : k' ≠ k) (rows : List (Row k)) :
    (d.set k rows).get k' = d.get k' := by
  cases k <;> cases k' <;> first | rfl | exact absurd rfl h

@[simp] theorem set_get (d : Db) (k : Kind) : d.set k (d.get k) = d := by cases k <;> rfl

@[simp] theorem set_set (d : Db) (k : Kind) (rows rows' : List (Row k)) :
    (d.set k rows).set k rows' = d.set k rows' := by
  cases k <;> rfl

/-- The primary keys of a table. -/
def ids (d : Db) (k : Kind) : List String := (d.get k).map (rowId k)

/-- Add rows at the end of a table. -/
def insert (d : Db) (k : Kind) (rows : List (Row k)) : Db := d.set k (d.get k ++ rows)

/-- Change the row with a given id. -/
def edit (d : Db) (k : Kind) (id : String) (f : Row k → Row k) : Db :=
  d.set k ((d.get k).map fun r => if rowId k r = id then f r else r)

/-- `session.get(model, id)`. -/
def find (d : Db) (k : Kind) (id : String) : Option (Row k) :=
  (d.get k).find? fun r => rowId k r = id

theorem mem_of_find {d : Db} {k : Kind} {id : String} {r : Row k} (h : d.find k id = some r) :
    r ∈ d.get k ∧ rowId k r = id :=
  ⟨List.mem_of_find?_eq_some h, by simpa using List.find?_some h⟩

/-- The codes under the partial unique index. -/
def activeCodes (d : Db) : List String := d.products.filterMap Product.activeCode

/-- Every id stored anywhere, as a key or as a reference. -/
def usedIds (d : Db) : List String :=
  Kind.all.flatMap d.ids ++ d.operations.map Operation.productId ++
    d.operations.filterMap Operation.batchId ++ d.operations.filterMap Operation.saleId ++
    d.cashMovements.filterMap CashMovement.saleId

/-- The constraints the database enforces. -/
structure Ok (d : Db) : Prop where
  pk : ∀ k ∈ Kind.all, (d.ids k).Nodup
  codeActive : d.activeCodes.Nodup
  dictionaryCode : (d.dictionary.map Dictionary.code).Nodup
  operationSeq : (d.operations.map fun o => (o.deviceId, o.seq)).Nodup
  cashSeq : (d.cashMovements.map fun m => (m.deviceId, m.seq)).Nodup
  operationProduct : ∀ o ∈ d.operations, o.productId ∈ d.ids .product
  batchProduct : ∀ b ∈ d.batches, b.productId ∈ d.ids .product
  batchWarehouse : ∀ b ∈ d.batches, b.warehouseId ∈ d.ids .warehouse
  saleCustomer : ∀ s ∈ d.sales, ∀ c ∈ s.customerId, c ∈ d.ids .customer
  cashSale : ∀ m ∈ d.cashMovements, ∀ s ∈ m.saleId, s ∈ d.ids .sale

instance (d : Db) : Decidable d.Ok :=
  decidable_of_iff
    ((∀ k ∈ Kind.all, (d.ids k).Nodup) ∧ d.activeCodes.Nodup ∧
      (d.dictionary.map Dictionary.code).Nodup ∧
      (d.operations.map fun o => (o.deviceId, o.seq)).Nodup ∧
      (d.cashMovements.map fun m => (m.deviceId, m.seq)).Nodup ∧
      (∀ o ∈ d.operations, o.productId ∈ d.ids .product) ∧
      (∀ b ∈ d.batches, b.productId ∈ d.ids .product) ∧
      (∀ b ∈ d.batches, b.warehouseId ∈ d.ids .warehouse) ∧
      (∀ s ∈ d.sales, ∀ c ∈ s.customerId, c ∈ d.ids .customer) ∧
      (∀ m ∈ d.cashMovements, ∀ s ∈ m.saleId, s ∈ d.ids .sale))
    ⟨fun ⟨h1, h2, h3, h4, h5, h6, h7, h8, h9, h10⟩ => ⟨h1, h2, h3, h4, h5, h6, h7, h8, h9, h10⟩,
      fun h => ⟨h.pk, h.codeActive, h.dictionaryCode, h.operationSeq, h.cashSeq,
        h.operationProduct, h.batchProduct, h.batchWarehouse, h.saleCustomer, h.cashSale⟩⟩

/-- The database's check as a statement or a commit runs it. -/
def check (d : Db) : Bool := decide d.Ok

theorem check_iff (d : Db) : d.check = true ↔ d.Ok := by simp [check]

theorem Ok.nodup {d : Db} (h : d.Ok) (k : Kind) : (d.ids k).Nodup := h.pk k k.mem_all

end Db

/-- A database: tables that satisfy their constraints. -/
structure Database where
  db : Db
  ok : db.Ok

/-- What a service call or a merge can raise. -/
inductive Exn where
  /-- `ValueError`. -/
  | value (message : String)
  /-- `WarehouseAccessError`, a `ValueError`. -/
  | warehouseAccess (warehouseId : String)
  /-- `IntegrityError`. -/
  | integrity
  /-- The stock check of `recompute_derived`, a `ValueError`. -/
  | stockInvariant (productId : String)
  /-- The driver refuses a value that does not fit its column. -/
  | data (kind : Kind) (field : String)
  deriving DecidableEq

/-- `isinstance(e, ValueError)`. -/
def Exn.isValueError : Exn → Bool
  | .value _ | .warehouseAccess _ | .stockInvariant _ => true
  | .integrity | .data _ _ => false

end MyOriShop
