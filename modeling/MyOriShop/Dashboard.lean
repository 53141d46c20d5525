import Mathlib.Data.List.Dedup
import Mathlib.Data.Prod.Lex
import Mathlib.Data.String.Basic
import MyOriShop.Reports
import MyOriShop.Services.Catalog

/-!
# Dashboard: what the main page shows an operator (`app/services/dashboard.py`)

* `periodMetrics` is `period_metrics`, `cashExpenseTotal` is `cash_expense_total`; the three periods
  of `dashboard_metrics` are `DayRanges`, which depend on the clock alone.
* `stockValuation` is `stock_valuation`, `stockSummary` is `stock_summary`.
* `recentOperations` is `recent_operations`; `recentSales` and the three after it are the feeds of
  the same shape on the pages of the services. Rows of one moment and number come by id.
* `HomeLine` is what the main page prints of a row of the feed.

`AgreesOn W d d'` says that two databases are the same in what belongs to the warehouses `W`.

Results:
* `scoped_perm`: a query that asks for an operation of an own batch finds the same rows in both.
* `operator_sees_own`: what the page shows an operator of `W` is the same for both.
-/

namespace MyOriShop

open Lib.Sums

/-! ## Metrics of a period -/

/-- `cash_expense_total`. -/
def cashExpenseTotal (d : Db) (period : Period) (currency : String) : Int :=
  sumOver CashMovement.amountCents
    (fun m => m.category ∈ withdrawalCategories && inCashFlow period currency m) d.cashMovements

/-- What `period_metrics` returns; an operator has no expense. -/
structure PeriodMetrics where
  revenueCents : Int
  profitCents : Int
  expenseCents : Option Int
  deriving DecidableEq

/-- `period_metrics`. -/
def periodMetrics (env : Env) (d : Db) (period : Period) (currency : String) : PeriodMetrics :=
  let gross := (salesProfitReport env d { period := period, currency := currency }).totals
  if env.allowed.isSome then ⟨gross.revenueCents, gross.profitCents, none⟩
  else
    let expense := cashExpenseTotal d period currency
    ⟨gross.revenueCents, gross.profitCents + expense, some expense⟩

/-- The day, the week and the month of `dashboard_metrics`. -/
structure DayRanges where
  today : Period
  week : Period
  month : Period

/-- `dashboard_metrics`: today, this week, this month. -/
def dashboardMetrics (env : Env) (d : Db) (ranges : DayRanges) (currency : String) :
    PeriodMetrics × PeriodMetrics × PeriodMetrics :=
  (periodMetrics env d ranges.today currency, periodMetrics env d ranges.week currency,
    periodMetrics env d ranges.month currency)

/-! ## Stock -/

/-- A batch in stock of an active product, in the operator's warehouses. -/
def inStock (env : Env) (d : Db) (b : Batch) : Bool :=
  decide (0 < b.quantity) && env.warehouseScope (some b.warehouseId) &&
    (d.find .product b.productId).any fun p => p.deletedAt.isNone

/-- The `WHERE` clause of `stock_valuation`. -/
def inValuation (env : Env) (d : Db) (currency : String) (b : Batch) : Bool :=
  inStock env d b &&
    (d.find .warehouse b.warehouseId).any fun w => Warehouse.currency w = currency

/-- `COALESCE(batch, card)`: the batch's own price, else the card's. -/
def unitPrice (d : Db) (own : Batch → Option Int) (card : PriceField) (b : Batch) : Option Int :=
  (own b).or ((d.find .product b.productId).bind fun p => Product.price p card)

/-- `SUM(quantity * price)`, the unknown prices skipped. -/
def valueCents (price : Batch → Option Int) (batches : List Batch) : Int :=
  (batches.map fun b => (price b).elim 0 fun cents => b.quantity * cents).sum

/-- `COUNT(DISTINCT product_id)`. -/
def productCount (batches : List Batch) : Nat := (batches.map Batch.productId).dedup.length

/-- What `stock_valuation` returns. -/
structure StockValuation where
  costValueCents : Int
  saleValueCents : Int
  costUnknownCount : Nat
  saleUnknownCount : Nat
  deriving DecidableEq

/-- `stock_valuation`. -/
def stockValuation (env : Env) (d : Db) (currency : String) : StockValuation :=
  let fields := cardPriceFields currency
  let cost := unitPrice d Batch.costCents fields.cost
  let sale := unitPrice d Batch.priceCents fields.sale
  let batches := d.batches.filter (inValuation env d currency)
  { costValueCents := valueCents cost batches
    saleValueCents := valueCents sale batches
    costUnknownCount := productCount (batches.filter fun b => (cost b).isNone)
    saleUnknownCount := productCount (batches.filter fun b => (sale b).isNone) }

/-- `stock_summary`: an operator counts the products in stock in the own warehouses, anyone else by
their total quantity. -/
def stockSummary (env : Env) (d : Db) (currency : String) : StockValuation × Nat :=
  (stockValuation env d currency,
    if env.allowed.isSome then productCount (d.batches.filter (inStock env d))
    else (d.products.filter fun p => p.deletedAt.isNone && decide (0 < p.quantity)).length)

/-! ## Feeds -/

/-- `ORDER BY created_at DESC, seq DESC`, then the id. -/
def feedKey (o : Operation) : OrderDual String ×ₗ OrderDual Int ×ₗ String :=
  toLex (OrderDual.toDual o.createdAt, toLex (OrderDual.toDual o.seq, o.id))

/-- The sale of an operation, if it has one that is there. -/
def operationSale (d : Db) (o : Operation) : Option Sale := o.saleId.bind (d.find .sale)

/-- The customer of an operation's sale. -/
def operationCustomer (d : Db) (o : Operation) : Option Customer :=
  (operationSale d o).bind fun s => (Sale.customerId s).bind (d.find .customer)

/-- A row of a feed. -/
structure FeedRow where
  op : Operation
  product : Product
  batch : Option Batch
  customer : Option Customer

/-- The row of an operation; the product join is inner, the others are outer. -/
def feedRow (d : Db) (o : Operation) : Option FeedRow :=
  (d.find .product o.productId).map fun p => ⟨o, p, operationBatch d o, operationCustomer d o⟩

/-- The newest rows of some kind, in the operator's warehouses. -/
def recentRows (env : Env) (d : Db) (takes : Operation → Bool) (limit : Nat) : List FeedRow :=
  let ops := d.operations.filter fun o =>
    takes o && env.warehouseScope ((operationBatch d o).map Batch.warehouseId)
  ((ops.insertionSort fun o o' => feedKey o ≤ feedKey o').filterMap (feedRow d)).take limit

/-- `recent_operations`. -/
def recentOperations (env : Env) (d : Db) (limit : Nat) : List FeedRow :=
  recentRows env d (fun o => o.type ∈ stockAffectingTypes) limit

/-- `recent_sales`. -/
def recentSales (env : Env) (d : Db) (limit : Nat) : List (Operation × Product × Option Customer) :=
  (recentRows env d (fun o => o.type = "sale") limit).map fun r => (r.op, r.product, r.customer)

/-- `recent_receipts`. -/
def recentReceipts (env : Env) (d : Db) (limit : Nat) : List (Operation × Product) :=
  (recentRows env d (fun o => o.type = "receipt") limit).map fun r => (r.op, r.product)

/-- `recent_writeoffs`. -/
def recentWriteoffs (env : Env) (d : Db) (limit : Nat) : List (Operation × Product) :=
  (recentRows env d (fun o => o.type = "writeoff") limit).map fun r => (r.op, r.product)

/-- `recent_transfers`: the outgoing legs. -/
def recentTransfers (env : Env) (d : Db) (limit : Nat) : List (Operation × Product) :=
  (recentRows env d (fun o => o.type = "transfer" && decide (o.qtyDelta < 0)) limit).map fun r =>
    (r.op, r.product)

/-- What a line of the main page prints (`templates/pages/home.html`). -/
structure HomeLine where
  createdAt : String
  type : String
  productId : String
  code : Option String
  name : String
  expiry : Option (Option String)
  qtyDelta : Int
  unitCostCents : Option Int
  profitCents : Option Int
  customer : Option (String × Option String)

/-- The line of a row. -/
def FeedRow.line (r : FeedRow) : HomeLine where
  createdAt := r.op.createdAt
  type := r.op.type
  productId := r.product.id
  code := r.product.code
  name := r.product.name
  expiry := if r.op.type = "correction" then none else r.batch.map Batch.expiry
  qtyDelta := r.op.qtyDelta
  unitCostCents := if r.op.type ∈ ["receipt", "sale", "return", "writeoff"] then r.op.unitCostCents
    else none
  profitCents :=
    if r.op.type = "sale" ∨ r.op.type = "return" then do
      return ((← r.op.unitPriceCents) - (← r.op.unitCostCents)) * -r.op.qtyDelta
    else none
  customer := if r.op.type = "sale" ∨ r.op.type = "return" then
      r.customer.map fun c => (Customer.name c, Customer.surname c)
    else none

/-! ## Two databases that agree on some warehouses -/

/-- A batch in one of the warehouses `W`. -/
def Batch.isIn (W : List String) (b : Batch) : Bool := decide (b.warehouseId ∈ W)

/-- An operation of a batch in one of the warehouses `W`. -/
def isOf (W : List String) (d : Db) (o : Operation) : Bool := (operationBatch d o).any (Batch.isIn W)

/-- A product but for its total quantity, which sums up every warehouse. -/
def Product.bare (p : Product) : Product := { p with quantity := 0 }

/-- A row of a feed but for the total quantity of its product. -/
def FeedRow.bare (r : FeedRow) : FeedRow := { r with product := r.product.bare }

/-- Two databases that are the same in what belongs to the warehouses `W`; whatever else is in them
is arbitrary, and so is the order of their rows. -/
structure AgreesOn (W : List String) (d d' : Db) : Prop where
  currencies : ∀ i ∈ W, (d.find .warehouse i).map Warehouse.currency =
    (d'.find .warehouse i).map Warehouse.currency
  batches : (d.batches.filter (Batch.isIn W)).Perm (d'.batches.filter (Batch.isIn W))
  operations : (d.operations.filter (isOf W d)).Perm (d'.operations.filter (isOf W d'))
  sales : ∀ o ∈ d.operations, isOf W d o = true → operationSale d o = operationSale d' o
  customers : ∀ o ∈ d.operations, isOf W d o = true → ∀ s ∈ operationSale d o, ∀ i ∈ s.customerId,
    d.find .customer i = d'.find .customer i
  products : ∀ i, (d.find .product i).map Product.bare = (d'.find .product i).map Product.bare

variable {W : List String} {env : Env} {d d' : Db}

theorem warehouseScope_some (henv : env.allowed = some W) (warehouseId : String) :
    env.warehouseScope (some warehouseId) = decide (warehouseId ∈ W) := by
  simp [Env.warehouseScope, henv]

theorem warehouseScope_operation (henv : env.allowed = some W) (d : Db) (o : Operation) :
    env.warehouseScope ((operationBatch d o).map Batch.warehouseId) = isOf W d o := by
  unfold isOf
  cases operationBatch d o with
  | none => simp [Env.warehouseScope, henv]
  | some b => simp [Env.warehouseScope, henv, Batch.isIn]

/-- The rows two lists have in common under one condition, under a narrower one. -/
theorem perm_narrower {α : Type} {l l' : List α} {own own' p p' : α → Bool}
    (h : (l.filter own).Perm (l'.filter own')) (hp : ∀ a ∈ l, p a = true → own a = true)
    (hp' : ∀ a ∈ l', p' a = true → own' a = true)
    (hsame : ∀ a ∈ l, a ∈ l' → own a = true → p a = p' a) :
    (l.filter p).Perm (l'.filter p') := by
  have hnarrow : ∀ {l : List α} {own p : α → Bool}, (∀ a ∈ l, p a = true → own a = true) →
      l.filter p = (l.filter own).filter p := by
    intro l own p hp
    rw [List.filter_filter]
    refine List.filter_congr fun a ha => ?_
    cases hpa : p a with
    | false => rfl
    | true => rw [hp a ha hpa, Bool.and_self]
  rw [hnarrow hp, hnarrow hp']
  have hcongr : (l.filter own).filter p = (l.filter own).filter p' := by
    refine List.filter_congr fun a ha => ?_
    obtain ⟨hmem, hown⟩ := List.mem_filter.mp ha
    exact hsame a hmem (List.mem_of_mem_filter (h.mem_iff.mp ha)) hown
  rw [hcongr]
  exact h.filter p'

/-- **A query of the operations** that asks for an own batch finds the same rows in both. -/
theorem AgreesOn.scoped_perm (h : AgreesOn W d d') {p p' : Operation → Bool}
    (hp : ∀ o, p o = true → isOf W d o = true) (hp' : ∀ o, p' o = true → isOf W d' o = true)
    (hsame : ∀ o ∈ d.operations, isOf W d o = true → isOf W d' o = true → p o = p' o) :
    (d.operations.filter p).Perm (d'.operations.filter p') := by
  refine perm_narrower h.operations (fun o _ => hp o) (fun o _ => hp' o) fun o ho _ hown => ?_
  have hmem : o ∈ d.operations.filter (isOf W d) := List.mem_filter.mpr ⟨ho, hown⟩
  exact hsame o ho hown (List.mem_filter.mp (h.operations.mem_iff.mp hmem)).2

/-! ## What is looked up -/

/-- A batch in `W` is found under its id in both. -/
theorem AgreesOn.batch (h : AgreesOn W d d') (hd' : d'.Ok) {i : String} {b : Batch}
    (hb : d.find .batch i = some b) (hin : b.isIn W = true) : d'.find .batch i = some b := by
  obtain ⟨hmem, hid⟩ := Db.mem_of_find hb
  have hthere : b ∈ d'.batches :=
    List.mem_of_mem_filter (h.batches.mem_iff.mp (List.mem_filter.mpr ⟨hmem, hin⟩))
  cases hfind : d'.find .batch i with
  | none =>
    have hnone := List.find?_eq_none.mp hfind b hthere
    exact absurd (decide_eq_true hid) hnone
  | some b' =>
    obtain ⟨hmem', hid'⟩ := Db.mem_of_find hfind
    exact congrArg some (List.inj_on_of_nodup_map (hd'.nodup .batch) hmem' hthere
      (hid'.trans hid.symm))

theorem AgreesOn.operationBatch_eq (h : AgreesOn W d d') (hd' : d'.Ok) {o : Operation}
    (ho : isOf W d o = true) : operationBatch d o = operationBatch d' o := by
  unfold isOf at ho
  unfold operationBatch at ho ⊢
  cases hi : o.batchId with
  | none => rfl
  | some i =>
    rw [hi, Option.bind_some] at ho
    rw [Option.bind_some, Option.bind_some]
    cases hb : d.find .batch i with
    | none =>
      rw [hb] at ho
      cases ho
    | some b =>
      rw [hb] at ho
      exact (h.batch hd' hb ho).symm

theorem AgreesOn.currency (h : AgreesOn W d d') {b : Batch} (hb : b.isIn W = true) :
    (d.find .warehouse b.warehouseId).map Warehouse.currency =
      (d'.find .warehouse b.warehouseId).map Warehouse.currency :=
  h.currencies b.warehouseId (of_decide_eq_true hb)

/-- A product is in both, but for its quantity, or in neither. -/
theorem AgreesOn.product (h : AgreesOn W d d') (i : String) :
    (d.find .product i = none ∧ d'.find .product i = none) ∨
      ∃ p p', d.find .product i = some p ∧ d'.find .product i = some p' ∧
        Product.bare p = Product.bare p' := by
  have hsame := h.products i
  cases hp : d.find .product i with
  | none =>
    rw [hp, Option.map_none] at hsame
    exact .inl ⟨rfl, Option.map_eq_none_iff.mp hsame.symm⟩
  | some p =>
    rw [hp, Option.map_some] at hsame
    obtain ⟨p', hp', hbare⟩ := Option.map_eq_some_iff.mp hsame.symm
    exact .inr ⟨p, p', rfl, hp', hbare.symm⟩

theorem AgreesOn.customer_eq (h : AgreesOn W d d') {o : Operation} (hmem : o ∈ d.operations)
    (ho : isOf W d o = true) : operationCustomer d o = operationCustomer d' o := by
  unfold operationCustomer
  rw [← h.sales o hmem ho]
  cases hs : operationSale d o with
  | none => rfl
  | some s =>
    cases hi : s.customerId with
    | none => simp [hi]
    | some i => simpa [hi] using h.customers o hmem ho s hs i hi

/-! ## Metrics -/

theorem AgreesOn.operationCurrency_eq (h : AgreesOn W d d') (hd' : d'.Ok) {o : Operation}
    (ho : isOf W d o = true) : operationCurrency d o = operationCurrency d' o := by
  unfold operationCurrency
  rw [← h.operationBatch_eq hd' ho]
  unfold isOf at ho
  cases hb : operationBatch d o with
  | none => rfl
  | some b =>
    rw [hb] at ho
    have helim : ∀ w : Option Warehouse,
        w.elim defaultCurrency Warehouse.currency = (w.map Warehouse.currency).getD defaultCurrency :=
      fun w => by cases w <;> rfl
    rw [Option.bind_some, Option.bind_some, helim, helim]
    exact congrArg (Option.getD · defaultCurrency) (h.currency ho)

theorem counts_isOf (henv : env.allowed = some W) {q : ReportQuery} {o : Operation}
    (h : q.counts env d o = true) : isOf W d o = true := by
  simp only [ReportQuery.counts, ReportQuery.takes, Bool.and_eq_true] at h
  rw [← warehouseScope_operation henv]
  exact h.1.1.2

/-- The rows a report counts. -/
theorem AgreesOn.counted (h : AgreesOn W d d') (henv : env.allowed = some W) (hd' : d'.Ok)
    (q : ReportQuery) :
    (d.operations.filter (q.counts env d)).Perm (d'.operations.filter (q.counts env d')) := by
  refine h.scoped_perm (fun o => counts_isOf henv) (fun o => counts_isOf henv) fun o _ ho ho' => ?_
  have hproduct : (d.find .product o.productId).isSome = (d'.find .product o.productId).isSome := by
    rcases h.product o.productId with ⟨hp, hp'⟩ | ⟨p, p', hp, hp', -⟩ <;> rw [hp, hp']
    rfl
  simp only [ReportQuery.counts, ReportQuery.takes, warehouseScope_operation henv, ho, ho',
    h.operationCurrency_eq hd' ho, hproduct]

theorem AgreesOn.sum_counted (h : AgreesOn W d d') (henv : env.allowed = some W) (hd' : d'.Ok)
    (q : ReportQuery) (w : Operation → Int) :
    sumOver w (q.counts env d) d.operations = sumOver w (q.counts env d') d'.operations := by
  rw [← sum_filter, ← sum_filter]
  exact ((h.counted henv hd' q).map w).sum_eq

theorem AgreesOn.periodMetrics_eq (h : AgreesOn W d d') (henv : env.allowed = some W) (hd' : d'.Ok)
    (period : Period) (currency : String) :
    periodMetrics env d period currency = periodMetrics env d' period currency := by
  obtain ⟨hrevenue, -, hprofit, -⟩ := salesTotals_eq env d { period := period, currency := currency }
  obtain ⟨hrevenue', -, hprofit', -⟩ :=
    salesTotals_eq env d' { period := period, currency := currency }
  have hsome : env.allowed.isSome = true := by rw [henv]; rfl
  unfold periodMetrics
  dsimp only
  rw [if_pos hsome, if_pos hsome, hrevenue, hprofit, hrevenue', hprofit', h.sum_counted henv hd',
    h.sum_counted henv hd']

/-! ## Stock -/

theorem inStock_isIn (henv : env.allowed = some W) {b : Batch} (h : inStock env d b = true) :
    b.isIn W = true := by
  simp only [inStock, Bool.and_eq_true, warehouseScope_some henv] at h
  exact h.1.2

theorem AgreesOn.inStock_eq (h : AgreesOn W d d') (b : Batch) : inStock env d b = inStock env d' b := by
  have hactive : (d.find .product b.productId).any (fun p => p.deletedAt.isNone) =
      (d'.find .product b.productId).any fun p => p.deletedAt.isNone := by
    rcases h.product b.productId with ⟨hp, hp'⟩ | ⟨p, p', hp, hp', hbare⟩ <;> rw [hp, hp']
    have hdeleted : (Product.bare p).deletedAt = (Product.bare p').deletedAt := by rw [hbare]
    exact congrArg Option.isNone hdeleted
  simp only [inStock, hactive]

theorem AgreesOn.inValuation_eq (h : AgreesOn W d d') {b : Batch} (hb : b.isIn W = true)
    (currency : String) : inValuation env d currency b = inValuation env d' currency b := by
  have hcurrency : (d.find .warehouse b.warehouseId).any (fun w => Warehouse.currency w = currency) =
      (d'.find .warehouse b.warehouseId).any fun w => Warehouse.currency w = currency := by
    have hany : ∀ w : Option Warehouse, w.any (fun w => Warehouse.currency w = currency) =
        (w.map Warehouse.currency).any fun c => c = currency :=
      fun w => by cases w <;> rfl
    rw [hany, hany, h.currency hb]
  simp only [inValuation, h.inStock_eq, hcurrency]

theorem AgreesOn.unitPrice_eq (h : AgreesOn W d d') (own : Batch → Option Int) (card : PriceField) :
    unitPrice d own card = unitPrice d' own card := by
  funext b
  have hcard : (d.find .product b.productId).bind (fun p => Product.price p card) =
      (d'.find .product b.productId).bind fun p => Product.price p card := by
    have hprice : ∀ p : Product, p.bare.price card = p.price card := fun p => by cases card <;> rfl
    rcases h.product b.productId with ⟨hp, hp'⟩ | ⟨p, p', hp, hp', hbare⟩ <;> rw [hp, hp']
    rw [Option.bind_some, Option.bind_some, ← hprice p, ← hprice p', hbare]
  rw [unitPrice, unitPrice, hcard]

theorem productCount_perm {bs bs' : List Batch} (h : bs.Perm bs') :
    productCount bs = productCount bs' :=
  ((h.map Batch.productId).dedup).length_eq

theorem AgreesOn.valued (h : AgreesOn W d d') (henv : env.allowed = some W) (currency : String) :
    (d.batches.filter (inValuation env d currency)).Perm
      (d'.batches.filter (inValuation env d' currency)) := by
  have hown : ∀ (d : Db) (b : Batch), inValuation env d currency b = true → b.isIn W = true :=
    fun d b hb => inStock_isIn henv (Bool.and_eq_true_iff.mp hb).1
  exact perm_narrower h.batches (fun b _ => hown d b) (fun b _ => hown d' b)
    fun b _ _ hin => h.inValuation_eq hin currency

theorem AgreesOn.stockValuation_eq (h : AgreesOn W d d') (henv : env.allowed = some W)
    (currency : String) : stockValuation env d currency = stockValuation env d' currency := by
  have hperm := h.valued henv currency
  unfold stockValuation
  simp only [h.unitPrice_eq, valueCents, (hperm.map _).sum_eq, productCount_perm (hperm.filter _)]

theorem AgreesOn.stockSummary_eq (h : AgreesOn W d d') (henv : env.allowed = some W)
    (currency : String) : stockSummary env d currency = stockSummary env d' currency := by
  have hsome : env.allowed.isSome = true := by rw [henv]; rfl
  have hperm : (d.batches.filter (inStock env d)).Perm
      (d'.batches.filter (inStock env d')) :=
    perm_narrower h.batches (fun b _ => inStock_isIn henv) (fun b _ => inStock_isIn henv)
      fun b _ _ _ => h.inStock_eq b
  unfold stockSummary
  rw [if_pos hsome, if_pos hsome, h.stockValuation_eq henv, productCount_perm hperm]

/-! ## Feeds -/

/-- Rows with pairwise distinct ids come in one order only. -/
theorem newestFirst_perm {ops ops' : List Operation} (hperm : ops.Perm ops')
    (hids : (ops.map Operation.id).Nodup) :
    (ops.insertionSort fun o o' => feedKey o ≤ feedKey o') =
      ops'.insertionSort fun o o' => feedKey o ≤ feedKey o' := by
  have htotal : Std.Total fun o o' : Operation => feedKey o ≤ feedKey o' :=
    ⟨fun o o' => le_total (feedKey o) (feedKey o')⟩
  have htrans : IsTrans Operation fun o o' => feedKey o ≤ feedKey o' :=
    ⟨fun _ _ _ h h' => le_trans h h'⟩
  have hsorted := (List.perm_insertionSort (fun o o' => feedKey o ≤ feedKey o') ops).trans
    (hperm.trans (List.perm_insertionSort (fun o o' => feedKey o ≤ feedKey o') ops').symm)
  refine hsorted.eq_of_pairwise (fun o o' ho ho' hle hge => ?_)
    (List.pairwise_insertionSort _ ops) (List.pairwise_insertionSort _ ops')
  have ho : o ∈ ops := (List.perm_insertionSort _ ops).mem_iff.mp ho
  have ho' : o' ∈ ops := hperm.mem_iff.mpr ((List.perm_insertionSort _ ops').mem_iff.mp ho')
  have hkey : feedKey o = feedKey o' := le_antisymm hle hge
  have hid : o.id = o'.id := congrArg (fun key => (ofLex (ofLex key).2).2) hkey
  exact List.inj_on_of_nodup_map hids ho ho' hid

/-- The rows of an operation are the same, but for the quantity of the product. -/
theorem AgreesOn.feedRow_eq (h : AgreesOn W d d') (hd' : d'.Ok) {o : Operation}
    (hmem : o ∈ d.operations) (ho : isOf W d o = true) :
    (feedRow d o).map FeedRow.bare = (feedRow d' o).map FeedRow.bare := by
  unfold feedRow
  rw [← h.operationBatch_eq hd' ho, ← h.customer_eq hmem ho]
  rcases h.product o.productId with ⟨hp, hp'⟩ | ⟨p, p', hp, hp', hbare⟩ <;> rw [hp, hp']
  simp only [Option.map_some, FeedRow.bare, hbare]

theorem AgreesOn.recentRows_eq (h : AgreesOn W d d') (henv : env.allowed = some W) (hd : d.Ok)
    (hd' : d'.Ok) (takes : Operation → Bool) (limit : Nat) :
    (recentRows env d takes limit).map FeedRow.bare =
      (recentRows env d' takes limit).map FeedRow.bare := by
  have hperm : (d.operations.filter fun o => takes o && isOf W d o).Perm
      (d'.operations.filter fun o => takes o && isOf W d' o) := by
    refine h.scoped_perm (fun o ho => ?_) (fun o ho => ?_) fun o _ ho ho' => ?_
    · exact (Bool.and_eq_true_iff.mp ho).2
    · exact (Bool.and_eq_true_iff.mp ho).2
    · rw [ho, ho']
  have hids : ((d.operations.filter fun o => takes o && isOf W d o).map Operation.id).Nodup :=
    (hd.nodup .operation).sublist (List.filter_sublist.map _)
  unfold recentRows
  simp only [warehouseScope_operation henv]
  rw [← newestFirst_perm hperm hids, List.map_take, List.map_take, List.map_filterMap,
    List.map_filterMap]
  refine congrArg (List.take limit) (List.filterMap_congr fun o ho => ?_)
  have hmem := (List.perm_insertionSort _ _).mem_iff.mp ho
  obtain ⟨hmem, hguard⟩ := List.mem_filter.mp hmem
  exact h.feedRow_eq hd' hmem (Bool.and_eq_true_iff.mp hguard).2

/-- A figure of the rows that does not read the total quantity. -/
theorem AgreesOn.recentRows_map (h : AgreesOn W d d') (henv : env.allowed = some W) (hd : d.Ok)
    (hd' : d'.Ok) (takes : Operation → Bool) (limit : Nat) {α : Type} {f : FeedRow → α}
    (hf : ∀ r, f r.bare = f r) :
    (recentRows env d takes limit).map f = (recentRows env d' takes limit).map f := by
  have hbare : f ∘ FeedRow.bare = f := funext hf
  have hrows := congrArg (List.map f) (h.recentRows_eq henv hd hd' takes limit)
  rwa [List.map_map, List.map_map, hbare] at hrows

/-- Two databases show a user the same: the metrics of every period, the stock summary, and the
feeds, in which nothing but the total quantity that a row's product carries along can differ; no
line of the main page prints it. -/
structure ShowsSame (env : Env) (d d' : Db) : Prop where
  metrics : ∀ ranges currency,
    dashboardMetrics env d ranges currency = dashboardMetrics env d' ranges currency
  period : ∀ period currency, periodMetrics env d period currency = periodMetrics env d' period currency
  stock : ∀ currency, stockSummary env d currency = stockSummary env d' currency
  feed : ∀ limit, (recentOperations env d limit).map FeedRow.bare =
    (recentOperations env d' limit).map FeedRow.bare
  lines : ∀ limit, (recentOperations env d limit).map FeedRow.line =
    (recentOperations env d' limit).map FeedRow.line
  sales : ∀ limit, (recentSales env d limit).map (fun r => (r.1, r.2.1.bare, r.2.2)) =
    (recentSales env d' limit).map fun r => (r.1, r.2.1.bare, r.2.2)
  receipts : ∀ limit, (recentReceipts env d limit).map (fun r => (r.1, r.2.bare)) =
    (recentReceipts env d' limit).map fun r => (r.1, r.2.bare)
  writeoffs : ∀ limit, (recentWriteoffs env d limit).map (fun r => (r.1, r.2.bare)) =
    (recentWriteoffs env d' limit).map fun r => (r.1, r.2.bare)
  transfers : ∀ limit, (recentTransfers env d limit).map (fun r => (r.1, r.2.bare)) =
    (recentTransfers env d' limit).map fun r => (r.1, r.2.bare)

/-- **Operator noninterference.** Two databases that agree on the warehouses `W`, on the batches in
them, their operations and the sales and customers of those, and on every product but for its total
quantity, show an operator of `W` the same. -/
theorem operator_sees_own (W : List String) (env : Env) (henv : env.allowed = some W)
    (db db' : Database) (h : AgreesOn W db.db db'.db) : ShowsSame env db.db db'.db := by
  have hperiod := fun period currency => h.periodMetrics_eq henv db'.ok period currency
  have hpair : ∀ takes limit,
      ((recentRows env db.db takes limit).map fun r => (r.op, r.product)).map
          (fun r => (r.1, r.2.bare)) =
        ((recentRows env db'.db takes limit).map fun r => (r.op, r.product)).map
          fun r => (r.1, r.2.bare) := by
    intro takes limit
    rw [List.map_map, List.map_map]
    exact h.recentRows_map henv db.ok db'.ok takes limit fun _ => rfl
  constructor
  case metrics =>
    intro ranges currency
    rw [dashboardMetrics, hperiod, hperiod, hperiod]
    rfl
  case period => exact hperiod
  case stock => exact fun currency => h.stockSummary_eq henv currency
  case feed => exact fun limit => h.recentRows_eq henv db.ok db'.ok _ limit
  case lines => exact fun limit => h.recentRows_map henv db.ok db'.ok _ limit fun _ => rfl
  case sales =>
    intro limit
    rw [recentSales, recentSales, List.map_map, List.map_map]
    exact h.recentRows_map henv db.ok db'.ok _ limit fun _ => rfl
  case receipts => exact fun limit => hpair _ limit
  case writeoffs => exact fun limit => hpair _ limit
  case transfers => exact fun limit => hpair _ limit

/-! ## One shop and its neighbour -/

/-- A batch of the product in one of the two warehouses, and the receipt that filled it. -/
def shelf (id warehouseId : String) (quantity : Int) : Batch where
  id := id
  productId := "p"
  warehouseId := warehouseId
  expiry := none
  priceCents := some 300
  costCents := some 200
  location := none
  comment := none
  name := none
  quantity := quantity
  isLegacy := 0
  createdAt := "2026-01-01"
  updatedAt := "2026-01-01"

def shelfReceipt (id batchId : String) (seq qty : Int) : Operation where
  id := id
  type := "receipt"
  productId := "p"
  qtyDelta := qty
  unitCostCents := some 200
  unitPriceCents := some 300
  payload := .null
  saleId := none
  batchId := some batchId
  reversesOpId := none
  authorId := none
  deviceId := "device"
  seq := seq
  createdAt := "2026-01-01"
  businessDate := none
  createdBy := "operator"
  syncedAt := none

/-- Five units in warehouse `a`, and `more` in warehouse `b`. -/
def shops (more : Int) : Db where
  warehouses := [⟨"a", "a", none, "RUB", "", "", none⟩, ⟨"b", "b", none, "RUB", "", "", none⟩]
  products := [{ blankProduct "p" "" with code := some "c", quantity := 5 + more }]
  batches := [shelf "x" "a" 5, shelf "y" "b" more]
  operations := [shelfReceipt "o1" "x" 1 5, shelfReceipt "o2" "y" 2 more]

theorem shops_agree (more more' : Int) : AgreesOn ["a"] (shops more) (shops more') where
  currencies i hi := by cases List.mem_singleton.mp hi; rfl
  batches := .refl _
  operations := .refl _
  sales o ho hown := by
    have hnone : ∀ o ∈ (shops more).operations, o.saleId = none := by simp [shops, shelfReceipt]
    rw [operationSale, operationSale, hnone o ho]
    rfl
  customers o ho hown s hs := by
    have hnone : ∀ o ∈ (shops more).operations, o.saleId = none := by simp [shops, shelfReceipt]
    rw [operationSale, hnone o ho] at hs
    cases hs
  products i := by
    by_cases hi : "p" = i
    · subst hi
      rfl
    · simp [Db.find, Db.get, shops, rowId, blankProduct, hi]

/-- The operator of `a` counts five units and one product, whatever is in `b`. -/
theorem operator_sees_own_shops :
    stockSummary { Env.sample with allowed := some ["a"] } (shops 7) "RUB" =
      (⟨1000, 1500, 0, 0⟩, 1) ∧
    ShowsSame { Env.sample with allowed := some ["a"] } (shops 7) (shops 100) := by
  refine ⟨by decide, ?_⟩
  exact operator_sees_own ["a"] _ rfl ⟨shops 7, by decide⟩ ⟨shops 100, by decide⟩
    (shops_agree 7 100)

end MyOriShop
