import Mathlib.Data.List.Sort
import MyOriShop.Services.Finance

/-!
# Reports: profit and cash of a period (`app/services/reports.py`, `finance_reports.py`)

* `salesProfitReport` is `sales_profit_report`: the `sale` and `return` rows of a closed period in
  one currency, gone through once, one entry for each product, and the totals.
* `writeoffReport` is `writeoff_report`: one line for each known reason that occurs. The reason is
  read from the payload, which a merge takes as it comes, so that the loop may raise.
* `cashFlowReport` is `cash_flow_report`: one line for each category that occurs.
* The joins are lookups: ids are unique in the database, so an operation has at most one product,
  one batch and one warehouse. The product join is inner, the other two are outer.

Results:
* `salesTotals_eq`: each total is a sum over the rows, whatever the order of the entries.
* `writeoffReport_ok_iff`, `writeoff_qty`: when the loop comes through, and a reason's quantity.
* `cashFlow_line`: a category's line is the sum of its rows.
-/

namespace MyOriShop

open Lib.Sums Lib.Fallible
open Lib.Json (Value lookup)

/-! ## The period, the currency and the scope of a row -/

/-- `business_date_expr`: the business date, else the first ten characters of `created_at`. -/
def businessDay (businessDate : Option String) (createdAt : String) : String :=
  businessDate.getD (String.ofList (createdAt.toList.take 10))

/-- A closed period of days. -/
structure Period where
  start : String
  stop : String

/-- The day lies in the period, both ends included. -/
def Period.covers (period : Period) (day : String) : Bool :=
  period.start ≤ day && day ≤ period.stop

/-- The business day of a ledger row. -/
def Operation.day (o : Operation) : String := businessDay o.businessDate o.createdAt

/-- The business day of a cash row. -/
def CashMovement.day (m : CashMovement) : String := businessDay m.businessDate m.createdAt

/-- The batch of a row, if it has one that is there. -/
def operationBatch (d : Db) (o : Operation) : Option Batch := o.batchId.bind (d.find .batch)

/-- `operation_currency_clause`: the currency of the warehouse the row's batch lies in now. -/
def operationCurrency (d : Db) (o : Operation) : String :=
  ((operationBatch d o).bind fun b => d.find .warehouse (Batch.warehouseId b)).elim
    defaultCurrency Warehouse.currency

/-- `warehouse_scope` of a warehouse column; NULL is in no operator's scope. -/
def Env.warehouseScope (env : Env) (warehouseId : Option String) : Bool :=
  match env.allowed with
  | none => true
  | some ids => warehouseId.any fun w => decide (w ∈ ids)

/-! ## `sales_profit_report` -/

/-- The arguments of `sales_profit_report`. -/
structure ReportQuery where
  period : Period
  authorId : Option String := none
  currency : String := defaultCurrency

/-- The `WHERE` clause. -/
def ReportQuery.takes (env : Env) (d : Db) (q : ReportQuery) (o : Operation) : Bool :=
  (o.type = "sale" || o.type = "return") && q.period.covers o.day &&
    operationCurrency d o = q.currency &&
    env.warehouseScope ((operationBatch d o).map Batch.warehouseId) &&
    (match q.authorId with
      | none => true
      | some a => a = "" || o.authorId = some a)

/-- The rows of the report with their products. -/
def salesRows (env : Env) (d : Db) (q : ReportQuery) : List (Operation × Product) :=
  (d.operations.filter (q.takes env d)).filterMap fun o =>
    (d.find .product o.productId).map fun p => (o, p)

/-- An entry of the breakdown: a product's figures, net of returns. -/
structure ProductSales where
  product : Product
  sold : Int
  returned : Int
  qty : Int
  revenueCents : Int
  costCents : Int
  profitCents : Int

/-- `op.unit_price_cents or 0`, times the signed quantity. -/
def Operation.revenue (o : Operation) : Int := o.unitPriceCents.getD 0 * -o.qtyDelta

/-- The cost of a row, none added for an unknown one. -/
def Operation.cost (o : Operation) : Int := o.unitCostCents.elim 0 fun c => c * -o.qtyDelta

/-- The profit of a row, none added for an unknown cost. -/
def Operation.profit (o : Operation) : Int := o.unitCostCents.elim 0 fun _ => o.revenue - o.cost

/-- The first entry of a product. -/
def ProductSales.empty (p : Product) : ProductSales := ⟨p, 0, 0, 0, 0, 0, 0⟩

/-- Count one row. -/
def ProductSales.add (e : ProductSales) (o : Operation) : ProductSales where
  product := e.product
  sold := e.sold + if o.type = "return" then 0 else -o.qtyDelta
  returned := e.returned + if o.type = "return" then o.qtyDelta else 0
  qty := e.qty + -o.qtyDelta
  revenueCents := e.revenueCents + o.revenue
  costCents := e.costCents + o.cost
  profitCents := e.profitCents + o.profit

/-- `entries.setdefault(product.id, ..)`, then count the row. -/
def addRow (entries : List ProductSales) (row : Operation × Product) : List ProductSales :=
  if entries.any (fun e => e.product.id = row.2.id) then
    entries.map fun e => if e.product.id = row.2.id then e.add row.1 else e
  else entries ++ [(ProductSales.empty row.2).add row.1]

/-- The entries, in the order their products first occur. -/
def salesEntries (rows : List (Operation × Product)) : List ProductSales := rows.foldl addRow []

/-- The totals of the report. -/
structure SalesTotals where
  unitsSold : Int
  unitsReturned : Int
  unitsNet : Int
  salesRevenueCents : Int
  returnsCents : Int
  revenueCents : Int
  costCents : Int
  profitCents : Int
  costUnknownCount : Nat

/-- What `sales_profit_report` returns. -/
structure SalesReport where
  totals : SalesTotals
  byProduct : List ProductSales
  costUnknownCount : Nat

/-- A sale line whose cost was never entered. -/
def Operation.costUnknown (o : Operation) : Bool := o.unitCostCents.isNone && o.type = "sale"

/-- `sales_profit_report`. -/
def salesProfitReport (env : Env) (d : Db) (q : ReportQuery) : SalesReport :=
  let rows := salesRows env d q
  -- `sorted(.., reverse=True)` is stable: entries of one key keep their order
  let byProduct := (salesEntries rows).insertionSort fun a b =>
    b.qty < a.qty ∨ b.qty = a.qty ∧ b.sold ≤ a.sold
  let total (figure : ProductSales → Int) : Int := (byProduct.map figure).sum
  let returnsCents :=
    ((rows.filter fun r => r.1.type = "return").map fun r => r.1.revenue).sum
  let costUnknownCount := (rows.filter fun r => r.1.costUnknown).length
  { totals :=
      { unitsSold := total ProductSales.sold
        unitsReturned := total ProductSales.returned
        unitsNet := total ProductSales.qty
        salesRevenueCents := total ProductSales.revenueCents - returnsCents
        returnsCents := returnsCents
        revenueCents := total ProductSales.revenueCents
        costCents := total ProductSales.costCents
        profitCents := total ProductSales.profitCents
        costUnknownCount := costUnknownCount }
    byProduct := byProduct
    costUnknownCount := costUnknownCount }

/-! ## `writeoff_report` -/

/-- `WRITEOFF_REASONS`, with its labels. -/
def writeoffLabels : List (String × String) :=
  [("damaged", "Брак"), ("expired", "Просрочка"), ("lost", "Потеря"),
    ("personal", "Личное использование"), ("gift", "Подарок"), ("other", "Прочее")]

/-- What the loop of `writeoff_report` may raise. -/
inductive WriteoffError where
  /-- `AttributeError`: the payload is no dictionary. -/
  | attribute
  /-- `TypeError`: the reason cannot be a key. -/
  | unhashable
  deriving DecidableEq

/-- `(op.payload or {}).get("reason_code", "other")`, as a key. -/
def reasonCode (payload : Value) : Except WriteoffError Value :=
  if isTruthy payload then
    match payload with
    | .obj pairs =>
      match (lookup "reason_code" pairs).getD (.str "other") with
      | .arr _ | .obj _ => .error .unhashable
      | code => .ok code
    | _ => .error .attribute
  else .ok (.str "other")

/-- The key is this reason. -/
def isReason (code : String) : Value → Bool
  | .str s => s = code
  | _ => false

/-- The `WHERE` clause of `writeoff_report`. -/
def inWriteoffs (env : Env) (d : Db) (period : Period) (o : Operation) : Bool :=
  o.type = "writeoff" && period.covers o.day &&
    env.warehouseScope ((operationBatch d o).map Batch.warehouseId)

/-- The rows of the report with their products. -/
def writeoffRows (env : Env) (d : Db) (period : Period) : List (Operation × Product) :=
  (d.operations.filter (inWriteoffs env d period)).filterMap fun o =>
    (d.find .product o.productId).map fun p => (o, p)

/-- A line of the write-off report. -/
structure WriteoffLine where
  reasonCode : String
  label : String
  qty : Int
  lines : List (Operation × Product)

/-- What `writeoff_report` returns. -/
structure WriteoffReport where
  byReason : List WriteoffLine
  totalQty : Int

/-- The line of a reason, if it occurs. -/
def writeoffLine (keyed : List (Value × Operation × Product)) (reason : String × String) :
    Option WriteoffLine :=
  let own := (keyed.filter fun row => isReason reason.1 row.1).map Prod.snd
  if own.isEmpty then none
  else some ⟨reason.1, reason.2, (own.map fun row => -row.1.qtyDelta).sum, own⟩

/-- `writeoff_report`. -/
def writeoffReport (env : Env) (d : Db) (period : Period) :
    Except WriteoffError WriteoffReport := do
  let keyed ← (writeoffRows env d period).mapM fun row =>
    (reasonCode row.1.payload).map fun code => (code, row)
  let byReason := writeoffLabels.filterMap (writeoffLine keyed)
  return { byReason := byReason, totalQty := (byReason.map WriteoffLine.qty).sum }

/-! ## `cash_flow_report` -/

/-- A line of the cash report. -/
structure CashLine where
  category : String
  totalCents : Int
  deriving DecidableEq

/-- What `cash_flow_report` returns. -/
structure CashFlow where
  income : List CashLine
  incomeTotalCents : Int
  expense : List CashLine
  expenseTotalCents : Int
  movementCount : Nat

/-- The `WHERE` clause of `cash_flow_report`. -/
def inCashFlow (period : Period) (currency : String) (m : CashMovement) : Bool :=
  period.covers m.day && m.currency = currency

/-- The categories counted as income. -/
def incomeCategories : List String := ["sale"] ++ ["return"] ++ depositCategories

/-- `cash_flow_report`. -/
def cashFlowReport (d : Db) (period : Period) (currency : String) : CashFlow :=
  let rows := d.cashMovements.filter (inCashFlow period currency)
  let lines := cashCategories.filterMap fun category =>
    if rows.any fun m => m.category = category then
      some ⟨category, ((rows.filter fun m => m.category = category).map
        CashMovement.amountCents).sum⟩
    else none
  let income := lines.filter fun l => l.category ∈ incomeCategories
  let expense := lines.filter fun l =>
    l.category ∉ incomeCategories && l.category ∈ withdrawalCategories
  { income := income
    incomeTotalCents := (income.map CashLine.totalCents).sum
    expense := expense
    expenseTotalCents := (expense.map CashLine.totalCents).sum
    movementCount := income.length + expense.length }

/-! ## The totals are sums over the rows -/

variable {env : Env} {d : Db} {q : ReportQuery}

/-- A figure that counts each row by itself. -/
structure Figure (figure : ProductSales → Int) (row : Operation → Int) : Prop where
  empty : ∀ p, figure (.empty p) = 0
  add : ∀ e o, figure (e.add o) = figure e + row o

theorem ProductSales.add_product (e : ProductSales) (o : Operation) :
    (e.add o).product = e.product := rfl

theorem addRow_ids (entries : List ProductSales) (row : Operation × Product) :
    (addRow entries row).map (fun e => e.product.id) =
      if entries.any (fun e => e.product.id = row.2.id) then entries.map fun e => e.product.id
      else entries.map (fun e => e.product.id) ++ [row.2.id] := by
  unfold addRow
  split_ifs
  · rw [List.map_map]
    refine List.map_congr_left fun e _ => ?_
    dsimp only [Function.comp_apply]
    split_ifs <;> rfl
  · rw [List.map_append]
    rfl

theorem nodup_addRow {entries : List ProductSales} (row : Operation × Product)
    (h : (entries.map fun e => e.product.id).Nodup) :
    ((addRow entries row).map fun e => e.product.id).Nodup := by
  rw [addRow_ids]
  split_ifs with hany
  · exact h
  · refine List.nodup_append.mpr ⟨h, List.nodup_singleton _, ?_⟩
    rintro a ha b hb rfl
    rw [List.mem_singleton] at hb
    obtain ⟨e, he, heq⟩ := List.mem_map.mp ha
    exact hany (List.any_eq_true.mpr ⟨e, he, by simpa using heq.trans hb⟩)

/-- Counting a row where one entry has its key adds it once. -/
theorem sum_count {figure : ProductSales → Int} {row : Operation → Int} (hf : Figure figure row)
    {entries : List ProductSales} (h : (entries.map fun e => e.product.id).Nodup) (o : Operation)
    {id : String} (hid : id ∈ entries.map fun e => e.product.id) :
    ((entries.map fun e => if e.product.id = id then e.add o else e).map figure).sum =
      (entries.map figure).sum + row o := by
  induction entries with
  | nil => exact absurd hid List.not_mem_nil
  | cons e entries ih =>
    obtain ⟨hne, hrest⟩ := List.nodup_cons.mp h
    simp only [List.map_cons, List.sum_cons]
    by_cases he : e.product.id = id
    · have hsame : (entries.map fun e => if e.product.id = id then e.add o else e) = entries := by
        refine (List.map_congr_left fun e' he' => if_neg fun heq => ?_).trans (List.map_id _)
        exact hne (List.mem_map.mpr ⟨e', he', heq.trans he.symm⟩)
      rw [if_pos he, hf.add, hsame]
      omega
    · have hmem : id ∈ entries.map fun e => e.product.id :=
        (List.mem_cons.mp hid).resolve_left fun heq => he heq.symm
      rw [if_neg he, ih hrest hmem]
      omega

theorem sum_addRow {figure : ProductSales → Int} {row : Operation → Int} (hf : Figure figure row)
    {entries : List ProductSales} (h : (entries.map fun e => e.product.id).Nodup)
    (r : Operation × Product) :
    ((addRow entries r).map figure).sum = (entries.map figure).sum + row r.1 := by
  unfold addRow
  split_ifs with hany
  · refine sum_count hf h r.1 ?_
    obtain ⟨e, he, heq⟩ := List.any_eq_true.mp hany
    exact List.mem_map.mpr ⟨e, he, by simpa using heq⟩
  · rw [List.map_append, List.sum_append, List.map_singleton, List.sum_singleton, hf.add, hf.empty]
    omega

theorem sum_salesEntries {figure : ProductSales → Int} {row : Operation → Int}
    (hf : Figure figure row) (rows : List (Operation × Product)) :
    ((salesEntries rows).map figure).sum = (rows.map fun r => row r.1).sum := by
  have hfold : ∀ (rows : List (Operation × Product)) (entries : List ProductSales),
      (entries.map fun e => e.product.id).Nodup →
      ((rows.foldl addRow entries).map figure).sum =
        (entries.map figure).sum + (rows.map fun r => row r.1).sum := by
    intro rows
    induction rows with
    | nil =>
      intro entries _
      exact (Int.add_zero _).symm
    | cons r rows ih =>
      intro entries hnodup
      rw [List.foldl_cons, ih _ (nodup_addRow r hnodup), sum_addRow hf hnodup, List.map_cons,
        List.sum_cons, Int.add_assoc]
  have h := hfold rows [] List.nodup_nil
  rw [List.map_nil, List.sum_nil, Int.zero_add] at h
  exact h

/-- The rows a report counts: those it takes whose product is there. -/
def ReportQuery.counts (env : Env) (d : Db) (q : ReportQuery) (o : Operation) : Bool :=
  q.takes env d o && (d.find .product o.productId).isSome

/-- The join with the products keeps the rows whose product is there. -/
theorem joined_fst (d : Db) (takes : Operation → Bool) (ops : List Operation) :
    (((ops.filter takes).filterMap fun o =>
      (d.find .product o.productId).map fun p => (o, p)).map Prod.fst) =
      ops.filter fun o => takes o && (d.find .product o.productId).isSome := by
  induction ops with
  | nil => rfl
  | cons o ops ih =>
    by_cases ht : takes o = true
    · cases hp : d.find .product o.productId with
      | none => simpa [List.filter_cons, ht, hp] using ih
      | some p => simpa [List.filter_cons, ht, hp] using ih
    · simpa [List.filter_cons, ht] using ih

theorem salesRows_fst (env : Env) (d : Db) (q : ReportQuery) :
    (salesRows env d q).map Prod.fst = d.operations.filter (q.counts env d) :=
  joined_fst d _ _

theorem sum_filter {α : Type} (w : α → Int) (p : α → Bool) (l : List α) :
    ((l.filter p).map w).sum = sumOver w p l := by
  induction l with
  | nil => rfl
  | cons a l ih =>
    rw [sumOver_cons, ← ih]
    cases hp : p a <;> simp [hp]

/-- A sum over the rows of a report is a sum over the ledger. -/
theorem sum_salesRows (w : Operation → Int) :
    ((salesRows env d q).map fun r => w r.1).sum = sumOver w (q.counts env d) d.operations := by
  have hmap : (salesRows env d q).map (fun r => w r.1) =
      ((salesRows env d q).map Prod.fst).map w := by
    rw [List.map_map]
    rfl
  rw [hmap, salesRows_fst, sum_filter]

/-- **A total** is the sum of its figure over the rows. -/
theorem total_eq {figure : ProductSales → Int} {row : Operation → Int} (hf : Figure figure row) :
    ((salesProfitReport env d q).byProduct.map figure).sum =
      sumOver row (q.counts env d) d.operations := by
  have hperm : ((salesProfitReport env d q).byProduct.map figure).Perm
      ((salesEntries (salesRows env d q)).map figure) :=
    (List.perm_insertionSort _ _).map figure
  rw [hperm.sum_eq, sum_salesEntries hf, sum_salesRows]

theorem figure_revenue : Figure ProductSales.revenueCents Operation.revenue :=
  ⟨fun _ => rfl, fun _ _ => rfl⟩

theorem figure_cost : Figure ProductSales.costCents Operation.cost :=
  ⟨fun _ => rfl, fun _ _ => rfl⟩

theorem figure_profit : Figure ProductSales.profitCents Operation.profit :=
  ⟨fun _ => rfl, fun _ _ => rfl⟩

/-- **The money totals** of the report, over the ledger. -/
theorem salesTotals_eq (env : Env) (d : Db) (q : ReportQuery) :
    (salesProfitReport env d q).totals.revenueCents =
        sumOver Operation.revenue (q.counts env d) d.operations ∧
      (salesProfitReport env d q).totals.costCents =
        sumOver Operation.cost (q.counts env d) d.operations ∧
      (salesProfitReport env d q).totals.profitCents =
        sumOver Operation.profit (q.counts env d) d.operations ∧
      ((salesProfitReport env d q).totals.costUnknownCount : Int) =
        sumOver (fun _ => 1) (fun o => q.counts env d o && o.costUnknown) d.operations := by
  refine ⟨total_eq figure_revenue, total_eq figure_cost, total_eq figure_profit, ?_⟩
  have hcount : (salesProfitReport env d q).totals.costUnknownCount =
      (((salesRows env d q).map Prod.fst).filter Operation.costUnknown).length := by
    rw [List.filter_map, List.length_map]
    rfl
  rw [hcount, salesRows_fst, List.filter_filter]
  have hlength : ∀ l : List Operation, ((l.length : Nat) : Int) = (l.map fun _ => (1 : Int)).sum := by
    intro l
    induction l with
    | nil => rfl
    | cons a l ih =>
      rw [List.map_cons, List.sum_cons, ← ih, List.length_cons]
      omega
  rw [hlength, sum_filter]
  exact sumOver_congr fun o _ _ => Bool.and_comm _ _

/-- The rows of the write-off report. -/
def writesOff (env : Env) (d : Db) (period : Period) (o : Operation) : Bool :=
  inWriteoffs env d period o && (d.find .product o.productId).isSome

theorem writeoffRows_fst (env : Env) (d : Db) (period : Period) :
    (writeoffRows env d period).map Prod.fst = d.operations.filter (writesOff env d period) :=
  joined_fst d _ _

/-- The row was written off for this reason. -/
def Operation.hasReason (code : String) (o : Operation) : Bool :=
  (reasonCode o.payload).toOption.any (isReason code)

/-- The quantity of a reason, none where the report has no line of it. -/
def WriteoffReport.qty (report : WriteoffReport) (code : String) : Int :=
  ((report.byReason.filter fun line => line.reasonCode = code).map WriteoffLine.qty).sum

/-- The rows with their reasons. -/
theorem sum_keyed {rows : List (Operation × Product)}
    {keyed : List (Value × Operation × Product)}
    (h : List.Forall₂ (fun row k => (reasonCode row.1.payload).map (fun code => (code, row)) =
      .ok k) rows keyed) (code : String) :
    (((keyed.filter fun k => isReason code k.1).map Prod.snd).map fun row => -row.1.qtyDelta).sum =
      sumOver (fun o => -o.qtyDelta) (Operation.hasReason code) (rows.map Prod.fst) := by
  induction h with
  | nil => rfl
  | @cons row k rows keyed hrow _ ih =>
    rw [List.map_cons, sumOver_cons, ← ih]
    have hcode : reasonCode row.1.payload = .ok k.1 ∧ k.2 = row := by
      cases hreason : reasonCode row.1.payload with
      | error e =>
        rw [hreason] at hrow
        cases hrow
      | ok value =>
        rw [hreason] at hrow
        cases hrow
        exact ⟨rfl, rfl⟩
    have hhas : row.1.hasReason code = isReason code k.1 := by
      unfold Operation.hasReason
      rw [hcode.1]
      rfl
    rw [hhas, List.filter_cons]
    split_ifs
    · rw [List.map_cons, List.map_cons, List.sum_cons, hcode.2]
    · exact (Int.zero_add _).symm

/-- **The loop comes through** where each row has a reason. -/
theorem writeoffReport_ok_iff {period : Period} :
    (∃ report, writeoffReport env d period = .ok report) ↔
      ∀ o ∈ d.operations, writesOff env d period o = true →
        ∃ code, reasonCode o.payload = .ok code := by
  have hrows : (∀ o ∈ d.operations, writesOff env d period o = true →
      ∃ code, reasonCode o.payload = .ok code) ↔
      ∀ row ∈ writeoffRows env d period, ∃ code, reasonCode row.1.payload = .ok code := by
    have hmem := List.forall_mem_map (f := Prod.fst) (l := writeoffRows env d period)
      (P := fun o => ∃ code, reasonCode o.payload = .ok code)
    rw [← hmem, writeoffRows_fst]
    simp only [List.mem_filter, and_imp]
  have hreport : (∃ report, writeoffReport env d period = .ok report) ↔
      ∃ keyed, (writeoffRows env d period).mapM (fun row =>
        (reasonCode row.1.payload).map fun code => (code, row)) = .ok keyed := by
    constructor
    · rintro ⟨report, h⟩
      obtain ⟨keyed, hkeyed, -⟩ := bind_ok_iff.mp h
      exact ⟨keyed, hkeyed⟩
    · rintro ⟨keyed, hkeyed⟩
      unfold writeoffReport
      rw [hkeyed]
      exact ⟨_, rfl⟩
  rw [hrows, hreport, mapM_succeeds_iff]
  refine forall₂_congr fun row _ => ?_
  cases reasonCode row.1.payload with
  | error e => exact iff_of_false (fun ⟨_, h⟩ => by cases h) fun ⟨_, h⟩ => by cases h
  | ok code => exact iff_of_true ⟨_, rfl⟩ ⟨_, rfl⟩

/-- **The quantity of a reason** is the sum of its rows. -/
theorem writeoff_qty {period : Period} {report : WriteoffReport}
    (h : writeoffReport env d period = .ok report) :
    (∀ code, report.qty code = if code ∈ writeoffLabels.map Prod.fst then
      sumOver (fun o => -o.qtyDelta) (fun o => writesOff env d period o && o.hasReason code)
        d.operations else 0) ∧
    report.totalQty = (writeoffLabels.map fun reason => report.qty reason.1).sum := by
  obtain ⟨keyed, hkeyed, h⟩ := bind_ok_iff.mp h
  cases h
  have hname : ∀ reason l, writeoffLine keyed reason = some l → l.reasonCode = reason.1 := by
    intro reason l hl
    unfold writeoffLine at hl
    dsimp only at hl
    split_ifs at hl
    cases hl
    rfl
  have hvalue : ∀ reason, (writeoffLine keyed reason).elim 0 WriteoffLine.qty =
      sumOver (fun o => -o.qtyDelta)
        (fun o => writesOff env d period o && o.hasReason reason.1) d.operations := by
    intro reason
    have hsum := sum_keyed (mapM_ok_iff.mp hkeyed) reason.1
    rw [writeoffRows_fst, sumOver_filter] at hsum
    rw [sumOver_congr fun o _ _ => Bool.and_comm _ _, ← hsum]
    unfold writeoffLine
    dsimp only
    split_ifs with hempty
    · rw [List.isEmpty_iff.mp hempty]
      rfl
    · rfl
  have hnodup : (writeoffLabels.map Prod.fst).Nodup := by decide
  have hqty := fun code => sum_line (v := fun code => sumOver (fun o => -o.qtyDelta)
    (fun o => writesOff env d period o && o.hasReason code) d.operations)
    hname hvalue hnodup code
  refine ⟨hqty, ?_⟩
  have htotal := sum_lines hname hvalue (fun _ => true) writeoffLabels
  simp only [List.filter_true] at htotal
  refine htotal.trans ?_
  congr 1
  refine List.map_congr_left fun reason hreason => ?_
  have h := hqty reason.1
  rw [if_pos (List.mem_map_of_mem hreason)] at h
  exact h.symm

/-- The line of a category, if it occurs. -/
def cashLine (rows : List CashMovement) (category : String) : Option CashLine :=
  if rows.any fun m => m.category = category then
    some ⟨category, ((rows.filter fun m => m.category = category).map CashMovement.amountCents).sum⟩
  else none

theorem cashFlow_lines (d : Db) (period : Period) (currency : String) :
    (cashFlowReport d period currency).income =
      (cashCategories.filterMap
        (cashLine (d.cashMovements.filter (inCashFlow period currency)))).filter
          (fun l => l.category ∈ incomeCategories) ∧
    (cashFlowReport d period currency).expense =
      (cashCategories.filterMap
        (cashLine (d.cashMovements.filter (inCashFlow period currency)))).filter
          (fun l => l.category ∉ incomeCategories && l.category ∈ withdrawalCategories) :=
  ⟨rfl, rfl⟩

/-- **The lines of some categories** add up to their rows. -/
theorem cashFlow_total (d : Db) (period : Period) (currency : String) (p : String → Bool) :
    (((cashCategories.filterMap
      (cashLine (d.cashMovements.filter (inCashFlow period currency)))).filter
        fun l => p l.category).map CashLine.totalCents).sum =
      sumOver CashMovement.amountCents (fun m => inCashFlow period currency m &&
        decide (m.category ∈ cashCategories.filter p)) d.cashMovements := by
  have hname : ∀ category l, cashLine (d.cashMovements.filter (inCashFlow period currency))
      category = some l → l.category = category := by
    intro category l hl
    unfold cashLine at hl
    split_ifs at hl
    cases hl
    rfl
  have hvalue : ∀ category, (cashLine (d.cashMovements.filter (inCashFlow period currency))
      category).elim 0 CashLine.totalCents = sumOver CashMovement.amountCents
        (fun m => inCashFlow period currency m && decide (m.category = category))
        d.cashMovements := by
    intro category
    rw [← sumOver_congr fun m _ _ => Bool.and_comm _ _, ← sumOver_filter, ← sum_filter]
    unfold cashLine
    split_ifs with hany
    · rfl
    · have hnone : (d.cashMovements.filter (inCashFlow period currency)).filter
          (fun m => m.category = category) = [] := by
        refine List.filter_eq_nil_iff.mpr fun m hm h => hany ?_
        exact List.any_eq_true.mpr ⟨m, hm, h⟩
      rw [hnone]
      rfl
  have hnodup : (cashCategories.filter p).Nodup :=
    (show cashCategories.Nodup by decide).filter _
  rw [sum_lines hname hvalue, ← sum_sumOver_keys hnodup]

/-- **A line of the cash report** is the sum of its category's rows. -/
theorem cashFlow_line (d : Db) (period : Period) (currency : String) {category : String}
    (h : category ∈ incomeCategories) :
    (((cashFlowReport d period currency).income.filter fun l => l.category = category).map
        CashLine.totalCents).sum =
      sumOver CashMovement.amountCents
        (fun m => inCashFlow period currency m && m.category = category) d.cashMovements := by
  have hmem : category ∈ cashCategories := by
    have hall : ∀ c ∈ incomeCategories, c ∈ cashCategories := by decide
    exact hall category h
  rw [(cashFlow_lines d period currency).1, List.filter_filter]
  refine (cashFlow_total d period currency fun c => decide (c = category) &&
    decide (c ∈ incomeCategories)).trans (sumOver_congr fun m _ _ => ?_)
  by_cases hm : m.category = category <;> simp [hm, hmem, h]

end MyOriShop
