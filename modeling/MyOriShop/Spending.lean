import MyOriShop.Constrained
import MyOriShop.Dashboard
import MyOriShop.Lib.IsoOrder
import MyOriShop.SaleBooks

/-!
# Spending: what a customer has spent (`app/services/customers.py`)

* `businessDateBounds` is `business_date_bounds`, `periodStart` a day of `_period_starts`.
* `inSpend` is the `WHERE` clause of `_spend_stmt`, `spendWindow` its sum: the customer's sales less
  the returns of a closed period. The clause does not ask for a currency.
* `spendTotals` and `spendView` are the three sums up to today, for the page and for its captions.
* `customerRevenue` is the customer's part of the net revenue of a sales report.

Results:
* `covers_bounds`: a period covers the texts of its days.
* `spend_one_currency_iff`: the sums are in one currency, and the customer's part of the report in
  it, exactly where the sales and returns of the year so far are; `not_spend_one_currency` is a
  customer of a rouble and of a hryvnia warehouse.
-/

namespace MyOriShop

open Lib.Sums Lib.IsoDate

variable {env : Env} {d : Db}

/-! ## Closed periods -/

/-- `business_date_bounds`. -/
def businessDateBounds (startDay endDay : Date) : Period := ⟨startDay.isoformat, endDay.isoformat⟩

/-- **A period covers the texts of its days.** -/
theorem covers_bounds {a c x : Date} :
    (businessDateBounds a c).covers x.isoformat = true ↔ a ≤ x ∧ x ≤ c := by
  simp only [businessDateBounds, Period.covers, Bool.and_eq_true, decide_eq_true_eq,
    isoformat_le_iff]

/-- A period that starts earlier covers more, texts that are no days included. -/
theorem covers_earlier {a b c : Date} (hab : a ≤ b) {day : String}
    (h : (businessDateBounds b c).covers day = true) :
    (businessDateBounds a c).covers day = true := by
  simp only [businessDateBounds, Period.covers, Bool.and_eq_true] at h ⊢
  exact ⟨decide_eq_true ((isoformat_le_iff.mpr hab).trans (of_decide_eq_true h.1)), h.2⟩

/-- The keys of `_period_starts`. -/
inductive SpendPeriod where
  | month
  | quarter
  | year
  deriving DecidableEq

/-- `today.replace(month=month, day=1)`. -/
def firstOfMonth (today : Date) (month : Nat) (h : 1 ≤ month ∧ month ≤ 12) : Date where
  year := today.year
  month := month
  day := 1
  valid := ⟨today.valid.1, today.valid.2.1, h.1, h.2, le_refl 1, daysInMonth_pos _ _⟩

/-- The first month of the quarter, `3 * ((today.month - 1) // 3) + 1`. -/
def quarterMonth (today : Date) : Nat := 3 * ((today.month - 1) / 3) + 1

theorem quarterMonth_le (today : Date) : quarterMonth today ≤ today.month := by
  have hmonth := today.valid.2.2.1
  unfold quarterMonth
  omega

/-- `_period_starts`. -/
def periodStart (today : Date) : SpendPeriod → Date
  | .month => firstOfMonth today today.month ⟨today.valid.2.2.1, today.month_le⟩
  | .quarter => firstOfMonth today (quarterMonth today)
      ⟨Nat.le_add_left 1 _, (quarterMonth_le today).trans today.month_le⟩
  | .year => firstOfMonth today 1 ⟨le_refl 1, by decide⟩

/-- The window of one of the sums: up to today, today included. -/
def spendPeriod (today : Date) (p : SpendPeriod) : Period :=
  businessDateBounds (periodStart today p) today

/-- No window starts before that of the year. -/
theorem year_le_periodStart (today : Date) (p : SpendPeriod) :
    periodStart today .year ≤ periodStart today p := by
  have hmonth := today.valid.2.2.1
  rw [Date.le_iff]
  cases p with
  | month =>
    show (today.year * 100 + 1) * 100 + 1 ≤ (today.year * 100 + today.month) * 100 + 1
    omega
  | quarter =>
    show (today.year * 100 + 1) * 100 + 1 ≤ (today.year * 100 + quarterMonth today) * 100 + 1
    unfold quarterMonth
    omega
  | year => exact le_refl _

/-! ## Spend -/

/-- The row belongs to a sale of the customer. -/
def boughtBy (d : Db) (customerId : String) (o : Operation) : Bool :=
  (operationSale d o).any fun sale => Sale.customerId sale = some customerId

/-- The `WHERE` clause of `_spend_stmt`. -/
def inSpend (env : Env) (d : Db) (customerId : String) (period : Period) (o : Operation) : Bool :=
  boughtBy d customerId o && (o.type = "sale" || o.type = "return") &&
    env.warehouseScope ((operationBatch d o).map Batch.warehouseId) && period.covers o.day

/-- `_spend_window`: a row without a price counts nothing, no rows are 0. -/
def spendWindow (env : Env) (d : Db) (customerId : String) (period : Period) : Int :=
  sumOver (fun o => -o.qtyDelta * o.unitPriceCents.getD 0) (inSpend env d customerId period)
    d.operations

/-- `spend_totals`. -/
def spendTotals (env : Env) (d : Db) (customerId : String) (today : Date) (p : SpendPeriod) : Int :=
  spendWindow env d customerId (spendPeriod today p)

/-- A tile of `spend_view`. -/
structure SpendTile where
  cents : Int
  startIso : String

/-- `spend_view`. -/
def spendView (env : Env) (d : Db) (customerId : String) (today : Date) (p : SpendPeriod) :
    SpendTile where
  cents := spendWindow env d customerId (spendPeriod today p)
  startIso := (periodStart today p).isoformat

/-! ## Currencies -/

/-- The customer's part of the net revenue of a sales report. -/
def customerRevenue (env : Env) (d : Db) (customerId : String) (q : ReportQuery) : Int :=
  (((salesRows env d q).filter fun row => boughtBy d customerId row.1).map fun row =>
    row.1.revenue).sum

/-- An amount in one currency: that of all rows which the window counts, and the customer's part of
the report in it. -/
structure InOneCurrency (env : Env) (d : Db) (customerId : String) (period : Period)
    (currency : String) (cents : Int) : Prop where
  rows : ∀ o ∈ d.operations, inSpend env d customerId period o = true →
    operationCurrency d o = currency
  revenue : cents = customerRevenue env d customerId { period := period, currency := currency }

/-- The customer's sales and returns of the period lie in warehouses of one currency. -/
def SharedCurrency (env : Env) (d : Db) (customerId : String) (period : Period) : Prop :=
  ∀ o ∈ d.operations, ∀ o' ∈ d.operations, inSpend env d customerId period o = true →
    inSpend env d customerId period o' = true → operationCurrency d o = operationCurrency d o'

theorem customerRevenue_eq (env : Env) (d : Db) (customerId : String) (q : ReportQuery) :
    customerRevenue env d customerId q = sumOver Operation.revenue
      (fun o => q.counts env d o && boughtBy d customerId o) d.operations := by
  have hrows : (((salesRows env d q).filter fun row => boughtBy d customerId row.1).map fun row =>
      row.1.revenue) = (((salesRows env d q).map Prod.fst).filter (boughtBy d customerId)).map
        Operation.revenue := by
    rw [List.filter_map, List.map_map]
    rfl
  unfold customerRevenue
  rw [hrows, salesRows_fst, List.filter_filter, sum_filter]
  exact sumOver_congr fun o _ _ => Bool.and_comm _ _

/-- Where the rows of a window share their currency, its sum is the customer's part of the report. -/
theorem spendWindow_eq (hd : d.Ok) {customerId : String} {period : Period} {currency : String}
    (h : ∀ o ∈ d.operations, inSpend env d customerId period o = true →
      operationCurrency d o = currency) :
    spendWindow env d customerId period =
      customerRevenue env d customerId { period := period, currency := currency } := by
  have hweight : ∀ o : Operation, -o.qtyDelta * o.unitPriceCents.getD 0 = o.revenue := fun o =>
    Int.mul_comm _ _
  rw [customerRevenue_eq]
  unfold spendWindow
  simp only [hweight]
  refine sumOver_congr fun o ho _ => ?_
  have hproduct : (d.find .product o.productId).isSome = true := by
    obtain ⟨p, hp, hid⟩ := List.mem_map.mp (hd.operationProduct o ho)
    exact List.find?_isSome.mpr ⟨p, hp, decide_eq_true hid⟩
  have hrow := h o ho
  unfold inSpend at hrow ⊢
  unfold ReportQuery.counts ReportQuery.takes
  dsimp only
  rw [hproduct]
  by_cases hcurrency : operationCurrency d o = currency
  · rw [decide_eq_true hcurrency]
    simp only [Bool.and_true]
    cases boughtBy d customerId o <;> cases period.covers o.day <;> simp
  · rw [Bool.eq_false_iff.mpr fun hcounts => hcurrency (hrow hcounts), decide_eq_false hcurrency]
    simp

/-- **A customer's spend is in one currency**, and the customer's part of the report in it, exactly
where the sales and returns of the year so far are in one. -/
theorem spend_one_currency_iff (env : Env) (d : Database) (customerId : String) (today : Date) :
    (∀ p : SpendPeriod, ∃ currency,
      InOneCurrency env d.db customerId (spendPeriod today p) currency
        (spendTotals env d.db customerId today p) ∧
      InOneCurrency env d.db customerId (spendPeriod today p) currency
        (spendView env d.db customerId today p).cents) ↔
      SharedCurrency env d.db customerId (spendPeriod today .year) := by
  constructor
  · intro h o ho o' ho' hcounts hcounts'
    obtain ⟨currency, hone, -⟩ := h .year
    exact (hone.rows o ho hcounts).trans (hone.rows o' ho' hcounts').symm
  · intro hshared p
    have hwithin : ∀ o : Operation,
        inSpend env d.db customerId (spendPeriod today p) o = true →
        inSpend env d.db customerId (spendPeriod today .year) o = true := by
      intro o h
      unfold inSpend at h ⊢
      rw [Bool.and_eq_true] at h ⊢
      exact ⟨h.1, covers_earlier (year_le_periodStart today p) h.2⟩
    obtain ⟨currency, hcurrency⟩ : ∃ currency, ∀ o ∈ d.db.operations,
        inSpend env d.db customerId (spendPeriod today p) o = true →
        operationCurrency d.db o = currency := by
      by_cases hsome : ∃ o ∈ d.db.operations,
          inSpend env d.db customerId (spendPeriod today p) o = true
      · obtain ⟨o, ho, hcounts⟩ := hsome
        exact ⟨operationCurrency d.db o, fun o' ho' hcounts' =>
          hshared o' ho' o ho (hwithin o' hcounts') (hwithin o hcounts)⟩
      · exact ⟨defaultCurrency, fun o ho hcounts => (hsome ⟨o, ho, hcounts⟩).elim⟩
    have hsum := spendWindow_eq d.ok hcurrency
    exact ⟨currency, ⟨hcurrency, hsum⟩, ⟨hcurrency, hsum⟩⟩

/-- A customer buys one unit in a rouble warehouse and one in a hryvnia warehouse. -/
def mixedSpend : List Request :=
  let receipt (warehouseId : String) : Call := .receipt
    { code := "c", name := "n", qtyRaw := "1", costRaw := "", saleRaw := ""
      warehouseId := warehouseId, batchChoice := "new" }
  let sale (batchId : String) : Call := .sale
    { customerId := some "xxx", codes := ["c"], qtys := ["1"], prices := ["10"]
      batchIds := [batchId] }
  [atShop (.addWarehouse { name := "w", address := "" }),
    atShop (.addWarehouse { name := "w", address := "", currency := "UAH" }),
    atShop (.createCustomer { name := "n", surname := "", consultantNumber := "" }),
    atShop (receipt "x"), atShop (receipt "xx"), atShop (sale "xxxxxx"), atShop (sale "xxxxxxxx")]

/-- The sum of that day, month and year has both. -/
theorem not_spend_one_currency : ¬∀ (env : Env) (d : Database) (customerId : String) (today : Date)
    (p : SpendPeriod), ∃ currency,
      InOneCurrency env d.db customerId (spendPeriod today p) currency
        (spendTotals env d.db customerId today p) ∧
      InOneCurrency env d.db customerId (spendPeriod today p) currency
        (spendView env d.db customerId today p).cents := by
  intro h
  have hmixed : ∃ o ∈ (runAll {} mixedSpend).operations, ∃ o' ∈ (runAll {} mixedSpend).operations,
      inSpend Env.sample (runAll {} mixedSpend) "xxx"
        (spendPeriod ⟨2026, 1, 1, by decide⟩ .year) o = true ∧
      inSpend Env.sample (runAll {} mixedSpend) "xxx"
        (spendPeriod ⟨2026, 1, 1, by decide⟩ .year) o' = true ∧
      operationCurrency (runAll {} mixedSpend) o ≠ operationCurrency (runAll {} mixedSpend) o' := by
    decide +kernel
  have hok : (runAll {} mixedSpend).Ok := runAll_ok (by decide)
  generalize runAll {} mixedSpend = found at hmixed hok
  obtain ⟨o, ho, o', ho', hcounts, hcounts', hne⟩ := hmixed
  obtain ⟨currency, hone, -⟩ := h Env.sample ⟨found, hok⟩ "xxx" ⟨2026, 1, 1, by decide⟩ .year
  exact hne ((hone.rows o ho hcounts).trans (hone.rows o' ho' hcounts').symm)

end MyOriShop
