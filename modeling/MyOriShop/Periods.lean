import MyOriShop.Merge
import MyOriShop.RoundTrip
import MyOriShop.Spending

/-!
# Periods: closed periods part the ledgers (`app/services/reports.py`, `finance_reports.py`,
`customers.py`)

Every report of a period asks for `business_date_expr` between two texts, both ends included. A row
that was written here, or that `parse_exchange` lets in, has a day there: its business date, else
the first ten characters of its timestamp.

* `LedgerDays d`: the dates of both ledgers are what the local writes and the gate of the exchange
  leave.
* `SalesTotals.plus` adds up the totals of two reports, `CashFlow.line` reads the total of a category.
* `Parted env d whole left right`: each row is in exactly one of the two parts of the whole, and each
  total of the four reports is the sum of its parts.

Results:
* `covers_cut`: a day of the whole lies on one side of the cut.
* `periods_parted`: two periods, the second from the day after the first, part the whole.
* `cash_reconciles`: the cash report against the expense tile and the balance; `not_cash_reconciles`
  has a category of another device that no bucket has.
-/

namespace MyOriShop

open Lib.Json (Value valueAt)
open Lib.Sums Lib.IsoDate Lib.Fallible

variable {env : Env} {d : Db} {a b b' c : Date}

/-! ## Days -/

/-- The dates of the ledgers are days, and their timestamps start with one. -/
structure LedgerDays (d : Db) : Prop where
  operation : ∀ o ∈ d.operations, Acceptable .operation o
  cash : ∀ m ∈ d.cashMovements, Acceptable .cashMovement m

/-- A business day is the text of a day. -/
theorem canonical_businessDay {businessDate : Option String} {createdAt : String}
    (hcreated : isIsoTimestamp createdAt = true) (hdate : ∀ e ∈ businessDate, isIsoDate e = true) :
    CanonicalDate (businessDay businessDate createdAt) := by
  cases businessDate with
  | some e => exact isIsoDate_iff.mp (hdate e rfl)
  | none =>
    unfold isIsoTimestamp at hcreated
    split at hcreated
    · cases hcreated
    · rw [Bool.and_eq_true, Bool.and_eq_true] at hcreated
      exact isIsoDate_iff.mp hcreated.1.2

theorem LedgerDays.operation_day (h : LedgerDays d) {o : Operation} (ho : o ∈ d.operations) :
    CanonicalDate o.day :=
  canonical_businessDay (h.operation o ho).1 (h.operation o ho).2

theorem LedgerDays.cash_day (h : LedgerDays d) {m : CashMovement} (hm : m ∈ d.cashMovements) :
    CanonicalDate m.day :=
  canonical_businessDay (h.cash m hm).1 (h.cash m hm).2

/-! ## Where the ledgers come from -/

/-- **The local services** write rows with days. -/
theorem ledgerDays_runAll {run : List Request} (h : LedgerDays d) : LedgerDays (runAll d run) := by
  refine @runAll_induct (fun _ => True) LedgerDays run d ?_ h fun _ _ _ _ => .inr trivial
  intro d d' hw hd
  constructor
  · intro o ho
    rcases hw.mem (k := .operation) ho with ⟨o', ho', rfl⟩ | ⟨-, hborn⟩
    · exact hd.operation _ ho'
    · obtain ⟨t, ht⟩ := hborn.created
      obtain ⟨day, hday, hcanonical⟩ := hborn.business
      refine ⟨ht ▸ isIsoTimestamp_isoformat t, fun e he => ?_⟩
      rw [hday, Option.mem_some_iff] at he
      exact isIsoDate_iff.mpr (he ▸ hcanonical)
  · intro m hm
    rcases hw.mem (k := .cashMovement) hm with ⟨m', hm', rfl⟩ | ⟨-, hborn⟩
    · exact hd.cash _ hm'
    · obtain ⟨t, ht⟩ := hborn.created
      obtain ⟨day, hday, hcanonical⟩ := hborn.business
      refine ⟨ht ▸ isIsoTimestamp_isoformat t, fun e he => ?_⟩
      rw [hday, Option.mem_some_iff] at he
      exact isIsoDate_iff.mpr (he ▸ hcanonical)

/-- The date columns of a ledger row are read from its cells. -/
theorem rowOf_operation_dates {cells : Cells} {o : Operation}
    (h : rowOf .operation cells = .ok o) :
    cells.text "created_at" = .ok o.createdAt ∧
      cells.optText "business_date" = .ok o.businessDate := by
  iterate 12 obtain ⟨_, -, h⟩ := bind_ok_iff.mp h
  obtain ⟨createdAt, hcreated, h⟩ := bind_ok_iff.mp h
  obtain ⟨businessDate, hbusiness, h⟩ := bind_ok_iff.mp h
  iterate 2 obtain ⟨_, -, h⟩ := bind_ok_iff.mp h
  cases h
  exact ⟨hcreated, hbusiness⟩

theorem rowOf_cash_dates {cells : Cells} {m : CashMovement}
    (h : rowOf .cashMovement cells = .ok m) :
    cells.text "created_at" = .ok m.createdAt ∧
      cells.optText "business_date" = .ok m.businessDate := by
  iterate 10 obtain ⟨_, -, h⟩ := bind_ok_iff.mp h
  obtain ⟨createdAt, hcreated, h⟩ := bind_ok_iff.mp h
  obtain ⟨businessDate, hbusiness, h⟩ := bind_ok_iff.mp h
  iterate 2 obtain ⟨_, -, h⟩ := bind_ok_iff.mp h
  cases h
  exact ⟨hcreated, hbusiness⟩

/-- The dates that an insert reads from a checked ledger record. -/
theorem insertCells_dates {driver : Driver} {now : String} {k : Kind} {data : Data}
    (hk : k.isLedger = true) (hcheck : checkRecord k data = .ok ()) {createdAt : String}
    {businessDate : Option String}
    (hcreated : (insertCells driver now k data).text "created_at" = .ok createdAt)
    (hbusiness : (insertCells driver now k data).optText "business_date" = .ok businessDate) :
    isIsoTimestamp createdAt = true ∧ ∀ e ∈ businessDate, isIsoDate e = true := by
  obtain ⟨hledger, -, hdates⟩ := checkRecord_ok_iff_rules.mp hcheck
  obtain ⟨-, -, s, hs, hvalue⟩ := checkLedger_ok_iff.mp hledger hk
  rw [dateFields_ledger hk, List.forall_mem_singleton] at hdates
  constructor
  · have hcell : (insertCells driver now k data).value "created_at" = .str s := by
      show orDefault (wireValue data "created_at") _ = _
      rw [wireValue, if_neg (by decide), if_neg (by decide), hvalue]
      rfl
    rw [Cells.text_ok_iff, Cells.optText, hcell, Cells.storeText_str] at hcreated
    cases hcreated
    exact hs
  · have hcell : (insertCells driver now k data).value "business_date" =
        valueAt "business_date" data := by
      show orDefault (wireValue data "business_date") (defaultValue now k "business_date") = _
      rw [wireValue, if_neg (by decide), if_neg (by decide)]
      exact orDefault_null _
    rw [Cells.optText, hcell] at hbusiness
    rcases hdates with hnull | ⟨day, hday⟩
    · rw [hnull] at hbusiness
      cases hbusiness
      exact fun e he => by cases he
    · rw [hday, Cells.storeText_str] at hbusiness
      cases hbusiness
      exact fun e he => isIsoDate_iff.mpr ⟨day, (Option.mem_some_iff.mp he).symm⟩

theorem insertRow_acceptable {driver : Driver} {now : String} {k : Kind} {data : Data} {r : Row k}
    (hk : k.isLedger = true) (hcheck : checkRecord k data = .ok ())
    (h : insertRow driver now k data = .ok r) : Acceptable k r := by
  cases k with
  | operation =>
    obtain ⟨hcreated, hbusiness⟩ := rowOf_operation_dates h
    exact insertCells_dates hk hcheck hcreated hbusiness
  | cashMovement =>
    obtain ⟨hcreated, hbusiness⟩ := rowOf_cash_dates h
    exact insertCells_dates hk hcheck hcreated hbusiness
  | warehouse | product | customer | dictionary | batch | sale => exact absurd hk (by decide)

/-- A ledger row that a merge brought was read from one of its records. -/
theorem mem_ledger_applyMerge {driver : Driver} {now : String} {d' : Db} {lines : List String}
    {batch : ExchangeBatch} {report : MergeReport} (hok : d.Ok)
    (hbatch : parseExchange lines = .ok batch)
    (hmerge : applyMerge driver now d batch.records = .ok (d', report)) {k : Kind}
    (hk : k.isLedger = true) {r : Row k} (hr : r ∈ d'.get k) : r ∈ d.get k ∨
      ∃ data, (ExchangeRecord.mk k data).received ∈ batch.records ∧ checkRecord k data = .ok () ∧
        insertRow driver now k data = .ok r := by
  obtain ⟨rows, hrows, -, hderived, -⟩ := (applyMerge_ok_iff hok).mp hmerge
  obtain ⟨-, rfl⟩ := recomputeDerived_ok_iff.mp hderived
  have hmem : r ∈ (d.receive rows).get k := by
    cases k with
    | operation | cashMovement => exact hr
    | warehouse | product | customer | dictionary | batch | sale => exact absurd hk (by decide)
  obtain ⟨fresh, hfresh, hout⟩ := incoming_ok_iff.mp (hrows k)
  have hsame : (rows k).1 = fresh := by
    rw [hout]
    cases k with
    | operation | cashMovement => rfl
    | warehouse | product | customer | dictionary | batch | sale => exact absurd hk (by decide)
  rw [Db.get_receive, hsame] at hmem
  refine (List.mem_append.mp hmem).imp_right fun hr => ?_
  obtain ⟨data, hdata, hrow⟩ := forall₂_mem_right (mapM_ok_iff.mp hfresh) hr
  have hrecord := mem_bucket.mp (List.mem_filter.mp hdata).1
  obtain ⟨r', ⟨-, hcheck⟩, heq⟩ := parseExchange_admissible hbatch hrecord
  obtain ⟨k', data'⟩ := r'
  cases heq
  exact ⟨data', hrecord, hcheck, insertRow_clearSynced driver now _ data' ▸ hrow⟩

/-- **A merge of accepted records** adds rows with days. -/
theorem ledgerDays_applyMerge {driver : Driver} {now : String} {d' : Db} {lines : List String}
    {batch : ExchangeBatch} {report : MergeReport} (hok : d.Ok) (h : LedgerDays d)
    (hbatch : parseExchange lines = .ok batch)
    (hmerge : applyMerge driver now d batch.records = .ok (d', report)) : LedgerDays d' := by
  constructor
  · intro o ho
    rcases mem_ledger_applyMerge (k := .operation) hok hbatch hmerge rfl ho with
      hold | ⟨data, -, hcheck, hrow⟩
    · exact h.operation o hold
    · exact insertRow_acceptable rfl hcheck hrow
  · intro m hm
    rcases mem_ledger_applyMerge (k := .cashMovement) hok hbatch hmerge rfl hm with
      hold | ⟨data, -, hcheck, hrow⟩
    · exact h.cash m hold
    · exact insertRow_acceptable rfl hcheck hrow

/-! ## The cut -/

/-- The days from `a` to `c`, cut between `b` and the next day `b'`. -/
structure Cut (a b b' c : Date) : Prop where
  start : a ≤ b
  next : b.next = some b'
  stop : b' ≤ c

/-- **A day of the whole lies on one side of the cut**, and only there. -/
theorem covers_cut (h : Cut a b b' c) {day : String}
    (hday : CanonicalDate day) :
    (businessDateBounds a c).covers day =
        ((businessDateBounds a b).covers day || (businessDateBounds b' c).covers day) ∧
      ¬((businessDateBounds a b).covers day = true ∧ (businessDateBounds b' c).covers day = true) := by
  obtain ⟨x, rfl⟩ := hday
  have hcov := next_covBy h.next
  refine ⟨Bool.eq_iff_iff.mpr ?_, ?_⟩
  · rw [Bool.or_eq_true, covers_bounds, covers_bounds, covers_bounds]
    constructor
    · rintro ⟨hax, hxc⟩
      rcases le_or_gt x b with hxb | hbx
      · exact .inl ⟨hax, hxb⟩
      · exact .inr ⟨hcov.ge_of_gt hbx, hxc⟩
    · rintro (⟨hax, hxb⟩ | ⟨hbx, hxc⟩)
      · exact ⟨hax, hxb.trans (hcov.le.trans h.stop)⟩
      · exact ⟨h.start.trans (hcov.le.trans hbx), hxc⟩
  · rw [covers_bounds, covers_bounds]
    rintro ⟨⟨-, hxb⟩, hbx, -⟩
    exact absurd (hcov.lt.trans_le hbx) (not_lt.mpr hxb)

/-- A row is in the whole where it is in exactly one of its parts. -/
theorem covers_xor (h : Cut a b b' c) {day : String}
    (hday : CanonicalDate day) : (businessDateBounds a c).covers day = true ↔
      Xor ((businessDateBounds a b).covers day = true)
        ((businessDateBounds b' c).covers day = true) := by
  obtain ⟨hor, hnot⟩ := covers_cut h hday
  rw [hor, Bool.or_eq_true, xor_iff_or_and_not_and, and_iff_left hnot]

/-- A period of one day covers that day. -/
theorem covers_day {day : String} :
    (businessDateBounds a a).covers day = true ↔ day = a.isoformat := by
  unfold businessDateBounds Period.covers
  rw [Bool.and_eq_true]
  constructor
  · rintro ⟨hle, hge⟩
    exact le_antisymm (of_decide_eq_true hge) (of_decide_eq_true hle)
  · rintro rfl
    exact ⟨decide_eq_true le_rfl, decide_eq_true le_rfl⟩

/-- **A sum over a period** is the sum over its parts. -/
theorem sumOver_cut {α : Type} {day : α → String} {l : List α} (hl : ∀ r ∈ l, CanonicalDate (day r))
    (h : Cut a b b' c) (w : α → Int) (p : α → Bool) :
    sumOver w (fun r => p r && (businessDateBounds a c).covers (day r)) l =
      sumOver w (fun r => p r && (businessDateBounds a b).covers (day r)) l +
        sumOver w (fun r => p r && (businessDateBounds b' c).covers (day r)) l := by
  rw [← sumOver_or]
  · refine sumOver_congr fun r hr _ => ?_
    rw [(covers_cut h (hl r hr)).1, Bool.and_or_distrib_left]
  · intro r hr hleft
    rw [Bool.and_eq_true] at hleft
    rw [Bool.and_eq_false_iff]
    exact .inr (Bool.eq_false_iff.mpr fun hright =>
      (covers_cut h (hl r hr)).2 ⟨hleft.2, hright⟩)

/-! ## Reports of a cut period -/

/-- The totals of a report are those of two others, added up. -/
structure SalesTotals.Adds (whole left right : SalesTotals) : Prop where
  unitsSold : whole.unitsSold = left.unitsSold + right.unitsSold
  unitsReturned : whole.unitsReturned = left.unitsReturned + right.unitsReturned
  unitsNet : whole.unitsNet = left.unitsNet + right.unitsNet
  salesRevenueCents : whole.salesRevenueCents = left.salesRevenueCents + right.salesRevenueCents
  returnsCents : whole.returnsCents = left.returnsCents + right.returnsCents
  revenueCents : whole.revenueCents = left.revenueCents + right.revenueCents
  costCents : whole.costCents = left.costCents + right.costCents
  profitCents : whole.profitCents = left.profitCents + right.profitCents
  costUnknownCount : whole.costUnknownCount = left.costUnknownCount + right.costUnknownCount

/-- The total of a category, in either half of the cash report. -/
def CashFlow.line (flow : CashFlow) (category : String) : Int :=
  (((flow.income ++ flow.expense).filter fun l => l.category = category).map
    CashLine.totalCents).sum

/-- The lines of a cash report are those of two others, added up. -/
structure CashFlow.Adds (whole left right : CashFlow) : Prop where
  line : ∀ category, whole.line category = left.line category + right.line category
  income : whole.incomeTotalCents = left.incomeTotalCents + right.incomeTotalCents
  expense : whole.expenseTotalCents = left.expenseTotalCents + right.expenseTotalCents

/-- The quantities of a write-off report are those of two others, added up. -/
structure WriteoffReport.Adds (whole left right : WriteoffReport) : Prop where
  qty : ∀ code, whole.qty code = left.qty code + right.qty code
  totalQty : whole.totalQty = left.totalQty + right.totalQty

/-- A day is in its own period. -/
theorem covers_self (day : String) : Period.covers ⟨day, day⟩ day = true := by
  simp [Period.covers]

/-- What the sales report asks of a row besides its day. -/
theorem counts_eq (env : Env) (d : Db) (authorId : Option String) (currency : String)
    (period : Period) (o : Operation) : ReportQuery.counts env d ⟨period, authorId, currency⟩ o =
      (ReportQuery.counts env d ⟨⟨o.day, o.day⟩, authorId, currency⟩ o && period.covers o.day) := by
  unfold ReportQuery.counts ReportQuery.takes
  dsimp only
  rw [covers_self]
  cases period.covers o.day <;> simp

theorem figure_sold : Figure ProductSales.sold
    (fun o => if o.type = "return" then 0 else -o.qtyDelta) :=
  ⟨fun _ => rfl, fun _ _ => rfl⟩

theorem figure_returned : Figure ProductSales.returned
    (fun o => if o.type = "return" then o.qtyDelta else 0) :=
  ⟨fun _ => rfl, fun _ _ => rfl⟩

theorem figure_qty : Figure ProductSales.qty (fun o => -o.qtyDelta) :=
  ⟨fun _ => rfl, fun _ _ => rfl⟩

/-- The refunds of a report. -/
theorem returnsCents_eq (env : Env) (d : Db) (q : ReportQuery) :
    (salesProfitReport env d q).totals.returnsCents = sumOver Operation.revenue
      (fun o => q.counts env d o && decide (o.type = "return")) d.operations := by
  have hrows : ((salesRows env d q).filter fun r => r.1.type = "return").map (fun r => r.1.revenue) =
      (((salesRows env d q).map Prod.fst).filter fun o => o.type = "return").map
        Operation.revenue := by
    rw [List.filter_map, List.map_map]
    rfl
  show (((salesRows env d q).filter fun r => r.1.type = "return").map fun r => r.1.revenue).sum = _
  rw [hrows, salesRows_fst, List.filter_filter, sum_filter]
  exact sumOver_congr fun o _ _ => Bool.and_comm _ _

/-- What the write-off report asks of a row besides its day. -/
theorem writesOff_eq (env : Env) (d : Db) (period : Period) (o : Operation) :
    writesOff env d period o = (writesOff env d ⟨o.day, o.day⟩ o && period.covers o.day) := by
  unfold writesOff inWriteoffs
  rw [covers_self]
  cases period.covers o.day <;> simp

/-- **The halves of the cash report**, over the ledger. -/
theorem incomeTotal_eq (d : Db) (period : Period) (currency : String) :
    (cashFlowReport d period currency).incomeTotalCents = sumOver CashMovement.amountCents
      (fun m => inCashFlow period currency m && decide (m.category ∈ incomeCategories))
      d.cashMovements := by
  have hmem : ∀ category, category ∈ cashCategories.filter (fun c => c ∈ incomeCategories) ↔
      category ∈ incomeCategories := by
    have hall : ∀ c ∈ incomeCategories, c ∈ cashCategories := by decide
    intro category
    rw [List.mem_filter, decide_eq_true_eq]
    exact and_iff_right_of_imp (hall category)
  refine (cashFlow_total d period currency fun c => decide (c ∈ incomeCategories)).trans ?_
  simp only [hmem]

theorem expenseTotal_eq (d : Db) (period : Period) (currency : String) :
    (cashFlowReport d period currency).expenseTotalCents = sumOver CashMovement.amountCents
      (fun m => inCashFlow period currency m && decide (m.category ∈ withdrawalCategories))
      d.cashMovements := by
  have hmem : ∀ category, category ∈ cashCategories.filter (fun c =>
      decide (c ∉ incomeCategories) && decide (c ∈ withdrawalCategories)) ↔
      category ∈ withdrawalCategories := by
    have hall : ∀ c ∈ withdrawalCategories, c ∈ cashCategories ∧ c ∉ incomeCategories := by decide
    intro category
    rw [List.mem_filter, Bool.and_eq_true, decide_eq_true_eq, decide_eq_true_eq]
    exact ⟨fun h => h.2.2, fun h => ⟨(hall category h).1, (hall category h).2, h⟩⟩
  refine (cashFlow_total d period currency fun c =>
    decide (c ∉ incomeCategories) && decide (c ∈ withdrawalCategories)).trans ?_
  simp only [hmem]

/-- The line of a category. -/
theorem line_eq (d : Db) (period : Period) (currency category : String) :
    (cashFlowReport d period currency).line category = sumOver CashMovement.amountCents
      (fun m => inCashFlow period currency m && (decide (m.category ∈ cashCategories) &&
        decide (m.category = category))) d.cashMovements := by
  have hhalves : ∀ c ∈ cashCategories, c ∈ incomeCategories ∨ c ∈ withdrawalCategories := by decide
  unfold CashFlow.line
  rw [(cashFlow_lines d period currency).1, (cashFlow_lines d period currency).2,
    List.filter_append, List.map_append, List.sum_append, List.filter_filter, List.filter_filter]
  have hincome := cashFlow_total d period currency fun c =>
    decide (c = category) && decide (c ∈ incomeCategories)
  have hexpense := cashFlow_total d period currency fun c =>
    decide (c = category) && (decide (c ∉ incomeCategories) && decide (c ∈ withdrawalCategories))
  rw [hincome, hexpense, ← sumOver_or]
  · refine sumOver_congr fun m _ _ => ?_
    have hhalf := hhalves m.category
    by_cases hmem : m.category ∈ cashCategories
    · by_cases hinc : m.category ∈ incomeCategories
      · simp [List.mem_filter, hmem, hinc]
      · simp [List.mem_filter, hmem, hinc, (hhalf hmem).resolve_left hinc]
    · simp [List.mem_filter, hmem]
  · intro m _ h
    simp only [Bool.and_eq_true, decide_eq_true_eq, List.mem_filter] at h
    simp [List.mem_filter, h.2.2.2]

section

variable (hd : LedgerDays d) (hcut : Cut a b b' c)

include hd hcut

theorem operations_cut {counts : Period → Operation → Bool} {p : Operation → Bool}
    (hcounts : ∀ period o, counts period o = (p o && period.covers o.day)) (w : Operation → Int)
    (q : Operation → Bool) :
    sumOver w (fun o => counts (businessDateBounds a c) o && q o) d.operations =
      sumOver w (fun o => counts (businessDateBounds a b) o && q o) d.operations +
        sumOver w (fun o => counts (businessDateBounds b' c) o && q o) d.operations := by
  have hsum := sumOver_cut (fun _ ho => hd.operation_day ho) hcut w fun o => p o && q o
  simp only [hcounts, Bool.and_right_comm (p _) _ (q _)]
  exact hsum

theorem spendWindow_cut (customerId : String) :
    spendWindow env d customerId (businessDateBounds a c) =
      spendWindow env d customerId (businessDateBounds a b) +
        spendWindow env d customerId (businessDateBounds b' c) :=
  sumOver_cut (fun _ ho => hd.operation_day ho) hcut _ _

/-- **The sales report** of the whole. -/
theorem salesTotals_cut (authorId : Option String) (currency : String) :
    SalesTotals.Adds
      (salesProfitReport env d ⟨businessDateBounds a c, authorId, currency⟩).totals
      (salesProfitReport env d ⟨businessDateBounds a b, authorId, currency⟩).totals
      (salesProfitReport env d ⟨businessDateBounds b' c, authorId, currency⟩).totals := by
  have hcounts := counts_eq env d authorId currency
  have hsums := operations_cut hd hcut hcounts
  have htotal : ∀ {figure : ProductSales → Int} {row : Operation → Int}, Figure figure row →
      ((salesProfitReport env d ⟨businessDateBounds a c, authorId, currency⟩).byProduct.map
        figure).sum =
      ((salesProfitReport env d ⟨businessDateBounds a b, authorId, currency⟩).byProduct.map
        figure).sum +
      ((salesProfitReport env d ⟨businessDateBounds b' c, authorId, currency⟩).byProduct.map
        figure).sum := by
    intro figure row hfigure
    have hsum := hsums row fun _ => true
    simp only [Bool.and_true] at hsum
    rw [total_eq hfigure, total_eq hfigure, total_eq hfigure, hsum]
  have hreturns : (salesProfitReport env d ⟨businessDateBounds a c, authorId, currency⟩).totals.returnsCents =
      (salesProfitReport env d ⟨businessDateBounds a b, authorId, currency⟩).totals.returnsCents +
      (salesProfitReport env d ⟨businessDateBounds b' c, authorId, currency⟩).totals.returnsCents := by
    rw [returnsCents_eq, returnsCents_eq, returnsCents_eq]
    exact hsums _ _
  have hrevenue := htotal figure_revenue
  have hunknown := hsums (fun _ => 1) Operation.costUnknown
  rw [← (salesTotals_eq env d ⟨businessDateBounds a c, authorId, currency⟩).2.2.2,
    ← (salesTotals_eq env d ⟨businessDateBounds a b, authorId, currency⟩).2.2.2,
    ← (salesTotals_eq env d ⟨businessDateBounds b' c, authorId, currency⟩).2.2.2] at hunknown
  exact {
    unitsSold := htotal figure_sold
    unitsReturned := htotal figure_returned
    unitsNet := htotal figure_qty
    salesRevenueCents := by
      have hgross : ∀ q, (salesProfitReport env d q).totals.salesRevenueCents =
          ((salesProfitReport env d q).byProduct.map ProductSales.revenueCents).sum -
            (salesProfitReport env d q).totals.returnsCents := fun _ => rfl
      rw [hgross, hgross, hgross, hrevenue, hreturns]
      omega
    returnsCents := hreturns
    revenueCents := hrevenue
    costCents := htotal figure_cost
    profitCents := htotal figure_profit
    costUnknownCount := by omega }

/-- **The write-off report** of the whole comes through where those of the parts do, and then adds
them up. -/
theorem writeoffs_cut :
    (∀ whole, writeoffReport env d (businessDateBounds a c) = .ok whole → ∃ left right,
      writeoffReport env d (businessDateBounds a b) = .ok left ∧
      writeoffReport env d (businessDateBounds b' c) = .ok right ∧ whole.Adds left right) ∧
    ∀ left right, writeoffReport env d (businessDateBounds a b) = .ok left →
      writeoffReport env d (businessDateBounds b' c) = .ok right →
      ∃ whole, writeoffReport env d (businessDateBounds a c) = .ok whole := by
  have hcounts := writesOff_eq env d
  have hwhole : ∀ o ∈ d.operations, writesOff env d (businessDateBounds a c) o = true ↔
      writesOff env d (businessDateBounds a b) o = true ∨
        writesOff env d (businessDateBounds b' c) o = true := by
    intro o ho
    rw [hcounts (businessDateBounds a c), hcounts (businessDateBounds a b),
      hcounts (businessDateBounds b' c), (covers_cut hcut (hd.operation_day ho)).1,
      Bool.and_or_distrib_left, Bool.or_eq_true]
  constructor
  · intro whole h
    have hloop := writeoffReport_ok_iff.mp ⟨whole, h⟩
    obtain ⟨left, hleft⟩ := writeoffReport_ok_iff.mpr fun o ho hleft =>
      hloop o ho ((hwhole o ho).mpr (.inl hleft))
    obtain ⟨right, hright⟩ := writeoffReport_ok_iff.mpr fun o ho hright =>
      hloop o ho ((hwhole o ho).mpr (.inr hright))
    have hqty : ∀ code, whole.qty code = left.qty code + right.qty code := by
      intro code
      rw [(writeoff_qty h).1, (writeoff_qty hleft).1, (writeoff_qty hright).1]
      split_ifs
      · exact operations_cut hd hcut hcounts _ _
      · rfl
    refine ⟨left, right, hleft, hright, hqty, ?_⟩
    rw [(writeoff_qty h).2, (writeoff_qty hleft).2, (writeoff_qty hright).2]
    simp only [hqty]
    exact List.sum_map_add
  · intro left right hleft hright
    refine writeoffReport_ok_iff.mpr fun o ho h => ?_
    rcases (hwhole o ho).mp h with hl | hr
    · exact writeoffReport_ok_iff.mp ⟨left, hleft⟩ o ho hl
    · exact writeoffReport_ok_iff.mp ⟨right, hright⟩ o ho hr

/-- The rows of some categories. -/
theorem categories_cut (currency : String) (p : String → Bool) :
    sumOver CashMovement.amountCents (fun m => inCashFlow (businessDateBounds a c) currency m &&
        p m.category) d.cashMovements =
      sumOver CashMovement.amountCents (fun m => inCashFlow (businessDateBounds a b) currency m &&
        p m.category) d.cashMovements +
      sumOver CashMovement.amountCents (fun m => inCashFlow (businessDateBounds b' c) currency m &&
        p m.category) d.cashMovements := by
  have hsum := sumOver_cut (fun _ hm => hd.cash_day hm) hcut CashMovement.amountCents fun m =>
    decide (m.currency = currency) && p m.category
  have hflow : ∀ period (m : CashMovement), (inCashFlow period currency m && p m.category) =
      (decide (m.currency = currency) && p m.category && period.covers m.day) := by
    intro period m
    unfold inCashFlow
    cases period.covers m.day <;> simp
  simp only [hflow]
  exact hsum

/-- **The cash report** of the whole. -/
theorem cashFlow_cut (currency : String) :
    CashFlow.Adds (cashFlowReport d (businessDateBounds a c) currency)
      (cashFlowReport d (businessDateBounds a b) currency)
      (cashFlowReport d (businessDateBounds b' c) currency) where
  line category := by
    rw [line_eq, line_eq, line_eq]
    exact categories_cut hd hcut currency fun c =>
      decide (c ∈ cashCategories) && decide (c = category)
  income := by
    rw [incomeTotal_eq, incomeTotal_eq, incomeTotal_eq]
    exact categories_cut hd hcut currency fun c => decide (c ∈ incomeCategories)
  expense := by
    rw [expenseTotal_eq, expenseTotal_eq, expenseTotal_eq]
    exact categories_cut hd hcut currency fun c => decide (c ∈ withdrawalCategories)

end

/-- The reports of the whole against those of its parts, and each row against both. -/
structure Parted (env : Env) (d : Db) (whole left right : Period) : Prop where
  operation : ∀ o ∈ d.operations,
    whole.covers o.day = true ↔ Xor (left.covers o.day = true) (right.covers o.day = true)
  cash : ∀ m ∈ d.cashMovements,
    whole.covers m.day = true ↔ Xor (left.covers m.day = true) (right.covers m.day = true)
  sales : ∀ authorId currency, SalesTotals.Adds
    (salesProfitReport env d ⟨whole, authorId, currency⟩).totals
    (salesProfitReport env d ⟨left, authorId, currency⟩).totals
    (salesProfitReport env d ⟨right, authorId, currency⟩).totals
  writeoffs : (∀ r, writeoffReport env d whole = .ok r → ∃ r₁ r₂,
      writeoffReport env d left = .ok r₁ ∧ writeoffReport env d right = .ok r₂ ∧ r.Adds r₁ r₂) ∧
    ∀ r₁ r₂, writeoffReport env d left = .ok r₁ → writeoffReport env d right = .ok r₂ →
      ∃ r, writeoffReport env d whole = .ok r
  cashFlow : ∀ currency, CashFlow.Adds (cashFlowReport d whole currency)
    (cashFlowReport d left currency) (cashFlowReport d right currency)
  spend : ∀ customerId, spendWindow env d customerId whole =
    spendWindow env d customerId left + spendWindow env d customerId right

/-- **Periods part the ledger**: two periods of days, the second from the day after the first, part
the rows and the totals of the period of both; a period of one day has the rows of that day. -/
theorem periods_parted (env : Env) (d : Db) (hd : LedgerDays d) (a b c : Date) (hab : a ≤ b)
    (hbc : b < c) :
    (∃ b', b.next = some b' ∧ Parted env d (businessDateBounds a c) (businessDateBounds a b)
      (businessDateBounds b' c)) ∧
    (∀ o ∈ d.operations, (businessDateBounds a a).covers o.day = true ↔ o.day = a.isoformat) ∧
    ∀ m ∈ d.cashMovements, (businessDateBounds a a).covers m.day = true ↔ m.day = a.isoformat := by
  refine ⟨?_, fun _ _ => covers_day, fun _ _ => covers_day⟩
  obtain ⟨b', hnext, hstop⟩ := exists_next hbc
  have hcut : Cut a b b' c := ⟨hab, hnext, hstop⟩
  exact ⟨b', hnext, {
    operation := fun o ho => covers_xor hcut (hd.operation_day ho)
    cash := fun m hm => covers_xor hcut (hd.cash_day hm)
    sales := salesTotals_cut hd hcut
    writeoffs := writeoffs_cut hd hcut
    cashFlow := cashFlow_cut hd hcut
    spend := spendWindow_cut hd hcut }⟩

/-- The last day of 2025 and the first of 2026, with the sale and the return of that day. -/
theorem periods_parted_dearReturn : ∃ b',
    (⟨2025, 12, 31, by decide⟩ : Date).next = some b' ∧
      Parted Env.sample (runAll {} dearReturn)
        (businessDateBounds ⟨2025, 12, 31, by decide⟩ ⟨2026, 1, 1, by decide⟩)
        (businessDateBounds ⟨2025, 12, 31, by decide⟩ ⟨2025, 12, 31, by decide⟩)
        (businessDateBounds b' ⟨2026, 1, 1, by decide⟩) := by
  have hdays : LedgerDays (runAll {} dearReturn) :=
    ledgerDays_runAll ⟨fun _ h => absurd h List.not_mem_nil, fun _ h => absurd h List.not_mem_nil⟩
  exact (periods_parted Env.sample _ hdays ⟨2025, 12, 31, by decide⟩ ⟨2025, 12, 31, by decide⟩
    ⟨2026, 1, 1, by decide⟩ (le_refl _) (by decide)).1

/-! ## The cash report, the expense tile and the balance -/

/-- The rows of a currency whose category no bucket has. -/
def unplacedCents (d : Db) (currency : String) : Int :=
  sumOver CashMovement.amountCents
    (fun m => m.currency = currency && decide (m.category ∉ cashCategories)) d.cashMovements

/-- A period that covers all rows leaves out those that no bucket has. -/
theorem cashFlow_balance {period : Period} {currency : String}
    (h : ∀ m ∈ d.cashMovements, period.covers m.day = true) :
    (cashFlowReport d period currency).incomeTotalCents +
        (cashFlowReport d period currency).expenseTotalCents + unplacedCents d currency =
      computeBalance d.cashMovements currency := by
  have hhalves : ∀ c ∈ cashCategories, c ∈ incomeCategories ∨ c ∈ withdrawalCategories := by decide
  have hincome : ∀ c ∈ incomeCategories, c ∈ cashCategories ∧ c ∉ withdrawalCategories := by decide
  have hexpense : ∀ c ∈ withdrawalCategories, c ∈ cashCategories := by decide
  have hbalance : computeBalance d.cashMovements currency =
      sumOver CashMovement.amountCents (fun m => m.currency = currency) d.cashMovements := rfl
  rw [incomeTotal_eq, expenseTotal_eq, hbalance, ← sumOver_or, unplacedCents, ← sumOver_or]
  · refine sumOver_congr fun m hm _ => ?_
    unfold inCashFlow
    rw [h m hm]
    by_cases hcurrency : m.currency = currency
    · by_cases hmem : m.category ∈ cashCategories
      · rcases hhalves _ hmem with hinc | hexp
        · simp [hcurrency, hmem, hinc]
        · simp [hcurrency, hmem, hexp]
      · simp [hcurrency, hmem]
    · simp [hcurrency]
  · intro m _ hleft
    simp only [Bool.or_eq_true, Bool.and_eq_true, decide_eq_true_eq] at hleft
    have hmem : m.category ∈ cashCategories := by
      rcases hleft with hinc | hexp
      · exact (hincome _ hinc.2).1
      · exact hexpense _ hexp.2
    simp [hmem]
  · intro m _ hleft
    simp only [Bool.and_eq_true, decide_eq_true_eq] at hleft
    simp [(hincome _ hleft.2).2]

/-- **The cash report** has the expenses of the tile in every period; over all rows its halves give
the balance, but for rows that no bucket has; and the parts of a period of days add up. -/
theorem cash_reconciles (d : Db) (currency : String) :
    (∀ period, (cashFlowReport d period currency).expenseTotalCents =
      cashExpenseTotal d period currency) ∧
    (∀ period, (∀ m ∈ d.cashMovements, period.covers m.day = true) →
      (cashFlowReport d period currency).incomeTotalCents +
          (cashFlowReport d period currency).expenseTotalCents + unplacedCents d currency =
        computeBalance d.cashMovements currency) ∧
    (LedgerDays d → ∀ a b c : Date, a ≤ b → b < c → ∃ b', b.next = some b' ∧
      CashFlow.Adds (cashFlowReport d (businessDateBounds a c) currency)
        (cashFlowReport d (businessDateBounds a b) currency)
        (cashFlowReport d (businessDateBounds b' c) currency)) := by
  refine ⟨fun period => ?_, fun period => cashFlow_balance, fun hd a b c hab hbc => ?_⟩
  · rw [expenseTotal_eq]
    exact sumOver_congr fun m _ _ => Bool.and_comm _ _
  · obtain ⟨b', hnext, hstop⟩ := exists_next hbc
    exact ⟨b', hnext, cashFlow_cut hd ⟨hab, hnext, hstop⟩ currency⟩

/-- A row of another device, of a category that is not known here. -/
def bonusRecord : ExchangeRecord where
  kind := .cashMovement
  data := [("id", .str "x"), ("category", .str "bonus"), ("amount_cents", .int 100),
    ("currency", .str "RUB"), ("device_id", .str "device"), ("seq", .int 1),
    ("created_at", .str "2026-01-01T12:00:00+00:00"), ("business_date", .str "2026-01-01"),
    ("created_by", .str "operator")]

/-- Its payload is accepted and merged: a hundred kopecks that no bucket has. -/
theorem bonus_merged : ∃ lines batch d' report, parseExchange lines = .ok batch ∧
    applyMerge Driver.strict "2026-01-02" {} batch.records = .ok (d', report) ∧
      (d'.cashMovements.map fun m => (m.category, m.amountCents, m.currency, m.day)) =
        [("bonus", 100, "RUB", "2026-01-01")] := by
  obtain ⟨batch, hbatch, hrecords⟩ := parseExchange_single id ⟨"", none, ""⟩ (r := bonusRecord)
    (by decide) (by decide) (by decide)
  have hmerge : (applyMerge Driver.strict "2026-01-02" {} [bonusRecord.received]).toOption.any
      (fun out => decide ((out.1.cashMovements.map fun m =>
        (m.category, m.amountCents, m.currency, m.day)) =
          [("bonus", 100, "RUB", "2026-01-01")])) = true := by
    decide
  obtain ⟨⟨d', report⟩, hmerged, hrows⟩ := toOption_any_iff.mp hmerge
  exact ⟨_, batch, d', report, hbatch, hrecords ▸ hmerged, of_decide_eq_true hrows⟩

/-- The halves of the cash report of that day leave them out, the balance has them. -/
theorem not_cash_reconciles : ¬∀ (lines : List String) (batch : ExchangeBatch) (d' : Db)
    (report : MergeReport), parseExchange lines = .ok batch →
      applyMerge Driver.strict "2026-01-02" {} batch.records = .ok (d', report) →
      ∀ period currency, (∀ m ∈ d'.cashMovements, period.covers m.day = true) →
        (cashFlowReport d' period currency).incomeTotalCents +
            (cashFlowReport d' period currency).expenseTotalCents =
          computeBalance d'.cashMovements currency := by
  intro h
  obtain ⟨lines, batch, d', report, hbatch, hmerge, hrows⟩ := bonus_merged
  obtain ⟨m, hm, hrow⟩ : ∃ m, d'.cashMovements = [m] ∧
      (m.category, m.amountCents, m.currency, m.day) = ("bonus", 100, "RUB", "2026-01-01") := by
    obtain ⟨m, rest, hm, hrow, hrest⟩ := List.map_eq_cons_iff.mp hrows
    exact ⟨m, hm.trans (by rw [List.map_eq_nil_iff.mp hrest]), hrow⟩
  simp only [Prod.mk.injEq] at hrow
  obtain ⟨hcategory, hcents, hcurrency, hday⟩ := hrow
  have hcovers : ∀ m ∈ d'.cashMovements, Period.covers ⟨"2026-01-01", "2026-01-01"⟩ m.day = true := by
    rw [hm, List.forall_mem_singleton, hday]
    exact covers_self _
  have hbalance := h lines batch d' report hbatch hmerge _ "RUB" hcovers
  rw [← cashFlow_balance hcovers, unplacedCents, hm, sumOver_cons, sumOver_nil, hcategory,
    hcents, hcurrency] at hbalance
  revert hbalance
  have hunknown : "bonus" ∉ cashCategories := by decide
  simp [hunknown]

/-- The report of the day of a sale and a return. -/
theorem cash_reconciles_dearReturn :
    (cashFlowReport (runAll {} dearReturn) ⟨"2026-01-01", "2026-01-01"⟩ "RUB").expenseTotalCents =
      cashExpenseTotal (runAll {} dearReturn) ⟨"2026-01-01", "2026-01-01"⟩ "RUB" ∧
    (cashFlowReport (runAll {} dearReturn) ⟨"2026-01-01", "2026-01-01"⟩ "RUB").incomeTotalCents +
        (cashFlowReport (runAll {} dearReturn) ⟨"2026-01-01", "2026-01-01"⟩ "RUB").expenseTotalCents +
        unplacedCents (runAll {} dearReturn) "RUB" =
      computeBalance (runAll {} dearReturn).cashMovements "RUB" ∧
    ∃ b', (⟨2025, 12, 31, by decide⟩ : Date).next = some b' ∧
      CashFlow.Adds
        (cashFlowReport (runAll {} dearReturn)
          (businessDateBounds ⟨2025, 12, 31, by decide⟩ ⟨2026, 1, 1, by decide⟩) "RUB")
        (cashFlowReport (runAll {} dearReturn)
          (businessDateBounds ⟨2025, 12, 31, by decide⟩ ⟨2025, 12, 31, by decide⟩) "RUB")
        (cashFlowReport (runAll {} dearReturn) (businessDateBounds b' ⟨2026, 1, 1, by decide⟩)
          "RUB") := by
  have hdays : LedgerDays (runAll {} dearReturn) :=
    ledgerDays_runAll ⟨fun _ h => absurd h List.not_mem_nil, fun _ h => absurd h List.not_mem_nil⟩
  have hcovers : ∀ m ∈ (runAll {} dearReturn).cashMovements,
      Period.covers ⟨"2026-01-01", "2026-01-01"⟩ m.day = true := by
    decide +kernel
  obtain ⟨hexpense, hbalance, hparts⟩ := cash_reconciles (runAll {} dearReturn) "RUB"
  exact ⟨hexpense _, hbalance _ hcovers, hparts hdays _ _ _ (le_refl _) (by decide)⟩

end MyOriShop
