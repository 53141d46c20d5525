import Mathlib.Data.List.Infix
import MyOriShop.Dashboard
import MyOriShop.Lib.Ternary
import MyOriShop.Periods
import MyOriShop.Readers

/-!
# History: the filters of the ledger's page (`app/services/operations.py`)

* `historyMatches` is the filtered statement of `history_view`, `historyCount` the one that counts;
  `historyView` is the page with its rows marked. The order of rows with equal sort keys is the
  database's: `Arranged` is what `ORDER BY` asks of it.
* `searchCustomers` is `search_customers`, `categoryOptions` is `category_options`.
* `datedWhere` is the condition of the two filters «Задним числом», in the logic of SQL.
* `marker` is `is_backdated` of a row.
* `Straddles zone o`: the row is dated the day its timestamp is written with, and the zone shows
  another one at that moment.

Results:
* `sameDay_eq`: the second filter is the negation of the first.
* `marker_true_iff`: what is marked, of a row with accepted dates.
* `dated_right_iff`: the filters are right about a row exactly when it does not straddle.
-/

namespace MyOriShop

open Lib.Text Lib.Ternary Lib.IsoDate Lib.Fallible
open Lib.Json (Value)

/-! ## Customers and categories -/

/-- `column.contains(text, autoescape=True)`: `LIKE` folds ASCII letters. -/
def likeContains (text column : String) : Bool :=
  text.toList.map Char.toLower <:+: column.toList.map Char.toLower

/-- `ORDER BY search_lc`, NULL first. Which of two customers with one text comes first is left open
there; here it is the one with the smaller id. -/
def searchKey (c : Customer) : WithBot String ×ₗ String := toLex (c.searchLc, c.id)

/-- `search_customers`. -/
def searchCustomers (env : Env) (d : Db) (q : String) : List Customer :=
  let qLc := env.lower (strip q)
  let found := d.customers.filter fun c => qLc = "" || c.searchLc.any (likeContains qLc)
  (found.insertionSort fun c c' => searchKey c ≤ searchKey c').take 20

/-- `category_options`. -/
def categoryOptions (d : Db) : List String :=
  ((((d.products.filter fun p => p.deletedAt.isNone).filterMap Product.category).filter
    (· ≠ "")).dedup).insertionSort (· ≤ ·)

/-! ## The filter of the dates -/

/-- `_DATED_FILTERS`. -/
def datedFilters : List String := ["backdated", "same_day"]

/-- The normalised filter. -/
def datedKey (dated : String) : String := if dated ∈ datedFilters then dated else ""

/-- `func.substr(Operation.created_at, 1, 10)`. -/
def entryDayUtc (o : Operation) : String := String.ofList (o.createdAt.toList.take 10)

/-- `dated_where`, of a key of `_DATED_FILTERS`. -/
def datedWhere (key : String) (o : Operation) : Truth :=
  if key = "backdated" then
    (present o.businessDate).and (ne o.businessDate (some (entryDayUtc o)))
  else (absent o.businessDate).or (eq o.businessDate (some (entryDayUtc o)))

/-! ## `history_view` -/

/-- The arguments of `history_view`. -/
structure HistoryQuery where
  typeFilter : Option String := none
  productId : Option String := none
  customer : Option String := none
  category : Option String := none
  startIso : Option String := none
  endIso : Option String := none
  authorId : Option String := none
  dated : String := ""
  sort : String := ""
  page : Int := 0

/-- The string is there and not empty. -/
def given (s : Option String) : Option String := s.filter (· ≠ "")

/-- The predicates that `stmt` and `count_stmt` share; a row for which one is unknown is not
taken. -/
def historyWhere (env : Env) (d : Db) (q : HistoryQuery) (o : Operation) (p : Product) : Bool :=
  let categoryQ := env.lower (strip (q.category.getD ""))
  let matched := (categoryOptions d).filter fun c =>
    decide (categoryQ.toList <:+: (env.lower c).toList)
  let customerQ := strip (q.customer.getD "")
  let candidates := (searchCustomers env d customerQ).map Customer.id
  (env.warehouseScope ((operationBatch d o).map Batch.warehouseId) ||
      decide (o.type ∉ stockAffectingTypes)) &&
    ((given q.typeFilter).all fun t => decide (t ∈ operationTypes → o.type = t)) &&
    ((given q.productId).all fun i => o.productId = i) &&
    (decide (categoryQ = "") || p.category.any fun c => decide (c ∈ matched)) &&
    (decide (customerQ = "") || decide (q.typeFilter ∉ [some "sale", some "return"]) ||
      ((operationSale d o).bind Sale.customerId).any fun i => decide (i ∈ candidates)) &&
    (match q.startIso, q.endIso with
      | some start, some stop => Period.covers ⟨start, stop⟩ o.day
      | _, _ => true) &&
    ((given q.authorId).all fun i => o.authorId = some i) &&
    (decide (datedKey q.dated = "") || (datedWhere (datedKey q.dated) o).holds)

/-- A row of the page, but for the author's name. -/
structure HistoryRow where
  op : Operation
  product : Product
  batch : Option Batch
  warehouse : Option Warehouse
  customer : Option Customer

/-- The row of an operation and its product. -/
def historyRow (d : Db) (o : Operation) (p : Product) : HistoryRow where
  op := o
  product := p
  batch := operationBatch d o
  warehouse := (operationBatch d o).bind fun b => d.find .warehouse (Batch.warehouseId b)
  customer := operationCustomer d o

/-- The rows of `stmt`, before they are ordered; the product join is inner. -/
def historyMatches (env : Env) (d : Db) (q : HistoryQuery) : List HistoryRow :=
  d.operations.filterMap fun o => (d.find .product o.productId).bind fun p =>
    if historyWhere env d q o p then some (historyRow d o p) else none

/-- `count_stmt`. -/
def historyCount (env : Env) (d : Db) (q : HistoryQuery) : Nat :=
  (d.operations.filter fun o => (d.find .product o.productId).any (historyWhere env d q o)).length

/-- `_SORT_MAP.get(sort, _DEFAULT_ORDER)`: one row may come before another. -/
def mayPrecede (sort : String) (r r' : HistoryRow) : Prop :=
  let key : HistoryRow → String ×ₗ Int := fun r => toLex (r.op.createdAt, r.op.seq)
  if sort = "oldest" then key r ≤ key r' else key r' ≤ key r

/-- The rows in an order that the statement allows. -/
structure Arranged (sort : String) (rows arranged : List HistoryRow) : Prop where
  perm : arranged.Perm rows
  sorted : arranged.Pairwise (mayPrecede sort)

/-- `HISTORY_TYPE_COLUMNS`. -/
def historyTypeColumns : List (String × List String) :=
  [("receipt", ["expiry", "qty", "cost"]),
    ("sale", ["expiry", "qty", "price", "cost", "profit", "customer"]),
    ("return", ["expiry", "qty", "price", "cost", "profit", "customer"]),
    ("writeoff", ["expiry", "qty", "cost", "reason"]),
    ("correction", ["expiry", "qty", "reason"]),
    ("transfer", ["expiry", "qty", "warehouse"])]

/-- `LIST_PAGE_SIZE`. -/
def listPageSize : Nat := 20

/-- `max(1, -(-total // page_size))`. -/
def totalPages (total : Nat) : Nat := max 1 ((total + listPageSize - 1) / listPageSize)

/-- `max(0, min(page, total_pages - 1))`. -/
def clampPage (page : Int) (pages : Nat) : Nat := (min page (pages - 1 : Nat)).toNat

theorem totalPages_pos (total : Nat) : 0 < totalPages total := by
  unfold totalPages
  omega

/-- The pages hold the rows. -/
theorem totalPages_holds (total : Nat) : total ≤ totalPages total * listPageSize := by
  unfold totalPages listPageSize
  omega

theorem clampPage_lt {page : Int} {pages : Nat} (h : 0 < pages) : clampPage page pages < pages := by
  unfold clampPage
  omega

theorem clampPage_of_lt {k pages : Nat} (h : k < pages) : clampPage k pages = k := by
  unfold clampPage
  omega

/-- `is_backdated` of a row. -/
def marker (zone : Zone) (str : Value → String) (o : Operation) : Except Overflow Bool :=
  isBackdated zone str (o.businessDate.elim .null .str) (.str o.createdAt)

/-- What `history_view` returns. -/
structure HistoryPage where
  rows : List (HistoryRow × Option String × Bool)
  page : Nat
  total : Nat
  totalPages : Nat
  typeFilter : String
  productId : String
  authorId : String
  dated : String
  sort : String
  columns : Option (List String)

/-- `history_view`, of the rows as the database orders them. -/
def historyView (zone : Zone) (str : Value → String) (env : Env) (d : Db) (q : HistoryQuery)
    (arranged : List HistoryRow) : Except Overflow HistoryPage := do
  let total := historyCount env d q
  let pages := totalPages total
  let page := clampPage q.page pages
  let rows ← ((arranged.drop (page * listPageSize)).take listPageSize).mapM fun r =>
    (marker zone str r.op).map fun mark => (r, r.op.businessDate, mark)
  return { rows := rows, page := page, total := total, totalPages := pages
           typeFilter := q.typeFilter.getD "", productId := q.productId.getD ""
           authorId := q.authorId.getD "", dated := datedKey q.dated, sort := q.sort
           columns := q.typeFilter.bind fun t => historyTypeColumns.lookup t }

/-! ## What is filtered -/

variable {zone : Zone} {str : Value → String} {env : Env} {d : Db} {q : HistoryQuery}
  {o : Operation} {r : HistoryRow} {key : String}

theorem mem_historyMatches : r ∈ historyMatches env d q ↔ ∃ o ∈ d.operations,
    ∃ p, d.find .product o.productId = some p ∧ historyWhere env d q o p = true ∧
      historyRow d o p = r := by
  unfold historyMatches
  rw [List.mem_filterMap]
  refine exists_congr fun o => and_congr_right fun _ => ?_
  rw [Option.bind_eq_some_iff]
  refine exists_congr fun p => and_congr_right fun _ => ?_
  rw [Option.ite_none_right_eq_some, Option.some_inj]

/-- **The two statements agree**: the total counts the rows. -/
theorem historyCount_eq : historyCount env d q = (historyMatches env d q).length := by
  unfold historyCount historyMatches
  induction d.operations with
  | nil => rfl
  | cons o ops ih =>
    rw [List.filter_cons, List.filterMap_cons]
    cases hp : d.find .product o.productId with
    | none => simpa using ih
    | some p =>
      cases hwhere : historyWhere env d q o p with
      | false => simpa [hwhere] using ih
      | true => simpa [hwhere] using ih

/-- The filter of the dates is one of the conditions. -/
theorem historyWhere_dated (hkey : key ∈ datedFilters) {p : Product} :
    historyWhere env d { q with dated := key } o p =
      (historyWhere env d { q with dated := "" } o p && (datedWhere key o).holds) := by
  have hnone : datedKey "" = "" := rfl
  have hsome : datedKey key = key := if_pos hkey
  have hne : key ≠ "" := by
    rintro rfl
    revert hkey
    decide
  simp only [historyWhere, hnone, hsome, hne, decide_false, decide_true, Bool.false_or,
    Bool.true_or, Bool.and_true]

theorem mem_historyMatches_dated (hkey : key ∈ datedFilters) :
    r ∈ historyMatches env d { q with dated := key } ↔
      r ∈ historyMatches env d { q with dated := "" } ∧ (datedWhere key r.op).holds = true := by
  simp only [mem_historyMatches, historyWhere_dated hkey, Bool.and_eq_true]
  constructor
  · rintro ⟨o, ho, p, hp, ⟨hwhere, hdated⟩, rfl⟩
    exact ⟨⟨o, ho, p, hp, hwhere, rfl⟩, hdated⟩
  · rintro ⟨⟨o, ho, p, hp, hwhere, rfl⟩, hdated⟩
    exact ⟨o, ho, p, hp, ⟨hwhere, hdated⟩, rfl⟩

/-- A row of the page is one of the rows that match, with its marker. -/
theorem historyView_rows {arranged : List HistoryRow} {page : HistoryPage}
    (harranged : Arranged q.sort (historyMatches env d q) arranged)
    (h : historyView zone str env d q arranged = .ok page) :
    page.total = (historyMatches env d q).length ∧ ∀ line ∈ page.rows,
      line.1 ∈ historyMatches env d q ∧ line.2.1 = line.1.op.businessDate ∧
        marker zone str line.1.op = .ok line.2.2 := by
  obtain ⟨rows, hrows, h⟩ := bind_ok_iff.mp h
  cases h
  refine ⟨historyCount_eq, fun line hline => ?_⟩
  obtain ⟨r, hr, hmark⟩ := mem_of_mapM_ok hrows hline
  have hmem := harranged.perm.mem_iff.mp (List.mem_of_mem_drop (List.mem_of_mem_take hr))
  cases hm : marker zone str r.op with
  | error e =>
    rw [hm] at hmark
    cases hmark
  | ok mark =>
    rw [hm] at hmark
    cases hmark
    exact ⟨hmem, rfl, hm⟩

/-! ## The two filters -/

/-- **The second filter** is the negation of the first. -/
theorem sameDay_eq : datedWhere "same_day" o = (datedWhere "backdated" o).not := by
  show (absent _).or (eq _ _) = ((present _).and (ne _ _)).not
  rw [Truth.not_and, not_present, not_ne]

/-- The condition of a row is known. -/
theorem backdated_known : (datedWhere "backdated" o).isSome := by
  show ((present o.businessDate).and (ne o.businessDate _)).isSome
  cases o.businessDate <;> rfl

theorem sameDay_holds :
    (datedWhere "same_day" o).holds = !(datedWhere "backdated" o).holds := by
  rw [sameDay_eq, Truth.holds_not backdated_known]

theorem backdated_holds : (datedWhere "backdated" o).holds = true ↔
    ∃ e, o.businessDate = some e ∧ e ≠ entryDayUtc o := by
  show ((present _).and (ne _ _)).holds = true ↔ _
  rw [Truth.holds_and, Bool.and_eq_true, holds_ne, holds_present]
  refine and_iff_right_of_imp ?_
  rintro ⟨e, he, -⟩
  rw [he]
  rfl

/-! ## The marker -/

/-- The row is dated the day its timestamp is written with, and at that moment the zone shows another
day. -/
def Straddles (zone : Zone) (o : Operation) : Prop :=
  ∃ m t, Moment.fromIso o.createdAt = some m ∧ OnCalendar zone m ∧ m.utc = some t ∧
    o.businessDate = some m.date.isoformat ∧
    ¬(0 ≤ (m.micros : Int) - m.offset.getD 0 + zone.offset t.1 t.2 ∧
      (m.micros : Int) - m.offset.getD 0 + zone.offset t.1 t.2 < dayMicros)

/-- The zone shows the day that a timestamp is written with. -/
theorem inZone_date_iff {s : String} {m : Moment} {t shown : Date × Nat}
    (hm : Moment.fromIso s = some m) (hutc : m.utc = some t)
    (hshown : m.inZone zone = some shown) : shown.1 = m.date ↔
      0 ≤ (m.micros : Int) - m.offset.getD 0 + zone.offset t.1 t.2 ∧
        (m.micros : Int) - m.offset.getD 0 + zone.offset t.1 t.2 < dayMicros := by
  have hoffset := fromIso_offset_lt hm
  unfold Moment.inZone at hshown
  rw [hutc, Option.bind_some] at hshown
  rw [shift_shift_day_iff (by omega) (zone.lt _ _) hutc hshown, Int.sub_eq_add_neg]

/-- **The marker** of a row with accepted dates: it has a date, and it is not the day of the zone. -/
theorem marker_true_iff (ho : Acceptable .operation o) : ∃ m, Moment.fromIso o.createdAt = some m ∧
    entryDayUtc o = m.date.isoformat ∧ (marker zone str o = .ok true ↔
      ∃ e shown, o.businessDate = some e ∧ m.inZone zone = some shown ∧ e ≠ shown.1.isoformat) := by
  obtain ⟨m, hm, hday⟩ := timestamp_reads ho.1
  refine ⟨m, hm, hday, ?_⟩
  have hread : localDayOf zone (.str o.createdAt) =
      (astimezone zone m).map fun t => some t.1 := by
    unfold localDayOf readTimestamp
    rw [if_neg (by simp [isTruthy_of_fromIso hm])]
    simp only [hm]
  unfold marker isBackdated
  cases o.businessDate with
  | none =>
    refine iff_of_false (fun h => by cases h) ?_
    rintro ⟨e, _, he, -⟩
    cases he
  | some e =>
    rw [hread]
    unfold astimezone
    cases m.inZone zone with
    | none =>
      refine iff_of_false (fun h => by cases h) ?_
      rintro ⟨_, _, -, h, -⟩
      cases h
    | some shown => simp [isNull, isStr, Except.map, ok_bind]

/-- **What a marked row must be** for the filter to leave it out. -/
theorem marked_left_out_iff (ho : Acceptable .operation o) :
    (marker zone str o = .ok true ∧ (datedWhere "backdated" o).holds = false) ↔
      Straddles zone o := by
  obtain ⟨m, hm, hday, hmarker⟩ := @marker_true_iff zone str o ho
  rw [hmarker, ← Bool.not_eq_true, backdated_holds, hday]
  constructor
  · rintro ⟨⟨e, shown, he, hshown, hne⟩, hout⟩
    have hsame : e = m.date.isoformat := not_not.mp fun h => hout ⟨e, he, h⟩
    subst hsame
    obtain ⟨t, hutc, -⟩ := Option.bind_eq_some_iff.mp hshown
    refine ⟨m, t, hm, inZone_isSome_iff.mp (hshown ▸ rfl), hutc, he, fun hstays => hne ?_⟩
    rw [(inZone_date_iff hm hutc hshown).mpr hstays]
  · rintro ⟨m', t, hm', hcalendar, hutc, he, hleaves⟩
    rw [hm, Option.some_inj] at hm'
    subst hm'
    obtain ⟨shown, hshown⟩ := Option.isSome_iff_exists.mp (inZone_isSome_iff.mpr hcalendar)
    refine ⟨⟨_, shown, he, hshown, fun h => hleaves ?_⟩, ?_⟩
    · exact (inZone_date_iff hm hutc hshown).mp (isoformat_inj.mp h).symm
    · rintro ⟨e, he', hne⟩
      rw [he, Option.some_inj] at he'
      exact hne he'.symm

/-! ## The filters and the marker -/

/-- What the filters and the marker are to make of a row that the other conditions take. -/
structure DatedRight (zone : Zone) (str : Value → String) (env : Env) (d : Db) (q : HistoryQuery)
    (r : HistoryRow) : Prop where
  /-- No marked row is lost. -/
  marked : marker zone str r.op = .ok true →
    r ∈ historyMatches env d { q with dated := "backdated" }
  one : Xor (r ∈ historyMatches env d { q with dated := "backdated" })
    (r ∈ historyMatches env d { q with dated := "same_day" })
  undated : r.op.businessDate = none →
    r ∈ historyMatches env d { q with dated := "same_day" } ∧ marker zone str r.op = .ok false

/-- **The filters are right about a row** exactly when it does not straddle. -/
theorem dated_right_iff (zone : Zone) (str : Value → String) (env : Env) (d : Db)
    (hd : LedgerDays d) (q : HistoryQuery) (r : HistoryRow)
    (hr : r ∈ historyMatches env d { q with dated := "" }) :
    DatedRight zone str env d q r ↔ ¬Straddles zone r.op := by
  have hop : Acceptable .operation r.op := by
    obtain ⟨o, ho, p, -, -, rfl⟩ := mem_historyMatches.mp hr
    exact hd.operation o ho
  have hback : r ∈ historyMatches env d { q with dated := "backdated" } ↔
      (datedWhere "backdated" r.op).holds = true :=
    (mem_historyMatches_dated (by decide)).trans (and_iff_right hr)
  have hsame : r ∈ historyMatches env d { q with dated := "same_day" } ↔
      (datedWhere "backdated" r.op).holds = false := by
    rw [mem_historyMatches_dated (by decide), and_iff_right hr, sameDay_holds, Bool.not_eq_true']
  rw [← @marked_left_out_iff zone str r.op hop]
  constructor
  · rintro h ⟨hmarked, hout⟩
    rw [hback.mp (h.marked hmarked)] at hout
    cases hout
  · intro h
    refine ⟨fun hmarked => ?_, ?_, fun hnull => ⟨hsame.mpr ?_, ?_⟩⟩
    · exact hback.mpr (Bool.not_eq_false _ ▸ fun hout => h ⟨hmarked, hout⟩)
    · rw [hback, hsame]
      cases (datedWhere "backdated" r.op).holds <;> simp [Xor]
    · rw [Bool.eq_false_iff, ne_eq, backdated_holds, hnull]
      rintro ⟨e, he, -⟩
      cases he
    · unfold marker isBackdated
      rw [hnull]
      rfl

/-- The day of a sale and a return, at midnight in UTC and three in Moscow. -/
theorem dated_right_dearReturn : ∃ r ∈ historyMatches Env.sample (runAll {} dearReturn) {},
    r.op.businessDate = some "2026-01-01" ∧
      DatedRight moscow (fun _ => "") Env.sample (runAll {} dearReturn) {} r := by
  have hdays : LedgerDays (runAll {} dearReturn) :=
    ledgerDays_runAll ⟨fun _ h => absurd h List.not_mem_nil, fun _ h => absurd h List.not_mem_nil⟩
  have hrow : ∃ r ∈ historyMatches Env.sample (runAll {} dearReturn) {},
      r.op.businessDate = some "2026-01-01" ∧ r.op.createdAt = "2026-01-01T00:00:00+00:00" := by
    decide +kernel
  obtain ⟨r, hr, hdate, hcreated⟩ := hrow
  refine ⟨r, hr, hdate, (dated_right_iff moscow _ _ _ hdays {} r hr).mpr ?_⟩
  rintro ⟨m, t, hm, -, -, -, hleaves⟩
  have hread : Moment.fromIso "2026-01-01T00:00:00+00:00" =
      some ⟨⟨2026, 1, 1, by decide⟩, 0, some 0⟩ := by decide
  rw [hcreated, hread, Option.some_inj] at hm
  subst hm
  exact hleaves (by show (0 : Int) ≤ 10800000000 ∧ (10800000000 : Int) < 86400000000; decide)

/-- A request in Moscow at one in the morning, two hours before midnight in UTC. -/
def atNight (call : Call) : Request where
  env := { Env.sample with
    newId := shortId
    clock := fun _ => ⟨⟨2026, 9, 4, by decide⟩, 22, 0, 0, by decide⟩
    localDay := fun _ => ⟨2026, 9, 5, by decide⟩ }
  call := call

/-- A receipt of the day before. -/
def nightReceipt : List Request :=
  [atNight (.addWarehouse { name := "w", address := "" }),
    atNight (.receipt { code := "c", name := "n", qtyRaw := "1", costRaw := "", saleRaw := ""
                        warehouseId := "x", batchChoice := "new", opDate := "2026-09-04" })]

/-- Its row is marked, and the filter loses it. -/
theorem not_dated_right : ¬∀ (str : Value → String) (env : Env) (run : List Request)
    (q : HistoryQuery), ∀ r ∈ historyMatches env (runAll {} run) { q with dated := "" },
      DatedRight moscow str env (runAll {} run) q r := by
  intro h
  have hrow : ∃ r ∈ historyMatches Env.sample (runAll {} nightReceipt) {},
      r.op.businessDate = some "2026-09-04" ∧ r.op.createdAt = "2026-09-04T22:00:00+00:00" := by
    decide
  obtain ⟨r, hr, hdate, hcreated⟩ := hrow
  have hop : Acceptable .operation r.op := by
    refine ⟨?_, ?_⟩
    · show isIsoTimestamp r.op.createdAt = true
      rw [hcreated]
      decide
    · show ∀ e ∈ r.op.businessDate, isIsoDate e = true
      rw [hdate]
      decide
  have hread : Moment.fromIso "2026-09-04T22:00:00+00:00" =
      some ⟨⟨2026, 9, 4, by decide⟩, 79200000000, some 0⟩ := by decide
  have hday : (⟨2026, 9, 4, by decide⟩ : Date).isoformat = "2026-09-04" := by decide
  have hstraddles : Straddles moscow r.op := by
    refine ⟨⟨⟨2026, 9, 4, by decide⟩, 79200000000, some 0⟩,
      (⟨2026, 9, 4, by decide⟩, 79200000000), hcreated ▸ hread,
      inZone_isSome_iff.mp (inZone_isSome_of_year _ _ (by decide)), by decide,
      hdate.trans (congrArg some hday.symm), ?_⟩
    show ¬((0 : Int) ≤ 90000000000 ∧ (90000000000 : Int) < 86400000000)
    decide
  obtain ⟨hmarked, hout⟩ := (@marked_left_out_iff moscow (fun _ => "") r.op hop).mpr hstraddles
  have hkept := (h (fun _ => "") Env.sample nightReceipt {} r hr).marked hmarked
  rw [((mem_historyMatches_dated (by decide)).mp hkept).2] at hout
  cases hout

end MyOriShop
