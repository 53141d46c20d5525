import Mathlib.Data.Prod.Lex
import Mathlib.Data.String.Basic
import MyOriShop.Lib.Csv
import MyOriShop.Lib.Lines
import MyOriShop.Money
import MyOriShop.Readers
import MyOriShop.Reports

/-!
# CsvExports: the tables as files for a spreadsheet (`app/services/export.py`)

Four files, each streamed row by row: the products, the sales and returns, the customers, and the cash
movements of a period. A spreadsheet takes a cell that starts with one of four characters for a
formula, so that a text of the database gets an apostrophe before it. The byte order mark stands once,
in the first chunk.

* `streamProductsCsv` and the three after it are the four streams, as their chunks; rows with equal
  sort keys come as they are stored.
* `readCsv` is the reader of a spreadsheet: UTF-8 with its mark, `;` between cells.
* `Inert`: a cell that is no formula. `ReadsBack` is what a stream promises its reader.
* `lineRevenue` multiplies the columns «Кол-во» and «Цена» of a line as they are printed.

Results:
* `csv_exports`: all four streams are read back, cell by cell, with no formula in them; the sales file
  and the cash file have every row they should, in the order of their first column.
* `salesCsv_revenue`: the column sum over the sales file is the revenue of the sales report.
-/

namespace MyOriShop

open Lib.Csv Lib.Sums Lib.Fallible Lib.IsoDate Lib.Text

/-! ## Cells -/

/-- `_INJECTION_PREFIXES`. -/
def injectionPrefixes : List Char := ['=', '+', '-', '@']

/-- The first character is one of the four. -/
def startsFormula (value : String) : Bool := value.toList.head?.any fun c => c ∈ injectionPrefixes

/-- `_csv_safe`. -/
def csvSafe (value : String) : String := if startsFormula value then "'" ++ value else value

/-- `_csv_safe(value or "")`. -/
def csvSafeOr (value : Option String) : String := csvSafe (value.getD "")

/-- `format_cents` of an amount that may be unknown. -/
def centsCell (cents : Option Int) : String := cents.elim "" formatCents

/-- A number, as the writer prints it. -/
def intCell (n : Int) : String := String.ofList (Lib.Json.intChars n)

/-- `iso_to_local` of a stored column. -/
def momentCell (zone : Zone) (moment : String) : Except Overflow String :=
  isoToLocal zone (fun _ => "") (.str moment)

/-- `format_ru_date(row.business_date or row.created_at[:10])`. -/
def dayCell (businessDate : Option String) (createdAt : String) : String :=
  showRuDate (fun _ => "") (.str
    (if businessDate.getD "" = "" then String.ofList (createdAt.toList.take 10)
      else businessDate.getD ""))

/-! ## The file -/

/-- `_csv_rows`: a chunk for each row, the header first. -/
def csvRows (header : List String) (rows : List (List String)) : List String :=
  (header :: rows).map fun row => String.ofList (Lib.Csv.writeRow ';' (row.map String.toList))

/-- The byte order mark of `utf-8-sig`. -/
def byteOrderMark : ByteArray := "\uFEFF".toByteArray

/-- `_encode_once`. -/
def encodeOnce : List String → List ByteArray
  | [] => []
  | first :: rest => (byteOrderMark ++ first.toByteArray) :: rest.map String.toByteArray

/-- What arrives of a stream. -/
def served (chunks : List ByteArray) : ByteArray := chunks.foldr (· ++ ·) ByteArray.empty

/-- The mark at the start of a text is not part of it. -/
def dropMark : List Char → List Char
  | '\uFEFF' :: cs => cs
  | cs => cs

/-- A file as a spreadsheet reads it. -/
def readCsv (bytes : ByteArray) : Option (List (List String)) :=
  (String.fromUTF8? bytes).map fun text =>
    (Lib.Csv.readRows ';' (dropMark text.toList)).map fun row => row.map String.ofList

/-! ## The products -/

/-- `ORDER BY` of a column that may be NULL. -/
def lcPrecedes : Option String → Option String → Prop
  | none, _ => True
  | some _, none => False
  | some a, some b => a ≤ b

instance : DecidableRel lcPrecedes := fun a b =>
  match a, b with
  | none, _ => .isTrue trivial
  | some _, none => .isFalse id
  | some a, some b => inferInstanceAs (Decidable (a ≤ b))

def productsHeader : List String :=
  ["Код", "Название", "Категория", "Закупка", "Продажа", "Закупка ₴", "Продажа ₴", "Закупка €",
    "Продажа €", "Остаток", "Удалён"]

def productCells (p : Product) : List String :=
  [csvSafeOr p.code, csvSafe p.name, csvSafeOr p.category, centsCell p.costCents,
    centsCell p.saleCents, centsCell p.costUahCents, centsCell p.saleUahCents,
    centsCell p.costEurCents, centsCell p.saleEurCents, intCell p.quantity,
    if p.deletedAt.getD "" = "" then "" else "Да"]

/-- Every product, the deleted ones too. -/
def productsOf (d : Db) : List Product :=
  d.products.insertionSort fun p q => lcPrecedes p.nameLc q.nameLc

/-- `stream_products_csv`. -/
def streamProductsCsv (d : Db) : Except Overflow (List ByteArray) := do
  let rows ← (productsOf d).mapM fun p => .ok (productCells p)
  return encodeOnce (csvRows productsHeader rows)

/-! ## The sales -/

/-- A row of the statement of `stream_sales_csv`. -/
structure SaleRow where
  op : Operation
  product : Product
  sale : Option Sale
  customer : Option Customer
  currency : Option String

/-- The joins of a ledger row; without its product it has none. -/
def saleRow (d : Db) (o : Operation) : Option SaleRow :=
  (d.find .product o.productId).map fun p =>
    let sale := o.saleId.bind (d.find .sale)
    { op := o
      product := p
      sale := sale
      customer := sale.bind fun s => (Sale.customerId s).bind (d.find .customer)
      currency := (operationBatch d o).bind fun b =>
        (d.find .warehouse b.warehouseId).map Warehouse.currency }

/-- `ORDER BY business_date_expr, created_at, seq`. -/
def Operation.dumpKey (o : Operation) : String ×ₗ String ×ₗ Int :=
  toLex (o.day, toLex (o.createdAt, o.seq))

/-- `Operation.type.in_(("sale", "return"))`. -/
def Operation.isSold (o : Operation) : Bool := o.type = "sale" || o.type = "return"

/-- The rows of the sales file. -/
def salesOf (d : Db) : List SaleRow :=
  ((d.operations.filter Operation.isSold).insertionSort fun o o' => o.dumpKey ≤ o'.dumpKey).filterMap
    (saleRow d)

def salesHeader : List String :=
  ["Когда", "Код", "Товар", "Кол-во", "Цена", "Себестоимость", "Валюта", "Покупатель", "Кто",
    "Внесено"]

/-- The buyer's name, where the sale has a buyer. -/
def SaleRow.buyer (r : SaleRow) : String :=
  match r.sale, r.customer with
  | some _, some c => csvSafe (strip (c.name ++ " " ++ c.surname.getD ""))
  | _, _ => ""

/-- `row_currency or DEFAULT_CURRENCY`. -/
def SaleRow.shownCurrency (r : SaleRow) : String :=
  if r.currency.getD "" = "" then defaultCurrency else r.currency.getD ""

def SaleRow.cells (zone : Zone) (r : SaleRow) : Except Overflow (List String) := do
  let entered ← momentCell zone r.op.createdAt
  return [csvSafe (dayCell r.op.businessDate r.op.createdAt), csvSafeOr r.product.code,
    csvSafe r.product.name, intCell (-r.op.qtyDelta), centsCell r.op.unitPriceCents,
    centsCell r.op.unitCostCents, csvSafe r.shownCurrency, r.buyer, csvSafe r.op.createdBy,
    csvSafe entered]

/-- `stream_sales_csv`. -/
def streamSalesCsv (zone : Zone) (d : Db) : Except Overflow (List ByteArray) := do
  let rows ← (salesOf d).mapM (SaleRow.cells zone)
  return encodeOnce (csvRows salesHeader rows)

/-! ## The customers -/

def customersHeader : List String := ["Имя", "Фамилия", "Номер консультанта", "Создан"]

def customerCells (zone : Zone) (c : Customer) : Except Overflow (List String) := do
  let created ← momentCell zone c.createdAt
  return [csvSafe c.name, csvSafeOr c.surname, csvSafeOr c.consultantNumber, csvSafe created]

def customersOf (d : Db) : List Customer :=
  d.customers.insertionSort fun c c' => lcPrecedes c.searchLc c'.searchLc

/-- `stream_customers_csv`. -/
def streamCustomersCsv (zone : Zone) (d : Db) : Except Overflow (List ByteArray) := do
  let rows ← (customersOf d).mapM (customerCells zone)
  return encodeOnce (csvRows customersHeader rows)

/-! ## The cash movements -/

/-- `CASH_CATEGORIES`. -/
def cashLabels : List (String × String) :=
  [("sale", "Продажа"), ("return", "Возврат"), ("withdrawal_supplier", "Оплата поставщику"),
    ("withdrawal_salary", "Зарплата"), ("withdrawal_rent", "Аренда"),
    ("withdrawal_utilities", "Коммунальные"), ("withdrawal_other", "Прочее"),
    ("deposit_opening", "Начальный остаток"), ("deposit_correction", "Корректировка")]

/-- `CASH_CATEGORIES.get(category, category)`. -/
def cashLabel (category : String) : String := (cashLabels.lookup category).getD category

/-- `ORDER BY business_day, created_at, seq`. -/
def CashMovement.dumpKey (m : CashMovement) : String ×ₗ String ×ₗ Int :=
  toLex (m.day, toLex (m.createdAt, m.seq))

/-- The rows of the cash file. -/
def movementsOf (d : Db) (period : Period) : List CashMovement :=
  (d.cashMovements.filter fun m => period.covers m.day).insertionSort fun m m' =>
    m.dumpKey ≤ m'.dumpKey

def cashHeader : List String := ["Когда", "Категория", "Валюта", "Комментарий", "Сумма", "Внесено"]

def cashCells (zone : Zone) (m : CashMovement) : Except Overflow (List String) := do
  let entered ← momentCell zone m.createdAt
  return [csvSafe (dayCell m.businessDate m.createdAt), csvSafe (cashLabel m.category),
    csvSafe m.currency, csvSafeOr m.note, formatCents m.amountCents, csvSafe entered]

/-- `stream_cash_movements_csv`. -/
def streamCashMovementsCsv (zone : Zone) (d : Db) (period : Period) :
    Except Overflow (List ByteArray) := do
  let rows ← (movementsOf d period).mapM (cashCells zone)
  return encodeOnce (csvRows cashHeader rows)

/-! ## Reading a file -/

theorem delimits_semicolon : Delimits ';' := ⟨by decide, by decide⟩

theorem served_toByteArray (chunks : List String) :
    served (chunks.map String.toByteArray) =
      (String.ofList (chunks.flatMap String.toList)).toByteArray := by
  induction chunks with
  | nil => rfl
  | cons chunk chunks ih =>
    rw [List.map_cons, List.flatMap_cons, String.ofList_append, String.toByteArray_append,
      String.ofList_toList, ← ih]
    rfl

theorem served_encodeOnce {chunks : List String} (h : chunks ≠ []) :
    served (encodeOnce chunks) =
      (String.ofList ('\uFEFF' :: chunks.flatMap String.toList)).toByteArray := by
  obtain ⟨first, rest, rfl⟩ := List.exists_cons_of_ne_nil h
  have hmark : String.ofList ('\uFEFF' :: (first :: rest).flatMap String.toList) =
      "\uFEFF" ++ String.ofList ((first :: rest).flatMap String.toList) := by
    rw [← String.toList_inj, String.toList_append]
    simp only [String.toList_ofList]
    rfl
  rw [hmark, String.toByteArray_append, ← served_toByteArray]
  exact ByteArray.append_assoc

/-- **Round trip.** A file is read as the header and the rows that it was made of. -/
theorem readCsv_served (header : List String) (rows : List (List String)) :
    readCsv (served (encodeOnce (csvRows header rows))) = some (header :: rows) := by
  have htext : (csvRows header rows).flatMap String.toList =
      writeRows ';' ((header :: rows).map fun row => row.map String.toList) := by
    rw [csvRows, writeRows, List.flatMap_map, List.flatMap_map]
    simp only [String.toList_ofList]
  have hid : String.ofList ∘ String.toList = id := funext fun _ => String.ofList_toList
  have hcells : (fun row : List String => (row.map String.toList).map String.ofList) = id :=
    funext fun row => by rw [List.map_map, hid, List.map_id, id]
  have hne : csvRows header rows ≠ [] := List.cons_ne_nil _ _
  rw [served_encodeOnce hne, htext, readCsv, Lib.Lines.fromUTF8?_toByteArray,
    Option.map_some, String.toList_ofList, dropMark, readRows_writeRows delimits_semicolon,
    List.map_map]
  simp only [Function.comp_def, hcells, List.map_id]

/-! ## Cells without formulas -/

/-- A cell that is no formula: it does not start as one, or is a number. -/
def Inert (cell : String) : Prop :=
  startsFormula cell = false ∨ (∃ n, cell = intCell n) ∨ ∃ cents, cell = formatCents cents

theorem inert_empty : Inert "" := .inl rfl

theorem inert_csvSafe (value : String) : Inert (csvSafe value) := by
  refine .inl ?_
  by_cases h : startsFormula value = true
  · rw [csvSafe, if_pos h, startsFormula, String.toList_append]
    rfl
  · rw [csvSafe, if_neg h]
    exact Bool.eq_false_iff.mpr h

theorem inert_centsCell (cents : Option Int) : Inert (centsCell cents) := by
  cases cents with
  | none => exact inert_empty
  | some c => exact .inr (.inr ⟨c, rfl⟩)

theorem inert_intCell (n : Int) : Inert (intCell n) := .inr (.inl ⟨n, rfl⟩)

theorem SaleRow.inert_buyer (r : SaleRow) : Inert r.buyer := by
  unfold SaleRow.buyer
  split
  · exact inert_csvSafe _
  · exact inert_empty

/-- A line as long as the header, with no formula in it. -/
structure SafeLine (header line : List String) : Prop where
  length : line.length = header.length
  inert : ∀ cell ∈ line, Inert cell

theorem safe_productCells (p : Product) : SafeLine productsHeader (productCells p) where
  length := rfl
  inert := by
    have hdeleted : Inert (if p.deletedAt.getD "" = "" then "" else "Да") := by
      split_ifs
      · exact inert_empty
      · exact .inl (by decide)
    simp only [productCells, csvSafeOr, List.forall_mem_cons]
    exact ⟨inert_csvSafe _, inert_csvSafe _, inert_csvSafe _, inert_centsCell _, inert_centsCell _,
      inert_centsCell _, inert_centsCell _, inert_centsCell _, inert_centsCell _, inert_intCell _,
      hdeleted, nofun⟩

theorem SaleRow.safe_cells {zone : Zone} {r : SaleRow} {line : List String}
    (h : r.cells zone = .ok line) : SafeLine salesHeader line := by
  obtain ⟨entered, -, h⟩ := bind_ok_iff.mp h
  cases h
  refine ⟨rfl, ?_⟩
  simp only [csvSafeOr, List.forall_mem_cons]
  exact ⟨inert_csvSafe _, inert_csvSafe _, inert_csvSafe _, inert_intCell _, inert_centsCell _,
    inert_centsCell _, inert_csvSafe _, r.inert_buyer, inert_csvSafe _, inert_csvSafe _, nofun⟩

theorem safe_customerCells {zone : Zone} {c : Customer} {line : List String}
    (h : customerCells zone c = .ok line) : SafeLine customersHeader line := by
  obtain ⟨created, -, h⟩ := bind_ok_iff.mp h
  cases h
  refine ⟨rfl, ?_⟩
  simp only [csvSafeOr, List.forall_mem_cons]
  exact ⟨inert_csvSafe _, inert_csvSafe _, inert_csvSafe _, inert_csvSafe _, nofun⟩

theorem safe_cashCells {zone : Zone} {m : CashMovement} {line : List String}
    (h : cashCells zone m = .ok line) : SafeLine cashHeader line := by
  obtain ⟨entered, -, h⟩ := bind_ok_iff.mp h
  cases h
  refine ⟨rfl, ?_⟩
  simp only [csvSafeOr, List.forall_mem_cons]
  exact ⟨inert_csvSafe _, inert_csvSafe _, inert_csvSafe _, inert_csvSafe _, .inr (.inr ⟨_, rfl⟩),
    inert_csvSafe _, nofun⟩

/-! ## The streams -/

/-- What a stream promises: it comes where its timestamps can be shown, and a spreadsheet reads the
header and a line for each row, cell by cell as it was made and with no formula in it. -/
structure ReadsBack {α : Type} (header : List String) (rows : List α) (shown : α → Prop)
    (cells : α → Except Overflow (List String)) (stream : Except Overflow (List ByteArray)) :
    Prop where
  comes_iff : (∃ chunks, stream = .ok chunks) ↔ ∀ r ∈ rows, shown r
  reads : ∀ chunks, stream = .ok chunks → ∃ lines,
    readCsv (served chunks) = some (header :: lines) ∧
      List.Forall₂ (fun r line => cells r = .ok line) rows lines ∧
      ∀ line ∈ lines, SafeLine header line

theorem readsBack {α : Type} {header : List String} {rows : List α} {shown : α → Prop}
    {cells : α → Except Overflow (List String)} {stream : Except Overflow (List ByteArray)}
    (hstream : stream = (rows.mapM cells).map fun lines => encodeOnce (csvRows header lines))
    (hshown : ∀ r, (∃ line, cells r = .ok line) ↔ shown r)
    (hsafe : ∀ r line, cells r = .ok line → SafeLine header line) :
    ReadsBack header rows shown cells stream where
  comes_iff := by
    rw [hstream, map_ok_iff, mapM_succeeds_iff]
    exact forall₂_congr fun r _ => hshown r
  reads := fun chunks h => by
    cases hlines : rows.mapM cells with
    | error e =>
      rw [hstream, hlines] at h
      cases h
    | ok lines =>
      rw [hstream, hlines] at h
      cases h
      refine ⟨lines, readCsv_served header lines, mapM_ok_iff.mp hlines, fun line hline => ?_⟩
      obtain ⟨r, -, hr⟩ := mem_of_mapM_ok hlines hline
      exact hsafe r line hr

/-- A line of one timestamp comes where that can be shown. -/
theorem momentLine_ok_iff {zone : Zone} {moment : String} {line : String → List String} :
    (∃ l, (do let shown ← momentCell zone moment; return line shown : Except Overflow _) = .ok l) ↔
      Readable zone (.str moment) := by
  rw [← readTimestamp_ok_iff]
  exact map_ok_iff

/-- The join with the products keeps the rows whose product is there. -/
theorem joined_saleRows (d : Db) (ops : List Operation) :
    (ops.filterMap (saleRow d)).map SaleRow.op =
      ops.filter fun o => (d.find .product o.productId).isSome := by
  induction ops with
  | nil => rfl
  | cons o ops ih =>
    cases hp : d.find .product o.productId with
    | none => simpa [List.filterMap_cons, List.filter_cons, saleRow, hp] using ih
    | some p => simpa [List.filterMap_cons, List.filter_cons, saleRow, hp] using ih

/-- Every row of the ledger has its product. -/
theorem salesOf_op {d : Db} (hd : d.Ok) :
    (salesOf d).map SaleRow.op =
      (d.operations.filter Operation.isSold).insertionSort fun o o' => o.dumpKey ≤ o'.dumpKey := by
  rw [salesOf, joined_saleRows, List.filter_eq_self]
  intro o ho
  have hmem := List.mem_of_mem_filter ((List.mem_insertionSort _).mp ho)
  obtain ⟨p, hp, hid⟩ := List.mem_map.mp (hd.operationProduct o hmem)
  exact List.find?_isSome.mpr ⟨p, hp, decide_eq_true hid⟩

/-- The sales and returns of the ledger, each once, and the cash movements of the period, each once,
by their day. -/
structure InOrder (d : Db) (period : Period) : Prop where
  sales : ((salesOf d).map SaleRow.op).Perm (d.operations.filter Operation.isSold)
  salesSorted : ((salesOf d).map SaleRow.op).Pairwise fun o o' => o.dumpKey ≤ o'.dumpKey
  cash : (movementsOf d period).Perm (d.cashMovements.filter fun m => period.covers m.day)
  cashSorted : (movementsOf d period).Pairwise fun m m' => m.dumpKey ≤ m'.dumpKey

theorem inOrder {d : Db} (hd : d.Ok) (period : Period) : InOrder d period where
  sales := by
    rw [salesOf_op hd]
    exact List.perm_insertionSort _ _
  salesSorted := by
    rw [salesOf_op hd]
    exact List.pairwise_insertionSort _ _
  cash := List.perm_insertionSort _ _
  cashSorted := List.pairwise_insertionSort _ _

theorem salesCsv_readsBack (zone : Zone) (d : Db) :
    ReadsBack salesHeader (salesOf d) (fun r => Readable zone (.str r.op.createdAt))
      (SaleRow.cells zone) (streamSalesCsv zone d) :=
  readsBack rfl (fun _ => momentLine_ok_iff) fun r _ => r.safe_cells

/-- The four files are read back as they were made, and hold every row that they should. -/
theorem csv_exports (zone : Zone) (base : Database) (period : Period) :
    ReadsBack productsHeader (productsOf base.db) (fun _ => True) (fun p => .ok (productCells p))
      (streamProductsCsv base.db) ∧
    ReadsBack salesHeader (salesOf base.db) (fun r => Readable zone (.str r.op.createdAt))
      (SaleRow.cells zone) (streamSalesCsv zone base.db) ∧
    ReadsBack customersHeader (customersOf base.db) (fun c => Readable zone (.str c.createdAt))
      (customerCells zone) (streamCustomersCsv zone base.db) ∧
    ReadsBack cashHeader (movementsOf base.db period) (fun m => Readable zone (.str m.createdAt))
      (cashCells zone) (streamCashMovementsCsv zone base.db period) ∧
    InOrder base.db period := by
  refine ⟨readsBack rfl (fun p => iff_of_true ⟨_, rfl⟩ trivial) fun p line h => ?_,
    salesCsv_readsBack zone base.db,
    readsBack rfl (fun c => momentLine_ok_iff) fun c line => safe_customerCells,
    readsBack rfl (fun m => momentLine_ok_iff) fun m line => safe_cashCells, inOrder base.ok period⟩
  cases h
  exact safe_productCells p

/-! ## The sum over the sales file -/

/-- The amount that a cell prints, an empty one counting as 0. -/
def readCents (cell : String) : Option Int :=
  if cell = "" then some 0
  else match parseDecimal (amountText cell) with
    | some (neg, n, -2) => some (if neg then -(n : Int) else n)
    | _ => none

/-- «Кол-во» times «Цена» of a line. -/
def lineRevenue : List String → Option Int
  | [_, _, _, qty, price, _, _, _, _, _] =>
    (Lib.Json.intLit qty.toList).bind fun n => (readCents price).map fun cents => cents * n
  | _ => none

/-- The column «Валюта» of a line. -/
def lineCurrency : List String → Option String
  | [_, _, _, _, _, _, currency, _, _, _] => some currency
  | _ => none

/-- The sum over the lines of a currency. -/
def columnSum (currency : String) (lines : List (List String)) : Option Int :=
  ((lines.filter fun line => lineCurrency line = some currency).mapM lineRevenue).map List.sum

theorem readCents_centsCell (cents : Option Int) : readCents (centsCell cents) = some (cents.getD 0) := by
  cases cents with
  | none => rfl
  | some c =>
    have hne : formatCents c ≠ "" := fun h => by
      have hparse := parseDecimal_formatCents c
      rw [h, show parseDecimal (amountText "") = none by decide] at hparse
      cases hparse
    rw [centsCell, Option.elim_some, readCents, if_neg hne, parseDecimal_formatCents, Option.getD_some]
    by_cases hneg : c < 0
    · simp only [hneg, decide_true, if_true]
      exact congrArg some (by omega)
    · simp only [hneg, decide_false, Bool.false_eq_true, if_false]
      exact congrArg some (by omega)

theorem lineRevenue_cells {zone : Zone} {r : SaleRow} {line : List String}
    (h : r.cells zone = .ok line) :
    lineRevenue line = some r.op.revenue ∧ lineCurrency line = some (csvSafe r.shownCurrency) := by
  obtain ⟨entered, -, h⟩ := bind_ok_iff.mp h
  cases h
  refine ⟨?_, rfl⟩
  rw [lineRevenue, intCell, String.toList_ofList, Lib.Json.intLit_intChars, Option.bind_some,
    readCents_centsCell]
  rfl

/-- The sum over the file is the sum over its rows. -/
theorem columnSum_eq {zone : Zone} {rows : List SaleRow} {lines : List (List String)}
    (h : List.Forall₂ (fun r line => SaleRow.cells zone r = .ok line) rows lines) (currency : String) :
    columnSum currency lines = some (sumOver (fun r => r.op.revenue)
      (fun r => csvSafe r.shownCurrency = currency) rows) := by
  induction h with
  | nil => rfl
  | @cons r line rows lines hr _ ih =>
    obtain ⟨hrevenue, hcurrency⟩ := lineRevenue_cells hr
    rw [sumOver_cons]
    by_cases hc : csvSafe r.shownCurrency = currency
    · rw [columnSum, List.filter_cons_of_pos (by simpa [hcurrency] using hc), List.mapM_cons, hrevenue]
      rw [columnSum] at ih
      obtain ⟨amounts, hamounts, hsum⟩ := Option.map_eq_some_iff.mp ih
      simp [hamounts, ← hsum, hc]
    · rw [columnSum, List.filter_cons_of_neg (by simpa [hcurrency] using hc), ← columnSum, ih]
      simp [hc]

/-- No currency of the program gets an apostrophe. -/
theorem csvSafe_eq_iff {value currency : String} (h : currency ∈ currencies) :
    csvSafe value = currency ↔ value = currency := by
  by_cases hstarts : startsFormula value = true
  · rw [csvSafe, if_pos hstarts]
    refine iff_of_false (fun heq => ?_) fun heq => ?_
    · have hhead : currency.toList.head? = some '\'' := by
        rw [← heq, String.toList_append]
        rfl
      simp only [currencies, List.mem_cons, List.not_mem_nil, or_false] at h
      rcases h with rfl | rfl | rfl <;> exact absurd hhead (by decide)
    · simp only [currencies, List.mem_cons, List.not_mem_nil, or_false] at h
      rcases h with rfl | rfl | rfl <;> rw [heq] at hstarts <;> exact absurd hstarts (by decide)
  · rw [csvSafe, if_neg hstarts]

/-- The column «Валюта» is that of the report, but where the warehouse has none. -/
theorem shownCurrency_iff {d : Db} {r : SaleRow} (hr : r ∈ salesOf d) {currency : String}
    (h : currency ∈ currencies) : r.shownCurrency = currency ↔
      operationCurrency d r.op = currency ∨
        currency = defaultCurrency ∧ operationCurrency d r.op = "" := by
  obtain ⟨o, -, ho⟩ := List.mem_filterMap.mp hr
  obtain ⟨p, -, rfl⟩ := Option.map_eq_some_iff.mp ho
  have hne : currency ≠ "" := by
    rintro rfl
    exact absurd h (by decide)
  have hjoin : ((operationBatch d o).bind fun b =>
      (d.find .warehouse b.warehouseId).map Warehouse.currency) =
      ((operationBatch d o).bind fun b => d.find .warehouse b.warehouseId).map Warehouse.currency := by
    rw [Option.map_bind]
    rfl
  simp only [SaleRow.shownCurrency, operationCurrency, hjoin]
  cases (operationBatch d o).bind fun b => d.find .warehouse b.warehouseId with
  | none => simp [defaultCurrency]
  | some w =>
    by_cases hw : Warehouse.currency w = ""
    · simp [hw, hne.symm, eq_comm]
    · simp [hw]

/-- The report's condition on a row, over all days and warehouses. -/
theorem counts_all {env : Env} {d : Db} {period : Period} (henv : env.allowed = none)
    {o : Operation} (ho : period.covers o.day = true) (currency : String) :
    ReportQuery.counts env d { period := period, currency := currency } o =
      (o.isSold && decide (operationCurrency d o = currency) &&
        (d.find .product o.productId).isSome) := by
  simp [ReportQuery.counts, ReportQuery.takes, ho, Env.warehouseScope, henv, Operation.isSold]

/-- «Кол-во» times «Цена», summed over the lines of a currency, is the revenue that the sales report
shows of all days; the roubles are with those of the warehouses without a currency. -/
theorem salesCsv_revenue (env : Env) (henv : env.allowed = none) (zone : Zone) (d : Db)
    (period : Period) (hperiod : ∀ o ∈ d.operations, period.covers o.day = true)
    (chunks : List ByteArray) (h : streamSalesCsv zone d = .ok chunks)
    (currency : String) (hcurrency : currency ∈ currencies) :
    ∃ lines, readCsv (served chunks) = some (salesHeader :: lines) ∧
      columnSum currency lines = some
        ((salesProfitReport env d { period := period, currency := currency }).totals.revenueCents +
          if currency = defaultCurrency then
            (salesProfitReport env d { period := period, currency := "" }).totals.revenueCents
          else 0) := by
  obtain ⟨lines, hlines, h⟩ := bind_ok_iff.mp h
  cases h
  refine ⟨lines, readCsv_served salesHeader lines, ?_⟩
  -- the sum over the file's rows is one over the ledger
  have hledger : ∀ p : Operation → Bool, sumOver (fun r : SaleRow => r.op.revenue) (fun r => p r.op)
      (salesOf d) = sumOver Operation.revenue
        (fun o => p o && (d.find .product o.productId).isSome && o.isSold) d.operations := fun p => by
    rw [← sumOver_map, salesOf, joined_saleRows, sumOver_filter,
      sumOver_perm (List.perm_insertionSort _ _), sumOver_filter]
  have hreport : ∀ c : String,
      (salesProfitReport env d { period := period, currency := c }).totals.revenueCents =
        sumOver (fun r : SaleRow => r.op.revenue) (fun r => operationCurrency d r.op = c)
          (salesOf d) := fun c => by
    rw [(salesTotals_eq env d _).1, hledger fun o => operationCurrency d o = c]
    refine sumOver_congr fun o ho _ => ?_
    rw [counts_all henv (hperiod o ho)]
    cases o.isSold <;> simp
  rw [columnSum_eq (mapM_ok_iff.mp hlines), hreport, hreport]
  have hshown : ∀ r ∈ salesOf d, decide (csvSafe r.shownCurrency = currency) =
      (decide (operationCurrency d r.op = currency) ||
        decide (currency = defaultCurrency ∧ operationCurrency d r.op = "")) := fun r hr => by
    rw [← Bool.decide_or, decide_eq_decide, csvSafe_eq_iff hcurrency, shownCurrency_iff hr hcurrency]
  rw [sumOver_congr fun r hr _ => hshown r hr, sumOver_or fun r hr hc => ?_]
  · by_cases hdefault : currency = defaultCurrency
    · simp only [hdefault, true_and, if_true]
    · simp [hdefault, sumOver_eq_zero]
  · have hne : currency ≠ "" := by
      rintro rfl
      exact absurd hcurrency (by decide)
    simp only [decide_eq_true_eq] at hc
    simp [hc, hne]

/-- A row at noon, of a product at 12,50. -/
def rowAtNoon (type : String) (qtyDelta seq : Int) : Operation where
  id := type
  type := type
  productId := "p"
  qtyDelta := qtyDelta
  unitCostCents := none
  unitPriceCents := some 1250
  payload := .null
  saleId := none
  batchId := none
  reversesOpId := none
  authorId := none
  deviceId := "device"
  seq := seq
  createdAt := "2026-01-01T12:00:00+00:00"
  businessDate := some "2026-01-01"
  createdBy := "operator"
  syncedAt := none

/-- Two units sold, one of them returned. -/
def oneReturned : Db where
  products := [{ blankProduct "p" "" with name := "=mascara" }]
  operations := [rowAtNoon "sale" (-2) 1, rowAtNoon "return" 1 2]

theorem salesCsv_revenue_oneReturned : ∃ chunks lines,
    streamSalesCsv moscow oneReturned = .ok chunks ∧
      readCsv (served chunks) = some (salesHeader :: lines) ∧ columnSum "RUB" lines = some 1250 := by
  have hread : Moment.fromIso "2026-01-01T12:00:00+00:00" =
      some ⟨⟨2026, 1, 1, by decide⟩, 43200000000, some 0⟩ := by decide
  obtain ⟨chunks, hchunks⟩ := (salesCsv_readsBack moscow oneReturned).comes_iff.mpr fun r hr => by
    have hop : r.op.createdAt = "2026-01-01T12:00:00+00:00" := by
      have hmem : r.op ∈ (salesOf oneReturned).map SaleRow.op := List.mem_map_of_mem hr
      rw [salesOf, joined_saleRows, List.mem_filter, List.mem_insertionSort, List.mem_filter] at hmem
      have hrow := hmem.1.1
      simp only [oneReturned, List.mem_cons, List.not_mem_nil, or_false] at hrow
      rcases hrow with hrow | hrow <;> rw [hrow] <;> rfl
    rw [hop]
    intro s m hs hm
    cases hs
    rw [hread] at hm
    cases hm
    exact inZone_isSome_iff.mp (inZone_isSome_of_year _ _ (by decide))
  obtain ⟨lines, hlines, hsum⟩ := salesCsv_revenue Env.sample rfl moscow oneReturned
    ⟨"2026-01-01", "2026-12-31"⟩ (by decide) chunks hchunks "RUB" (by decide)
  refine ⟨chunks, lines, hchunks, hlines, hsum.trans (congrArg some ?_)⟩
  rw [(salesTotals_eq _ _ _).1, (salesTotals_eq _ _ _).1]
  decide

end MyOriShop
