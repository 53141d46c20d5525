import MyOriShop.Lib.Earliest
import MyOriShop.Lib.Like
import MyOriShop.Pricing
import MyOriShop.Services.Receipts

/-!
# Inventory import: a sheet of goods as receipts (`scripts/import_inventory_receipt.py`)

Every row of the sheet becomes one receipt: of a new batch, or on top of a batch of the same product,
warehouse and month. The same walk is a dry run, which only remembers what it would have done.

* `SheetRow` is `Row`; a row's code has no outer blanks by its type. `readRow` and `splitNote` make
  it of the cells of a line.
* `resolveRow` is `resolve_row`, `monthBatches` is `_month_batches`: batches with one expiry and one
  creation time come as they are stored.
* `applyTopupNotes` is `_apply_topup_notes`, `importRows` the loop of `run_import` in both modes. Its
  `visits`, which the source does not keep, are the decisions of the rows and the receipts' batches.
* `isDigit` is `str.isdigit` of one character.
-/

namespace MyOriShop

open Lib.Text Lib.IsoDate Lib.Like Lib.Earliest Lib.Transaction

/-! ## The sheet -/

/-- The cells of a line; a short line lacks the last ones. -/
structure SheetCells where
  shelf : Option String
  code : Option String
  name : Option String
  qty : Option String
  expiry : Option String
  note : Option String

/-- `Row`. -/
structure SheetRow where
  lineNo : Nat
  shelf : String
  code : String
  name : String
  qty : String
  expiry : String
  note : String
  placement : String
  condition : String
  skipReason : Option String
  code_strip : strip code = code
  deriving DecidableEq

/-- `SKIP_CODES`. -/
def skipCodes : List String := ["???"]

/-- `COMMENT_MAX_LEN`. -/
def commentMaxLen : Nat := 200

/-- `_LEADING_SEPARATORS`. -/
def leadingSeparators : List Char := " \t;,.-—–".toList

/-- A letter without its case, as `re.IGNORECASE` compares those of the placement words. -/
def foldCyrillic (c : Char) : Char :=
  if c = 'ᲂ' then 'о' else if c = 'ᲁ' then 'д'
  else if 'А' ≤ c ∧ c ≤ 'Я' then Char.ofNat (c.toNat + 32) else c

/-- What follows a word in front of the text. -/
def dropWord (word : String) (text : List Char) : Option (List Char) :=
  if (text.take word.length).map foldCyrillic = word.toList then some (text.drop word.length)
  else none

/-- `полка\s*\d+`. -/
def dropShelf (text : List Char) : Option (List Char) := do
  let rest ← dropWord "полка" text
  match takeDecimals (rest.dropWhile isSpace) with
  | ([], _) => none
  | (_, rest) => some rest

/-- `под\s+зеркалом`. -/
def dropMirror (text : List Char) : Option (List Char) := do
  let rest ← dropWord "под" text
  if rest.takeWhile isSpace = [] then none else dropWord "зеркалом" (rest.dropWhile isSpace)

section Sheet

variable (env : Env) (isDigit : Char → Bool)

/-- `_normalize`. -/
def normalizeText (value : String) : String :=
  env.lower (" ".intercalate
    (((value.toList.splitOnP isSpace).filter (· ≠ [])).map String.ofList))

/-- `str.isdigit`. -/
def allDigits (text : String) : Bool := text ≠ "" && text.toList.all isDigit

/-- `_shelf_placement`. -/
def shelfPlacement (shelf : String) : String :=
  let text := strip shelf
  if text = "" then "" else if allDigits isDigit text then "полка " ++ text
  else normalizeText env text

/-- `split_note`: the placement and the condition marker. -/
def splitNote (note shelf : String) : String × String :=
  let text := (strip note).toList.dropWhile isSpace
  match (dropShelf text).or (dropMirror text) with
  | some rest =>
    (normalizeText env (String.ofList (text.take (text.length - rest.length))),
      strip (String.ofList (rest.dropWhile (· ∈ leadingSeparators))))
  | none => (shelfPlacement env isDigit shelf, strip note)

/-- A line of `read_rows`. -/
def readRow (lineNo : Nat) (cells : SheetCells) : SheetRow :=
  let cell (c : Option String) : String := strip (c.getD "")
  let split := splitNote env isDigit (cell cells.note) (cell cells.shelf)
  { lineNo := lineNo
    shelf := cell cells.shelf
    code := cell cells.code
    name := cell cells.name
    qty := cell cells.qty
    expiry := cell cells.expiry
    note := cell cells.note
    placement := split.1
    condition := split.2
    skipReason :=
      if cell cells.code = "" then some "пустой код"
      else if cell cells.code ∈ skipCodes then some ("код «" ++ cell cells.code ++ "»")
      else none
    code_strip := strip_strip _ }

/-- The rows of `read_rows`: the header is line 1. -/
def readRows (lines : List SheetCells) : List SheetRow :=
  lines.mapIdx fun n cells => readRow env isDigit (n + 2) cells

end Sheet

/-- `_year_month`. -/
def yearMonth (expiry : String) : Option String :=
  if expiry = "" then none else some (String.ofList (expiry.toList.take 7))

/-- What a batch of the import is known by: code, month and condition marker. -/
abbrev LotKey := String × Option String × String

/-- `_key`. -/
def SheetRow.key (row : SheetRow) : LotKey := (row.code, yearMonth row.expiry, row.condition)

/-- The rows that are not skipped. -/
def imported (rows : List SheetRow) : List SheetRow := rows.filter fun row => row.skipReason.isNone

/-! ## The decision -/

/-- What the import reads beside the database, and the class of the digits. -/
structure ImportSetting where
  env : Env
  prices : PriceOrder
  catalog : List CatalogPrice
  isDigit : Char → Bool

/-- `Decision.action`. -/
inductive ImportAction where
  | newBatch | topup
  deriving DecidableEq

/-- `Decision`. -/
structure Decision where
  action : ImportAction
  productExists : Bool
  batchId : Option String
  costRaw : String
  saleRaw : String
  placement : String
  comment : String
  warnings : List String

/-- `Pending`. -/
structure ImportPending where
  newCodes : List String := []
  newBatches : List LotKey := []
  conditionBatches : List (LotKey × String) := []
  conditionBatchIds : List String := []

/-- The batch's expiry falls in the month. -/
def inMonth (month expiry : Option String) : Bool :=
  match month, expiry with
  | none, expiry => expiry.isNone
  | some _, none => false
  | some month, some expiry => like Char.toLower (month.toList ++ "-%".toList) expiry.toList

/-- `ORDER BY expiry, created_at`. -/
def dueKey (b : Batch) : WithBot String ×ₗ String := toLex (b.expiry, b.createdAt)

/-- `_month_batches`. -/
def monthBatches (d : Db) (productId warehouseId : String) (month : Option String)
    (excluded : List String) : List Batch :=
  let found := d.batches.filter fun b =>
    b.productId = productId && b.warehouseId = warehouseId && inMonth month b.expiry
  (sorted dueKey found).filter fun b => b.id ∉ excluded

/-- Where a row goes: the action, the batch if it is known, and the warnings. -/
structure LotChoice where
  action : ImportAction
  batchId : Option String
  warnings : List String

/-- `строка N: …`. -/
def lineWarning (row : SheetRow) (text : String) : String :=
  "строка " ++ toString row.lineNo ++ ": " ++ text

/-- The warnings of a top-up of the first of several batches, or of a legacy one. -/
def topupWarnings (row : SheetRow) (first : Batch) (others : List Batch) : List String :=
  let unknown := "без срока"
  let several := lineWarning row ("у товара " ++ row.code ++ " несколько партий за " ++
    (yearMonth row.expiry).getD unknown ++ " — долив в самую раннюю (" ++
    ((first.expiry.filter (· ≠ "")).getD unknown) ++ ")")
  let legacy := lineWarning row ("долив в legacy-партию " ++ first.id ++
    " (остаток до внедрения партий)")
  (if others = [] then [] else [several]) ++ if first.isLegacy = 0 then [] else [legacy]

/-- Where a row goes that found no batch. -/
def unfoundLot (row : SheetRow) (pending : ImportPending) : LotChoice :=
  if row.key ∈ pending.newBatches then ⟨.topup, none, []⟩ else ⟨.newBatch, none, []⟩

/-- The part of `resolve_row` that chooses the batch. -/
def chooseLot (d : Db) (row : SheetRow) (warehouseId : String) (pending : ImportPending) :
    LotChoice :=
  if row.condition ≠ "" then
    match pending.conditionBatches.lookup row.key with
    | some known => ⟨.topup, some known, []⟩
    | none => unfoundLot row pending
  else match activeProduct d row.code with
    | none => unfoundLot row pending
    | some product =>
      match monthBatches d product.id warehouseId (yearMonth row.expiry)
        pending.conditionBatchIds with
      | first :: others => ⟨.topup, some first.id, topupWarnings row first others⟩
      | [] => unfoundLot row pending

deriving instance DecidableEq for PriceSet

/-- The catalog prices of a code that has no card yet, for a warehouse in roubles. -/
def catalogRaw (cfg : ImportSetting) (row : SheetRow) (productExists : Bool) (currency : String) :
    String × String :=
  let raw (cents : Option Int) : String := (cents.map formatCents).getD ""
  if productExists ∨ cardPriceFields currency ≠ cardPriceFields defaultCurrency then ("", "")
  else match latestPriceForCode cfg.prices cfg.catalog row.code with
    | none => ("", "")
    | some price => (raw (price.fields .consultantCents), raw (price.fields .consumerCents))

/-- The comment of a new batch: placement and condition marker. -/
def markerComment (row : SheetRow) : String × List String :=
  if row.condition = "" then ("", [])
  else
    let comment := "; ".intercalate ([row.placement, row.condition].filter (· ≠ ""))
    if comment.length ≤ commentMaxLen then (comment, [])
    else (String.ofList (comment.toList.take commentMaxLen),
      [lineWarning row "примечание обрезано до 200 символов"])

/-- `resolve_row`. -/
def resolveRow (cfg : ImportSetting) (d : Db) (row : SheetRow) (warehouse : Warehouse)
    (pending : ImportPending) : Decision :=
  let productExists := (activeProduct d row.code).isSome || row.code ∈ pending.newCodes
  let lot := chooseLot d row warehouse.id pending
  let raw := catalogRaw cfg row productExists warehouse.currency
  let comment := markerComment row
  { action := lot.action
    productExists := productExists
    batchId := lot.batchId
    costRaw := raw.1
    saleRaw := raw.2
    placement := row.placement
    comment := comment.1
    warnings := lot.warnings ++ comment.2 }

/-! ## The walk -/

/-- The summary of `run_import`. -/
structure ImportSummary where
  rowsRead : Nat
  skipped : List (Nat × String)
  toReceipt : Nat := 0
  qtyTotal : Nat := 0
  newProducts : Nat := 0
  newBatches : Nat := 0
  topups : Nat := 0
  conditionRows : Nat := 0
  codesWithoutPrice : Nat := 0
  rowsWritten : Nat := 0
  stoppedAtLine : Option Nat := none
  errorCode : Option String := none
  error : Option String := none
  warnings : List String := []

/-- A row that was walked over: its decision, and the batch of its receipt. -/
structure Visit where
  row : SheetRow
  decision : Decision
  batchId : Option String

/-- The local variables of `run_import`, and the visits, the latest first. -/
structure Walk where
  summary : ImportSummary
  pending : ImportPending := {}
  priceless : List String := []
  visits : List Visit := []

/-- What `run_import` can raise. -/
inductive ImportError where
  /-- Its own `RuntimeError`. -/
  | undetermined (message : String)
  | raised (e : Exn)

/-- A program of the import. -/
abbrev Import := Tx Db ImportError

/-- A service called by the import. -/
def called {α : Type} (x : Act α) : Import α := fun s =>
  match x s with
  | (.ok a, s') => (.ok a, s')
  | (.error e, s') => (.error (.raised e), s')

/-- The walk before the first row. -/
def Walk.start (rows : List SheetRow) : Walk where
  summary :=
    { rowsRead := rows.length
      skipped := rows.filterMap fun row => row.skipReason.map fun reason => (row.lineNo, reason) }

/-- `int(row.qty) if row.qty.isdigit() else 0`. -/
def rowQty (cfg : ImportSetting) (row : SheetRow) : Except ImportError Nat :=
  if allDigits cfg.isDigit row.qty then
    match takeDecimals row.qty.toList with
    | (digits, []) => .ok (natOfDecimals digits)
    | _ => .error (.raised (.value ("invalid literal for int() with base 10: " ++ row.qty)))
  else .ok 0

/-- The counters of a row. -/
def Walk.count (walk : Walk) (row : SheetRow) (qty : Nat) (decision : Decision) : Walk :=
  let summary := walk.summary
  let one (b : Bool) : Nat := if b then 1 else 0
  let unpriced := !decision.productExists && decision.costRaw = "" && decision.saleRaw = ""
  { walk with
    summary :=
      { summary with
        toReceipt := summary.toReceipt + 1
        qtyTotal := summary.qtyTotal + qty
        newProducts := summary.newProducts + one !decision.productExists
        newBatches := summary.newBatches + one (decision.action = .newBatch)
        topups := summary.topups + one (decision.action = .topup)
        conditionRows := summary.conditionRows + one (row.condition ≠ "")
        warnings := summary.warnings ++ decision.warnings }
    priceless :=
      if unpriced && row.code ∉ walk.priceless then walk.priceless ++ [row.code]
      else walk.priceless }

/-- What a dry run remembers of a row. -/
def Walk.remember (walk : Walk) (row : SheetRow) (decision : Decision) : Walk :=
  let pending := walk.pending
  { walk with
    pending :=
      { pending with
        newCodes :=
          if decision.productExists then pending.newCodes else row.code :: pending.newCodes
        newBatches :=
          if decision.action = .newBatch then row.key :: pending.newBatches
          else pending.newBatches }
    visits := ⟨row, decision, none⟩ :: walk.visits }

/-- What a run keeps of a row that is written. -/
def Walk.written (walk : Walk) (row : SheetRow) (decision : Decision) (batchId : String)
    (notes : List String) : Walk :=
  let pending := walk.pending
  let summary := walk.summary
  { walk with
    summary :=
      { summary with
        rowsWritten := summary.rowsWritten + 1, warnings := summary.warnings ++ notes }
    pending :=
      if decision.action = .newBatch ∧ row.condition ≠ "" then
        { pending with
          conditionBatches := (row.key, batchId) :: pending.conditionBatches
          conditionBatchIds := batchId :: pending.conditionBatchIds }
      else pending
    visits := ⟨row, decision, some batchId⟩ :: walk.visits }

/-- The row that stops the run. -/
def Walk.stop (walk : Walk) (row : SheetRow) (errors : Errors) : Walk :=
  let summary := walk.summary
  { walk with
    summary :=
      { summary with
        stoppedAtLine := some row.lineNo
        errorCode := some row.code
        error := some ("; ".intercalate (errors.map fun e => e.1 ++ ": " ++ e.2)) } }

/-- The parts of a comment. -/
def commentParts (comment : Option String) : List String :=
  (((comment.getD "").toList.splitOn ';').map fun part => strip (String.ofList part)).filter (· ≠ "")

/-- The expiry of a batch as the row writes it. -/
def renewed (row : SheetRow) (b : Batch) : Batch :=
  if row.expiry = "" then b else { b with expiry := some row.expiry }

/-- A batch with the row's expiry and placement, whether anything changed, and the warnings. -/
def notedBatch (row : SheetRow) (b : Batch) : Batch × Bool × List String :=
  let changed := row.expiry ≠ "" && b.expiry ≠ some row.expiry
  let parts := commentParts b.comment
  if row.placement = "" ∨ row.placement ∈ parts then (renewed row b, changed, [])
  else
    let merged := "; ".intercalate (parts ++ [row.placement])
    if merged.length ≤ commentMaxLen then
      ({ renewed row b with comment := some merged }, true, [])
    else (renewed row b, changed, [lineWarning row
      ("примечание партии " ++ b.id ++ " переполнено, полка не дописана")])

/-- `_apply_topup_notes`. -/
def applyTopupNotes (env : Env) (batchId : String) (row : SheetRow) : Act (List String) := do
  let db ← Tx.read
  match db.find .batch batchId with
  | none => return []
  | some b =>
    let (noted, changed, warnings) := notedBatch row b
    if changed then do
      let stamp ← utcnowIso env
      Tx.stage fun d => d.edit .batch batchId fun _ => { noted with updatedAt := stamp }
      commit
      return warnings
    else return warnings

/-- The receipt of a row. -/
def rowForm (row : SheetRow) (warehouse : Warehouse) (decision : Decision) : ReceiptForm where
  code := row.code
  name := row.name
  qtyRaw := row.qty
  costRaw := decision.costRaw
  saleRaw := decision.saleRaw
  warehouseId := warehouse.id
  batchChoice := if decision.action = .newBatch then "new" else decision.batchId.getD ""
  expiryRaw := row.expiry
  locationRaw := if decision.action = .newBatch then decision.placement else ""
  commentRaw := if decision.action = .newBatch then decision.comment else ""

/-- The writing half of a row; whether the run stops. -/
def writeRow (cfg : ImportSetting) (warehouse : Warehouse) (row : SheetRow) (decision : Decision)
    (walk : Walk) : Import (Walk × Bool) :=
  if decision.action = .topup ∧ decision.batchId = none then
    Tx.raise (.undetermined (lineWarning row "цель долива не определена — внутренняя ошибка"))
  else do
    let answer ← called (registerReceipt cfg.env (rowForm row warehouse decision))
    match answer with
    | .done op => do
      let batchId := op.batchId.getD ""
      let notes ←
        if decision.action = .newBatch then pure []
        else called (applyTopupNotes cfg.env batchId row)
      return (walk.written row decision batchId notes, false)
    | .refused errors => return (walk.stop row errors, true)
    -- a receipt asks for no confirmation
    | .warned _ => return (walk.stop row [], true)

/-- A row that is not skipped; whether the run stops. -/
def visitRow (cfg : ImportSetting) (warehouse : Warehouse) (apply : Bool) (row : SheetRow)
    (walk : Walk) : Import (Walk × Bool) :=
  match rowQty cfg row with
  | .error e => Tx.raise e
  | .ok qty => do
    let db ← Tx.read
    let decision := resolveRow cfg db row warehouse walk.pending
    let walk := walk.count row qty decision
    if apply then writeRow cfg warehouse row decision walk
    else return (walk.remember row decision, false)

/-- The loop of `run_import`. -/
def importRows (cfg : ImportSetting) (warehouse : Warehouse) (apply : Bool) :
    List SheetRow → Walk → Import Walk
  | [], walk => return walk
  | row :: rows, walk =>
    if row.skipReason.isSome then importRows cfg warehouse apply rows walk
    else do
      let (walk, stops) ← visitRow cfg warehouse apply row walk
      if stops then return walk else importRows cfg warehouse apply rows walk

/-- The walk of `run_import` over a sheet. -/
def importWalk (cfg : ImportSetting) (rows : List SheetRow) (warehouse : Warehouse)
    (apply : Bool) : Import Walk :=
  importRows cfg warehouse apply rows (Walk.start rows)

/-- The summary that is returned. -/
def Walk.report (walk : Walk) : ImportSummary :=
  { walk.summary with codesWithoutPrice := walk.priceless.length }

/-- `run_import`. -/
def runImport (cfg : ImportSetting) (rows : List SheetRow) (warehouse : Warehouse)
    (apply : Bool) : Import ImportSummary := do
  let walk ← importWalk cfg rows warehouse apply
  return walk.report

end MyOriShop
