import Mathlib.Data.Prod.Lex
import MyOriShop.Lib.Accumulate
import MyOriShop.Lib.Dict
import MyOriShop.PriceUpsert

/-!
# Exports: the accumulated files (`scripts/import_prices.py`, `scripts/import_catalogs.py`)

Both exports lay what the database has over what the file had, whole entries in place of those with
their key, and write the file anew. Rows that the database lacks stay in the file. Of an entry that
both have, the database's stays, whatever it lacks.

* `ExportFile` is what the JSON reader makes of a file; the layout of the text and gzip are left out.
  A file is replaced by one rename or not at all, so a run that exits leaves it as it was.
* `writePriceExport`, `writeDictionaryExport` are the two `write_export`s, `exportPricesTo` and
  `exportDictionaryTo` what a run leaves of the file. `repr` is that of the source language, `same` its
  equality of values, which only the counters use.
* `PricesKept`, `DictionaryKept`: every key is still there, with every value that it had.

Results:
* `pricesKept_iff`, `dictionaryKept_iff`: that is so exactly when no entry of the database is poorer
  than the one it replaces.
* `exportPricesTo_twice`, `exportDictionaryTo_twice`: a second run changes nothing.
* `exports_keep_iff`: all of it.
* `not_exports_keep`: a row without points, and an entry of fewer catalogs.
-/

namespace MyOriShop

open Lib.Json (Value valueAt dict)
open Lib.Accumulate Lib.Fallible

/-- A file, as it is read. -/
inductive ExportFile where
  | missing
  /-- `JSONDecodeError`, with its text. -/
  | noJson (exc : String)
  | json (value : Value)

structure ExportStats where
  before : Nat
  added : Nat
  updated : Nat
  after : Nat

/-- The guard of `write_export`, whose text shows the counters. -/
def ExportStats.guard (stats : ExportStats) (repr : Value → String) (what : String) :
    Except String Unit :=
  if stats.after < stats.before then
    let shown := repr (.obj [("before", .int stats.before), ("added", .int stats.added),
      ("updated", .int stats.updated), ("after", .int stats.after)])
    .error s!"Refusing to write: the export would drop {what} ({shown})"
  else .ok ()

section Merge

variable {α κ : Type} [LinearOrder κ] (key : α → κ) (same : α → α → Bool)

/-- The counters of a merge. -/
def mergeStats (previous fresh : List α) : ExportStats where
  before := (previous.foldl (put key) []).length
  added := (gatherAll key same previous fresh).added
  updated := (gatherAll key same previous fresh).updated
  after := (accumulate key same previous fresh).length

theorem guard_mergeStats (repr : Value → String) (what : String) (previous fresh : List α) :
    (mergeStats key same previous fresh).guard repr what = .ok () :=
  if_neg (Nat.not_lt_of_le length_le_accumulate)

end Merge

/-! ## The price export -/

section Prices

variable {columns : PriceColumns} (repr : Value → String) (path : String)

/-- The order of `_price_key`. -/
def PriceRecord.order (r : PriceRecord) : Int ×ₗ (Int ×ₗ String) :=
  toLex (r.year, toLex (r.number, r.code))

/-- Equality of the dictionaries. -/
def PriceRecord.same (r r' : PriceRecord) : Bool :=
  r.key == r'.key && mutableFields.all fun f => r.fields f == r'.fields f

def CatalogPrice.record (row : CatalogPrice) : PriceRecord :=
  ⟨row.key.1, row.key.2.1, row.key.2.2, row.fields⟩

/-- `export_prices`. -/
def exportPrices (t : PriceTable columns) : List PriceRecord :=
  (t.rows.map CatalogPrice.record).insertionSort fun r r' => r.order ≤ r'.order

/-- `load_export(dest) if dest.is_file() else []`. -/
def loadExport : ExportFile → Except String (List PriceRecord)
  | .missing => .ok []
  | .noJson exc => .error s!"Export file is not valid JSON: {path} ({exc})"
  | .json v => validateRecords repr path v

/-- `merge_price_export`. -/
def mergePriceExport (previous fresh : List PriceRecord) : List PriceRecord × ExportStats :=
  (accumulate PriceRecord.order PriceRecord.same previous fresh,
    mergeStats PriceRecord.order PriceRecord.same previous fresh)

/-- `write_export`. -/
def writePriceExport (file : ExportFile) (fresh : List PriceRecord) :
    Except String (ExportFile × ExportStats) := do
  let previous ← loadExport repr path file
  let (merged, stats) := mergePriceExport previous fresh
  stats.guard repr "rows"
  return (.json (.arr (merged.map PriceRecord.toValue)), stats)

/-- The file after `--export`. -/
def exportPricesTo (file : ExportFile) (t : PriceTable columns) : ExportFile :=
  match writePriceExport repr path file (exportPrices t) with
  | .ok out => out.1
  | .error _ => file

end Prices

/-! ## The dictionary export -/

section Dictionary

variable (path : String) (repr : Value → String) (same : Value → Value → Bool)

/-- `list(value)`, or the text of the `TypeError`. -/
def listOf : Value → Except String (List Value)
  | .arr items => .ok items
  | .obj pairs => .ok ((dict pairs).map fun p => .str p.1)
  | .str s => .ok (s.toList.map fun c => .str (String.ofList [c]))
  | .null => .error "\x27NoneType\x27 object is not iterable"
  | .bool _ => .error "\x27bool\x27 object is not iterable"
  | .int _ => .error "\x27int\x27 object is not iterable"
  | .float _ => .error "\x27float\x27 object is not iterable"

/-- One dumped entry. -/
def dumpEntry (e : Dictionary) : Except String (String × Value) := do
  let catalogs ← listOf (if isTruthy e.catalogs then e.catalogs else .arr [])
  return (e.code, .obj [("name", .str e.name), ("catalogs", .arr catalogs)])

/-- `export_dictionary`. -/
def exportDictionary (d : Db) : Except String (List (String × Value)) :=
  ((d.dictionary.foldl (put Dictionary.code) []).insertionSort fun e e' => e.code ≤ e'.code).mapM
    dumpEntry

/-- `read_previous_export`. -/
def readPreviousExport : ExportFile → Except String (List (String × Value))
  | .missing => .ok []
  | .noJson exc =>
    .error s!"Existing export is not valid JSON, refusing to overwrite it: {path} ({exc})"
  | .json (.obj pairs) => .ok (dict pairs)
  | .json _ => .error s!"Existing export is not a JSON object, refusing to overwrite it: {path}"

/-- `merge_dictionary_export`. -/
def mergeDictionaryExport (previous fresh : List (String × Value)) :
    List (String × Value) × ExportStats :=
  (accumulate Prod.fst (fun x y => same x.2 y.2) previous fresh,
    mergeStats Prod.fst (fun x y => same x.2 y.2) previous fresh)

/-- `write_export`. -/
def writeDictionaryExport (file : ExportFile) (fresh : List (String × Value)) :
    Except String (ExportFile × ExportStats) := do
  let previous ← readPreviousExport path file
  let (merged, stats) := mergeDictionaryExport same previous fresh
  stats.guard repr "codes"
  return (.json (.obj merged), stats)

/-- The file after `--export`. -/
def exportDictionaryTo (file : ExportFile) (d : Db) : ExportFile :=
  match exportDictionary d >>= writeDictionaryExport path repr same file with
  | .ok out => out.1
  | .error _ => file

end Dictionary

/-! ## What is to be kept -/

section Kept

variable {columns : PriceColumns} {repr : Value → String} {path : String} {same : Value → Value → Bool}
  {file : ExportFile}

/-- Every triple is still there, with every field that it had. -/
structure PricesKept (repr : Value → String) (path : String) (file after : ExportFile) : Prop where
  refused : ∀ e, loadExport repr path file = .error e → after = file
  kept : ∀ previous, loadExport repr path file = .ok previous →
    ∃ merged : List PriceRecord, after = .json (.arr (merged.map PriceRecord.toValue)) ∧
      ∀ r ∈ previous, ∃ r' ∈ merged, r'.key = r.key ∧
        ∀ f, r.fields f ≠ none → r'.fields f ≠ none

/-- `entry["name"]`. -/
def entryName : Value → Value
  | .obj entry => valueAt "name" entry
  | _ => .null

/-- `entry["catalogs"]`. -/
def entryCatalogs : Value → List Value
  | .obj entry =>
    match valueAt "catalogs" entry with
    | .arr catalogs => catalogs
    | _ => []
  | _ => []

/-- Every code is still there, with its name if it had one and every catalog that it listed. -/
structure DictionaryKept (path : String) (file after : ExportFile) : Prop where
  refused : ∀ e, readPreviousExport path file = .error e → after = file
  kept : ∀ previous, readPreviousExport path file = .ok previous →
    ∃ merged, readPreviousExport path after = .ok merged ∧
      ∀ x ∈ previous, ∃ y ∈ merged, y.1 = x.1 ∧
        (entryName x.2 ≠ .null → entryName y.2 ≠ .null) ∧
        ∀ c ∈ entryCatalogs x.2, c ∈ entryCatalogs y.2

/-- A file that the price export wrote. -/
def PriceFile (repr : Value → String) (path : String) (file : ExportFile) : Prop :=
  ∃ (columns : PriceColumns) (t : PriceTable columns) (old : ExportFile) (stats : ExportStats),
    writePriceExport repr path old (exportPrices t) = .ok (file, stats)

/-- Of a triple that the file has, a row has every field that the file has. -/
def PricesCover (repr : Value → String) (path : String) (file : ExportFile)
    (t : PriceTable columns) : Prop :=
  ∀ previous, loadExport repr path file = .ok previous → ∀ r ∈ previous, ∀ row ∈ t.rows,
    row.key = r.key → ∀ f, r.fields f ≠ none → row.fields f ≠ none

/-- Of a code that the file has, the dumped entry lists every catalog that the file lists. -/
def DictionaryCovers (path : String) (file : ExportFile) (d : Db) : Prop :=
  ∀ previous fresh, readPreviousExport path file = .ok previous → exportDictionary d = .ok fresh →
    ∀ x ∈ previous, ∀ y ∈ fresh, y.1 = x.1 → ∀ c ∈ entryCatalogs x.2, c ∈ entryCatalogs y.2

/-! ## The price export -/

theorem order_eq_iff {r r' : PriceRecord} : r.order = r'.order ↔ r.key = r'.key := by
  unfold PriceRecord.order PriceRecord.key
  simp

theorem nodup_exportPrices (t : PriceTable columns) :
    ((exportPrices t).map PriceRecord.order).Nodup := by
  have hperm := List.perm_insertionSort (fun r r' : PriceRecord => r.order ≤ r'.order)
    (t.rows.map CatalogPrice.record)
  refine (hperm.map PriceRecord.order).nodup_iff.mpr ?_
  rw [List.map_map]
  refine (List.nodup_map_iff_inj_on (List.Nodup.of_map _ t.keys)).mpr fun row hrow row' hrow' h => ?_
  exact List.inj_on_of_nodup_map t.keys hrow hrow' (order_eq_iff.mp h)

theorem mem_exportPrices {t : PriceTable columns} {r : PriceRecord} :
    r ∈ exportPrices t ↔ ∃ row ∈ t.rows, row.record = r := by
  rw [exportPrices, List.mem_insertionSort, List.mem_map]

/-- What a run writes. -/
theorem writePriceExport_eq (repr : Value → String) (path : String) (file : ExportFile)
    (fresh : List PriceRecord) : writePriceExport repr path file fresh =
      (loadExport repr path file).map fun previous =>
        (.json (.arr ((accumulate PriceRecord.order PriceRecord.same previous fresh).map
            PriceRecord.toValue)),
          mergeStats PriceRecord.order PriceRecord.same previous fresh) := by
  unfold writePriceExport mergePriceExport
  cases loadExport repr path file with
  | error e => rfl
  | ok previous =>
    simp only [ok_bind, guard_mergeStats]
    rfl

theorem exportPricesTo_ok {t : PriceTable columns} {previous : List PriceRecord}
    (h : loadExport repr path file = .ok previous) : exportPricesTo repr path file t =
      .json (.arr ((accumulate PriceRecord.order PriceRecord.same previous (exportPrices t)).map
        PriceRecord.toValue)) := by
  unfold exportPricesTo
  rw [writePriceExport_eq, h]
  rfl

theorem exportPricesTo_error {t : PriceTable columns} {e : String}
    (h : loadExport repr path file = .error e) : exportPricesTo repr path file t = file := by
  unfold exportPricesTo
  rw [writePriceExport_eq, h]
  rfl

/-- No triple stands twice in a file that was written. -/
theorem PriceFile.nodup (hfile : PriceFile repr path file) {previous : List PriceRecord}
    (h : loadExport repr path file = .ok previous) : (previous.map PriceRecord.order).Nodup := by
  obtain ⟨columns, t, old, stats, hwrite⟩ := hfile
  rw [writePriceExport_eq] at hwrite
  cases hload : loadExport repr path old with
  | error e =>
    rw [hload] at hwrite
    cases hwrite
  | ok records =>
    rw [hload] at hwrite
    cases hwrite
    rw [eq_of_validateRecords h]
    exact nodup_accumulate

/-- **The price export** impoverishes nothing exactly when no row is poorer than the record that it
replaces. -/
theorem pricesKept_iff (hfile : PriceFile repr path file) (t : PriceTable columns) :
    PricesKept repr path file (exportPricesTo repr path file t) ↔ PricesCover repr path file t := by
  have hkeeps : ∀ previous, loadExport repr path file = .ok previous →
      ((∀ r ∈ previous, ∃ r' ∈ accumulate PriceRecord.order PriceRecord.same previous
          (exportPrices t), r'.order = r.order ∧ ∀ f, r.fields f ≠ none → r'.fields f ≠ none) ↔
        ∀ r ∈ previous, ∀ r' ∈ exportPrices t, r'.order = r.order →
          ∀ f, r.fields f ≠ none → r'.fields f ≠ none) := fun previous h =>
    keeps_iff (R := fun r r' => ∀ f, r.fields f ≠ none → r'.fields f ≠ none) (fun _ _ hf => hf)
      (hfile.nodup h) (nodup_exportPrices t)
  constructor
  · intro hkept previous hload r hr row hrow hkey
    obtain ⟨merged, hmerged, hall⟩ := hkept.kept previous hload
    rw [exportPricesTo_ok hload] at hmerged
    have heq := List.map_injective_iff.mpr PriceRecord.toValue_injective
      (Value.arr.inj (ExportFile.json.inj hmerged))
    refine (hkeeps previous hload).mp (fun r hr => ?_) r hr row.record
      (mem_exportPrices.mpr ⟨row, hrow, rfl⟩) (order_eq_iff.mpr hkey)
    obtain ⟨r', hr', hkey', hfields⟩ := hall r hr
    exact ⟨r', heq ▸ hr', order_eq_iff.mpr hkey', hfields⟩
  · intro hcover
    refine ⟨fun e he => exportPricesTo_error he, fun previous hload =>
      ⟨_, exportPricesTo_ok hload, fun r hr => ?_⟩⟩
    obtain ⟨r', hr', hkey', hfields⟩ := (hkeeps previous hload).mpr (fun r hr r' hr' hkey => by
      obtain ⟨row, hrow, rfl⟩ := mem_exportPrices.mp hr'
      exact hcover previous hload r hr row hrow (order_eq_iff.mp hkey)) r hr
    exact ⟨r', hr', order_eq_iff.mp hkey', hfields⟩

/-- **A second run** changes nothing. -/
theorem exportPricesTo_twice (t : PriceTable columns) :
    exportPricesTo repr path (exportPricesTo repr path file t) t = exportPricesTo repr path file t := by
  cases hload : loadExport repr path file with
  | error e => rw [exportPricesTo_error hload, exportPricesTo_error hload]
  | ok previous =>
    rw [exportPricesTo_ok hload]
    generalize hmerged : accumulate PriceRecord.order PriceRecord.same previous (exportPrices t) =
      merged
    cases hagain : loadExport repr path (.json (.arr (merged.map PriceRecord.toValue))) with
    | error e => exact exportPricesTo_error hagain
    | ok records =>
      rw [exportPricesTo_ok hagain, eq_of_validateRecords hagain, ← hmerged,
        accumulate_accumulate (nodup_exportPrices t)]

/-! ## The dictionary export -/

theorem dumpEntry_ok {e : Dictionary} {x : String × Value} (h : dumpEntry e = .ok x) :
    ∃ catalogs, x = (e.code, .obj [("name", .str e.name), ("catalogs", .arr catalogs)]) := by
  obtain ⟨catalogs, -, h⟩ := bind_ok_iff.mp h
  cases h
  exact ⟨catalogs, rfl⟩

theorem nodup_exportDictionary {d : Db} {fresh : List (String × Value)}
    (h : exportDictionary d = .ok fresh) : (fresh.map Prod.fst).Nodup := by
  have hcodes := map_of_mapM_ok (g := Prod.fst) (h := Dictionary.code) h fun e _ x hx => by
    obtain ⟨catalogs, rfl⟩ := dumpEntry_ok hx
    rfl
  rw [hcodes]
  exact ((List.perm_insertionSort _ _).map _).nodup_iff.mpr (nodup_putAll List.nodup_nil)

theorem exportDictionaryTo_ok {d : Db} {previous fresh : List (String × Value)}
    (hread : readPreviousExport path file = .ok previous) (hfresh : exportDictionary d = .ok fresh) :
    exportDictionaryTo path repr same file d =
      .json (.obj (accumulate Prod.fst (fun x y => same x.2 y.2) previous fresh)) := by
  unfold exportDictionaryTo writeDictionaryExport mergeDictionaryExport
  simp only [hfresh, hread, ok_bind, guard_mergeStats]
  rfl

theorem exportDictionaryTo_raises {d : Db} {e : String} (hfresh : exportDictionary d = .error e) :
    exportDictionaryTo path repr same file d = file := by
  unfold exportDictionaryTo
  rw [hfresh, error_bind]

theorem exportDictionaryTo_error {d : Db} {e : String}
    (hread : readPreviousExport path file = .error e) :
    exportDictionaryTo path repr same file d = file := by
  unfold exportDictionaryTo writeDictionaryExport
  rw [hread]
  cases exportDictionary d <;> rfl

/-- No code stands twice in what is read. -/
theorem nodup_readPreviousExport {previous : List (String × Value)}
    (h : readPreviousExport path file = .ok previous) : (previous.map Prod.fst).Nodup := by
  unfold readPreviousExport at h
  split at h
  · cases h
    exact List.nodup_nil
  · cases h
  · cases h
    exact Lib.Json.nodup_dict
  · cases h

/-- What was written is read. -/
theorem readPreviousExport_obj {merged : List (String × Value)} (h : (merged.map Prod.fst).Nodup) :
    readPreviousExport path (.json (.obj merged)) = .ok merged :=
  congrArg Except.ok (Lib.Json.dict_of_nodup h)

/-- A dumped entry has a name. -/
theorem entryName_exportDictionary {d : Db} {fresh : List (String × Value)}
    (h : exportDictionary d = .ok fresh) {y : String × Value} (hy : y ∈ fresh) :
    entryName y.2 ≠ .null := by
  obtain ⟨e, -, he⟩ := mem_of_mapM_ok h hy
  obtain ⟨catalogs, rfl⟩ := dumpEntry_ok he
  exact nofun

/-- **The dictionary export** impoverishes nothing exactly when no entry lists fewer catalogs than the
one that it replaces. -/
theorem dictionaryKept_iff (d : Db) :
    DictionaryKept path file (exportDictionaryTo path repr same file d) ↔
      DictionaryCovers path file d := by
  have hkeeps : ∀ previous fresh, readPreviousExport path file = .ok previous →
      exportDictionary d = .ok fresh →
      ((∀ x ∈ previous, ∃ y ∈ accumulate Prod.fst (fun x y => same x.2 y.2) previous fresh,
          y.1 = x.1 ∧ (entryName x.2 ≠ .null → entryName y.2 ≠ .null) ∧
            ∀ c ∈ entryCatalogs x.2, c ∈ entryCatalogs y.2) ↔
        ∀ x ∈ previous, ∀ y ∈ fresh, y.1 = x.1 →
          (entryName x.2 ≠ .null → entryName y.2 ≠ .null) ∧
            ∀ c ∈ entryCatalogs x.2, c ∈ entryCatalogs y.2) := fun previous fresh hread hfresh =>
    keeps_iff (R := fun x y => (entryName x.2 ≠ .null → entryName y.2 ≠ .null) ∧
      ∀ c ∈ entryCatalogs x.2, c ∈ entryCatalogs y.2) (fun _ => ⟨id, fun _ hc => hc⟩)
      (nodup_readPreviousExport hread) (nodup_exportDictionary hfresh)
  constructor
  · intro hkept previous fresh hread hfresh x hx y hy hcode
    obtain ⟨merged, hmerged, hall⟩ := hkept.kept previous hread
    rw [exportDictionaryTo_ok hread hfresh, readPreviousExport_obj nodup_accumulate] at hmerged
    cases hmerged
    exact ((hkeeps previous fresh hread hfresh).mp hall x hx y hy hcode).2
  · intro hcovers
    refine ⟨fun e he => exportDictionaryTo_error he, fun previous hread => ?_⟩
    cases hfresh : exportDictionary d with
    | error e =>
      rw [exportDictionaryTo_raises hfresh]
      exact ⟨previous, hread, fun x hx => ⟨x, hx, rfl, id, fun _ hc => hc⟩⟩
    | ok fresh =>
      rw [exportDictionaryTo_ok hread hfresh]
      refine ⟨_, readPreviousExport_obj nodup_accumulate, ?_⟩
      exact (hkeeps previous fresh hread hfresh).mpr fun x hx y hy hcode =>
        ⟨fun _ => entryName_exportDictionary hfresh hy,
          hcovers previous fresh hread hfresh x hx y hy hcode⟩

/-- **A second run** changes nothing. -/
theorem exportDictionaryTo_twice (d : Db) :
    exportDictionaryTo path repr same (exportDictionaryTo path repr same file d) d =
      exportDictionaryTo path repr same file d := by
  cases hfresh : exportDictionary d with
  | error e => rw [exportDictionaryTo_raises hfresh, exportDictionaryTo_raises hfresh]
  | ok fresh =>
    cases hread : readPreviousExport path file with
    | error e => rw [exportDictionaryTo_error hread, exportDictionaryTo_error hread]
    | ok previous =>
      rw [exportDictionaryTo_ok hread hfresh,
        exportDictionaryTo_ok (readPreviousExport_obj nodup_accumulate) hfresh,
        accumulate_accumulate (nodup_exportDictionary hfresh)]

/-! ## Both exports -/

/-- **Accumulative exports.** For every price file that was written, every file of the dictionary and
every database: a run keeps every key with every value that it had exactly when, of the keys that
the file has, no row of the database lacks a field that the file has, and no entry a catalog; and a
second run changes nothing. -/
theorem exports_keep_iff (repr : Value → String) (same : Value → Value → Bool) (pricePath : String)
    (priceFile : ExportFile) (hfile : PriceFile repr pricePath priceFile) (t : PriceTable columns)
    (dictionaryPath : String) (dictionaryFile : ExportFile) (d : Db) :
    ((PricesKept repr pricePath priceFile (exportPricesTo repr pricePath priceFile t) ↔
        PricesCover repr pricePath priceFile t) ∧
      exportPricesTo repr pricePath (exportPricesTo repr pricePath priceFile t) t =
        exportPricesTo repr pricePath priceFile t) ∧
    (DictionaryKept dictionaryPath dictionaryFile
        (exportDictionaryTo dictionaryPath repr same dictionaryFile d) ↔
      DictionaryCovers dictionaryPath dictionaryFile d) ∧
    exportDictionaryTo dictionaryPath repr same
        (exportDictionaryTo dictionaryPath repr same dictionaryFile d) d =
      exportDictionaryTo dictionaryPath repr same dictionaryFile d :=
  ⟨⟨pricesKept_iff hfile t, exportPricesTo_twice t⟩, dictionaryKept_iff d,
    exportDictionaryTo_twice d⟩

end Kept

/-- A table with one row, a cream with these points. -/
def creamWith (points : Option Int)
    (h : PriceColumns.sqlite.takesFields (priceFields (some "КРЕМ") (some 49900) none points) = true) :
    PriceTable .sqlite where
  rows := [⟨"a", (2026, 1, "33155"), priceFields (some "КРЕМ") (some 49900) none points⟩]
  ids := List.nodup_singleton _
  keys := List.nodup_singleton _
  taken row hrow := by
    rw [List.mem_singleton.mp hrow]
    exact ⟨show PriceColumns.sqlite.takesKey (2026, 1, "33155") = true by decide, h⟩

/-- The same cream in the file. -/
def creamRecord (points : Option Int) : PriceRecord :=
  catalogRecord "33155" (priceFields (some "КРЕМ") (some 49900) none points)

/-- A dictionary with one entry, of these catalogs. -/
def mascaraDb (catalogs : List Value) : Db :=
  { dictionary := [⟨"b", "46413", "ТУШЬ", .arr catalogs, none, none, "", ""⟩] }

/-- The file of the machine that has the points. -/
def creamFile : ExportFile :=
  exportPricesTo (fun _ => "") "prices.json" .missing (creamWith (some 3) (by decide))

theorem creamFile_written : PriceFile (fun _ => "") "prices.json" creamFile :=
  ⟨_, creamWith (some 3) (by decide), .missing, ⟨0, 1, 0, 1⟩, rfl⟩

/-- The machine that wrote the file. -/
theorem exports_keep_iff_cream :
    creamFile = .json (.arr [(creamRecord (some 3)).toValue]) ∧
    ((PricesKept (fun _ => "") "prices.json" creamFile
        (exportPricesTo (fun _ => "") "prices.json" creamFile (creamWith (some 3) (by decide))) ↔
      PricesCover (fun _ => "") "prices.json" creamFile (creamWith (some 3) (by decide))) ∧
      exportPricesTo (fun _ => "") "prices.json" (exportPricesTo (fun _ => "") "prices.json" creamFile
          (creamWith (some 3) (by decide))) (creamWith (some 3) (by decide)) =
        exportPricesTo (fun _ => "") "prices.json" creamFile (creamWith (some 3) (by decide))) :=
  ⟨rfl, (exports_keep_iff (fun _ => "") (fun _ _ => true) "prices.json" creamFile creamFile_written
    (creamWith (some 3) (by decide)) "products.json" .missing {}).1⟩

/-- **Thinner rows impoverish the file.** A machine that does not know the points writes them out of it,
and one that knows a single catalog the other one. -/
theorem not_exports_keep :
    (exportPricesTo (fun _ => "") "prices.json" creamFile (creamWith none (by decide)) =
        .json (.arr [(creamRecord none).toValue]) ∧
      ¬PricesKept (fun _ => "") "prices.json" creamFile
        (exportPricesTo (fun _ => "") "prices.json" creamFile (creamWith none (by decide)))) ∧
    ∃ file, file = exportDictionaryTo "products.json" (fun _ => "") (fun _ _ => false) .missing
        (mascaraDb [.str "01_25", .str "01_26"]) ∧
      ¬DictionaryKept "products.json" file (exportDictionaryTo "products.json" (fun _ => "")
        (fun _ _ => false) file (mascaraDb [.str "01_26"])) := by
  refine ⟨⟨rfl, fun h => ?_⟩, _, rfl, fun h => ?_⟩
  · have hcover := (pricesKept_iff creamFile_written _).mp h [creamRecord (some 3)] rfl _
      List.mem_cons_self _ List.mem_cons_self rfl .points nofun
    exact hcover rfl
  · have hcovers := (dictionaryKept_iff _).mp h _ _ rfl rfl _ List.mem_cons_self _
      List.mem_cons_self rfl (.str "01_25") List.mem_cons_self
    have hlisted : Value.str "01_25" ∈ [Value.str "01_26"] := hcovers
    exact absurd (Value.str.inj (List.mem_singleton.mp hlisted)) (by decide)

end MyOriShop
