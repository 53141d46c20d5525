import MyOriShop.DictionaryImport

/-!
# Master import: one price list for both helper tables (`scripts/import_master_pricelist.py`)

The script reads one sheet, a row for each code with its latest catalog, and builds the dictionary anew
of it and of the override table. The prices are only laid over those that are there. Before it deletes
anything it writes the dictionary to a file, which the other importer can add from.

* A cell is what `str` shows of it, with whether it is a number above 0. `columns`, `newId` and `chunk`
  are those of the upsert; the printed counters are left out.
* `collectPriceRows` is the sheet as it is read, `buildDictionaryRows` the new dictionary.
* `applyMasterImport` is the replacement with its guards, `masterRun` the script with its snapshot,
  `missingRun` the script with `--only-missing`.
* `Replaced` is what a run that commits leaves.

Results:
* `masterRun_ok_iff`: when a run commits.
* `importMissing_adds`: what importing a file into a table leaves, where nothing is to be updated.
* `master_import`: a run commits exactly when its guards let it, and then replaces the one table, adds to
  the other, and has nothing left to do.
* `snapshot_restores`: the file brings back every code that was deleted, and changes nothing else.
-/

namespace MyOriShop

open Lib.Text Lib.Fallible
open Lib.Json (Value)
open Lib.Accumulate (put nodup_putAll keys_put)

/-! ## The sheet -/

/-- What a cell has in it. -/
structure SheetCell where
  shown : String
  above : Bool

/-- One value of the price list. -/
structure ListedPrice where
  name : Option String
  year : Nat
  number : Nat
  consumerCents : Option Int
  consultantCents : Option Int

/-- `re.findall(r"\d+", text)`, each match by its digits. -/
def digitRuns (cs : List Char) : List (List Nat) :=
  ((cs.splitOnP fun c => (decimalDigit c).isNone).filter (· ≠ [])).map (·.filterMap decimalDigit)

/-- `parse_last_catalog`. -/
def parseLastCatalog (value : String) : Option (Nat × Nat) :=
  match digitRuns (strip value).toList with
  | first :: second :: _ =>
    let a := natOfDecimals first
    let b := natOfDecimals second
    if first.length = 4 then some (a, b)
    else if second.length = 4 then some (b, a)
    else if 17 < a then some (2000 + a, b)
    else if 17 < b then some (2000 + b, a)
    else none
  | _ => none

/-- `_cents`. -/
def cellCents (cell : Option SheetCell) : Option Int :=
  cell.bind fun c => if c.above then toCents c.shown else none

/-- `str(cell).strip()`, nothing for an empty cell. -/
def cellText (cell : Option SheetCell) : String := (cell.map fun c => strip c.shown).getD ""

/-- `EXPECTED_HEADERS`. -/
def expectedHeaders : List String := ["Код", "Название", "ДЦ", "ПЦ", "Последний каталог"]

/-- Where a row has a column. -/
def columnAt (header row : List (Option SheetCell)) (title : String) : Option SheetCell :=
  ((header.findIdx? fun c => cellText c = title).bind fun j => row[j]?).join

/-- One row below the header. -/
def collectPriceRow (header : List (Option SheetCell)) (collected : List (String × ListedPrice))
    (row : List (Option SheetCell)) : List (String × ListedPrice) :=
  let code := cellText (columnAt header row "Код")
  let name := cellText (columnAt header row "Название")
  if code = "" then collected
  else
    match (columnAt header row "Последний каталог").bind fun c => parseLastCatalog c.shown with
    | none => collected
    | some (year, number) =>
      put Prod.fst collected (code,
        { name := if name = "" then none else some (cutName name)
          year := year
          number := number
          consumerCents := cellCents (columnAt header row "ПЦ")
          consultantCents := cellCents (columnAt header row "ДЦ") })

/-- What stops the script. -/
inductive MasterStop where
  /-- A column is missing. -/
  | headers (missing : List String)
  /-- Nothing was collected. -/
  | nothing
  /-- The snapshot of the dictionary raises. -/
  | snapshot (exc : String)
  /-- `DictionaryReplaceRefused`, of an empty list. -/
  | emptyList
  /-- `DictionaryReplaceRefused`, of fewer rows than are stored. -/
  | shrink (before after : Nat)
  /-- The upsert raises. -/
  | prices (exc : PriceError)

/-- `collect_price_rows`, of the sheet's rows. -/
def collectPriceRows (header : List (Option SheetCell)) (rows : List (List (Option SheetCell))) :
    Except MasterStop (List (String × ListedPrice)) :=
  let missing := expectedHeaders.filter fun title => !header.any fun c => cellText c = title
  if missing ≠ [] then .error (.headers missing)
  else .ok (rows.foldl (collectPriceRow header) [])

/-! ## The rows -/

/-- `f"{n:02d}"`. -/
def twoDigits (n : Nat) : List Char := (if n < 10 then ['0'] else []) ++ Nat.toDigits 10 n

/-- `to_json_code`. -/
def toJsonCode (year number : Nat) : String :=
  String.ofList (twoDigits number ++ '_' :: twoDigits (year % 100))

section Rows

variable (env : Env) (overrides : Overrides) (now : String)

/-- The codes of `override_only_rows`, sorted. -/
def overrideOnlyCodes (collectedCodes : List String) : List String :=
  ((overrides.map Prod.fst).dedup.filter fun code => code ∉ collectedCodes).insertionSort (· ≤ ·)

/-- `_priceless_dictionary_row`. -/
def pricelessRow (code : String) : DictionaryRow :=
  let name := cutName (resolveName overrides code code)
  { code := code
    name := name
    nameLc := some (env.lower name)
    rubric := some (resolveRubric env.lower overrides code name)
    catalogs := .arr [] }

/-- A row of `build_dictionary_rows`. -/
def listedRow (entry : String × ListedPrice) : DictionaryRow :=
  let named := match entry.2.name with
    | some name => if name = "" then entry.1 else name
    | none => entry.1
  let name := cutName (resolveName overrides entry.1 named)
  { code := entry.1
    name := name
    nameLc := some (env.lower name)
    rubric := some (resolveRubric env.lower overrides entry.1 named)
    catalogs := .arr [.str (toJsonCode entry.2.year entry.2.number)] }

/-- `build_dictionary_rows`. -/
def buildDictionaryRows (collected : List (String × ListedPrice)) : List DictionaryRow :=
  collected.map (listedRow env overrides) ++
    (overrideOnlyCodes overrides (collected.map Prod.fst)).map (pricelessRow env overrides)

/-- A row under a new id. -/
def storeRow (rows : List Dictionary) (row : DictionaryRow) : List Dictionary :=
  rows ++ [{
    id := env.newId (rows.map Dictionary.id)
    code := row.code
    name := row.name
    catalogs := row.catalogs
    nameLc := row.nameLc
    rubric := row.rubric
    createdAt := now
    updatedAt := now }]

/-- `build_catalog_price_records`; the price list has no points. -/
def priceRecords (collected : List (String × ListedPrice)) : List PriceRecord :=
  collected.map fun entry =>
    ⟨entry.2.year, entry.2.number, entry.1,
      priceFields entry.2.name entry.2.consumerCents entry.2.consultantCents none⟩

/-! ## The runs -/

variable {columns : PriceColumns} (newId : Nat → String) (chunk : Nat) (force : Bool)

/-- `apply_master_import`. -/
def applyMasterImport (collected : List (String × ListedPrice)) (dictionary : List Dictionary)
    (t : PriceTable columns) :
    Except MasterStop (List Dictionary × PriceTable columns × UpsertStats) :=
  let rows := buildDictionaryRows env overrides collected
  if collected = [] then .error .emptyList
  else if rows.length < dictionary.length ∧ force = false then
    .error (.shrink dictionary.length rows.length)
  else
    match upsertPriceRows newId chunk t (priceRecords collected) with
    | .error e => .error (.prices e)
    | .ok (t', stats) => .ok (rows.foldl (storeRow env now) [], t', stats)

/-- What a committed run leaves, with the snapshot it has written before. -/
structure MasterOutcome (columns : PriceColumns) where
  dictionary : List Dictionary
  prices : PriceTable columns
  stats : UpsertStats
  snapshot : List (String × Value)

/-- The script. -/
def masterRun (header : List (Option SheetCell)) (rows : List (List (Option SheetCell))) (d : Db)
    (t : PriceTable columns) : Except MasterStop (MasterOutcome columns) := do
  let collected ← collectPriceRows header rows
  if collected = [] then throw .nothing
  match exportDictionary d with
  | .error e => throw (.snapshot e)
  | .ok snapshot =>
    let (dictionary, prices, stats) ←
      applyMasterImport env overrides now newId chunk force collected d.dictionary t
    return ⟨dictionary, prices, stats, snapshot⟩

/-- `insert_missing_dictionary_rows`, of the sorted codes. -/
def insertMissing (dictionary : List Dictionary) (codes : List String) : List Dictionary :=
  (codes.filter fun code => code ∉ dictionary.map Dictionary.code).foldl
    (fun rows code => storeRow env now rows (pricelessRow env overrides code)) dictionary

/-- The script with `--only-missing`. -/
def missingRun (header : List (Option SheetCell)) (rows : List (List (Option SheetCell))) (d : Db) :
    Except MasterStop (List Dictionary) := do
  let collected ← collectPriceRows header rows
  if collected = [] then throw .nothing
  return insertMissing env overrides now d.dictionary
    (overrideOnlyCodes overrides (collected.map Prod.fst))

end Rows

variable {env : Env} {overrides : Overrides} {now : String} {collected : List (String × ListedPrice)}

/-! ## The new dictionary -/

theorem nodup_collectPriceRow {header row : List (Option SheetCell)}
    (h : (collected.map Prod.fst).Nodup) :
    ((collectPriceRow header collected row).map Prod.fst).Nodup := by
  unfold collectPriceRow
  by_cases hcode : cellText (columnAt header row "Код") = ""
  · simpa only [hcode, if_true] using h
  · simp only [hcode, if_false]
    split
    · exact h
    · exact Lib.Accumulate.nodup_put h

theorem nodup_collected {header : List (Option SheetCell)} {rows : List (List (Option SheetCell))}
    (h : collectPriceRows header rows = .ok collected) : (collected.map Prod.fst).Nodup := by
  have hfold : ∀ (rows : List (List (Option SheetCell))) (c : List (String × ListedPrice)),
      (c.map Prod.fst).Nodup → ((rows.foldl (collectPriceRow header) c).map Prod.fst).Nodup := by
    intro rows
    induction rows with
    | nil => exact fun c hc => hc
    | cons row rows ih => exact fun c hc => ih _ (nodup_collectPriceRow hc)
  simp only [collectPriceRows] at h
  split_ifs at h
  cases h
  exact hfold rows [] List.nodup_nil

theorem mem_overrideOnlyCodes {codes : List String} {code : String} :
    code ∈ overrideOnlyCodes overrides codes ↔ code ∈ overrides.map Prod.fst ∧ code ∉ codes := by
  rw [overrideOnlyCodes, List.mem_insertionSort, List.mem_filter, List.mem_dedup, decide_eq_true_iff]

theorem nodup_overrideOnlyCodes (codes : List String) : (overrideOnlyCodes overrides codes).Nodup :=
  (List.perm_insertionSort _ _).nodup_iff.mpr ((List.nodup_dedup _).filter _)

theorem codes_buildDictionaryRows (collected : List (String × ListedPrice)) :
    (buildDictionaryRows env overrides collected).map DictionaryRow.code =
      collected.map Prod.fst ++ overrideOnlyCodes overrides (collected.map Prod.fst) := by
  rw [buildDictionaryRows, List.map_append, List.map_map, List.map_map]
  exact congrArg₂ _ rfl (List.map_id _)

/-- No code comes twice. -/
theorem nodup_buildDictionaryRows (h : (collected.map Prod.fst).Nodup) :
    ((buildDictionaryRows env overrides collected).map DictionaryRow.code).Nodup := by
  rw [codes_buildDictionaryRows]
  refine List.nodup_append'.mpr ⟨h, nodup_overrideOnlyCodes _, fun code hlisted honly => ?_⟩
  exact (mem_overrideOnlyCodes.mp honly).2 hlisted

/-- What is stored of rows, under new ids. -/
theorem storeRows (rows : List DictionaryRow) (before : List Dictionary)
    (hids : (before.map Dictionary.id).Nodup) :
    ((rows.foldl (storeRow env now) before).map Dictionary.id).Nodup ∧
      ∃ stored, rows.foldl (storeRow env now) before = before ++ stored ∧
        stored.map Dictionary.row = rows := by
  induction rows generalizing before with
  | nil => exact ⟨hids, [], (List.append_nil _).symm, rfl⟩
  | cons row rows ih =>
    have hnext : ((storeRow env now before row).map Dictionary.id).Nodup := by
      rw [storeRow, List.map_append, List.map_singleton]
      exact List.nodup_append'.mpr ⟨hids, List.nodup_singleton _,
        List.disjoint_singleton.mpr (env.newId (before.map Dictionary.id)).2.2⟩
    obtain ⟨hnodup, stored, hstored, hrows⟩ := ih _ hnext
    refine ⟨hnodup, _, hstored.trans (List.append_assoc _ _ _), ?_⟩
    rw [List.map_append, hrows]
    rfl

/-! ## The prices -/

section Prices

variable {columns : PriceColumns} {t t' : PriceTable columns} {records : List PriceRecord}
  {newId : Nat → String} {chunk : Nat} {stats : UpsertStats}

/-- No two records of a price list are of one triple. -/
theorem nodup_priceRecords (h : (collected.map Prod.fst).Nodup) :
    ((priceRecords collected).map PriceRecord.key).Nodup := by
  have hcodes : (((priceRecords collected).map PriceRecord.key).map fun key => key.2.2).Nodup := by
    rw [priceRecords, List.map_map, List.map_map]
    exact h
  exact hcodes.of_map

/-- The last record of a row's triple is the only one. -/
theorem eq_lastDiffering (hkeys : (records.map PriceRecord.key).Nodup) {row : CatalogPrice}
    {last r : PriceRecord} (hlast : lastDiffering row records = some last) (hr : r ∈ records)
    (hkey : r.key = row.key) : last = r := by
  have hmem := List.mem_filter.mp (List.mem_of_getLast? hlast)
  have hlastKey : last.key = row.key := by
    have hcond := hmem.2
    simp only [Bool.and_eq_true, decide_eq_true_eq] at hcond
    exact hcond.1
  exact List.inj_on_of_nodup_map hkeys hmem.1 hr (hlastKey.trans hkey.symm)

/-- Records of different triples are in nobody's way, if the columns take them. -/
theorem untangled_of_nodup (hkeys : (records.map PriceRecord.key).Nodup)
    (htaken : ∀ r ∈ records, columns.takesKey r.key = true ∧ columns.takesFields r.fields = true) :
    Untangled t records where
  taken := htaken
  once := hkeys.sublist (List.filter_sublist.map _)
  carried := by
    intro row _ last hlast r hr hkey f v hv
    rw [eq_lastDiffering hkeys hlast hr hkey]
    exact .inl hv

/-- **An upsert of different triples** goes through exactly when the columns take all of them. -/
theorem upsert_ok_iff (hchunk : 1 ≤ chunk) (hids : NewIds newId t)
    (hkeys : (records.map PriceRecord.key).Nodup) :
    (∃ t' stats, upsertPriceRows newId chunk t records = .ok (t', stats)) ↔
      ∀ r ∈ records, columns.takesKey r.key = true ∧ columns.takesFields r.fields = true := by
  refine ⟨fun ⟨t', stats, h⟩ r hr => ?_, fun h =>
    upsertPriceRows_ok hchunk hids (untangled_of_nodup hkeys h)⟩
  have hrows := (upsertPriceRows_rows hchunk h).1
  cases hstored : t.stored r.key with
  | none =>
    obtain ⟨n, hrow⟩ := newPriceRows_mem newId hr hstored
    exact t'.taken ⟨newId n, r.key, r.fields⟩ (hrows ▸ List.mem_append_right _ hrow)
  | some row =>
    obtain ⟨hrow, hkey⟩ := stored_iff.mp hstored
    have hmem : { row with fields := finalFields row records } ∈ t'.rows := by
      rw [hrows]
      exact List.mem_append_left _ (List.mem_map_of_mem hrow)
    obtain ⟨htakesKey, htakesFields⟩ := t'.taken _ hmem
    refine ⟨hkey ▸ htakesKey, takesFields_iff.mpr fun f v hv => ?_⟩
    refine takesFields_iff.mp htakesFields f v ?_
    show finalFields row records f = some v
    rw [finalFields_apply]
    cases hlast : lastDiffering row records with
    | none =>
      have hsame : differs row.fields r.fields = false := by
        have hnot := List.filter_eq_nil_iff.mp (List.getLast?_eq_none_iff.mp hlast) r hr
        simpa [hkey] using hnot
      exact differs_eq_false_iff.mp hsame f v hv
    | some last =>
      rw [eq_lastDiffering hkeys hlast hr hkey.symm]
      simp [hv]

/-- An upsert of different triples does what it is for. -/
theorem upserted_of_nodup (hchunk : 1 ≤ chunk) (hids : NewIds newId t)
    (hkeys : (records.map PriceRecord.key).Nodup)
    (h : upsertPriceRows newId chunk t records = .ok (t', stats)) :
    Upserted chunk t records t' stats :=
  upserted_of_untangled hchunk
    (untangled_of_nodup hkeys ((upsert_ok_iff hchunk hids hkeys).mp ⟨t', stats, h⟩)) h

/-- A triple that no record is of stays as it is. -/
theorem Upserted.others (h : Upserted chunk t records t' stats) {key : PriceKey}
    (hkey : ∀ r ∈ records, r.key ≠ key) : t'.contents key = t.contents key := by
  have hnone : records.filter (·.key = key) = [] :=
    List.filter_eq_nil_iff.mpr fun r hr => by simpa using hkey r hr
  rw [h.applied, applyAll_apply, hnone]
  rfl

end Prices

/-! ## A run that commits -/

section Run

variable {columns : PriceColumns} {t : PriceTable columns} {newId : Nat → String} {chunk : Nat}
  {force : Bool} {d : Db} {header : List (Option SheetCell)} {rows : List (List (Option SheetCell))}
  {out : MasterOutcome columns}

/-- **What the guards ask**: a list with something in it, a dictionary that can be written to a file
and does not shrink unless that is allowed, and values that the columns take. -/
structure MayReplace (env : Env) (overrides : Overrides) (force : Bool) (d : Db) (columns : PriceColumns)
    (collected : List (String × ListedPrice)) : Prop where
  nonempty : collected ≠ []
  dumps : ∀ e ∈ d.dictionary, ∃ x, dumpEntry e = .ok x
  grows : force = true ∨ d.dictionary.length ≤ (buildDictionaryRows env overrides collected).length
  taken : ∀ r ∈ priceRecords collected,
    columns.takesKey r.key = true ∧ columns.takesFields r.fields = true

theorem exportDictionary_ok_iff (hcodes : (d.dictionary.map Dictionary.code).Nodup) :
    (∃ snapshot, exportDictionary d = .ok snapshot) ↔ ∀ e ∈ d.dictionary, ∃ x, dumpEntry e = .ok x := by
  obtain ⟨sorted, hsorted, hexport⟩ := exportDictionary_perm hcodes
  rw [hexport, mapM_succeeds_iff]
  exact forall_congr' fun e => by rw [hsorted.mem_iff]

/-- What a run that commits has gone through. -/
theorem masterRun_iff : masterRun env overrides now newId chunk force header rows d t = .ok out ↔
    ∃ collected, collectPriceRows header rows = .ok collected ∧ collected ≠ [] ∧
      exportDictionary d = .ok out.snapshot ∧
      (force = true ∨ d.dictionary.length ≤ (buildDictionaryRows env overrides collected).length) ∧
      upsertPriceRows newId chunk t (priceRecords collected) = .ok (out.prices, out.stats) ∧
      out.dictionary = (buildDictionaryRows env overrides collected).foldl (storeRow env now) [] := by
  unfold masterRun
  rw [bind_ok_iff]
  refine exists_congr fun collected => and_congr_right fun _ => ?_
  by_cases hempty : collected = []
  · refine iff_of_false (fun h => ?_) fun h => h.1 hempty
    rw [if_pos hempty] at h
    cases h
  rw [if_neg hempty]
  cases hsnapshot : exportDictionary d with
  | error e => exact iff_of_false (fun h => nomatch h) fun h => nomatch h.2.1
  | ok snapshot =>
    simp only [applyMasterImport, hempty, if_false]
    by_cases hshrink : (buildDictionaryRows env overrides collected).length < d.dictionary.length ∧
        force = false
    · rw [if_pos hshrink]
      refine iff_of_false (fun h => nomatch h) fun h => ?_
      rcases h.2.2.1 with hforce | hle
      · exact absurd (hforce.symm.trans hshrink.2) (by decide)
      · omega
    · rw [if_neg hshrink]
      have hgrows : force = true ∨
          d.dictionary.length ≤ (buildDictionaryRows env overrides collected).length := by
        cases force with
        | true => exact .inl rfl
        | false => exact .inr (not_lt.mp fun hlt => hshrink ⟨hlt, rfl⟩)
      cases upsertPriceRows newId chunk t (priceRecords collected) with
      | error e => exact iff_of_false (fun h => nomatch h) fun h => nomatch h.2.2.2.1
      | ok done =>
        obtain ⟨prices, stats⟩ := done
        constructor
        · intro h
          cases h
          exact ⟨hempty, rfl, hgrows, rfl, rfl⟩
        · rintro ⟨-, hsnap, -, hprices, hdictionary⟩
          obtain ⟨dictionary, prices', stats', snapshot'⟩ := out
          cases hsnap
          cases hprices
          cases hdictionary
          rfl

/-- **When a run commits.** -/
theorem masterRun_ok_iff (hchunk : 1 ≤ chunk) (hids : NewIds newId t)
    (hcodes : (d.dictionary.map Dictionary.code).Nodup) :
    (∃ out, masterRun env overrides now newId chunk force header rows d t = .ok out) ↔
      ∃ collected, collectPriceRows header rows = .ok collected ∧
        MayReplace env overrides force d columns collected := by
  constructor
  · rintro ⟨out, h⟩
    obtain ⟨collected, hcollected, hne, hsnapshot, hgrows, hprices, -⟩ := masterRun_iff.mp h
    exact ⟨collected, hcollected, hne, (exportDictionary_ok_iff hcodes).mp ⟨_, hsnapshot⟩, hgrows,
      (upsert_ok_iff hchunk hids (nodup_priceRecords (nodup_collected hcollected))).mp
        ⟨_, _, hprices⟩⟩
  · rintro ⟨collected, hcollected, h⟩
    obtain ⟨snapshot, hsnapshot⟩ := (exportDictionary_ok_iff hcodes).mpr h.dumps
    obtain ⟨prices, stats, hprices⟩ :=
      (upsert_ok_iff hchunk hids (nodup_priceRecords (nodup_collected hcollected))).mpr h.taken
    exact ⟨⟨_, prices, stats, snapshot⟩,
      masterRun_iff.mpr ⟨collected, hcollected, h.nonempty, hsnapshot, h.grows, hprices, rfl⟩⟩

/-- **What a run leaves**: in the dictionary, a row for each code of the list and for each that only the
override table has, never fewer rows than there were unless that is allowed; of the prices, the
list's laid over those that were there, and no points changed. Run again, it changes nothing. -/
structure Replaced (env : Env) (overrides : Overrides) (chunk : Nat) (force : Bool)
    (header : List (Option SheetCell)) (rows : List (List (Option SheetCell)))
    (collected : List (String × ListedPrice)) (d : Db) (t : PriceTable columns)
    (out : MasterOutcome columns) : Prop where
  dictionary : out.dictionary.map Dictionary.row = buildDictionaryRows env overrides collected
  codes : (out.dictionary.map Dictionary.code).Nodup
  ids : (out.dictionary.map Dictionary.id).Nodup
  grown : force = false → d.dictionary.length ≤ out.dictionary.length
  prices : Upserted chunk t (priceRecords collected) out.prices out.stats
  others : ∀ key, (∀ r ∈ priceRecords collected, r.key ≠ key) →
    out.prices.contents key = t.contents key
  points : ∀ row ∈ t.rows, ∃ row' ∈ out.prices.rows, row'.key = row.key ∧
    row'.fields .points = row.fields .points
  again : ∀ now newId force, ∃ dictionary snapshot,
    masterRun env overrides now newId chunk force header rows { d with dictionary := out.dictionary }
        out.prices =
      .ok ⟨dictionary, out.prices, ⟨0, 0, (priceRecords collected).length⟩, snapshot⟩ ∧
    dictionary.map Dictionary.row = out.dictionary.map Dictionary.row

/-- The price list has no points, so that it changes none. -/
theorem Upserted.points {prices : PriceTable columns} {stats : UpsertStats}
    (h : Upserted chunk t (priceRecords collected) prices stats) {row : CatalogPrice}
    (hrow : row ∈ t.rows) : ∃ row' ∈ prices.rows, row'.key = row.key ∧
      row'.fields .points = row.fields .points := by
  have hbefore : t.contents row.key = some row.fields :=
    congrArg (Option.map CatalogPrice.fields) (stored_iff.mpr ⟨hrow, rfl⟩)
  obtain ⟨fields, hfields, hcases⟩ :=
    applyAll_fields ((priceRecords collected).filter (·.key = row.key)) row.fields
  have hafter : prices.contents row.key = some fields := by
    rw [h.applied, applyAll_apply, hbefore]
    exact hfields
  obtain ⟨row', hrow', hsame⟩ := Option.map_eq_some_iff.mp hafter
  obtain ⟨hmem, hkey⟩ := stored_iff.mp hrow'
  refine ⟨row', hmem, hkey, ?_⟩
  rw [hsame]
  refine (hcases .points).elim (fun ⟨r, hr, v, hv, _⟩ => ?_) And.right
  obtain ⟨entry, -, rfl⟩ := List.mem_map.mp (List.mem_of_mem_filter hr)
  cases hv

/-- The new dictionary can be written to a file again. -/
theorem dumps_buildDictionaryRows {row : DictionaryRow}
    (h : row ∈ buildDictionaryRows env overrides collected) :
    ∃ codes : List String, row.catalogs = .arr (codes.map .str) := by
  rcases List.mem_append.mp h with h | h
  · obtain ⟨entry, -, rfl⟩ := List.mem_map.mp h
    exact ⟨[toJsonCode entry.2.year entry.2.number], rfl⟩
  · obtain ⟨code, -, rfl⟩ := List.mem_map.mp h
    exact ⟨[], rfl⟩

theorem dumpEntry_arr {e : Dictionary} {codes : List String} (h : e.catalogs = .arr (codes.map .str)) :
    dumpEntry e = .ok (e.code, .obj [("name", .str e.name), ("catalogs", .arr (codes.map .str))]) :=
  dumpEntry_iff.mpr ⟨_, h ▸ listOf_arr _, rfl⟩

theorem replaced (hchunk : 1 ≤ chunk) (hids : NewIds newId t)
    (hcollected : collectPriceRows header rows = .ok collected)
    (h : masterRun env overrides now newId chunk force header rows d t = .ok out) :
    Replaced env overrides chunk force header rows collected d t out := by
  obtain ⟨collected', hcollected', hne, hsnapshot, hgrows, hprices, hdictionary⟩ := masterRun_iff.mp h
  obtain rfl : collected' = collected := Except.ok.inj (hcollected'.symm.trans hcollected)
  have hnodup := nodup_collected hcollected
  obtain ⟨hstoredIds, stored, hstored, hrows⟩ :=
    storeRows (buildDictionaryRows env overrides collected') [] List.nodup_nil
  rw [← hdictionary] at hstoredIds hstored
  rw [List.nil_append] at hstored
  subst hstored
  have hcodes : (out.dictionary.map Dictionary.code).Nodup := by
    have hmap : out.dictionary.map Dictionary.code =
        (buildDictionaryRows env overrides collected').map DictionaryRow.code := by
      rw [← hrows, List.map_map]
      rfl
    rw [hmap]
    exact nodup_buildDictionaryRows hnodup
  have hupserted := upserted_of_nodup hchunk hids (nodup_priceRecords hnodup) hprices
  have hlength : out.dictionary.length = (buildDictionaryRows env overrides collected').length := by
    rw [← hrows, List.length_map]
  refine ⟨hrows, hcodes, hstoredIds, fun hforce => ?_, hupserted, fun key => hupserted.others,
    fun row => hupserted.points, fun now' newId' force' => ?_⟩
  · rw [hlength]
    exact hgrows.resolve_left (by simp [hforce])
  · have hdumps : ∀ e ∈ out.dictionary, ∃ x, dumpEntry e = .ok x := fun e he => by
      obtain ⟨codes, hcatalogs⟩ := dumps_buildDictionaryRows (hrows ▸ List.mem_map_of_mem he)
      exact ⟨_, dumpEntry_arr hcatalogs⟩
    obtain ⟨snapshot, hagain⟩ :=
      (exportDictionary_ok_iff (d := { d with dictionary := out.dictionary }) hcodes).mpr hdumps
    refine ⟨_, snapshot, masterRun_iff.mpr ⟨collected', hcollected, hne, hagain, .inr hlength.le,
      hupserted.again newId', rfl⟩, ?_⟩
    obtain ⟨-, stored', hstored', hrows'⟩ :=
      storeRows (buildDictionaryRows env overrides collected') [] List.nodup_nil
    rw [hstored', List.nil_append, hrows', hrows]

/-- With `--only-missing` the rows that are there stay, and those of the missing codes come after
them. -/
theorem missingRun_adds {base : Database} {dictionary : List Dictionary}
    (h : missingRun env overrides now header rows base.db = .ok dictionary) :
    ∃ collected added, collectPriceRows header rows = .ok collected ∧
      dictionary = base.db.dictionary ++ added ∧ (dictionary.map Dictionary.code).Nodup ∧
      added.map Dictionary.row = ((overrideOnlyCodes overrides (collected.map Prod.fst)).filter
        fun code => code ∉ base.db.dictionary.map Dictionary.code).map (pricelessRow env overrides) := by
  obtain ⟨collected, hcollected, h⟩ := bind_ok_iff.mp h
  by_cases hempty : collected = []
  · rw [if_pos hempty] at h
    cases h
  rw [if_neg hempty] at h
  cases h
  obtain ⟨-, added, hadded, hrows⟩ := @storeRows env now
    (((overrideOnlyCodes overrides (collected.map Prod.fst)).filter fun code =>
      code ∉ base.db.dictionary.map Dictionary.code).map (pricelessRow env overrides))
    base.db.dictionary (base.ok.nodup .dictionary)
  rw [List.foldl_map] at hadded
  refine ⟨collected, added, hcollected, hadded, ?_, hrows⟩
  have hcodes : added.map Dictionary.code = (overrideOnlyCodes overrides (collected.map Prod.fst)).filter
      fun code => code ∉ base.db.dictionary.map Dictionary.code := by
    have hmap := congrArg (List.map DictionaryRow.code) hrows
    rw [List.map_map, List.map_map] at hmap
    exact hmap.trans (List.map_id _)
  rw [insertMissing, hadded, List.map_append, hcodes]
  refine List.nodup_append'.mpr ⟨base.ok.dictionaryCode, (nodup_overrideOnlyCodes _).filter _, ?_⟩
  exact fun code hold hnew => of_decide_eq_true (List.mem_filter.mp hnew).2 hold

/-- **The import of a price list.** It commits exactly when its guards let it; then it has replaced the
dictionary and laid its prices over the others, and a second run has nothing to do. The other mode only
adds to the dictionary. -/
theorem master_import (env : Env) (overrides : Overrides) (now : String) (newId : Nat → String)
    (chunk : Nat) (force : Bool) (header : List (Option SheetCell))
    (rows : List (List (Option SheetCell))) (base : Database) {columns : PriceColumns}
    (t : PriceTable columns) (hchunk : 1 ≤ chunk) (hids : NewIds newId t) :
    ((∃ out, masterRun env overrides now newId chunk force header rows base.db t = .ok out) ↔
      ∃ collected, collectPriceRows header rows = .ok collected ∧
        MayReplace env overrides force base.db columns collected) ∧
    (∀ out collected, collectPriceRows header rows = .ok collected →
      masterRun env overrides now newId chunk force header rows base.db t = .ok out →
      Replaced env overrides chunk force header rows collected base.db t out) ∧
    ∀ dictionary, missingRun env overrides now header rows base.db = .ok dictionary →
      ∃ collected added, collectPriceRows header rows = .ok collected ∧
        dictionary = base.db.dictionary ++ added ∧ (dictionary.map Dictionary.code).Nodup ∧
        added.map Dictionary.row = ((overrideOnlyCodes overrides (collected.map Prod.fst)).filter
          fun code => code ∉ base.db.dictionary.map Dictionary.code).map (pricelessRow env overrides) :=
  ⟨masterRun_ok_iff hchunk hids base.ok.dictionaryCode, fun _ _ => replaced hchunk hids,
    fun _ => missingRun_adds⟩

end Run

/-- A cell with a number. -/
def numberCell (shown : String) : Option SheetCell := some ⟨shown, true⟩

/-- A cell with a text. -/
def textCell (shown : String) : Option SheetCell := some ⟨shown, false⟩

def mascaraHeader : List (Option SheetCell) := expectedHeaders.map textCell

/-- A mascara, and a row whose catalog is none. -/
def mascaraSheet : List (List (Option SheetCell)) :=
  [[numberCell "46413", textCell "ТУШЬ", numberCell "299.5", numberCell "399", textCell "17-2021"],
    [numberCell "33155", textCell "КРЕМ", numberCell "1", numberCell "2", none]]

theorem collect_mascara : collectPriceRows mascaraHeader mascaraSheet =
    .ok [("46413", ⟨some "ТУШЬ", 2021, 17, some 39900, some 29950⟩)] := by
  rfl

theorem master_import_mascara :
    ∃ out, masterRun Env.sample [] "" numberedId 1 false mascaraHeader mascaraSheet {} creamTable =
        .ok out ∧
      out.dictionary.map Dictionary.row = buildDictionaryRows Env.sample []
        [("46413", ⟨some "ТУШЬ", 2021, 17, some 39900, some 29950⟩)] := by
  have himport := master_import Env.sample [] "" numberedId 1 false mascaraHeader mascaraSheet
    ⟨{}, by decide⟩ creamTable (by decide) newIds_cream
  obtain ⟨out, hout⟩ := himport.1.mpr ⟨_, collect_mascara,
    ⟨by decide, fun _ h => absurd h List.not_mem_nil, .inr (Nat.zero_le _), by decide⟩⟩
  exact ⟨out, hout, (himport.2.1 out _ collect_mascara hout).dictionary⟩

/-! ## The way back of the snapshot -/

/-- A row that the other importer reads: a code and a name that are not blank, the code without spaces
around it, and catalogs that are texts. -/
structure ImportableEntry (e : Dictionary) : Prop where
  code : strip e.code = e.code
  coded : e.code ≠ ""
  named : strip e.name ≠ ""
  catalogs : ∃ codes : List String, e.catalogs = .arr (codes.map .str)

section Restore

variable {same : Value → Value → Bool} {existing : List Dictionary}

/-- One dumped row, where nothing is to be updated. -/
theorem importEntry_missing {e : Dictionary} (h : ImportableEntry e) {x : String × Value}
    (hx : dumpEntry e = .ok x) (s : Imported) :
    ∃ s', importEntry env overrides same now true existing s x = .ok s' ∧
      ∃ added, s'.rows = s.rows ++ added ∧
        added.map Dictionary.code = [e.code].filter (fun code => code ∉ existing.map Dictionary.code) ∧
        ∀ row ∈ added, row.code = e.code ∧ importedRow env overrides x = .ok row.row := by
  obtain ⟨codes, hcatalogs⟩ := h.catalogs
  obtain rfl := Except.ok.inj ((dumpEntry_arr hcatalogs).symm.trans hx)
  have hat : payloadAt "catalogs" (.obj [("name", .str e.name), ("catalogs", .arr (codes.map .str))]) =
      .ok (.arr (codes.map .str)) := rfl
  have hread : payloadCatalogs (.obj [("name", .str e.name), ("catalogs", .arr (codes.map .str))]) =
      sortCatalogs (codes.map .str) := by
    rw [payloadCatalogs, hat, ok_bind, listOf_arr, ok_bind]
  have himported := @importedRow_dumped env overrides e (codes.map .str)
  rw [sortCatalogs_texts] at hread himported
  simp only [importEntry, payloadName_dumped, ok_bind, h.code, h.coded, h.named, or_self, if_false]
  cases hfind : existing.find? fun r => r.code = e.code with
  | some row =>
    have hmem : e.code ∈ existing.map Dictionary.code :=
      List.mem_map.mpr ⟨row, List.mem_of_find?_eq_some hfind, by simpa using List.find?_some hfind⟩
    refine ⟨_, rfl, [], (List.append_nil _).symm, ?_, fun _ h => absurd h List.not_mem_nil⟩
    rw [List.filter_cons_of_neg (by simpa using hmem)]
    rfl
  | none =>
    have hnew : e.code ∉ existing.map Dictionary.code := fun hmem => by
      obtain ⟨row, hrow, hcode⟩ := List.mem_map.mp hmem
      exact absurd hcode (by simpa using List.find?_eq_none.mp hfind row hrow)
    simp only [hread, ok_bind]
    refine ⟨_, rfl, _, rfl, ?_, fun row hrow => ?_⟩
    · rw [List.filter_cons_of_pos (by simpa using hnew)]
      rfl
    · rw [List.mem_singleton.mp hrow, himported, h.code]
      exact ⟨rfl, rfl⟩

/-- **A file laid under a table**: the rows of the codes that the table lacks come at its end. -/
theorem importMissing_adds {sorted : List Dictionary} (h : ∀ e ∈ sorted, ImportableEntry e)
    {data : List (String × Value)} (hdata : sorted.mapM dumpEntry = .ok data) (s : Imported) :
    ∃ s', data.foldlM (importEntry env overrides same now true existing) s = .ok s' ∧
      ∃ added, s'.rows = s.rows ++ added ∧
        added.map Dictionary.code =
          (sorted.map Dictionary.code).filter (fun code => code ∉ existing.map Dictionary.code) ∧
        ∀ row ∈ added, ∃ e ∈ sorted, ∃ x, dumpEntry e = .ok x ∧ row.code = e.code ∧
          importedRow env overrides x = .ok row.row := by
  induction sorted generalizing data s with
  | nil =>
    cases hdata
    exact ⟨s, rfl, [], (List.append_nil _).symm, rfl, fun _ h => absurd h List.not_mem_nil⟩
  | cons e sorted ih =>
    obtain ⟨he, hsorted⟩ := List.forall_mem_cons.mp h
    rw [List.mapM_cons] at hdata
    obtain ⟨x, hx, hdata⟩ := bind_ok_iff.mp hdata
    obtain ⟨data', hdata', hcons⟩ := bind_ok_iff.mp hdata
    cases hcons
    obtain ⟨s₁, hs₁, added₁, hrows₁, hcodes₁, hfrom₁⟩ := importEntry_missing he hx s
    obtain ⟨s₂, hs₂, added₂, hrows₂, hcodes₂, hfrom₂⟩ := ih hsorted hdata' s₁
    refine ⟨s₂, ?_, added₁ ++ added₂, ?_, ?_, ?_⟩
    · rw [List.foldlM_cons, hs₁, ok_bind, hs₂]
    · rw [hrows₂, hrows₁, List.append_assoc]
    · rw [List.map_append, hcodes₁, hcodes₂, ← List.filter_append]
      rfl
    · intro row hrow
      rcases List.mem_append.mp hrow with hrow | hrow
      · exact ⟨e, List.mem_cons_self, x, hx, hfrom₁ row hrow⟩
      · obtain ⟨e', he', hfrom⟩ := hfrom₂ row hrow
        exact ⟨e', List.mem_cons_of_mem _ he', hfrom⟩

end Restore

/-- **The way back of a replacement.** What the other importer adds of the snapshot, into the dictionary
that the price list has made: a row for each code that was deleted, after the rows that are there and
that stay as they are. A deleted row that had what an import computes is the same again. -/
theorem snapshot_restores (env env' : Env) (overrides : Overrides) (now now' : String)
    (newId : Nat → String) (chunk : Nat) (force : Bool) (header : List (Option SheetCell))
    (rows : List (List (Option SheetCell))) (base : Database) {columns : PriceColumns}
    (t : PriceTable columns) (same : Value → Value → Bool) (out : MasterOutcome columns)
    (h : masterRun env overrides now newId chunk force header rows base.db t = .ok out)
    (himportable : ∀ e ∈ base.db.dictionary, ImportableEntry e) :
    ∃ s added, importDictionary env' overrides same now' true out.snapshot out.dictionary = .ok s ∧
      s.rows = out.dictionary ++ added ∧
      (added.map Dictionary.code).Perm ((base.db.dictionary.map Dictionary.code).filter fun code =>
        code ∉ out.dictionary.map Dictionary.code) ∧
      ∀ row ∈ added, ∃ e ∈ base.db.dictionary, row.code = e.code ∧
        (Recomputed env' overrides e → row.row = e.row) := by
  obtain ⟨collected, hcollected, -, hsnapshot, -, -, hdictionary⟩ := masterRun_iff.mp h
  obtain ⟨sorted, hsorted, hexport⟩ := exportDictionary_perm base.ok.dictionaryCode
  rw [hexport] at hsnapshot
  obtain ⟨s, hs, added, hrows, hcodes, hfrom⟩ := @importMissing_adds env' overrides now' same
    out.dictionary sorted (fun e he => himportable e (hsorted.mem_iff.mp he)) out.snapshot hsnapshot
    { rows := out.dictionary }
  have hnodup : (s.rows.map Dictionary.code).Nodup := by
    obtain ⟨-, stored, hstored, hstoredRows⟩ := @storeRows env now
      (buildDictionaryRows env overrides collected) [] List.nodup_nil
    have hnew : (out.dictionary.map Dictionary.code).Nodup := by
      have hmap : out.dictionary.map Dictionary.code =
          (buildDictionaryRows env overrides collected).map DictionaryRow.code := by
        rw [hdictionary, hstored, List.nil_append, ← hstoredRows, List.map_map]
        rfl
      rw [hmap]
      exact nodup_buildDictionaryRows (nodup_collected hcollected)
    rw [hrows, List.map_append, hcodes]
    refine List.nodup_append'.mpr ⟨hnew, ?_, fun code hold hadded => ?_⟩
    · exact ((hsorted.map Dictionary.code).nodup_iff.mpr base.ok.dictionaryCode).filter _
    · exact of_decide_eq_true (List.mem_filter.mp hadded).2 hold
  refine ⟨s, added, ?_, hrows, ?_, fun row hrow => ?_⟩
  · rw [importDictionary, hs, ok_bind, if_pos hnodup]
    rfl
  · rw [hcodes]
    exact (hsorted.map Dictionary.code).filter _
  · obtain ⟨e, he, x, hx, hcode, hread⟩ := hfrom row hrow
    refine ⟨e, hsorted.mem_iff.mp he, hcode, fun hrecomputed => ?_⟩
    exact Except.ok.inj (hread.symm.trans ((importedRow_dumpEntry_iff hx).mpr hrecomputed))

/-- A dictionary with a cream, which the sheet does not list. -/
def creamDictionary : Db where
  dictionary := [⟨"x", "33155", "Крем", .arr [.str "01_20"], none, none, "", ""⟩]

theorem snapshot_restores_cream : ∃ out s,
    masterRun Env.sample [] "" numberedId 1 false mascaraHeader mascaraSheet creamDictionary creamTable =
        .ok out ∧
      importDictionary Env.sample [] (fun _ _ => true) "" true out.snapshot out.dictionary = .ok s ∧
      s.rows.map Dictionary.code = ["46413", "33155"] := by
  have hok : creamDictionary.Ok := by decide
  have himportable : ∀ e ∈ creamDictionary.dictionary, ImportableEntry e :=
    List.forall_mem_singleton.mpr ⟨by decide, by decide, by decide, ["01_20"], rfl⟩
  have hdumps : ∀ e ∈ creamDictionary.dictionary, ∃ x, dumpEntry e = .ok x := fun e he => by
    obtain ⟨codes, hcatalogs⟩ := (himportable e he).catalogs
    exact ⟨_, dumpEntry_arr hcatalogs⟩
  obtain ⟨out, hout⟩ := (@masterRun_ok_iff Env.sample [] "" _ creamTable numberedId 1 false
    creamDictionary mascaraHeader mascaraSheet (by decide) newIds_cream hok.dictionaryCode).mpr
    ⟨_, collect_mascara, by decide, hdumps, .inr (by decide), by decide⟩
  obtain ⟨s, added, hs, hrows, hcodes, -⟩ := snapshot_restores Env.sample Env.sample [] "" "" numberedId 1
    false mascaraHeader mascaraSheet ⟨creamDictionary, hok⟩ creamTable (fun _ _ => true) out hout
    himportable
  have hnew : out.dictionary.map Dictionary.code = ["46413"] := by
    obtain ⟨collected, hcollected, -, -, -, -, hdictionary⟩ := masterRun_iff.mp hout
    obtain rfl := Except.ok.inj (collect_mascara.symm.trans hcollected)
    rw [hdictionary]
    rfl
  refine ⟨out, s, hout, hs, ?_⟩
  rw [hrows, List.map_append, hnew]
  rw [hnew] at hcodes
  exact congrArg _ (List.perm_singleton.mp hcodes)

end MyOriShop
