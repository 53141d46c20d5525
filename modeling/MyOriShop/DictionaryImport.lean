import Mathlib.Data.Set.List
import MyOriShop.Exports
import MyOriShop.Rubrics

/-!
# Dictionary import: the way back of a snapshot (`scripts/import_catalogs.py`)

An export keeps a row's code, name and catalogs. An import computes the other columns again, from the
override table and the name, and puts the catalogs in order.

* `importDictionary` is `apply_dictionary_import` and the flush after it, in both modes. `overrides` is
  the override table, `same` the equality of JSON values by which the ORM sees a changed column, `now`
  the moment that a new or changed row is stamped with.
* `DictionaryRow` is a row without its id and its stamps, `RoundTrip` that importing the export into an
  empty table gives the rows back.
* `Recomputed`: a row that has what an import computes.

Results:
* `importAll_empty`: what a run leaves in an empty table.
* `sortCatalogs_self_iff`: the catalogs that sorting leaves as they are.
* `importedRow_dumpEntry_iff`: a dumped entry is read as the row it was dumped from.
* `roundTrip_iff`: a table comes back exactly when every row of it has what an import computes.
* `not_roundTrip`: a name that was edited by hand, of a code that the override table names.
-/

namespace MyOriShop

open Lib.Text Lib.Fallible
open Lib.Json (Value valueAt)
open Lib.Accumulate (put mem_dict nodup_putAll)

/-! ## Reading a payload -/

/-- The name of a value's type. -/
def typeName : Value → String
  | .null => "NoneType"
  | .bool _ => "bool"
  | .int _ => "int"
  | .float _ => "float"
  | .str _ => "str"
  | .arr _ => "list"
  | .obj _ => "dict"

/-- The text of an `AttributeError`. -/
def noAttribute (v : Value) (method : String) : String :=
  "\x27" ++ typeName v ++ "\x27 object has no attribute \x27" ++ method ++ "\x27"

/-- `parse_json_code`: `01_26` is the first catalog of 2026. -/
def parseJsonCode (code : String) : Option (Nat × Nat) :=
  match takeDecimals (stripChars code.toList) with
  | (month, '_' :: rest) =>
    match takeDecimals rest with
    | (year, []) =>
      if (month.length = 1 ∨ month.length = 2) ∧ year.length = 2 then
        some (2000 + natOfDecimals year, natOfDecimals month)
      else none
    | _ => none
  | _ => none

/-- `_sort_key` of a text. -/
def catalogKey (jsonCode : String) : Nat ×ₗ Nat := toLex ((parseJsonCode jsonCode).getD (9999, 99))

/-- `_sort_key`, which strips a text and nothing else. -/
def sortKey : Value → Except String (Nat ×ₗ Nat)
  | .str s => .ok (catalogKey s)
  | v => .error (noAttribute v "strip")

/-- A value with its key. -/
def keyed (v : Value) : Except String ((Nat ×ₗ Nat) × Value) := (sortKey v).map fun k => (k, v)

/-- `sorted(items, key=_sort_key)`. -/
def sortCatalogs (items : List Value) : Except String (List Value) :=
  (items.mapM keyed).map fun pairs =>
    (pairs.insertionSort fun a b => a.1 ≤ b.1).map Prod.snd

/-- `payload.get(key)`. -/
def payloadAt (key : String) : Value → Except String Value
  | .obj pairs => .ok (valueAt key pairs)
  | v => .error (noAttribute v "get")

/-- `(payload.get("name") or "").strip()`. -/
def payloadName (payload : Value) : Except String String := do
  let name ← payloadAt "name" payload
  if isTruthy name then
    match name with
    | .str s => return strip s
    | v => throw (noAttribute v "strip")
  else return ""

/-- `sorted(payload.get("catalogs") or [], key=_sort_key)`. -/
def payloadCatalogs (payload : Value) : Except String (List Value) := do
  let catalogs ← payloadAt "catalogs" payload
  let items ← listOf (if isTruthy catalogs then catalogs else .arr [])
  sortCatalogs items

/-! ## The import -/

/-- `text[:200]`. -/
def cutName (text : String) : String := String.ofList (text.toList.take maxName)

/-- What a row says, apart from its id and its stamps. -/
structure DictionaryRow where
  code : String
  name : String
  nameLc : Option String
  rubric : Option String
  catalogs : Value

def Dictionary.row (e : Dictionary) : DictionaryRow :=
  ⟨e.code, e.name, e.nameLc, e.rubric, e.catalogs⟩

structure ImportCounts where
  created : Nat := 0
  updated : Nat := 0
  skipped : Nat := 0
  present : Nat := 0

/-- The table during an import. -/
structure Imported where
  rows : List Dictionary
  counts : ImportCounts := {}

section Import

variable (env : Env) (overrides : Overrides) (same : Value → Value → Bool) (now : String)
  (onlyMissing : Bool)

/-- The columns that an import writes. -/
def resolvedRow (code name : String) (catalogs : List Value) : DictionaryRow where
  code := code
  name := cutName (resolveName overrides code name)
  nameLc := some (env.lower (cutName (resolveName overrides code name)))
  rubric := some (resolveRubric env.lower overrides code name)
  catalogs := .arr catalogs

/-- `build_dictionary_row`. -/
def buildDictionaryRow (id code name : String) (catalogs : List Value) : Dictionary :=
  let row := resolvedRow env overrides code name catalogs
  { id := id, code := row.code, name := row.name, catalogs := row.catalogs, nameLc := row.nameLc
    rubric := row.rubric, createdAt := now, updatedAt := now }

/-- The update of an existing row, stamped if a column changes. -/
def refreshRow (name : String) (catalogs : List Value) (e : Dictionary) : Dictionary :=
  let row := resolvedRow env overrides e.code name catalogs
  if row.name = e.name ∧ row.nameLc = e.nameLc ∧ row.rubric = e.rubric ∧ same e.catalogs row.catalogs
  then e
  else { e with
    name := row.name, nameLc := row.nameLc, rubric := row.rubric, catalogs := row.catalogs
    updatedAt := now }

/-- One code of the file; `existing` are the rows before the import. -/
def importEntry (existing : List Dictionary) (s : Imported) (entry : String × Value) :
    Except String Imported := do
  let code := strip entry.1
  let name ← payloadName entry.2
  if code = "" ∨ name = "" then
    return { s with counts := { s.counts with skipped := s.counts.skipped + 1 } }
  match existing.find? (·.code = code) with
  | some row =>
    if onlyMissing then
      return { s with counts := { s.counts with present := s.counts.present + 1 } }
    let catalogs ← payloadCatalogs entry.2
    return {
      rows := s.rows.map fun e =>
        if e.id = row.id then refreshRow env overrides same now name catalogs e else e
      counts := { s.counts with updated := s.counts.updated + 1 } }
  | none =>
    let catalogs ← payloadCatalogs entry.2
    let id := env.newId (s.rows.map Dictionary.id)
    return {
      rows := s.rows ++ [buildDictionaryRow env overrides now id code name catalogs]
      counts := { s.counts with created := s.counts.created + 1 } }

/-- `apply_dictionary_import` and the flush, which `UNIQUE(code)` may stop. -/
def importDictionary (data : List (String × Value)) (rows : List Dictionary) :
    Except String Imported := do
  let s ← data.foldlM (importEntry env overrides same now onlyMissing rows) { rows := rows }
  if (s.rows.map Dictionary.code).Nodup then return s
  else throw "UNIQUE constraint failed: dictionary.code"

/-- Importing the export into an empty table gives the rows back, in some order. -/
def RoundTrip (d : Db) : Prop :=
  ∃ fresh s, exportDictionary d = .ok fresh ∧
    importDictionary env overrides same now onlyMissing fresh [] = .ok s ∧
      (s.rows.map Dictionary.row).Perm (d.dictionary.map Dictionary.row)

/-- A row has what an import computes from its code, its name and its catalogs. -/
structure Recomputed (e : Dictionary) : Prop where
  code : strip e.code = e.code
  name : match overrideName overrides e.code with
    | none => strip e.name = e.name ∧ e.name.length ≤ maxName
    | some better => cutName better = e.name
  nameLc : e.nameLc = some (env.lower e.name)
  rubric : e.rubric = some ((overrideRubric overrides e.code).getD
    (classifyRubricByName env.lower (strip e.name)))
  catalogs : ∃ codes : List String, e.catalogs = .arr (codes.map .str) ∧
    codes.Pairwise fun a b => catalogKey a ≤ catalogKey b

/-- The row that an entry of the file is read as. -/
def importedRow (entry : String × Value) : Except String DictionaryRow := do
  let name ← payloadName entry.2
  let catalogs ← payloadCatalogs entry.2
  return resolvedRow env overrides (strip entry.1) name catalogs

end Import

variable {env : Env} {overrides : Overrides} {same : Value → Value → Bool} {now : String}
  {onlyMissing : Bool}

/-! ## A run into an empty table -/

/-- An entry that is neither blank nor nameless. -/
def NamedEntry (entry : String × Value) : Prop :=
  strip entry.1 ≠ "" ∧ ∃ name, payloadName entry.2 = .ok name ∧ name ≠ ""

theorem importEntry_empty {s : Imported} {entry : String × Value} (h : NamedEntry entry) :
    (importEntry env overrides same now onlyMissing [] s entry).map
        (fun s' => s'.rows.map Dictionary.row) =
      (importedRow env overrides entry).map fun row => s.rows.map Dictionary.row ++ [row] := by
  obtain ⟨hcode, name, hname, hnamed⟩ := h
  simp only [importEntry, importedRow, hname, ok_bind, hcode, hnamed, or_self, if_false, List.find?_nil]
  cases payloadCatalogs entry.2 with
  | error e => rfl
  | ok catalogs =>
    simp only [ok_bind]
    exact congrArg Except.ok List.map_append

/-- A run adds a row for each entry. -/
theorem importAll_empty {data : List (String × Value)} (h : ∀ entry ∈ data, NamedEntry entry)
    (s : Imported) :
    (data.foldlM (importEntry env overrides same now onlyMissing []) s).map
        (fun s' => s'.rows.map Dictionary.row) =
      (data.mapM (importedRow env overrides)).map fun rows => s.rows.map Dictionary.row ++ rows := by
  induction data generalizing s with
  | nil =>
    rw [List.mapM_nil]
    exact congrArg Except.ok (List.append_nil _).symm
  | cons entry data ih =>
    have hstep := @importEntry_empty env overrides same now onlyMissing s entry
      (h entry List.mem_cons_self)
    rw [List.foldlM_cons, List.mapM_cons]
    cases hentry : importEntry env overrides same now onlyMissing [] s entry with
    | error e =>
      rw [hentry] at hstep
      cases hrow : importedRow env overrides entry with
      | error e' =>
        rw [hrow] at hstep
        exact congrArg Except.error (Except.error.inj hstep)
      | ok row =>
        rw [hrow] at hstep
        cases hstep
    | ok s' =>
      rw [hentry] at hstep
      cases hrow : importedRow env overrides entry with
      | error e' =>
        rw [hrow] at hstep
        cases hstep
      | ok row =>
        rw [hrow] at hstep
        have hrows : s'.rows.map Dictionary.row = s.rows.map Dictionary.row ++ [row] :=
          Except.ok.inj hstep
        rw [ok_bind, ok_bind, ih (fun x hx => h x (List.mem_cons_of_mem _ hx)) s', hrows]
        cases data.mapM (importedRow env overrides) with
        | error e => rfl
        | ok rows => exact congrArg Except.ok (List.append_assoc _ [row] rows)

/-- An import into an empty table succeeds with the rows of the file, if no code repeats. -/
theorem importDictionary_empty {data : List (String × Value)} (h : ∀ entry ∈ data, NamedEntry entry)
    {rows : List DictionaryRow} (hrows : data.mapM (importedRow env overrides) = .ok rows)
    (hcodes : (rows.map DictionaryRow.code).Nodup) :
    ∃ s, importDictionary env overrides same now onlyMissing data [] = .ok s ∧
      s.rows.map Dictionary.row = rows := by
  have hall := @importAll_empty env overrides same now onlyMissing data h { rows := [] }
  rw [hrows] at hall
  cases hrun : data.foldlM (importEntry env overrides same now onlyMissing []) { rows := [] } with
  | error e =>
    rw [hrun] at hall
    cases hall
  | ok s =>
    rw [hrun] at hall
    have hs : s.rows.map Dictionary.row = rows := Except.ok.inj hall
    have hnodup : (s.rows.map Dictionary.code).Nodup := by
      have hmap : s.rows.map Dictionary.code = rows.map DictionaryRow.code := by
        rw [← hs, List.map_map]
        rfl
      rwa [hmap]
    refine ⟨s, ?_, hs⟩
    unfold importDictionary
    rw [hrun, ok_bind, if_pos hnodup]
    rfl

/-- The rows of the file are what a successful import leaves. -/
theorem importDictionary_rows {data : List (String × Value)} (h : ∀ entry ∈ data, NamedEntry entry)
    {s : Imported} (hs : importDictionary env overrides same now onlyMissing data [] = .ok s) :
    data.mapM (importedRow env overrides) = .ok (s.rows.map Dictionary.row) := by
  have hall := @importAll_empty env overrides same now onlyMissing data h { rows := [] }
  obtain ⟨s', hrun, hflush⟩ := bind_ok_iff.mp hs
  split_ifs at hflush
  cases hflush
  rw [hrun] at hall
  cases hrows : data.mapM (importedRow env overrides) with
  | error e =>
    rw [hrows] at hall
    cases hall
  | ok rows =>
    rw [hrows] at hall
    exact congrArg Except.ok (Except.ok.inj hall).symm

/-! ## One row -/

theorem keyed_ok_iff {v : Value} {pair : (Nat ×ₗ Nat) × Value} :
    keyed v = .ok pair ↔ ∃ code, v = .str code ∧ pair = (catalogKey code, .str code) := by
  unfold keyed
  constructor
  · intro h
    cases v with
    | str code =>
      cases h
      exact ⟨code, rfl, rfl⟩
    | _ => cases h
  · rintro ⟨code, rfl, rfl⟩
    rfl

/-- The order in which keyed values are sorted. -/
theorem pairwise_keyed (codes : List String) :
    (codes.map fun code => (catalogKey code, Value.str code)).Pairwise (fun a b => a.1 ≤ b.1) ↔
      codes.Pairwise fun a b => catalogKey a ≤ catalogKey b :=
  List.pairwise_map

theorem mapM_keyed (codes : List String) : (codes.map Value.str).mapM keyed =
    .ok (codes.map fun code => (catalogKey code, Value.str code)) := by
  rw [List.mapM_map]
  exact mapM_ok fun code _ => rfl

/-- Texts are sorted by their keys. -/
theorem sortCatalogs_texts (codes : List String) : sortCatalogs (codes.map .str) =
    .ok (((codes.map fun code => (catalogKey code, Value.str code)).insertionSort
      fun a b => a.1 ≤ b.1).map Prod.snd) := by
  rw [sortCatalogs, mapM_keyed]
  rfl

/-- What can be sorted is texts. -/
theorem texts_of_sortCatalogs {items sorted : List Value} (h : sortCatalogs items = .ok sorted) :
    ∃ codes : List String, items = codes.map .str := by
  cases hpairs : items.mapM keyed with
  | error e =>
    rw [sortCatalogs, hpairs] at h
    cases h
  | ok pairs =>
    have hitems : items ∈ Set.range (List.map Value.str) := by
      rw [Set.range_list_map]
      intro v hv
      obtain ⟨pair, -, hpair⟩ := mapM_ok_mem hpairs hv
      obtain ⟨code, hcode, -⟩ := keyed_ok_iff.mp hpair
      exact ⟨code, hcode.symm⟩
    obtain ⟨codes, hcodes⟩ := hitems
    exact ⟨codes, hcodes.symm⟩

/-- Sorting leaves texts that stand in order, and nothing else, as they are. -/
theorem sortCatalogs_self_iff {items : List Value} :
    sortCatalogs items = .ok items ↔ ∃ codes : List String, items = codes.map .str ∧
      codes.Pairwise fun a b => catalogKey a ≤ catalogKey b := by
  constructor
  · intro h
    obtain ⟨codes, rfl⟩ := texts_of_sortCatalogs h
    rw [sortCatalogs_texts] at h
    have hsorted := Except.ok.inj h
    set pairs := codes.map fun code => (catalogKey code, Value.str code) with hpairs
    have hperm := List.perm_insertionSort (fun a b => a.1 ≤ b.1) pairs
    have hpair : (pairs.insertionSort fun a b => a.1 ≤ b.1).Pairwise fun a b => a.1 ≤ b.1 :=
      List.pairwise_insertionSort _ pairs
    -- a pair is told by its value, so the sorted pairs are those of the codes
    have hkeys : ∀ p ∈ pairs.insertionSort fun a b => a.1 ≤ b.1, sortKey p.2 = .ok p.1 := by
      intro p hp
      obtain ⟨code, -, rfl⟩ := List.mem_map.mp (hperm.mem_iff.mp hp)
      rfl
    have hvalues : ((pairs.insertionSort fun a b => a.1 ≤ b.1).map Prod.snd).Pairwise
        fun v w => ∀ k k', sortKey v = .ok k → sortKey w = .ok k' → k ≤ k' := by
      refine List.pairwise_map.mpr (hpair.imp_of_mem fun {p q} hp hq hle k k' hk hk' => ?_)
      rw [hkeys p hp] at hk
      rw [hkeys q hq] at hk'
      cases hk
      cases hk'
      exact hle
    rw [hsorted] at hvalues
    exact ⟨codes, rfl, (List.pairwise_map.mp hvalues).imp fun hle => hle _ _ rfl rfl⟩
  · rintro ⟨codes, rfl, hsorted⟩
    rw [sortCatalogs_texts, ((pairwise_keyed codes).mpr hsorted).insertionSort_eq, List.map_map]
    rfl

/-- What a dumped entry is. -/
theorem dumpEntry_iff {e : Dictionary} {x : String × Value} :
    dumpEntry e = .ok x ↔
      ∃ items, listOf (if isTruthy e.catalogs then e.catalogs else .arr []) = .ok items ∧
        x = (e.code, .obj [("name", .str e.name), ("catalogs", .arr items)]) := by
  unfold dumpEntry
  rw [bind_ok_iff]
  refine exists_congr fun items => and_congr_right fun _ => ?_
  exact ⟨fun h => (Except.ok.inj h).symm, fun h => congrArg Except.ok h.symm⟩

/-- A list is dumped as it is. -/
theorem listOf_arr (items : List Value) :
    listOf (if isTruthy (.arr items) then .arr items else .arr []) = .ok items := by
  cases items <;> rfl

theorem payloadName_dumped (name : String) (items : List Value) :
    payloadName (.obj [("name", .str name), ("catalogs", .arr items)]) = .ok (strip name) := by
  have hname : payloadAt "name" (.obj [("name", .str name), ("catalogs", .arr items)]) =
      .ok (.str name) := rfl
  unfold payloadName
  rw [hname, ok_bind]
  by_cases hblank : name = ""
  · subst hblank
    rfl
  · have htrue : isTruthy (.str name) = true := decide_eq_true hblank
    rw [if_pos htrue]
    rfl

/-- How a dumped entry is read. -/
theorem importedRow_dumped (e : Dictionary) (items : List Value) :
    importedRow env overrides (e.code, .obj [("name", .str e.name), ("catalogs", .arr items)]) =
      (sortCatalogs items).map fun catalogs =>
        resolvedRow env overrides (strip e.code) (strip e.name) catalogs := by
  have hcatalogs : payloadCatalogs (.obj [("name", .str e.name), ("catalogs", .arr items)]) =
      sortCatalogs items := by
    have hat : payloadAt "catalogs" (.obj [("name", .str e.name), ("catalogs", .arr items)]) =
        .ok (.arr items) := rfl
    unfold payloadCatalogs
    rw [hat, ok_bind, listOf_arr, ok_bind]
  unfold importedRow
  simp only [payloadName_dumped, ok_bind, hcatalogs]
  cases sortCatalogs items <;> rfl

theorem length_stripChars_le (cs : List Char) : (stripChars cs).length ≤ cs.length := by
  unfold stripChars
  rw [List.length_reverse]
  refine (List.dropWhile_sublist _).length_le.trans ?_
  rw [List.length_reverse]
  exact (List.dropWhile_sublist _).length_le

/-- A trimmed and cut name is the name itself exactly if there was nothing to trim or to cut. -/
theorem cutName_strip_iff {name : String} :
    cutName (strip name) = name ↔ strip name = name ∧ name.length ≤ maxName := by
  constructor
  · intro h
    have hlist : (stripChars name.toList).take maxName = name.toList := by
      rw [← String.toList_ofList (l := stripChars name.toList)]
      simpa [cutName, strip] using congrArg String.toList h
    have hlen := congrArg List.length hlist
    rw [List.length_take] at hlen
    have hle := length_stripChars_le name.toList
    rw [List.take_of_length_le (by omega)] at hlist
    refine ⟨by rw [strip, hlist, String.ofList_toList], ?_⟩
    rw [← String.length_toList]
    omega
  · rintro ⟨hstrip, hshort⟩
    rw [hstrip, cutName, List.take_of_length_le (by rwa [String.length_toList]),
      String.ofList_toList]

/-- **One row** is read back exactly if it has what an import computes. -/
theorem importedRow_dumpEntry_iff {e : Dictionary} {x : String × Value} (hx : dumpEntry e = .ok x) :
    importedRow env overrides x = .ok e.row ↔ Recomputed env overrides e := by
  obtain ⟨items, hitems, rfl⟩ := dumpEntry_iff.mp hx
  rw [importedRow_dumped]
  have hname : strip e.code = e.code →
      (cutName (resolveName overrides (strip e.code) (strip e.name)) = e.name ↔
        match overrideName overrides e.code with
        | none => strip e.name = e.name ∧ e.name.length ≤ maxName
        | some better => cutName better = e.name) := by
    intro hcode
    rw [hcode, resolveName]
    cases overrideName overrides e.code with
    | none => exact cutName_strip_iff
    | some better => exact Iff.rfl
  constructor
  · intro h
    cases hsort : sortCatalogs items with
    | error error =>
      rw [hsort] at h
      cases h
    | ok catalogs =>
      rw [hsort] at h
      have hrow : resolvedRow env overrides (strip e.code) (strip e.name) catalogs = e.row :=
        Except.ok.inj h
      have hcode : strip e.code = e.code := congrArg DictionaryRow.code hrow
      have hname' := congrArg DictionaryRow.name hrow
      have hcatalogs : Value.arr catalogs = e.catalogs := congrArg DictionaryRow.catalogs hrow
      rw [← hcatalogs, listOf_arr] at hitems
      cases hitems
      obtain ⟨codes, hcodes, hsorted⟩ := sortCatalogs_self_iff.mp hsort
      refine ⟨hcode, (hname hcode).mp hname', ?_, ?_, codes, hcodes ▸ hcatalogs.symm, hsorted⟩
      · have hlower := congrArg DictionaryRow.nameLc hrow
        have hcut : cutName (resolveName overrides (strip e.code) (strip e.name)) = e.name := hname'
        rw [← hcut]
        exact hlower.symm
      · have hrubric := congrArg DictionaryRow.rubric hrow
        rw [← hcode]
        exact hrubric.symm
  · rintro ⟨hcode, hnamed, hlower, hrubric, codes, hcodes, hsorted⟩
    rw [hcodes, listOf_arr] at hitems
    cases hitems
    rw [sortCatalogs_self_iff.mpr ⟨codes, rfl, hsorted⟩]
    have hcut := (hname hcode).mpr hnamed
    rw [hcode] at hcut
    refine congrArg Except.ok ?_
    unfold resolvedRow Dictionary.row
    rw [hcode, hcut, hcodes, hlower, hrubric]
    rfl

/-! ## The table -/

/-- The rows that are dumped, in the order of their codes. -/
theorem exportDictionary_perm {d : Db} (hcodes : (d.dictionary.map Dictionary.code).Nodup) :
    ∃ sorted : List Dictionary, sorted.Perm d.dictionary ∧
      exportDictionary d = sorted.mapM dumpEntry := by
  refine ⟨_, (List.perm_insertionSort _ _).trans ?_, rfl⟩
  have hput : ((d.dictionary.foldl (put Dictionary.code) []).map Dictionary.code).Nodup :=
    nodup_putAll (by exact List.nodup_nil)
  exact (List.perm_ext_iff_of_nodup (.of_map _ hput) (.of_map _ hcodes)).mpr fun e =>
    mem_dict hcodes

/-- A code is stripped on the way back. -/
theorem code_of_importedRow {e : Dictionary} {x : String × Value} {row : DictionaryRow}
    (hx : dumpEntry e = .ok x) (hrow : importedRow env overrides x = .ok row) :
    row.code = strip e.code := by
  obtain ⟨items, -, rfl⟩ := dumpEntry_iff.mp hx
  rw [importedRow_dumped] at hrow
  cases hsort : sortCatalogs items with
  | error error =>
    rw [hsort] at hrow
    cases hrow
  | ok catalogs =>
    rw [hsort] at hrow
    cases hrow
    rfl

theorem namedEntry_dumped {e : Dictionary} {x : String × Value} (hx : dumpEntry e = .ok x)
    (hcode : strip e.code ≠ "") (hname : strip e.name ≠ "") : NamedEntry x := by
  obtain ⟨items, -, rfl⟩ := dumpEntry_iff.mp hx
  exact ⟨hcode, _, payloadName_dumped e.name items, hname⟩

section Unique

variable {d : Db} (hcodes : (d.dictionary.map Dictionary.code).Nodup)
  (hnamed : ∀ e ∈ d.dictionary, strip e.code ≠ "" ∧ strip e.name ≠ "")

include hnamed in
theorem namedEntry_of_mapM {sorted : List Dictionary} (hsorted : sorted.Perm d.dictionary)
    {fresh : List (String × Value)} (hfresh : sorted.mapM dumpEntry = .ok fresh) :
    ∀ x ∈ fresh, NamedEntry x := by
  intro x hx
  obtain ⟨e, he, hdump⟩ := mem_of_mapM_ok hfresh hx
  obtain ⟨hcode, hname⟩ := hnamed e (hsorted.mem_iff.mp he)
  exact namedEntry_dumped hdump hcode hname

include hcodes hnamed

/-- A table that comes back has only rows that an import computes. -/
theorem recomputed_of_roundTrip (h : RoundTrip env overrides same now onlyMissing d) :
    ∀ e ∈ d.dictionary, Recomputed env overrides e := by
  obtain ⟨sorted, hsorted, hexport⟩ := exportDictionary_perm hcodes
  obtain ⟨fresh, s, hfresh, hs, hperm⟩ := h
  rw [hexport] at hfresh
  have hrows := importDictionary_rows (namedEntry_of_mapM hnamed hsorted hfresh) hs
  -- every row of the table is read from some dumped row, whose code has been stripped
  have hsource : ∀ e ∈ d.dictionary, ∃ e' ∈ d.dictionary, ∃ x, dumpEntry e' = .ok x ∧
      importedRow env overrides x = .ok e.row := by
    intro e he
    obtain ⟨x, hx, hrow⟩ := mem_of_mapM_ok hrows (hperm.mem_iff.mpr (List.mem_map_of_mem he))
    obtain ⟨e', he', hdump⟩ := mem_of_mapM_ok hfresh hx
    exact ⟨e', hsorted.mem_iff.mp he', x, hdump, hrow⟩
  intro e he
  obtain ⟨e', he', x, hdump, hrow⟩ := hsource e he
  obtain ⟨e'', -, x'', hdump'', hrow''⟩ := hsource e' he'
  have hstripped : strip e'.code = e'.code := by
    rw [show e'.code = strip e''.code from code_of_importedRow hdump'' hrow'', strip_strip]
  have hsame : e'.code = e.code := hstripped.symm.trans (code_of_importedRow hdump hrow).symm
  obtain rfl := List.inj_on_of_nodup_map hcodes he' he hsame
  exact (importedRow_dumpEntry_iff hdump).mp hrow

/-- A table of rows that an import computes comes back. -/
theorem roundTrip_of_recomputed (hall : ∀ e ∈ d.dictionary, Recomputed env overrides e) :
    RoundTrip env overrides same now onlyMissing d := by
  obtain ⟨sorted, hsorted, hexport⟩ := exportDictionary_perm hcodes
  have hall' : ∀ e ∈ sorted, Recomputed env overrides e := fun e he =>
    hall e (hsorted.mem_iff.mp he)
  obtain ⟨fresh, hfresh⟩ := mapM_succeeds_iff.mpr fun e (he : e ∈ sorted) => by
    obtain ⟨codes, hcatalogs, -⟩ := (hall' e he).catalogs
    exact ⟨_, dumpEntry_iff.mpr ⟨_, hcatalogs ▸ listOf_arr _, rfl⟩⟩
  have hrows : fresh.mapM (importedRow env overrides) = .ok (sorted.map Dictionary.row) := by
    rw [mapM_ok_iff, List.forall₂_map_right_iff]
    have heach := (List.forall₂_and_left sorted fresh).mpr ⟨fun _ he => he, mapM_ok_iff.mp hfresh⟩
    exact heach.flip.imp fun x e hx => (importedRow_dumpEntry_iff hx.2).mpr (hall' e hx.1)
  have hunique : ((sorted.map Dictionary.row).map DictionaryRow.code).Nodup := by
    rw [List.map_map]
    exact (hsorted.map Dictionary.code).nodup_iff.mpr hcodes
  obtain ⟨s, hs, hback⟩ := @importDictionary_empty env overrides same now onlyMissing fresh
    (namedEntry_of_mapM hnamed hsorted hfresh) _ hrows hunique
  exact ⟨fresh, s, hexport.trans hfresh, hs, hback ▸ hsorted.map Dictionary.row⟩

end Unique

/-- **The way back.** For every table of unique codes, with no blank code and no blank name: importing
the export into an empty table gives every row back, in either mode, exactly when every row has what
an import computes of it. -/
theorem roundTrip_iff (env : Env) (overrides : Overrides) (same : Value → Value → Bool) (now : String)
    (onlyMissing : Bool) (d : Db) (hcodes : (d.dictionary.map Dictionary.code).Nodup)
    (hnamed : ∀ e ∈ d.dictionary, strip e.code ≠ "" ∧ strip e.name ≠ "") :
    RoundTrip env overrides same now onlyMissing d ↔
      ∀ e ∈ d.dictionary, Recomputed env overrides e :=
  ⟨recomputed_of_roundTrip hcodes hnamed, roundTrip_of_recomputed hcodes hnamed⟩

/-- A mascara that is named in the override table. -/
def mascaraOverrides : Overrides :=
  [("46413", ⟨[("rubric", some "Макияж"), ("name", some "тушь - роза")]⟩)]

/-- Its row, under some name. -/
def mascaraNamed (name : String) : Db :=
  { dictionary :=
      [⟨"b", "46413", name, .arr [.str "17_25", .str "01_26"], some name, some "Макияж", "", ""⟩] }

/-- The name of the override table comes back. -/
theorem roundTrip_iff_mascara : RoundTrip Env.sample mascaraOverrides (fun _ _ => true) "" false
    (mascaraNamed "тушь - роза") := by
  refine (roundTrip_iff Env.sample mascaraOverrides (fun _ _ => true) "" false
    (mascaraNamed "тушь - роза") (List.nodup_singleton _) ?_).mpr ?_
  · exact List.forall_mem_singleton.mpr (by decide)
  · refine List.forall_mem_singleton.mpr ⟨rfl, rfl, rfl, rfl, ["17_25", "01_26"], rfl, ?_⟩
    exact List.pairwise_pair.mpr (by decide)

/-- **A name edited by hand is lost.** The import puts the name of the override table in its place. -/
theorem not_roundTrip : ¬∀ (env : Env) (overrides : Overrides) (same : Value → Value → Bool)
    (now : String) (onlyMissing : Bool) (d : Db), (d.dictionary.map Dictionary.code).Nodup →
    (∀ e ∈ d.dictionary, strip e.code ≠ "" ∧ strip e.name ≠ "") →
    RoundTrip env overrides same now onlyMissing d := by
  intro hclaim
  have hcodes : ((mascaraNamed "тушь").dictionary.map Dictionary.code).Nodup :=
    List.nodup_singleton _
  have hnamed : ∀ e ∈ (mascaraNamed "тушь").dictionary, strip e.code ≠ "" ∧ strip e.name ≠ "" :=
    List.forall_mem_singleton.mpr (by decide)
  have hback := hclaim Env.sample mascaraOverrides (fun _ _ => true) "" false _ hcodes hnamed
  have hname : cutName "тушь - роза" = "тушь" :=
    (recomputed_of_roundTrip hcodes hnamed hback _ List.mem_cons_self).name
  exact absurd hname (by decide)

end MyOriShop
