import Mathlib.Logic.Function.Basic
import MyOriShop.Lib.Overlay
import MyOriShop.PriceRecords

/-!
# PriceUpsert: the one writer of the price history (`scripts/import_prices.py`)

`upsert_price_rows` reads the stored rows once, compares every record with them, and then writes the
new rows and the changed ones in chunks. What one record of the list is to do to the row of another
it does not see.

* `PriceTable` is `catalog_prices`: the ids and the triples are unique, the columns take the values.
* `upsertPriceRows` is `upsert_price_rows`, `applyRecord` its merge rule for one record on a table
  that is seen as a map (`contents`).
* `Upserted`: the outcome is that of the records one after another, and a repeat finds nothing to do.
* `Settled`: what a list must be like for that.

`created_at` and `updated_at` are left out.

Results:
* `upsertPriceRows_eq`: the chunks do not matter.
* `insertPrices_ok_iff`, `updatePrices_ok`: what the statements leave.
* `upsertPriceRows_iff`: the upsert does what it is for exactly for settled lists.
* `not_upserted`: a new triple that is given twice, and a stored one whose second record undoes what
  the first one brought.
-/

namespace MyOriShop

open Lib.Json (Value)
open Lib.Fallible

/-! ## The table -/

/-- A row of `catalog_prices`. -/
structure CatalogPrice where
  id : String
  key : PriceKey
  fields : PriceFields

/-- What the columns take: SQLite binds integers of 64 bits, PostgreSQL has a length for the texts. -/
structure PriceColumns where
  integer : Int → Bool
  code : String → Bool
  name : String → Bool

namespace PriceColumns

variable (columns : PriceColumns)

def cell : (f : MutableField) → f.Cell → Bool
  | .name, s => columns.name s
  | .consumerCents, n | .consultantCents, n | .points, n => columns.integer n

/-- NULL is taken. -/
def takesFields (fields : PriceFields) : Bool :=
  mutableFields.all fun f => (fields f).all (columns.cell f)

def takesKey (key : PriceKey) : Bool :=
  columns.integer key.1 && columns.integer key.2.1 && columns.code key.2.2

end PriceColumns

/-- The table, with its constraints. -/
structure PriceTable (columns : PriceColumns) where
  rows : List CatalogPrice
  ids : (rows.map CatalogPrice.id).Nodup
  keys : (rows.map CatalogPrice.key).Nodup
  taken : ∀ row ∈ rows, columns.takesKey row.key = true ∧ columns.takesFields row.fields = true

/-- What a statement raises. -/
inductive PriceError where
  /-- `IntegrityError`. -/
  | integrity
  /-- A value that the driver or the column does not take. -/
  | value

/-- An update of the fields, if the row is the one. -/
def CatalogPrice.set (row : CatalogPrice) (id : String) (fields : PriceFields) : CatalogPrice :=
  if row.id = id then { row with fields } else row

section Table

variable {columns : PriceColumns}

/-- `INSERT`. -/
def PriceTable.insert (t : PriceTable columns) (row : CatalogPrice) :
    Except PriceError (PriceTable columns) :=
  if htaken : columns.takesKey row.key = true ∧ columns.takesFields row.fields = true then
    if hnew : row.id ∉ t.rows.map CatalogPrice.id ∧ row.key ∉ t.rows.map CatalogPrice.key then
      .ok {
        rows := t.rows ++ [row]
        ids := by
          rw [List.map_append, List.map_singleton]
          exact List.nodup_append_comm.mp (List.nodup_cons.mpr ⟨hnew.1, t.ids⟩)
        keys := by
          rw [List.map_append, List.map_singleton]
          exact List.nodup_append_comm.mp (List.nodup_cons.mpr ⟨hnew.2, t.keys⟩)
        taken := fun r hr => (List.mem_append.mp hr).elim (t.taken r) fun hr => by
          rw [List.mem_singleton.mp hr]
          exact htaken }
    else .error .integrity
  else .error .value

@[simp] theorem CatalogPrice.set_id (row : CatalogPrice) (id : String) (fields : PriceFields) :
    (row.set id fields).id = row.id := by
  unfold CatalogPrice.set
  split_ifs <;> rfl

@[simp] theorem CatalogPrice.set_key (row : CatalogPrice) (id : String) (fields : PriceFields) :
    (row.set id fields).key = row.key := by
  unfold CatalogPrice.set
  split_ifs <;> rfl

/-- `UPDATE … WHERE id = :id`. -/
def PriceTable.update (t : PriceTable columns) (id : String) (fields : PriceFields) :
    Except PriceError (PriceTable columns) :=
  if htaken : columns.takesFields fields = true then
    .ok {
      rows := t.rows.map fun row => row.set id fields
      ids := by
        rw [List.map_map, show CatalogPrice.id ∘ (fun row => row.set id fields) = CatalogPrice.id
          from funext fun row => row.set_id id fields]
        exact t.ids
      keys := by
        rw [List.map_map, show CatalogPrice.key ∘ (fun row => row.set id fields) = CatalogPrice.key
          from funext fun row => row.set_key id fields]
        exact t.keys
      taken := by
        intro r hr
        obtain ⟨row, hrow, rfl⟩ := List.mem_map.mp hr
        rw [row.set_key id fields]
        refine ⟨(t.taken row hrow).1, ?_⟩
        unfold CatalogPrice.set
        split_ifs
        · exact htaken
        · exact (t.taken row hrow).2 }
  else .error .value

/-- `stored.get(key)`. -/
def PriceTable.stored (t : PriceTable columns) (key : PriceKey) : Option CatalogPrice :=
  t.rows.find? (·.key = key)

end Table

/-! ## `upsert_price_rows` -/

/-- The fields after a record: the incoming value where there is one and it differs. -/
def mergedFields (current incoming : PriceFields) : PriceFields := fun f =>
  if incoming f ≠ none ∧ incoming f ≠ current f then incoming f else current f

def differs (current incoming : PriceFields) : Bool :=
  mutableFields.any fun f => incoming f ≠ none ∧ incoming f ≠ current f

/-- What the comparison collects. -/
structure Collected where
  fresh : List PriceRecord := []
  changed : List (String × PriceFields) := []
  unchanged : Nat := 0

structure UpsertStats where
  inserted : Nat := 0
  updated : Nat := 0
  unchanged : Nat := 0

section Upsert

variable {columns : PriceColumns} (newId : Nat → String) (chunk : Nat) (t : PriceTable columns)

def collect (c : Collected) (record : PriceRecord) : Collected :=
  match t.stored record.key with
  | none => { c with fresh := c.fresh ++ [record] }
  | some row =>
    if differs row.fields record.fields then
      { c with changed := c.changed ++ [(row.id, mergedFields row.fields record.fields)] }
    else { c with unchanged := c.unchanged + 1 }

/-- `l[start : start + chunk]` for each `start` of `range(0, len(l), chunk)`. -/
def slices {α : Type} (l : List α) : List (List α) :=
  (List.range ((l.length + (chunk - 1)) / chunk)).map fun i => (l.drop (chunk * i)).take chunk

/-- A list written chunk by chunk; the second component counts. -/
def writeSlices {α : Type} (write : PriceTable columns → α → Except PriceError (PriceTable columns))
    (l : List α) : Except PriceError (PriceTable columns × Nat) :=
  (slices chunk l).foldlM (fun s batch => do
    let t ← batch.foldlM write s.1
    return (t, s.2 + batch.length)) (t, 0)

/-- One of `build_price_rows`, under the `n`-th new id. -/
def buildPriceRow (record : PriceRecord) (n : Nat) : CatalogPrice :=
  ⟨newId n, record.key, record.fields⟩

/-- The records of new triples. -/
def freshOf (records : List PriceRecord) : List PriceRecord :=
  records.filter fun r => (t.stored r.key).isNone

/-- The updates of the others. -/
def changedOf (records : List PriceRecord) : List (String × PriceFields) :=
  records.filterMap fun r => (t.stored r.key).bind fun row =>
    if differs row.fields r.fields then some (row.id, mergedFields row.fields r.fields) else none

/-- A record that the table has. -/
def isUnchanged (r : PriceRecord) : Bool :=
  (t.stored r.key).any fun row => !differs row.fields r.fields

/-- `upsert_price_rows`. -/
def upsertPriceRows (records : List PriceRecord) :
    Except PriceError (PriceTable columns × UpsertStats) :=
  if records.isEmpty then .ok (t, {})
  else do
    let c := records.foldl (collect t) {}
    let (t, inserted) ← writeSlices chunk t (fun t p => t.insert (buildPriceRow newId p.1 p.2))
      c.fresh.zipIdx
    let (t, updated) ← writeSlices chunk t (fun t p => t.update p.1 p.2) c.changed
    return (t, { inserted, updated, unchanged := c.unchanged })

/-! ## The chunks -/

theorem flatten_range {α : Type} (l : List α) (n : Nat) :
    ((List.range n).map fun i => (l.drop (chunk * i)).take chunk).flatten = l.take (chunk * n) := by
  induction n with
  | zero => simp
  | succ n ih =>
    rw [List.range_succ, List.map_append, List.flatten_append, ih, Nat.mul_succ, List.take_add]
    simp

/-- The chunks are the list. -/
theorem flatten_slices {α : Type} (hchunk : 1 ≤ chunk) (l : List α) :
    (slices chunk l).flatten = l := by
  unfold slices
  rw [flatten_range, List.take_of_length_le]
  have hdiv := Nat.div_add_mod (l.length + (chunk - 1)) chunk
  have hmod := Nat.mod_lt (l.length + (chunk - 1)) hchunk
  omega

variable {newId chunk t} {records : List PriceRecord}

/-- **Chunks do not matter.** -/
theorem writeSlices_eq {α : Type}
    {write : PriceTable columns → α → Except PriceError (PriceTable columns)} (hchunk : 1 ≤ chunk)
    (l : List α) :
    writeSlices chunk t write l = (l.foldlM write t).map fun t' => (t', l.length) := by
  have hbatches : ∀ (batches : List (List α)) (t : PriceTable columns) (n : Nat),
      batches.foldlM (fun s batch => do
        let t ← batch.foldlM write s.1
        return (t, s.2 + batch.length)) (t, n) =
      (batches.flatten.foldlM write t).map fun t' => (t', n + batches.flatten.length) := by
    intro batches
    induction batches with
    | nil => exact fun t n => rfl
    | cons batch batches ih =>
      intro t n
      rw [List.foldlM_cons, List.flatten_cons, List.foldlM_append]
      cases hbatch : batch.foldlM write t with
      | error e => rfl
      | ok t' =>
        simp only [ok_bind]
        rw [List.length_append, ← Nat.add_assoc]
        exact ih t' (n + batch.length)
  rw [writeSlices, hbatches, flatten_slices chunk hchunk, Nat.zero_add]

/-! ## The comparison -/

theorem collect_records (records : List PriceRecord) (c : Collected) :
    records.foldl (collect t) c = ⟨c.fresh ++ freshOf t records, c.changed ++ changedOf t records,
      c.unchanged + records.countP (isUnchanged t)⟩ := by
  induction records generalizing c with
  | nil => simp [freshOf, changedOf]
  | cons r records ih =>
    rw [List.foldl_cons, ih]
    unfold collect freshOf changedOf
    cases hstored : t.stored r.key with
    | none => simp [hstored, isUnchanged]
    | some row =>
      cases hdiffers : differs row.fields r.fields with
      | true => simp [hstored, hdiffers, isUnchanged]
      | false =>
        simp [hstored, hdiffers, isUnchanged]
        omega

/-- **The upsert** is its inserts, and then its updates. -/
theorem upsertPriceRows_eq (hchunk : 1 ≤ chunk) (records : List PriceRecord) :
    upsertPriceRows newId chunk t records = (do
      let t' ← ((freshOf t records).zipIdx.map fun p => buildPriceRow newId p.1 p.2).foldlM
        PriceTable.insert t
      let t' ← (changedOf t records).foldlM (fun t p => t.update p.1 p.2) t'
      return (t', ⟨(freshOf t records).length, (changedOf t records).length,
        records.countP (isUnchanged t)⟩)) := by
  unfold upsertPriceRows
  by_cases hempty : records = []
  · subst hempty
    rfl
  · rw [if_neg (by simpa using hempty), collect_records]
    simp only [List.nil_append, Nat.zero_add]
    rw [writeSlices_eq hchunk, List.foldlM_map, List.length_zipIdx]
    cases (freshOf t records).zipIdx.foldlM
        (fun t p => t.insert (buildPriceRow newId p.1 p.2)) t with
    | error e => rfl
    | ok t' =>
      show (writeSlices chunk t' _ (changedOf t records) >>= _) = _
      rw [writeSlices_eq hchunk, ok_bind]
      cases (changedOf t records).foldlM (fun t p => t.update p.1 p.2) t' <;> rfl

/-! ## The statements -/

theorem insertPrice_ok_iff {row : CatalogPrice} {t' : PriceTable columns} :
    t.insert row = .ok t' ↔ t'.rows = t.rows ++ [row] := by
  unfold PriceTable.insert
  constructor
  · intro h
    split_ifs at h
    cases h
    rfl
  · intro h
    have htaken := t'.taken row (by simp [h])
    have hids := t'.ids
    have hkeys := t'.keys
    rw [h, List.map_append, List.map_singleton, List.nodup_append] at hids hkeys
    have hnew : row.id ∉ t.rows.map CatalogPrice.id ∧ row.key ∉ t.rows.map CatalogPrice.key :=
      ⟨fun hmem => hids.2.2 _ hmem _ (List.mem_singleton_self _) rfl,
        fun hmem => hkeys.2.2 _ hmem _ (List.mem_singleton_self _) rfl⟩
    rw [dif_pos htaken, dif_pos hnew]
    obtain ⟨rows, _, _, _⟩ := t'
    cases h
    rfl

/-- **Rows inserted one after another**, if the table they leave is one. -/
theorem insertPrices_ok_iff {rows : List CatalogPrice} {t' : PriceTable columns} :
    rows.foldlM PriceTable.insert t = .ok t' ↔ t'.rows = t.rows ++ rows := by
  induction rows generalizing t with
  | nil =>
    rw [List.foldlM_nil, List.append_nil]
    constructor
    · intro h
      cases h
      rfl
    · intro h
      obtain ⟨rows, _, _, _⟩ := t
      obtain ⟨rows', _, _, _⟩ := t'
      cases h
      rfl
  | cons row rows ih =>
    rw [List.foldlM_cons, bind_ok_iff]
    constructor
    · rintro ⟨mid, hmid, hrest⟩
      rw [ih.mp hrest, insertPrice_ok_iff.mp hmid, List.append_assoc, List.singleton_append]
    · intro h
      have hstart : (t.rows ++ [row]).Sublist t'.rows := by
        rw [h, ← List.singleton_append (l := rows), ← List.append_assoc]
        exact List.sublist_append_left _ _
      let mid : PriceTable columns :=
        ⟨t.rows ++ [row], (hstart.map _).nodup t'.ids, (hstart.map _).nodup t'.keys,
          fun r hr => t'.taken r (hstart.subset hr)⟩
      refine ⟨mid, insertPrice_ok_iff.mpr rfl, ih.mpr ?_⟩
      rw [h, List.append_assoc, List.singleton_append]

theorem updatePrice_ok {id : String} {fields : PriceFields} {t' : PriceTable columns}
    (h : t.update id fields = .ok t') : t'.rows = t.rows.map fun row => row.set id fields := by
  unfold PriceTable.update at h
  split_ifs at h
  cases h
  rfl

/-- What updates one after another leave of a row. -/
def CatalogPrice.setAll (row : CatalogPrice) (changed : List (String × PriceFields)) :
    CatalogPrice :=
  changed.foldl (fun row p => row.set p.1 p.2) row

theorem CatalogPrice.setAll_append (row : CatalogPrice) (changed changed' :
    List (String × PriceFields)) :
    row.setAll (changed ++ changed') = (row.setAll changed).setAll changed' := List.foldl_append

theorem updatePrices_rows {changed : List (String × PriceFields)} {t' : PriceTable columns}
    (h : changed.foldlM (fun t p => t.update p.1 p.2) t = .ok t') :
    t'.rows = t.rows.map fun row => row.setAll changed := by
  induction changed generalizing t with
  | nil =>
    cases h
    exact (List.map_id' _).symm
  | cons p changed ih =>
    rw [List.foldlM_cons] at h
    obtain ⟨mid, hmid, hrest⟩ := bind_ok_iff.mp h
    rw [ih hrest, updatePrice_ok hmid, List.map_map]
    rfl

/-- Updates of values that the columns take succeed. -/
theorem updatePrices_ok {changed : List (String × PriceFields)}
    (h : ∀ p ∈ changed, columns.takesFields p.2 = true) :
    ∃ t', changed.foldlM (fun t p => t.update p.1 p.2) t = .ok t' := by
  induction changed generalizing t with
  | nil => exact ⟨t, rfl⟩
  | cons p changed ih =>
    have hfirst : ∃ mid, t.update p.1 p.2 = .ok mid := by
      unfold PriceTable.update
      rw [dif_pos (h p List.mem_cons_self)]
      exact ⟨_, rfl⟩
    obtain ⟨mid, hmid⟩ := hfirst
    obtain ⟨t', ht'⟩ := ih (t := mid) fun p hp => h p (List.mem_cons_of_mem _ hp)
    exact ⟨t', by rw [List.foldlM_cons, hmid, ok_bind, ht']⟩

/-! ## What becomes of a row -/

theorem stored_iff {key : PriceKey} {row : CatalogPrice} :
    t.stored key = some row ↔ row ∈ t.rows ∧ row.key = key := by
  constructor
  · intro h
    exact ⟨List.mem_of_find?_eq_some h, of_decide_eq_true (List.find?_some h :)⟩
  · rintro ⟨hrow, rfl⟩
    exact Lib.Overlay.find_key t.keys hrow

theorem stored_eq_none_iff {key : PriceKey} :
    t.stored key = none ↔ ∀ row ∈ t.rows, row.key ≠ key := by
  simp [PriceTable.stored]

/-- The last record of a row's triple that differs from it. -/
def lastDiffering (row : CatalogPrice) (records : List PriceRecord) : Option PriceRecord :=
  (records.filter fun r => r.key = row.key && differs row.fields r.fields).getLast?

/-- The fields of a row after all updates. -/
def finalFields (row : CatalogPrice) (records : List PriceRecord) : PriceFields :=
  (lastDiffering row records).elim row.fields fun last => mergedFields row.fields last.fields

theorem lastDiffering_concat (row : CatalogPrice) (records : List PriceRecord) (r : PriceRecord) :
    lastDiffering row (records ++ [r]) =
      if r.key = row.key && differs row.fields r.fields then some r
      else lastDiffering row records := by
  unfold lastDiffering
  rw [List.filter_append, List.filter_cons, List.filter_nil]
  split_ifs
  · exact List.getLast?_concat
  · rw [List.append_nil]

/-- **A stored row** is left with what its last differing record made of it. -/
theorem setAll_changedOf {row : CatalogPrice} (hrow : row ∈ t.rows) (records : List PriceRecord) :
    row.setAll (changedOf t records) = { row with fields := finalFields row records } := by
  induction records using List.reverseRecOn with
  | nil => rfl
  | append_singleton records r ih =>
    have hchanged : changedOf t (records ++ [r]) =
        changedOf t records ++ changedOf t [r] := List.filterMap_append
    rw [hchanged, CatalogPrice.setAll_append, ih]
    unfold finalFields
    rw [lastDiffering_concat]
    unfold changedOf CatalogPrice.setAll
    cases hstored : t.stored r.key with
    | none =>
      have hkey : r.key ≠ row.key := (stored_eq_none_iff.mp hstored row hrow).symm
      simp [hstored, hkey]
    | some s =>
      by_cases hkey : r.key = row.key
      · have hs : s = row := by
          rw [hkey, stored_iff.mpr ⟨hrow, rfl⟩] at hstored
          exact (Option.some.inj hstored).symm
        subst hs
        rw [hkey] at hstored
        cases hdiffers : differs s.fields r.fields <;>
          simp [hstored, hkey, hdiffers, CatalogPrice.set]
      · obtain ⟨hs, hskey⟩ := stored_iff.mp hstored
        have hid : row.id ≠ s.id := fun heq => hkey
          (by rw [← hskey, List.inj_on_of_nodup_map t.ids hrow hs heq])
        cases hdiffers : differs s.fields r.fields <;>
          simp [hstored, hkey, hdiffers, CatalogPrice.set, hid]

/-- The new rows. -/
def newPriceRows (newId : Nat → String) (t : PriceTable columns) (records : List PriceRecord) :
    List CatalogPrice :=
  (freshOf t records).zipIdx.map fun p => buildPriceRow newId p.1 p.2

theorem mem_newPriceRows {row : CatalogPrice} (h : row ∈ newPriceRows newId t records) :
    ∃ r ∈ records, t.stored r.key = none ∧ row.key = r.key ∧ row.fields = r.fields ∧
      ∃ n, row.id = newId n := by
  obtain ⟨⟨r, n⟩, hr, rfl⟩ := List.mem_map.mp h
  obtain ⟨hr, hnone⟩ := List.mem_filter.mp
    (List.mem_of_getElem? (List.mem_zipIdx_iff_getElem?.mp hr))
  exact ⟨r, hr, Option.isNone_iff_eq_none.mp hnone, rfl, rfl, n, rfl⟩

theorem newPriceRows_mem (newId : Nat → String) {r : PriceRecord} (hr : r ∈ records) (hnone : t.stored r.key = none) :
    ∃ n, ⟨newId n, r.key, r.fields⟩ ∈ newPriceRows newId t records := by
  have hfresh : r ∈ freshOf t records :=
    List.mem_filter.mpr ⟨hr, Option.isNone_iff_eq_none.mpr hnone⟩
  obtain ⟨n, hn, hget⟩ := List.mem_iff_getElem.mp hfresh
  refine ⟨n, List.mem_map.mpr ⟨(r, n), ?_, rfl⟩⟩
  rw [List.mem_zipIdx_iff_getElem?]
  exact hget ▸ List.getElem?_eq_getElem hn

theorem keys_newPriceRows : (newPriceRows newId t records).map CatalogPrice.key =
    (freshOf t records).map PriceRecord.key := by
  unfold newPriceRows
  rw [List.map_map]
  conv_rhs => rw [← List.zipIdx_map_fst 0 (freshOf t records), List.map_map]
  rfl

theorem ids_newPriceRows : (newPriceRows newId t records).map CatalogPrice.id =
    (List.range (freshOf t records).length).map newId := by
  unfold newPriceRows
  rw [List.map_map, List.range_eq_range', ← List.zipIdx_map_snd 0 (freshOf t records), List.map_map]
  rfl

/-- A row that no update is about. -/
theorem CatalogPrice.setAll_of_notMem {row : CatalogPrice} {changed : List (String × PriceFields)}
    (h : ∀ p ∈ changed, row.id ≠ p.1) : row.setAll changed = row := by
  induction changed with
  | nil => rfl
  | cons p changed ih =>
    have hfirst : row.set p.1 p.2 = row := if_neg (h p List.mem_cons_self)
    show (row.set p.1 p.2).setAll changed = row
    rw [hfirst]
    exact ih fun p hp => h p (List.mem_cons_of_mem _ hp)

theorem mem_changedOf {p : String × PriceFields} (h : p ∈ changedOf t records) :
    ∃ r ∈ records, ∃ row ∈ t.rows, row.key = r.key ∧ p = (row.id, mergedFields row.fields r.fields) := by
  obtain ⟨r, hr, hp⟩ := List.mem_filterMap.mp h
  obtain ⟨row, hrow, hp⟩ := Option.bind_eq_some_iff.mp hp
  split_ifs at hp
  obtain ⟨hmem, hkey⟩ := stored_iff.mp hrow
  exact ⟨r, hr, row, hmem, hkey, (Option.some.inj hp).symm⟩

/-- **What a successful upsert leaves**: the stored rows under their ids, and the new ones. -/
theorem upsertPriceRows_rows (hchunk : 1 ≤ chunk) {t' : PriceTable columns} {stats : UpsertStats}
    (h : upsertPriceRows newId chunk t records = .ok (t', stats)) :
    t'.rows = t.rows.map (fun row => { row with fields := finalFields row records }) ++
      newPriceRows newId t records ∧
    stats = ⟨(freshOf t records).length, (changedOf t records).length,
      records.countP (isUnchanged t)⟩ := by
  rw [upsertPriceRows_eq hchunk] at h
  obtain ⟨mid, hmid, h⟩ := bind_ok_iff.mp h
  obtain ⟨last, hlast, h⟩ := bind_ok_iff.mp h
  cases h
  have hrows : mid.rows = t.rows ++ newPriceRows newId t records := insertPrices_ok_iff.mp hmid
  refine ⟨?_, rfl⟩
  rw [updatePrices_rows hlast, hrows, List.map_append]
  refine congrArg₂ _ (List.map_congr_left fun row hrow => setAll_changedOf hrow records) ?_
  refine (List.map_congr_left fun row hrow => ?_).trans (List.map_id' _)
  refine CatalogPrice.setAll_of_notMem fun p hp hid => ?_
  obtain ⟨r, -, row', hrow', -, rfl⟩ := mem_changedOf hp
  have hids := mid.ids
  rw [hrows, List.map_append, List.nodup_append] at hids
  exact hids.2.2 _ (List.mem_map_of_mem hrow') _ (List.mem_map_of_mem hrow) hid.symm

/-! ## The merge rule -/

theorem mergedFields_apply (current incoming : PriceFields) (f : MutableField) :
    mergedFields current incoming f = (incoming f).or (current f) := by
  unfold mergedFields
  cases hincoming : incoming f with
  | none => simp
  | some v =>
    by_cases hsame : some v = current f
    · simp [← hsame]
    · simp [hsame]

theorem differs_eq_false_iff {current incoming : PriceFields} :
    differs current incoming = false ↔ ∀ f v, incoming f = some v → current f = some v := by
  unfold differs
  rw [List.any_eq_false]
  constructor
  · intro h f v hf
    have hfield := h f (mem_mutableFields f)
    simp only [hf, decide_eq_true_eq, not_and, not_not] at hfield
    exact (hfield (by simp)).symm
  · intro h f _
    cases hf : incoming f with
    | none => simp
    | some v => simp [h f v hf]

theorem isUnchanged_stored {r : PriceRecord} : isUnchanged t r = true ↔
    ∃ row, t.stored r.key = some row ∧ differs row.fields r.fields = false := by
  unfold isUnchanged
  cases t.stored r.key <;> simp

theorem isUnchanged_iff {r : PriceRecord} : isUnchanged t r = true ↔
    ∃ row ∈ t.rows, row.key = r.key ∧ ∀ f v, r.fields f = some v → row.fields f = some v := by
  rw [isUnchanged_stored]
  refine exists_congr fun row => ?_
  rw [stored_iff, differs_eq_false_iff, and_assoc]

/-- A list that the table has already. -/
theorem upsertPriceRows_unchanged_iff (hchunk : 1 ≤ chunk) :
    upsertPriceRows newId chunk t records = .ok (t, ⟨0, 0, records.length⟩) ↔
      ∀ r ∈ records, isUnchanged t r = true := by
  constructor
  · intro h
    have hstats := (upsertPriceRows_rows hchunk h).2
    exact List.countP_eq_length.mp (UpsertStats.mk.inj hstats).2.2.symm
  · intro h
    have hfresh : freshOf t records = [] := List.filter_eq_nil_iff.mpr fun r hr hnone => by
      obtain ⟨row, hrow, -⟩ := isUnchanged_stored.mp (h r hr)
      rw [hrow] at hnone
      cases hnone
    have hchanged : changedOf t records = [] := List.filterMap_eq_nil_iff.mpr fun r hr => by
      obtain ⟨row, hrow, hsame⟩ := isUnchanged_stored.mp (h r hr)
      rw [hrow, Option.bind_some, if_neg (by simpa using hsame)]
    rw [upsertPriceRows_eq hchunk, hfresh, hchanged, List.countP_eq_length.mpr h]
    rfl

/-- Every record is counted once. -/
theorem counts_add (t : PriceTable columns) (records : List PriceRecord) :
    (freshOf t records).length + (changedOf t records).length +
      records.countP (isUnchanged t) = records.length := by
  induction records with
  | nil => rfl
  | cons r records ih =>
    unfold freshOf changedOf at ih ⊢
    rw [List.filter_cons, List.filterMap_cons, List.countP_cons, List.length_cons]
    unfold isUnchanged at ih ⊢
    cases hstored : t.stored r.key with
    | none =>
      simp only [Option.isNone_none, if_true, Option.bind_none, Option.any_none, List.length_cons,
        Bool.false_eq_true, if_false]
      omega
    | some row =>
      cases hdiffers : differs row.fields r.fields <;>
        simp only [Option.isNone_some, Option.bind_some, Option.any_some, hdiffers, if_true,
          Bool.false_eq_true, if_false, Bool.not_true, Bool.not_false, List.length_cons] <;>
        omega

/-! ## One record after another -/

/-- A table as a map. -/
def PriceTable.contents (t : PriceTable columns) (key : PriceKey) : Option PriceFields :=
  (t.stored key).map CatalogPrice.fields

/-- The fields that one record leaves: its own, for a new triple; else every field that it has and
the row has not gets replaced. -/
def applyFields (r : PriceRecord) : Option PriceFields → PriceFields
  | none => r.fields
  | some current => fun f => (r.fields f).or (current f)

/-- One record. -/
def applyRecord (prices : PriceKey → Option PriceFields) (r : PriceRecord) :
    PriceKey → Option PriceFields :=
  Function.update prices r.key (some (applyFields r (prices r.key)))

/-- A triple sees its own records only. -/
theorem applyAll_apply (records : List PriceRecord) (prices : PriceKey → Option PriceFields)
    (key : PriceKey) : records.foldl applyRecord prices key =
      (records.filter (·.key = key)).foldl (fun current r => some (applyFields r current))
        (prices key) := by
  induction records generalizing prices with
  | nil => rfl
  | cons r records ih =>
    rw [List.foldl_cons, ih, List.filter_cons]
    by_cases hkey : r.key = key
    · subst hkey
      simp [applyRecord]
    · rw [if_neg (by simpa using hkey), applyRecord, Function.update_of_ne (Ne.symm hkey)]

/-- What records leave of each field: the value of one of them, or what it was. -/
theorem applyAll_fields (rs : List PriceRecord) (current : PriceFields) :
    ∃ fields, rs.foldl (fun current r => some (applyFields r current)) (some current) =
        some fields ∧
      ∀ f, (∃ r ∈ rs, ∃ v, r.fields f = some v ∧ fields f = some v) ∨
        (∀ r ∈ rs, r.fields f = none) ∧ fields f = current f := by
  induction rs using List.reverseRecOn with
  | nil => exact ⟨current, rfl, fun f => .inr ⟨fun r hr => absurd hr List.not_mem_nil, rfl⟩⟩
  | append_singleton rs r ih =>
    obtain ⟨fields, hfields, hcases⟩ := ih
    refine ⟨applyFields r (some fields), by rw [List.foldl_append, hfields]; rfl, fun f => ?_⟩
    cases hr : r.fields f with
    | some v => exact .inl ⟨r, by simp, v, hr, by simp [applyFields, hr]⟩
    | none =>
      have hsame : applyFields r (some fields) f = fields f := by simp [applyFields, hr]
      rw [hsame]
      refine (hcases f).imp (fun ⟨r', hr', h⟩ => ⟨r', List.mem_append_left _ hr', h⟩)
        fun ⟨hall, h⟩ => ⟨fun r' hr' => ?_, h⟩
      rcases List.mem_append.mp hr' with hr' | hr'
      · exact hall r' hr'
      · rw [List.mem_singleton.mp hr', hr]

/-! ## The outcome -/

/-- **What the upsert is for.** The table is that of the records one after another, every row is still
there under its id and no value of it became NULL, the counters add up, and a repeat changes
nothing. -/
structure Upserted (chunk : Nat) (t : PriceTable columns) (records : List PriceRecord)
    (t' : PriceTable columns) (stats : UpsertStats) : Prop where
  applied : t'.contents = records.foldl applyRecord t.contents
  kept : ∀ row ∈ t.rows, ∃ row' ∈ t'.rows, row'.id = row.id ∧ row'.key = row.key ∧
    ∀ f, row.fields f ≠ none → row'.fields f ≠ none
  counted : stats.inserted + stats.updated + stats.unchanged = records.length
  again : ∀ newId, upsertPriceRows newId chunk t' records = .ok (t', ⟨0, 0, records.length⟩)

/-- **No record is in the way of another one.** The columns take the values; no triple that the table
lacks is given twice; and of the records of a stored row, the last one that differs from it has
every value that any of them has, or the row has it already. -/
structure Untangled (t : PriceTable columns) (records : List PriceRecord) : Prop where
  taken : ∀ r ∈ records, columns.takesKey r.key = true ∧ columns.takesFields r.fields = true
  once : ((freshOf t records).map PriceRecord.key).Nodup
  carried : ∀ row ∈ t.rows, ∀ last ∈ lastDiffering row records, ∀ r ∈ records, r.key = row.key →
    ∀ f v, r.fields f = some v →
      last.fields f = some v ∨ last.fields f = none ∧ row.fields f = some v

/-- `new_id` makes ids that the table does not have. -/
structure NewIds (newId : Nat → String) (t : PriceTable columns) : Prop where
  injective : Function.Injective newId
  unused : ∀ n, newId n ∉ t.rows.map CatalogPrice.id

theorem finalFields_apply (row : CatalogPrice) (records : List PriceRecord) (f : MutableField) :
    finalFields row records f =
      (lastDiffering row records).elim (row.fields f) fun last => (last.fields f).or (row.fields f) := by
  unfold finalFields
  cases lastDiffering row records with
  | none => rfl
  | some last => exact mergedFields_apply row.fields last.fields f

/-- A settled row has every value of its records. -/
theorem finalFields_of_untangled (h : Untangled t records) {row : CatalogPrice}
    (hrow : row ∈ t.rows) {r : PriceRecord} (hr : r ∈ records) (hkey : r.key = row.key)
    {f : MutableField} {v : f.Cell} (hv : r.fields f = some v) :
    finalFields row records f = some v := by
  rw [finalFields_apply]
  cases hlast : lastDiffering row records with
  | none =>
    have hempty := List.getLast?_eq_none_iff.mp hlast
    have hsame : differs row.fields r.fields = false := by
      have hnot := List.filter_eq_nil_iff.mp hempty r hr
      simpa [hkey] using hnot
    exact differs_eq_false_iff.mp hsame f v hv
  | some last =>
    rcases h.carried row hrow last hlast r hr hkey f v hv with hsome | ⟨hnone, hsome⟩
    · simp [hsome]
    · simp [hnone, hsome]

/-! ## What it takes -/

theorem takesFields_iff {fields : PriceFields} :
    columns.takesFields fields = true ↔ ∀ f v, fields f = some v → columns.cell f v = true := by
  unfold PriceColumns.takesFields
  rw [List.all_eq_true]
  constructor
  · intro h f v hf
    have hfield := h f (mem_mutableFields f)
    rwa [hf] at hfield
  · intro h f _
    cases hf : fields f with
    | none => rfl
    | some v => exact h f v hf

/-- An upsert that did what it is for had an untangled list. -/
theorem untangled_of_upserted (hchunk : 1 ≤ chunk) {t' : PriceTable columns} {stats : UpsertStats}
    (h : upsertPriceRows newId chunk t records = .ok (t', stats))
    (hdone : Upserted chunk t records t' stats) : Untangled t records := by
  have hrows := (upsertPriceRows_rows hchunk h).1
  have hsame : ∀ r ∈ records, ∃ row' ∈ t'.rows, row'.key = r.key ∧
      ∀ f v, r.fields f = some v → row'.fields f = some v := fun r hr =>
    isUnchanged_iff.mp ((upsertPriceRows_unchanged_iff hchunk).mp (hdone.again newId) r hr)
  refine ⟨fun r hr => ?_, ?_, fun row hrow last hlast r hr hkey f v hv => ?_⟩
  · obtain ⟨row', hrow', hkey, hfields⟩ := hsame r hr
    obtain ⟨htakesKey, htakesFields⟩ := t'.taken row' hrow'
    refine ⟨hkey ▸ htakesKey, takesFields_iff.mpr fun f v hv => ?_⟩
    exact takesFields_iff.mp htakesFields f v (hfields f v hv)
  · have hkeys := t'.keys
    rw [hrows, List.map_append, keys_newPriceRows] at hkeys
    exact (List.nodup_append.mp hkeys).2.1
  · obtain ⟨row', hrow', hkey', hfields⟩ := hsame r hr
    have hmem : { row with fields := finalFields row records } ∈ t'.rows := by
      rw [hrows]
      exact List.mem_append_left _ (List.mem_map_of_mem hrow)
    have heq : row' = { row with fields := finalFields row records } :=
      List.inj_on_of_nodup_map t'.keys hrow' hmem (hkey'.trans hkey)
    have hfinal : finalFields row records f = some v := by
      rw [← hfields f v hv, heq]
    rw [finalFields_apply, show lastDiffering row records = some last from hlast] at hfinal
    exact Option.or_eq_some_iff.mp hfinal

/-- The new rows of an untangled list fit beside the stored ones. -/
theorem exists_inserted (hids : NewIds newId t) (h : Untangled t records) :
    ∃ mid : PriceTable columns, mid.rows = t.rows ++ newPriceRows newId t records := by
  refine ⟨⟨t.rows ++ newPriceRows newId t records, ?_, ?_, fun row hrow => ?_⟩, rfl⟩
  · rw [List.map_append, ids_newPriceRows, List.nodup_append]
    refine ⟨t.ids, List.nodup_range.map hids.injective, fun id hid id' hid' heq => ?_⟩
    obtain ⟨n, -, rfl⟩ := List.mem_map.mp hid'
    exact hids.unused n (heq ▸ hid)
  · rw [List.map_append, keys_newPriceRows, List.nodup_append]
    refine ⟨t.keys, h.once, fun key hkey key' hkey' heq => ?_⟩
    obtain ⟨row, hrow, rfl⟩ := List.mem_map.mp hkey
    obtain ⟨r, hr, rfl⟩ := List.mem_map.mp hkey'
    have hnone := Option.isNone_iff_eq_none.mp (List.mem_filter.mp hr).2
    exact stored_eq_none_iff.mp hnone row hrow heq
  · rcases List.mem_append.mp hrow with hrow | hrow
    · exact t.taken row hrow
    · obtain ⟨r, hr, -, hkey, hfields, -⟩ := mem_newPriceRows hrow
      rw [hkey, hfields]
      exact h.taken r hr

/-- The columns take what an untangled list makes of the stored rows. -/
theorem takes_changedOf (h : Untangled t records) {p : String × PriceFields}
    (hp : p ∈ changedOf t records) : columns.takesFields p.2 = true := by
  obtain ⟨r, hr, row, hrow, -, rfl⟩ := mem_changedOf hp
  refine takesFields_iff.mpr fun f v hv => ?_
  simp only [mergedFields_apply, Option.or_eq_some_iff] at hv
  rcases hv with hv | ⟨-, hv⟩
  · exact takesFields_iff.mp (h.taken r hr).2 f v hv
  · exact takesFields_iff.mp (t.taken row hrow).2 f v hv

/-- An untangled list is written. -/
theorem upsertPriceRows_ok (hchunk : 1 ≤ chunk) (hids : NewIds newId t) (h : Untangled t records) :
    ∃ t' stats, upsertPriceRows newId chunk t records = .ok (t', stats) := by
  obtain ⟨mid, hmid⟩ := exists_inserted hids h
  obtain ⟨t', ht'⟩ := updatePrices_ok (t := mid) fun p hp => takes_changedOf h hp
  refine ⟨t', ⟨(freshOf t records).length, (changedOf t records).length,
    records.countP (isUnchanged t)⟩, ?_⟩
  have hinsert : (newPriceRows newId t records).foldlM PriceTable.insert t = .ok mid :=
    insertPrices_ok_iff.mpr hmid
  rw [upsertPriceRows_eq hchunk]
  show ((newPriceRows newId t records).foldlM PriceTable.insert t >>= _) = _
  rw [hinsert, ok_bind, ht', ok_bind]
  rfl

/-- The records of a triple that the table lacks are one at most. -/
theorem once_filter (h : Untangled t records) {key : PriceKey} (hnone : t.stored key = none) :
    (records.filter (·.key = key)).length ≤ 1 := by
  have hsub : (records.filter (·.key = key)).Sublist (freshOf t records) := by
    have hfilter : records.filter (·.key = key) = (freshOf t records).filter (·.key = key) := by
      rw [freshOf, List.filter_filter]
      refine List.filter_congr fun r _ => ?_
      by_cases hkey : r.key = key <;> simp [hkey, hnone]
    rw [hfilter]
    exact List.filter_sublist
  have hkeys : (records.filter (·.key = key)).map PriceRecord.key =
      List.replicate (records.filter (·.key = key)).length key :=
    List.eq_replicate_iff.mpr ⟨List.length_map _, fun k hk => by
      obtain ⟨r, hr, rfl⟩ := List.mem_map.mp hk
      exact of_decide_eq_true (List.mem_filter.mp hr).2⟩
  have hnodup := (hsub.map PriceRecord.key).nodup h.once
  rw [hkeys] at hnodup
  exact List.nodup_replicate.mp hnodup

/-- The rows that a successful upsert leaves, by their triples. -/
theorem contents_of_rows (hchunk : 1 ≤ chunk) {t' : PriceTable columns} {stats : UpsertStats}
    (h : upsertPriceRows newId chunk t records = .ok (t', stats)) (key : PriceKey) :
    (∀ row, t.stored key = some row → t'.contents key = some (finalFields row records)) ∧
    (t.stored key = none →
      (∀ r ∈ records, r.key = key → t'.contents key = some r.fields) ∧
      ((∀ r ∈ records, r.key ≠ key) → t'.contents key = none)) := by
  have hrows := (upsertPriceRows_rows hchunk h).1
  unfold PriceTable.contents
  refine ⟨fun row hrow => ?_, fun hnone => ⟨fun r hr hkey => ?_, fun hall => ?_⟩⟩
  · obtain ⟨hmem, hkey⟩ := stored_iff.mp hrow
    have hstored : t'.stored key = some { row with fields := finalFields row records } :=
      stored_iff.mpr ⟨hrows ▸ List.mem_append_left _ (List.mem_map_of_mem hmem), hkey⟩
    rw [hstored]
    rfl
  · subst hkey
    obtain ⟨n, hn⟩ := newPriceRows_mem newId hr hnone
    have hstored : t'.stored r.key = some ⟨newId n, r.key, r.fields⟩ :=
      stored_iff.mpr ⟨hrows ▸ List.mem_append_right _ hn, rfl⟩
    rw [hstored]
    rfl
  · rw [Option.map_eq_none_iff, stored_eq_none_iff, hrows]
    intro row hrow hkey
    rcases List.mem_append.mp hrow with hrow | hrow
    · obtain ⟨old, hold, rfl⟩ := List.mem_map.mp hrow
      exact stored_eq_none_iff.mp hnone old hold hkey
    · obtain ⟨r, hr, -, hrkey, -⟩ := mem_newPriceRows hrow
      exact hall r hr (hrkey ▸ hkey)

/-- The map that an untangled list leaves is that of its records one after another. -/
theorem contents_of_untangled (hchunk : 1 ≤ chunk) (huntangled : Untangled t records)
    {t' : PriceTable columns} {stats : UpsertStats}
    (h : upsertPriceRows newId chunk t records = .ok (t', stats)) :
    t'.contents = records.foldl applyRecord t.contents := by
  funext key
  rw [applyAll_apply]
  obtain ⟨hstored, hnew⟩ := contents_of_rows hchunk h key
  cases hkey : t.stored key with
  | none =>
    obtain ⟨hgiven, habsent⟩ := hnew hkey
    rw [show t.contents key = none by rw [PriceTable.contents, hkey]; rfl]
    have honce := once_filter huntangled hkey
    cases hrs : records.filter (·.key = key) with
    | nil => exact habsent fun r hr => by simpa using List.filter_eq_nil_iff.mp hrs r hr
    | cons r rs =>
      rw [hrs, List.length_cons] at honce
      rw [List.eq_nil_of_length_eq_zero (show rs.length = 0 by omega)]
      have hr : r ∈ records.filter (·.key = key) := hrs ▸ List.mem_cons_self
      exact hgiven r (List.mem_filter.mp hr).1 (of_decide_eq_true (List.mem_filter.mp hr).2)
  | some row =>
    obtain ⟨hrow, hrowKey⟩ := stored_iff.mp hkey
    rw [hstored row hkey, show t.contents key = some row.fields by rw [PriceTable.contents, hkey]; rfl]
    obtain ⟨fields, hfields, hcases⟩ :=
      applyAll_fields (records.filter (·.key = key)) row.fields
    rw [hfields]
    refine congrArg some (funext fun f => ?_)
    rcases hcases f with ⟨r, hr, v, hv, hfield⟩ | ⟨hall, hfield⟩
    · obtain ⟨hmem, hrkey⟩ := List.mem_filter.mp hr
      rw [hfield]
      exact finalFields_of_untangled huntangled hrow hmem
        ((of_decide_eq_true hrkey).trans hrowKey.symm) hv
    · rw [hfield, finalFields_apply]
      cases hlast : lastDiffering row records with
      | none => rfl
      | some last =>
        obtain ⟨hmem, hdiffering⟩ := List.mem_filter.mp (List.mem_of_getLast? hlast)
        rw [Bool.and_eq_true, decide_eq_true_eq] at hdiffering
        have hlastKey : last ∈ records.filter (·.key = key) :=
          List.mem_filter.mpr ⟨hmem, decide_eq_true (hdiffering.1.trans hrowKey)⟩
        rw [Option.elim_some, hall last hlastKey, Option.none_or]

/-- **An untangled list** is upserted. -/
theorem upserted_of_untangled (hchunk : 1 ≤ chunk) (huntangled : Untangled t records)
    {t' : PriceTable columns} {stats : UpsertStats}
    (h : upsertPriceRows newId chunk t records = .ok (t', stats)) :
    Upserted chunk t records t' stats := by
  obtain ⟨hrows, rfl⟩ := upsertPriceRows_rows hchunk h
  have hsettled : ∀ row ∈ t.rows, { row with fields := finalFields row records } ∈ t'.rows :=
    fun row hrow => hrows ▸ List.mem_append_left _ (List.mem_map_of_mem hrow)
  refine ⟨contents_of_untangled hchunk huntangled h, fun row hrow => ?_, counts_add t records,
    fun newId' => (upsertPriceRows_unchanged_iff hchunk).mpr fun r hr => ?_⟩
  · refine ⟨_, hsettled row hrow, rfl, rfl, fun f hf => ?_⟩
    show finalFields row records f ≠ none
    rw [finalFields_apply]
    cases lastDiffering row records with
    | none => exact hf
    | some last =>
      rw [Option.elim_some]
      cases last.fields f with
      | none => exact hf
      | some v => simp
  · refine isUnchanged_iff.mpr ?_
    cases hkey : t.stored r.key with
    | none =>
      obtain ⟨n, hn⟩ := newPriceRows_mem newId hr hkey
      exact ⟨_, hrows ▸ List.mem_append_right _ hn, rfl, fun f v hv => hv⟩
    | some row =>
      obtain ⟨hrow, hrowKey⟩ := stored_iff.mp hkey
      exact ⟨_, hsettled row hrow, hrowKey, fun f v hv =>
        finalFields_of_untangled huntangled hrow hr hrowKey.symm hv⟩

/-- **The bulk upsert.** For every table, every list of records and every chunk size: it succeeds, leaves
the table of the records one after another with every row and every value of it kept, counts every
record and finds nothing to do when it is repeated, exactly when no record is in the way of another
one. -/
theorem upsertPriceRows_iff (newId : Nat → String) (chunk : Nat) (t : PriceTable columns)
    (records : List PriceRecord) (hchunk : 1 ≤ chunk) (hids : NewIds newId t) :
    (∃ t' stats, upsertPriceRows newId chunk t records = .ok (t', stats) ∧
      Upserted chunk t records t' stats) ↔ Untangled t records := by
  constructor
  · rintro ⟨t', stats, h, hdone⟩
    exact untangled_of_upserted hchunk h hdone
  · intro huntangled
    obtain ⟨t', stats, h⟩ := upsertPriceRows_ok hchunk hids huntangled
    exact ⟨t', stats, h, upserted_of_untangled hchunk huntangled h⟩

end Upsert

/-- The columns of SQLite. -/
def PriceColumns.sqlite : PriceColumns where
  integer n := -9223372036854775808 ≤ n && n ≤ 9223372036854775807
  code _ := true
  name _ := true

/-- A record of the first catalog of 2026. -/
def catalogRecord (code : String) (fields : PriceFields) : PriceRecord := ⟨2026, 1, code, fields⟩

/-- A table with one row, a cream without points. -/
def creamTable : PriceTable .sqlite where
  rows := [⟨"a", (2026, 1, "33155"), priceFields (some "КРЕМ") (some 49900) none none⟩]
  ids := by decide
  keys := by decide
  taken := by decide

/-- Ids that the table does not have. -/
def numberedId (n : Nat) : String := String.ofList (List.replicate n 'x')

theorem newIds_cream : NewIds numberedId creamTable where
  injective n n' h := by
    have hlength := congrArg List.length (String.ofList_injective h)
    simpa using hlength
  unused n h := by
    have hmem : numberedId n = "a" := by simpa [creamTable] using h
    have hchars : List.replicate n 'x' = ['a'] := String.ofList_injective hmem
    have hx : 'a' ∈ List.replicate n 'x' := hchars ▸ List.mem_singleton_self _
    exact absurd (List.eq_of_mem_replicate hx) (by decide)

/-- The code, the name and the points of a row. -/
def CatalogPrice.shown (row : CatalogPrice) : String × Option String × Option Int :=
  (row.key.2.2, row.fields .name, row.fields .points)

/-- One record of a stored triple and one of a new one. -/
def plainRecords : List PriceRecord :=
  [catalogRecord "33155" (priceFields none none none (some 5)),
    catalogRecord "46413" (priceFields (some "ТУШЬ") (some 29900) none none)]

/-- The points of the cream come, the mascara is new. -/
theorem upsertPriceRows_iff_plain :
    (upsertPriceRows numberedId 1 creamTable plainRecords).toOption.map (fun p =>
        (p.1.rows.map CatalogPrice.shown, p.2.inserted, p.2.updated, p.2.unchanged)) =
      some ([("33155", some "КРЕМ", some 5), ("46413", some "ТУШЬ", none)], 1, 1, 0) ∧
    ((∃ t' stats, upsertPriceRows numberedId 1 creamTable plainRecords = .ok (t', stats) ∧
      Upserted 1 creamTable plainRecords t' stats) ↔ Untangled creamTable plainRecords) :=
  ⟨by decide, upsertPriceRows_iff numberedId 1 creamTable plainRecords (by decide) newIds_cream⟩

/-- A new triple, given twice. -/
def twiceGiven : List PriceRecord :=
  [catalogRecord "46413" (priceFields (some "ТУШЬ") (some 29900) none none),
    catalogRecord "46413" (priceFields (some "ТУШЬ") (some 29900) none none)]

/-- A stored triple, whose points come with one record and whose name comes with another. -/
def splitRecords : List PriceRecord :=
  [catalogRecord "33155" (priceFields none none none (some 5)),
    catalogRecord "33155" (priceFields (some "КРЕМ-ГЕЛЬ") none none none)]

/-- **Repeated triples.** Both lists are accepted. The one is refused by the unique constraint; of the
other the points are lost, and a repeat changes the row again. -/
theorem not_upserted :
    (validateRecords (fun _ => "") "prices.json" (.arr (twiceGiven.map PriceRecord.toValue)) =
        .ok twiceGiven ∧
      upsertPriceRows numberedId 5000 creamTable twiceGiven = .error .integrity) ∧
    validateRecords (fun _ => "") "prices.json" (.arr (splitRecords.map PriceRecord.toValue)) =
      .ok splitRecords ∧
    (upsertPriceRows numberedId 5000 creamTable splitRecords).toOption.map (fun p =>
      p.1.rows.map CatalogPrice.shown) = some [("33155", some "КРЕМ-ГЕЛЬ", none)] ∧
    (∃ fields, splitRecords.foldl applyRecord creamTable.contents (2026, 1, "33155") = some fields ∧
      fields .points = some 5) ∧
    ¬∃ t' stats, upsertPriceRows numberedId 5000 creamTable splitRecords = .ok (t', stats) ∧
      Upserted 5000 creamTable splitRecords t' stats := by
  refine ⟨⟨rfl, ?_⟩, rfl, by decide, ⟨_, rfl, rfl⟩, ?_⟩
  · rw [upsertPriceRows_eq (by decide)]
    rfl
  · rintro ⟨t', stats, h, hdone⟩
    have hcarried := (untangled_of_upserted (by decide) h hdone).carried _ List.mem_cons_self
      (catalogRecord "33155" (priceFields (some "КРЕМ-ГЕЛЬ") none none none)) rfl _
      List.mem_cons_self rfl .points 5 rfl
    rcases hcarried with hlast | ⟨-, hrow⟩
    · cases hlast
    · cases hrow

end MyOriShop
