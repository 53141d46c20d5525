import MyOriShop.Lib.Overlay
import MyOriShop.Merge
import MyOriShop.PullPages
import MyOriShop.Services.Catalog

/-!
# Sync client: what a device sends and how it takes a page (`app/services/sync_client.py`)

* `collectPushRecords` is `collect_push_records`: the ledger rows with no `synced_at` and the
  reference rows they need. The rows of a kind come in the order of their table; the source takes
  them through sets.
* `stampSynced` is the `UPDATE` of `run_sync_once` after a 2xx.
* `applyPullPage` is `_apply_pull_page`: kind by kind the new rows are inserted and then the
  existing ones updated, one statement each; a dictionary row is told apart by its code. The page
  is applied in the caller's transaction.

Results:
* `upsertById_ok_iff`, `upsertDictionary_ok_iff`: the two upserts as one insert and a list of updates.
* `applyMerge_frame`, `applyPullPage_frame`: what the two merges leave as it was.
-/

namespace MyOriShop

open Lib.Json (Value FloatLit valueAt)
open Lib.Text Lib.Fallible Lib.Overlay

/-! ## Push -/

/-- The rows of a kind whose id is among some ids (`_load_by_ids`). -/
def loadByIds (d : Db) (k : Kind) (ids : List String) : List (Row k) :=
  (d.get k).filter fun r => rowId k r ∈ ids

/-- The ids of the ledger rows that are not yet synced. -/
structure PushIds where
  operations : List String
  cashMovements : List String

/-- The rows `collect_push_records` sends, with the parents first. -/
def collectPushRows (d : Db) : List AnyRow :=
  let ops := d.operations.filter fun o => o.syncedAt = none
  let cash := d.cashMovements.filter fun m => m.syncedAt = none
  let sales : List Sale := loadByIds d .sale
    ((ops.filterMap Operation.saleId ++ cash.filterMap CashMovement.saleId).filter (· ≠ ""))
  let batches : List Batch := loadByIds d .batch ((ops.filterMap Operation.batchId).filter (· ≠ ""))
  let warehouses : List Warehouse := loadByIds d .warehouse (batches.map Batch.warehouseId)
  let products : List Product := loadByIds d .product
    ((ops.map Operation.productId).filter (· ≠ "") ++ batches.map Batch.productId)
  let customers : List Customer := loadByIds d .customer
    ((sales.filterMap Sale.customerId).filter (· ≠ ""))
  warehouses.map (Sigma.mk .warehouse) ++ products.map (Sigma.mk .product) ++
    customers.map (Sigma.mk .customer) ++ batches.map (Sigma.mk .batch) ++
    sales.map (Sigma.mk .sale) ++ ops.map (Sigma.mk .operation) ++
    cash.map (Sigma.mk .cashMovement)

/-- `collect_push_records`: the records, and the ids to stamp. -/
def collectPushRecords (d : Db) : List ExchangeRecord × PushIds where
  fst := (collectPushRows d).map AnyRow.record
  snd :=
    { operations := (d.operations.filter fun o => o.syncedAt = none).map Operation.id
      cashMovements := (d.cashMovements.filter fun m => m.syncedAt = none).map CashMovement.id }

/-- The stamp of a push that was answered with a 2xx. -/
def stampSynced (stamp : String) (ids : PushIds) (d : Db) : Db :=
  { d with
    operations := d.operations.map fun o =>
      if o.id ∈ ids.operations then { o with syncedAt := some stamp } else o
    cashMovements := d.cashMovements.map fun m =>
      if m.id ∈ ids.cashMovements then { m with syncedAt := some stamp } else m }

/-! ## A page -/

/-- The cells of a row that an update sets: the columns in `kept` are left as they are, every other
one is taken from the record. -/
def updateCells (driver : Driver) (k : Kind) (kept : List String) (data : Data) (r : Row k) :
    Cells where
  driver := driver
  kind := k
  value field := if field ∈ kept then valueAt field (toData k r) else valueAt field data

/-- The row an update makes. -/
def updateRow (driver : Driver) (k : Kind) (kept : List String) (data : Data) (r : Row k) :
    Except Exn (Row k) :=
  rowOf k (updateCells driver k kept data r)

/-- `UPDATE ... SET ... WHERE`, with the constraints when it has run. -/
def updateWhere (driver : Driver) (k : Kind) (kept : List String) (hits : Row k → Bool)
    (data : Data) (d : Db) : Except Exn Db := do
  let rows ← (d.get k).mapM fun r => if hits r then updateRow driver k kept data r else .ok r
  if (d.set k rows).check then .ok (d.set k rows) else .error .integrity

/-- One update after another. -/
def updateEach (driver : Driver) (k : Kind) (kept : List String) (hits : Data → Row k → Bool) :
    List Data → Db → Except Exn Db
  | [], d => .ok d
  | data :: rows, d => do
    let d' ← updateWhere driver k kept (hits data) data d
    updateEach driver k kept hits rows d'

/-- Insert some records and then update by others; how many were applied. -/
def upsert (driver : Driver) (now : String) (k : Kind) (kept : List String)
    (hits : Data → Row k → Bool) (newRows existingRows : List Data) (d : Db) :
    Except Exn (Db × Nat) := do
  let inserted ← newRows.mapM (insertRow driver now k)
  let d' ← insertAll d k inserted
  let d'' ← updateEach driver k kept hits existingRows d'
  return (d'', newRows.length + existingRows.length)

/-- A record and a row have one id. -/
def sameId (k : Kind) (data : Data) (r : Row k) : Bool := rowId k r = dataId data

/-- The upsert by id: the server wins, but for the id and the cached quantity. -/
def upsertById (driver : Driver) (now : String) (k : Kind) (rows : List Data) (d : Db) :
    Except Exn (Db × Nat) :=
  let newRows := (partitionNew (d.ids k) rows).1
  let newIds := newRows.map dataId
  upsert driver now k ["id", "quantity"] (sameId k) newRows
    (rows.filter fun row => dataId row ∉ newIds) d

/-- A record's code, where it is a string. -/
def dataCode (data : Data) : Option String :=
  match valueAt "code" data with
  | .str code => some code
  | _ => none

/-- A record and a dictionary entry have one code. -/
def sameCode (data : Data) (e : Dictionary) : Bool := dataCode data = some e.code

/-- The upsert of the dictionary, by code: the local id stays. A record with no code is skipped. -/
def upsertDictionary (driver : Driver) (now : String) (rows : List Data) (d : Db) :
    Except Exn (Db × Nat) :=
  let coded := rows.filter fun row => isTruthy (valueAt "code" row)
  let existing := existingIds (d.dictionary.map Dictionary.code) (coded.filterMap dataCode)
  let isThere := fun row => (dataCode row).any fun code => decide (code ∈ existing)
  upsert driver now .dictionary ["id", "code"] sameCode (coded.filter fun row => !isThere row)
    (coded.filter isThere) d

/-- The upsert of one kind. -/
def upsertKind (driver : Driver) (now : String) (records : List ExchangeRecord) (k : Kind) (d : Db) :
    Except Exn (Db × Nat) :=
  if k = .dictionary then upsertDictionary driver now (bucket records k) d
  else upsertById driver now k (bucket records k) d

/-- The kinds one after another. -/
def upsertKinds (driver : Driver) (now : String) (records : List ExchangeRecord) :
    List Kind → Db → Except Exn (Db × Nat)
  | [], d => .ok (d, 0)
  | k :: kinds, d => do
    let (d', applied) ← upsertKind driver now records k d
    let (d'', rest) ← upsertKinds driver now records kinds d'
    return (d'', applied + rest)

/-- `_REFERENCE_INSERT_ORDER`. -/
def referenceInsertOrder : List Kind :=
  [.warehouse, .product, .customer, .dictionary, .batch, .sale]

/-- `_apply_pull_page`. -/
def applyPullPage (driver : Driver) (now : String) (d : Db) (records : List ExchangeRecord) :
    Except Exn (Db × Nat) := do
  let (d', applied) ← upsertKinds driver now records referenceInsertOrder d
  let d'' ← recomputeDerived now d'
  return (d'', applied)

/-- A page that has been taken in is left to the recomputation. -/
theorem applyPullPage_of_upsertKinds {driver : Driver} {now : String}
    {records : List ExchangeRecord} {d d' : Db} {n : Nat}
    (h : upsertKinds driver now records referenceInsertOrder d = .ok (d', n)) :
    applyPullPage driver now d records = (recomputeDerived now d').map fun d'' => (d'', n) := by
  rw [applyPullPage, h, ok_bind]
  show (recomputeDerived now d' >>= fun d'' => Except.ok (d'', n)) = _
  cases recomputeDerived now d' <;> rfl

/-! ## A page of rows -/

/-- A local row under the server's row with its id: its cached quantity stays. -/
def adopt : (k : Kind) → Row k → Row k → Row k
  | .product, (s : Product), (p : Product) => { s with quantity := p.quantity }
  | .batch, (s : Batch), (b : Batch) => { s with quantity := b.quantity }
  | .warehouse, s, _ | .customer, s, _ | .dictionary, s, _ | .sale, s, _ | .operation, s, _
  | .cashMovement, s, _ => s

/-- A local entry under the server's entry with its code: its id stays. -/
def adoptEntry (s e : Dictionary) : Dictionary := { s with id := e.id }

theorem keepsKey_adopt (k : Kind) : KeepsKey (rowId k) (adopt k) := by
  intro s r h
  cases k <;> exact h

theorem keepsKey_adoptEntry : KeepsKey Dictionary.code adoptEntry := fun _ _ h => h

/-- A cell an update leaves is the local row's, another the record's. -/
theorem updateCells_value (driver : Driver) {k : Kind} (kept : List String) (s r : Row k) :
    ∃ cell : String → Value, (updateCells driver k kept (toData k s) r).value = cell ∧
      (∀ kv ∈ toData k r, kv.1 ∈ kept → cell kv.1 = kv.2) ∧
      ∀ kv ∈ toData k s, kv.1 ∉ kept → cell kv.1 = kv.2 := by
  refine ⟨_, rfl, fun kv hkv hkept => ?_, fun kv hkv hkept => ?_⟩
  · exact (if_pos hkept).trans (valueAt_toData hkv)
  · exact (if_neg hkept).trans (valueAt_toData hkv)

theorem updateRow_adopt (driver : Driver) {k : Kind} {s r : Row k} (h : rowId k s = rowId k r) :
    updateRow driver k ["id", "quantity"] (toData k s) r = .ok (adopt k s r) := by
  obtain ⟨cell, hcell, hlocal, hserver⟩ := updateCells_value driver ["id", "quantity"] s r
  refine rowOf_eq ?_
  rw [hcell]
  cases k <;>
    simp only [rowId] at h <;>
    simp only [toData, List.forall_mem_cons] at hlocal hserver <;>
    simp only [List.mem_cons, List.not_mem_nil, String.reduceEq, or_self, or_false, or_true,
      not_true_eq_false, not_false_eq_true, false_implies, forall_const, implies_true, and_true,
      true_and] at hlocal hserver <;>
    simp only [toData, adopt, h, List.forall_mem_cons, List.not_mem_nil, false_implies,
      implies_true, hlocal, hserver, and_self]

theorem updateRow_adoptEntry (driver : Driver) {s e : Dictionary} (h : s.code = e.code) :
    updateRow driver .dictionary ["id", "code"] (toData .dictionary s) e = .ok (adoptEntry s e) := by
  obtain ⟨cell, hcell, hlocal, hserver⟩ :=
    updateCells_value (k := .dictionary) driver ["id", "code"] s e
  refine rowOf_eq (k := .dictionary) ?_
  rw [hcell]
  simp only [toData, List.forall_mem_cons] at hlocal hserver
  simp only [List.mem_cons, List.not_mem_nil, String.reduceEq, or_self, or_false, or_true,
    not_true_eq_false, not_false_eq_true, false_implies, forall_const, implies_true, and_true,
    true_and] at hlocal hserver
  simp only [toData, adoptEntry, h, List.forall_mem_cons, List.not_mem_nil, false_implies,
    implies_true, hlocal, hserver, and_self]

/-! ## An upsert -/

section Upsert

variable {driver : Driver} {now : String} {d d' : Db} {k : Kind} {kept : List String}
  {hits : Data → Row k → Bool} {key : Row k → String} {join : Row k → Row k → Row k}

/-- The updates of a table: a record hits the row with its key, and joins it. -/
structure Updates (driver : Driver) (k : Kind) (kept : List String) (hits : Data → Row k → Bool)
    (key : Row k → String) (join : Row k → Row k → Row k) : Prop where
  hits : ∀ s r, hits (toData k s) r = decide (key r = key s)
  row : ∀ s r, key s = key r → updateRow driver k kept (toData k s) r = .ok (join s r)
  keeps : KeepsKey key join
  arrives : ∀ s, key (arrived k s) = key s

theorem Updates.byId (driver : Driver) (k : Kind) :
    Updates driver k ["id", "quantity"] (sameId k) (rowId k) (adopt k) where
  hits s r := by rw [sameId, dataId_toData]
  row s r h := updateRow_adopt driver h
  keeps := keepsKey_adopt k
  arrives := rowId_arrived k

theorem dataCode_toData (e : Dictionary) : dataCode (toData .dictionary e) = some e.code := rfl

theorem Updates.byCode (driver : Driver) :
    Updates driver .dictionary ["id", "code"] sameCode Dictionary.code adoptEntry where
  hits s e := by
    rw [sameCode, dataCode_toData, decide_eq_decide, Option.some_inj]
    exact eq_comm
  row s e h := updateRow_adoptEntry driver h
  keeps := keepsKey_adoptEntry
  arrives _ := rfl

theorem Updates.updateWhere_ok_iff (h : Updates driver k kept hits key join) (s : Row k) :
    updateWhere driver k kept (hits (toData k s)) (toData k s) d = .ok d' ↔
      (d.set k (update key join (d.get k) s)).Ok ∧
        d' = d.set k (update key join (d.get k) s) := by
  have hrow : ∀ r ∈ d.get k,
      (if hits (toData k s) r then updateRow driver k kept (toData k s) r else .ok r) =
        (.ok (if key r = key s then join s r else r) : Except Exn (Row k)) := by
    intro r _
    by_cases hkey : key r = key s
    · rw [if_pos ((h.hits s r).trans (decide_eq_true hkey)), if_pos hkey]
      exact h.row s r hkey.symm
    · rw [if_neg (by rw [h.hits, decide_eq_true_eq]; exact hkey), if_neg hkey]
  unfold updateWhere
  rw [mapM_ok hrow, ok_bind, ← Db.check_iff]
  show (if (d.set k (update key join (d.get k) s)).check then
    Except.ok (d.set k (update key join (d.get k) s)) else .error Exn.integrity) = .ok d' ↔ _
  split_ifs with hcheck
  · rw [and_iff_right hcheck, Except.ok.injEq, eq_comm]
  · exact iff_of_false (fun h => nomatch h) fun h => hcheck h.1

/-- One update after another: each state on the way is checked. -/
theorem Updates.updateEach_ok_iff (h : Updates driver k kept hits key join) {rows : List (Row k)} :
    updateEach driver k kept hits (rows.map (toData k)) d = .ok d' ↔
      (∀ m, m <+: rows → m ≠ [] → (d.set k (m.foldl (update key join) (d.get k))).Ok) ∧
        d' = d.set k (rows.foldl (update key join) (d.get k)) := by
  induction rows generalizing d with
  | nil =>
    rw [List.foldl_nil, Db.set_get]
    constructor
    · intro h
      cases h
      exact ⟨fun m hm hne => absurd (List.prefix_nil.mp hm) hne, rfl⟩
    · rintro ⟨-, rfl⟩
      rfl
  | cons s rows ih =>
    rw [List.map_cons, updateEach, bind_ok_iff]
    simp only [h.updateWhere_ok_iff, and_assoc]
    constructor
    · rintro ⟨_, hfirst, rfl, hrest⟩
      obtain ⟨hall, rfl⟩ := ih.mp hrest
      rw [Db.get_set_same, Db.set_set]
      refine ⟨fun m hm hne => ?_, rfl⟩
      obtain rfl | ⟨m, rfl, hrest⟩ := List.prefix_cons_iff.mp hm
      · exact absurd rfl hne
      · cases m with
        | nil => exact hfirst
        | cons s' m =>
          have hok := hall _ hrest (List.cons_ne_nil _ _)
          rwa [Db.get_set_same, Db.set_set] at hok
    · rintro ⟨hall, rfl⟩
      refine ⟨_, hall [s] ⟨rows, rfl⟩ (List.cons_ne_nil _ _), rfl, ih.mpr ⟨fun m hm _ => ?_, ?_⟩⟩
      · rw [Db.get_set_same, Db.set_set]
        exact hall (s :: m) (List.prefix_cons_iff.mpr (.inr ⟨m, rfl, hm⟩)) (List.cons_ne_nil _ _)
      · rw [Db.get_set_same, Db.set_set]
        rfl

/-- **An upsert** lays the records over the table; each state on the way is checked. -/
theorem Updates.upsert_ok_iff (h : Updates driver k kept hits key join) (hd : d.Ok)
    {new old : List (Row k)} (hnew : ∀ s ∈ new, key s ∉ (d.get k).map key)
    (hold : ∀ s ∈ old, key s ∈ (d.get k).map key) (hnodup : (old.map key).Nodup) :
    (∃ n, upsert driver now k kept hits (new.map (toData k)) (old.map (toData k)) d =
        .ok (d', n)) ↔
      (∀ m, m <+: old →
        (d.set k (overlay key join (d.get k) (new.map (arrived k) ++ m))).Ok) ∧
        d' = d.set k (overlay key join (d.get k) (new.map (arrived k) ++ old)) := by
  have hrows : (new.map (toData k)).mapM (insertRow driver now k) = .ok (new.map (arrived k)) := by
    rw [List.mapM_map]
    exact mapM_ok fun s _ => insertRow_toData driver now k s
  have harrived : ∀ s ∈ new.map (arrived k), key s ∉ (d.get k).map key :=
    List.forall_mem_map.mpr fun s hs => (h.arrives s).symm ▸ hnew s hs
  have hprefix : ∀ m, m <+: old →
      m.foldl (update key join) ((d.insert k (new.map (arrived k))).get k) =
        overlay key join (d.get k) (new.map (arrived k) ++ m) := by
    intro m hm
    rw [Db.get_insert_same]
    exact update_eq_overlay h.keeps harrived (fun s hs => hold s (hm.subset hs))
      (hnodup.sublist (hm.sublist.map key))
  have hset : ∀ rows, (d.insert k (new.map (arrived k))).set k rows = d.set k rows :=
    fun rows => Db.set_set ..
  unfold upsert
  simp only [hrows, ok_bind]
  have hempty : d.insert k (new.map (arrived k)) =
      d.set k (overlay key join (d.get k) (new.map (arrived k) ++ [])) := by
    rw [← hprefix [] List.nil_prefix, List.foldl_nil, Db.get_insert_same]
    rfl
  constructor
  · rintro ⟨n, hn⟩
    obtain ⟨d₁, hinsert, hn⟩ := bind_ok_iff.mp hn
    obtain ⟨d₂, hupdate, hn⟩ := bind_ok_iff.mp hn
    cases hn
    obtain ⟨hok, rfl⟩ := (insertAll_ok_iff hd).mp hinsert
    obtain ⟨hall, rfl⟩ := h.updateEach_ok_iff.mp hupdate
    rw [hset, hprefix old List.prefix_rfl]
    refine ⟨fun m hm => ?_, rfl⟩
    cases m with
    | nil => rwa [← hempty]
    | cons s m =>
      have hstate := hall _ hm (List.cons_ne_nil _ _)
      rwa [hset, hprefix _ hm] at hstate
  · rintro ⟨hall, rfl⟩
    have hfirst := hall [] List.nil_prefix
    rw [← hempty] at hfirst
    refine ⟨(new.map (toData k)).length + (old.map (toData k)).length, ?_⟩
    refine bind_ok_iff.mpr ⟨_, (insertAll_ok_iff hd).mpr ⟨hfirst, rfl⟩, ?_⟩
    refine bind_ok_iff.mpr ⟨_, h.updateEach_ok_iff.mpr ⟨fun m hm _ => ?_, rfl⟩, ?_⟩
    · rw [hset, hprefix m hm]
      exact hall m hm
    · rw [hset, hprefix old List.prefix_rfl]
      rfl

/-- The rows whose key a table does not have. -/
def newRows (key : Row k → String) (table rows : List (Row k)) : List (Row k) :=
  rows.filter fun s => key s ∉ table.map key

/-- The rows whose key a table has. -/
def oldRows (key : Row k → String) (table rows : List (Row k)) : List (Row k) :=
  rows.filter fun s => key s ∈ table.map key

/-- The new rows and the first of the others are among the rows. -/
theorem subperm_rows {table rows m : List (Row k)} (hm : m <+: oldRows key table rows) :
    List.Subperm (newRows key table rows ++ m) rows := by
  have hpart := List.filter_append_perm (fun s => decide (key s ∉ table.map key)) rows
  refine List.Subperm.trans ?_ hpart.subperm
  refine (List.Sublist.append_left (hm.sublist.trans ?_) _).subperm
  simp only [oldRows, decide_not, Bool.not_not]
  exact List.Sublist.refl _

/-- The rows are told apart by their ids. -/
theorem upsertById_eq (rows : List (Row k)) :
    upsertById driver now k (rows.map (toData k)) d =
      upsert driver now k ["id", "quantity"] (sameId k)
        ((newRows (rowId k) (d.get k) rows).map (toData k))
        ((oldRows (rowId k) (d.get k) rows).map (toData k)) d := by
  have hid : ∀ r, dataId (toData k r) = rowId k r := dataId_toData k
  have hnew : (partitionNew (d.ids k) (rows.map (toData k))).1 =
      (newRows (rowId k) (d.get k) rows).map (toData k) := by
    rw [partitionNew_fst, List.filter_map]
    congr 2
    funext s
    simp only [Function.comp_apply, hid, Db.ids]
  have hids : ((newRows (rowId k) (d.get k) rows).map (toData k)).map dataId =
      (newRows (rowId k) (d.get k) rows).map (rowId k) := by
    rw [List.map_map]
    exact List.map_congr_left fun s _ => hid s
  unfold upsertById
  dsimp only
  rw [hnew, hids, List.filter_map]
  congr 2
  refine List.filter_congr fun s hs => ?_
  rw [Function.comp_apply, hid, decide_eq_decide, not_iff_comm, newRows]
  constructor
  · exact fun h => List.mem_map.mpr ⟨s, List.mem_filter.mpr ⟨hs, decide_eq_true h⟩, rfl⟩
  · intro h
    obtain ⟨s', hs', heq⟩ := List.mem_map.mp h
    rw [← heq]
    exact of_decide_eq_true (List.mem_filter.mp hs').2

/-- **The upsert by id.** -/
theorem upsertById_ok_iff (hd : d.Ok) {rows : List (Row k)} (hnodup : (rows.map (rowId k)).Nodup) :
    (∃ n, upsertById driver now k (rows.map (toData k)) d = .ok (d', n)) ↔
      (∀ m, m <+: oldRows (rowId k) (d.get k) rows → (d.set k (overlay (rowId k) (adopt k) (d.get k)
        ((newRows (rowId k) (d.get k) rows).map (arrived k) ++ m))).Ok) ∧
        d' = d.set k (overlay (rowId k) (adopt k) (d.get k)
          ((newRows (rowId k) (d.get k) rows).map (arrived k) ++
            oldRows (rowId k) (d.get k) rows)) := by
  rw [upsertById_eq]
  exact (Updates.byId driver k).upsert_ok_iff hd
    (fun s hs => of_decide_eq_true (List.mem_filter.mp hs).2)
    (fun s hs => of_decide_eq_true (List.mem_filter.mp hs).2)
    (hnodup.sublist (List.filter_sublist.map _))

/-- The entries with a code. -/
def coded (rows : List Dictionary) : List Dictionary := rows.filter fun s => s.code ≠ ""

theorem coded_append (rows rows' : List Dictionary) : coded (rows ++ rows') = coded rows ++ coded rows' :=
  List.filter_append ..

/-- The entries are told apart by their codes. -/
theorem upsertDictionary_eq (rows : List Dictionary) :
    upsertDictionary driver now (rows.map (toData .dictionary)) d =
      upsert driver now .dictionary ["id", "code"] sameCode
        ((newRows (k := .dictionary) Dictionary.code d.dictionary (coded rows)).map
          (toData .dictionary))
        ((oldRows (k := .dictionary) Dictionary.code d.dictionary (coded rows)).map
          (toData .dictionary)) d := by
  have hcoded : (rows.map (toData .dictionary)).filter
      (fun row => isTruthy (valueAt "code" row)) = (coded rows).map (toData .dictionary) := by
    rw [List.filter_map]
    rfl
  have hcodes : ((coded rows).map (toData .dictionary)).filterMap dataCode =
      (coded rows).map Dictionary.code := by
    rw [List.filterMap_map]
    exact congrFun (List.filterMap_eq_map (f := Dictionary.code)) _
  have hthere : ∀ s ∈ coded rows,
      ((dataCode (toData .dictionary s)).any fun code => decide (code ∈
        existingIds (d.dictionary.map Dictionary.code) ((coded rows).map Dictionary.code))) =
      decide (s.code ∈ d.dictionary.map Dictionary.code) := by
    intro s hs
    show decide (s.code ∈ _) = _
    rw [decide_eq_decide, mem_existingIds, and_iff_left (List.mem_map_of_mem hs)]
  unfold upsertDictionary
  dsimp only
  rw [hcoded, hcodes, List.filter_map, List.filter_map]
  congr 2
  · refine List.filter_congr fun s hs => ?_
    rw [Function.comp_apply, hthere s hs, ← decide_not]
  · exact List.filter_congr fun s hs => hthere s hs

/-- **The upsert of the dictionary.** -/
theorem upsertDictionary_ok_iff (hd : d.Ok) {rows : List Dictionary}
    (hnodup : (rows.map Dictionary.code).Nodup) :
    (∃ n, upsertDictionary driver now (rows.map (toData .dictionary)) d = .ok (d', n)) ↔
      (∀ m, m <+: oldRows (k := .dictionary) Dictionary.code d.dictionary (coded rows) →
        (d.set .dictionary (overlay Dictionary.code adoptEntry d.dictionary
          (newRows (k := .dictionary) Dictionary.code d.dictionary (coded rows) ++ m))).Ok) ∧
        d' = d.set .dictionary (overlay Dictionary.code adoptEntry d.dictionary (coded rows)) := by
  have hcoded : ((coded rows).map Dictionary.code).Nodup :=
    hnodup.sublist (List.filter_sublist.map _)
  rw [upsertDictionary_eq, ← overlay_partition hcoded]
  have hnew : ∀ s ∈ newRows (k := .dictionary) Dictionary.code d.dictionary (coded rows),
      s.code ∉ d.dictionary.map Dictionary.code :=
    fun s hs => of_decide_eq_true (List.mem_filter.mp hs).2
  have hold : ∀ s ∈ oldRows (k := .dictionary) Dictionary.code d.dictionary (coded rows),
      s.code ∈ d.dictionary.map Dictionary.code :=
    fun s hs => of_decide_eq_true (List.mem_filter.mp hs).2
  rw [(Updates.byCode driver).upsert_ok_iff hd hnew hold
    (hcoded.sublist (List.filter_sublist.map _)), show arrived .dictionary = id from rfl, List.map_id]
  rfl

end Upsert

/-! ## What the two merges leave alone -/

section Frame

variable {driver : Driver} {now : String} {records : List ExchangeRecord} {d d' : Db} {n : Nat}

theorem insertAll_frame {k k' : Kind} {rows : List (Row k)} (h : insertAll d k rows = .ok d')
    (hk : k' ≠ k) : d'.get k' = d.get k' := by
  unfold insertAll at h
  cases rows with
  | nil =>
    cases h
    rfl
  | cons row rows =>
    dsimp only at h
    split_ifs at h
    cases h
    exact Db.get_insert_ne d hk _

theorem updateWhere_frame {k k' : Kind} {kept : List String} {hits : Row k → Bool} {data : Data}
    (h : updateWhere driver k kept hits data d = .ok d') (hk : k' ≠ k) : d'.get k' = d.get k' := by
  obtain ⟨rows, -, h⟩ := bind_ok_iff.mp h
  split_ifs at h
  cases h
  exact Db.get_set_ne d hk _

theorem updateEach_frame {k k' : Kind} {kept : List String} {hits : Data → Row k → Bool}
    {rows : List Data} (h : updateEach driver k kept hits rows d = .ok d') (hk : k' ≠ k) :
    d'.get k' = d.get k' := by
  induction rows generalizing d with
  | nil =>
    cases h
    rfl
  | cons data rows ih =>
    obtain ⟨d₁, hfirst, h⟩ := bind_ok_iff.mp h
    exact (ih h).trans (updateWhere_frame hfirst hk)

theorem upsert_frame {k k' : Kind} {kept : List String} {hits : Data → Row k → Bool}
    {new existing : List Data} (h : upsert driver now k kept hits new existing d = .ok (d', n))
    (hk : k' ≠ k) : d'.get k' = d.get k' := by
  obtain ⟨inserted, -, h⟩ := bind_ok_iff.mp h
  obtain ⟨d₁, hinsert, h⟩ := bind_ok_iff.mp h
  obtain ⟨d₂, hupdate, h⟩ := bind_ok_iff.mp h
  cases h
  exact (updateEach_frame hupdate hk).trans (insertAll_frame hinsert hk)

theorem updateEach_ok {k : Kind} {kept : List String} {hits : Data → Row k → Bool}
    {rows : List Data} (hd : d.Ok) (h : updateEach driver k kept hits rows d = .ok d') : d'.Ok := by
  induction rows generalizing d with
  | nil =>
    cases h
    exact hd
  | cons data rows ih =>
    obtain ⟨d₁, hfirst, h⟩ := bind_ok_iff.mp h
    obtain ⟨rows₁, -, hfirst⟩ := bind_ok_iff.mp hfirst
    split_ifs at hfirst with hcheck
    cases hfirst
    exact ih ((Db.check_iff _).mp hcheck) h

/-- The constraints are checked statement by statement. -/
theorem upsertKind_ok {k : Kind} (hd : d.Ok) (h : upsertKind driver now records k d = .ok (d', n)) :
    d'.Ok := by
  have hupsert : ∀ {kept hits new existing},
      upsert driver now k kept hits new existing d = .ok (d', n) → d'.Ok := by
    intro kept hits new existing h
    obtain ⟨inserted, -, h⟩ := bind_ok_iff.mp h
    obtain ⟨d₁, hinsert, h⟩ := bind_ok_iff.mp h
    obtain ⟨d₂, hupdate, h⟩ := bind_ok_iff.mp h
    cases h
    obtain ⟨hok, rfl⟩ := (insertAll_ok_iff hd).mp hinsert
    exact updateEach_ok hok hupdate
  unfold upsertKind at h
  split_ifs at h with hdictionary
  · subst hdictionary
    exact hupsert h
  · exact hupsert h

theorem upsertKinds_ok {kinds : List Kind} (hd : d.Ok)
    (h : upsertKinds driver now records kinds d = .ok (d', n)) : d'.Ok := by
  induction kinds generalizing d n with
  | nil =>
    cases h
    exact hd
  | cons k kinds ih =>
    obtain ⟨⟨d₁, applied⟩, hfirst, h⟩ := bind_ok_iff.mp h
    obtain ⟨⟨d₂, rest⟩, hrest, h⟩ := bind_ok_iff.mp h
    cases h
    exact ih (upsertKind_ok hd hfirst) hrest

/-- An applied page keeps the constraints. -/
theorem applyPullPage_ok (hd : d.Ok) (h : applyPullPage driver now d records = .ok (d', n)) :
    d'.Ok := by
  obtain ⟨⟨d₁, applied⟩, hkinds, h⟩ := bind_ok_iff.mp h
  obtain ⟨d₂, hderived, h⟩ := bind_ok_iff.mp h
  cases h
  obtain ⟨-, rfl⟩ := recomputeDerived_ok_iff.mp hderived
  exact recompute_ok (upsertKinds_ok hd hkinds)

/-- An upsert changes the table of its kind alone. -/
theorem upsertKind_frame {k k' : Kind} (h : upsertKind driver now records k d = .ok (d', n))
    (hk : k' ≠ k) : d'.get k' = d.get k' := by
  unfold upsertKind at h
  split_ifs at h with hdictionary
  · subst hdictionary
    exact upsert_frame h hk
  · exact upsert_frame h hk

/-- A page changes the tables of the kinds it goes through. -/
theorem upsertKinds_frame {kinds : List Kind} {k : Kind}
    (h : upsertKinds driver now records kinds d = .ok (d', n)) (hk : k ∉ kinds) :
    d'.get k = d.get k := by
  induction kinds generalizing d n with
  | nil =>
    cases h
    rfl
  | cons k' kinds ih =>
    obtain ⟨hne, hk⟩ := List.ne_and_not_mem_of_not_mem_cons hk
    obtain ⟨⟨d₁, applied⟩, hfirst, h⟩ := bind_ok_iff.mp h
    obtain ⟨⟨d₂, rest⟩, hrest, h⟩ := bind_ok_iff.mp h
    cases h
    exact (ih hrest hk).trans (upsertKind_frame hfirst hne)

/-- **A merge adds rows** and rewrites none but for the cached quantities. -/
theorem applyMerge_frame {report : MergeReport} (hd : d.Ok)
    (h : applyMerge driver now d records = .ok (d', report)) (k : Kind) :
    ∃ kept new, d'.get k = kept ++ new ∧ kept.map (master k) = (d.get k).map (master k) := by
  obtain ⟨rows, -, -, hderived, -⟩ := (applyMerge_ok_iff hd).mp h
  obtain ⟨-, rfl⟩ := recomputeDerived_ok_iff.mp hderived
  rw [get_recompute, Db.get_receive, List.map_append]
  refine ⟨_, _, rfl, ?_⟩
  rw [List.map_map]
  exact List.map_congr_left fun r _ => master_derive ..

/-- **A page leaves the ledgers alone**, and the quantities follow them. -/
theorem applyPullPage_frame (h : applyPullPage driver now d records = .ok (d', n)) :
    d'.operations = d.operations ∧ d'.cashMovements = d.cashMovements ∧ Settled d' := by
  obtain ⟨⟨d₁, applied⟩, hkinds, h⟩ := bind_ok_iff.mp h
  obtain ⟨d₂, hderived, h⟩ := bind_ok_iff.mp h
  cases h
  have hframe : ∀ k ∉ referenceInsertOrder, d₁.get k = d.get k := fun k => upsertKinds_frame hkinds
  have hsettled := settled_of_recomputeDerived hderived
  obtain ⟨-, rfl⟩ := recomputeDerived_ok_iff.mp hderived
  exact ⟨hframe .operation (by decide), hframe .cashMovement (by decide), hsettled⟩

/-- **The server wins and nothing is rewritten**: a merge keeps every row that was there, whatever
the records say, and a page keeps both ledgers and counts its stock by them. -/
theorem nothing_rewritten (driver : Driver) (now : String) (db : Database)
    (records : List ExchangeRecord) :
    (∀ d' report, applyMerge driver now db.db records = .ok (d', report) → ∀ k, ∃ kept new,
      d'.get k = kept ++ new ∧ kept.map (master k) = (db.db.get k).map (master k)) ∧
    (∀ d' n, applyPullPage driver now db.db records = .ok (d', n) →
      d'.operations = db.db.operations ∧ d'.cashMovements = db.db.cashMovements ∧
      (∀ p ∈ d'.products, p.quantity = computeStock d'.operations p.id) ∧
      ∀ b ∈ d'.batches, b.quantity = computeBatchStock d'.operations b) := by
  refine ⟨fun d' report h k => applyMerge_frame db.ok h k, fun d' n h => ?_⟩
  obtain ⟨hops, hcash, hsettled⟩ := applyPullPage_frame h
  exact ⟨hops, hcash, hsettled.product, hsettled.batch⟩

end Frame

/-- A database with one card. -/
def oneCard : Db where
  products := [blankProduct "p" ""]

/-- The card as another device has it. -/
def otherCard : ExchangeRecord :=
  rowRecord .product { blankProduct "p" "" with name := "other", quantity := 9 }

theorem nothing_rewritten_oneCard : ∃ d' report d'' n,
    applyMerge Driver.strict "" oneCard [otherCard] = .ok (d', report) ∧
      (∃ kept new, d'.get .product = kept ++ new ∧
        kept.map (master .product) = oneCard.products.map (master .product)) ∧
      applyPullPage Driver.strict "" oneCard [otherCard] = .ok (d'', n) ∧
      ∀ p ∈ d''.products, p.quantity = computeStock d''.operations p.id := by
  obtain ⟨hmerge, hpull⟩ :=
    nothing_rewritten Driver.strict "" ⟨oneCard, by decide⟩ [otherCard]
  have hmerges : (applyMerge Driver.strict "" oneCard [otherCard]).toOption.isSome := by
    decide
  have hpulls : (applyPullPage Driver.strict "" oneCard [otherCard]).toOption.isSome := by
    decide
  cases h : applyMerge Driver.strict "" oneCard [otherCard] with
  | error e =>
    rw [h] at hmerges
    cases hmerges
  | ok out =>
    cases h' : applyPullPage Driver.strict "" oneCard [otherCard] with
    | error e =>
      rw [h'] at hpulls
      cases hpulls
    | ok out' =>
      exact ⟨out.1, out.2, out'.1, out'.2, rfl, hmerge _ _ h .product, rfl, (hpull _ _ h').2.2.1⟩

end MyOriShop
