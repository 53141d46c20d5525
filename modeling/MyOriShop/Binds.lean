import MyOriShop.PushClosure

/-!
# Binds: the parameters of a membership statement (`app/services/sync_client.py`, `merge.py`)

`WHERE column IN (...)` binds one parameter for each member, and SQLite binds no more than so many
in one statement (`sqliteCap`, as the comment at `_IN_CHUNK` has it). `_load_by_ids`,
`_partition_new` and the dictionary branch of `_apply_pull_page` send their list in chunks; the
stamp of `run_sync_once` sends it whole.

* `Membership`: such a statement; `Hits`: the rows its condition selects.
* `collectStatements`, `stampStatements`, `partitionStatements`, `pullPageStatements`: what the four
  functions send.
* `pushRound`: an accepted push with its stamp, on a database with the cap.

Results:
* `hits_probes`: the chunks of a list select what the list selects.
* `binds_capped_iff`: all these statements stay within the cap, and an accepted push is stamped,
  exactly when neither ledger has more than 998 unsynced rows.
* `pushRound_stuck`: past them no accepted push is ever stamped.
* `not_binds_capped`: a ledger of 999 unsynced rows.
-/

namespace MyOriShop

open Lib.Json (Value valueAt)

/-! ## Statements -/

/-- A statement with `WHERE column IN (members)`, and the values it sets. -/
structure Membership where
  kind : Kind
  column : String
  members : List Value
  sets : List (String × Value) := []

namespace Membership

/-- The parameters that are bound. -/
def parameters (s : Membership) : Nat := s.members.length + s.sets.length

/-- The condition selects the row. -/
def Hits (s : Membership) (k : Kind) (r : Row k) : Prop :=
  s.kind = k ∧ valueAt s.column (toData k r) ∈ s.members

end Membership

/-- The cap on the parameters of one statement. -/
def sqliteCap : Nat := 999

/-- `SELECT ... WHERE column IN (chunk)`, one for each chunk. -/
def probes (k : Kind) (column : String) (members : List Value) : List Membership :=
  (chunks members).map fun chunk => { kind := k, column := column, members := chunk }

/-- `_load_by_ids`: the ids come as a set. -/
def loadStatements (k : Kind) (ids : List String) : List Membership :=
  probes k "id" (ids.dedup.map Value.str)

/-- `collect_push_records`: the parents of the unsynced rows, and the parents of these. -/
def collectStatements (d : Db) : List Membership :=
  loadStatements .sale
    (((unsyncedOps d).filterMap Operation.saleId ++
      (unsyncedCash d).filterMap CashMovement.saleId).filter (· ≠ "")) ++
  loadStatements .batch (((unsyncedOps d).filterMap Operation.batchId).filter (· ≠ "")) ++
  loadStatements .warehouse ((pushedBatches d).map Batch.warehouseId) ++
  loadStatements .product
    (((unsyncedOps d).map Operation.productId).filter (· ≠ "") ++
      (pushedBatches d).map Batch.productId) ++
  loadStatements .customer (((pushedSales d).filterMap Sale.customerId).filter (· ≠ ""))

/-- The stamp of one ledger: one `UPDATE` over all of its ids, if there are any. -/
def stampLedger (stamp : String) (k : Kind) (ids : List String) : List Membership :=
  if ids = [] then []
  else
    [{ kind := k, column := "id", members := ids.map Value.str
       sets := [("synced_at", .str stamp)] }]

/-- The stamp of `run_sync_once`. -/
def stampStatements (stamp : String) (ids : PushIds) : List Membership :=
  stampLedger stamp .operation ids.operations ++ stampLedger stamp .cashMovement ids.cashMovements

/-- `_partition_new`. -/
def partitionStatements (k : Kind) (rows : List Data) : List Membership :=
  probes k "id" (rows.map fun row => .str (dataId row))

/-- One kind of a page: a dictionary is probed for its codes. -/
def pullStatements (records : List ExchangeRecord) (k : Kind) : List Membership :=
  if k = .dictionary then
    probes k "code"
      (((bucket records k).filter fun row => isTruthy (valueAt "code" row)).map (valueAt "code"))
  else partitionStatements k (bucket records k)

/-- `_apply_pull_page`. -/
def pullPageStatements (records : List ExchangeRecord) : List Membership :=
  referenceInsertOrder.flatMap (pullStatements records)

/-- The stamp on a database with the cap: a statement above it raises, and the transaction is
rolled back. -/
def stampPush (stamp : String) (ids : PushIds) (d : Db) : Option Db :=
  if (stampStatements stamp ids).all (·.parameters ≤ sqliteCap) then some (stampSynced stamp ids d)
  else none

/-- A push that the server has accepted, and what its stamp leaves. -/
def pushRound (stamp : String) (d : Db) : Db :=
  (stampPush stamp (collectPushRecords d).2 d).getD d

/-! ## Chunks -/

variable {d : Db} {k : Kind} {s : Membership}

theorem length_of_mem_chunks {α : Type} {ids chunk : List α} (h : chunk ∈ chunks ids) :
    chunk.length ≤ inChunk := by
  unfold chunks at h
  obtain ⟨i, -, rfl⟩ := List.mem_map.mp h
  exact List.length_take_le _ _

/-- A chunk stays within the cap. -/
theorem parameters_probes {column : String} {members : List Value}
    (h : s ∈ probes k column members) : s.parameters ≤ sqliteCap := by
  obtain ⟨chunk, hchunk, rfl⟩ := List.mem_map.mp h
  have hlen := length_of_mem_chunks hchunk
  have hcap : inChunk ≤ sqliteCap := by decide
  simp only [Membership.parameters, List.length_nil, Nat.add_zero]
  omega

/-- **The chunks of a list** select what the list selects. -/
theorem hits_probes {column : String} {members : List Value} {r : Row k} :
    (∃ s ∈ probes k column members, s.Hits k r) ↔ valueAt column (toData k r) ∈ members := by
  rw [← mem_chunks]
  constructor
  · rintro ⟨s, hs, -, hhits⟩
    obtain ⟨chunk, hchunk, rfl⟩ := List.mem_map.mp hs
    exact ⟨chunk, hchunk, hhits⟩
  · rintro ⟨chunk, hchunk, hmem⟩
    exact ⟨_, List.mem_map_of_mem hchunk, rfl, hmem⟩

/-- What `_load_by_ids` returns is what its statements select. -/
theorem mem_loadByIds {ids : List String} {r : Row k} (hid : rowId k r ≠ "") :
    r ∈ loadByIds d k ids ↔ r ∈ d.get k ∧ ∃ s ∈ loadStatements k ids, s.Hits k r := by
  have hvalue : valueAt "id" (toData k r) = .str (rowId k r) := by
    rw [valueAt_id (by rwa [dataId_toData]), dataId_toData]
  unfold loadByIds loadStatements
  rw [hits_probes, hvalue, List.mem_filter, decide_eq_true_eq]
  simp

/-! ## The four functions -/

theorem parameters_collect (h : s ∈ collectStatements d) : s.parameters ≤ sqliteCap := by
  simp only [collectStatements, loadStatements, List.mem_append] at h
  rcases h with (((h | h) | h) | h) | h <;> exact parameters_probes h

theorem parameters_partition {rows : List Data} (h : s ∈ partitionStatements k rows) :
    s.parameters ≤ sqliteCap := parameters_probes h

theorem parameters_pullPage {records : List ExchangeRecord} (h : s ∈ pullPageStatements records) :
    s.parameters ≤ sqliteCap := by
  obtain ⟨k, -, hs⟩ := List.mem_flatMap.mp h
  unfold pullStatements at hs
  split_ifs at hs
  · exact parameters_probes hs
  · exact parameters_partition hs

/-- The stamp of a ledger stays within the cap up to 998 ids. -/
theorem parameters_stampLedger {stamp : String} {ids : List String} :
    (∀ s ∈ stampLedger stamp k ids, s.parameters ≤ sqliteCap) ↔ ids.length ≤ 998 := by
  unfold stampLedger
  split_ifs with hempty
  · simp [hempty]
  · rw [List.forall_mem_singleton]
    simp only [Membership.parameters, sqliteCap, List.length_map, List.length_singleton]
    omega

theorem parameters_stamp {stamp : String} :
    (∀ s ∈ stampStatements stamp (collectPushRecords d).2, s.parameters ≤ sqliteCap) ↔
      (unsyncedOps d).length ≤ 998 ∧ (unsyncedCash d).length ≤ 998 := by
  unfold stampStatements
  rw [List.forall_mem_append, parameters_stampLedger, parameters_stampLedger]
  simp [collectPushRecords, unsyncedOps, unsyncedCash]

/-! ## Stamps -/

/-- A stamp leaves no unsynced row among those that were sent. -/
theorem unsynced_stampSynced (stamp : String) (d : Db) :
    unsyncedOps (stampSynced stamp (collectPushRecords d).2 d) = [] ∧
      unsyncedCash (stampSynced stamp (collectPushRecords d).2 d) = [] := by
  constructor
  · refine List.filter_eq_nil_iff.mpr fun o' ho' => ?_
    obtain ⟨o, ho, rfl⟩ := List.mem_map.mp ho'
    split_ifs with hmem
    · simp
    · intro hnone
      refine hmem (List.mem_map_of_mem (List.mem_filter.mpr ⟨ho, ?_⟩))
      simpa using hnone
  · refine List.filter_eq_nil_iff.mpr fun m' hm' => ?_
    obtain ⟨m, hm, rfl⟩ := List.mem_map.mp hm'
    split_ifs with hmem
    · simp
    · intro hnone
      refine hmem (List.mem_map_of_mem (List.mem_filter.mpr ⟨hm, ?_⟩))
      simpa using hnone

theorem stampPush_eq {stamp : String} {ids : PushIds} :
    stampPush stamp ids d =
      if ∀ s ∈ stampStatements stamp ids, s.parameters ≤ sqliteCap then
        some (stampSynced stamp ids d)
      else none := by
  unfold stampPush
  simp only [List.all_eq_true, decide_eq_true_eq]

/-- Past the cap an accepted push leaves the database as it was. -/
theorem pushRound_of_not {stamp : String}
    (h : ¬((unsyncedOps d).length ≤ 998 ∧ (unsyncedCash d).length ≤ 998)) :
    pushRound stamp d = d := by
  unfold pushRound
  rw [stampPush_eq, if_neg (mt parameters_stamp.mp h)]
  rfl

/-- **Re-sent for ever**: past the cap no number of accepted pushes stamps a row. -/
theorem pushRound_stuck (stamps : List String)
    (h : ¬((unsyncedOps d).length ≤ 998 ∧ (unsyncedCash d).length ≤ 998)) :
    stamps.foldl (fun d stamp => pushRound stamp d) d = d := by
  induction stamps with
  | nil => rfl
  | cons stamp stamps ih => rw [List.foldl_cons, pushRound_of_not h, ih]

/-- An accepted push is stamped exactly when its statements stay within the cap. -/
theorem pushRound_iff {stamp : String} :
    unsyncedOps (pushRound stamp d) = [] ∧ unsyncedCash (pushRound stamp d) = [] ↔
      (unsyncedOps d).length ≤ 998 ∧ (unsyncedCash d).length ≤ 998 := by
  constructor
  · intro hdone
    by_contra hover
    rw [pushRound_of_not hover] at hdone
    exact hover (by simp [hdone.1, hdone.2])
  · intro hcap
    unfold pushRound
    rw [stampPush_eq, if_pos (parameters_stamp.mpr hcap)]
    exact unsynced_stampSynced stamp d

/-- **The cap holds** for all statements of the four functions, and an accepted push leaves nothing
to send, exactly when neither ledger has more than 998 unsynced rows. -/
theorem binds_capped_iff (d : Db) (stamp : String) (k : Kind) (rows : List Data)
    (records : List ExchangeRecord) :
    ((∀ s ∈ collectStatements d ++ stampStatements stamp (collectPushRecords d).2 ++
        partitionStatements k rows ++ pullPageStatements records, s.parameters ≤ sqliteCap) ↔
      (unsyncedOps d).length ≤ 998 ∧ (unsyncedCash d).length ≤ 998) ∧
    (unsyncedOps (pushRound stamp d) = [] ∧ unsyncedCash (pushRound stamp d) = [] ↔
      (unsyncedOps d).length ≤ 998 ∧ (unsyncedCash d).length ≤ 998) := by
  refine ⟨?_, pushRound_iff⟩
  have hstamps : (∀ s ∈ stampStatements stamp (collectPushRecords d).2, s.parameters ≤ sqliteCap) ↔
      (unsyncedOps d).length ≤ 998 ∧ (unsyncedCash d).length ≤ 998 := parameters_stamp
  rw [← hstamps]
  simp only [List.mem_append]
  constructor
  · exact fun hall s hs => hall s (.inl (.inl (.inr hs)))
  · rintro hstamp s (((hs | hs) | hs) | hs)
    · exact parameters_collect hs
    · exact hstamp s hs
    · exact parameters_partition hs
    · exact parameters_pullPage hs

/-- The `n`-th deposit of a device. -/
def depositRow (n : Nat) : CashMovement where
  id := String.ofList (List.replicate (n + 1) 'x')
  category := "deposit_opening"
  amountCents := 100
  currency := "RUB"
  note := none
  saleId := none
  reversesMovementId := none
  authorId := none
  deviceId := "device"
  seq := n + 1
  createdAt := "2026-01-01T00:00:00+00:00"
  businessDate := none
  createdBy := "operator"
  syncedAt := none

/-- A till with so many deposits that no push has stamped. -/
def deposited (n : Nat) : Db := { cashMovements := (List.range n).map depositRow }

theorem deposited_ok (n : Nat) : (deposited n).Ok where
  pk k _ := by
    cases k with
    | cashMovement =>
      show (((List.range n).map depositRow).map CashMovement.id).Nodup
      rw [List.map_map]
      refine List.nodup_range.map_on fun a _ b _ h => ?_
      have hlen := congrArg String.length h
      simpa [depositRow] using hlen
    | _ => exact List.nodup_nil
  codeActive := List.nodup_nil
  dictionaryCode := List.nodup_nil
  operationSeq := List.nodup_nil
  cashSeq := by
    show (((List.range n).map depositRow).map fun m => (m.deviceId, m.seq)).Nodup
    rw [List.map_map]
    refine List.nodup_range.map_on fun a _ b _ h => ?_
    simpa [depositRow] using h
  operationProduct o h := absurd h List.not_mem_nil
  batchProduct b h := absurd h List.not_mem_nil
  batchWarehouse b h := absurd h List.not_mem_nil
  saleCustomer s h := absurd h List.not_mem_nil
  cashSale := by simp [deposited, depositRow]

theorem length_unsynced_deposited (n : Nat) : (unsyncedCash (deposited n)).length = n := by
  simp [unsyncedCash, deposited, List.filter_map, Function.comp_def, depositRow]

/-- **The cap does not hold of 999 unsynced rows**, and their accepted push is not stamped. -/
theorem not_binds_capped : ∃ d : Db, d.Ok ∧
    (∃ s ∈ stampStatements "2026-01-01T00:00:00+00:00" (collectPushRecords d).2,
      sqliteCap < s.parameters) ∧
    pushRound "2026-01-01T00:00:00+00:00" d = d ∧ unsyncedCash d ≠ [] := by
  have hlen := length_unsynced_deposited 999
  have hover : ¬((unsyncedOps (deposited 999)).length ≤ 998 ∧
      (unsyncedCash (deposited 999)).length ≤ 998) := by omega
  refine ⟨deposited 999, deposited_ok 999, ?_, pushRound_of_not hover, ?_⟩
  · by_contra hnone
    have hall : ∀ s ∈ stampStatements "2026-01-01T00:00:00+00:00"
        (collectPushRecords (deposited 999)).2, s.parameters ≤ sqliteCap :=
      fun s hs => not_lt.mp fun hlt => hnone ⟨s, hs, hlt⟩
    exact hover (parameters_stamp.mp hall)
  · intro hnil
    rw [hnil] at hlen
    exact absurd hlen (by decide)

end MyOriShop
