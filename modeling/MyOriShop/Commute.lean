import MyOriShop.Merge
import MyOriShop.Services.Catalog
import MyOriShop.Services.Finance

/-!
# Commute: merges of independent batches (`app/services/merge.py`, `app/services/ledger.py`)

Two devices push, and the server merges their batches in either order. Each merge recomputes every
quantity from the whole ledger, so the quantities are a function of the union; what the clock
leaves behind is not.

* `Independent` says when two batches are of different devices: disjoint ledgers, reference rows
  that agree where they share an id, codes that do not collide.
* `bare` is a row without `updated_at`, and without `created_at` where its record brings none: the
  two columns a merge may stamp with its clock.
* `FollowsLedgers` is a database whose quantities and balances are those of given ledgers.

Results:
* `bare_perm`: the rows that enter a table are the same in both orders.
* `applyMerge_commute`: so both orders end with the union of the ledgers, with the quantities and
  balances of the union, and with the same rows up to the two stamps.
-/

namespace MyOriShop

open Lib.Json (valueAt)
open Lib.Fallible Lib.Sums

variable {driver : Driver} {now : String} {d : Db}

/-! ## Rows without their stamps -/

/-- A record that brings the row has no `created_at`. -/
def undated (records : List ExchangeRecord) (k : Kind) (r : Row k) : Bool :=
  (bucket records k).any fun data =>
    decide (dataId data = rowId k r) && isNull (wireValue data "created_at")

/-- A row without the columns that a merge may stamp. -/
def bare (records : List ExchangeRecord) (k : Kind) (r : Row k) : Row k :=
  if undated records k r then setCreated "" k (setUpdated "" k r) else setUpdated "" k r

@[simp] theorem rowId_setUpdated (s : String) (k : Kind) (r : Row k) :
    rowId k (setUpdated s k r) = rowId k r := by
  cases k <;> rfl

@[simp] theorem rowId_setCreated (s : String) (k : Kind) (r : Row k) :
    rowId k (setCreated s k r) = rowId k r := by
  cases k <;> rfl

@[simp] theorem rowId_bare (records : List ExchangeRecord) (k : Kind) (r : Row k) :
    rowId k (bare records k r) = rowId k r := by
  unfold bare
  split_ifs <;> simp

theorem undated_congr {records : List ExchangeRecord} {k : Kind} {r r' : Row k}
    (h : rowId k r = rowId k r') : undated records k r = undated records k r' := by
  rw [undated, undated, h]

/-- Rows that are equal but for `updated_at` are the same bare rows. -/
theorem bare_congr {records : List ExchangeRecord} {k : Kind} {r r' : Row k}
    (h : setUpdated "" k r = setUpdated "" k r') : bare records k r = bare records k r' := by
  have hid : rowId k r = rowId k r' := by
    have := congrArg (rowId k) h
    rwa [rowId_setUpdated, rowId_setUpdated] at this
  rw [bare, bare, undated_congr hid, h]

theorem settle_setUpdated (ops : List Operation) (s : String) (k : Kind) (r : Row k) :
    settle ops k (setUpdated s k r) = setUpdated s k (settle ops k r) := by
  cases k <;> rfl

theorem settle_setCreated (ops : List Operation) (s : String) (k : Kind) (r : Row k) :
    settle ops k (setCreated s k r) = setCreated s k (settle ops k r) := by
  cases k <;> rfl

theorem bare_settle (records : List ExchangeRecord) (ops : List Operation) (k : Kind) (r : Row k) :
    bare records k (settle ops k r) = settle ops k (bare records k r) := by
  rw [bare, bare, undated_congr (rowId_settle ops k r)]
  split_ifs
  · rw [settle_setCreated, settle_setUpdated]
  · rw [settle_setUpdated]

theorem setUpdated_derive (now : String) (ops : List Operation) (k : Kind) (r : Row k) :
    setUpdated "" k (derive now ops k r) = setUpdated "" k (settle ops k r) := by
  cases k with
  | product =>
    obtain ⟨-, stamp, h⟩ := Product.setQuantity_cases now (computeStock ops (Product.id r)) r
    have hset := congrArg (setUpdated "" .product) h
    exact hset
  | batch =>
    obtain ⟨-, stamp, h⟩ := Batch.setQuantity_cases now (computeBatchStock ops r) r
    have hset := congrArg (setUpdated "" .batch) h
    exact hset
  | warehouse | customer | dictionary | sale | operation | cashMovement => rfl

theorem settle_settle (ops ops' : List Operation) (k : Kind) (r : Row k) :
    settle ops k (settle ops' k r) = settle ops k r := by
  cases k <;> rfl

/-- A recomputation settles the bare row. -/
theorem bare_derive (records : List ExchangeRecord) (now : String) (ops : List Operation) (k : Kind)
    (r : Row k) : bare records k (derive now ops k r) = settle ops k (bare records k r) := by
  rw [← bare_settle]
  exact bare_congr (setUpdated_derive now ops k r)

/-- An earlier recomputation leaves no trace on it. -/
theorem settle_bare_derive (records : List ExchangeRecord) (now : String) (ops ops' : List Operation)
    (k : Kind) (r : Row k) :
    settle ops k (bare records k (derive now ops' k r)) = settle ops k (bare records k r) := by
  rw [bare_derive, settle_settle]

/-! ## Codes that do not collide -/

/-- The code a product record puts under the partial unique index. -/
def codeOf (driver : Driver) (data : Data) : Option String :=
  match (insertCells driver "" .product data).optText "deleted_at",
    (insertCells driver "" .product data).optText "code" with
  | .ok none, .ok code => code
  | _, _ => none

/-- No code of a new active product is another's. -/
def CodesApart (driver : Driver) (d : Db) (records : List ExchangeRecord) : Prop :=
  ∀ data ∈ newData d records .product, ∀ c, codeOf driver data = some c →
    (∀ q ∈ d.products, q.activeCode ≠ some c) ∧
      ∀ data' ∈ newData d records .product, codeOf driver data' = some c →
        dataId data' = dataId data

theorem activeCode_insertRow {data : Data} {p : Product}
    (h : insertRow driver now .product data = .ok p) : p.activeCode = codeOf driver data := by
  have hclock : ∀ f, f = "deleted_at" ∨ f = "code" →
      (insertCells driver now .product data).optText f =
        (insertCells driver "" .product data).optText f := by
    rintro f (rfl | rfl) <;> rfl
  obtain ⟨_, -, h⟩ := bind_ok_iff.mp h
  obtain ⟨code, hcode, h⟩ := bind_ok_iff.mp h
  iterate 17 obtain ⟨_, -, h⟩ := bind_ok_iff.mp h
  obtain ⟨deletedAt, hdeleted, h⟩ := bind_ok_iff.mp h
  cases h
  rw [hclock _ (.inr rfl)] at hcode
  rw [hclock _ (.inl rfl)] at hdeleted
  unfold codeOf Product.activeCode
  rw [hcode, hdeleted]
  cases deletedAt <;> rfl

theorem codeConflicts_nil {products rows : List Product} {claimed : List (String × String)}
    (hfree : ∀ row ∈ rows, ∀ c, row.activeCode = some c →
      (∀ q ∈ products, q.activeCode ≠ some c) ∧ claimed.lookup c = none)
    (happart : rows.Pairwise fun p q => ∀ c, p.activeCode = some c → q.activeCode ≠ some c) :
    codeConflicts products claimed rows = [] := by
  induction rows generalizing claimed with
  | nil => rfl
  | cons row rows ih =>
    obtain ⟨hrow, hrows⟩ := List.pairwise_cons.mp happart
    have hrest := fun r hr => hfree r (List.mem_cons_of_mem _ hr)
    unfold codeConflicts
    cases hcode : row.activeCode with
    | none => exact ih hrest hrows
    | some code =>
      dsimp only
      by_cases hempty : code = ""
      · rw [if_pos hempty]
        exact ih hrest hrows
      · obtain ⟨hdb, hclaimed⟩ := hfree row List.mem_cons_self code hcode
        have hdbnone : dbIncumbent products code = none := by
          rw [dbIncumbent, Option.map_eq_none_iff, List.find?_eq_none]
          intro q hq
          simpa using hdb q hq
        have hnone : incumbent products claimed code = none := by
          rw [incumbent, hdbnone, hclaimed]
          rfl
        rw [if_neg hempty, hnone]
        refine ih (fun r hr c hc => ⟨(hrest r hr c hc).1, ?_⟩) hrows
        have hne : c ≠ code := fun h => hrow r hr code hcode (h ▸ hc)
        rw [List.lookup_cons, beq_false_of_ne hne]
        exact (hrest r hr c hc).2

/-- Rows whose codes are nobody else's pass the collision pass as they are. -/
theorem resolveKind_apart {rows : List Product} (hids : (rows.map Product.id).Nodup)
    (hdb : ∀ row ∈ rows, ∀ c, row.activeCode = some c → ∀ q ∈ d.products, q.activeCode ≠ some c)
    (hrows : ∀ p ∈ rows, ∀ q ∈ rows, ∀ c, p.activeCode = some c → q.activeCode = some c →
      q.id = p.id) : resolveCodeCollisions d.products rows = (rows, []) := by
  have hsorted : (byId rows).Perm rows := List.perm_insertionSort _ rows
  have hpairwise : (byId rows).Pairwise fun p q => p.id ≠ q.id :=
    List.pairwise_map.mp ((hsorted.map Product.id).nodup_iff.mpr hids)
  have hnil : codeConflicts d.products [] (byId rows) = [] := by
    refine codeConflicts_nil (fun row hrow c hc => ?_) ?_
    · exact ⟨hdb row (hsorted.mem_iff.mp hrow) c hc, rfl⟩
    · refine hpairwise.imp_of_mem fun hp hq hne c hpc hqc => hne ?_
      exact (hrows _ (hsorted.mem_iff.mp hp) _ (hsorted.mem_iff.mp hq) c hpc hqc).symm
  unfold resolveCodeCollisions
  rw [hnil]
  exact congrArg (·, []) (List.map_id rows)

theorem incoming_apart {records : List ExchangeRecord} (hrecords : Accepted records)
    (happart : CodesApart driver d records) {k : Kind} {out : List (Row k) × List Conflict}
    (h : incoming driver now d records k = .ok out) :
    (newData d records k).mapM (insertRow driver now k) = .ok out.1 ∧ out.2 = [] := by
  have hids := incoming_ids hrecords h
  obtain ⟨rows, hrows, rfl⟩ := incoming_ok_iff.mp h
  suffices hsame : resolveKind d k rows = (rows, []) by
    rw [hsame]
    exact ⟨hrows, rfl⟩
  rw [resolveKind_ids] at hids
  cases k with
  | product =>
    have hread : ∀ p ∈ rows, ∃ data ∈ newData d records .product,
        codeOf driver data = p.activeCode ∧ dataId data = p.id := by
      intro p hp
      obtain ⟨data, hdata, hp⟩ := mem_of_mapM_ok hrows hp
      have hid := insertRow_id (bucket_id hrecords (List.mem_filter.mp hdata).1) hp
      exact ⟨data, hdata, (activeCode_insertRow hp).symm, hid.symm⟩
    refine resolveKind_apart ?_ (fun p hp c hc => ?_) fun p hp q hq c hpc hqc => ?_
    · exact hids ▸ (bucket_nodup hrecords .product).filter _
    · obtain ⟨data, hdata, hcode, -⟩ := hread p hp
      exact (happart data hdata c (hcode.trans hc)).1
    · obtain ⟨data, hdata, hcode, hid⟩ := hread p hp
      obtain ⟨data', hdata', hcode', hid'⟩ := hread q hq
      rw [← hid, ← hid']
      exact (happart data hdata c (hcode.trans hpc)).2 data' hdata' (hcode'.trans hqc)
  | warehouse | customer | dictionary | batch | sale | operation | cashMovement => rfl

/-- A merge without collisions: the new rows as their records bring them, and a recomputation. -/
theorem applyMerge_apart {d' : Db} {records : List ExchangeRecord} {report : MergeReport}
    (hd : d.Ok) (hrecords : Accepted records) (happart : CodesApart driver d records)
    (h : applyMerge driver now d records = .ok (d', report)) :
    ∃ rows : (k : Kind) → List (Row k),
      (∀ k, (newData d records k).mapM (insertRow driver now k) = .ok (rows k)) ∧
        d' = (d.append rows).recompute now := by
  obtain ⟨rows, hrows, -, hderived, -⟩ := (applyMerge_ok_iff hd).mp h
  obtain ⟨-, rfl⟩ := recomputeDerived_ok_iff.mp hderived
  exact ⟨fun k => (rows k).1, fun k => (incoming_apart hrecords happart (hrows k)).1, rfl⟩

theorem codesApart_mono {records records' : List ExchangeRecord}
    (hsub : ∀ r ∈ records', r ∈ records) (h : CodesApart driver d records) :
    CodesApart driver d records' := by
  have hnew : ∀ data ∈ newData d records' .product, data ∈ newData d records .product := by
    intro data hdata
    obtain ⟨hmem, hid⟩ := List.mem_filter.mp hdata
    exact List.mem_filter.mpr ⟨mem_bucket.mpr (hsub _ (mem_bucket.mp hmem)), hid⟩
  intro data hdata c hc
  obtain ⟨hdb, hothers⟩ := h data (hnew data hdata) c hc
  exact ⟨hdb, fun data' hdata' => hothers data' (hnew data' hdata')⟩

/-- What the first merge brings does not collide with the second batch. -/
theorem codesApart_after {d' : Db} {A B : List ExchangeRecord} {report : MergeReport} (hd : d.Ok)
    (hA : Accepted A) (happart : CodesApart driver d (A ++ B))
    (h : applyMerge driver now d A = .ok (d', report)) : CodesApart driver d' B := by
  obtain ⟨rows, hrows, hd'⟩ := applyMerge_apart hd hA
    (codesApart_mono (fun r hr => List.mem_append_left _ hr) happart) h
  have hids := mem_ids_applyMerge hd hA h .product
  have hnew : ∀ data ∈ newData d' B .product, data ∈ newData d (A ++ B) .product := by
    intro data hdata
    obtain ⟨hmem, hid⟩ := List.mem_filter.mp hdata
    refine List.mem_filter.mpr
      ⟨mem_bucket.mpr (List.mem_append_right _ (mem_bucket.mp hmem)), ?_⟩
    rw [decide_eq_true_eq] at hid ⊢
    exact fun hold => hid ((hids _).mpr (.inl hold))
  intro data hdata c hc
  obtain ⟨hdb, hothers⟩ := happart data (hnew data hdata) c hc
  refine ⟨fun q' hq' hqc => ?_, fun data' hdata' => hothers data' (hnew data' hdata')⟩
  rw [hd'] at hq'
  obtain ⟨q, hq, rfl⟩ := List.mem_map.mp hq'
  have hqc : q.activeCode = some c := (activeCode_derive now _ q).symm.trans hqc
  rcases List.mem_append.mp hq with hold | hnewq
  · exact hdb q hold hqc
  · -- the product came with the first batch, so its id is no longer new
    obtain ⟨dataq, hdataq, hrow⟩ := mem_of_mapM_ok (hrows .product) hnewq
    obtain ⟨hbucket, hnotin⟩ := List.mem_filter.mp hdataq
    have hcodeq : codeOf driver dataq = some c := (activeCode_insertRow hrow).symm.trans hqc
    have hid := hothers dataq
      (List.mem_filter.mpr ⟨mem_bucket.mpr (List.mem_append_left _ (mem_bucket.mp hbucket)), hnotin⟩)
      hcodeq
    have hin : dataId data ∈ d'.ids .product :=
      (hids _).mpr (.inr (hid ▸ List.mem_map_of_mem hbucket))
    exact absurd hin (by simpa using (List.mem_filter.mp hdata).2)

/-! ## Both orders -/

/-- Batches of different devices: disjoint ledgers, reference rows that agree on every id they
share, codes that collide neither with each other nor with the database. -/
structure Independent (driver : Driver) (d : Db) (A B : List ExchangeRecord) : Prop where
  ledgerIds : ∀ k, k.isLedger = true → ∀ data ∈ bucket A k, ∀ data' ∈ bucket B k,
    dataId data ≠ dataId data'
  ledgerSeqs : ∀ k, k.isLedger = true → ∀ data ∈ bucket A k, ∀ data' ∈ bucket B k,
    (valueAt "device_id" data, valueAt "seq" data) ≠ (valueAt "device_id" data', valueAt "seq" data')
  agree : ∀ k, k.isLedger = false → ∀ data ∈ bucket A k, ∀ data' ∈ bucket B k,
    dataId data = dataId data' → Agree k data data'
  codes : CodesApart driver d (A ++ B)

theorem Independent.symm {A B : List ExchangeRecord} (h : Independent driver d A B) :
    Independent driver d B A where
  ledgerIds k hk data hdata data' hdata' := (h.ledgerIds k hk data' hdata' data hdata).symm
  ledgerSeqs k hk data hdata data' hdata' := (h.ledgerSeqs k hk data' hdata' data hdata).symm
  agree k hk data hdata data' hdata' hid f hf :=
    (h.agree k hk data' hdata' data hdata hid.symm f hf).symm
  codes := codesApart_mono (fun _ hr => List.mem_append.mpr (List.mem_append.mp hr).symm) h.codes

/-- Records of the two batches with one id agree; in the ledgers there are none. -/
theorem Independent.agree_of_id {A B : List ExchangeRecord} (h : Independent driver d A B) {k : Kind}
    {data data' : Data} (hdata : data ∈ bucket A k) (hdata' : data' ∈ bucket B k)
    (hid : dataId data = dataId data') : Agree k data data' := by
  cases hk : k.isLedger with
  | true => exact absurd hid (h.ledgerIds k hk data hdata data' hdata')
  | false => exact h.agree k hk data hdata data' hdata' hid

/-- Records that agree bring the same bare row. -/
theorem bare_insertRow {now' : String} {records : List ExchangeRecord} {k : Kind}
    {data data' : Data} {r r' : Row k} (hid : valueAt "id" data = .str (dataId data))
    (hid' : valueAt "id" data' = .str (dataId data')) (hsame : dataId data = dataId data')
    (hmem : data ∈ bucket records k) (hagree : Agree k data data')
    (h : insertRow driver now k data = .ok r) (h' : insertRow driver now' k data' = .ok r') :
    bare records k r = bare records k r' := by
  have hrow : rowId k r = dataId data := insertRow_id hid h
  have hrow' : rowId k r' = dataId data' := insertRow_id hid' h'
  obtain ⟨hboth, hdated⟩ := insertRow_agree hagree h h'
  have hundated : undated records k r = undated records k r' :=
    undated_congr (hrow.trans (hsame.trans hrow'.symm))
  unfold bare
  rw [← hundated]
  split_ifs with hu
  · exact hboth
  · refine hdated ?_
    rw [undated, Bool.not_eq_true, List.any_eq_false] at hu
    have := hu data hmem
    rw [hrow, Bool.and_eq_true, decide_eq_true_eq, not_and] at this
    simpa using this rfl

section Swap

variable {dA dB : Db} {A B : List ExchangeRecord} {t₁ t₂ t₁' t₂' : String} {k : Kind}
  {rowsA rowsB rowsA' rowsB' : List (Row k)}

/-- What enters a table in one order enters it in the other. -/
theorem mem_bare_swapped (hA : Accepted A) (hB : Accepted B) (hind : Independent driver d A B)
    (hidsA : ∀ i, i ∈ dA.ids k ↔ i ∈ d.ids k ∨ i ∈ (bucket A k).map dataId)
    (hidsB : ∀ i, i ∈ dB.ids k ↔ i ∈ d.ids k ∨ i ∈ (bucket B k).map dataId)
    (hrowsA : (newData d A k).mapM (insertRow driver t₁ k) = .ok rowsA)
    (hrowsB : (newData dA B k).mapM (insertRow driver t₂ k) = .ok rowsB)
    (hrowsB' : (newData d B k).mapM (insertRow driver t₁' k) = .ok rowsB')
    (hrowsA' : (newData dB A k).mapM (insertRow driver t₂' k) = .ok rowsA')
    {records : List ExchangeRecord} (hsubA : A ⊆ records) (hsubB : B ⊆ records) {x : Row k}
    (hx : x ∈ (rowsA ++ rowsB).map (bare records k)) :
    x ∈ (rowsB' ++ rowsA').map (bare records k) := by
  obtain ⟨r, hr, rfl⟩ := List.mem_map.mp hx
  rcases List.mem_append.mp hr with hr | hr
  · obtain ⟨data, hdata, hinsert⟩ := mem_of_mapM_ok hrowsA hr
    obtain ⟨hbucket, hnew⟩ := List.mem_filter.mp hdata
    have hrecords : data ∈ bucket records k := mem_bucket.mpr (hsubA (mem_bucket.mp hbucket))
    by_cases hshared : dataId data ∈ (bucket B k).map dataId
    · -- the other batch brings the row first
      obtain ⟨data', hdata', hid⟩ := List.mem_map.mp hshared
      have hnew' : data' ∈ newData d B k := List.mem_filter.mpr ⟨hdata', hid ▸ hnew⟩
      obtain ⟨r', hr', hinsert'⟩ := mapM_ok_mem hrowsB' hnew'
      rw [bare_insertRow (bucket_id hA hbucket) (bucket_id hB hdata') hid.symm hrecords
        (hind.agree_of_id hbucket hdata' hid.symm) hinsert hinsert']
      exact List.mem_map_of_mem (List.mem_append_left _ hr')
    · have hnew' : data ∈ newData dB A k := by
        refine List.mem_filter.mpr ⟨hbucket, ?_⟩
        rw [decide_eq_true_eq] at hnew ⊢
        exact fun hin => ((hidsB _).mp hin).elim hnew hshared
      obtain ⟨r', hr', hinsert'⟩ := mapM_ok_mem hrowsA' hnew'
      rw [bare_insertRow (bucket_id hA hbucket) (bucket_id hA hbucket) rfl hrecords
        (fun _ _ => rfl) hinsert hinsert']
      exact List.mem_map_of_mem (List.mem_append_right _ hr')
  · obtain ⟨data, hdata, hinsert⟩ := mem_of_mapM_ok hrowsB hr
    obtain ⟨hbucket, hnew⟩ := List.mem_filter.mp hdata
    have hnew' : data ∈ newData d B k := by
      refine List.mem_filter.mpr ⟨hbucket, ?_⟩
      rw [decide_eq_true_eq] at hnew ⊢
      exact fun hin => hnew ((hidsA _).mpr (.inl hin))
    obtain ⟨r', hr', hinsert'⟩ := mapM_ok_mem hrowsB' hnew'
    rw [bare_insertRow (bucket_id hB hbucket) (bucket_id hB hbucket) rfl
      (mem_bucket.mpr (hsubB (mem_bucket.mp hbucket))) (fun _ _ => rfl) hinsert hinsert']
    exact List.mem_map_of_mem (List.mem_append_left _ hr')

end Swap

/-- A bare list has no row twice when its ids are pairwise distinct. -/
theorem bare_nodup {records : List ExchangeRecord} {k : Kind} {rows : List (Row k)}
    (h : (rows.map (rowId k)).Nodup) : (rows.map (bare records k)).Nodup := by
  refine List.Nodup.of_map (rowId k) ?_
  rw [List.map_map, show rowId k ∘ bare records k = rowId k from funext (rowId_bare records k)]
  exact h

/-- Both ledgers of a database, and its quantities and balances, are those of given ledgers. -/
structure FollowsLedgers (ops : List Operation) (cash : List CashMovement) (d : Db) : Prop where
  operations : d.operations.Perm ops
  cashMovements : d.cashMovements.Perm cash
  product : ∀ p ∈ d.products, p.quantity = computeStock ops p.id
  batch : ∀ b ∈ d.batches, b.quantity = computeBatchStock ops b
  balance : ∀ c, computeBalance d.cashMovements c = computeBalance cash c

/-- A settled database follows any reordering of its ledgers. -/
theorem followsLedgers_of_settled (h : Settled d) {ops : List Operation} {cash : List CashMovement}
    (hops : d.operations.Perm ops) (hcash : d.cashMovements.Perm cash) :
    FollowsLedgers ops cash d where
  operations := hops
  cashMovements := hcash
  product p hp := by rw [h.product p hp, computeStock_perm hops]
  batch b hb := by rw [h.batch b hb, computeBatchStock_perm hops]
  balance _ := sumOver_perm hcash

/-- A ledger's record inserts the same row at any time. -/
theorem insertRow_ledger {k : Kind} (hk : k.isLedger = true) (now now' : String) (data : Data) :
    insertRow driver now k data = insertRow driver now' k data := by
  refine rowOf_congr _ _ rfl rfl fun f hf => ?_
  have hupdated : f ≠ "updated_at" := by
    rintro rfl
    revert hf
    cases k <;> first | exact absurd hk (by decide) | decide
  show orDefault _ (defaultValue now k f) = orDefault _ (defaultValue now' k f)
  rw [defaultValue_now now now' hupdated fun _ => .inl hk]

theorem bare_ledger {records : List ExchangeRecord} {k : Kind} (hk : k.isLedger = true) :
    bare records k = id := by
  funext r
  unfold bare
  cases k <;> first | exact absurd hk (by decide) | (split_ifs <;> rfl)

theorem settle_perm {ops ops' : List Operation} (h : ops.Perm ops') (k : Kind) :
    settle ops k = settle ops' k := by
  cases k with
  | product =>
    funext p
    show ({ (p : Product) with quantity := computeStock ops p.id } : Product) = _
    rw [computeStock_perm h]
    rfl
  | batch =>
    funext b
    show ({ (b : Batch) with quantity := computeBatchStock ops b } : Batch) = _
    rw [computeBatchStock_perm h]
    rfl
  | warehouse | customer | dictionary | sale | operation | cashMovement => rfl

/-- The rows of two merges, one after the other. -/
def twice (d : Db) (rows rows' : (k : Kind) → List (Row k)) (t t' : String) : Db :=
  (((d.append rows).recompute t).append rows').recompute t'

section Twice

variable {rows rows' : (k : Kind) → List (Row k)} {t t' : String}

theorem operations_twice : (twice d rows rows' t t').operations =
    d.operations ++ rows .operation ++ rows' .operation := rfl

theorem cashMovements_twice : (twice d rows rows' t t').cashMovements =
    d.cashMovements ++ rows .cashMovement ++ rows' .cashMovement := rfl

theorem ids_twice (k : Kind) : (twice d rows rows' t t').ids k =
    (d.get k).map (rowId k) ++ (rows k ++ rows' k).map (rowId k) := by
  have hfirst : ((d.append rows).recompute t).ids k = (d.append rows).ids k := ids_recompute ..
  rw [Db.ids, Db.ids] at hfirst
  rw [twice, ids_recompute, Db.ids, Db.get_append, List.map_append, hfirst, Db.get_append]
  simp

/-- The bare rows of two merges are settled by the final ledger. -/
theorem bare_twice (records : List ExchangeRecord) (k : Kind) :
    ((twice d rows rows' t t').get k).map (bare records k) =
      ((d.get k).map (bare records k) ++ (rows k ++ rows' k).map (bare records k)).map
        (settle (d.operations ++ rows .operation ++ rows' .operation) k) := by
  have hlast : ∀ r, bare records k
      (derive t' (d.operations ++ rows .operation ++ rows' .operation) k r) =
        settle (d.operations ++ rows .operation ++ rows' .operation) k (bare records k r) :=
    fun r => bare_derive ..
  have hfirst : ∀ r, settle (d.operations ++ rows .operation ++ rows' .operation) k
      (bare records k (derive t (d.operations ++ rows .operation) k r)) =
        settle (d.operations ++ rows .operation ++ rows' .operation) k (bare records k r) :=
    fun r => settle_bare_derive ..
  have hget : (twice d rows rows' t t').get k =
      ((((d.get k ++ rows k).map (derive t (d.operations ++ rows .operation) k)) ++ rows' k).map
        (derive t' (d.operations ++ rows .operation ++ rows' .operation) k)) := by
    rw [twice, get_recompute, Db.get_append, get_recompute, Db.get_append]
    rfl
  rw [hget]
  simp only [List.map_append, List.map_map, Function.comp_def, hlast, hfirst]
  exact List.append_assoc ..

end Twice

/-- The ledgers of a database and of two batches for it. -/
def UnionOfLedgers (driver : Driver) (d : Db) (A B : List ExchangeRecord) (ops : List Operation)
    (cash : List CashMovement) : Prop :=
  ∃ opsA opsB cashA cashB,
    (newData d A .operation).mapM (insertRow driver "" .operation) = .ok opsA ∧
    (newData d B .operation).mapM (insertRow driver "" .operation) = .ok opsB ∧
    (newData d A .cashMovement).mapM (insertRow driver "" .cashMovement) = .ok cashA ∧
    (newData d B .cashMovement).mapM (insertRow driver "" .cashMovement) = .ok cashB ∧
    ops = d.operations ++ opsA ++ opsB ∧ cash = d.cashMovements ++ cashA ++ cashB

/-- Ledger rows that only the second batch has are new to both databases or to none. -/
theorem newData_after {dA : Db} {A B : List ExchangeRecord} {k : Kind}
    (hind : Independent driver d A B) (hk : k.isLedger = true)
    (hids : ∀ i, i ∈ dA.ids k ↔ i ∈ d.ids k ∨ i ∈ (bucket A k).map dataId) :
    newData dA B k = newData d B k := by
  refine List.filter_congr fun data hdata => ?_
  rw [decide_eq_decide, not_iff_not, hids]
  refine or_iff_left fun hA => ?_
  obtain ⟨dataA, hdataA, hid⟩ := List.mem_map.mp hA
  exact hind.ledgerIds k hk dataA hdataA data hdata hid

/-- **Merges of independent batches commute**: in both orders the ledgers are the union of the
ledgers, the quantities and the balances are those of the union, and the rows are the same up to
the stamps of the clock. -/
theorem applyMerge_commute (driver : Driver) (start : Database) {linesA linesB : List String}
    {A B : ExchangeBatch} (hparseA : parseExchange linesA = .ok A)
    (hparseB : parseExchange linesB = .ok B)
    (hind : Independent driver start.db A.records B.records) {t₁ t₂ t₁' t₂' : String}
    {dA dB dAB dBA : Db} {rA rB rAB rBA : MergeReport}
    (hA : applyMerge driver t₁ start.db A.records = .ok (dA, rA))
    (hAB : applyMerge driver t₂ dA B.records = .ok (dAB, rAB))
    (hB : applyMerge driver t₁' start.db B.records = .ok (dB, rB))
    (hBA : applyMerge driver t₂' dB A.records = .ok (dBA, rBA)) :
    ∃ ops cash, UnionOfLedgers driver start.db A.records B.records ops cash ∧
      FollowsLedgers ops cash dAB ∧ FollowsLedgers ops cash dBA ∧
      ∀ k, ((dAB.get k).map (bare (A.records ++ B.records) k)).Perm
        ((dBA.get k).map (bare (A.records ++ B.records) k)) := by
  have haccA := parseExchange_accepted hparseA
  have haccB := parseExchange_accepted hparseB
  have hok := start.ok
  have hokA := applyMerge_ok hok hA
  have hokB := applyMerge_ok hok hB
  have hidsA := mem_ids_applyMerge hok haccA hA
  have hidsB := mem_ids_applyMerge hok haccB hB
  obtain ⟨rowsA, hrowsA, hdA⟩ := applyMerge_apart hok haccA
    (codesApart_mono (fun r hr => List.mem_append_left _ hr) hind.codes) hA
  obtain ⟨rowsB', hrowsB', hdB⟩ := applyMerge_apart hok haccB
    (codesApart_mono (fun r hr => List.mem_append_left _ hr) hind.symm.codes) hB
  obtain ⟨rowsB, hrowsB, hdAB⟩ :=
    applyMerge_apart hokA haccB (codesApart_after hok haccA hind.codes hA) hAB
  obtain ⟨rowsA', hrowsA', hdBA⟩ :=
    applyMerge_apart hokB haccA (codesApart_after hok haccB hind.symm.codes hB) hBA
  have hAB' : dAB = twice start.db rowsA rowsB t₁ t₂ := by rw [hdAB, hdA]; rfl
  have hBA' : dBA = twice start.db rowsB' rowsA' t₁' t₂' := by rw [hdBA, hdB]; rfl
  -- the rows that enter a table are the same bare rows, each of them once
  have henter : ∀ records, A.records ⊆ records → B.records ⊆ records → ∀ k,
      ((rowsA k ++ rowsB k).map (bare records k)).Perm
        ((rowsB' k ++ rowsA' k).map (bare records k)) := by
    intro records hsubA hsubB k
    have hnodup : ((rowsA k ++ rowsB k).map (rowId k)).Nodup := by
      have hids := (applyMerge_ok hokA hAB).nodup k
      rw [hAB', ids_twice] at hids
      exact hids.of_append_right
    have hnodup' : ((rowsB' k ++ rowsA' k).map (rowId k)).Nodup := by
      have hids := (applyMerge_ok hokB hBA).nodup k
      rw [hBA', ids_twice] at hids
      exact hids.of_append_right
    refine (List.perm_ext_iff_of_nodup (bare_nodup hnodup) (bare_nodup hnodup')).mpr fun x => ?_
    constructor
    · exact mem_bare_swapped haccA haccB hind (hidsA k) (hidsB k) (hrowsA k) (hrowsB k)
        (hrowsB' k) (hrowsA' k) hsubA hsubB
    · exact mem_bare_swapped haccB haccA hind.symm (hidsB k) (hidsA k) (hrowsB' k) (hrowsA' k)
        (hrowsA k) (hrowsB k) hsubB hsubA
  have hsubA : A.records ⊆ A.records ++ B.records := List.subset_append_left _ _
  have hsubB : B.records ⊆ A.records ++ B.records := List.subset_append_right _ _
  have hledger : ∀ {k : Kind}, k.isLedger = true →
      (rowsA k ++ rowsB k).Perm (rowsB' k ++ rowsA' k) := by
    intro k hk
    have h := henter _ hsubA hsubB k
    rwa [bare_ledger hk, List.map_id, List.map_id] at h
  have hsecond : ∀ {k : Kind}, k.isLedger = true → rowsB k = rowsB' k := by
    intro k hk
    have h := hrowsB k
    rw [newData_after hind hk (hidsA k), mapM_congr fun data _ => insertRow_ledger hk t₂ t₁' data,
      hrowsB' k] at h
    injection h with h
    exact h.symm
  have hswapOps : (start.db.operations ++ rowsB' .operation ++ rowsA' .operation).Perm
      (start.db.operations ++ rowsA .operation ++ rowsB .operation) := by
    rw [List.append_assoc, List.append_assoc]
    exact (hledger (k := .operation) rfl).symm.append_left _
  have hswapCash : (start.db.cashMovements ++ rowsB' .cashMovement ++ rowsA' .cashMovement).Perm
      (start.db.cashMovements ++ rowsA .cashMovement ++ rowsB .cashMovement) := by
    rw [List.append_assoc, List.append_assoc]
    exact (hledger (k := .cashMovement) rfl).symm.append_left _
  refine ⟨start.db.operations ++ rowsA .operation ++ rowsB .operation,
    start.db.cashMovements ++ rowsA .cashMovement ++ rowsB .cashMovement, ?_, ?_, ?_, ?_⟩
  · have hblank : ∀ {k : Kind} {t : String} {new : List Data} {rows : List (Row k)},
        k.isLedger = true → new.mapM (insertRow driver t k) = .ok rows →
          new.mapM (insertRow driver "" k) = .ok rows := by
      intro k t new rows hk hrows
      rwa [mapM_congr fun data _ => insertRow_ledger hk "" t data]
    refine ⟨rowsA .operation, rowsB .operation, rowsA .cashMovement, rowsB .cashMovement,
      hblank rfl (hrowsA _), ?_, hblank rfl (hrowsA _), ?_, rfl, rfl⟩
    · rw [hsecond rfl]
      exact hblank rfl (hrowsB' _)
    · rw [hsecond rfl]
      exact hblank rfl (hrowsB' _)
  · refine followsLedgers_of_settled (applyMerge_settled hokA hAB) ?_ ?_
    · rw [hAB', operations_twice]
    · rw [hAB', cashMovements_twice]
  · refine followsLedgers_of_settled (applyMerge_settled hokB hBA) ?_ ?_
    · rw [hBA', operations_twice]
      exact hswapOps
    · rw [hBA', cashMovements_twice]
      exact hswapCash
  · intro k
    rw [hAB', hBA', bare_twice, bare_twice, settle_perm hswapOps]
    exact ((henter _ hsubA hsubB k).append_left _).map _

/-- Two cards, each with an empty batch. -/
def twoCards : Db where
  warehouses := [⟨"w", "main", none, "RUB", "", "", none⟩]
  products := [blankProduct "p" "", blankProduct "q" ""]
  batches := [⟨"b", "p", "w", none, none, none, none, none, none, 0, 0, "", ""⟩,
    ⟨"c", "q", "w", none, none, none, none, none, none, 0, 0, "", ""⟩]

/-- One unit received on a device. -/
def unitReceived (id productId batchId deviceId : String) : AnyRow :=
  ⟨.operation, ⟨id, "receipt", productId, 1, none, none, .null, none, some batchId, none, none,
    deviceId, 1, "2026-01-01T00:00:00+00:00", none, "operator", none⟩⟩

/-- The push of a device. -/
def pushed (rows : List AnyRow) : List String :=
  serializeExchange id ⟨"0028", none, ""⟩ (rows.map AnyRow.record)

theorem unitReceived_parse {id productId batchId deviceId : String} (hid : id ≠ "") :
    ∃ batch, parseExchange (pushed [unitReceived id productId batchId deviceId]) = .ok batch := by
  have hstamp : isIsoTimestamp "2026-01-01T00:00:00+00:00" = true := by decide
  refine parseExchange_rows_iff.mpr ⟨?_, List.nodup_singleton _⟩
  rw [List.forall_mem_singleton]
  exact ⟨hid, hstamp, fun _ h => nomatch h⟩

/-- One merge after the other. -/
def mergeBoth (d : Db) (t : String) (A : List ExchangeRecord) (t' : String)
    (B : List ExchangeRecord) : Except Exn Db := do
  let (d', _) ← applyMerge Driver.strict t d A
  let (d'', _) ← applyMerge Driver.strict t' d' B
  return d''

theorem mergeBoth_ok {d d'' : Db} {t t' : String} {A B : List ExchangeRecord}
    (h : mergeBoth d t A t' B = .ok d'') :
    ∃ d' report report', applyMerge Driver.strict t d A = .ok (d', report) ∧
      applyMerge Driver.strict t' d' B = .ok (d'', report') := by
  obtain ⟨⟨d₁, report⟩, hfirst, h⟩ := bind_ok_iff.mp h
  obtain ⟨⟨d₂, report'⟩, hsecond, h⟩ := bind_ok_iff.mp h
  cases h
  exact ⟨d₁, report, report', hfirst, hsecond⟩

/-- The ids and the stamps of the cards after both merges. -/
def cardStamps (out : Except Exn Db) : Option (List (String × String)) :=
  out.toOption.map fun d => d.products.map fun p => (p.id, p.updatedAt)

theorem exists_of_cardStamps {out : Except Exn Db} {stamps : List (String × String)}
    (h : cardStamps out = some stamps) :
    ∃ d, out = .ok d ∧ d.products.map (fun p => (p.id, p.updatedAt)) = stamps := by
  cases out with
  | error e => cases h
  | ok d => exact ⟨d, rfl, Option.some.inj h⟩

/-- The receipts of two devices on two cards. -/
def receiptA : AnyRow := unitReceived "o" "p" "b" "device-a"

def receiptB : AnyRow := unitReceived "r" "q" "c" "device-b"

/-- The received record of a receipt. -/
theorem mem_bucket_receipt {r : AnyRow} {k : Kind} {data : Data}
    (h : data ∈ bucket [r.record.received] k) : k = r.1 ∧ data = r.record.received.data := by
  have heq := List.mem_singleton.mp (mem_bucket.mp h)
  exact ⟨congrArg ExchangeRecord.kind heq, congrArg ExchangeRecord.data heq⟩

theorem receipts_independent : Independent Driver.strict twoCards [receiptA.record.received]
    [receiptB.record.received] := by
  refine ⟨fun k hk data hdata data' hdata' => ?_, fun k hk data hdata data' hdata' heq => ?_,
    fun k hk data hdata => ?_, fun data hdata => ?_⟩
  · rw [(mem_bucket_receipt hdata).2, (mem_bucket_receipt hdata').2]
    decide
  · rw [(mem_bucket_receipt hdata).2, (mem_bucket_receipt hdata').2] at heq
    have hdevice := congrArg (fun pair => isStr (· = "device-a") pair.1) heq
    exact absurd hdevice (by decide)
  · rw [(mem_bucket_receipt hdata).1] at hk
    cases hk
  · rcases List.mem_append.mp (mem_bucket.mp (List.mem_filter.mp hdata).1) with h | h
    · cases (mem_bucket_receipt (mem_bucket.mpr h)).1
    · cases (mem_bucket_receipt (mem_bucket.mpr h)).1

/-- The cards after both receipts: stamped by the merges that moved them. -/
theorem receipts_stamps :
    cardStamps (mergeBoth twoCards "1" [receiptA.record.received] "2" [receiptB.record.received]) =
        some [("p", "1"), ("q", "2")] ∧
      cardStamps (mergeBoth twoCards "1" [receiptB.record.received] "2"
        [receiptA.record.received]) = some [("p", "2"), ("q", "1")] := by
  decide

theorem twoCards_ok : twoCards.Ok := by decide

/-- In both orders the two cards end with one unit each. -/
theorem applyMerge_commute_receipts : ∃ (A B : ExchangeBatch) (dAB dBA : Db),
    parseExchange (pushed [receiptA]) = .ok A ∧ parseExchange (pushed [receiptB]) = .ok B ∧
      mergeBoth twoCards "1" A.records "2" B.records = .ok dAB ∧
      mergeBoth twoCards "1" B.records "2" A.records = .ok dBA ∧
      ∃ ops cash, UnionOfLedgers Driver.strict twoCards A.records B.records ops cash ∧
        FollowsLedgers ops cash dAB ∧ FollowsLedgers ops cash dBA ∧
        ∀ k, ((dAB.get k).map (bare (A.records ++ B.records) k)).Perm
          ((dBA.get k).map (bare (A.records ++ B.records) k)) := by
  obtain ⟨A, hA⟩ : ∃ A, parseExchange (pushed [receiptA]) = .ok A :=
    unitReceived_parse (by decide)
  obtain ⟨B, hB⟩ : ∃ B, parseExchange (pushed [receiptB]) = .ok B :=
    unitReceived_parse (by decide)
  have hrecordsA : A.records = [receiptA.record.received] := parseExchange_rows_records hA
  have hrecordsB : B.records = [receiptB.record.received] := parseExchange_rows_records hB
  obtain ⟨hstamps, hstamps'⟩ := receipts_stamps
  rw [← hrecordsA, ← hrecordsB] at hstamps hstamps'
  obtain ⟨dAB, hAB, -⟩ := exists_of_cardStamps hstamps
  obtain ⟨dBA, hBA, -⟩ := exists_of_cardStamps hstamps'
  obtain ⟨dA, rA, rAB, hfirst, hsecond⟩ := mergeBoth_ok hAB
  obtain ⟨dB, rB, rBA, hfirst', hsecond'⟩ := mergeBoth_ok hBA
  refine ⟨A, B, dAB, dBA, hA, hB, hAB, hBA, ?_⟩
  exact applyMerge_commute Driver.strict ⟨twoCards, twoCards_ok⟩ hA hB
    (by rw [hrecordsA, hrecordsB]; exact receipts_independent) hfirst hsecond hfirst' hsecond'

/-- The rows themselves are not the same: a merge that moves a quantity stamps `updated_at`. -/
theorem not_applyMerge_commute : ¬ ∀ (start : Database) (linesA linesB : List String)
    (A B : ExchangeBatch), parseExchange linesA = .ok A → parseExchange linesB = .ok B →
    Independent Driver.strict start.db A.records B.records → ∀ (t₁ t₂ : String) (dAB dBA : Db),
    mergeBoth start.db t₁ A.records t₂ B.records = .ok dAB →
    mergeBoth start.db t₁ B.records t₂ A.records = .ok dBA →
    ∀ k, k.isLedger = false → (dAB.get k).Perm (dBA.get k) := by
  intro h
  obtain ⟨A, hA⟩ : ∃ A, parseExchange (pushed [receiptA]) = .ok A :=
    unitReceived_parse (by decide)
  obtain ⟨B, hB⟩ : ∃ B, parseExchange (pushed [receiptB]) = .ok B :=
    unitReceived_parse (by decide)
  have hrecordsA : A.records = [receiptA.record.received] := parseExchange_rows_records hA
  have hrecordsB : B.records = [receiptB.record.received] := parseExchange_rows_records hB
  obtain ⟨hstamps, hstamps'⟩ := receipts_stamps
  obtain ⟨dAB, hAB, hcards⟩ := exists_of_cardStamps hstamps
  obtain ⟨dBA, hBA, hcards'⟩ := exists_of_cardStamps hstamps'
  have hperm := h ⟨twoCards, twoCards_ok⟩ _ _ A B hA hB
    (by rw [hrecordsA, hrecordsB]; exact receipts_independent) "1" "2" dAB dBA
    (by rw [hrecordsA, hrecordsB]; exact hAB) (by rw [hrecordsA, hrecordsB]; exact hBA)
    .product rfl
  have hmap := hperm.map fun p : Product => (p.id, p.updatedAt)
  have hfalse : ¬ [("p", "1"), ("q", "2")].Perm [("p", "2"), ("q", "1")] := by decide
  exact hfalse (hcards ▸ hcards' ▸ hmap)

end MyOriShop
