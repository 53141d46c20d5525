import MyOriShop.Constraints
import MyOriShop.Ledger

/-!
# Recompute: the derived quantities are a function of the ledger (`app/services/ledger.py`)

`recompute_derived` rewrites the two cached quantities and then checks them. What it does to a row
depends on the ledger and on the row alone.

* `settle` is a row with the quantity its ledger gives it, `derive` the row as a recomputation at
  `now` leaves it, `master` what of it a recomputation cannot touch.
* `StockBalanced` is the check of the third pass.
* `Cached` is a database whose recomputation changes nothing, `Settled` one that passes the check,
  too.

Results:
* `recomputeDerived_ok_iff`: a recomputation succeeds exactly when the check passes.
* `recompute_ok`: it keeps the constraints. `recompute_same`: it does not see the order of the rows.
* `settled_recompute`: a recomputed database is settled, so the next recomputation is free.
-/

namespace MyOriShop

open Lib.Sums

variable {now : String} {d d' : Db}

/-! ## Row by row -/

/-- The quantity the ledger gives a row, where the row has one. -/
def settle (ops : List Operation) : (k : Kind) → Row k → Row k
  | .product, (p : Product) => { p with quantity := computeStock ops p.id }
  | .batch, (b : Batch) => { b with quantity := computeBatchStock ops b }
  | .warehouse, r | .customer, r | .dictionary, r | .sale, r | .operation, r | .cashMovement, r => r

/-- A row as a recomputation leaves it. -/
def derive (now : String) (ops : List Operation) : (k : Kind) → Row k → Row k
  | .product, (p : Product) => p.setQuantity now (computeStock ops p.id)
  | .batch, (b : Batch) => b.setQuantity now (computeBatchStock ops b)
  | .warehouse, r | .customer, r | .dictionary, r | .sale, r | .operation, r | .cashMovement, r => r

/-- A row without its cached quantity and the stamp that moves with it. -/
def master : (k : Kind) → Row k → Row k
  | .product, (p : Product) => { p with quantity := 0, updatedAt := "" }
  | .batch, (b : Batch) => { b with quantity := 0, updatedAt := "" }
  | .warehouse, r | .customer, r | .dictionary, r | .sale, r | .operation, r | .cashMovement, r => r

theorem get_recompute (now : String) (d : Db) (k : Kind) :
    (d.recompute now).get k = (d.get k).map (derive now d.operations k) := by
  cases k with
  | product | batch => rfl
  | warehouse | customer | dictionary | sale | operation | cashMovement =>
    exact (List.map_id _).symm

theorem operations_recompute (now : String) (d : Db) :
    (d.recompute now).operations = d.operations := rfl

/-- The tables no recomputation touches. -/
theorem get_recompute_ne (now : String) (d : Db) {k : Kind} (hp : k ≠ .product) (hb : k ≠ .batch) :
    (d.recompute now).get k = d.get k := by
  cases k with
  | product => exact absurd rfl hp
  | batch => exact absurd rfl hb
  | warehouse | customer | dictionary | sale | operation | cashMovement => rfl

theorem Product.setQuantity_cases (now : String) (q : Int) (p : Product) :
    (p.setQuantity now q).quantity = q ∧
      ∃ stamp, p.setQuantity now q = { p with quantity := q, updatedAt := stamp } := by
  unfold Product.setQuantity
  by_cases h : p.quantity = q
  · rw [if_pos h]
    exact ⟨h, p.updatedAt, by rw [← h]⟩
  · rw [if_neg h]
    exact ⟨rfl, now, rfl⟩

theorem Batch.setQuantity_cases (now : String) (q : Int) (b : Batch) :
    (b.setQuantity now q).quantity = q ∧
      ∃ stamp, b.setQuantity now q = { b with quantity := q, updatedAt := stamp } := by
  unfold Batch.setQuantity
  by_cases h : b.quantity = q
  · rw [if_pos h]
    exact ⟨h, b.updatedAt, by rw [← h]⟩
  · rw [if_neg h]
    exact ⟨rfl, now, rfl⟩

@[simp] theorem rowId_derive (now : String) (ops : List Operation) (k : Kind) (r : Row k) :
    rowId k (derive now ops k r) = rowId k r := by
  cases k with
  | product =>
    obtain ⟨-, stamp, h⟩ := Product.setQuantity_cases now (computeStock ops (Product.id r)) r
    show Product.id (Product.setQuantity _ _ _) = _
    rw [h]
    rfl
  | batch =>
    obtain ⟨-, stamp, h⟩ := Batch.setQuantity_cases now (computeBatchStock ops r) r
    show Batch.id (Batch.setQuantity _ _ _) = _
    rw [h]
    rfl
  | warehouse | customer | dictionary | sale | operation | cashMovement => rfl

@[simp] theorem rowId_settle (ops : List Operation) (k : Kind) (r : Row k) :
    rowId k (settle ops k r) = rowId k r := by
  cases k <;> rfl

/-- Nothing else of a row is derived. -/
@[simp] theorem master_derive (now : String) (ops : List Operation) (k : Kind) (r : Row k) :
    master k (derive now ops k r) = master k r := by
  cases k with
  | product =>
    obtain ⟨-, stamp, h⟩ := Product.setQuantity_cases now (computeStock ops (Product.id r)) r
    show master .product (Product.setQuantity _ _ _) = _
    rw [h]
    rfl
  | batch =>
    obtain ⟨-, stamp, h⟩ := Batch.setQuantity_cases now (computeBatchStock ops r) r
    show master .batch (Batch.setQuantity _ _ _) = _
    rw [h]
    rfl
  | warehouse | customer | dictionary | sale | operation | cashMovement => rfl

@[simp] theorem rowId_master (k : Kind) (r : Row k) : rowId k (master k r) = rowId k r := by
  cases k <;> rfl

theorem rowId_of_master {k : Kind} {r r' : Row k} (h : master k r = master k r') :
    rowId k r = rowId k r' := by
  rw [← rowId_master, h, rowId_master]

theorem activeCode_derive (now : String) (ops : List Operation) (p : Product) :
    Product.activeCode (derive now ops .product p) = p.activeCode := by
  obtain ⟨-, stamp, h⟩ := Product.setQuantity_cases now (computeStock ops p.id) p
  show Product.activeCode (Product.setQuantity _ _ _) = _
  rw [h]
  rfl

theorem references_derive (now : String) (ops : List Operation) (k : Kind) (r : Row k) :
    Db.references k (derive now ops k r) = Db.references k r := by
  cases k with
  | batch =>
    obtain ⟨-, stamp, h⟩ := Batch.setQuantity_cases now (computeBatchStock ops r) r
    show Db.references .batch (Batch.setQuantity _ _ _) = _
    rw [h]
    rfl
  | product | warehouse | customer | dictionary | sale | operation | cashMovement => rfl

theorem ids_recompute (now : String) (d : Db) (k : Kind) : (d.recompute now).ids k = d.ids k := by
  rw [Db.ids, Db.ids, get_recompute, List.map_map]
  exact List.map_congr_left fun r _ => rowId_derive ..

/-- A recomputation keeps the constraints. -/
theorem recompute_ok (h : d.Ok) : (d.recompute now).Ok := by
  obtain ⟨hu, hl⟩ := Db.ok_iff.mp h
  refine Db.ok_iff.mpr ⟨⟨fun k => ?_, ?_, ?_, ?_, ?_⟩, fun k r' hr' ref href => ?_⟩
  · have hids : ((d.recompute now).get k).map (rowId k) = (d.get k).map (rowId k) :=
      ids_recompute now d k
    rw [hids]
    exact hu.pk k
  · rw [get_recompute, List.filterMap_map]
    have hcode : Product.activeCode ∘ derive now d.operations .product = Product.activeCode := by
      funext p
      exact activeCode_derive now d.operations p
    rw [hcode]
    exact hu.codeActive
  · exact hu.dictionaryCode
  · exact hu.operationSeq
  · exact hu.cashSeq
  · rw [get_recompute] at hr'
    obtain ⟨r, hr, rfl⟩ := List.mem_map.mp hr'
    rw [references_derive] at href
    have hids := ids_recompute now d ref.1
    rw [Db.ids, Db.ids] at hids
    rw [hids]
    exact hl k r hr ref href

/-! ## The check -/

/-- The check of the third pass. -/
def StockBalanced (d : Db) : Prop := ∀ p ∈ d.products, p.quantity = expectedQuantity d p.id

theorem stockMismatch_eq_none : stockMismatch d = none ↔ StockBalanced d := by
  unfold stockMismatch StockBalanced
  rw [List.find?_eq_none]
  simp

/-- **A recomputation** succeeds exactly when what it computes passes the check. -/
theorem recomputeDerived_ok_iff :
    recomputeDerived now d = .ok d' ↔ StockBalanced (d.recompute now) ∧ d' = d.recompute now := by
  rw [← stockMismatch_eq_none]
  unfold recomputeDerived
  dsimp only
  cases stockMismatch (d.recompute now) with
  | none => simp [eq_comm]
  | some p => simp

/-- **What the check compares**: the ledger's stock of a product against its batches'. -/
theorem stockBalanced_recompute_iff : StockBalanced (d.recompute now) ↔
    ∀ p ∈ d.products.map (master .product), computeStock d.operations (Product.id p) =
      sumOver (computeBatchStock d.operations) (fun b => b.productId = Product.id p)
          (d.batches.map (master .batch)) +
        if hasLegacy (d.batches.map (master .batch)) (Product.id p) then 0
        else nullBucket d.operations (Product.id p) := by
  have hrow : ∀ b, (b.setQuantity now (computeBatchStock d.operations b)).quantity =
      computeBatchStock d.operations b ∧
      (b.setQuantity now (computeBatchStock d.operations b)).productId = b.productId ∧
      (b.setQuantity now (computeBatchStock d.operations b)).isLegacy = b.isLegacy := by
    intro b
    obtain ⟨hquantity, stamp, h⟩ := Batch.setQuantity_cases now (computeBatchStock d.operations b) b
    exact ⟨hquantity, by rw [h], by rw [h]⟩
  have htotal : ∀ i, batchTotal (d.recompute now).batches i =
      sumOver (computeBatchStock d.operations) (fun b => b.productId = i)
        (d.batches.map (master .batch)) := by
    intro i
    show sumOver Batch.quantity (fun b => b.productId = i) (d.batches.map _) = _
    rw [sumOver_map, sumOver_map]
    simp only [hrow]
    rfl
  have hlegacy : ∀ i, hasLegacy (d.recompute now).batches i =
      hasLegacy (d.batches.map (master .batch)) i := by
    intro i
    show List.any (d.batches.map _) _ = List.any (d.batches.map _) _
    rw [List.any_map, List.any_map]
    refine congrArg (List.any d.batches) (funext fun b => ?_)
    simp only [Function.comp_apply, hrow]
    rfl
  unfold StockBalanced
  show (∀ p ∈ d.products.map _, _) ↔ _
  rw [List.forall_mem_map, List.forall_mem_map]
  refine forall₂_congr fun p _ => ?_
  obtain ⟨hquantity, stamp, h⟩ := Product.setQuantity_cases now (computeStock d.operations p.id) p
  rw [hquantity, h, expectedQuantity, htotal, hlegacy]
  rfl

/-- The check sees neither the cached quantities nor their stamps. -/
theorem stockBalanced_of_master (hops : d.operations = d'.operations)
    (hproducts : d.products.map (master .product) = d'.products.map (master .product))
    (hbatches : d.batches.map (master .batch) = d'.batches.map (master .batch)) :
    StockBalanced (d.recompute now) ↔ StockBalanced (d'.recompute now) := by
  rw [stockBalanced_recompute_iff, stockBalanced_recompute_iff, hops, hproducts, hbatches]

/-! ## Order -/

theorem computeStock_perm {ops ops' : List Operation} (h : ops.Perm ops') :
    computeStock ops = computeStock ops' := funext fun _ => sumOver_perm h

theorem computeBatchStock_perm {ops ops' : List Operation} (h : ops.Perm ops') :
    computeBatchStock ops = computeBatchStock ops' := by
  funext b
  unfold computeBatchStock batchSum nullBucket sumDelta
  rw [sumOver_perm h, sumOver_perm h]

theorem derive_perm {ops ops' : List Operation} (h : ops.Perm ops') (k : Kind) :
    derive now ops k = derive now ops' k := by
  cases k with
  | product =>
    funext p
    show Product.setQuantity _ _ _ = Product.setQuantity _ _ _
    rw [computeStock_perm h]
  | batch =>
    funext b
    show Batch.setQuantity _ _ _ = Batch.setQuantity _ _ _
    rw [computeBatchStock_perm h]
  | warehouse | customer | dictionary | sale | operation | cashMovement => rfl

/-- A recomputation does not see the order of the rows. -/
theorem recompute_same (now : String) (h : Db.Same d d') : Db.Same (d.recompute now) (d'.recompute now) := by
  intro k
  have hops : d.operations.Perm d'.operations := h .operation
  rw [get_recompute, get_recompute, derive_perm hops k]
  exact (h k).map _

theorem expectedQuantity_same (h : Db.Same d d') : expectedQuantity d = expectedQuantity d' := by
  have hbatches : d.batches.Perm d'.batches := h .batch
  have hops : d.operations.Perm d'.operations := h .operation
  funext i
  have hlegacy : hasLegacy d.batches i = hasLegacy d'.batches i := by
    unfold hasLegacy
    rw [Bool.eq_iff_iff, List.any_eq_true, List.any_eq_true]
    simp only [hbatches.mem_iff]
  unfold expectedQuantity batchTotal nullBucket sumDelta
  rw [sumOver_perm hbatches, hlegacy, sumOver_perm hops]

theorem stockBalanced_same (h : Db.Same d d') (hd : StockBalanced d) : StockBalanced d' := by
  intro p hp
  rw [← expectedQuantity_same h]
  exact hd p ((h .product).mem_iff.mpr hp)

/-! ## Again -/

/-- Both cached quantities are what a recomputation makes them. -/
structure Cached (d : Db) : Prop where
  product : ∀ p ∈ d.products, p.quantity = computeStock d.operations p.id
  batch : ∀ b ∈ d.batches, b.quantity = computeBatchStock d.operations b

theorem Cached.recompute_eq (h : Cached d) (now : String) : d.recompute now = d := by
  refine Db.ext_get fun k => ?_
  rw [get_recompute]
  refine (List.map_congr_left fun r hr => ?_).trans (List.map_id _)
  cases k with
  | product => exact if_pos (h.product r hr)
  | batch => exact if_pos (h.batch r hr)
  | warehouse | customer | dictionary | sale | operation | cashMovement => rfl

/-- A recomputation of the database changes nothing and passes. -/
structure Settled (d : Db) : Prop where
  product : ∀ p ∈ d.products, p.quantity = computeStock d.operations p.id
  batch : ∀ b ∈ d.batches, b.quantity = computeBatchStock d.operations b
  balanced : StockBalanced d

theorem Settled.recompute_eq (h : Settled d) (now : String) : d.recompute now = d :=
  Cached.recompute_eq ⟨h.product, h.batch⟩ now

theorem Settled.recomputeDerived (h : Settled d) (now : String) :
    recomputeDerived now d = .ok d := by
  rw [recomputeDerived_ok_iff, h.recompute_eq now]
  exact ⟨h.balanced, rfl⟩

/-- **Once is enough**: a recomputed database is settled. -/
theorem settled_of_recomputeDerived (h : recomputeDerived now d = .ok d') : Settled d' := by
  obtain ⟨hbalanced, rfl⟩ := recomputeDerived_ok_iff.mp h
  refine ⟨fun p' hp' => ?_, fun b' hb' => ?_, hbalanced⟩
  · obtain ⟨p, -, rfl⟩ := List.mem_map.mp hp'
    obtain ⟨hquantity, stamp, heq⟩ :=
      Product.setQuantity_cases now (computeStock d.operations p.id) p
    rw [hquantity, heq]
    rfl
  · obtain ⟨b, -, rfl⟩ := List.mem_map.mp hb'
    obtain ⟨hquantity, stamp, heq⟩ :=
      Batch.setQuantity_cases now (computeBatchStock d.operations b) b
    rw [hquantity, heq]
    rfl

end MyOriShop
