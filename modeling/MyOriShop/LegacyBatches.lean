import MyOriShop.Projection
import MyOriShop.Recompute
import MyOriShop.Selling

/-!
# LegacyBatches: a return of a sale from before the batches (`app/services/returns.py`)

The ledger rows from before the batches name none. They are the NULL bucket of their product, which
a recomputation adds to the quantity of its legacy batch. The migration that seeded these batches
gave them the bucket as their quantity. A return to a product that has no legacy batch creates one
with quantity 0.

* `Cached` (of `Recompute`) is the state the caches should be in.

Results:
* `cached_applyOperation`: a row that names a batch moves both caches as the ledger does.
* `cached_insert_legacy`: a batch at 0 joins the caches where the NULL bucket of its product is 0.
* `return_keeps_caches_iff`: a return of a sale line without a batch leaves the caches right exactly
  where it found a legacy batch or the bucket is 0.
-/

namespace MyOriShop

open Lib.Sums Lib.Transaction

variable {env : Env} {d d' : Db}

/-! ## The caches, write by write -/

theorem computeBatchStock_bump (ops : List Operation) (b : Batch) (delta : Int) (stamp : String) :
    computeBatchStock ops (b.bump delta stamp) = computeBatchStock ops b := rfl

/-- A row of a batch is in no NULL bucket. -/
theorem nullBucket_append {op : Operation} {batchId : String} (hop : op.batchId = some batchId)
    (ops : List Operation) (productId : String) :
    nullBucket (ops ++ [op]) productId = nullBucket ops productId := by
  unfold nullBucket sumDelta
  rw [sumOver_append, sumOver_cons, sumOver_nil, hop]
  simp

theorem computeBatchStock_append {op : Operation} {batchId : String}
    (hop : op.batchId = some batchId) (ops : List Operation) (b : Batch) :
    computeBatchStock (ops ++ [op]) b =
      computeBatchStock ops b + if op.batchId = some b.id then op.qtyDelta else 0 := by
  unfold computeBatchStock
  rw [nullBucket_append hop]
  unfold batchSum sumDelta
  rw [sumOver_append, sumOver_cons, sumOver_nil]
  by_cases hb : op.batchId = some b.id
  · simp [hb]
    omega
  · simp [hb]

/-- **A row that names a batch** moves the caches as it moves the ledger. -/
theorem cached_applyOperation {op : Operation} {batchId : String} (hop : op.batchId = some batchId)
    (stamp : String) : Cached (d.applyOperation op stamp) ↔ Cached d := by
  obtain ⟨hops, hproducts, hbatches⟩ := applyOperation_get d op stamp
  have hproduct : ∀ p : Product,
      ((if p.id = op.productId then p.bump op.qtyDelta stamp else p).quantity =
        computeStock (d.operations ++ [op])
          (if p.id = op.productId then p.bump op.qtyDelta stamp else p).id) ↔
        p.quantity = computeStock d.operations p.id := by
    intro p
    have hsum : computeStock (d.operations ++ [op]) p.id =
        computeStock d.operations p.id + if op.productId = p.id then op.qtyDelta else 0 := by
      unfold computeStock sumDelta
      rw [sumOver_append, sumOver_cons, sumOver_nil]
      by_cases hp : op.productId = p.id <;> simp [hp]
    by_cases hp : p.id = op.productId
    · rw [if_pos hp, show (p.bump op.qtyDelta stamp).id = p.id from rfl, hsum, if_pos hp.symm]
      show p.quantity + op.qtyDelta = _ ↔ _
      omega
    · rw [if_neg hp, hsum, if_neg (Ne.symm hp), add_zero]
  have hbatch : ∀ b : Batch,
      ((if op.batchId = some b.id then b.bump op.qtyDelta stamp else b).quantity =
        computeBatchStock (d.operations ++ [op])
          (if op.batchId = some b.id then b.bump op.qtyDelta stamp else b)) ↔
        b.quantity = computeBatchStock d.operations b := by
    intro b
    by_cases hb : op.batchId = some b.id
    · rw [if_pos hb, computeBatchStock_bump, computeBatchStock_append hop, if_pos hb]
      show b.quantity + op.qtyDelta = _ ↔ _
      omega
    · rw [if_neg hb, computeBatchStock_append hop, if_neg hb, add_zero]
  constructor
  · rintro ⟨hp, hb⟩
    rw [hops, hproducts, List.forall_mem_map] at hp
    rw [hops, hbatches, List.forall_mem_map] at hb
    exact ⟨fun p hmem => (hproduct p).mp (hp p hmem), fun b hmem => (hbatch b).mp (hb b hmem)⟩
  · rintro ⟨hp, hb⟩
    constructor
    · rw [hops, hproducts, List.forall_mem_map]
      exact fun p hmem => (hproduct p).mpr (hp p hmem)
    · rw [hops, hbatches, List.forall_mem_map]
      exact fun b hmem => (hbatch b).mpr (hb b hmem)

/-- **A new legacy batch** at 0 joins the caches where the bucket that it absorbs is 0. -/
theorem cached_insert_legacy (hd : Cached d) {productId batchId : String} (fresh : Fresh d batchId)
    (now : String) : Cached (d.insert .batch [lazyLegacyBatch productId batchId now]) ↔
      nullBucket d.operations productId = 0 := by
  have hnew : computeBatchStock d.operations (lazyLegacyBatch productId batchId now) =
      nullBucket d.operations productId := by
    have hlegacy : (lazyLegacyBatch productId batchId now).isLegacy ≠ 0 := one_ne_zero
    unfold computeBatchStock
    rw [if_pos hlegacy, show (lazyLegacyBatch productId batchId now).id = batchId from rfl,
      batchSum_fresh fresh, zero_add]
    rfl
  constructor
  · intro h
    have hquantity := h.batch (lazyLegacyBatch productId batchId now)
      (List.mem_append_right _ (List.mem_singleton_self _))
    exact hnew.symm.trans hquantity.symm
  · intro hzero
    refine ⟨hd.product, fun b hb => ?_⟩
    rcases List.mem_append.mp hb with hold | hadded
    · exact hd.batch b hold
    · rw [List.mem_singleton.mp hadded]
      exact (hnew.trans hzero).symm

/-! ## A return -/

theorem Refunded.cached_iff {saleId batchId : String} {debit : Int} {day : Lib.IsoDate.Date}
    {m : Option CashMovement} (h : Refunded env saleId debit batchId day d m d') :
    Cached d' ↔ Cached d := by
  cases h with
  | nothing => exact Iff.rfl
  | cash _ _ hm =>
    rw [hm.next]
    exact ⟨fun h => ⟨h.product, h.batch⟩, fun h => ⟨h.product, h.batch⟩⟩

/-- The origin of a return is the row that its form names. -/
theorem returnCheck_find {form : ReturnForm} {origin : Operation} {saleId : String}
    {remaining : Int} (h : returnCheck env d form = .ok (origin, saleId, remaining)) :
    d.find .operation form.originOpId = some origin := by
  unfold returnCheck at h
  split at h
  · next found saleId' hfound =>
    have horigin : found = origin := by
      simp only [refuse_bind] at h
      split_ifs at h <;> cases h
      rfl
    unfold returnOrigin at hfound
    simp only [Option.bind_eq_bind, Option.bind_eq_some_iff] at hfound
    obtain ⟨row, hrow, sale, -, hguard⟩ := hfound
    split_ifs at hguard
    cases hguard
    rw [hrow, horigin]
  · cases h

/-- **A return of a sale line without a batch** leaves the caches right, and a recomputation nothing
to change, exactly where the product had a legacy batch or its NULL bucket is 0. -/
theorem return_keeps_caches_iff {form : ReturnForm} {origin : Operation}
    {result : Operation × Int} (hcached : Cached d)
    (horigin : d.find .operation form.originOpId = some origin) (hnone : origin.batchId = none)
    (hreply : (registerReturn env form).reply d = .ok (.done result)) :
    (Cached ((registerReturn env form).exec d) ∧
      ∀ now, ((registerReturn env form).exec d).recompute now = (registerReturn env form).exec d) ↔
      (legacyBatch d origin.productId).isSome ∨ nullBucket d.operations origin.productId = 0 := by
  obtain ⟨origin', saleId, op, day, m, -, hreturned⟩ :=
    done_of_closes (closes_registerReturn form) hreply id
  obtain ⟨remaining, hcheck⟩ := hreturned.check
  obtain ⟨batchId, w, w', hbatch, hop, hrefund⟩ := hreturned.rows
  obtain rfl : origin = origin' := Option.some.inj (horigin.symm.trans (returnCheck_find hcheck))
  obtain ⟨stamp, hnext⟩ := hop.next
  have hop : op.batchId = some batchId :=
    hop.carries.batchId (by simp [returnArgs, stockAffectingTypes])
  have hcaches : Cached ((registerReturn env form).exec d) ↔ Cached w := by
    rw [hrefund.cached_iff, hnext, cached_applyOperation hop]
  have hrecompute : (Cached ((registerReturn env form).exec d) ∧ ∀ now,
      ((registerReturn env form).exec d).recompute now = (registerReturn env form).exec d) ↔
        Cached ((registerReturn env form).exec d) :=
    ⟨And.left, fun h => ⟨h, h.recompute_eq⟩⟩
  rw [hrecompute, hcaches]
  cases hbatch with
  | origin h =>
    rw [hnone] at h
    cases h
  | legacy _ hlegacy =>
    rw [hlegacy]
    exact iff_of_true hcached (.inl rfl)
  | created _ hmissing fresh =>
    rw [hmissing, cached_insert_legacy hcached fresh]
    simp

instance : DecidablePred Cached := fun d =>
  decidable_of_iff ((∀ p ∈ d.products, p.quantity = computeStock d.operations p.id) ∧
    ∀ b ∈ d.batches, b.quantity = computeBatchStock d.operations b)
    ⟨fun h => ⟨h.1, h.2⟩, fun h => ⟨h.product, h.batch⟩⟩

/-- A ledger row from before the batches. -/
def oldRow (id type : String) (seq qtyDelta : Int) (saleId : Option String) : Operation where
  id := id
  type := type
  productId := "p"
  qtyDelta := qtyDelta
  unitCostCents := none
  unitPriceCents := none
  payload := .null
  saleId := saleId
  batchId := none
  reversesOpId := none
  authorId := none
  deviceId := "device"
  seq := seq
  createdAt := "2026-01-01T00:00:00+00:00"
  businessDate := none
  createdBy := ""
  syncedAt := none

/-- A product of which so many units came and two were sold before the batches. -/
def beforeBatches (came : Int) : Db where
  warehouses := [⟨defaultWarehouseId, "w", none, defaultCurrency, "", "", none⟩]
  products := [{ blankProduct "p" "" with quantity := came - 2 }]
  sales := [⟨"s", none, "", "", none, none⟩]
  operations := [oldRow "came" "receipt" 1 came none, oldRow "sold" "sale" 2 (-2) (some "s")]

/-- One of the two units comes back. -/
def oneBack : ReturnForm where
  originOpId := "sold"
  qtyRaw := "1"

/-- The return of one unit, when two had come. -/
theorem return_keeps_caches_two :
    Cached (beforeBatches 2) ∧ Cached ((registerReturn Env.sample oneBack).exec (beforeBatches 2)) := by
  have hcached : Cached (beforeBatches 2) := by decide
  obtain ⟨result, hreply⟩ : ∃ result,
      (registerReturn Env.sample oneBack).reply (beforeBatches 2) = .ok (.done result) :=
    reply_done (by decide)
  have hkeeps := return_keeps_caches_iff hcached rfl rfl hreply
  exact ⟨hcached, (hkeeps.mpr (.inr (by decide))).1⟩

/-- When none had: the new batch has one unit, and a recomputation makes it -1. -/
theorem not_return_keeps_caches : ¬∀ env (d : Database) form result origin, Cached d.db →
    d.db.find .operation (ReturnForm.originOpId form) = some origin →
    Operation.batchId origin = none →
    (registerReturn env form).reply d.db = .ok (.done result) →
    Cached ((registerReturn env form).exec d.db) := by
  intro h
  have hok : (beforeBatches 0).Ok := by decide
  have hcached : Cached (beforeBatches 0) := by decide
  have hcaches : ¬Cached ((registerReturn Env.sample oneBack).exec (beforeBatches 0)) := by
    decide
  obtain ⟨result, hreply⟩ : ∃ result,
      (registerReturn Env.sample oneBack).reply (beforeBatches 0) = .ok (.done result) :=
    reply_done (by decide)
  exact hcaches (h Env.sample ⟨beforeBatches 0, hok⟩ oneBack result _ hcached rfl rfl hreply)

end MyOriShop
