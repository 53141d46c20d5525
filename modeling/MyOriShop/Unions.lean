import MyOriShop.Convergence
import MyOriShop.PushClosure
import MyOriShop.Projection
import MyOriShop.LegacyBatches
import MyOriShop.Constrained
import MyOriShop.SaleBooks

/-!
# Unions: two histories in one ledger (`app/services/ledger.py`, `app/services/returns.py`)

Two devices start from one database and work apart. The server takes what the one has sent over its
own rows, and the one takes the reference rows of the server. Both end in `recompute_derived`, which
knows the rows of a product that name no batch as its NULL bucket: every legacy batch of the product
absorbs the whole bucket, and where there is none the bucket counts by itself.

* `looseStock` is the ledger's stock of a product outside its batches; `legacyIds` are its legacy
  batches.
* `Descends` are a ledger and a batch table that have grown out of a database.
* `SeededOnce` is the condition: no product with something in its NULL bucket got a legacy batch on
  each of the two devices.

Results:
* `stockBalanced_iff_loose`: the check compares the loose stock with the bucket, once for each legacy
  batch, and once where there is none.
* `Descends.looseStock_eq`: no operation of the app moves the loose stock.
* `union_passes_iff`: the two ledgers united pass the check, and neither the push nor a page of the
  pull is refused by it, exactly where the legacy batches were seeded once.
* `not_union_passes`: two returns of one old sale, one on each device.
-/

namespace MyOriShop

open Lib.Sums Lib.Fallible Lib.Overlay

variable {a d d' d₁ d₂ : Db} {ops ops' more : List Operation} {bs bs₁ bs₂ : List Batch}
  {driver : Driver} {now : String}

/-! ## The check, once more -/

/-- What the rows of a product's batches come to. -/
def namedStock (ops : List Operation) (bs : List Batch) (productId : String) : Int :=
  sumOver (fun b => batchSum ops b.id) (fun b => b.productId = productId) bs

/-- The ledger's stock of a product outside its batches. -/
def looseStock (ops : List Operation) (bs : List Batch) (productId : String) : Int :=
  computeStock ops productId - namedStock ops bs productId

/-- The legacy batches of a product. -/
def legacyIds (bs : List Batch) (productId : String) : List String :=
  (bs.filter fun b => b.productId = productId && b.isLegacy != 0).map Batch.id

theorem mem_legacyIds {i productId : String} : i ∈ legacyIds bs productId ↔
    ∃ b ∈ bs, b.id = i ∧ b.productId = productId ∧ b.isLegacy ≠ 0 := by
  unfold legacyIds
  simp only [List.mem_map, List.mem_filter, Bool.and_eq_true, decide_eq_true_eq, bne_iff_ne]
  constructor
  · rintro ⟨b, ⟨hb, hproduct, hlegacy⟩, hid⟩
    exact ⟨b, hb, hid, hproduct, hlegacy⟩
  · rintro ⟨b, hb, hid, hproduct, hlegacy⟩
    exact ⟨b, ⟨hb, hproduct, hlegacy⟩, hid⟩

theorem nodup_legacyIds (h : (bs.map Batch.id).Nodup) (productId : String) :
    (legacyIds bs productId).Nodup := h.sublist (List.filter_sublist.map _)

/-- Every legacy batch of a product absorbs the whole bucket. -/
theorem sum_computeBatchStock (ops : List Operation) (bs : List Batch) (productId : String) :
    sumOver (computeBatchStock ops) (fun b => b.productId = productId) bs =
      namedStock ops bs productId +
        (legacyIds bs productId).length * nullBucket ops productId := by
  unfold namedStock legacyIds
  induction bs with
  | nil => simp
  | cons b bs ih =>
    rw [sumOver_cons, sumOver_cons, ih, List.filter_cons, computeBatchStock]
    by_cases hproduct : b.productId = productId
    · by_cases hlegacy : b.isLegacy = 0
      · simp [hproduct, hlegacy]
        omega
      · simp [hproduct, hlegacy, Int.add_mul]
        omega
    · simp [hproduct]

theorem hasLegacy_iff {productId : String} :
    hasLegacy bs productId = true ↔ legacyIds bs productId ≠ [] := by
  unfold hasLegacy
  rw [List.any_eq_true]
  constructor
  · rintro ⟨b, hb, h⟩
    rw [Bool.and_eq_true, decide_eq_true_eq, bne_iff_ne] at h
    exact List.ne_nil_of_mem (mem_legacyIds.mpr ⟨b, hb, rfl, h⟩)
  · intro h
    obtain ⟨i, hi⟩ := List.exists_mem_of_ne_nil _ h
    obtain ⟨b, hb, -, hproduct, hlegacy⟩ := mem_legacyIds.mp hi
    exact ⟨b, hb, by rw [Bool.and_eq_true, decide_eq_true_eq, bne_iff_ne]; exact ⟨hproduct, hlegacy⟩⟩

/-- **The check**: the loose stock of every product is its bucket, once for each of its legacy
batches, and once where it has none. -/
theorem stockBalanced_iff_loose : StockBalanced (d.recompute now) ↔ ∀ i ∈ d.ids .product,
    looseStock d.operations d.batches i =
      (max 1 (legacyIds d.batches i).length : Nat) * nullBucket d.operations i := by
  have hexpected : ∀ i, sumOver (computeBatchStock d.operations) (fun b => b.productId = i)
        (d.batches.map (master .batch)) +
      (if hasLegacy (d.batches.map (master .batch)) i then 0 else nullBucket d.operations i) =
      namedStock d.operations d.batches i +
        (max 1 (legacyIds d.batches i).length : Nat) * nullBucket d.operations i := by
    intro i
    have hsum : sumOver (computeBatchStock d.operations) (fun b => b.productId = i)
        (d.batches.map (master .batch)) =
        sumOver (computeBatchStock d.operations) (fun b => b.productId = i) d.batches :=
      sumOver_map ..
    have hlegacy : hasLegacy (d.batches.map (master .batch)) i = hasLegacy d.batches i :=
      List.any_map
    rw [hsum, hlegacy, sum_computeBatchStock, Int.add_assoc]
    congr 1
    by_cases hnone : legacyIds d.batches i = []
    · rw [if_neg (hasLegacy_iff.not.mpr (not_not_intro hnone)), hnone]
      simp
    · have hpos := List.length_pos_iff.mpr hnone
      rw [if_pos (hasLegacy_iff.mpr hnone), Nat.max_eq_right hpos, Int.add_zero]
  rw [stockBalanced_recompute_iff, List.forall_mem_map]
  simp only [hexpected]
  show _ ↔ ∀ i ∈ d.products.map Product.id, _
  rw [List.forall_mem_map]
  refine forall₂_congr fun p _ => ?_
  show computeStock d.operations p.id = namedStock d.operations d.batches p.id + _ ↔
    computeStock d.operations p.id - _ = _
  exact sub_eq_iff_eq_add'.symm

/-- Some batch of the product is the one that a row names. -/
def inBatch (bs : List Batch) (productId : String) (o : Operation) : Bool :=
  bs.any fun b => b.productId = productId && o.batchId = some b.id

theorem inBatch_iff {productId : String} {o : Operation} : inBatch bs productId o = true ↔
    ∃ b ∈ bs, b.productId = productId ∧ o.batchId = some b.id := by
  unfold inBatch
  simp only [List.any_eq_true, Bool.and_eq_true, decide_eq_true_eq]

/-- The loose stock, row by row. -/
theorem looseStock_rows (h : (bs.map Batch.id).Nodup) (ops : List Operation) (productId : String) :
    looseStock ops bs productId = sumDelta ops (fun o => o.productId = productId) -
      sumDelta ops (inBatch bs productId) := by
  unfold looseStock computeStock
  congr 1
  exact sumOver_byOwner h Operation.batchId Operation.qtyDelta ops

/-! ## Descent -/

/-- What no edit of a batch changes. -/
structure SameBatch (b b' : Batch) : Prop where
  id : b'.id = b.id
  product : b'.productId = b.productId
  legacy : b'.isLegacy = b.isLegacy

theorem SameBatch.refl (b : Batch) : SameBatch b b := ⟨rfl, rfl, rfl⟩

theorem SameBatch.symm {b b' : Batch} (h : SameBatch b b') : SameBatch b' b :=
  ⟨h.id.symm, h.product.symm, h.legacy.symm⟩

theorem SameBatch.trans {b b' b'' : Batch} (h : SameBatch b b') (h' : SameBatch b' b'') :
    SameBatch b b'' :=
  ⟨h'.id.trans h.id, h'.product.trans h.product, h'.legacy.trans h.legacy⟩

theorem Kept.sameBatch {b b' : Batch} (h : Kept .batch b b') : SameBatch b b' :=
  ⟨h.1, h.2.1, h.2.2.2.1⟩

/-- No batch of a database has the id, and no row of it names it. -/
structure Unheard (d : Db) (id : String) : Prop where
  named : id ≠ ""
  batch : id ∉ d.ids .batch
  row : ∀ o ∈ d.operations, o.batchId ≠ some id

theorem Fresh.unheard {id : String} (h : Fresh d id) : Unheard d id where
  named := h.1
  batch hid := h.2 (mem_usedIds hid)
  row o ho hid := by
    refine h.2 ?_
    simp only [Db.usedIds, List.mem_append, List.mem_filterMap]
    exact .inl (.inl (.inr ⟨o, ho, hid⟩))

/-- A row of the app moves no stock, or the stock of a batch of its own product. -/
def Lies (bs : List Batch) (o : Operation) : Prop :=
  (o.batchId = none ∧ o.qtyDelta = 0) ∨
    ∃ b ∈ bs, o.batchId = some b.id ∧ b.productId = o.productId

/-- A ledger and a batch table that have grown out of a database: rows of the app after its rows,
its batches, and batches that it has not heard of. -/
structure Descends (a : Db) (ops : List Operation) (bs : List Batch) : Prop where
  nodup : (bs.map Batch.id).Nodup
  rows : ∃ new, ops = a.operations ++ new ∧ ∀ o ∈ new, Lies bs o
  kept : ∀ b ∈ a.batches, ∃ b' ∈ bs, SameBatch b b'
  fresh : ∀ b' ∈ bs, (∃ b ∈ a.batches, SameBatch b b') ∨ Unheard a b'.id

/-- **The loose stock stands still**: what the app adds to a ledger lies in a batch. -/
theorem Descends.looseStock_eq (h : Descends a ops bs) (ha : a.Ok) (productId : String) :
    looseStock ops bs productId = looseStock a.operations a.batches productId := by
  obtain ⟨new, rfl, hnew⟩ := h.rows
  have hids : (a.batches.map Batch.id).Nodup := ha.nodup .batch
  have hold : sumDelta a.operations (inBatch bs productId) =
      sumDelta a.operations (inBatch a.batches productId) := by
    refine sumOver_congr fun o ho _ => ?_
    rw [Bool.eq_iff_iff, inBatch_iff, inBatch_iff]
    constructor
    · rintro ⟨b', hb', hproduct, hid⟩
      rcases h.fresh b' hb' with ⟨b, hb, hsame⟩ | hunheard
      · exact ⟨b, hb, hsame.product.symm.trans hproduct, hsame.id ▸ hid⟩
      · exact absurd hid (hunheard.row o ho)
    · rintro ⟨b, hb, hproduct, hid⟩
      obtain ⟨b', hb', hsame⟩ := h.kept b hb
      exact ⟨b', hb', hsame.product.trans hproduct, hsame.id.symm ▸ hid⟩
  have hadded : sumDelta new (inBatch bs productId) =
      sumDelta new (fun o => o.productId = productId) := by
    refine sumOver_congr fun o ho hmoves => ?_
    rw [Bool.eq_iff_iff, inBatch_iff, decide_eq_true_eq]
    obtain ⟨b, hb, hid, hproduct⟩ := (hnew o ho).resolve_left fun h => hmoves h.2
    constructor
    · rintro ⟨b', hb', hproduct', hid'⟩
      have heq := List.inj_on_of_nodup_map h.nodup hb hb' (Option.some.inj (hid.symm.trans hid'))
      rw [← hproduct, heq, hproduct']
    · exact fun hp => ⟨b, hb, hproduct.trans hp, hid⟩
  rw [looseStock_rows h.nodup, looseStock_rows hids]
  unfold sumDelta at hold hadded ⊢
  rw [sumOver_append, sumOver_append, hold, hadded]
  omega

/-- Nor does it touch a NULL bucket. -/
theorem Descends.nullBucket_eq (h : Descends a ops bs) (productId : String) :
    nullBucket ops productId = nullBucket a.operations productId := by
  obtain ⟨new, rfl, hnew⟩ := h.rows
  unfold nullBucket sumDelta
  have hadded : sumOver Operation.qtyDelta
      (fun o => decide (o.productId = productId) && o.batchId.isNone) new = 0 := by
    refine sumOver_eq_zero fun o ho hp => ?_
    rw [Bool.and_eq_true, Option.isNone_iff_eq_none] at hp
    rcases hnew o ho with ⟨-, hzero⟩ | ⟨b, -, hid, -⟩
    · exact hzero
    · rw [hp.2] at hid
      cases hid
  rw [sumOver_append, hadded, add_zero]

/-- A database descends from itself. -/
theorem descends_refl (ha : a.Ok) : Descends a a.operations a.batches where
  nodup := ha.nodup .batch
  rows := ⟨[], (List.append_nil _).symm, fun _ h => absurd h List.not_mem_nil⟩
  kept b hb := ⟨b, hb, .refl b⟩
  fresh b hb := .inl ⟨b, hb, .refl b⟩

/-- **A device goes on**: it keeps its batches, gets others that descend as well, and rows placed in
them. -/
theorem Descends.grow (h : Descends a ops bs₁) (hnodup : (bs.map Batch.id).Nodup)
    (hkept : ∀ b ∈ bs₁, ∃ b' ∈ bs, SameBatch b b')
    (hfresh : ∀ b' ∈ bs, (∃ b ∈ bs₁, SameBatch b b') ∨
      (∃ b ∈ a.batches, SameBatch b b') ∨ Unheard a b'.id)
    (hmore : ∀ o ∈ more, Lies bs o) : Descends a (ops ++ more) bs where
  nodup := hnodup
  rows := by
    obtain ⟨new, rfl, hnew⟩ := h.rows
    refine ⟨new ++ more, List.append_assoc .., fun o ho => ?_⟩
    rcases List.mem_append.mp ho with ho | ho
    · refine (hnew o ho).imp_right fun ⟨b, hb, hid, hproduct⟩ => ?_
      obtain ⟨b', hb', hsame⟩ := hkept b hb
      exact ⟨b', hb', hsame.id.symm ▸ hid, hsame.product.trans hproduct⟩
    · exact hmore o ho
  kept b hb := by
    obtain ⟨b₁, hb₁, hsame⟩ := h.kept b hb
    obtain ⟨b', hb', hsame'⟩ := hkept b₁ hb₁
    exact ⟨b', hb', hsame.trans hsame'⟩
  fresh b' hb' := by
    rcases hfresh b' hb' with ⟨b₁, hb₁, hsame⟩ | hfresh
    · rcases h.fresh b₁ hb₁ with ⟨b, hb, hsame'⟩ | hunheard
      · exact .inl ⟨b, hb, hsame'.trans hsame⟩
      · exact .inr (hsame.id.symm ▸ hunheard)
    · exact hfresh

/-- What a descendant has not heard of its ancestor has not. -/
theorem Descends.unheard (h : Descends a d.operations d.batches) {id : String} (hid : Unheard d id) :
    Unheard a id where
  named := hid.named
  batch hmem := by
    obtain ⟨b, hb, rfl⟩ := List.mem_map.mp hmem
    obtain ⟨b', hb', hsame⟩ := h.kept b hb
    exact hid.batch (List.mem_map.mpr ⟨b', hb', hsame.id⟩)
  row o ho := by
    obtain ⟨new, hops, -⟩ := h.rows
    exact hid.row o (hops ▸ List.mem_append_left _ ho)

variable {free : String → Prop}

/-- **The step lemma**: after a write of a service the tables still descend. -/
theorem descends_write (hw : Write free d d') (h : Descends a d.operations d.batches) :
    Descends a d'.operations d'.batches := by
  have hkept : ∀ b ∈ d.batches, ∃ b' ∈ d'.batches, SameBatch b b' := fun b hb =>
    (hw.kept (k := .batch) hb).imp fun _ h => ⟨h.1, h.2.sameBatch⟩
  have hops : ∃ more, d'.operations = d.operations ++ more ∧ ∀ o ∈ more, Lies d'.batches o := by
    rcases hw.quantities with hq | ⟨op, stamp, hborn, rfl⟩
    · refine ⟨[], ?_, fun _ ho => absurd ho List.not_mem_nil⟩
      rw [hq.operations, List.append_nil]
    · refine ⟨[op], (applyOperation_get d op stamp).1, fun o ho => ?_⟩
      rw [List.mem_singleton.mp ho]
      refine hborn.batch.imp_right fun ⟨b, hb, hid, hproduct⟩ => ?_
      obtain ⟨b', hb', hsame⟩ := hkept b hb
      exact ⟨b', hb', hsame.id.symm ▸ hid, hsame.product.trans hproduct⟩
  obtain ⟨more, hmore, hlies⟩ := hops
  rw [hmore]
  refine h.grow (hw.nodup (k := .batch) h.nodup) hkept (fun b' hb' => ?_) hlies
  rcases hw.mem (k := .batch) hb' with ⟨b, hb, hb'⟩ | ⟨fresh, -⟩
  · exact .inl ⟨b, hb, hb'.sameBatch⟩
  · exact .inr (.inr (h.unheard fresh.unheard))

theorem Write.ids_subset (hw : Write free d d') (k : Kind) : d.ids k ⊆ d'.ids k := by
  rcases hw.ids k with hids | ⟨i, -, hids⟩ <;> rw [hids]
  · exact fun _ h => h
  · exact List.subset_append_left _ _

/-- **A run** leaves a descendant of the database it started from, with its products. -/
theorem descends_runAll (ha : a.Ok) (run : List Request) :
    Descends a (runAll a run).operations (runAll a run).batches ∧
      a.ids .product ⊆ (runAll a run).ids .product := by
  have hstep : ∀ d d', Write (fun _ => True) d d' →
      (Descends a d.operations d.batches ∧ a.ids .product ⊆ d.ids .product) →
        Descends a d'.operations d'.batches ∧ a.ids .product ⊆ d'.ids .product :=
    fun _ _ hw h => ⟨descends_write hw h.1, fun _ hi => hw.ids_subset _ (h.2 hi)⟩
  exact runAll_induct hstep ⟨descends_refl ha, fun _ h => h⟩ fun _ _ _ _ => .inr trivial

/-! ## Two devices -/

/-- No product with something in its NULL bucket got a legacy batch on each of the two devices. -/
def SeededOnce (a d₁ d₂ : Db) : Prop := ∀ i, nullBucket a.operations i = 0 ∨
  legacyIds d₁.batches i ⊆ a.ids .batch ∨ legacyIds d₂.batches i ⊆ a.ids .batch

/-- A device: a descendant with the ancestor's products that passes the check. -/
structure Device (a d : Db) : Prop where
  descends : Descends a d.operations d.batches
  products : a.ids .product ⊆ d.ids .product
  balanced : ∃ now, StockBalanced (d.recompute now)

/-- There is nothing in the bucket of a product that is not there. -/
theorem nullBucket_unknown (ha : a.Ok) {i : String} (hi : i ∉ a.ids .product) :
    nullBucket a.operations i = 0 := by
  refine sumOver_eq_zero fun o ho hp => absurd (ha.operationProduct o ho) ?_
  rw [Bool.and_eq_true, decide_eq_true_eq] at hp
  rwa [hp.1]

/-- A device balances for every product, its own or not. -/
theorem Device.loose (h : Device a d) (ha : a.Ok) (i : String) :
    looseStock a.operations a.batches i =
      (max 1 (legacyIds d.batches i).length : Nat) * nullBucket a.operations i := by
  by_cases hi : i ∈ a.ids .product
  · obtain ⟨now, hbalanced⟩ := h.balanced
    have hloose := stockBalanced_iff_loose.mp hbalanced i (h.products hi)
    rwa [h.descends.looseStock_eq ha, h.descends.nullBucket_eq] at hloose
  · have hrows : ∀ o ∈ a.operations, o.productId ≠ i := fun o ho hproduct =>
      hi (hproduct ▸ ha.operationProduct o ho)
    have hbatches : ∀ b ∈ a.batches, b.productId ≠ i := fun b hb hproduct =>
      hi (hproduct ▸ ha.batchProduct b hb)
    have hstock : computeStock a.operations i = 0 :=
      sumOver_eq_zero fun o ho hp => absurd (of_decide_eq_true hp) (hrows o ho)
    have hnamed : namedStock a.operations a.batches i = 0 :=
      sumOver_eq_zero fun b hb hp => absurd (of_decide_eq_true hp) (hbatches b hb)
    rw [looseStock, hstock, hnamed, nullBucket_unknown ha hi, Int.mul_zero, Int.sub_zero]

/-- **A union balances** for a product as soon as its legacy batches are between those of the two
devices in number. -/
theorem loose_between {loose bucket : Int} {n n₁ n₂ : Nat}
    (h₁ : loose = (max 1 n₁ : Nat) * bucket) (h₂ : loose = (max 1 n₂ : Nat) * bucket)
    (hn : bucket = 0 ∨ min n₁ n₂ ≤ n ∧ n ≤ max n₁ n₂) : loose = (max 1 n : Nat) * bucket := by
  rcases hn with hzero | ⟨hlow, hhigh⟩
  · rw [h₁, hzero, Int.mul_zero, Int.mul_zero]
  · by_cases hbucket : bucket = 0
    · rw [h₁, hbucket, Int.mul_zero, Int.mul_zero]
    · have heq : ((max 1 n₁ : Nat) : Int) = (max 1 n₂ : Nat) :=
        Int.eq_of_mul_eq_mul_right hbucket (h₁.symm.trans h₂)
      have heq : max 1 n₁ = max 1 n₂ := Int.ofNat.inj heq
      have hn : max 1 n = max 1 n₁ := by omega
      rw [hn, h₁]

/-- A batch table that unites two: the batches of the one, and some of the other's. -/
structure Unites (bs₁ bs₂ bs : List Batch) : Prop where
  nodup : (bs.map Batch.id).Nodup
  kept : ∀ b ∈ bs₁, ∃ b' ∈ bs, SameBatch b b'
  source : ∀ b' ∈ bs, (∃ b ∈ bs₁, SameBatch b b') ∨ ∃ b ∈ bs₂, SameBatch b b'

theorem Unites.descends (h : Unites bs₁ bs₂ bs) (h₁ : Descends a ops bs₁) (h₂ : Descends a ops' bs₂)
    (hmore : ∀ o ∈ more, Lies bs o) : Descends a (ops ++ more) bs := by
  refine h₁.grow h.nodup h.kept (fun b' hb' => ?_) hmore
  refine (h.source b' hb').imp_right fun ⟨b, hb, hsame⟩ => ?_
  rcases h₂.fresh b hb with ⟨b₀, hb₀, hsame₀⟩ | hunheard
  · exact .inl ⟨b₀, hb₀, hsame₀.trans hsame⟩
  · exact .inr (hsame.id.symm ▸ hunheard)

/-- The same batch under another table is a legacy batch of the same product. -/
theorem legacyIds_of_same {b b' : Batch} {i : String} (hsame : SameBatch b b') (hb' : b' ∈ bs)
    (hproduct : b.productId = i) (hlegacy : b.isLegacy ≠ 0) : b.id ∈ legacyIds bs i :=
  mem_legacyIds.mpr ⟨b', hb', hsame.id, hsame.product.trans hproduct, hsame.legacy.symm ▸ hlegacy⟩

theorem Unites.legacy_kept (h : Unites bs₁ bs₂ bs) (i : String) :
    legacyIds bs₁ i ⊆ legacyIds bs i := by
  intro x hx
  obtain ⟨b, hb, rfl, hproduct, hlegacy⟩ := mem_legacyIds.mp hx
  obtain ⟨b', hb', hsame⟩ := h.kept b hb
  exact legacyIds_of_same hsame hb' hproduct hlegacy

theorem Unites.legacy_source (h : Unites bs₁ bs₂ bs) (i : String) :
    legacyIds bs i ⊆ legacyIds bs₁ i ++ legacyIds bs₂ i := by
  intro x hx
  obtain ⟨b', hb', rfl, hproduct, hlegacy⟩ := mem_legacyIds.mp hx
  rw [List.mem_append]
  refine (h.source b' hb').imp ?_ ?_
  · rintro ⟨b, hb, hsame⟩
    exact legacyIds_of_same hsame.symm hb hproduct hlegacy
  · rintro ⟨b, hb, hsame⟩
    exact legacyIds_of_same hsame.symm hb hproduct hlegacy

/-- A batch that a database has heard of is one of its own. -/
theorem Descends.known (h : Descends a ops bs) {b' : Batch} (hb' : b' ∈ bs)
    (hid : b'.id ∈ a.ids .batch) : ∃ b ∈ a.batches, SameBatch b b' :=
  (h.fresh b' hb').resolve_right fun hunheard => hunheard.batch hid

/-- The ancestor's legacy batches are every descendant's. -/
theorem Descends.legacy_subset (h : Descends a ops bs) (h' : Descends a ops' bs₁) {i : String}
    (hold : legacyIds bs i ⊆ a.ids .batch) : legacyIds bs i ⊆ legacyIds bs₁ i := by
  intro x hx
  obtain ⟨b', hb', rfl, hproduct, hlegacy⟩ := mem_legacyIds.mp hx
  obtain ⟨b, hb, hsame⟩ := h.known hb' (hold hx)
  obtain ⟨b₁, hb₁, hsame₁⟩ := h'.kept b hb
  exact legacyIds_of_same (hsame.symm.trans hsame₁) hb₁ hproduct hlegacy

/-- **A union balances** where the legacy batches of the product were seeded on one side at most. -/
theorem Unites.loose (h : Unites d₁.batches d₂.batches bs) (ha : a.Ok) (h₁ : Device a d₁)
    (h₂ : Device a d₂) {i : String} (hseeded : nullBucket a.operations i = 0 ∨
      legacyIds d₁.batches i ⊆ a.ids .batch ∨ legacyIds d₂.batches i ⊆ a.ids .batch) :
    looseStock a.operations a.batches i =
      (max 1 (legacyIds bs i).length : Nat) * nullBucket a.operations i := by
  refine loose_between (h₁.loose ha i) (h₂.loose ha i) (hseeded.imp_right fun hseeded => ?_)
  have hlow : (legacyIds d₁.batches i).length ≤ (legacyIds bs i).length :=
    ((nodup_legacyIds h₁.descends.nodup i).subperm (h.legacy_kept i)).length_le
  have hhigh : ∀ l : List String, legacyIds d₁.batches i ++ legacyIds d₂.batches i ⊆ l →
      (legacyIds bs i).length ≤ l.length := fun l hl =>
    ((nodup_legacyIds h.nodup i).subperm (List.Subset.trans (h.legacy_source i) hl)).length_le
  rcases hseeded with hold | hold
  · have hsub := h₁.descends.legacy_subset h₂.descends hold
    have hle := hhigh _ (List.append_subset.mpr ⟨hsub, fun _ hx => hx⟩)
    omega
  · have hsub := h₂.descends.legacy_subset h₁.descends hold
    have hle := hhigh _ (List.append_subset.mpr ⟨fun _ hx => hx, hsub⟩)
    omega

/-- **And only there**, when all legacy batches have come together. -/
theorem seeded_of_loose (ha : a.Ok) (h₁ : Device a d₁)
    (hunique : ∀ i ∈ d₁.ids .batch, i ∈ d₂.ids .batch → i ∈ a.ids .batch) {i : String}
    (hboth : legacyIds d₁.batches i ++ legacyIds d₂.batches i ⊆ legacyIds bs i)
    (hloose : looseStock a.operations a.batches i =
      (max 1 (legacyIds bs i).length : Nat) * nullBucket a.operations i) :
    nullBucket a.operations i = 0 ∨
      legacyIds d₁.batches i ⊆ a.ids .batch ∨ legacyIds d₂.batches i ⊆ a.ids .batch := by
  by_contra hnot
  rw [not_or, not_or] at hnot
  obtain ⟨hbucket, hnew₁, hnew₂⟩ := hnot
  have hmem : ∀ {d : Db} {x : String}, x ∈ legacyIds d.batches i → x ∈ d.ids .batch := by
    intro d x hx
    obtain ⟨b, hb, rfl, -⟩ := mem_legacyIds.mp hx
    exact List.mem_map_of_mem hb
  have hsome : ∀ {l l' : List String}, ¬l ⊆ l' → ∃ x ∈ l, x ∉ l' := fun hnew => by
    simpa only [List.subset_def, not_forall, exists_prop] using hnew
  obtain ⟨x₁, hx₁, -⟩ := hsome hnew₁
  obtain ⟨x₂, hx₂, hx₂a⟩ := hsome hnew₂
  have hapart : x₂ ∉ legacyIds d₁.batches i := fun hx => hx₂a (hunique x₂ (hmem hx) (hmem hx₂))
  have hmore : (x₂ :: legacyIds d₁.batches i).length ≤ (legacyIds bs i).length := by
    refine (List.Nodup.subperm ?_ ?_).length_le
    · exact List.nodup_cons.mpr ⟨hapart, nodup_legacyIds h₁.descends.nodup i⟩
    · exact List.cons_subset.mpr ⟨hboth (List.mem_append_right _ hx₂),
        fun x hx => hboth (List.mem_append_left _ hx)⟩
  have hpos := List.length_pos_of_mem hx₁
  have heq : ((max 1 (legacyIds d₁.batches i).length : Nat) : Int) =
      (max 1 (legacyIds bs i).length : Nat) :=
    Int.eq_of_mul_eq_mul_right hbucket ((h₁.loose ha i).symm.trans hloose)
  have heq := Int.ofNat.inj heq
  rw [List.length_cons] at hmore
  omega

/-! ## The push -/

/-- The first device's tables with the rows that the second has sent. -/
def Db.pushedTo (d₂ d₁ : Db) : Db := d₁.receive fun k => resolveKind d₁ k (arriving d₂ d₁ k)

theorem mem_arriving {k : Kind} {r : Row k} : r ∈ arriving d₂ d₁ k ↔
    ∃ s ∈ pushedRows d₂ k, rowId k s ∉ d₁.ids k ∧ arrived k s = r := by
  unfold arriving newRows
  rw [List.mem_map]
  simp only [List.mem_filter, decide_eq_true_eq, and_assoc]
  rfl

theorem batches_pushedTo (d₂ d₁ : Db) :
    (d₂.pushedTo d₁).batches = d₁.batches ++ arriving d₂ d₁ .batch :=
  Db.get_receive d₁ _ .batch

theorem operations_pushedTo (d₂ d₁ : Db) :
    (d₂.pushedTo d₁).operations = d₁.operations ++ arriving d₂ d₁ .operation :=
  Db.get_receive d₁ _ .operation

theorem unites_pushedTo (hd₁ : d₁.Ok) (hd₂ : d₂.Ok) :
    Unites d₁.batches d₂.batches (d₂.pushedTo d₁).batches where
  nodup := by
    have hids₁ : (d₁.batches.map Batch.id).Nodup := hd₁.nodup .batch
    have hids₂ : ((arriving d₂ d₁ .batch).map (rowId .batch)).Nodup := by
      have hpushed : ((pushedRows d₂ .batch).map (rowId .batch)).Nodup :=
        (hd₂.nodup .batch).sublist ((pushed_sublist d₂ .batch).map _)
      unfold arriving
      rw [List.map_map]
      refine (List.map_congr_left fun r _ => ?_) ▸ hpushed.sublist (List.filter_sublist.map _)
      exact (rowId_arrived .batch r).symm
    rw [batches_pushedTo, List.map_append]
    refine List.nodup_append.mpr ⟨hids₁, hids₂, fun x hx y hy hxy => ?_⟩
    obtain ⟨r, hr, rfl⟩ := List.mem_map.mp hy
    obtain ⟨s, -, hnew, rfl⟩ := mem_arriving.mp hr
    have hx : x ∈ d₁.ids .batch := hx
    rw [hxy] at hx
    exact hnew hx
  kept b hb := ⟨b, batches_pushedTo d₂ d₁ ▸ List.mem_append_left _ hb, .refl b⟩
  source b' hb' := by
    rw [batches_pushedTo, List.mem_append] at hb'
    refine hb'.imp (fun hb => ⟨b', hb, .refl b'⟩) fun hb => ?_
    obtain ⟨s, hs, -, rfl⟩ := mem_arriving.mp hb
    exact ⟨s, (pushed_sublist d₂ .batch).subset hs, ⟨rfl, rfl, rfl⟩⟩

/-- A batch that both devices have is the same batch. -/
theorem sameBatch_of_id (ha : a.Ok) (h₁ : Descends a ops bs₁) (h₂ : Descends a ops' bs₂)
    {b₁ b₂ : Batch} (hb₁ : b₁ ∈ bs₁) (hb₂ : b₂ ∈ bs₂) (hid : b₁.id = b₂.id)
    (hold : b₁.id ∈ a.ids .batch) : SameBatch b₁ b₂ := by
  obtain ⟨b, hb, hsame⟩ := h₁.known hb₁ hold
  obtain ⟨b', hb', hsame'⟩ := h₂.known hb₂ (hid ▸ hold)
  have hids : (a.batches.map Batch.id).Nodup := ha.nodup .batch
  obtain rfl := List.inj_on_of_nodup_map hids hb hb' (hsame.id.symm.trans (hid.trans hsame'.id))
  exact hsame.symm.trans hsame'

/-- The rows that arrive lie in batches that are there. -/
theorem lies_arriving (ha : a.Ok) (h₁ : Descends a d₁.operations d₁.batches)
    (h₂ : Descends a d₂.operations d₂.batches)
    (hunique : ∀ i ∈ d₁.ids .batch, i ∈ d₂.ids .batch → i ∈ a.ids .batch) :
    ∀ o ∈ arriving d₂ d₁ .operation, Lies (d₂.pushedTo d₁).batches o := by
  intro o ho
  obtain ⟨s, hs, hnew, rfl⟩ := mem_arriving.mp ho
  obtain ⟨new₁, hops₁, -⟩ := h₁.rows
  obtain ⟨new₂, hops₂, hlies⟩ := h₂.rows
  rw [pushed_eq] at hs
  have hs₂ : s ∈ unsyncedOps d₂ := hs
  have hmem : s ∈ new₂ := by
    have hthere : s ∈ a.operations ++ new₂ := hops₂ ▸ List.mem_of_mem_filter hs₂
    refine (List.mem_append.mp hthere).resolve_left fun hold => hnew ?_
    have hthere₁ : s ∈ d₁.operations := hops₁ ▸ List.mem_append_left new₁ hold
    exact List.mem_map_of_mem (f := Operation.id) hthere₁
  refine (hlies s hmem).imp_right fun ⟨b, hb, hid, hproduct⟩ => ?_
  rw [batches_pushedTo]
  by_cases hthere : b.id ∈ d₁.ids .batch
  · obtain ⟨b₁, hb₁, hb₁id⟩ := List.mem_map.mp hthere
    have hold := hunique _ hthere (List.mem_map_of_mem hb)
    have hsame := sameBatch_of_id ha h₂ h₁ hb hb₁ hb₁id.symm hold
    exact ⟨b₁, List.mem_append_left _ hb₁, hsame.id.symm ▸ hid, hsame.product.trans hproduct⟩
  · -- it is new to both, so it has a name, and goes along with the row
    have hnamed : b.id ≠ "" := by
      rcases h₂.fresh b hb with ⟨b₀, hb₀, hsame⟩ | hunheard
      · obtain ⟨b₁, hb₁, hsame₁⟩ := h₁.kept b₀ hb₀
        exact absurd (List.mem_map.mpr ⟨b₁, hb₁, hsame₁.id.trans hsame.id.symm⟩) hthere
      · exact hunheard.named
    have hpushed : b ∈ pushedRows d₂ .batch := by
      rw [pushed_eq]
      refine List.mem_filter.mpr ⟨hb, decide_eq_true (List.mem_filter.mpr ⟨?_, ?_⟩)⟩
      · exact List.mem_filterMap.mpr ⟨s, hs₂, hid⟩
      · exact decide_eq_true hnamed
    exact ⟨arrived .batch b, List.mem_append_right _ (mem_arriving.mpr ⟨b, hpushed, hthere, rfl⟩),
      hid, hproduct⟩

/-- **The push balances** where the legacy batches were seeded once. -/
theorem pushedTo_balanced (ha : a.Ok) (hd₁ : d₁.Ok) (hd₂ : d₂.Ok) (h₁ : Device a d₁)
    (h₂ : Device a d₂) (hunique : ∀ i ∈ d₁.ids .batch, i ∈ d₂.ids .batch → i ∈ a.ids .batch)
    (hseeded : SeededOnce a d₁ d₂) : StockBalanced ((d₂.pushedTo d₁).recompute now) := by
  have hunites := unites_pushedTo hd₁ hd₂
  have hdescends := hunites.descends h₁.descends h₂.descends
    (lies_arriving ha h₁.descends h₂.descends hunique)
  rw [← operations_pushedTo] at hdescends
  refine stockBalanced_iff_loose.mpr fun i _ => ?_
  rw [hdescends.looseStock_eq ha, hdescends.nullBucket_eq]
  exact hunites.loose ha h₁ h₂ (hseeded i)

/-! ## Whose refusal it is -/

/-- An error of the storage, not of the stock check. -/
def Exn.NotStock (e : Exn) : Prop := ∀ i, e ≠ .stockInvariant i

theorem fit_errors {α : Type} {c : Cells} {field : String} {stored : Option α} :
    ErrorsOnly Exn.NotStock (c.fit field stored) := by
  cases stored with
  | some v => exact errorsOnly_ok v
  | none => exact errorsOnly_error.mpr fun _ h => nomatch h

theorem optText_errors {c : Cells} {field : String} :
    ErrorsOnly Exn.NotStock (c.optText field) := by
  unfold Cells.optText Cells.storeText
  split
  · exact errorsOnly_ok _
  · exact errorsOnly_map (fit_errors)

theorem optInteger_errors {c : Cells} {field : String} :
    ErrorsOnly Exn.NotStock (c.optInteger field) := by
  unfold Cells.optInteger Cells.storeInteger
  split
  · exact errorsOnly_ok _
  · exact errorsOnly_map (fit_errors)

theorem required_errors {α : Type} {v : Option α} : ErrorsOnly Exn.NotStock (Cells.required v) := by
  cases v with
  | some v => exact errorsOnly_ok v
  | none => exact errorsOnly_error.mpr fun _ h => nomatch h

theorem text_errors {c : Cells} {field : String} : ErrorsOnly Exn.NotStock (c.text field) :=
  errorsOnly_bind.mpr ⟨optText_errors, fun _ _ => required_errors⟩

theorem integer_errors {c : Cells} {field : String} : ErrorsOnly Exn.NotStock (c.integer field) :=
  errorsOnly_bind.mpr ⟨optInteger_errors, fun _ _ => required_errors⟩

theorem rowOf_errors {k : Kind} {c : Cells} : ErrorsOnly Exn.NotStock (rowOf k c) := by
  cases k <;>
    simp only [rowOf, errorsOnly_bind, text_errors, optText_errors, integer_errors,
      optInteger_errors, errorsOnly_pure, implies_true, and_true]

theorem insertAll_errors {k : Kind} {rows : List (Row k)} :
    ErrorsOnly Exn.NotStock (insertAll d k rows) := by
  unfold insertAll
  split
  · exact errorsOnly_ok _
  · split_ifs
    · exact errorsOnly_ok _
    · exact errorsOnly_error.mpr fun _ h => nomatch h

/-- The inserts of a merge do not check the stock. -/
theorem mergeKinds_errors {records : List ExchangeRecord} {kinds : List Kind} : ErrorsOnly Exn.NotStock (mergeKinds driver now records kinds d) := by
  induction kinds generalizing d with
  | nil => exact errorsOnly_ok _
  | cons k kinds ih =>
    refine errorsOnly_bind.mpr ⟨errorsOnly_bind.mpr ⟨?_, fun _ _ => ?_⟩, fun _ _ => ?_⟩
    · exact errorsOnly_bind.mpr ⟨errorsOnly_mapM fun _ _ => rowOf_errors,
        fun _ _ => errorsOnly_ok _⟩
    · exact errorsOnly_bind.mpr ⟨insertAll_errors, fun _ _ => errorsOnly_ok _⟩
    · exact errorsOnly_bind.mpr ⟨ih, fun _ _ => errorsOnly_ok _⟩

theorem updateEach_errors {k : Kind} {kept : List String} {hits : Data → Row k → Bool}
    {rows : List Data} :
    ErrorsOnly Exn.NotStock (updateEach driver k kept hits rows d) := by
  induction rows generalizing d with
  | nil => exact errorsOnly_ok _
  | cons data rows ih =>
    refine errorsOnly_bind.mpr ⟨errorsOnly_bind.mpr ⟨errorsOnly_mapM fun r _ => ?_, ?_⟩,
      fun _ _ => ih⟩
    · split_ifs
      · exact rowOf_errors
      · exact errorsOnly_ok _
    · intro rows _
      split_ifs
      · exact errorsOnly_ok _
      · exact errorsOnly_error.mpr fun _ h => nomatch h

/-- Nor do the upserts of a page. -/
theorem upsertKinds_errors {records : List ExchangeRecord} {kinds : List Kind} :
    ErrorsOnly Exn.NotStock (upsertKinds driver now records kinds d) := by
  have hupsert : ∀ {d : Db} {k : Kind} {kept hits newRows existingRows},
      ErrorsOnly Exn.NotStock (upsert driver now k kept hits newRows existingRows d) := by
    intro d k kept hits newRows existingRows
    refine errorsOnly_bind.mpr ⟨errorsOnly_mapM fun _ _ => rowOf_errors, fun _ _ => ?_⟩
    refine errorsOnly_bind.mpr ⟨insertAll_errors, fun _ _ => ?_⟩
    exact errorsOnly_bind.mpr ⟨updateEach_errors, fun _ _ => errorsOnly_ok _⟩
  induction kinds generalizing d with
  | nil => exact errorsOnly_ok _
  | cons k kinds ih =>
    refine errorsOnly_bind.mpr ⟨?_, fun _ _ => ?_⟩
    · unfold upsertKind
      split_ifs
      · exact hupsert
      · exact hupsert
    · exact errorsOnly_bind.mpr ⟨ih, fun _ _ => errorsOnly_ok _⟩

/-- A merge of sent rows is refused by the stock check only if the rows do not balance. -/
theorem applyMerge_errors (hd₁ : d₁.Ok) (hstock : StockBalanced ((d₂.pushedTo d₁).recompute now)) :
    ErrorsOnly Exn.NotStock (applyMerge driver now d₁ (collectPushRecords d₂).1) := by
  refine errorsOnly_bind.mpr ⟨mergeKinds_errors, fun out hout => ?_⟩
  refine errorsOnly_bind.mpr ⟨?_, fun _ _ => errorsOnly_ok _⟩
  obtain ⟨d', tallies⟩ := out
  obtain ⟨rows, hrows, -, -, rfl, -⟩ := (mergeKinds_ok_iff hd₁ parentsFirst_all).mp hout
  have hreceived : d₁.receive rows = d₂.pushedTo d₁ := by
    refine congrArg d₁.receive (funext fun k => ?_)
    exact Except.ok.inj ((hrows k k.mem_all).symm.trans (incoming_push d₂ d₁ k))
  show ErrorsOnly Exn.NotStock (recomputeDerived now (d₁.receive rows))
  rw [hreceived, recomputeDerived_ok_iff.mpr ⟨hstock, rfl⟩]
  exact errorsOnly_ok _

/-! ## The pull -/

/-- The pages of a pull unite the two batch tables, as far as they have come. -/
theorem unites_overlaid (ha : a.Ok) (hd₂ : d₂.Ok) (h₁ : Descends a d₁.operations d₁.batches)
    (h₂ : Descends a d₂.operations d₂.batches)
    (hunique : ∀ i ∈ d₁.ids .batch, i ∈ d₂.ids .batch → i ∈ a.ids .batch) {rows : List AnyRow}
    (hrows : ∀ b ∈ rowsOf .batch rows, b ∈ d₁.batches)
    (hnodup : ((rowsOf .batch rows).map (rowId .batch)).Nodup) :
    Unites d₂.batches d₁.batches (d₂.overlaid rows).batches := by
  have hmem : ∀ b, b ∈ (d₂.overlaid rows).batches ↔ b ∈ rowsOf .batch rows ∨
      (b ∈ d₂.batches ∧ rowId .batch b ∉ (rowsOf .batch rows).map (rowId .batch)) :=
    fun b => mem_overlay_last hnodup
  refine ⟨nodup_overlay (keepsKey_last (rowId .batch)) (hd₂.nodup .batch) hnodup,
    fun b hb => ?_, fun b' hb' => ?_⟩
  · by_cases hid : rowId .batch b ∈ (rowsOf .batch rows).map (rowId .batch)
    · obtain ⟨s, hs, hsid⟩ := List.mem_map.mp hid
      have hthere : b.id ∈ d₁.ids .batch := List.mem_map.mpr ⟨s, hrows s hs, hsid⟩
      have hold := hunique _ hthere (List.mem_map_of_mem hb)
      exact ⟨s, (hmem s).mpr (.inl hs), sameBatch_of_id ha h₂ h₁ hb (hrows s hs) hsid.symm hold⟩
    · exact ⟨b, (hmem b).mpr (.inr ⟨hb, hid⟩), .refl b⟩
  · rcases (hmem b').mp hb' with hs | ⟨hb, -⟩
    · exact .inr ⟨b', hrows b' hs, .refl b'⟩
    · exact .inl ⟨b', hb, .refl b'⟩

/-- A page is refused by the stock check only if its rows do not balance. -/
theorem applyPullPage_errors {rows : List AnyRow} (hd : d.Ok) (hrows : Distinct rows)
    (hparents : ParentsAmong d referenceInsertOrder rows)
    (hstock : StockBalanced ((d.lay rows).recompute now)) :
    ErrorsOnly Exn.NotStock (applyPullPage driver now d (rows.map AnyRow.record)) := by
  cases hkinds : upsertKinds driver now (rows.map AnyRow.record) referenceInsertOrder d with
  | error e =>
    have herror : applyPullPage driver now d (rows.map AnyRow.record) = .error e := by
      rw [applyPullPage, hkinds, error_bind]
    rw [herror, errorsOnly_error]
    exact upsertKinds_errors e hkinds
  | ok out =>
    have horder : ParentsFirst referenceInsertOrder := by
      refine ⟨?_, ?_, ?_, ?_, ?_, ?_, ?_, ?_, ?_, ?_, ?_, ?_, trivial⟩ <;> decide
    obtain ⟨hfits, -⟩ := (upsertKinds_ok_iff (fun _ hk => hk) horder hd hrows hparents).mp
      ⟨out.2, hkinds⟩
    obtain ⟨n, hok⟩ := (applyPullPage_ok_iff hd hrows hparents).mpr ⟨hfits, hstock, rfl⟩
    rw [hok]
    exact errorsOnly_ok _

/-- **Page after page**: no page is refused by the stock check when every state on the way
balances. -/
theorem pullAll_errors {client : Db} {pre : List AnyRow} {chunks : List (List AnyRow)}
    (hclient : client.Ok) (hrows : Handed (pre ++ chunks.flatten)) (hpre : Pulled client pre d)
    (hstock : ∀ m, m <+: pre ++ chunks.flatten → StockBalanced ((client.overlaid m).recompute now)) :
    ErrorsOnly Exn.NotStock (pullAll driver now (chunks.map pageOf) d).1 := by
  induction chunks generalizing pre d with
  | nil => exact errorsOnly_ok _
  | cons rows chunks ih =>
    rw [List.flatten_cons, ← List.append_assoc] at hrows hstock
    by_cases hne : rows = []
    · subst hne
      rw [List.append_nil] at hrows hstock
      exact ih hrows hpre hstock
    · have hpage := hrows.append_left
      have hbalanced := hstock (pre ++ rows) (List.prefix_append ..)
      have herrors : ErrorsOnly Exn.NotStock (applyPullPage driver now d (rows.map AnyRow.record)) :=
        applyPullPage_errors hpre.ok hpage.page (hpre.parents hpage.parents)
          ((stock_lay hpre hpage).mpr hbalanced)
      rw [pullAll_page driver now hne]
      cases happlied : applyPullPage driver now d (rows.map AnyRow.record) with
      | error e => exact errorsOnly_error.mpr (herrors e happlied)
      | ok out =>
        obtain ⟨d₁, n₁⟩ := out
        obtain ⟨-, hd₁⟩ := (pulled_page_iff hpre hpage hclient).mp ⟨n₁, happlied⟩
        exact errorsOnly_map (ih hrows (pulled_page hpre hpage happlied hd₁) hstock)

/-! ## Both ways -/

/-- The union of two devices is accepted: the first with the pushed rows of the second, and the
second under the reference rows of the first. -/
structure UnionPasses (d₁ d₂ : Db) : Prop where
  /-- The push recomputes. -/
  pushed : ∀ now, ∃ d', recomputeDerived now (d₂.pushedTo d₁) = .ok d'
  /-- The pull recomputes. -/
  pulled : ∀ now, ∃ d', recomputeDerived now (d₂.overlaid (referenceStream d₁)) = .ok d'
  /-- The push is not refused by the check. -/
  accepted : ∀ driver now,
    ErrorsOnly Exn.NotStock (applyMerge driver now d₁ (collectPushRecords d₂).1)
  /-- Nor is a page of the pull. -/
  followed : ∀ driver now limit pages,
    pullPages d₁ limit ((referenceStream d₁).length + 1) none none = some pages →
      ErrorsOnly Exn.NotStock (pullAll driver now pages d₂).1

/-- **The union passes** exactly where the legacy batches were seeded once. -/
theorem union_passes_iff (a : Database) (run₁ run₂ : List Request)
    (hpasses : ∀ run ∈ [run₁, run₂], ∃ now d', recomputeDerived now (runAll a.db run) = .ok d')
    (hbatches : ∀ i ∈ (runAll a.db run₁).ids .batch, i ∈ (runAll a.db run₂).ids .batch →
      i ∈ a.db.ids .batch)
    (hunique : (pullKinds.flatMap (runAll a.db run₁).ids).Nodup) :
    UnionPasses (runAll a.db run₁) (runAll a.db run₂) ↔
      SeededOnce a.db (runAll a.db run₁) (runAll a.db run₂) := by
  have hdevice : ∀ run ∈ [run₁, run₂], Device a.db (runAll a.db run) := by
    intro run hrun
    obtain ⟨now, d', hd'⟩ := hpasses run hrun
    obtain ⟨hdescends, hproducts⟩ := descends_runAll a.ok run
    exact ⟨hdescends, hproducts, now, (recomputeDerived_ok_iff.mp hd').1⟩
  have h₁ := hdevice run₁ List.mem_cons_self
  have h₂ := hdevice run₂ (List.mem_cons_of_mem _ (List.mem_singleton_self _))
  have hd₁ : (runAll a.db run₁).Ok := runAll_ok a.ok
  have hd₂ : (runAll a.db run₂).Ok := runAll_ok a.ok
  generalize runAll a.db run₁ = d₁ at *
  generalize runAll a.db run₂ = d₂ at *
  have hhanded := handed_stream hd₁ hunique
  have hunites : ∀ m, m <+: referenceStream d₁ →
      Unites d₂.batches d₁.batches (d₂.overlaid m).batches := by
    rintro m ⟨post, hm⟩
    refine unites_overlaid a.ok hd₂ h₁.descends h₂.descends hbatches (fun b hb => ?_) ?_
    · have hstream : b ∈ rowsOf .batch (referenceStream d₁) := by
        rw [← hm, rowsOf_append]
        exact List.mem_append_left _ hb
      exact (rowsOf_stream (by decide) d₁).mem_iff.mp hstream
    · have hpre : Handed (m ++ post) := hm.symm ▸ hhanded
      exact nodup_rowsOf hpre.append_left.distinct.keys .batch
  have hloose : ∀ m, m <+: referenceStream d₁ → ∀ now,
      (StockBalanced ((d₂.overlaid m).recompute now) ↔ ∀ i ∈ (d₂.overlaid m).ids .product,
        looseStock a.db.operations a.db.batches i =
          (max 1 (legacyIds (d₂.overlaid m).batches i).length : Nat) *
            nullBucket a.db.operations i) := by
    intro m hm now
    have hdescends : Descends a.db (d₂.operations ++ []) (d₂.overlaid m).batches :=
      (hunites m hm).descends h₂.descends h₁.descends fun _ ho => absurd ho List.not_mem_nil
    rw [List.append_nil] at hdescends
    rw [stockBalanced_iff_loose]
    refine forall₂_congr fun i _ => ?_
    rw [← hdescends.looseStock_eq a.ok, ← hdescends.nullBucket_eq]
    exact Iff.rfl
  constructor
  · intro h i
    obtain ⟨d', hd'⟩ := h.pulled ""
    have hbalanced := (hloose _ List.prefix_rfl "").mp (recomputeDerived_ok_iff.mp hd').1
    by_cases hi : i ∈ a.db.ids .product
    · have hthere : i ∈ (d₂.overlaid (referenceStream d₁)).ids .product :=
        (mem_keys_overlay (keepsKey_last (rowId .product))).mpr (.inl (h₂.products hi))
      refine seeded_of_loose a.ok h₁ hbatches (List.append_subset.mpr ⟨?_, ?_⟩) (hbalanced i hthere)
      · intro x hx
        obtain ⟨b, hb, rfl, hproduct, hlegacy⟩ := mem_legacyIds.mp hx
        refine legacyIds_of_same (.refl b) ?_ hproduct hlegacy
        refine (mem_overlay_last (nodup_rowsOf hhanded.distinct.keys .batch)).mpr (.inl ?_)
        exact (rowsOf_stream (by decide) d₁).mem_iff.mpr hb
      · exact (hunites _ List.prefix_rfl).legacy_kept i
    · exact .inl (nullBucket_unknown a.ok hi)
  · intro hseeded
    have hpush : ∀ now, StockBalanced ((d₂.pushedTo d₁).recompute now) := fun now =>
      pushedTo_balanced a.ok hd₁ hd₂ h₁ h₂ hbatches hseeded
    have hpull : ∀ m, m <+: referenceStream d₁ → ∀ now,
        StockBalanced ((d₂.overlaid m).recompute now) := fun m hm now =>
      (hloose m hm now).mpr fun i _ =>
        (hunites m hm).loose a.ok h₂ h₁ ((hseeded i).imp_right Or.symm)
    refine ⟨fun now => ⟨_, recomputeDerived_ok_iff.mpr ⟨hpush now, rfl⟩⟩,
      fun now => ⟨_, recomputeDerived_ok_iff.mpr ⟨hpull _ List.prefix_rfl now, rfl⟩⟩,
      fun driver now => applyMerge_errors hd₁ (hpush now), fun driver now limit pages hpages => ?_⟩
    obtain ⟨chunks, hchunks, hall⟩ := pullPages_chunks ⟨d₁, hd₁⟩ hunique limit
    obtain rfl := Option.some.inj (hchunks.symm.trans hpages)
    rw [← List.nil_append chunks.flatten] at hall
    refine pullAll_errors hd₂ (hall.symm ▸ hhanded) (pulled_start hd₂) fun m hm => ?_
    exact hpull m (hall ▸ hm) now

instance (d : Db) : Decidable (StockBalanced d) :=
  inferInstanceAs (Decidable (∀ p ∈ d.products, p.quantity = expectedQuantity d p.id))

/-- The return of one unit of the sale from before the batches, on a device. -/
def backOn (deviceId : String) (newId : IdSource) : Request where
  env := { Env.sample with deviceId := deviceId, newId := newId }
  call := .saleReturn oneBack

/-- One device makes the return, the other nothing. -/
theorem union_passes_oneBack :
    UnionPasses (runAll (beforeBatches 1) [backOn "device" freshId]) (runAll (beforeBatches 1) []) := by
  have hok : (beforeBatches 1).Ok := by decide
  have hbalanced : ∀ run ∈ [[backOn "device" freshId], []],
      StockBalanced ((runAll (beforeBatches 1) run).recompute "") := by decide
  have hunique : (pullKinds.flatMap
      (runAll (beforeBatches 1) [backOn "device" freshId]).ids).Nodup := by decide
  refine (union_passes_iff ⟨beforeBatches 1, hok⟩ [backOn "device" freshId] []
    (fun run hrun => ⟨"", _, recomputeDerived_ok_iff.mpr ⟨hbalanced run hrun, rfl⟩⟩)
    (fun _ _ h => h) hunique).mpr fun i => ?_
  exact .inr (.inr (List.nil_subset _))

/-- The stock check has refused. -/
def refusedByStock {α : Type} : Except Exn α → Bool
  | .error (.stockInvariant _) => true
  | _ => false

theorem not_refusedByStock {α : Type} {x : Except Exn α} (h : ErrorsOnly Exn.NotStock x) :
    ¬refusedByStock x = true := by
  intro hrefused
  cases x with
  | ok v => cases hrefused
  | error e =>
    cases e with
    | stockInvariant i => exact errorsOnly_error.mp h i rfl
    | value | warehouseAccess | integrity | data => cases hrefused

/-- **Both devices make it**: two legacy batches absorb the one bucket, and the push and the pull are
both refused, again and again. -/
theorem not_union_passes : ¬∀ (a : Database) (run₁ run₂ : List Request),
    (∀ run ∈ [run₁, run₂], ∃ now d', recomputeDerived now (runAll a.db run) = .ok d') →
    (∀ i ∈ (runAll a.db run₁).ids .batch, i ∈ (runAll a.db run₂).ids .batch → i ∈ a.db.ids .batch) →
    (pullKinds.flatMap (runAll a.db run₁).ids).Nodup →
    (∀ driver now, ErrorsOnly Exn.NotStock
      (applyMerge driver now (runAll a.db run₁) (collectPushRecords (runAll a.db run₂)).1)) ∨
    ∀ driver now limit pages, pullPages (runAll a.db run₁) limit
        ((referenceStream (runAll a.db run₁)).length + 1) none none = some pages →
      ErrorsOnly Exn.NotStock (pullAll driver now pages (runAll a.db run₂)).1 := by
  intro h
  have hok : (beforeBatches 1).Ok := by decide
  have hbalanced : ∀ run ∈ [[backOn "device" freshId], [backOn "other" shortId]],
      StockBalanced ((runAll (beforeBatches 1) run).recompute "") := by decide
  have hbatches : ∀ i ∈ (runAll (beforeBatches 1) [backOn "device" freshId]).ids .batch,
      i ∈ (runAll (beforeBatches 1) [backOn "other" shortId]).ids .batch →
        i ∈ (beforeBatches 1).ids .batch := by decide
  have hunique : (pullKinds.flatMap
      (runAll (beforeBatches 1) [backOn "device" freshId]).ids).Nodup := by decide
  have hpush : refusedByStock (applyMerge Driver.strict ""
      (runAll (beforeBatches 1) [backOn "device" freshId])
      (collectPushRecords (runAll (beforeBatches 1) [backOn "other" shortId])).1) = true := by
    decide
  have hpull : (pullPages (runAll (beforeBatches 1) [backOn "device" freshId]) none
      ((referenceStream (runAll (beforeBatches 1) [backOn "device" freshId])).length + 1)
      none none).any (fun pages => refusedByStock (pullAll Driver.strict "" pages
        (runAll (beforeBatches 1) [backOn "other" shortId])).1) = true := by decide
  have heither := h ⟨beforeBatches 1, hok⟩ [backOn "device" freshId] [backOn "other" shortId]
    (fun run hrun => ⟨"", _, recomputeDerived_ok_iff.mpr ⟨hbalanced run hrun, rfl⟩⟩) hbatches hunique
  have hd₁ : (runAll (beforeBatches 1) [backOn "device" freshId]).Ok := runAll_ok hok
  dsimp only at heither
  generalize runAll (beforeBatches 1) [backOn "device" freshId] = d₁ at *
  generalize runAll (beforeBatches 1) [backOn "other" shortId] = d₂ at *
  rcases heither with haccepts | hfollows
  · exact not_refusedByStock (haccepts Driver.strict "") hpush
  · obtain ⟨chunks, hpages, -⟩ := pullPages_chunks ⟨d₁, hd₁⟩ hunique none
    rw [hpages, Option.any_some] at hpull
    exact not_refusedByStock (hfollows Driver.strict "" none _ hpages) hpull

end MyOriShop
