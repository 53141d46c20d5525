import MyOriShop.Runs

/-!
# Projection: the cached quantities follow the ledger (`app/services/ledger.py`)

`products.quantity` and `batches.quantity` are caches. `record_operation` appends a row and adds its
delta to both by two separate statements; nothing else writes a quantity except a recomputation.

* `Projected` lists the three equations: every stock row names a batch, a batch's quantity is the
  sum of its rows, a product's quantity is the sum of its rows.
* `Owned` says that a stock row which names a batch names one of its own product. The guards of
  `record_operation` demand it of every row they append, and no constraint of the database does.

Results:
* `Write.quantities`: what a single write does to the ledger and to the two caches.
* `projected_write`, `owned_write`: the step lemmas.
* `product_eq_batchTotal`: under `Projected` and `Owned` a product's quantity is the sum of its
  batches' quantities.
* `runAll_projected`: every run of local services keeps the three equations, and the fourth one
  when the database was `Owned` at the start.
-/

namespace MyOriShop

open Lib.Sums

/-- The three equations between the ledger and its two caches. -/
structure Projected (d : Db) : Prop where
  stockBatch : ∀ o ∈ d.operations, o.qtyDelta ≠ 0 → o.batchId.isSome
  batch : ∀ b ∈ d.batches, b.quantity = batchSum d.operations b.id
  product : ∀ p ∈ d.products, p.quantity = computeStock d.operations p.id

/-- A stock row that names a batch names one of its own product. -/
def Owned (d : Db) : Prop :=
  ∀ o ∈ d.operations, o.qtyDelta ≠ 0 → ∀ i ∈ o.batchId,
    ∃ b ∈ d.batches, b.id = i ∧ b.productId = o.productId

/-! ## What a write does to the quantities -/

variable {free : String → Prop} {d d' : Db}

/-- The quantities after a write that appends no ledger row. -/
structure QuantitiesKept (d d' : Db) : Prop where
  operations : d'.operations = d.operations
  product : ∀ p' ∈ d'.products, (Fresh d p'.id ∧ p'.quantity = 0) ∨
    ∃ p ∈ d.products, p.id = p'.id ∧ p.quantity = p'.quantity
  batch : ∀ b' ∈ d'.batches, (Fresh d b'.id ∧ b'.quantity = 0) ∨
    ∃ b ∈ d.batches, b.id = b'.id ∧ b.quantity = b'.quantity

theorem QuantitiesKept.insert {k : Kind} {row : Row k} (fresh : Fresh d (rowId k row))
    (h : Appears free d k row) (hk : k ≠ .operation) : QuantitiesKept d (d.insert k [row]) := by
  have hops : (d.insert k [row]).get .operation = d.get .operation :=
    Db.get_set_ne d (Ne.symm hk) _
  refine ⟨hops, fun p' hp => ?_, fun b' hb => ?_⟩
  · have hp : p' ∈ (d.insert k [row]).get .product := hp
    rcases mem_get_insert hp with hold | ⟨rfl, rfl⟩
    · exact .inr ⟨p', hold, rfl, rfl⟩
    · exact .inl ⟨fresh, h⟩
  · have hb : b' ∈ (d.insert k [row]).get .batch := hb
    rcases mem_get_insert hb with hold | ⟨rfl, rfl⟩
    · exact .inr ⟨b', hold, rfl, rfl⟩
    · exact .inl ⟨fresh, h.1⟩

theorem QuantitiesKept.edit {k : Kind} {id : String} {f : Row k → Row k}
    (h : ∀ r ∈ d.get k, Edited k r (f r)) : QuantitiesKept d (d.edit k id f) := by
  cases k with
  | product =>
    refine ⟨rfl, fun p' hp => .inr ?_, fun b' hb => .inr ⟨b', hb, rfl, rfl⟩⟩
    obtain ⟨p, hmem, rfl⟩ := List.mem_map.mp hp
    refine ⟨p, hmem, ?_⟩
    split_ifs
    · exact ⟨(h p hmem).1.symm, (h p hmem).2.symm⟩
    · exact ⟨rfl, rfl⟩
  | batch =>
    refine ⟨rfl, fun p' hp => .inr ⟨p', hp, rfl, rfl⟩, fun b' hb => .inr ?_⟩
    obtain ⟨b, hmem, rfl⟩ := List.mem_map.mp hb
    refine ⟨b, hmem, ?_⟩
    split_ifs
    · exact ⟨(h b hmem).1.symm, (h b hmem).2.1.symm⟩
    · exact ⟨rfl, rfl⟩
  | operation =>
    refine ⟨?_, fun p' hp => .inr ⟨p', hp, rfl, rfl⟩, fun b' hb => .inr ⟨b', hb, rfl, rfl⟩⟩
    refine (List.map_congr_left fun o ho => ?_).trans (List.map_id d.operations)
    split_ifs
    · exact h o ho
    · rfl
  | warehouse | customer | dictionary | sale | cashMovement =>
    exact ⟨rfl, fun p' hp => .inr ⟨p', hp, rfl, rfl⟩, fun b' hb => .inr ⟨b', hb, rfl, rfl⟩⟩

/-- **The quantities after a write**: kept, or those after one appended ledger row. -/
theorem Write.quantities (h : Write free d d') : QuantitiesKept d d' ∨
    ∃ op stamp, OperationBorn d op ∧ d' = d.applyOperation op stamp := by
  cases h with
  | born k row fresh h =>
    refine .inl (QuantitiesKept.insert fresh h.appears ?_)
    rintro rfl
    exact h
  | edited k id f h => exact .inl (QuantitiesKept.edit h)
  | operation op stamp fresh h => exact .inr ⟨op, stamp, h, rfl⟩
  | cash m fresh h =>
    have happears : Appears free d .cashMovement m := h
    exact .inl (QuantitiesKept.insert (k := .cashMovement) fresh happears (by decide))

/-! ## The three equations -/

/-- No row moves an id that nothing has or refers to. -/
theorem computeStock_fresh {i : String} (h : Fresh d i) : computeStock d.operations i = 0 := by
  refine sumOver_eq_zero fun o ho hi => absurd ?_ h.2
  rw [← of_decide_eq_true hi]
  simp only [Db.usedIds, List.mem_append]
  exact .inl (.inl (.inl (.inr (List.mem_map_of_mem ho))))

theorem batchSum_fresh {i : String} (h : Fresh d i) : batchSum d.operations i = 0 := by
  refine sumOver_eq_zero fun o ho hi => absurd ?_ h.2
  simp only [Db.usedIds, List.mem_append, List.mem_filterMap]
  exact .inl (.inl (.inr ⟨o, ho, of_decide_eq_true hi⟩))

theorem Projected.quantitiesKept (h : Projected d) (hq : QuantitiesKept d d') : Projected d' where
  stockBatch := by
    rw [hq.operations]
    exact h.stockBatch
  batch := by
    intro b' hb'
    rw [hq.operations]
    rcases hq.batch b' hb' with ⟨fresh, hzero⟩ | ⟨b, hb, hid, hquantity⟩
    · rw [hzero, batchSum_fresh fresh]
    · rw [← hid, ← hquantity, h.batch b hb]
  product := by
    intro p' hp'
    rw [hq.operations]
    rcases hq.product p' hp' with ⟨fresh, hzero⟩ | ⟨p, hp, hid, hquantity⟩
    · rw [hzero, computeStock_fresh fresh]
    · rw [← hid, ← hquantity, h.product p hp]

/-- One appended row moves each of the two caches by its delta. -/
theorem Projected.applyOperation (h : Projected d) {op : Operation} (hop : OperationBorn d op)
    (stamp : String) : Projected (d.applyOperation op stamp) := by
  obtain ⟨hops, hproducts, hbatches⟩ := applyOperation_get d op stamp
  refine ⟨?_, ?_, ?_⟩
  · rw [hops]
    intro o ho hne
    rcases List.mem_append.mp ho with hold | hnew
    · exact h.stockBatch o hold hne
    · rw [List.mem_singleton.mp hnew] at hne ⊢
      rcases hop.batch with ⟨-, hzero⟩ | ⟨b, -, hb, -⟩
      · exact absurd hzero hne
      · rw [hb]
        rfl
  · rw [hops, hbatches]
    intro b' hb'
    obtain ⟨b, hb, rfl⟩ := List.mem_map.mp hb'
    have hrest := h.batch b hb
    unfold batchSum sumDelta at hrest ⊢
    by_cases hi : op.batchId = some b.id
    · simp [hi, Batch.bump, sumOver_cons, hrest]
    · simp [hi, sumOver_cons, hrest]
  · rw [hops, hproducts]
    intro p' hp'
    obtain ⟨p, hp, rfl⟩ := List.mem_map.mp hp'
    have hrest := h.product p hp
    unfold computeStock sumDelta at hrest ⊢
    by_cases hi : p.id = op.productId
    · simp [hi, Product.bump, sumOver_cons, hrest]
    · simp [hi, Ne.symm hi, sumOver_cons, hrest]

/-- **The step lemma**: every single write keeps the three equations. -/
theorem projected_write (hw : Write free d d') (h : Projected d) : Projected d' := by
  rcases hw.quantities with hq | ⟨op, stamp, hop, rfl⟩
  · exact h.quantitiesKept hq
  · exact h.applyOperation hop stamp

/-! ## The fourth equation -/

/-- A row that names a batch of its own product still does when the batch table has grown. -/
theorem owned_write (hw : Write free d d') (h : Owned d) : Owned d' := by
  intro o ho hne i hi
  have hbatch : ∃ b ∈ d.batches, b.id = i ∧ b.productId = o.productId := by
    rcases hw.mem (k := .operation) ho with ⟨o', ho', rfl⟩ | ⟨-, hborn⟩
    · exact h _ ho' hne i hi
    · rcases hborn.batch with ⟨hnone, -⟩ | ⟨b, hb, hsome, hproduct⟩
      · rw [hnone] at hi
        cases hi
      · rw [hsome] at hi
        cases hi
        exact ⟨b, hb, rfl, hproduct⟩
  obtain ⟨b, hb, rfl, hproduct⟩ := hbatch
  obtain ⟨b', hb', hid, hproduct', -⟩ := hw.kept (k := .batch) hb
  exact ⟨b', hb', hid, hproduct'.trans hproduct⟩

/-- The batches of a product hold the rows of the product that name a batch. -/
theorem sum_batchSum (hids : (d.ids .batch).Nodup) (howned : Owned d) (productId : String) :
    sumOver (fun b => batchSum d.operations b.id) (fun b => b.productId = productId) d.batches =
      sumDelta d.operations fun o => o.productId = productId && o.batchId.isSome := by
  have hids' : (d.batches.map Batch.id).Nodup := hids
  refine (sumOver_byOwner hids' Operation.batchId Operation.qtyDelta d.operations).trans (sumOver_congr fun o ho hne => ?_)
  cases hi : o.batchId with
  | none => simp
  | some i =>
    obtain ⟨b, hb, rfl, hproduct⟩ := howned o ho hne i hi
    rw [Bool.eq_iff_iff]
    simp only [List.any_eq_true, Bool.and_eq_true, decide_eq_true_eq, Option.some.injEq,
      Option.isSome_some, and_true]
    constructor
    · rintro ⟨b', hb', hproduct', hid⟩
      rw [← hproduct, List.inj_on_of_nodup_map hids hb hb' hid, hproduct']
    · exact fun hp => ⟨b, hb, hproduct.trans hp, rfl⟩

/-- **The fourth equation**: a product's quantity is the sum of its batches' quantities. -/
theorem product_eq_batchTotal (hids : (d.ids .batch).Nodup) (h : Projected d) (howned : Owned d)
    {p : Product} (hp : p ∈ d.products) : p.quantity = batchTotal d.batches p.id := by
  have hquantities : batchTotal d.batches p.id = sumOver (fun b => batchSum d.operations b.id)
      (fun b => b.productId = p.id) d.batches :=
    sumOver_weights fun b hb _ => h.batch b hb
  rw [h.product p hp, hquantities, sum_batchSum hids howned]
  refine sumOver_congr fun o ho hne => ?_
  rw [h.stockBatch o ho hne, Bool.and_true]

/-! ## Runs -/

/-- **Every run of local services keeps the projection**: the three equations always, and the
fourth one when every stock row of the start lies in a batch of its product. -/
theorem runAll_projected (start : Database) (h : Projected start.db) (run : List Request) :
    Projected (runAll start.db run) ∧
      (Owned start.db → ∀ p ∈ (runAll start.db run).products,
        p.quantity = batchTotal (runAll start.db run).batches p.id) := by
  have hall : ∀ r ∈ run, ∀ e ∈ r.call.typedExpiry, CanonicalDate e ∨ (fun _ => True) e :=
    fun _ _ _ _ => .inr trivial
  have hprojected : Projected (runAll start.db run) :=
    runAll_induct (fun _ _ => projected_write) h hall
  refine ⟨hprojected, fun howned p hp => ?_⟩
  have hids : ((runAll start.db run).ids .batch).Nodup :=
    Writes.induct (fun _ _ hw h => hw.nodup h) (runAll_reaches hall) (start.ok.nodup .batch)
  have hown : Owned (runAll start.db run) := runAll_induct (fun _ _ => owned_write) howned hall
  exact product_eq_batchTotal hids hprojected hown hp

/-- A card with one batch of five units, received by one row. -/
def oneBatch (productId : String) : Db where
  warehouses := [⟨"w", "main", none, "RUB", "", "", none⟩]
  products := [{ blankProduct "p" "" with code := some "c", quantity := 5 }, blankProduct "q" ""]
  batches := [⟨"b", productId, "w", none, none, none, none, none, none, 5, 0, "", ""⟩]
  operations := [⟨"o", "receipt", "p", 5, none, none, .null, none, some "b", none, none, "device", 1,
    "", none, "operator", none⟩]

theorem oneBatch_ok (productId : String) (h : productId = "p" ∨ productId = "q") :
    (oneBatch productId).Ok := by
  rcases h with rfl | rfl <;> decide

theorem oneBatch_projected (productId : String) : Projected (oneBatch productId) where
  stockBatch := by simp [oneBatch]
  batch := by simp [oneBatch, batchSum, sumDelta, sumOver_cons]
  product := by simp [oneBatch, blankProduct, computeStock, sumDelta, sumOver_cons]

/-- Two units of the batch are written off. -/
def writeoffTwo : Request where
  env := Env.sample
  call := .writeoff { code := "c", qtyRaw := "2", reasonCode := "lost", note := "", batchId := "b" }

example : (runAll (oneBatch "p") [writeoffTwo]).products.map Product.quantity = [3, 0] := by
  decide

theorem runAll_projected_oneBatch :
    Projected (runAll (oneBatch "p") [writeoffTwo]) ∧
      ∀ p ∈ (runAll (oneBatch "p") [writeoffTwo]).products,
        p.quantity = batchTotal (runAll (oneBatch "p") [writeoffTwo]).batches p.id := by
  have h := runAll_projected ⟨oneBatch "p", oneBatch_ok "p" (.inl rfl)⟩ (oneBatch_projected "p")
    [writeoffTwo]
  refine ⟨h.1, h.2 ?_⟩
  intro o ho _ i hi
  simp only [oneBatch, List.mem_singleton] at ho
  subst ho
  cases hi
  exact ⟨_, List.mem_singleton_self _, rfl, rfl⟩

/-- The database has no constraint between a row's batch and its product: the three equations
alone do not give the fourth one. -/
theorem not_projected_total : ¬ ∀ (start : Database) (run : List Request), Projected start.db →
    ∀ p ∈ (runAll start.db run).products,
      p.quantity = batchTotal (runAll start.db run).batches p.id := by
  intro h
  have hp := h ⟨oneBatch "q", oneBatch_ok "q" (.inr rfl)⟩ [] (oneBatch_projected "q")
    { blankProduct "p" "" with code := some "c", quantity := 5 } (by simp [runAll, oneBatch])
  simp [runAll, oneBatch, batchTotal, sumOver_cons, blankProduct] at hp

end MyOriShop
