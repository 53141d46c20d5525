import MyOriShop.Upkeep

/-!
# Amounts: stored prices and costs are not negative (`app/services/*.py`)

Each service parses money on its own: the cards, receipts, batches and the sale price of a transfer
through `parse_optional_cents`, the lines of a sale with a check of their own, both of which refuse
a negative sum. The cost of a transfer goes through `to_cents` alone.

* `AllAmounts NotNegative d`: every price and cost of every card, batch and ledger row is null or
  not negative.
* `CostNotNegative d r`: the request is no transfer that passes its checks with a negative cost.

Results:
* `upkept_notNegative`: the single writes of the services keep the amounts.
* `Call.notNegative`: so does a call of a service that meets the condition.
* `runAll_notNegative`: so does every run of such calls.
* `not_runAll_notNegative`: a transfer with the cost `-5` stores a negative cost.
-/

namespace MyOriShop

open Lib.Text Lib.IsoDate Lib.Transaction

variable {env : Env} {d w : Db}

/-- No transfer that passes its checks has a typed cost below zero. -/
def CostNotNegative (d : Db) (r : Request) : Prop :=
  match r.call with
  | .transfer form => (∃ parsed plan, transferCheck r.env d form parsed = .ok plan) →
      NotNegative (toCents (strip form.costRaw))
  | _ => True

/-! ## The single writes -/

variable {N : Option Int → Prop}

/-- Tables that are the same rows, and cards of the same prices. -/
theorem AllAmounts.of_eq {d' : Db} (h : AllAmounts N d)
    (hp : d'.products.map Product.price = d.products.map Product.price)
    (hb : d'.batches = d.batches) (ho : d'.operations = d.operations) : AllAmounts N d' where
  products p hp' := by
    obtain ⟨q, hq, hprice⟩ := List.mem_map.mp (hp ▸ List.mem_map_of_mem (f := Product.price) hp')
    rw [Product.Amounts, ← hprice]
    exact h.products q hq
  batches b hb' := h.batches b (hb ▸ hb')
  operations o ho' := h.operations o (ho ▸ ho')

theorem AllAmounts.insert_product {p : Product} (h : AllAmounts N w) (hp : p.Amounts N) :
    AllAmounts N (w.insert .product [p]) where
  products q hq := (List.mem_append.mp hq).elim (h.products q) fun hq => by
    rw [List.mem_singleton.mp hq]
    exact hp
  batches := h.batches
  operations := h.operations

theorem AllAmounts.insert_batch {b : Batch} (h : AllAmounts N w) (hb : b.Amounts N) :
    AllAmounts N (w.insert .batch [b]) where
  products := h.products
  batches b' hb' := (List.mem_append.mp hb').elim (h.batches b') fun hb' => by
    rw [List.mem_singleton.mp hb']
    exact hb
  operations := h.operations

theorem AllAmounts.edit_product {id : String} {g : Product → Product} (h : AllAmounts N w)
    (hg : ∀ p, p.Amounts N → (g p).Amounts N) : AllAmounts N (w.edit .product id g) where
  products q hq := by
    obtain ⟨p, hp, rfl⟩ := List.mem_map.mp hq
    split_ifs
    · exact hg p (h.products p hp)
    · exact h.products p hp
  batches := h.batches
  operations := h.operations

theorem AllAmounts.edit_batch {id : String} {g : Batch → Batch} (h : AllAmounts N w)
    (hg : ∀ b, b.Amounts N → (g b).Amounts N) : AllAmounts N (w.edit .batch id g) where
  products := h.products
  batches b' hb := by
    obtain ⟨b, hmem, rfl⟩ := List.mem_map.mp hb
    split_ifs
    · exact hg b (h.batches b hmem)
    · exact h.batches b hmem
  operations := h.operations

theorem AllAmounts.applyOperation {op : Operation} {stamp : String} (h : AllAmounts N w)
    (hcost : N op.unitCostCents) (hprice : N op.unitPriceCents) :
    AllAmounts N (w.applyOperation op stamp) := by
  obtain ⟨hops, hproducts, hbatches⟩ := applyOperation_get w op stamp
  constructor
  · rw [hproducts]
    intro q hq
    obtain ⟨p, hp, rfl⟩ := List.mem_map.mp hq
    have hsame : (p.bump op.qtyDelta stamp).price = p.price := by
      funext f
      cases f <;> rfl
    split_ifs
    · rw [Product.Amounts, hsame]
      exact h.products p hp
    · exact h.products p hp
  · rw [hbatches]
    intro b' hb'
    obtain ⟨b, hb, rfl⟩ := List.mem_map.mp hb'
    split_ifs
    · exact h.batches b hb
    · exact h.batches b hb
  · rw [hops]
    intro o ho
    refine (List.mem_append.mp ho).elim (h.operations o) fun ho => ?_
    rw [List.mem_singleton.mp ho]
    exact ⟨hcost, hprice⟩

/-- **The single writes** keep the amounts. -/
theorem upkept_notNegative (env : Env) : Upkept env NotNegative (AllAmounts NotNegative) where
  amount _ h := h
  sees _ h := h
  card _ _ h hp := h.insert_product hp
  reprice _ _ _ h hg := h.edit_product hg
  batch _ _ h hb := h.insert_batch hb
  rebatch _ _ _ h hg := h.edit_batch hg
  header _ _ h := h.of_eq rfl rfl rfl
  operation _ _ _ _ _ h hargs hop :=
    h.applyOperation (hop.unitCostCents ▸ hargs.cost) (hop.unitPriceCents ▸ hargs.price)
  cash _ _ _ _ h _ _ := h.of_eq rfl rfl rfl
  clerical _ _ h hsame := h.of_eq hsame.prices hsame.batches hsame.operations

/-! ## Transfers -/

/-- The amounts of a transfer's new batch: the source's, or typed ones. -/
theorem TransferPriced.notNegative {form : TransferForm} {source : Batch}
    {home target : Warehouse} {cost price : Option Int}
    (h : TransferPriced form source home target cost price)
    (hsource : source.Amounts NotNegative)
    (htyped : NotNegative (toCents (strip form.costRaw))) :
    NotNegative price ∧ NotNegative cost := by
  have hcents : ∀ {cents : Option Int}, strip form.costRaw ≠ "" → TypedCents form.costRaw cents →
      NotNegative cents := by
    intro cents hne hcents
    rw [TypedCents, if_neg hne] at hcents
    rw [← hcents.2]
    exact htyped
  by_cases hcurrency : target.currency = home.currency
  · refine ⟨h.samePrice hcurrency ▸ hsource.1, ?_⟩
    have hcost := h.sameCost hcurrency
    split_ifs at hcost with hempty
    · exact hcost ▸ hsource.2
    · exact hcents hempty hcost
  · obtain ⟨hne, hcost⟩ := h.crossCost hcurrency
    exact ⟨(h.crossPrice hcurrency).2, hcents hne hcost⟩

/-- **A transfer** whose typed cost is not negative. -/
theorem Transferred.notNegative {form : TransferForm} {plan : TransferPlan} {dest : Batch}
    {out into : Operation} {d' : Db} (h : Transferred env form d plan dest out into d')
    (hd : AllAmounts NotNegative d) (htyped : NotNegative (toCents (strip form.costRaw))) :
    AllAmounts NotNegative d' := by
  obtain ⟨parsed, hcheck⟩ := h.check
  obtain ⟨-, -, home, target, -, -, hpriced⟩ := transferCheck_ok hcheck
  have hamounts := hpriced.notNegative (hd.batches _ (transferCheck_source hcheck)) htyped
  obtain ⟨now, hdest⟩ := h.batch
  obtain ⟨w, day, hout, hinto⟩ := h.rows
  obtain ⟨stamp, hw⟩ := hout.next
  obtain ⟨stamp', rfl⟩ := hinto.next
  have hbatch : AllAmounts NotNegative (d.insert .batch [dest]) := by
    rw [hdest]
    exact hd.insert_batch hamounts
  have hnone : ∀ {args op}, Carries args op → args.unitCostCents = none →
      args.unitPriceCents = none → NotNegative op.unitCostCents ∧ NotNegative op.unitPriceCents := by
    intro args op hop hcost hprice
    rw [hop.unitCostCents, hop.unitPriceCents, hcost, hprice]
    exact ⟨notNegative_none, notNegative_none⟩
  obtain ⟨hcost, hprice⟩ := hnone hout.carries rfl rfl
  obtain ⟨hcost', hprice'⟩ := hnone hinto.carries rfl rfl
  rw [hw]
  exact (hbatch.applyOperation hcost hprice).applyOperation hcost' hprice'

/-! ## Runs -/

/-- **A call of a service** that is no transfer with a negative cost keeps the amounts. -/
theorem Call.notNegative {call : Call} (hservice : call.Service)
    (hcost : CostNotNegative d ⟨env, call⟩) (hd : AllAmounts NotNegative d) :
    AllAmounts NotNegative (call.exec env d) := by
  by_cases hmoves : call.Moves
  · cases call with
    | transfer form =>
      rcases exec_of_closes (closes_registerTransfer form) with hsame | ⟨_, -, hdone⟩
      · have hexec : (Call.transfer form).exec env d = d := hsame
        rwa [hexec]
      · obtain ⟨plan, dest, out, into, htransferred⟩ := hdone
        obtain ⟨parsed, hcheck⟩ := htransferred.check
        exact htransferred.notNegative hd (hcost ⟨parsed, plan, hcheck⟩)
    | _ => exact hmoves.elim
  · exact Call.upkept (upkept_notNegative env) hservice hmoves hd

/-- **Stored amounts are not negative.** From a state in which no price and no cost is negative,
every run of the local services leaves none that is, whatever the forms say, as long as no transfer
in it passes its checks with a negative cost. -/
theorem runAll_notNegative (d : Db) (run : List Request) (hd : AllAmounts NotNegative d)
    (hrun : Along (fun d r => r.call.Service ∧ CostNotNegative d r) d run) :
    AllAmounts NotNegative (runAll d run) := by
  induction run generalizing d with
  | nil => exact hd
  | cons r run ih =>
    obtain ⟨⟨hservice, hcost⟩, hrest⟩ := hrun
    exact ih (r.exec d) (Call.notNegative hservice hcost hd) hrest

/-- Five units in one of two warehouses, two of which are sent to the other at a typed cost. -/
def movedAt (costRaw : String) : List Request :=
  [⟨Env.sample, .addWarehouse { name := "a", address := "" }⟩,
    ⟨Env.sample, .addWarehouse { name := "b", address := "" }⟩,
    ⟨Env.sample, .receipt
      { code := "c", name := "n", qtyRaw := "5", costRaw := "", saleRaw := "", warehouseId := "x"
        batchChoice := "new" }⟩,
    ⟨Env.sample, .transfer
      { code := "c", qtyRaw := "2", batchId := "xxxxxxxxxxxxxxxxxxxx", destWarehouseId := "xx"
        costRaw := costRaw }⟩]

theorem allAmounts_empty : AllAmounts NotNegative {} where
  products _ h := absurd h List.not_mem_nil
  batches _ h := absurd h List.not_mem_nil
  operations _ h := absurd h List.not_mem_nil

theorem runAll_notNegative_movedAt :
    (runAll {} (movedAt "7,50")).batches.map Batch.costCents = [none, some 750] ∧
      AllAmounts NotNegative (runAll {} (movedAt "7,50")) := by
  refine ⟨by decide +kernel, runAll_notNegative {} _ allAmounts_empty ?_⟩
  have htyped : NotNegative (toCents (strip "7,50")) := by
    rw [show toCents (strip "7,50") = some 750 by decide +kernel]
    rintro _ ⟨⟩
    decide
  exact ⟨⟨trivial, trivial⟩, ⟨trivial, trivial⟩, ⟨trivial, trivial⟩, ⟨trivial, fun _ => htyped⟩,
    trivial⟩

/-- A transfer stores the negative cost that is typed into it. -/
theorem not_runAll_notNegative : ¬∀ (d : Db) (run : List Request), AllAmounts NotNegative d →
    (∀ r ∈ run, r.call.Service) → AllAmounts NotNegative (runAll d run) := by
  intro hclaim
  have hservice : ∀ r ∈ movedAt "-5", r.call.Service := by
    simp [movedAt, Call.Service]
  have hbatches := (hclaim {} (movedAt "-5") allAmounts_empty hservice).batches
  have hcosts : (runAll {} (movedAt "-5")).batches.map Batch.costCents = [none, some (-500)] := by
    decide +kernel
  obtain ⟨b, hb, hcost⟩ : ∃ b ∈ (runAll {} (movedAt "-5")).batches, b.costCents = some (-500) := by
    refine List.mem_map.mp ?_
    rw [hcosts]
    exact List.mem_cons_of_mem _ (List.mem_singleton_self _)
  exact absurd ((hbatches b hb).2 (-500) hcost) (by decide)

end MyOriShop
