import MyOriShop.Confinement

/-!
# Transfers: what a move of stock changes, and nothing else (`app/services/transfers.py`)

`register_transfer` takes `q` units of a batch to a new batch in the destination warehouse, with one
ledger row for each side.

* `TypedCents raw cents`: an optional amount as it was typed.
* `TransferPriced` is the cost and the price of the new batch, by the currencies of the two
  warehouses.
* `MovedStock` is the whole store after a transfer that is done.

Results:
* `transferCheck_ok`: what the checks of a transfer let through.
* `MovedStock.conserves`: the batches of a product have together what they had.
* `transfer_frame`: a transfer that is done leaves `MovedStock`; any other one leaves the store as
  it was.
-/

namespace MyOriShop

open Lib.Text Lib.IsoDate Lib.Sums Lib.Transaction Lib.Fallible

variable {env : Env} {d d' w w' : Db}

/-- An optional amount as it was typed: none in an empty field, else its cents. -/
def TypedCents (raw : String) (cents : Option Int) : Prop :=
  if strip raw = "" then cents = none else cents.isSome ∧ toCents (strip raw) = cents

/-- Cost and price of the new batch. Within a currency the price is the source's, and the cost too
if none is typed; across currencies both are as typed, and the cost has to be. -/
structure TransferPriced (form : TransferForm) (source : Batch) (home target : Warehouse)
    (cost price : Option Int) : Prop where
  sameCost : target.currency = home.currency →
    if strip form.costRaw = "" then cost = source.costCents else TypedCents form.costRaw cost
  samePrice : target.currency = home.currency → price = source.priceCents
  crossCost : target.currency ≠ home.currency →
    strip form.costRaw ≠ "" ∧ TypedCents form.costRaw cost
  crossPrice : target.currency ≠ home.currency →
    TypedCents form.salePriceRaw price ∧ ∀ cents ∈ price, 0 ≤ cents

/-- The store after a transfer of a product from the batch `source` to the new batch `dest`. -/
structure MovedStock (form : TransferForm) (d : Db) (product : Product) (source dest : Batch)
    (out into : Operation) (d' : Db) : Prop where
  qty : 0 < parseQty form.qtyRaw
  /-- The source is a batch of the product; ids are unique, so no other batch has the typed id. -/
  picked : source ∈ d.batches ∧ source.id = strip form.batchId ∧ source.productId = product.id
  unique : (d.batches.map Batch.id).Nodup
  /-- The new batch, in the destination warehouse. -/
  fresh : ∀ b ∈ d.batches, b.id ≠ dest.id
  place : dest.warehouseId = strip form.destWarehouseId ∧ dest.productId = product.id
  quantity : dest.quantity = parseQty form.qtyRaw
  priced : ∃ home target, d.find .warehouse source.warehouseId = some home ∧
    d.find .warehouse (strip form.destWarehouseId) = some target ∧
      TransferPriced form source home target dest.costCents dest.priceCents
  inherited : dest.name = source.name ∧ dest.location = source.location ∧ dest.isLegacy = 0
  overrides : dest.expiry = (orNone (strip form.newExpiry)).or source.expiry ∧
    dest.comment = (orNone (strip form.newComment)).or source.comment
  /-- Only the source's quantity and stamp are other than they were. -/
  batches : ∃ stamp, d'.batches =
    (d.batches.map fun b =>
      if b.id = source.id then b.bump (-parseQty form.qtyRaw) stamp else b) ++ [dest]
  /-- The card keeps its quantity, its prices and all but its stamp. -/
  products : ∃ stamp, d'.products =
    d.products.map fun p => if p.id = product.id then { p with updatedAt := stamp } else p
  operations : d'.operations = d.operations ++ [out, into]
  types : out.type = "transfer" ∧ into.type = "transfer"
  deltas : out.qtyDelta = -parseQty form.qtyRaw ∧ into.qtyDelta = parseQty form.qtyRaw
  sides : out.batchId = some source.id ∧ into.batchId = some dest.id
  moves : out.productId = product.id ∧ into.productId = product.id
  day : ∃ day : Date, out.businessDate = some day.isoformat ∧
    into.businessDate = some day.isoformat
  /-- No other table is touched, the cash ledger among them. -/
  rest : ∀ k, k ≠ .operation → k ≠ .product → k ≠ .batch → d'.get k = d.get k

/-- How a transfer ends: moved, or with the store as it was. -/
def TransferEnds (form : TransferForm) (d : Db) (answer : Except Exn (Outcome String))
    (d' : Db) : Prop :=
  match answer with
  | .ok (.done _) =>
    (∃ product source dest out into, MovedStock form d product source dest out into d') ∧
      ∀ productId, batchTotal d'.batches productId = batchTotal d.batches productId
  | .ok (.warned _) | .ok (.refused _) | .error _ => d' = d

/-! ## What the checks let through -/

theorem pickedBatch_find {product : Product} {raw : String} {b : Batch}
    (h : pickedBatch env d product raw = some b) :
    d.find .batch (strip raw) = some b ∧ b.productId = product.id := by
  unfold pickedBatch at h
  obtain ⟨hb, hguard⟩ := Option.filter_eq_some_iff.mp h
  split_ifs at hb
  simp only [Bool.and_eq_true, decide_eq_true_eq] at hguard
  exact ⟨hb, hguard.1⟩

/-- The product, the batch and the warehouses of a checked transfer. -/
theorem transferTarget_ok {form : TransferForm} {product : Product} {source : Batch}
    {target home : Warehouse}
    (h : transferTarget env d form = .ok (product, source, target, home)) :
    d.find .batch (strip form.batchId) = some source ∧ source.productId = product.id ∧
      d.find .warehouse (strip form.destWarehouseId) = some target ∧
      d.find .warehouse source.warehouseId = some home := by
  unfold transferTarget at h
  split at h
  · split at h
    · next hpicked =>
      split at h
      · next htarget =>
        split at h
        · next hhome =>
          cases h
          obtain ⟨hfind, hproduct⟩ := pickedBatch_find hpicked
          exact ⟨hfind, hproduct, (Option.filter_eq_some_iff.mp htarget).1, hhome⟩
        · cases h
      · cases h
    · cases h
  · cases h

theorem transferCost_ok {form : TransferForm} {dflt : Except (Outcome String) (Option Int)}
    {cost : Option Int} (h : transferCost form dflt = .ok cost) :
    if strip form.costRaw = "" then dflt = .ok cost else TypedCents form.costRaw cost := by
  unfold transferCost at h
  unfold TypedCents
  split_ifs at h ⊢ with hempty
  · exact h
  · split at h
    · next cents hcents =>
      cases h
      exact ⟨rfl, hcents⟩
    · cases h

/-- What an accepted optional amount is. -/
theorem parseOptionalCents_ok {raw : String} {cents : Option Int}
    (h : parseOptionalCents raw = .ok cents) : TypedCents raw cents ∧ ∀ c ∈ cents, 0 ≤ c := by
  unfold parseOptionalCents at h
  unfold TypedCents
  split_ifs at h ⊢ with hempty
  · cases h
    exact ⟨rfl, fun _ h => nomatch h⟩
  · split at h
    · cases h
    · next hcents =>
      split_ifs at h with hneg
      cases h
      refine ⟨⟨rfl, hcents⟩, ?_⟩
      rintro _ ⟨⟩
      exact not_lt.mp hneg

theorem transferMoney_ok {form : TransferForm} {source : Batch} {home target : Warehouse}
    {price cost : Option Int}
    (h : transferMoney form source (target.currency ≠ home.currency) = .ok (price, cost)) :
    TransferPriced form source home target cost price := by
  unfold transferMoney at h
  by_cases hcurrency : target.currency = home.currency
  · rw [if_neg (by simpa using hcurrency)] at h
    obtain ⟨cost', hcost, h⟩ := bind_ok_iff.mp h
    cases h
    have hcost := transferCost_ok hcost
    refine ⟨fun _ => ?_, fun _ => rfl, fun hne => absurd hcurrency hne,
      fun hne => absurd hcurrency hne⟩
    split_ifs at hcost ⊢ with hempty
    · exact (Except.ok.inj hcost).symm
    · exact hcost
  · rw [if_pos (by simpa using hcurrency)] at h
    obtain ⟨cost', hcost, h⟩ := bind_ok_iff.mp h
    obtain ⟨_, hstop, h⟩ := bind_ok_iff.mp h
    cases h
    obtain ⟨⟨value, hvalue⟩, -⟩ := Errors.putField_eq_nil.mp (Errors.stop_ok_iff.mp hstop)
    have hcost := transferCost_ok hcost
    refine ⟨fun heq => absurd heq hcurrency, fun heq => absurd heq hcurrency, fun _ => ?_,
      fun _ => ?_⟩
    · split_ifs at hcost with hempty
      · cases hcost
      · exact ⟨hempty, hcost⟩
    · rw [hvalue]
      exact parseOptionalCents_ok hvalue

/-- **What the checks of a transfer let through.** -/
theorem transferCheck_ok {form : TransferForm} {parsed : Except String (Option Date)}
    {plan : TransferPlan} (h : transferCheck env d form parsed = .ok plan) :
    d.find .batch (strip form.batchId) = some plan.source ∧
      plan.source.productId = plan.product.id ∧
      ∃ home target, d.find .warehouse plan.source.warehouseId = some home ∧
        d.find .warehouse (strip form.destWarehouseId) = some target ∧
          TransferPriced form plan.source home target plan.costCents plan.priceCents := by
  unfold transferCheck at h
  obtain ⟨_, _, h⟩ := bind_ok_iff.mp h
  obtain ⟨⟨product, source, target, home⟩, htarget, h⟩ := bind_ok_iff.mp h
  obtain ⟨⟨price, cost⟩, hmoney, h⟩ := bind_ok_iff.mp h
  have hplan : plan = ⟨product, source, price, cost⟩ := by
    dsimp only at h
    split_ifs at h
    all_goals
      first
      | cases h
        rfl
      | cases h
  rw [hplan]
  obtain ⟨hsource, hproduct, hto, hhome⟩ := transferTarget_ok htarget
  exact ⟨hsource, hproduct, home, target, hhome, hto, transferMoney_ok hmoney⟩

/-! ## What is written -/

/-- The cards after a recorded row. -/
theorem Recorded.products {args : OperationArgs} {op : Operation}
    (h : Recorded env args w op w') : ∃ stamp, w'.products =
      w.products.map fun p => if p.id = op.productId then p.bump op.qtyDelta stamp else p := by
  obtain ⟨stamp, rfl⟩ := h.next
  exact ⟨stamp, (applyOperation_get w op stamp).2.1⟩

/-- The two rows of a transfer leave the card's quantity as it was. -/
theorem Transferred.products {form : TransferForm} {plan : TransferPlan} {dest : Batch}
    {out into : Operation} (h : Transferred env form d plan dest out into d') :
    ∃ stamp, d'.products =
      d.products.map fun p => if p.id = plan.product.id then { p with updatedAt := stamp } else p := by
  obtain ⟨w, day, hout, hinto⟩ := h.rows
  obtain ⟨stamp, hleaves⟩ := hout.products
  obtain ⟨stamp', hfills⟩ := hinto.products
  have hkept : (d.insert .batch [dest]).products = d.products := rfl
  refine ⟨stamp', ?_⟩
  rw [hfills, hleaves, hkept, List.map_map]
  refine List.map_congr_left fun p _ => ?_
  rw [hout.carries.productId, hout.carries.qtyDelta, hinto.carries.productId,
    hinto.carries.qtyDelta]
  by_cases hp : p.id = plan.product.id
  · simp [transferArgs, Product.bump, hp]
  · simp [transferArgs, hp]

theorem Transferred.movedStock {form : TransferForm} {plan : TransferPlan} {dest : Batch}
    {out into : Operation} (h : Transferred env form d plan dest out into d') :
    ∃ dest', MovedStock form d plan.product plan.source dest' out into d' := by
  obtain ⟨parsed, hcheck⟩ := h.check
  obtain ⟨hsource, hproduct, home, target, hhome, htarget, hpriced⟩ := transferCheck_ok hcheck
  obtain ⟨hmem, hid⟩ := Db.mem_of_find (k := .batch) hsource
  obtain ⟨houtId, hintoId, stamp, stamp', hbatches⟩ := h.batches
  obtain ⟨now, hdest⟩ := h.batch
  have hproducts := h.products
  obtain ⟨w, day, hout, hinto⟩ := h.rows
  have hnodup : (d.batches.map Batch.id).Nodup := by
    have hall : ((d.batches ++ [dest]).map Batch.id).Nodup := hout.ok.nodup .batch
    rw [List.map_append] at hall
    exact (List.nodup_append.mp hall).1
  have hfilled : moved into stamp' dest = dest.bump into.qtyDelta stamp' :=
    if_pos hintoId
  have hcarried := hinto.carries.qtyDelta
  refine ⟨dest.bump into.qtyDelta stamp',
    { qty := transferCheck_qty hcheck
      picked := ⟨hmem, hid, hproduct⟩
      unique := hnodup
      fresh := h.new
      place := ?_
      quantity := ?_
      priced := ⟨home, target, hhome, htarget, ?_⟩
      inherited := ?_
      overrides := ?_
      batches := ⟨stamp, ?_⟩
      products := hproducts
      operations := ?_
      types := ⟨hout.carries.type, hinto.carries.type⟩
      deltas := ⟨hout.carries.qtyDelta, hinto.carries.qtyDelta⟩
      sides := ⟨houtId, hintoId⟩
      moves := ⟨hout.carries.productId, hinto.carries.productId⟩
      day := ⟨day, hout.carries.day day rfl, hinto.carries.day day rfl⟩
      rest := fun k ho hp hb => ?_ }⟩
  · rw [hdest]
    exact ⟨rfl, rfl⟩
  · rw [hdest, hcarried]
    exact Int.zero_add _
  · rw [hdest]
    exact hpriced
  · rw [hdest]
    exact ⟨rfl, rfl, rfl⟩
  · rw [hdest]
    exact ⟨rfl, rfl⟩
  · rw [hbatches, hfilled]
    refine congrArg (· ++ _) (List.map_congr_left fun b _ => ?_)
    rw [moved, houtId, hout.carries.qtyDelta]
    exact if_congr (by rw [Option.some.injEq, eq_comm]) rfl rfl
  · rw [hinto.posted.operations, hout.posted.operations, List.append_assoc]
    rfl
  · rw [hinto.posted.rest k ho hp hb, hout.posted.rest k ho hp hb]
    exact Db.get_insert_ne _ hb _

/-- What a transfer takes from one batch of a product it puts into another. -/
theorem MovedStock.conserves {form : TransferForm} {product : Product} {source dest : Batch}
    {out into : Operation} (h : MovedStock form d product source dest out into d')
    (productId : String) : batchTotal d'.batches productId = batchTotal d.batches productId := by
  obtain ⟨hmem, -, hproduct⟩ := h.picked
  obtain ⟨stamp, hbatches⟩ := h.batches
  have hquantity : ∀ b : Batch,
      (if b.id = source.id then b.bump (-parseQty form.qtyRaw) stamp else b).quantity =
        b.quantity + if some source.id = some b.id then -parseQty form.qtyRaw else 0 := by
    intro b
    by_cases hb : b.id = source.id
    · rw [if_pos hb, if_pos (congrArg some hb.symm)]
      rfl
    · rw [if_neg hb, if_neg fun heq => hb (Option.some.inj heq).symm, Int.add_zero]
  have howner : ∀ b : Batch,
      (if b.id = source.id then b.bump (-parseQty form.qtyRaw) stamp else b).productId =
        b.productId := by
    intro b
    split_ifs <;> rfl
  have hany : (d.batches.any fun b =>
      decide (b.productId = productId) && decide (some source.id = some b.id)) =
        decide (product.id = productId) := by
    rw [Bool.eq_iff_iff, List.any_eq_true, decide_eq_true_eq, ← hproduct]
    simp only [Bool.and_eq_true, decide_eq_true_eq, Option.some.injEq]
    constructor
    · rintro ⟨b, hb, hown, hid⟩
      rwa [List.inj_on_of_nodup_map h.unique hmem hb hid]
    · exact fun hown => ⟨source, hmem, hown, rfl⟩
  have hdest : sumOver Batch.quantity (fun b => decide (b.productId = productId)) [dest] =
      if product.id = productId then parseQty form.qtyRaw else 0 := by
    rw [sumOver_cons, sumOver_nil, Int.add_zero, h.place.2, h.quantity]
    simp only [decide_eq_true_eq]
  unfold batchTotal
  rw [hbatches, sumOver_append, sumOver_map, hdest]
  simp only [hquantity, howner]
  rw [sumOver_add, sumOver_named h.unique, hany]
  by_cases hown : product.id = productId
  · simp only [hown, decide_true, if_true]
    omega
  · simp only [hown, decide_false, Bool.false_eq_true, if_false]
    omega

/-- **A transfer conserves stock and touches nothing else.** When `register_transfer` is done, the
source batch lost `q` units, one new batch in the destination warehouse has them, the card has its
quantity and its prices, two ledger rows of one business date were added, and nothing else is other
than it was. When it warns, refuses or raises, nothing is. -/
theorem transfer_frame (env : Env) (form : TransferForm) (d : Db) :
    TransferEnds form d ((registerTransfer env form).reply d)
      ((registerTransfer env form).exec d) := by
  have hcloses := @closes_registerTransfer env d form
  have hend := hcloses ⟨d, d, 0, 0⟩ rfl rfl
  unfold Tx.reply Tx.exec
  cases hr : (registerTransfer env form ⟨d, d, 0, 0⟩).1 with
  | error e =>
    rw [hr] at hend
    cases hend with
    | raised _ _ hc => exact hc
  | ok answer =>
    rw [hr] at hend
    cases hend with
    | refused _ _ hno hc =>
      cases answer with
      | done => exact hno.elim
      | warned | refused => exact hc
    | done _ _ hno _ _ hdone =>
      cases answer with
      | done =>
        obtain ⟨plan, dest, out, into, htransferred⟩ := hdone
        obtain ⟨dest', hmoved⟩ := htransferred.movedStock
        exact ⟨⟨plan.product, plan.source, dest', out, into, hmoved⟩, hmoved.conserves⟩
      | warned | refused => exact absurd trivial hno

end MyOriShop
