import MyOriShop.Atomicity
import MyOriShop.InventoryImport

/-!
# Lots: what the inventory import sees of a database (`scripts/import_inventory_receipt.py`)

The import decides from the active cards and from the expiries of the batches. Quantities, prices
and comments do not count.

* `Lot` is what counts of a batch, `Db.lots` the table of them. `Db.cards` are the products with their
  active codes, `cardOf` the product of a code.
* `Alike`: neither has changed.
* `Received` is what a receipt does to them, `Noted` what the notes of a top-up do.

Results:
* `cardOf_cards`, `monthBatches_lot`: the lookups of the import see nothing else.
* `closes_registerReceipt_received`: a receipt finds or creates the card, and then fills the chosen
  batch or creates one.
* `closes_applyTopupNotes`: the notes write the row's expiry on the batch.
-/

namespace MyOriShop

open Lib.Text Lib.IsoDate Lib.Transaction Lib.Earliest

variable {env : Env} {d d' w w' : Db}

/-! ## Cards and lots -/

/-- What the import sees of a batch. -/
structure Lot where
  id : String
  productId : String
  warehouseId : String
  expiry : Option String
  createdAt : String
  deriving DecidableEq

def Batch.lot (b : Batch) : Lot := ⟨b.id, b.productId, b.warehouseId, b.expiry, b.createdAt⟩

def Product.card (p : Product) : String × Option String := (p.id, p.activeCode)

namespace Db

def lots (d : Db) : List Lot := d.batches.map Batch.lot

def cards (d : Db) : List (String × Option String) := d.products.map Product.card

theorem ids_lots (d : Db) : d.lots.map Lot.id = d.ids .batch := by
  unfold Db.lots
  rw [List.map_map]
  rfl

theorem ids_cards (d : Db) : d.cards.map Prod.fst = d.ids .product := by
  unfold Db.cards
  rw [List.map_map]
  rfl

end Db

/-- The product of an active code. -/
def cardOf (cards : List (String × Option String)) (code : String) : Option String :=
  (cards.find? fun c => c.2 = some code).map Prod.fst

theorem cardOf_cards (d : Db) (code : String) :
    cardOf d.cards code = (activeProduct d code).map Product.id := by
  unfold cardOf Db.cards activeProduct
  rw [List.find?_map, Option.map_map]
  rfl

theorem cardOf_append (cards : List (String × Option String)) (id code code' : String) :
    cardOf (cards ++ [(id, some code)]) code' =
      (cardOf cards code').or (if code = code' then some id else none) := by
  unfold cardOf
  rw [List.find?_append, List.find?_singleton]
  by_cases h : code = code'
  · cases cards.find? fun c => c.2 = some code' <;> simp [h]
  · cases cards.find? fun c => c.2 = some code' <;> simp [h]

theorem mem_of_cardOf {cards : List (String × Option String)} {code id : String}
    (h : cardOf cards code = some id) : (id, some code) ∈ cards := by
  obtain ⟨c, hc, rfl⟩ := Option.map_eq_some_iff.mp h
  have hcode : c.2 = some code := by simpa using List.find?_some hc
  exact hcode ▸ List.mem_of_find?_eq_some hc

/-- A product has one active code at most. -/
theorem cardOf_inj {cards : List (String × Option String)} (hids : (cards.map Prod.fst).Nodup)
    {code code' id : String} (h : cardOf cards code = some id) (h' : cardOf cards code' = some id) :
    code = code' := by
  have hsame := List.inj_on_of_nodup_map hids (mem_of_cardOf h) (mem_of_cardOf h') rfl
  simpa using hsame

/-! ## The batches of a month -/

/-- A lot of the product in the warehouse, of the month. -/
def Lot.among (productId warehouseId : String) (month : Option String) (l : Lot) : Bool :=
  l.productId = productId && l.warehouseId = warehouseId && inMonth month l.expiry

/-- `ORDER BY expiry, created_at`. -/
def Lot.dueKey (l : Lot) : WithBot String ×ₗ String := toLex (l.expiry, l.createdAt)

/-- The lots of the product in the warehouse, of the month. -/
def lotsOf (lots : List Lot) (productId warehouseId : String) (month : Option String) : List Lot :=
  lots.filter (Lot.among productId warehouseId month)

/-- The id of the first one. -/
def headId (lots : List Lot) : Option String := (sorted Lot.dueKey lots).head?.map Lot.id

theorem headId_eq_none {lots : List Lot} : headId lots = none ↔ lots = [] := by
  rw [headId, Option.map_eq_none_iff, List.head?_eq_none_iff, sorted_nil_iff]

theorem headId_mem {lots : List Lot} {id : String} (h : headId lots = some id) :
    ∃ l ∈ lots, l.id = id := by
  obtain ⟨l, hl, hid⟩ := Option.map_eq_some_iff.mp h
  exact ⟨l, mem_of_head?_sorted hl, hid⟩

/-- **The batches that the import finds**: it sees nothing but the lots. -/
theorem monthBatches_lot (d : Db) (productId warehouseId : String) (month : Option String)
    (excluded : List String) :
    (monthBatches d productId warehouseId month excluded).map Batch.lot =
      sorted Lot.dueKey
        ((lotsOf d.lots productId warehouseId month).filter fun l => l.id ∉ excluded) := by
  have hsorted : ∀ batches : List Batch,
      (sorted dueKey batches).map Batch.lot = sorted Lot.dueKey (batches.map Batch.lot) :=
    map_sorted fun _ => rfl
  unfold monthBatches lotsOf Db.lots
  rw [filter_sorted, hsorted, List.filter_filter, List.filter_map, List.filter_map,
    List.filter_filter]
  rfl

theorem monthBatches_head (d : Db) (productId warehouseId : String) (month : Option String)
    (excluded : List String) :
    (monthBatches d productId warehouseId month excluded).head?.map Batch.id =
      headId ((lotsOf d.lots productId warehouseId month).filter fun l => l.id ∉ excluded) := by
  rw [headId, ← monthBatches_lot, List.head?_map, Option.map_map]
  rfl

/-! ## What a receipt does -/

/-- Cards and lots are what they were. -/
structure Alike (d d' : Db) : Prop where
  cards : d'.cards = d.cards
  lots : d'.lots = d.lots

theorem Alike.refl (d : Db) : Alike d d := ⟨rfl, rfl⟩

theorem Alike.trans {d'' : Db} (h : Alike d d') (h' : Alike d' d'') : Alike d d'' :=
  ⟨h'.cards.trans h.cards, h'.lots.trans h.lots⟩

theorem Recorded.alike {args : OperationArgs} {op : Operation} (h : Recorded env args w op w') :
    Alike w w' := by
  obtain ⟨stamp, rfl⟩ := h.next
  obtain ⟨-, hproducts, hbatches⟩ := applyOperation_get w op stamp
  constructor
  · unfold Db.cards
    rw [hproducts, List.map_map]
    refine List.map_congr_left fun p _ => ?_
    rw [Function.comp_apply]
    split_ifs <;> rfl
  · unfold Db.lots
    rw [hbatches, List.map_map]
    refine List.map_congr_left fun b _ => ?_
    rw [Function.comp_apply]
    split_ifs <;> rfl

@[simp] theorem setPrice_activeCode (p : Product) (f : PriceField) (cents : Option Int) :
    (p.setPrice f cents).activeCode = p.activeCode := by
  cases f <;> rfl

/-- A new price on a card. -/
theorem alike_price (d : Db) (id stamp : String) (f : PriceField) (cents : Option Int) :
    Alike d (d.edit .product id fun p => (p.setPrice f cents).touch stamp) := by
  refine ⟨?_, rfl⟩
  show (d.products.map _).map Product.card = _
  rw [List.map_map]
  refine List.map_congr_left fun p _ => ?_
  rw [Function.comp_apply]
  split_ifs
  · show ((p.setPrice f cents).id, (p.setPrice f cents).activeCode) = (p.id, p.activeCode)
    rw [Product.setPrice_id, setPrice_activeCode]
  · rfl

theorem stages_applyEntered_alike (product : Product) (es : List (PriceField × Option Int))
    (w : Db) : Stages w (applyEntered env product es) fun _ w' => Alike w w' := by
  induction es generalizing w with
  | nil => exact stages_pure (.refl w)
  | cons e es ih =>
    unfold applyEntered
    split_ifs
    · exact ih w
    · refine stages_bind (stages_recordOperation _) fun op w₁ hop => ?_
      refine stages_bind stages_utcnowIso ?_
      rintro stamp _ ⟨-, rfl⟩
      refine stages_stage ((ih _).mono fun _ w' h => ?_)
      exact hop.alike.trans ((alike_price ..).trans h)

/-- The card of a code after a receipt: the one that was there, or a new one. -/
inductive CardKept (code : String) (d d' : Db) (productId : String) : Prop where
  | known (h : cardOf d.cards code = some productId) (hd : d'.cards = d.cards)
  | created (h : cardOf d.cards code = none) (fresh : productId ∉ d.ids .product)
      (hd : d'.cards = d.cards ++ [(productId, some code)])

theorem card_receiptProduct (form : ReceiptForm) (entered : List (PriceField × Option Int))
    (id now : String) :
    (receiptProduct env form entered id now).card = (id, some (strip form.code)) := by
  have hcard : ∀ (es : List (PriceField × Option Int)) (p : Product),
      (es.foldl (fun q e => q.setPrice e.1 e.2) p).card = p.card := by
    intro es
    induction es with
    | nil => exact fun p => rfl
    | cons e es ih =>
      intro p
      rw [List.foldl_cons, ih]
      exact Prod.ext (Product.setPrice_id ..) (setPrice_activeCode ..)
  exact hcard entered _

theorem stages_receiptCard_kept (form : ReceiptForm) :
    Stages d (receiptCard env form) fun product w =>
      CardKept (strip form.code) d w product.id ∧ w.lots = d.lots := by
  unfold receiptCard
  refine stages_read ?_
  split
  · next product hproduct =>
    refine stages_bind (stages_applyEntered_alike product _ d) fun _ w h => stages_pure ?_
    refine ⟨.known ?_ h.cards, h.lots⟩
    rw [cardOf_cards, hproduct, Option.map_some]
  · next hnone =>
    refine stages_bind stages_utcnowIso ?_
    rintro now w₀ ⟨-, hw₀⟩
    rw [hw₀]
    refine stages_stage (stages_bind (stages_recordOperation _) fun op w hop => stages_pure ?_)
    have hcard : (receiptProduct env form (enteredPrices d form) (env.newId d.usedIds) now).card =
        ((env.newId d.usedIds).1, some (strip form.code)) := card_receiptProduct ..
    have hid : (receiptProduct env form (enteredPrices d form) (env.newId d.usedIds) now).id =
        (env.newId d.usedIds).1 := congrArg Prod.fst hcard
    refine ⟨.created ?_ ?_ ?_, hop.alike.lots⟩
    · rw [cardOf_cards, hnone, Option.map_none]
    · rw [hid]
      intro hmem
      exact (env.newId d.usedIds).2.2 (mem_usedIds hmem)
    · rw [hop.alike.cards]
      show (d.products ++ [_]).map Product.card = _
      rw [List.map_append, List.map_singleton, hcard, hid]
      rfl

/-- The batch that a receipt fills: a new one, or the chosen one. -/
inductive LotFilled (env : Env) (form : ReceiptForm) (productId : String) (d d' : Db)
    (batchId : String) : Prop where
  | created (choice : strip form.batchChoice = "new") (lot : Lot) (hd : d'.lots = d.lots ++ [lot])
      (id : lot.id = batchId) (fresh : batchId ∉ d.ids .batch)
      (minted : ∃ used, batchId = (env.newId used).1) (product : lot.productId = productId)
      (warehouse : lot.warehouseId = strip form.warehouseId)
      (expiry : lot.expiry = expiryText (parseOptionalExpiry form.expiryRaw))
  | chosen (choice : strip form.batchChoice ≠ "new") (id : batchId = strip form.batchChoice)
      (hd : d'.lots = d.lots)

theorem stages_receiptTarget_filled (form : ReceiptForm) (product : Product) (day : Date) :
    Stages w (receiptTarget env form product day) fun target w' =>
      w'.cards = w.cards ∧
        ∀ batchId ∈ target, LotFilled env form product.id w w' batchId := by
  unfold receiptTarget
  refine stages_flush' fun _ => ?_
  split_ifs with hchoice
  · refine stages_bind stages_utcnowIso ?_
    rintro now w₀ ⟨-, hw₀⟩
    rw [hw₀]
    refine stages_read (stages_stage (stages_pure ⟨rfl, ?_⟩))
    rintro _ ⟨⟩
    have hfresh : (env.newId w.usedIds).1 ∉ w.ids .batch :=
      fun h => (env.newId w.usedIds).2.2 (mem_usedIds h)
    refine .created hchoice (receiptBatch form product day (env.newId w.usedIds).1 now).lot ?_ rfl
      hfresh ⟨_, rfl⟩ rfl rfl rfl
    show (w.batches ++ [_]).map Batch.lot = _
    rw [List.map_append]
    rfl
  · refine stages_read ?_
    split
    · exact stages_pure ⟨rfl, fun _ h => nomatch h⟩
    · next b hb =>
      split_ifs
      · exact stages_pure ⟨rfl, fun _ h => nomatch h⟩
      · refine stages_pure ⟨rfl, ?_⟩
        rintro _ ⟨⟩
        exact .chosen hchoice (Db.mem_of_find hb).2 rfl

/-- What a receipt has done: the card, the batch, and the row of that batch. -/
structure Received (env : Env) (form : ReceiptForm) (d : Db) (batchId : String) (d' : Db) :
    Prop where
  filled : ∃ productId w, CardKept (strip form.code) d w productId ∧ w.lots = d.lots ∧
    w.ids .batch = d.ids .batch ∧ d'.cards = w.cards ∧ LotFilled env form productId w d' batchId
  ok : d'.Ok

theorem closes_registerReceipt_received (form : ReceiptForm) :
    Closes d d Outcome.No (registerReceipt env form) fun answer d' => ∃ op batchId,
      answer = .done op ∧ op.batchId = some batchId ∧ Received env form d batchId d' := by
  unfold registerReceipt
  refine closes_bind (stages_parseOpDate _) ?_
  rintro parsed w₀ hw₀
  rw [hw₀]
  refine closes_read (closes_orAnswer answers_stop fun _ _ => ?_)
  refine closes_bind (stages_dayOrToday _) ?_
  rintro day w₁ ⟨-, hw₁⟩
  rw [hw₁]
  refine closes_bind (stages_receiptCard_kept form) ?_
  rintro product w ⟨hcard, hlots⟩
  refine closes_bind (stages_receiptTarget_filled form product day) fun target w₁ htarget => ?_
  cases target with
  | none => exact closes_rollback trivial
  | some batchId =>
    refine closes_bind (stages_recordOperation _) fun op w₂ hop => ?_
    refine closes_recover (closes_done fun hok => ?_) fun e y h => closes_rollbackWith h trivial
    have hstock : (receiptArgs form product day batchId).type ∈ stockAffectingTypes := by
      simp [receiptArgs, stockAffectingTypes]
    obtain ⟨hcards, hfilled⟩ := htarget
    have hids : w.ids .batch = d.ids .batch := by rw [← Db.ids_lots, hlots, Db.ids_lots]
    refine ⟨op, batchId, rfl, hop.carries.batchId hstock, ⟨product.id, w, hcard, hlots, hids,
      hop.alike.cards.trans hcards, ?_⟩, hok⟩
    cases hfilled batchId rfl with
    | created choice lot hd id fresh minted product warehouse expiry =>
      exact .created choice lot (hop.alike.lots.trans hd) id fresh minted product warehouse expiry
    | chosen choice id hd => exact .chosen choice id (hop.alike.lots.trans hd)

/-! ## What the notes of a top-up do -/

/-- The row's expiry on a lot. -/
def Lot.renew (row : SheetRow) (l : Lot) : Lot :=
  if row.expiry = "" then l else { l with expiry := some row.expiry }

/-- The row's expiry on the lot of an id. -/
def renewAt (batchId : String) (row : SheetRow) (l : Lot) : Lot :=
  if l.id = batchId then l.renew row else l

theorem lot_renewed (row : SheetRow) (b : Batch) : (renewed row b).lot = b.lot.renew row := by
  unfold renewed Lot.renew
  split_ifs <;> rfl

theorem lot_notedBatch (row : SheetRow) (b : Batch) (stamp : String) :
    ({ (notedBatch row b).1 with updatedAt := stamp } : Batch).lot = b.lot.renew row := by
  rw [← lot_renewed]
  unfold notedBatch
  dsimp only
  split_ifs <;> rfl

/-- A batch that needs no note has the row's expiry. -/
theorem renew_of_unchanged {row : SheetRow} {b : Batch} (h : (notedBatch row b).2.1 = false) :
    b.lot.renew row = b.lot := by
  have hexpiry : row.expiry = "" ∨ b.expiry = some row.expiry := by
    unfold notedBatch at h
    dsimp only at h
    split_ifs at h <;> simpa [or_iff_not_imp_left] using h
  rw [← lot_renewed]
  unfold renewed
  split_ifs with hempty
  · rfl
  · rw [← hexpiry.resolve_left hempty]

/-- What the notes have done: the row's expiry is on the batch. -/
structure Noted (batchId : String) (row : SheetRow) (d d' : Db) : Prop where
  cards : d'.cards = d.cards
  lots : d'.lots = d.lots.map (renewAt batchId row)
  ok : d'.Ok

theorem lots_edit (d : Db) (batchId : String) {f : Batch → Batch} {g : Lot → Lot}
    (h : ∀ b ∈ d.batches, b.id = batchId → (f b).lot = g b.lot) :
    (d.edit .batch batchId f).lots = d.lots.map fun l => if l.id = batchId then g l else l := by
  show (d.batches.map _).map Batch.lot = (d.batches.map Batch.lot).map _
  rw [List.map_map, List.map_map]
  refine List.map_congr_left fun b hb => ?_
  show Batch.lot (if b.id = batchId then f b else b) = if b.id = batchId then g b.lot else b.lot
  split_ifs with hid
  · exact h b hb hid
  · rfl

theorem map_renewAt_of_same {lots : List Lot} {batchId : String} {row : SheetRow}
    (h : ∀ l ∈ lots, l.id = batchId → l.renew row = l) : lots.map (renewAt batchId row) = lots := by
  refine (List.map_congr_left fun l hl => ?_).trans (List.map_id lots)
  unfold renewAt
  split_ifs with hid
  · exact h l hl hid
  · rfl

theorem closes_applyTopupNotes (hd : d.Ok) (batchId : String) (row : SheetRow) :
    Closes d d (fun _ => False) (applyTopupNotes env batchId row) fun _ d' =>
      Noted batchId row d d' := by
  -- ids are unique: the batch that is found is the only one that is edited
  have hfound : ∀ b ∈ d.find .batch batchId, ∀ b' ∈ d.batches, b'.id = batchId → b' = b :=
    fun b hb b' hb' hid => List.inj_on_of_nodup_map (hd.nodup .batch) hb' (Db.mem_of_find hb).1
      (hid.trans (Db.mem_of_find hb).2.symm)
  unfold applyTopupNotes
  refine closes_read ?_
  split
  · next hnone =>
    refine closes_idle id ⟨rfl, (map_renewAt_of_same fun l hl hid => ?_).symm, hd⟩
    obtain ⟨b, hb, rfl⟩ := List.mem_map.mp hl
    exact (List.find?_eq_none.mp hnone b hb (decide_eq_true hid)).elim
  · next b hb =>
    cases hchanged : (notedBatch row b).2.1 with
    | false =>
      simp only [hchanged]
      refine closes_idle id ⟨rfl, (map_renewAt_of_same fun l hl hid => ?_).symm, hd⟩
      obtain ⟨b', hb', rfl⟩ := List.mem_map.mp hl
      rw [hfound b hb b' hb' hid]
      exact renew_of_unchanged hchanged
    | true =>
      simp only [hchanged]
      refine closes_bind stages_utcnowIso ?_
      rintro stamp w ⟨-, hw⟩
      rw [hw]
      refine closes_stage (closes_commit id fun hok => ⟨rfl, ?_, (Db.check_iff _).mp hok⟩)
      refine lots_edit d batchId fun b' hb' hid => ?_
      rw [hfound b hb b' hb' hid]
      exact lot_notedBatch row b stamp

end MyOriShop
