import MyOriShop.Atomicity
import MyOriShop.Effects
import MyOriShop.Lib.ChangeLog
import MyOriShop.Lib.Overlay

/-!
# PriceChain: the price audit of the product cards (`app/services/receipts.py`, `catalog.py`)

A receipt and an edit of a card change its prices by different rules, and both stage one
`price_change` row for each field that changes, in the transaction of the change.

* `priceChangeOf id f o` reads a ledger row as an audit row of one price of one card.
* `Audited d d'`: the ledger rows added are, for every price of every card, the log of its change.
* `pricesAlong id f d run` are the successive values of one price in a run.

Results:
* `closes_updateProduct_audited`, `closes_registerReceipt_audited`: the two services are audited.
* `Call.audited`: so is every call that may touch a card.
* `price_chain`: along a run the audit rows of a price are the log of its values.
-/

namespace MyOriShop

open Lib.Json (Value valueAt)
open Lib.Text Lib.IsoDate Lib.Transaction Lib.ChangeLog

variable {env : Env} {d d' d'' w w' : Db} {id : String} {f : PriceField}

/-! ## The audit rows -/

/-- A price in a payload: `null` or a number. -/
def centsOf : Value → Option (Option Int)
  | .null => some none
  | .int n => some (some n)
  | _ => none

/-- The text of a value that is one. -/
def textIn : Value → Option String
  | .str s => some s
  | _ => none

/-- The ledger row as an audit row of the price `f` of the card: the price before and after. -/
def priceChangeOf (id : String) (f : PriceField) (o : Operation) :
    Option (Option Int × Option Int) :=
  match o.payload with
  | .obj payload =>
    if o.type = "price_change" ∧ o.productId = id ∧
        textIn (valueAt "field" payload) = some f.key then do
      return (← centsOf (valueAt "old_cents" payload), ← centsOf (valueAt "new_cents" payload))
    else none
  | _ => none

/-- The audit rows of one price of one card. -/
def auditRows (id : String) (f : PriceField) (ops : List Operation) :
    List (Option Int × Option Int) :=
  ops.filterMap (priceChangeOf id f)

/-- The price on the card. -/
def Db.cardPrice (d : Db) (id : String) (f : PriceField) : Option (Option Int) :=
  (d.find .product id).map fun p => Product.price p f

/-- The ledger rows added are the log of every price of every card, and no card is gone. -/
structure Audited (d d' : Db) : Prop where
  kept : ∀ id f, (d.cardPrice id f).isSome → (d'.cardPrice id f).isSome
  rows : ∃ ops, d'.operations = d.operations ++ ops ∧
    ∀ id f, auditRows id f ops = between (d.cardPrice id f) (d'.cardPrice id f)

/-- No price of a card that was there has changed, and no audit row was added. -/
structure Unpriced (d d' : Db) : Prop where
  same : ∀ id f cents, d.cardPrice id f = some cents → d'.cardPrice id f = some cents
  rows : ∃ ops, d'.operations = d.operations ++ ops ∧ ∀ o ∈ ops, o.type ≠ "price_change"

theorem auditRows_append (ops ops' : List Operation) :
    auditRows id f (ops ++ ops') = auditRows id f ops ++ auditRows id f ops' :=
  List.filterMap_append

theorem auditRows_cons (o : Operation) (ops : List Operation) :
    auditRows id f (o :: ops) = (priceChangeOf id f o).toList ++ auditRows id f ops := by
  unfold auditRows
  rw [List.filterMap_cons]
  cases priceChangeOf id f o <;> rfl

theorem auditRows_eq_nil {ops : List Operation} (h : ∀ o ∈ ops, o.type ≠ "price_change") :
    auditRows id f ops = [] := by
  refine List.filterMap_eq_nil_iff.mpr fun o ho => ?_
  unfold priceChangeOf
  split
  · exact if_neg fun hprice => h o ho hprice.1
  · rfl

theorem Unpriced.refl (d : Db) : Unpriced d d where
  same _ _ _ h := h
  rows := ⟨[], (List.append_nil _).symm, fun _ h => absurd h List.not_mem_nil⟩

theorem Unpriced.trans (h : Unpriced d d') (h' : Unpriced d' d'') : Unpriced d d'' where
  same id f cents hcents := h'.same id f cents (h.same id f cents hcents)
  rows := by
    obtain ⟨ops, hops, hplain⟩ := h.rows
    obtain ⟨ops', hops', hplain'⟩ := h'.rows
    refine ⟨ops ++ ops', by rw [hops', hops, List.append_assoc], fun o ho => ?_⟩
    exact (List.mem_append.mp ho).elim (hplain o) (hplain' o)

/-- What comes after an audited change and touches no price. -/
theorem Audited.then (h : Audited d d') (h' : Unpriced d' d'') : Audited d d'' := by
  obtain ⟨ops, hops, hrows⟩ := h.rows
  obtain ⟨ops', hops', hplain⟩ := h'.rows
  have hafter : ∀ id f, d.cardPrice id f ≠ none → d''.cardPrice id f = d'.cardPrice id f := by
    intro id f hcard
    obtain ⟨cents, hcents⟩ :=
      Option.isSome_iff_exists.mp (h.kept id f (Option.isSome_iff_ne_none.mpr hcard))
    rw [hcents, h'.same id f cents hcents]
  refine ⟨fun id f hcard => ?_, ops ++ ops', by rw [hops', hops, List.append_assoc], fun id f => ?_⟩
  · rw [hafter id f (Option.isSome_iff_ne_none.mp hcard)]
    exact h.kept id f hcard
  · rw [auditRows_append, auditRows_eq_nil hplain, List.append_nil, hrows]
    cases hcard : d.cardPrice id f with
    | none => rfl
    | some cents => rw [hafter id f (by rw [hcard]; exact Option.some_ne_none _)]

theorem Audited.refl (d : Db) : Audited d d where
  kept _ _ h := h
  rows := ⟨[], (List.append_nil _).symm, fun _ _ => (between_self _).symm⟩

theorem Unpriced.audited (h : Unpriced d d') : Audited d d' := (Audited.refl d).then h

/-! ## Single writes -/

/-- Other tables have no prices. -/
theorem cardPrice_set {k : Kind} {rows : List (Row k)} (hk : k ≠ .product) :
    (d.set k rows).cardPrice id f = d.cardPrice id f := by
  unfold Db.cardPrice Db.find
  rw [Db.get_set_ne _ hk.symm]

/-- An edit of a card, which keeps its id. -/
theorem cardPrice_edit (d : Db) (i : String) {g : Product → Product} (hg : ∀ p, (g p).id = p.id) :
    (d.edit .product i g).cardPrice id f =
      if id = i then (d.find .product id).map fun p => Product.price (g p) f
      else d.cardPrice id f := by
  have hsame : ((fun r => decide (rowId .product r = id)) ∘
      fun r : Row .product => if rowId .product r = i then g r else r) =
        fun r => decide (rowId .product r = id) := by
    funext r
    have hid : rowId .product (if rowId .product r = i then g r else r) = rowId .product r := by
      split_ifs
      · exact hg r
      · rfl
    simp only [Function.comp_apply, hid]
  unfold Db.cardPrice Db.find Db.edit
  rw [Db.get_set_same, List.find?_map, hsame]
  cases hfind : (d.get .product).find? fun r => decide (rowId .product r = id) with
  | none => split_ifs <;> rfl
  | some r =>
    have hr : rowId .product r = id := by simpa using List.find?_some hfind
    simp only [Option.map_some, hr]
    split_ifs <;> rfl

/-- An edit that leaves the prices. -/
theorem cardPrice_edit_same (d : Db) (i : String) {g : Product → Product}
    (hg : ∀ p, (g p).id = p.id) (hprice : ∀ p, (g p).price = p.price) :
    (d.edit .product i g).cardPrice id f = d.cardPrice id f := by
  rw [cardPrice_edit d i hg]
  simp only [hprice]
  exact ite_self _

/-- A new card changes no price of a card that was there. -/
theorem cardPrice_insert {cents : Option Int} (p : Product) (h : d.cardPrice id f = some cents) :
    (d.insert .product [p]).cardPrice id f = some cents := by
  obtain ⟨q, hq, hcents⟩ := Option.map_eq_some_iff.mp h
  unfold Db.cardPrice Db.find Db.insert
  unfold Db.find at hq
  rw [Db.get_set_same, List.find?_append, hq]
  exact congrArg some hcents

/-- An appended ledger row changes no price. -/
theorem cardPrice_applyOperation (d : Db) (op : Operation) (stamp : String) :
    (d.applyOperation op stamp).cardPrice id f = d.cardPrice id f := by
  have hinsert : (d.insert .operation [op]).cardPrice id f = d.cardPrice id f :=
    cardPrice_set (by decide)
  have hid : ∀ p, (Product.bump op.qtyDelta stamp p).id = p.id := fun _ => rfl
  have hproduct : ((d.insert .operation [op]).edit .product op.productId
      (Product.bump op.qtyDelta stamp)).cardPrice id f = d.cardPrice id f := by
    rw [cardPrice_edit_same _ _ hid fun _ => rfl, hinsert]
  unfold Db.applyOperation
  cases op.batchId with
  | none => exact hproduct
  | some b => exact (cardPrice_set (by decide)).trans hproduct

/-- What `record_operation` adds: one ledger row, and no price changes. -/
theorem Recorded.adds {args : OperationArgs} {op : Operation} (h : Recorded env args w op w') :
    w'.operations = w.operations ++ [op] ∧ (op.type = args.type ∧ op.productId = args.productId ∧
      op.payload = args.payload) ∧ ∀ id f, w'.cardPrice id f = w.cardPrice id f := by
  obtain ⟨createdAt, day, -, -, hop⟩ := h.row
  obtain ⟨stamp, rfl⟩ := h.next
  refine ⟨(applyOperation_get w op stamp).1, ?_, fun _ _ => cardPrice_applyOperation ..⟩
  rw [hop]
  exact ⟨rfl, rfl, rfl⟩

theorem Recorded.unpriced {args : OperationArgs} {op : Operation} (h : Recorded env args w op w')
    (htype : args.type ≠ "price_change") : Unpriced w w' := by
  obtain ⟨hops, ⟨hop, -⟩, hprice⟩ := h.adds
  refine ⟨fun id f cents hcents => by rw [hprice, hcents], [op], hops, fun o ho => ?_⟩
  rw [List.mem_singleton.mp ho, hop]
  exact htype

/-! ## An edit of a card -/

theorem textIn_key (f : PriceField) : textIn (.str f.key) = some f.key := rfl

theorem centsOf_cents (cents : Option Int) : centsOf (cents.elim .null .int) = some cents := by
  cases cents <;> rfl

theorem PriceField.key_injective : Function.Injective PriceField.key := by
  intro f g h
  cases f <;> cases g <;> first | rfl | exact absurd h (by decide)

/-- A `price_change` row with these fields in its payload. -/
theorem priceChangeOf_eq (id : String) (f : PriceField) {o : Operation} {i : String} {g : PriceField} {old new : Option Int}
    (htype : o.type = "price_change") (hproduct : o.productId = i)
    (hpayload : o.payload = .obj [("field", .str g.key), ("old_cents", old.elim .null .int),
      ("new_cents", new.elim .null .int)]) :
    priceChangeOf id f o = if i = id ∧ g = f then some (old, new) else none := by
  have hfield : valueAt "field" [("field", Value.str g.key), ("old_cents", old.elim .null .int),
      ("new_cents", new.elim .null .int)] = .str g.key := rfl
  have hold : valueAt "old_cents" [("field", Value.str g.key), ("old_cents", old.elim .null .int),
      ("new_cents", new.elim .null .int)] = old.elim .null .int := rfl
  have hnew : valueAt "new_cents" [("field", Value.str g.key), ("old_cents", old.elim .null .int),
      ("new_cents", new.elim .null .int)] = new.elim .null .int := rfl
  unfold priceChangeOf
  rw [hpayload]
  simp only [hfield, hold, hnew, textIn_key, centsOf_cents, htype, hproduct, true_and,
    Option.some.injEq, PriceField.key_injective.eq_iff]
  rfl

/-- The audit rows of an edit: one for each of the fields. -/
theorem stages_recordPriceChanges {old new : Product} (fs : List PriceField) :
    Stages w (recordPriceChanges env old new fs) fun _ w' =>
      (∀ id f, w'.cardPrice id f = w.cardPrice id f) ∧
      ∃ ops, w'.operations = w.operations ++ ops ∧ ∀ id f, auditRows id f ops =
        if old.id = id then (fs.filter (· = f)).map fun f => (old.price f, new.price f) else [] := by
  induction fs generalizing w with
  | nil =>
    refine stages_pure ⟨fun _ _ => rfl, [], (List.append_nil _).symm, fun id f => ?_⟩
    exact (ite_self _).symm
  | cons g fs ih =>
    refine stages_bind (stages_recordOperation _) fun op w₁ hop => ih.mono fun _ w₂ h => ?_
    obtain ⟨hops, ⟨htype, hproduct, hpayload⟩, hprice⟩ := hop.adds
    obtain ⟨hprice', ops, hops', hrows⟩ := h
    refine ⟨fun id f => (hprice' id f).trans (hprice id f), op :: ops, ?_, fun id f => ?_⟩
    · rw [hops', hops, List.append_assoc, List.singleton_append]
    · have hrow := priceChangeOf_eq id f htype hproduct hpayload
      rw [auditRows_cons, hrow, hrows]
      by_cases hid : old.id = id
      · by_cases hg : g = f
        · simp [priceChangeArgs, hid, hg]
        · simp [priceChangeArgs, hid, hg]
      · simp [priceChangeArgs, hid]

theorem filter_all (f : PriceField) : PriceField.all.filter (· = f) = [f] := by
  cases f <;> rfl

/-- Among the changed prices is `f` at most once, and it is there when it has changed. -/
theorem changedPrices_rows (old new : Product) (f : PriceField) :
    ((changedPrices old new).filter (· = f)).map (fun f => (old.price f, new.price f)) =
      diff (old.price f) (new.price f) := by
  unfold changedPrices
  rw [List.filter_comm, filter_all]
  by_cases h : old.price f = new.price f
  · simp [h, diff_self]
  · simp [h, diff_of_ne h]

theorem stages_recordEdited {old : Product} (fields : List String) :
    Stages w (recordEdited env old fields) fun _ w' => Unpriced w w' := by
  unfold recordEdited
  split
  · exact stages_pure (.refl w)
  · refine stages_bind (stages_recordOperation _) fun op w₁ hop => stages_pure ?_
    exact hop.unpriced (show "product_edited" ≠ "price_change" by decide)

theorem updateCheck_ok {productId : String} {form : ProductForm} {old : Product}
    (h : updateCheck d productId form = .ok old) : d.find .product productId = some old := by
  unfold updateCheck at h
  cases hfind : d.find .product productId with
  | none => rw [hfind] at h; cases h
  | some p =>
    rw [hfind] at h
    simp only at h
    split_ifs at h
    · cases h
    · obtain ⟨-, -, h⟩ := Lib.Fallible.bind_ok_iff.mp h
      cases h
      rfl

theorem touch_price (stamp : String) (p : Product) : (p.touch stamp).price = p.price := by
  funext f
  cases f <;> rfl

/-- The prices of a card replaced, with one audit row for each that has changed. -/
theorem audited_edit {old new : Product} {g : Product → Product} {ops : List Operation}
    (hfind : d.find .product old.id = some old) (hid : ∀ p, (g p).id = p.id)
    (hnew : (g old).price = new.price)
    (hprice : ∀ id f, w.cardPrice id f = (d.edit .product old.id g).cardPrice id f)
    (hops : w.operations = d.operations ++ ops)
    (hrows : ∀ id f, auditRows id f ops = if old.id = id then
      ((changedPrices old new).filter (· = f)).map fun f => (old.price f, new.price f) else []) :
    Audited d w := by
  have hcard : ∀ id f, w.cardPrice id f =
      if id = old.id then some (new.price f) else d.cardPrice id f := by
    intro id f
    rw [hprice, cardPrice_edit d old.id hid]
    split_ifs with h
    · rw [h, hfind, Option.map_some, hnew]
    · rfl
  have hold : ∀ f, d.cardPrice old.id f = some (old.price f) := by
    intro f
    rw [Db.cardPrice, hfind, Option.map_some]
  refine ⟨fun id f h => ?_, ops, hops, fun id f => ?_⟩
  · rw [hcard]
    split_ifs
    · rfl
    · exact h
  · rw [hrows, hcard]
    by_cases h : id = old.id
    · rw [if_pos h, if_pos h.symm, h, hold]
      exact changedPrices_rows ..
    · rw [if_neg h, if_neg (Ne.symm h)]
      exact (between_self _).symm

/-- **An edit of a card** logs every price it changes. -/
theorem closes_updateProduct_audited (hd : d.Ok) (productId : String) (form : ProductForm) :
    Closes d d Outcome.No (updateProduct env productId form) fun _ d' =>
      Audited d d' ∧ d'.Ok := by
  unfold updateProduct
  refine closes_read (closes_orAnswer answers_updateCheck fun old hold => ?_)
  have hfind := updateCheck_ok hold
  have hid : old.id = productId := (Db.mem_of_find hfind).2
  dsimp only
  split_ifs
  · exact closes_idle id ⟨.refl d, hd⟩
  refine closes_bind stages_utcnowIso ?_
  rintro stamp w₀ ⟨-, hw₀⟩
  rw [hw₀]
  refine closes_stage (closes_recover ?_ fun e y h => closes_rollbackWith h trivial)
  refine closes_bind (stages_recordPriceChanges _) fun _ w' hprices => ?_
  refine closes_bind (stages_recordEdited _) fun _ w'' hedited => ?_
  refine closes_done fun hok => ⟨?_, hok⟩
  obtain ⟨hprice, ops, hops, hrows⟩ := hprices
  have htouch : ∀ p, ((form.onto env p).touch stamp).id = p.id := fun p =>
    (Product.touch_id ..).trans (ProductForm.onto_id env form p)
  rw [← hid] at hfind hprice
  have haudited : Audited d w' :=
    audited_edit hfind htouch (touch_price stamp (form.onto env old)) hprice hops hrows
  exact haudited.then hedited

/-! ## A receipt -/

theorem setPrice_price (p : Product) (g f : PriceField) (cents : Option Int) :
    (p.setPrice g cents).price f = if g = f then cents else p.price f := by
  cases g <;> cases f <;> rfl

/-- What the entered prices leave: on the card with the prices `q`, one audit row for each that
changes, and no other card has changed. -/
theorem stages_applyEntered {product : Product} {es : List (PriceField × Option Int)}
    (hnodup : (es.map Prod.fst).Nodup) {q : PriceField → Option Int}
    (hq : ∀ f, w.cardPrice product.id f = some (q f))
    (hsame : ∀ e ∈ es, q e.1 = product.price e.1) :
    Stages w (applyEntered env product es) fun _ w' => ∃ q' : PriceField → Option Int,
      (∀ f, w'.cardPrice product.id f = some (q' f)) ∧ (∀ f, f ∉ es.map Prod.fst → q' f = q f) ∧
      (∀ id f, id ≠ product.id → w'.cardPrice id f = w.cardPrice id f) ∧
      ∃ ops, w'.operations = w.operations ++ ops ∧ ∀ id f, auditRows id f ops =
        if product.id = id then diff (q f) (q' f) else [] := by
  induction es generalizing w q with
  | nil =>
    refine stages_pure ⟨q, hq, fun _ _ => rfl, fun _ _ _ => rfl, [], (List.append_nil _).symm, ?_⟩
    intro id f
    rw [diff_self]
    exact (ite_self _).symm
  | cons e es ih =>
    obtain ⟨g, cents⟩ := e
    obtain ⟨hg, hnodup⟩ := List.nodup_cons.mp hnodup
    have hrest : ∀ e ∈ es, q e.1 = product.price e.1 :=
      fun e he => hsame e (List.mem_cons_of_mem _ he)
    have hold : q g = product.price g := hsame _ List.mem_cons_self
    unfold applyEntered
    split_ifs with hskip
    · refine (ih hnodup hq hrest).mono fun _ w' h => ?_
      obtain ⟨q', hq', hkept, hothers, hops⟩ := h
      exact ⟨q', hq', fun f hf => hkept f fun h => hf (List.mem_cons_of_mem _ h), hothers, hops⟩
    refine stages_bind (stages_recordOperation _) fun op w₁ hop => ?_
    refine stages_bind stages_utcnowIso ?_
    rintro stamp w₂ ⟨-, hw₂⟩
    rw [hw₂]
    obtain ⟨hops₁, ⟨htype, hproduct, hpayload⟩, hprice₁⟩ := hop.adds
    have htouch : ∀ p : Product, ((p.setPrice g cents).touch stamp).id = p.id := fun p =>
      Product.setPrice_id p g cents
    -- the prices after this one
    let q₁ : PriceField → Option Int := fun f => if g = f then cents else q f
    have hq₁ : ∀ f, (w₁.edit .product product.id fun p =>
        (p.setPrice g cents).touch stamp).cardPrice product.id f = some (q₁ f) := by
      intro f
      have hcard := hprice₁ product.id f
      rw [hq] at hcard
      obtain ⟨p, hp, hpf⟩ := Option.map_eq_some_iff.mp hcard
      rw [cardPrice_edit w₁ product.id htouch, if_pos rfl, hp]
      show some ((p.setPrice g cents).price f) = _
      rw [setPrice_price, hpf]
    have hrest₁ : ∀ e ∈ es, q₁ e.1 = product.price e.1 := by
      intro e he
      have hne : g ≠ e.1 := fun heq => hg (List.mem_map.mpr ⟨e, he, heq.symm⟩)
      exact (if_neg hne).trans (hrest e he)
    refine stages_stage ((ih hnodup hq₁ hrest₁).mono fun _ w' h => ?_)
    obtain ⟨q', hq', hkept, hothers, ops, hops, hrows⟩ := h
    refine ⟨q', hq', fun f hf => ?_, fun id f hid => ?_, op :: ops, ?_, fun id f => ?_⟩
    · rw [List.map_cons, List.mem_cons, not_or] at hf
      rw [hkept f hf.2]
      exact if_neg (Ne.symm hf.1)
    · rw [hothers id f hid, cardPrice_edit w₁ product.id htouch, if_neg hid, hprice₁]
    · rw [hops]
      show w₁.operations ++ ops = _
      rw [hops₁, List.append_assoc, List.singleton_append]
    · have hrow := priceChangeOf_eq id f htype hproduct hpayload
      rw [auditRows_cons, hrow, hrows]
      by_cases hid : product.id = id
      · by_cases hgf : g = f
        · have hne : q g ≠ cents := by
            rw [hold]
            exact fun h => hskip (.inr h.symm)
          have hlast : q' g = cents := by
            rw [hkept g hg]
            exact if_pos rfl
          rw [← hgf, hlast, diff_of_ne hne, hold]
          simp [enteredPriceArgs, hid, q₁, diff_self]
        · simp [enteredPriceArgs, hid, hgf, q₁]
      · simp [enteredPriceArgs, hid]

theorem nodup_enteredPrices (d : Db) (form : ReceiptForm) :
    ((enteredPrices d form).map Prod.fst).Nodup := by
  have hfields : ∀ currency, (cardPriceFields currency).cost ≠ (cardPriceFields currency).sale := by
    intro currency
    unfold cardPriceFields
    split_ifs <;> decide
  exact List.nodup_cons.mpr ⟨by simpa using hfields _, List.nodup_singleton _⟩

/-- A new card, with its `product_created` row. -/
theorem Unpriced.insert_product (d : Db) (p : Product) : Unpriced d (d.insert .product [p]) where
  same _ _ _ h := cardPrice_insert p h
  rows := ⟨[], (List.append_nil _).symm, fun _ h => absurd h List.not_mem_nil⟩

theorem Unpriced.insert_batch (d : Db) (b : Batch) : Unpriced d (d.insert .batch [b]) where
  same _ _ _ h := (cardPrice_set (by decide)).trans h
  rows := ⟨[], (List.append_nil _).symm, fun _ h => absurd h List.not_mem_nil⟩

theorem stages_receiptCard (hd : d.Ok) (form : ReceiptForm) :
    Stages d (receiptCard env form) fun _ w => Audited d w := by
  unfold receiptCard
  refine stages_read ?_
  split
  · next product hactive =>
    have hmem : product ∈ d.products := List.mem_of_find?_eq_some hactive
    have hfind : d.find .product product.id = some product :=
      Lib.Overlay.find_key (hd.nodup .product) hmem
    have hprice : ∀ f, d.cardPrice product.id f = some (product.price f) := fun f => by
      rw [Db.cardPrice, hfind, Option.map_some]
    refine stages_bind (stages_applyEntered (nodup_enteredPrices d form) hprice fun _ _ => rfl)
      fun _ w h => stages_pure ?_
    obtain ⟨q, hq, -, hothers, ops, hops, hrows⟩ := h
    refine ⟨fun id f hid => ?_, ops, hops, fun id f => ?_⟩
    · by_cases h : id = product.id
      · rw [h, hq]
        rfl
      · rwa [hothers id f h]
    · rw [hrows]
      by_cases h : id = product.id
      · rw [if_pos h.symm, h, hprice, hq]
        rfl
      · rw [if_neg (Ne.symm h), hothers id f h]
        exact (between_self _).symm
  · refine stages_bind stages_utcnowIso ?_
    rintro now w ⟨-, hw⟩
    rw [hw]
    refine stages_stage (stages_bind (stages_recordOperation _) fun op w' hop => stages_pure ?_)
    have hcreated : Unpriced _ w' :=
      hop.unpriced (show "product_created" ≠ "price_change" by decide)
    exact ((Unpriced.insert_product d _).trans hcreated).audited

theorem stages_receiptTarget (form : ReceiptForm) (product : Product) (day : Date) :
    Stages w (receiptTarget env form product day) fun _ w' => Unpriced w w' := by
  unfold receiptTarget
  refine stages_flush' fun _ => ?_
  split_ifs
  · refine stages_bind stages_utcnowIso ?_
    rintro now w₁ ⟨-, hw₁⟩
    rw [hw₁]
    exact stages_read (stages_stage (stages_pure (.insert_batch w _)))
  · refine stages_read ?_
    split
    · exact stages_pure (.refl w)
    · split_ifs <;> exact stages_pure (.refl w)

/-- **A receipt** logs every price it changes on a card that was there. -/
theorem closes_registerReceipt_audited (hd : d.Ok) (form : ReceiptForm) :
    Closes d d Outcome.No (registerReceipt env form) fun _ d' => Audited d d' ∧ d'.Ok := by
  unfold registerReceipt
  refine closes_bind (stages_parseOpDate _) ?_
  rintro parsed _ rfl
  refine closes_read (closes_orAnswer answers_stop fun _ _ => ?_)
  refine closes_bind (stages_dayOrToday _) ?_
  rintro day w ⟨-, hw⟩
  rw [hw]
  refine closes_bind (stages_receiptCard hd form) fun product w₁ hcard => ?_
  refine closes_bind (stages_receiptTarget form product day) fun target w₂ htarget => ?_
  cases target with
  | none => exact closes_rollback trivial
  | some batchId =>
    refine closes_bind (stages_recordOperation _) fun op w₃ hop => ?_
    have hreceipt : Unpriced w₂ w₃ := hop.unpriced (show "receipt" ≠ "price_change" by decide)
    refine closes_recover (closes_done fun hok => ?_) fun e y h => closes_rollbackWith h trivial
    exact ⟨hcard.then (htarget.trans hreceipt), hok⟩

/-- A new card, which logs nothing. -/
theorem closes_createProduct_audited (form : ProductForm) :
    Closes d d Outcome.No (createProduct env form) fun _ d' => Audited d d' ∧ d'.Ok := by
  unfold createProduct recordOperationCommit
  refine closes_read (closes_orAnswer answers_stop fun _ _ => ?_)
  refine closes_bind stages_utcnowIso ?_
  rintro now w ⟨-, hw⟩
  rw [hw]
  refine closes_stage (closes_recover (closes_map ?_) fun e y h => closes_rollbackWith h trivial)
  refine closes_bind (stages_recordOperation _) fun op w' hop => closes_commit id fun hok => ?_
  have hcreated : Unpriced _ w' :=
    hop.unpriced (show "product_created" ≠ "price_change" by decide)
  exact ⟨((Unpriced.insert_product d _).trans hcreated).audited, (Db.check_iff _).mp hok⟩

/-! ## The order of the rows -/

/-- The new ledger rows are the device's, and their numbers go up from above all it had. -/
structure Numbered (device : String) (old new : List Operation) : Prop where
  own : ∀ o ∈ new, o.deviceId = device
  order : (new.map Operation.seq).Pairwise (· < ·)
  above : ∀ o ∈ old, o.deviceId = device → ∀ o' ∈ new, o.seq < o'.seq

theorem Numbered.nil (device : String) (old : List Operation) : Numbered device old [] where
  own _ h := absurd h List.not_mem_nil
  order := .nil
  above _ _ _ _ h := absurd h List.not_mem_nil

theorem Numbered.append {device : String} {old new new' : List Operation}
    (h : Numbered device old new) (h' : Numbered device (old ++ new) new') :
    Numbered device old (new ++ new') where
  own o ho := (List.mem_append.mp ho).elim (h.own o) (h'.own o)
  order := by
    rw [List.map_append, List.pairwise_append]
    refine ⟨h.order, h'.order, fun n hn n' hn' => ?_⟩
    obtain ⟨o, ho, rfl⟩ := List.mem_map.mp hn
    obtain ⟨o', ho', rfl⟩ := List.mem_map.mp hn'
    exact h'.above o (List.mem_append_right _ ho) (h.own o ho) o' ho'
  above o ho hdevice o' ho' := (List.mem_append.mp ho').elim (h.above o ho hdevice o')
    (h'.above o (List.mem_append_left _ ho) hdevice o')

/-- One write. -/
theorem Scoped.numbered {sc : Scope} (h : Scoped sc env d d') :
    ∃ ops, d'.operations = d.operations ++ ops ∧ Numbered env.deviceId d.operations ops := by
  have hsame : d'.operations = d.operations →
      ∃ ops, d'.operations = d.operations ++ ops ∧ Numbered env.deviceId d.operations ops :=
    fun h => ⟨[], by rw [h, List.append_nil], .nil ..⟩
  cases h with
  | born k row fresh hborn =>
    have hk : Kind.operation ≠ k := fun heq => by subst heq; exact hborn
    exact hsame (Db.get_insert_ne d hk _)
  | edited k i g hedit =>
    exact hsame (get_edit_of_eq (l := .operation) fun heq r hr => by subst heq; exact hedit r hr)
  | operation op stamp fresh hborn hplain hby =>
    refine ⟨[op], (applyOperation_get d op stamp).1, fun o ho => ?_, List.pairwise_singleton _ _,
      fun o ho hdevice o' ho' => ?_⟩
    · rw [List.mem_singleton.mp ho, hby.device]
    · rw [List.mem_singleton.mp ho', hby.seq]
      exact lt_nextSeq (List.mem_map.mpr ⟨o, ho, by rw [hdevice]⟩)
  | cash =>
    have hk : Kind.operation ≠ .cashMovement := by decide
    exact hsame (Db.get_insert_ne d hk _)

/-- The writes of a call. -/
theorem numbered_of_writes {sc : Scope} (h : Relation.ReflTransGen (Scoped sc env) d d') :
    ∃ ops, d'.operations = d.operations ++ ops ∧ Numbered env.deviceId d.operations ops := by
  induction h with
  | refl => exact ⟨[], (List.append_nil _).symm, .nil ..⟩
  | tail _ hwrite ih =>
    obtain ⟨ops, hops, hnumbered⟩ := ih
    obtain ⟨ops', hops', hnumbered'⟩ := hwrite.numbered
    rw [hops] at hops' hnumbered'
    exact ⟨ops ++ ops', by rw [hops', List.append_assoc], hnumbered.append hnumbered'⟩

/-- One call. -/
theorem Call.numbered (env : Env) (d : Db) (call : Call) :
    ∃ ops, (call.exec env d).operations = d.operations ++ ops ∧
      Numbered env.deviceId d.operations ops :=
  have hreaches : Relation.ReflTransGen (Scoped (call.scope fun _ => True) env) d _ :=
    Call.reaches env d call fun _ _ => .inr trivial
  numbered_of_writes hreaches

/-! ## Runs -/

/-- A receipt, a new card or an edit of one. -/
def Call.OnCards : Call → Prop
  | .receipt _ | .createProduct _ | .updateProduct .. => True
  | _ => False

/-- The successive prices of a card in a run, from the first state that has the card. -/
def pricesAlong (id : String) (f : PriceField) (d : Db) : List Request → List (Option Int)
  | [] => (d.cardPrice id f).toList
  | r :: run => (d.cardPrice id f).toList ++ pricesAlong id f (r.exec d) run

/-- **A call on the cards** logs every price it changes, and nothing else. -/
theorem Call.audited {call : Call} (hd : d.Ok) (h : call.OnCards) :
    Audited d (call.exec env d) ∧ (call.exec env d).Ok := by
  have hall : ∀ {α : Type} {x : Act (Outcome α)},
      Closes d d Outcome.No x (fun _ d' => Audited d d' ∧ d'.Ok) →
        Audited d (x.exec d) ∧ (x.exec d).Ok := by
    intro α x hx
    rcases exec_of_closes hx with hsame | ⟨_, -, hdone⟩
    · rw [hsame]
      exact ⟨.refl d, hd⟩
    · exact hdone
  cases call with
  | receipt form => exact hall (closes_registerReceipt_audited hd form)
  | createProduct form => exact hall (closes_createProduct_audited form)
  | updateProduct id form => exact hall (closes_updateProduct_audited hd id form)
  | softDeleteProduct | quickDeleteProduct | restoreProduct | updateBatch | sale | saleReturn
  | writeoff | correction | transfer | cash | addWarehouse | updateWarehouse | restoreWarehouse
  | softDeleteWarehouse | createCustomer | updateCustomer | addEntry | updateEntry | staged =>
    exact h.elim

theorem pricesAlong_head {cents : Option Int} (run : List Request)
    (h : d.cardPrice id f = some cents) : (pricesAlong id f d run).head? = some cents := by
  cases run <;> simp [pricesAlong, h]

theorem pricesAlong_last {cents : Option Int} : ∀ {run : List Request} {d : Db},
    (runAll d run).cardPrice id f = some cents →
      (pricesAlong id f d run).getLast? = some cents
  | [], d, h => by
    have hd : d.cardPrice id f = some cents := h
    simp [pricesAlong, hd]
  | r :: run, d, h => by
    have hlast : (pricesAlong id f (r.exec d) run).getLast? = some cents := pricesAlong_last h
    rw [pricesAlong, List.getLast?_append, hlast]
    rfl

/-- The log of a run. -/
theorem runAll_audited {device : String} {run : List Request} (hd : d.Ok)
    (hrun : ∀ r ∈ run, r.call.OnCards ∧ r.env.deviceId = device) :
    ∃ ops, (runAll d run).operations = d.operations ++ ops ∧ Numbered device d.operations ops ∧
      ∀ id f, auditRows id f ops = changes (pricesAlong id f d run) := by
  induction run generalizing d with
  | nil =>
    refine ⟨[], (List.append_nil _).symm, .nil .., fun id f => ?_⟩
    unfold pricesAlong
    cases d.cardPrice id f <;> rfl
  | cons r run ih =>
    obtain ⟨hcall, hdevice⟩ := hrun r List.mem_cons_self
    obtain ⟨haudited, hok⟩ : Audited d (r.exec d) ∧ (r.exec d).Ok := Call.audited hd hcall
    obtain ⟨ops, hops, hnumbered⟩ := Call.numbered r.env d r.call
    obtain ⟨ops', hops', hnumbered', hrows'⟩ :=
      ih (d := r.exec d) hok fun r' hr' => hrun r' (List.mem_cons_of_mem _ hr')
    obtain ⟨added, hadded, hrows⟩ := haudited.rows
    obtain rfl : added = ops := List.append_cancel_left (hadded.symm.trans hops)
    have hops₁ : (r.exec d).operations = d.operations ++ added := hops
    rw [hdevice] at hnumbered
    rw [hops₁] at hops' hnumbered'
    refine ⟨added ++ ops', ?_, hnumbered.append hnumbered', fun id f => ?_⟩
    · rw [← List.append_assoc]
      exact hops'
    · rw [auditRows_append, hrows, hrows', pricesAlong]
      cases hcard : d.cardPrice id f with
      | none => rfl
      | some cents =>
        obtain ⟨cents', hcents'⟩ := Option.isSome_iff_exists.mp
          (haudited.kept id f (by rw [hcard]; rfl))
        rw [hcents']
        exact (changes_cons cents cents' (pricesAlong_head run hcents')).symm

/-- **The price audit has no gaps.** Along a run of receipts and edits of the cards the new audit
rows of a price, in the order of their numbers, are the log of its values: one row for each change,
from the price on the card at its first state to the price that it has now. -/
theorem price_chain (start : Database) (device : String) (run : List Request)
    (hrun : ∀ r ∈ run, r.call.OnCards ∧ r.env.deviceId = device) :
    ∃ ops, (runAll start.db run).operations = start.db.operations ++ ops ∧
      Numbered device start.db.operations ops ∧
      ∀ id f, auditRows id f ops = changes (pricesAlong id f start.db run) ∧
        ∀ now ∈ (runAll start.db run).cardPrice id f,
          ∃ first, (pricesAlong id f start.db run).head? = some first ∧
            Links first (auditRows id f ops) now := by
  obtain ⟨ops, hops, hnumbered, hrows⟩ := runAll_audited start.ok hrun
  refine ⟨ops, hops, hnumbered, fun id f => ⟨hrows id f, fun now hnow => ?_⟩⟩
  have hlast := pricesAlong_last hnow
  cases hhead : (pricesAlong id f start.db run).head? with
  | none =>
    rw [List.head?_eq_none_iff.mp hhead] at hlast
    cases hlast
  | some first =>
    rw [hrows]
    exact ⟨first, rfl, links_changes hhead hlast⟩

/-- A card without prices. -/
def unpricedCard : Db where
  products := [{ blankProduct "p" "" with code := some "c", name := "n" }]

/-- An edit that enters a purchase price. -/
def enterCost (costRaw : String) : Request where
  env := Env.sample
  call := .updateProduct "p" { code := "c", name := "n", category := "", costRaw, saleRaw := "" }

/-- A price is set, kept and cleared: two rows. -/
theorem price_chain_cleared : ∃ ops,
    (runAll unpricedCard (["1,50", "1.5", ""].map enterCost)).operations = unpricedCard.operations ++ ops ∧
      auditRows "p" .cost ops = [(none, some 150), (some 150, none)] := by
  have hok : unpricedCard.Ok := by decide
  have hrun : ∀ r ∈ ["1,50", "1.5", ""].map enterCost,
      r.call.OnCards ∧ r.env.deviceId = Env.sample.deviceId := by
    intro r hr
    obtain ⟨costRaw, -, rfl⟩ := List.mem_map.mp hr
    exact ⟨trivial, rfl⟩
  obtain ⟨ops, hops, -, hrows⟩ := price_chain ⟨unpricedCard, hok⟩ Env.sample.deviceId _ hrun
  refine ⟨ops, hops, (hrows "p" .cost).1.trans ?_⟩
  change changes (pricesAlong "p" .cost unpricedCard (["1,50", "1.5", ""].map enterCost)) = _
  decide

end MyOriShop
