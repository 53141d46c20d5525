import MyOriShop.Reports
import MyOriShop.SaleBooks

/-!
# Agreement: the profit report against the cash report (`reports.py`, `finance_reports.py`)

The profit report reads a row's currency from the warehouse its batch lies in now; a cash row keeps
the currency it was written with. The two agree as long as no warehouse that goods were sold from
changes its currency.

* `Placed d batchId currency`: the batch lies in a warehouse of that currency.
* `InCurrency saleId currency d`: the lines of a sale are placed in one currency, and its cash rows
  are in that currency.
* `KeepsSoldCurrencies d r`: an edit of a warehouse leaves the currency of every warehouse that
  goods were sold from.

Results:
* `Placed.step`, `InCurrency.step`: a request that keeps these currencies keeps a sale in its own.
* `runAll_agreement`: the net revenue of a period and a currency is the sum of its cash rows of
  categories `sale` and `return`, and a sale is credited and refunded in one currency.
-/

namespace MyOriShop

open Lib.Sums Lib.IsoDate Lib.Fallible Lib.Transaction
open Relation (ReflTransGen)

variable {env : Env} {d d' : Db} {saleId currency : String} {r : Request}

/-! ## Where goods were sold from -/

/-- The row belongs to a sale: it is a `sale` or a `return`. -/
def Operation.OfSales (o : Operation) : Prop := o.type = "sale" ∨ o.type = "return"

instance (o : Operation) : Decidable o.OfSales := inferInstanceAs (Decidable (_ ∨ _))

theorem decide_ofSales (o : Operation) :
    decide o.OfSales = (o.type = "sale" || o.type = "return") := by
  rw [Bool.eq_iff_iff, decide_eq_true_iff, Bool.or_eq_true, decide_eq_true_iff, decide_eq_true_iff]
  rfl

/-- Goods were sold from the warehouse. -/
def SoldFrom (d : Db) (warehouseId : String) : Prop :=
  ∃ o ∈ d.operations, o.OfSales ∧ ∃ b ∈ d.batches, o.batchId = some b.id ∧
    b.warehouseId = warehouseId

/-- The request is no edit that changes the currency of a warehouse goods were sold from. -/
def KeepsSoldCurrencies (d : Db) (r : Request) : Prop :=
  r.call.relabels = true → ∀ w ∈ d.warehouses, SoldFrom d w.id →
    ∀ w' ∈ (r.exec d).warehouses, w'.id = w.id → w'.currency = w.currency

/-- The batch lies in a warehouse of the currency. -/
def Placed (d : Db) (batchId currency : String) : Prop :=
  ∃ b ∈ d.batches, b.id = batchId ∧ ∃ w ∈ d.warehouses, w.id = b.warehouseId ∧
    w.currency = currency

/-- Only an edit of a warehouse changes a currency. -/
theorem writes_warehouse {sc : Scope} (hsteady : sc.steady) (h : ReflTransGen (Scoped sc env) d d')
    {w : Warehouse} (hw : w ∈ d.warehouses) :
    ∃ w' ∈ d'.warehouses, w'.id = w.id ∧ w'.currency = w.currency := by
  have hget : ∀ {x y : Db}, y.get .warehouse = x.get .warehouse → y.warehouses = x.warehouses :=
    fun h => h
  induction h with
  | refl => exact ⟨w, hw, rfl, rfl⟩
  | @tail x y _ hstep ih =>
    obtain ⟨w', hw', hid, hcurrency⟩ := ih
    cases hstep with
    | born k row fresh hborn hk =>
      exact ⟨w', kept_get_insert (l := .warehouse) hw', hid, hcurrency⟩
    | edited k id f hedit hsteady' =>
      by_cases hk : k = .warehouse
      · subst hk
        refine ⟨_, List.mem_map_of_mem hw', ?_, ?_⟩
        · split_ifs
          · exact (hedit w' hw').trans hid
          · exact hid
        · split_ifs
          · exact (hsteady' hsteady w' hw').trans hcurrency
          · exact hcurrency
      · have hsame : (x.edit k id f).get .warehouse = x.get .warehouse :=
          get_edit_of_eq fun heq => absurd heq hk
        exact ⟨w', hget hsame ▸ hw', hid, hcurrency⟩
    | operation op stamp fresh hborn hop =>
      have hsame : (x.applyOperation op stamp).get .warehouse = x.get .warehouse :=
        applyOperation_get_ne x op stamp (by decide) (by decide) (by decide)
      exact ⟨w', hget hsame ▸ hw', hid, hcurrency⟩
    | cash m fresh hborn hm => exact ⟨w', hw', hid, hcurrency⟩

theorem Returned.warehouses {form : ReturnForm} {origin op : Operation} {day : Date}
    {m : Option CashMovement} (h : Returned env form d origin saleId op day m d') :
    d'.warehouses = d.warehouses := by
  obtain ⟨batchId, w, w', hbatch, hop, hrefund⟩ := h.rows
  have hposted : w'.warehouses = w.warehouses :=
    hop.posted.rest .warehouse (by decide) (by decide) (by decide)
  have hw : w.warehouses = d.warehouses := by cases hbatch <;> rfl
  cases hrefund with
  | nothing => exact hposted.trans hw
  | cash _ _ hm =>
    rw [hm.next]
    exact hposted.trans hw

theorem Sold.warehouses {form : SaleForm} {plan : SalePlan} {sale : Sale} {day : Date}
    {ops : List Operation} {m : CashMovement} (h : Sold env form d plan sale day ops m d') :
    d'.warehouses = d.warehouses := by
  obtain ⟨w, hops, hcash⟩ := h.rows
  rw [hcash.next]
  exact hops.posted.rest .warehouse (by decide) (by decide) (by decide)

/-- The currencies a service call keeps. -/
theorem Effect.keepsCurrency {call : Call} (h : Effect env d call d') {w : Warehouse}
    (hw : w ∈ d.warehouses) (hkeep : call.relabels = true →
      ∀ w' ∈ d'.warehouses, w'.id = w.id → w'.currency = w.currency) :
    ∃ w' ∈ d'.warehouses, w'.id = w.id ∧ w'.currency = w.currency := by
  cases h with
  | nothing => exact ⟨w, hw, rfl, rfl⟩
  | sold _ hsold => exact ⟨w, hsold.warehouses ▸ hw, rfl, rfl⟩
  | returned _ hreturned => exact ⟨w, hreturned.warehouses ▸ hw, rfl, rfl⟩
  | aside _ hreach =>
    by_cases hrelabels : call.relabels = true
    · have hwrites := ReflTransGen.mono (fun _ _ h => h.write) _ _ hreach
      obtain ⟨w', hw', hid⟩ := List.mem_map.mp
        (writes_id hwrites (k := .warehouse) (List.mem_map_of_mem hw))
      exact ⟨w', hw', hid, hkeep hrelabels w' hw' hid⟩
    · exact writes_warehouse (Bool.eq_false_of_not_eq_true hrelabels) hreach hw

/-- A batch stays placed in its currency. -/
theorem Placed.step {batchId : String} (h : Placed d batchId currency)
    (heffect : Effect r.env d r.call (r.exec d))
    (hkeep : r.call.relabels = true → ∀ b ∈ d.batches, b.id = batchId → ∀ w ∈ d.warehouses,
      w.id = b.warehouseId → ∀ w' ∈ (r.exec d).warehouses, w'.id = w.id →
      w'.currency = w.currency) : Placed (r.exec d) batchId currency := by
  obtain ⟨b, hb, hid, w, hw, hwid, hcurrency⟩ := h
  obtain ⟨b', hb', hid', -, hplace⟩ := writes_batch (exec_writes r d) hb
  obtain ⟨w', hw', hwid', hcurrency'⟩ :=
    heffect.keepsCurrency hw fun hrelabels => hkeep hrelabels b hb hid w hw hwid
  exact ⟨b', hb', hid'.trans hid, w', hw', hwid'.trans (hwid.trans hplace.symm),
    hcurrency'.trans hcurrency⟩

/-! ## One sale, one currency -/

/-- A sale is in one currency: its lines are placed in it, and its cash rows are in it. -/
structure InCurrency (saleId currency : String) (d : Db) : Prop where
  lines : ∀ o ∈ d.operations, ofSale "sale" saleId o = true →
    ∃ b, o.batchId = some b ∧ Placed d b currency
  cash : ∀ m ∈ d.cashMovements, m.saleId = some saleId → m.currency = currency

/-- The currency of a row whose batch is placed. -/
theorem Placed.operationCurrency {batchId : String} (h : Placed d batchId currency)
    (hbatches : (d.ids .batch).Nodup) (hwarehouses : (d.ids .warehouse).Nodup) {o : Operation}
    (ho : o.batchId = some batchId) : operationCurrency d o = currency := by
  obtain ⟨b, hb, hid, w, hw, hwid, hcurrency⟩ := h
  have hbatch : d.find .batch batchId = some b := hid ▸ find_of_mem hbatches (k := .batch) hb
  have hwarehouse : d.find .warehouse b.warehouseId = some w :=
    hwid ▸ find_of_mem hwarehouses (k := .warehouse) hw
  rw [MyOriShop.operationCurrency, operationBatch, ho, Option.bind_some, hbatch, Option.bind_some,
    hwarehouse]
  exact hcurrency

/-- A sale starts on sound tables: its first line was recorded on them. -/
theorem Sold.start_ok {form : SaleForm} {plan : SalePlan} {sale : Sale} {day : Date}
    {ops : List Operation} {m : CashMovement} (h : Sold env form d plan sale day ops m d') :
    (d.insert .sale [sale]).Ok := by
  obtain ⟨parsed, hcheck⟩ := h.check
  have hcurrency := (saleCheck_ok hcheck).2
  obtain ⟨w, hops, -⟩ := h.rows
  cases hlines : plan.lines with
  | nil =>
    rw [hlines] at hcurrency
    simp [basketCurrencies] at hcurrency
  | cons first rest =>
    rw [hlines, List.map_cons] at hops
    cases hops with
    | cons hfirst _ => exact hfirst.ok

/-- The lines of a sale are placed in its currency. -/
theorem Sold.placed {form : SaleForm} {plan : SalePlan} {sale : Sale} {day : Date}
    {ops : List Operation} {m : CashMovement} (h : Sold env form d plan sale day ops m d')
    {l : BasketLine} (hl : l ∈ plan.lines) : Placed d l.batch.id plan.currency := by
  obtain ⟨parsed, hcheck⟩ := h.check
  obtain ⟨hsellable, hcurrency⟩ := saleCheck_ok hcheck
  have hbatch := (hsellable l hl).batch
  have hok := h.start_ok
  obtain ⟨warehouse, hmem, hid⟩ := List.mem_map.mp (hok.batchWarehouse l.batch hbatch)
  refine ⟨l.batch, hbatch, rfl, warehouse, hmem, hid, ?_⟩
  have hcurrencies : warehouse.currency ∈ basketCurrencies d plan.lines := by
    have hid' : l.batch.warehouseId = warehouse.id := hid.symm
    refine List.mem_dedup.mpr (List.mem_map_of_mem (List.mem_filter.mpr ⟨hmem, ?_⟩))
    exact List.any_eq_true.mpr ⟨l, hl, by simpa using hid'⟩
  rw [hcurrency] at hcurrencies
  exact List.mem_singleton.mp hcurrencies

/-- What a request has to leave for a sale to keep its currency. -/
def KeepsSaleCurrency (saleId : String) (d : Db) (r : Request) : Prop :=
  r.call.relabels = true → ∀ o ∈ d.operations, ofSale "sale" saleId o = true →
    ∀ b ∈ d.batches, o.batchId = some b.id → ∀ w ∈ d.warehouses, w.id = b.warehouseId →
    ∀ w' ∈ (r.exec d).warehouses, w'.id = w.id → w'.currency = w.currency

theorem KeepsSoldCurrencies.sale (h : KeepsSoldCurrencies d r) (saleId : String) :
    KeepsSaleCurrency saleId d r := by
  intro hrelabels o ho hrow b hb hbatch w hw hid w' hw' hid'
  exact h hrelabels w hw ⟨o, ho, .inl (ofSale_iff.mp hrow).2, b, hb, hbatch, hid.symm⟩ w' hw' hid'

/-- The warehouse a refund is paid from is the one the batch is placed in. -/
theorem Returned.refundCurrency {form : ReturnForm} {origin op : Operation} {day : Date}
    {m : CashMovement} (h : Returned env form d origin saleId op day (some m) d') {batchId : String}
    (horigin : origin.batchId = some batchId) (hplaced : Placed d batchId currency)
    (hbatches : (d.ids .batch).Nodup) (hwarehouses : (d.ids .warehouse).Nodup) :
    m.currency = currency := by
  obtain ⟨batchId', w, w', hbatch, hop, hrefund⟩ := h.rows
  cases hbatch with
  | legacy hnone => exact nomatch horigin.symm.trans hnone
  | created hnone => exact nomatch horigin.symm.trans hnone
  | origin hsome =>
    obtain rfl := Option.some.inj (horigin.symm.trans hsome)
    cases hrefund with
    | @cash warehouse _ _ _ hwarehouse hm =>
      obtain ⟨b, hb, hid, w₀, hw₀, hwid, hcurrency⟩ := hplaced
      have hposted := hop.posted
      unfold warehouseOfBatch at hwarehouse
      obtain ⟨b', hb', hfind⟩ := Option.bind_eq_some_iff.mp hwarehouse
      obtain ⟨hmem', hid'⟩ := Db.mem_of_find (k := .batch) hb'
      obtain ⟨hwmem, hwid'⟩ := Db.mem_of_find (k := .warehouse) hfind
      -- the row moved the batch's quantity, not the batch
      have hmoved : (b'.id, b'.productId, b'.warehouseId, b'.quantity) ∈
          w'.batches.map fun b => (b.id, b.productId, b.warehouseId, b.quantity) :=
        List.mem_map_of_mem hmem'
      rw [hposted.batches] at hmoved
      obtain ⟨b'', hb'', heq⟩ := List.mem_map.mp hmoved
      obtain ⟨hbid, -, hbwarehouse, -⟩ : b''.id = b'.id ∧ b''.productId = b'.productId ∧
          b''.warehouseId = b'.warehouseId ∧ _ = b'.quantity := by simpa using heq
      have hsame : b'' = b :=
        List.inj_on_of_nodup_map hbatches hb'' hb (hbid.trans (Eq.trans hid' hid.symm))
      have hwmem' : warehouse ∈ d.warehouses := by
        have hrest : w'.warehouses = d.warehouses :=
          hposted.rest .warehouse (by decide) (by decide) (by decide)
        exact hrest ▸ hwmem
      have hwsame : warehouse = w₀ := by
        refine List.inj_on_of_nodup_map hwarehouses hwmem' hw₀ ?_
        exact hwid'.trans (hbwarehouse.symm.trans (hsame ▸ hwid.symm))
      have hrow : m.currency = warehouse.currency := hm.carries.currency
      rw [hrow, hwsame, hcurrency]

/-- A sale that is done is in the currency of its basket. -/
theorem Sold.inCurrency {form : SaleForm} {plan : SalePlan} {sale : Sale} {day : Date}
    {ops : List Operation} {m : CashMovement}
    (h : Sold r.env form d plan sale day ops m (r.exec d))
    (heffect : Effect r.env d r.call (r.exec d)) (hrelabels : r.call.relabels = false) :
    InCurrency sale.id plan.currency (r.exec d) := by
  have hadds := h.adds
  have hnone := h.fresh.noSale
  constructor
  · intro o ho hrow
    rw [hadds.operations, List.mem_append] at ho
    have hnew := ho.resolve_left fun hold => hnone.operations o hold (ofSale_iff.mp hrow).1
    obtain ⟨l, hl, hcarries⟩ := hadds.line hnew
    refine ⟨l.batch.id, hcarries.batchId (by simp [saleArgs, stockAffectingTypes]), ?_⟩
    refine (h.placed hl).step heffect fun hrel => ?_
    rw [hrelabels] at hrel
    cases hrel
  · intro m' hm' hid
    rw [hadds.cash, List.mem_append, List.mem_singleton] at hm'
    rcases hm' with hold | rfl
    · exact absurd hid (hnone.cash m' hold)
    · exact hadds.credit.currency

/-- Rows that are no lines of a sale, and money in its currency, keep it in its currency. -/
theorem InCurrency.extend {ops : List Operation} {ms : List CashMovement}
    (h : InCurrency saleId currency d) (hops : d'.operations = d.operations ++ ops)
    (hms : d'.cashMovements = d.cashMovements ++ ms)
    (hplaced : ∀ o ∈ d.operations, ofSale "sale" saleId o = true → ∀ b, o.batchId = some b →
      Placed d b currency → Placed d' b currency)
    (hother : ∀ o ∈ ops, ofSale "sale" saleId o = false)
    (hcash : ∀ m ∈ ms, m.saleId = some saleId → m.currency = currency) :
    InCurrency saleId currency d' := by
  constructor
  · intro o ho hrow
    rw [hops, List.mem_append] at ho
    rcases ho with ho | ho
    · obtain ⟨b, hb, hold⟩ := h.lines o ho hrow
      exact ⟨b, hb, hplaced o ho hrow b hb hold⟩
    · rw [hother o ho] at hrow
      cases hrow
  · intro m hm hid
    rw [hms, List.mem_append] at hm
    exact hm.elim (fun hm => h.cash m hm hid) fun hm => hcash m hm hid

/-- **A sale keeps its currency** through every request that keeps its warehouses'; or the request
is the sale itself. -/
theorem InCurrency.step (h : InCurrency saleId currency d)
    (heffect : Effect r.env d r.call (r.exec d)) (hkeep : KeepsSaleCurrency saleId d r)
    (hbatches : (d.ids .batch).Nodup) (hwarehouses : (d.ids .warehouse).Nodup) :
    InCurrency saleId currency (r.exec d) ∨ (r.call.relabels = false ∧
      ∃ form plan sale day ops m, Sold r.env form d plan sale day ops m (r.exec d) ∧
        sale.id = saleId) := by
  have hplaced : ∀ o ∈ d.operations, ofSale "sale" saleId o = true → ∀ b, o.batchId = some b →
      Placed d b currency → Placed (r.exec d) b currency := by
    intro o ho hrow b hb hold
    refine hold.step heffect fun hrelabels b' hb' hid w hw hwid w' hw' hid' => ?_
    exact hkeep hrelabels o ho hrow b' hb' (hid ▸ hb) w hw hwid w' hw' hid'
  clear hkeep
  generalize r.exec d = d' at heffect hplaced
  cases heffect with
  | nothing => exact .inl h
  | aside hsells hreach =>
    have haside := aside_of_reaches hsells hreach
    obtain ⟨ops, hops, hplain⟩ := haside.operations
    obtain ⟨ms, hms, hcash⟩ := haside.cash
    refine .inl (h.extend hops hms hplaced (fun o ho => ?_) fun m hm hid => ?_)
    · simp [ofSale, (hplain o ho).1]
    · rw [(hcash m hm).2.2] at hid
      cases hid
  | @sold form plan sale day ops m d' hcall hsold =>
    by_cases hsame : sale.id = saleId
    · exact .inr ⟨by rw [hcall]; rfl, form, plan, sale, day, ops, m, hsold, hsame⟩
    · have hadds := hsold.adds
      refine .inl (h.extend hadds.operations hadds.cash hplaced (fun o ho => ?_) fun m' hm' hid => ?_)
      · obtain ⟨l, -, hl⟩ := hadds.line ho
        have hsale : o.saleId = some sale.id := hl.saleId
        simp [ofSale, hsale, hsame]
      · rw [List.mem_singleton.mp hm', hadds.credit.saleId] at hid
        exact absurd (Option.some.inj hid) hsame
  | @returned form origin saleId' op day m d' hcall hreturned =>
    have hadds := hreturned.adds
    refine .inl (h.extend hadds.operations hadds.cash hplaced (fun o ho => ?_) fun m' hm' hid => ?_)
    · obtain ⟨batchId, -, hcarries⟩ := hadds.row
      have htype : op.type = "return" := hcarries.type
      simp [ofSale, List.mem_singleton.mp ho, htype]
    · obtain ⟨currency', hdebit⟩ := hadds.debit m' (Option.mem_toList.mp hm')
      have hsale : m'.saleId = some saleId' := hdebit.saleId
      obtain rfl := Option.some.inj (hid.symm.trans hsale)
      obtain ⟨remaining, hcheck⟩ := hreturned.check
      obtain ⟨horigin, -, htype, hsaleId, -⟩ := returnCheck_ok hcheck
      obtain ⟨b, hb, hold⟩ := h.lines origin horigin (ofSale_iff.mpr ⟨hsaleId, htype⟩)
      obtain rfl := Option.mem_toList.mp hm'
      exact hreturned.refundCurrency hb hold hbatches hwarehouses

/-! ## The two reports -/

/-- The rows the profit report nets: of one currency, in one period. -/
def netted (d : Db) (period : Period) (currency : String) (o : Operation) : Bool :=
  decide o.OfSales && period.covers o.day && operationCurrency d o = currency

/-- The cash rows of sales: of one currency, in one period. -/
def saleCashIn (period : Period) (currency : String) (m : CashMovement) : Bool :=
  inCashFlow period currency m && (m.category = "sale" || m.category = "return")

/-- The reports agree, and why they go on agreeing. -/
structure Agreed (d : Db) : Prop where
  batches : (d.ids .batch).Nodup
  warehouses : (d.ids .warehouse).Nodup
  products : ∀ o ∈ d.operations, o.productId ∈ d.ids .product
  linked : ∀ o ∈ d.operations, o.OfSales → ∃ saleId, o.saleId = some saleId
  books : ∀ saleId, Books saleId d
  currency : ∀ saleId, ∃ currency, InCurrency saleId currency d
  agree : ∀ period currency, sumOver Operation.value (netted d period currency) d.operations =
    sumOver CashMovement.amountCents (saleCashIn period currency) d.cashMovements

theorem agreed_empty : Agreed {} where
  batches := List.nodup_nil
  warehouses := List.nodup_nil
  products _ h := absurd h List.not_mem_nil
  linked _ h := absurd h List.not_mem_nil
  books saleId := (noSale_empty saleId).books
  currency _ := ⟨"", ⟨fun _ h => absurd h List.not_mem_nil, fun _ h => absurd h List.not_mem_nil⟩⟩
  agree _ _ := rfl

/-- Every row of a sale is placed somewhere. -/
theorem Agreed.placed (h : Agreed d) {o : Operation} (ho : o ∈ d.operations) (hsales : o.OfSales) :
    ∃ b currency, o.batchId = some b ∧ Placed d b currency := by
  obtain ⟨saleId, hid⟩ := h.linked o ho hsales
  obtain ⟨currency, hcurrency⟩ := h.currency saleId
  rcases hsales with htype | htype
  · obtain ⟨b, hb, hplaced⟩ := hcurrency.lines o ho (ofSale_iff.mpr ⟨hid, htype⟩)
    exact ⟨b, currency, hb, hplaced⟩
  · obtain ⟨-, origin, horigin, hsale, hline⟩ :=
      (h.books saleId).returned o ho (ofSale_iff.mpr ⟨hid, htype⟩)
    obtain ⟨b, hb, hplaced⟩ := hcurrency.lines origin horigin hsale
    exact ⟨b, currency, hline.batchId.trans hb, hplaced⟩

theorem writes_products {free : String → Prop} (h : ReflTransGen (Write free) d d')
    (hd : ∀ o ∈ d.operations, o.productId ∈ d.ids .product) :
    ∀ o ∈ d'.operations, o.productId ∈ d'.ids .product := by
  refine Writes.induct (motive := fun d => ∀ o ∈ d.operations, o.productId ∈ d.ids .product) ?_ h hd
  intro d d' hw hd o ho
  have hgrow : ∀ i ∈ d.ids .product, i ∈ d'.ids .product :=
    fun i hi => writes_id (.single hw) hi
  rcases hw.mem (k := .operation) ho with ⟨o', ho', hkept⟩ | ⟨-, hborn⟩
  · have hsame : o = o' := hkept
    rw [hsame]
    exact hgrow _ (hd o' ho')
  · exact hgrow _ hborn.product

/-- The currencies of the rows of sales stand. -/
theorem Agreed.currency_step (h : Agreed d) (heffect : Effect r.env d r.call (r.exec d))
    (hkeep : KeepsSoldCurrencies d r) {o : Operation} (ho : o ∈ d.operations)
    (hsales : o.OfSales) : operationCurrency (r.exec d) o = operationCurrency d o := by
  obtain ⟨b, currency, hb, hplaced⟩ := h.placed ho hsales
  have hstep : Placed (r.exec d) b currency :=
    hplaced.step heffect fun hrelabels b' hb' hid w hw hwid w' hw' hid' =>
      hkeep hrelabels w hw ⟨o, ho, hsales, b', hb', hid ▸ hb, hwid.symm⟩ w' hw' hid'
  have hwrites := exec_writes r d
  rw [hplaced.operationCurrency h.batches h.warehouses hb, hstep.operationCurrency
    (writes_nodup hwrites h.batches) (writes_nodup hwrites h.warehouses) hb]

/-- What a sale adds to the two reports. -/
theorem Sold.agree {form : SaleForm} {plan : SalePlan} {sale : Sale} {day : Date}
    {ops : List Operation} {m : CashMovement} (h : Sold env form d plan sale day ops m d')
    (hcurrency : ∀ o ∈ ops, operationCurrency d' o = plan.currency) (period : Period)
    (currency : String) : sumOver Operation.value (netted d' period currency) ops =
      sumOver CashMovement.amountCents (saleCashIn period currency) [m] := by
  have hadds := h.adds
  have hcategory : m.category = "sale" := hadds.credit.category
  have hmoney : m.amountCents = saleTotal plan.lines := hadds.credit.amountCents
  have hcash : m.currency = plan.currency := hadds.credit.currency
  have hday : m.businessDate = some day.isoformat := hadds.credit.day day rfl
  have hvalue := value_lines (List.forall₂_map_left_iff.mp hadds.lines)
  have hrows : ∀ o ∈ ops, netted d' period currency o =
      (period.covers day.isoformat && decide (plan.currency = currency)) ∧
        ofSale "sale" sale.id o = true := by
    intro o ho
    obtain ⟨l, -, hl⟩ := hadds.line ho
    have htype : o.type = "sale" := hl.type
    have hoday : o.businessDate = some day.isoformat := hl.day day rfl
    refine ⟨?_, ofSale_iff.mpr ⟨hl.saleId, htype⟩⟩
    simp [netted, Operation.OfSales, Operation.day, businessDay, htype, hoday, hcurrency o ho]
  rw [sumOver_congr fun o ho _ => (hrows o ho).1, sumOver_cons]
  simp only [saleCashIn, inCashFlow, CashMovement.day, businessDay, hday, hcash, hcategory,
    Option.getD_some, decide_true, Bool.true_or, Bool.and_true, sumOver_nil, Int.add_zero]
  rw [hmoney, ← hvalue]
  by_cases hb : (period.covers day.isoformat && decide (plan.currency = currency)) = true
  · rw [if_pos hb]
    exact sumOver_congr fun o ho _ => hb.trans (hrows o ho).2.symm
  · rw [if_neg hb]
    exact sumOver_eq_zero fun o _ hp => absurd hp hb

/-- What a return adds to the two reports. -/
theorem Returned.agree {form : ReturnForm} {origin op : Operation} {day : Date}
    {m : Option CashMovement} (h : Returned env form d origin saleId op day m d')
    (hcurrency : ∀ m' ∈ m, operationCurrency d' op = m'.currency) (period : Period)
    (currency : String) : sumOver Operation.value (netted d' period currency) [op] =
      sumOver CashMovement.amountCents (saleCashIn period currency) m.toList := by
  have hadds := h.adds
  obtain ⟨batchId, -, hcarries⟩ := hadds.row
  have hqty : op.qtyDelta = parseQty form.qtyRaw := hcarries.qtyDelta
  have hprice : op.unitPriceCents = origin.unitPriceCents := hcarries.unitPriceCents
  have htype : op.type = "return" := hcarries.type
  have hday : op.businessDate = some day.isoformat := hcarries.day day rfl
  have hvalue : op.value = -refund origin form := by
    rw [Operation.value, refund, hqty, hprice, Int.neg_mul]
  rw [sumOver_cons, hvalue]
  cases hm : m with
  | none =>
    rw [hadds.nothing hm]
    simp
  | some m' =>
    obtain ⟨currency', hdebit⟩ := hadds.debit m' hm
    have hcategory : m'.category = "return" := hdebit.category
    have hmoney : m'.amountCents = -refund origin form := hdebit.amountCents
    have hday' : m'.businessDate = some day.isoformat := hdebit.day day rfl
    simp [sumOver_cons, netted, saleCashIn, inCashFlow, Operation.OfSales, Operation.day,
      CashMovement.day, businessDay, hday, hday', htype, hcategory, hmoney, hcurrency m' hm]

/-- **Every request keeps the reports in agreement**, edits that change the currency of a warehouse
goods were sold from apart. -/
theorem Agreed.step (h : Agreed d) (heffect : Effect r.env d r.call (r.exec d))
    (hkeep : KeepsSoldCurrencies d r) : Agreed (r.exec d) := by
  have hwrites := exec_writes r d
  have hold : ∀ period currency, sumOver Operation.value (netted (r.exec d) period currency)
      d.operations = sumOver Operation.value (netted d period currency) d.operations := by
    refine fun period currency => sumOver_congr fun o ho _ => ?_
    by_cases hsales : o.OfSales
    · simp only [netted, h.currency_step heffect hkeep ho hsales]
    · simp [netted, hsales]
  have hbatches := writes_nodup hwrites h.batches
  have hwarehouses := writes_nodup hwrites h.warehouses
  have hcurrencies : ∀ saleId, ∃ currency, InCurrency saleId currency (r.exec d) := by
    intro saleId
    obtain ⟨currency, hcurrency⟩ := h.currency saleId
    rcases hcurrency.step heffect (hkeep.sale saleId) h.batches h.warehouses with hsame | hsold
    · exact ⟨currency, hsame⟩
    · obtain ⟨hrelabels, form, plan, sale, day, ops, m, hsold, rfl⟩ := hsold
      exact ⟨plan.currency, hsold.inCurrency heffect hrelabels⟩
  have hbooks : ∀ saleId, Books saleId (r.exec d) := fun saleId => (h.books saleId).effect heffect
  refine ⟨hbatches, hwarehouses, writes_products hwrites h.products, ?_, hbooks, hcurrencies, ?_⟩
  · clear hold hkeep hbooks
    generalize r.exec d = d' at heffect
    intro o ho hsales
    cases heffect with
    | nothing => exact h.linked o ho hsales
    | aside hsells hreach =>
      obtain ⟨ops, hops, hplain⟩ := (aside_of_reaches hsells hreach).operations
      rw [hops, List.mem_append] at ho
      rcases ho with ho | ho
      · exact h.linked o ho hsales
      · exact (hsales.elim (hplain o ho).1 (hplain o ho).2).elim
    | sold _ hsold =>
      rw [hsold.adds.operations, List.mem_append] at ho
      rcases ho with ho | ho
      · exact h.linked o ho hsales
      · obtain ⟨l, -, hl⟩ := hsold.adds.line ho
        exact ⟨_, hl.saleId⟩
    | returned _ hreturned =>
      rw [hreturned.adds.operations, List.mem_append, List.mem_singleton] at ho
      rcases ho with ho | rfl
      · exact h.linked o ho hsales
      · obtain ⟨batchId, -, hcarries⟩ := hreturned.adds.row
        exact ⟨_, hcarries.saleId⟩
  · intro period currency
    have hagree := (hold period currency).trans (h.agree period currency)
    clear hold hkeep
    generalize r.exec d = d' at heffect hagree hcurrencies hbooks hbatches hwarehouses
    cases heffect with
    | nothing => exact hagree
    | aside hsells hreach =>
      have haside := aside_of_reaches hsells hreach
      obtain ⟨ops, hops, hplain⟩ := haside.operations
      obtain ⟨ms, hms, hcash⟩ := haside.cash
      rw [hops, hms, sumOver_append, sumOver_append, hagree]
      congr 1
      rw [sumOver_eq_zero fun o ho hp => ?_, sumOver_eq_zero fun m hm hp => ?_]
      · simp [saleCashIn, (hcash m hm).1, (hcash m hm).2.1] at hp
      · simp [netted, Operation.OfSales, (hplain o ho).1, (hplain o ho).2] at hp
    | @sold form plan sale day ops m d' hcall hsold =>
      have hadds := hsold.adds
      have hplaced : ∀ o ∈ ops, operationCurrency d' o = plan.currency := by
        intro o ho
        obtain ⟨l, -, hl⟩ := hadds.line ho
        have hsale : ofSale "sale" sale.id o = true := ofSale_iff.mpr ⟨hl.saleId, hl.type⟩
        obtain ⟨c, hc⟩ := hcurrencies sale.id
        obtain ⟨b, hb, hbplaced⟩ := hc.lines o (hadds.operations ▸ List.mem_append_right _ ho) hsale
        have hcredit : m.currency = c :=
          hc.cash m (hadds.cash ▸ List.mem_append_right _ (List.mem_singleton_self m))
            hadds.credit.saleId
        rw [hbplaced.operationCurrency hbatches hwarehouses hb, ← hcredit]
        exact hadds.credit.currency
      rw [hadds.operations, hadds.cash, sumOver_append, sumOver_append, hagree,
        hsold.agree hplaced]
    | @returned form origin saleId op day m d' hcall hreturned =>
      have hadds := hreturned.adds
      have hplaced : ∀ m' ∈ m, operationCurrency d' op = m'.currency := by
        intro m' hm'
        obtain ⟨batchId, -, hcarries⟩ := hadds.row
        obtain ⟨currency', hdebit⟩ := hadds.debit m' hm'
        have hop : op ∈ d'.operations :=
          hadds.operations ▸ List.mem_append_right _ (List.mem_singleton_self op)
        obtain ⟨c, hc⟩ := hcurrencies saleId
        obtain ⟨-, origin', horigin, hsale, hline⟩ := (hbooks saleId).returned op hop
          (ofSale_iff.mpr ⟨hcarries.saleId, hcarries.type⟩)
        obtain ⟨b, hb, hbplaced⟩ := hc.lines origin' horigin hsale
        rw [hbplaced.operationCurrency hbatches hwarehouses (hline.batchId.trans hb)]
        refine (hc.cash m' ?_ hdebit.saleId).symm
        exact hadds.cash ▸ List.mem_append_right _ (Option.mem_toList.mpr hm')
      rw [hadds.operations, hadds.cash, sumOver_append, sumOver_append, hagree,
        hreturned.agree hplaced]

/-- A row the unrestricted report of all operators counts is a row it nets. -/
theorem Agreed.counts (h : Agreed d) (henv : env.allowed = none) (period : Period)
    (currency : String) {o : Operation} (ho : o ∈ d.operations) :
    ReportQuery.counts env d ⟨period, none, currency⟩ o = netted d period currency o := by
  obtain ⟨p, hp, hid⟩ := List.mem_map.mp (h.products o ho)
  have hfound : (d.find .product o.productId).isSome = true :=
    List.find?_isSome.mpr ⟨p, hp, by simpa using hid⟩
  simp [ReportQuery.counts, ReportQuery.takes, netted, decide_ofSales, Env.warehouseScope, henv,
    hfound]

/-- **The profit report and the cash report agree**, for every period and currency, after every run
in which no edit changes the currency of a warehouse goods were sold from; and a sale is credited
and refunded in one currency. -/
theorem runAll_agreement (env : Env) (henv : env.allowed = none) (run : List Request)
    (hrun : Along (fun d r => r.call.Service ∧ KeepsSoldCurrencies d r) {} run) :
    (∀ period currency,
      (salesProfitReport env (runAll {} run) ⟨period, none, currency⟩).totals.revenueCents =
          sumOver CashMovement.amountCents (saleCashIn period currency)
            (runAll {} run).cashMovements ∧
        sumOver CashMovement.amountCents (saleCashIn period currency)
            (runAll {} run).cashMovements =
          (((cashFlowReport (runAll {} run) period currency).income.filter
              fun l => l.category = "sale").map CashLine.totalCents).sum +
            (((cashFlowReport (runAll {} run) period currency).income.filter
              fun l => l.category = "return").map CashLine.totalCents).sum) ∧
      ∀ m ∈ (runAll {} run).cashMovements, ∀ m' ∈ (runAll {} run).cashMovements,
        ∀ saleId, m.saleId = some saleId → m'.saleId = some saleId → m.currency = m'.currency := by
  have h : Agreed (runAll {} run) :=
    along_induct (fun _ _ h => h.1) (fun _ _ hr heffect h => h.step heffect hr.2) hrun agreed_empty
  refine ⟨fun period currency => ⟨?_, ?_⟩, fun m hm m' hm' saleId hid hid' => ?_⟩
  · have hvalue : Operation.revenue = Operation.value := by
      funext o
      rw [Operation.revenue, Operation.value, Int.mul_comm]
    rw [(salesTotals_eq env _ _).1, ← h.agree, hvalue]
    exact sumOver_congr fun o ho _ => h.counts henv period currency ho
  · rw [cashFlow_line _ _ _ (by decide), cashFlow_line _ _ _ (by decide), ← sumOver_or]
    · exact sumOver_congr fun m _ _ => by simp [saleCashIn, Bool.and_or_distrib_left]
    · intro m _ hsale
      simp only [Bool.and_eq_true, decide_eq_true_eq] at hsale
      simp [hsale.2]
  · obtain ⟨currency, hcurrency⟩ := h.currency saleId
    exact (hcurrency.cash m hm hid).trans (hcurrency.cash m' hm' hid').symm

theorem runAll_agreement_dearReturn :
    (∀ period currency,
      (salesProfitReport Env.sample (runAll {} dearReturn) ⟨period, none, currency⟩).totals.revenueCents =
          sumOver CashMovement.amountCents (saleCashIn period currency)
            (runAll {} dearReturn).cashMovements ∧
        sumOver CashMovement.amountCents (saleCashIn period currency)
            (runAll {} dearReturn).cashMovements =
          (((cashFlowReport (runAll {} dearReturn) period currency).income.filter
              fun l => l.category = "sale").map CashLine.totalCents).sum +
            (((cashFlowReport (runAll {} dearReturn) period currency).income.filter
              fun l => l.category = "return").map CashLine.totalCents).sum) ∧
      ∀ m ∈ (runAll {} dearReturn).cashMovements, ∀ m' ∈ (runAll {} dearReturn).cashMovements,
        ∀ saleId, m.saleId = some saleId → m'.saleId = some saleId → m.currency = m'.currency :=
  runAll_agreement Env.sample rfl dearReturn <| along_of_forall fun r hr _ =>
    ⟨dearReturn_service r hr, fun hrelabels => by
      have hnone : ∀ r ∈ dearReturn, r.call.relabels = false := by decide
      rw [hnone r hr] at hrelabels
      cases hrelabels⟩

/-- A sale in a rouble warehouse that is then relabelled to hryvnia. -/
def relabelledSale : List Request :=
  [atShop (.addWarehouse { name := "w", address := "" }),
    atShop (.receipt
      { code := "c", name := "n", qtyRaw := "1", costRaw := "", saleRaw := "", warehouseId := "x"
        batchChoice := "new" }),
    atShop (.sale
      { customerId := none, codes := ["c"], qtys := ["1"], prices := ["10"], batchIds := ["xxxx"] }),
    atShop (.updateWarehouse "x" { name := "w", address := "", currency := "UAH" })]

/-- The profit report moves a sale to the currency its warehouse has now, the cash row stays. -/
theorem not_agreement : ¬ ∀ (env : Env) (run : List Request), env.allowed = none →
    (∀ r ∈ run, r.call.Service) → ∀ period currency,
      (salesProfitReport env (runAll {} run) ⟨period, none, currency⟩).totals.revenueCents =
        sumOver CashMovement.amountCents (saleCashIn period currency)
          (runAll {} run).cashMovements := by
  intro h
  have hrun := h Env.sample relabelledSale rfl (by simp [relabelledSale, atShop, Call.Service])
    ⟨"2026-01-01", "2026-01-01"⟩ "RUB"
  revert hrun
  decide +kernel

end MyOriShop
