import Mathlib.Data.List.Dedup
import MyOriShop.Effects

/-!
# SaleBooks: goods and money of one sale (`app/services/sales.py`, `returns.py`)

The two ledgers meet in `sale_id`: the `sale` and `return` rows of a sale and its cash rows.

* `Operation.value` is what a ledger row is worth in cash, `ledgerOf` and `cashOf` the two sides.
* `Books saleId d`: the books of one sale are in order. Every `return` row goes back to the product,
  price, cost and batch of a `sale` row, no more of a product is returned than was sold
  (`returnable_qty`), and each side of the cash ledger equals its side of the stock ledger.

Results:
* `Books.effect`, `books_run`: every service call keeps the books of every sale.
* `runAll_cash`: the cash rows of a sale sum to the worth of its ledger rows.
* `Books.weighted`: a weight of the lines, over all rows of a sale. Money and the units of a batch
  are two such weights, so `Books.refunds_le` and `Books.batch_le` follow from the cap.
* `runAll_returns`: returns never exceed sales.
-/

namespace MyOriShop

open Lib.Sums Lib.IsoDate Lib.Fallible Lib.Transaction
open Relation (ReflTransGen)

variable {env : Env} {d d' : Db} {saleId : String}

/-! ## The two sides of a sale -/

/-- What a ledger row is worth in cash: a sale brings its price, a return gives it back. -/
def Operation.value (o : Operation) : Int := -o.qtyDelta * o.unitPriceCents.getD 0

/-- The rows of one type under a sale. -/
def ofSale (type saleId : String) (o : Operation) : Bool := o.saleId = some saleId && o.type = type

/-- What the rows of one type under a sale are worth. -/
def ledgerOf (d : Db) (type saleId : String) : Int :=
  sumOver Operation.value (ofSale type saleId) d.operations

/-- The cash rows of one category under a sale, added up. -/
def cashOf (d : Db) (category saleId : String) : Int :=
  sumOver CashMovement.amountCents (fun m => m.saleId = some saleId && m.category = category)
    d.cashMovements

@[simp] theorem ofSale_iff {type : String} {o : Operation} :
    ofSale type saleId o = true ↔ o.saleId = some saleId ∧ o.type = type := by
  simp [ofSale]

/-- A return row goes back to the line of a sale row. -/
structure SameLine (origin o : Operation) : Prop where
  productId : o.productId = origin.productId
  unitPriceCents : o.unitPriceCents = origin.unitPriceCents
  unitCostCents : o.unitCostCents = origin.unitCostCents
  batchId : o.batchId = origin.batchId

/-- The books of one sale are in order. -/
structure Books (saleId : String) (d : Db) : Prop where
  sold : ∀ o ∈ d.operations, ofSale "sale" saleId o = true → o.qtyDelta < 0 ∧
    (∃ cents, o.unitPriceCents = some cents ∧ 0 ≤ cents) ∧ ∃ b, o.batchId = some b
  returned : ∀ o ∈ d.operations, ofSale "return" saleId o = true → 0 < o.qtyDelta ∧
    ∃ origin ∈ d.operations, ofSale "sale" saleId origin = true ∧ SameLine origin o
  cap : ∀ productId, 0 ≤ returnableQty d saleId productId
  credit : cashOf d "sale" saleId = ledgerOf d "sale" saleId
  debit : cashOf d "return" saleId = ledgerOf d "return" saleId
  categories : ∀ m ∈ d.cashMovements, m.saleId = some saleId →
    m.category = "sale" ∨ m.category = "return"

/-- Nothing under the id of a sale. -/
structure NoSale (saleId : String) (d : Db) : Prop where
  operations : ∀ o ∈ d.operations, o.saleId ≠ some saleId
  cash : ∀ m ∈ d.cashMovements, m.saleId ≠ some saleId

theorem Fresh.noSale (h : Fresh d saleId) : NoSale saleId d := by
  constructor
  · intro o ho heq
    have hmem : saleId ∈ d.operations.filterMap Operation.saleId :=
      List.mem_filterMap.mpr ⟨o, ho, heq⟩
    refine h.2 ?_
    simp only [Db.usedIds, List.mem_append]
    exact .inl (.inr hmem)
  · intro m hm heq
    have hmem : saleId ∈ d.cashMovements.filterMap CashMovement.saleId :=
      List.mem_filterMap.mpr ⟨m, hm, heq⟩
    refine h.2 ?_
    simp only [Db.usedIds, List.mem_append]
    exact .inr hmem

theorem NoSale.sum_zero (h : NoSale saleId d) (w : Operation → Int) (p : Operation → Bool) :
    sumOver w (fun o => o.saleId = some saleId && p o) d.operations = 0 :=
  sumOver_eq_zero fun o ho hp => by
    simp only [Bool.and_eq_true, decide_eq_true_eq] at hp
    exact absurd hp.1 (h.operations o ho)

/-! ## Rows that were appended -/

theorem returnableQty_append {ops : List Operation} (h : d'.operations = d.operations ++ ops)
    (productId : String) :
    returnableQty d' saleId productId = returnableQty d saleId productId -
      sumDelta ops (fun o => o.saleId = some saleId && o.productId = productId && o.type = "sale") -
      sumDelta ops
        (fun o => o.saleId = some saleId && o.productId = productId && o.type = "return") := by
  unfold returnableQty movedQty sumDelta
  rw [h, sumOver_append, sumOver_append]
  omega

theorem ledgerOf_append {ops : List Operation} (h : d'.operations = d.operations ++ ops)
    (type : String) :
    ledgerOf d' type saleId = ledgerOf d type saleId +
      sumOver Operation.value (ofSale type saleId) ops := by
  unfold ledgerOf
  rw [h, sumOver_append]

theorem cashOf_append {ms : List CashMovement} (h : d'.cashMovements = d.cashMovements ++ ms)
    (category : String) :
    cashOf d' category saleId = cashOf d category saleId + sumOver CashMovement.amountCents
      (fun m => m.saleId = some saleId && m.category = category) ms := by
  unfold cashOf
  rw [h, sumOver_append]

/-- Rows of other sales, or of none, keep the books of a sale. -/
theorem Books.extend {ops : List Operation} {ms : List CashMovement} (h : Books saleId d)
    (hops : d'.operations = d.operations ++ ops) (hms : d'.cashMovements = d.cashMovements ++ ms)
    (hother : ∀ o ∈ ops, ofSale "sale" saleId o = false ∧ ofSale "return" saleId o = false)
    (hcash : ∀ m ∈ ms, m.saleId ≠ some saleId) : Books saleId d' := by
  have hledger : ∀ type, type = "sale" ∨ type = "return" →
      sumOver Operation.value (ofSale type saleId) ops = 0 := by
    intro type htype
    refine sumOver_eq_zero fun o ho hp => ?_
    rcases htype with rfl | rfl
    · rw [(hother o ho).1] at hp
      cases hp
    · rw [(hother o ho).2] at hp
      cases hp
  have hmoney : ∀ category, sumOver CashMovement.amountCents
      (fun m => m.saleId = some saleId && m.category = category) ms = 0 := by
    refine fun category => sumOver_eq_zero fun m hm hp => ?_
    simp only [Bool.and_eq_true, decide_eq_true_eq] at hp
    exact absurd hp.1 (hcash m hm)
  have hqty : ∀ type, type = "sale" ∨ type = "return" → ∀ productId, sumDelta ops
      (fun o => o.saleId = some saleId && o.productId = productId && o.type = type) = 0 := by
    intro type htype productId
    refine sumOver_eq_zero fun o ho hp => ?_
    simp only [Bool.and_eq_true, decide_eq_true_eq] at hp
    have hrow : ofSale type saleId o = true := ofSale_iff.mpr ⟨hp.1.1, hp.2⟩
    rcases htype with rfl | rfl
    · rw [(hother o ho).1] at hrow
      cases hrow
    · rw [(hother o ho).2] at hrow
      cases hrow
  constructor
  · intro o ho hrow
    rw [hops, List.mem_append] at ho
    rcases ho with ho | ho
    · exact h.sold o ho hrow
    · rw [(hother o ho).1] at hrow
      cases hrow
  · intro o ho hrow
    rw [hops, List.mem_append] at ho
    rcases ho with ho | ho
    · obtain ⟨hpos, origin, hmem, hsale, hline⟩ := h.returned o ho hrow
      exact ⟨hpos, origin, hops ▸ List.mem_append_left _ hmem, hsale, hline⟩
    · rw [(hother o ho).2] at hrow
      cases hrow
  · intro productId
    rw [returnableQty_append hops, hqty _ (.inl rfl), hqty _ (.inr rfl)]
    simpa using h.cap productId
  · rw [cashOf_append hms, ledgerOf_append hops, hledger _ (.inl rfl), hmoney, h.credit]
  · rw [cashOf_append hms, ledgerOf_append hops, hledger _ (.inr rfl), hmoney, h.debit]
  · intro m hm hid
    rw [hms, List.mem_append] at hm
    exact hm.elim (fun hm => h.categories m hm hid) fun hm => absurd hid (hcash m hm)

/-- The books of a sale that never was. -/
theorem NoSale.books (h : NoSale saleId d) : Books saleId d where
  sold o ho hrow := absurd (ofSale_iff.mp hrow).1 (h.operations o ho)
  returned o ho hrow := absurd (ofSale_iff.mp hrow).1 (h.operations o ho)
  cap productId := by
    have hzero : ∀ type, movedQty d type saleId productId = 0 := by
      refine fun type => sumOver_eq_zero fun o ho hp => ?_
      simp only [Bool.and_eq_true, decide_eq_true_eq] at hp
      exact absurd hp.1.1 (h.operations o ho)
    rw [returnableQty, hzero, hzero]
    exact le_refl _
  credit := by
    have hcash : cashOf d "sale" saleId = 0 := sumOver_eq_zero fun m hm hp => by
      simp only [Bool.and_eq_true, decide_eq_true_eq] at hp
      exact absurd hp.1 (h.cash m hm)
    rw [hcash]
    exact (h.sum_zero _ _).symm
  debit := by
    have hcash : cashOf d "return" saleId = 0 := sumOver_eq_zero fun m hm hp => by
      simp only [Bool.and_eq_true, decide_eq_true_eq] at hp
      exact absurd hp.1 (h.cash m hm)
    rw [hcash]
    exact (h.sum_zero _ _).symm
  categories m hm hid := absurd hid (h.cash m hm)

/-! ## A sale -/

theorem Sold.Adds.line {plan : SalePlan} {sale : Sale} {day : Date} {ops : List Operation}
    {m : CashMovement} (h : Sold.Adds d plan sale day ops m d') {o : Operation} (ho : o ∈ ops) :
    ∃ l ∈ plan.lines, Carries (saleArgs plan.currency sale.id day l) o :=
  forall₂_mem_right (List.forall₂_map_left_iff.mp h.lines) ho

/-- The rows of a sale are worth its total. -/
theorem value_lines {currency : String} {day : Date} {lines : List BasketLine}
    {ops : List Operation}
    (h : List.Forall₂ (fun l => Carries (saleArgs currency saleId day l)) lines ops) :
    sumOver Operation.value (ofSale "sale" saleId) ops = saleTotal lines := by
  induction h with
  | nil => rfl
  | @cons l o lines ops hl _ ih =>
    have hrow : ofSale "sale" saleId o = true := ofSale_iff.mpr ⟨hl.saleId, hl.type⟩
    rw [sumOver_cons, ih, if_pos hrow, saleTotal, saleTotal, List.map_cons, List.sum_cons,
      Operation.value, hl.qtyDelta, hl.unitPriceCents]
    show - -l.qty * l.priceCents + _ = _
    rw [Int.neg_neg]

/-- A sale opens its own books. -/
theorem Sold.Adds.books {plan : SalePlan} {sale : Sale} {day : Date} {ops : List Operation}
    {m : CashMovement} (h : Sold.Adds d plan sale day ops m d') (hnone : NoSale sale.id d)
    (hlines : ∀ l ∈ plan.lines, Sellable d l) : Books sale.id d' := by
  have hrow : ∀ o ∈ ops, ofSale "sale" sale.id o = true ∧ ofSale "return" sale.id o = false := by
    intro o ho
    obtain ⟨l, -, hl⟩ := h.line ho
    have htype : o.type = "sale" := hl.type
    exact ⟨ofSale_iff.mpr ⟨hl.saleId, htype⟩, by simp [ofSale, htype]⟩
  have hnew : ∀ o ∈ d'.operations, o.saleId = some sale.id → o ∈ ops := by
    intro o ho hid
    rw [h.operations, List.mem_append] at ho
    exact ho.resolve_left fun hold => hnone.operations o hold hid
  have hbooks := hnone.books
  constructor
  · intro o ho hsale
    obtain ⟨l, hl, hcarries⟩ := h.line (hnew o ho (ofSale_iff.mp hsale).1)
    have hqty : o.qtyDelta = -l.qty := hcarries.qtyDelta
    have hbatch : o.batchId = some l.batch.id :=
      hcarries.batchId (by simp [saleArgs, stockAffectingTypes])
    refine ⟨?_, ⟨l.priceCents, hcarries.unitPriceCents, (hlines l hl).price⟩, _, hbatch⟩
    have hpos := (hlines l hl).qty
    omega
  · intro o ho hreturn
    rw [(hrow o (hnew o ho (ofSale_iff.mp hreturn).1)).2] at hreturn
    cases hreturn
  · intro productId
    rw [returnableQty_append h.operations]
    have hbefore := hbooks.cap productId
    have hreturns : sumDelta ops (fun o => o.saleId = some sale.id && o.productId = productId &&
        o.type = "return") = 0 := by
      refine sumOver_eq_zero fun o ho hp => ?_
      simp only [Bool.and_eq_true, decide_eq_true_eq] at hp
      have hreturn := ofSale_iff.mpr ⟨hp.1.1, hp.2⟩
      rw [(hrow o ho).2] at hreturn
      cases hreturn
    have hsales : 0 ≤ -sumDelta ops (fun o => o.saleId = some sale.id && o.productId = productId &&
        o.type = "sale") := by
      unfold sumDelta
      rw [← sumOver_neg]
      refine sumOver_nonneg fun o ho _ => ?_
      obtain ⟨l, hl, hcarries⟩ := h.line ho
      have hqty : o.qtyDelta = -l.qty := hcarries.qtyDelta
      have hpos := (hlines l hl).qty
      omega
    omega
  · have hvalue := value_lines (List.forall₂_map_left_iff.mp h.lines)
    have hmoney : m.amountCents = saleTotal plan.lines := h.credit.amountCents
    have hid : m.saleId = some sale.id := h.credit.saleId
    have hcategory : m.category = "sale" := h.credit.category
    rw [cashOf_append h.cash, ledgerOf_append h.operations, hbooks.credit, hvalue, ← hmoney]
    simp [sumOver_cons, hid, hcategory]
  · have hcategory : m.category = "sale" := h.credit.category
    rw [cashOf_append h.cash, ledgerOf_append h.operations, hbooks.debit]
    rw [sumOver_eq_zero (p := ofSale "return" sale.id) fun o ho hp => by
      rw [(hrow o ho).2] at hp
      cases hp]
    simp [sumOver_cons, hcategory]
  · intro m' hm' hid
    rw [h.cash, List.mem_append, List.mem_singleton] at hm'
    rcases hm' with hold | rfl
    · exact absurd hid (hnone.cash m' hold)
    · exact .inl h.credit.category

/-! ## A return -/

/-- A return of a sale keeps its books. -/
theorem Returned.books {form : ReturnForm} {origin : Operation} {op : Operation} {day : Date}
    {m : Option CashMovement} (h : Returned env form d origin saleId op day m d')
    (hbooks : Books saleId d) : Books saleId d' := by
  obtain ⟨remaining, hcheck⟩ := h.check
  obtain ⟨horigin, -, htype, hsale, hpos, hleft, hremaining⟩ := returnCheck_ok hcheck
  have hadds := h.adds
  obtain ⟨batchId, hbatch, hcarries⟩ := hadds.row
  have hsold : ofSale "sale" saleId origin = true := ofSale_iff.mpr ⟨hsale, htype⟩
  obtain ⟨-, ⟨cents, hcents, -⟩, b, hb⟩ := hbooks.sold origin horigin hsold
  have hoptype : op.type = "return" := hcarries.type
  have hopsale : op.saleId = some saleId := hcarries.saleId
  have hqty : op.qtyDelta = parseQty form.qtyRaw := hcarries.qtyDelta
  have hprice : op.unitPriceCents = origin.unitPriceCents := hcarries.unitPriceCents
  have hopbatch : op.batchId = some batchId :=
    hcarries.batchId (by simp [returnArgs, stockAffectingTypes])
  have hline : SameLine origin op := by
    refine ⟨hcarries.productId, hprice, hcarries.unitCostCents, ?_⟩
    rw [hopbatch, hb, hbatch b hb]
  have hnotsale : ofSale "sale" saleId op = false := by simp [ofSale, hoptype]
  have hreturn : ofSale "return" saleId op = true := ofSale_iff.mpr ⟨hopsale, hoptype⟩
  have hvalue : op.value = -refund origin form := by
    rw [Operation.value, refund, hqty, hprice, Int.neg_mul]
  constructor
  · intro o ho hrow
    rw [hadds.operations, List.mem_append, List.mem_singleton] at ho
    rcases ho with ho | rfl
    · exact hbooks.sold o ho hrow
    · rw [hnotsale] at hrow
      cases hrow
  · intro o ho hrow
    rw [hadds.operations] at ho ⊢
    rcases List.mem_append.mp ho with ho | ho
    · obtain ⟨hq, origin', hmem, hsale', hline'⟩ := hbooks.returned o ho hrow
      exact ⟨hq, origin', List.mem_append_left _ hmem, hsale', hline'⟩
    · rw [List.mem_singleton.mp ho]
      exact ⟨hqty ▸ hpos, origin, List.mem_append_left _ horigin, hsold, hline⟩
  · intro productId
    rw [returnableQty_append hadds.operations]
    have hcap := hbooks.cap productId
    by_cases hp : op.productId = productId
    · have hp' : origin.productId = productId := hline.productId.symm.trans hp
      rw [hp'] at hremaining
      simp [sumDelta, sumOver_cons, hopsale, hp, hoptype, hqty]
      omega
    · simp [sumDelta, sumOver_cons, hp]
      exact hcap
  · have hother : ∀ m' ∈ m.toList, m'.category = "return" := by
      intro m' hm'
      obtain ⟨currency, hdebit⟩ := hadds.debit m' (Option.mem_toList.mp hm')
      exact hdebit.category
    rw [cashOf_append hadds.cash, ledgerOf_append hadds.operations, hbooks.credit, sumOver_cons,
      hnotsale, sumOver_eq_zero fun m' hm' hp => by simp [hother m' hm'] at hp]
    rfl
  · rw [cashOf_append hadds.cash, ledgerOf_append hadds.operations, hbooks.debit, sumOver_cons,
      if_pos hreturn, hvalue]
    cases hm : m with
    | none =>
      rw [hadds.nothing hm]
      rfl
    | some m' =>
      obtain ⟨currency, hdebit⟩ := hadds.debit m' hm
      have hamount : m'.amountCents = -refund origin form := hdebit.amountCents
      have hid : m'.saleId = some saleId := hdebit.saleId
      have hcategory : m'.category = "return" := hdebit.category
      simp [sumOver_cons, hid, hcategory, hamount]
  · intro m' hm' hid
    rw [hadds.cash, List.mem_append] at hm'
    rcases hm' with hold | hnew
    · exact hbooks.categories m' hold hid
    · obtain ⟨currency, hdebit⟩ := hadds.debit m' (Option.mem_toList.mp hnew)
      exact .inr hdebit.category

/-! ## Every request -/

/-- **Every service call keeps the books** of every sale. -/
theorem Books.effect {call : Call} (heffect : Effect env d call d') (h : Books saleId d) :
    Books saleId d' := by
  cases heffect with
  | nothing => exact h
  | aside hsells hreach =>
    have haside := aside_of_reaches hsells hreach
    obtain ⟨ops, hops, hplain⟩ := haside.operations
    obtain ⟨ms, hms, hcash⟩ := haside.cash
    refine h.extend hops hms (fun o ho => ?_) fun m hm hid => ?_
    · simp [ofSale, (hplain o ho).1, (hplain o ho).2]
    · rw [(hcash m hm).2.2] at hid
      cases hid
  | @sold form plan sale day ops m d' hcall hsold =>
    have hadds := hsold.adds
    by_cases hid : sale.id = saleId
    · subst hid
      obtain ⟨parsed, hcheck⟩ := hsold.check
      exact hadds.books hsold.fresh.noSale (saleCheck_ok hcheck).1
    · refine h.extend hadds.operations hadds.cash (fun o ho => ?_) fun m' hm' => ?_
      · obtain ⟨l, -, hl⟩ := hadds.line ho
        have hsale : o.saleId = some sale.id := hl.saleId
        simp [ofSale, hsale, hid]
      · rw [List.mem_singleton.mp hm', hadds.credit.saleId]
        exact fun heq => hid (Option.some.inj heq)
  | @returned form origin saleId' op day m d' hcall hreturned =>
    by_cases hid : saleId' = saleId
    · subst hid
      exact hreturned.books h
    · have hadds := hreturned.adds
      refine h.extend hadds.operations hadds.cash (fun o ho => ?_) fun m' hm' => ?_
      · obtain ⟨batchId, -, hcarries⟩ := hadds.row
        have hsale : op.saleId = some saleId' := hcarries.saleId
        simp [ofSale, List.mem_singleton.mp ho, hsale, hid]
      · obtain ⟨currency, hdebit⟩ := hadds.debit m' (Option.mem_toList.mp hm')
        rw [hdebit.saleId]
        exact fun heq => hid (Option.some.inj heq)

theorem noSale_empty (saleId : String) : NoSale saleId {} where
  operations _ h := absurd h List.not_mem_nil
  cash _ h := absurd h List.not_mem_nil

/-- The books of every sale are in order after every run of service calls. -/
theorem books_run {run : List Request} (hservice : ∀ r ∈ run, r.call.Service) (saleId : String) :
    Books saleId (runAll {} run) :=
  along_induct (fun _ _ h => h) (fun _ _ _ heffect h => h.effect heffect)
    (along_of_forall fun r hr _ => hservice r hr) (noSale_empty saleId).books

/-! ## The money of a sale -/

theorem Books.cash (h : Books saleId d) :
    sumOver CashMovement.amountCents (fun m => m.saleId = some saleId) d.cashMovements =
      sumOver Operation.value (fun o => ofSale "sale" saleId o || ofSale "return" saleId o)
        d.operations := by
  have hledger : sumOver Operation.value
      (fun o => ofSale "sale" saleId o || ofSale "return" saleId o) d.operations =
      ledgerOf d "sale" saleId + ledgerOf d "return" saleId := by
    refine sumOver_or fun o _ hsale => ?_
    simp [ofSale, (ofSale_iff.mp hsale).2]
  rw [hledger, ← h.credit, ← h.debit, sumOver_split _ _ fun m => m.category = "sale"]
  unfold cashOf
  congr 1
  refine sumOver_congr fun m hm _ => ?_
  by_cases hid : m.saleId = some saleId
  · rcases h.categories m hm hid with hcategory | hcategory <;> simp [hid, hcategory]
  · simp [hid]

/-- **Cash follows the ledger, sale by sale**: the cash rows of a sale sum to the worth of its
`sale` and `return` rows. -/
theorem runAll_cash (run : List Request) (hservice : ∀ r ∈ run, r.call.Service) :
    ∀ sale ∈ (runAll {} run).sales,
      sumOver CashMovement.amountCents (fun m => m.saleId = some sale.id)
          (runAll {} run).cashMovements =
        sumOver (fun o => -o.qtyDelta * o.unitPriceCents.getD 0)
          (fun o => o.saleId = some sale.id && (o.type = "sale" || o.type = "return"))
          (runAll {} run).operations := by
  intro sale _
  rw [(books_run hservice sale.id).cash]
  refine sumOver_congr fun o _ _ => ?_
  simp [ofSale, Bool.and_or_distrib_left]

/-- A UUID source of short ids: one letter more than the longest string in use. -/
def shortId : IdSource := fun used =>
  ⟨String.ofList (List.replicate ((used.map String.length).foldr max 0 + 1) 'x'), by
    constructor
    · intro h
      simpa using congrArg String.length h
    · intro h
      have hle : ∀ l : List Nat, ∀ n ∈ l, n ≤ l.foldr max 0 := by
        intro l n hn
        induction l with
        | nil => exact absurd hn List.not_mem_nil
        | cons m l ih =>
          rcases List.mem_cons.mp hn with rfl | hn
          · exact le_max_left _ _
          · exact (ih hn).trans (le_max_right _ _)
      have hlength := hle _ _ (List.mem_map_of_mem (f := String.length) h)
      simp at hlength⟩

/-- A request at midnight of one day, with short ids. -/
def atShop (call : Call) : Request := ⟨{ Env.sample with newId := shortId }, call⟩

/-- One unit of a product in each of two batches, both sold in one sale at 10 and at 1, and two
units returned from the line at 10. -/
def dearReturn : List Request :=
  let receipt : Call := .receipt
    { code := "c", name := "n", qtyRaw := "1", costRaw := "", saleRaw := "", warehouseId := "x"
      batchChoice := "new" }
  [atShop (.addWarehouse { name := "w", address := "" }), atShop receipt, atShop receipt,
    atShop (.sale
      { customerId := none, codes := ["c", "c"], qtys := ["1", "1"], prices := ["10", "1"]
        batchIds := ["xxxx", "xxxxxx"] }),
    atShop (.saleReturn { originOpId := "xxxxxxxxx", qtyRaw := "2" })]

theorem dearReturn_service : ∀ r ∈ dearReturn, r.call.Service := by
  simp [dearReturn, atShop, Call.Service]

theorem runAll_cash_dearReturn : ∃ sale ∈ (runAll {} dearReturn).sales,
    sumOver CashMovement.amountCents (fun m => m.saleId = some sale.id)
        (runAll {} dearReturn).cashMovements =
      sumOver (fun o => -o.qtyDelta * o.unitPriceCents.getD 0)
        (fun o => o.saleId = some sale.id && (o.type = "sale" || o.type = "return"))
        (runAll {} dearReturn).operations := by
  obtain ⟨sale, hsale⟩ : ∃ sale, sale ∈ (runAll {} dearReturn).sales :=
    List.exists_mem_of_ne_nil _ (by decide +kernel)
  exact ⟨sale, hsale, runAll_cash dearReturn dearReturn_service sale hsale⟩

/-! ## Returns against sales -/

/-- What the lines of a product weigh: the weight of its first line. -/
def lineWeight (d : Db) (saleId : String) (f : Operation → Int) (productId : String) : Int :=
  (d.operations.find? fun o => ofSale "sale" saleId o && o.productId = productId).elim 0 f

theorem lineWeight_nonneg {f : Operation → Int}
    (hf : ∀ o ∈ d.operations, ofSale "sale" saleId o = true → 0 ≤ f o) (productId : String) :
    0 ≤ lineWeight d saleId f productId := by
  unfold lineWeight
  cases hfind : d.operations.find? fun o => ofSale "sale" saleId o && o.productId = productId with
  | none => exact le_refl 0
  | some o =>
    have hrow := List.find?_some hfind
    rw [Bool.and_eq_true] at hrow
    exact hf o (List.mem_of_find?_eq_some hfind) hrow.1

theorem returnableQty_eq (d : Db) (saleId productId : String) :
    returnableQty d saleId productId = sumOver (fun o => -o.qtyDelta)
      (fun o => (ofSale "sale" saleId o || ofSale "return" saleId o) &&
        decide (o.productId = productId)) d.operations := by
  have hor : ∀ o : Operation, ((ofSale "sale" saleId o || ofSale "return" saleId o) &&
      decide (o.productId = productId)) =
      ((o.saleId = some saleId && o.productId = productId && o.type = "sale") ||
        (o.saleId = some saleId && o.productId = productId && o.type = "return")) := by
    intro o
    simp only [ofSale]
    by_cases hp : o.productId = productId <;> simp [hp]
  unfold returnableQty movedQty sumDelta
  simp only [hor]
  rw [sumOver_or, sumOver_neg, sumOver_neg]
  · omega
  · intro o _ hsale
    simp only [Bool.and_eq_true, decide_eq_true_eq] at hsale
    simp [hsale.2]

/-- **A weight of the lines**, over all rows of a sale: product by product, what is left to return
times the weight of its line. -/
theorem Books.weighted (h : Books saleId d) {f : Operation → Int}
    (hline : ∀ origin o, SameLine origin o → f o = f origin)
    (hone : ∀ o ∈ d.operations, ∀ o' ∈ d.operations, ofSale "sale" saleId o = true →
      ofSale "sale" saleId o' = true → o.productId = o'.productId → f o = f o') :
    sumOver (fun o => -o.qtyDelta * f o)
        (fun o => ofSale "sale" saleId o || ofSale "return" saleId o) d.operations =
      sumOver (fun p => returnableQty d saleId p * lineWeight d saleId f p) (fun _ => true)
        (d.operations.map Operation.productId).dedup := by
  have hsale : ∀ o ∈ d.operations, ofSale "sale" saleId o = true →
      f o = lineWeight d saleId f o.productId := by
    intro o ho hrow
    unfold lineWeight
    cases hfind : d.operations.find? fun o' => ofSale "sale" saleId o' &&
        o'.productId = o.productId with
    | none => exact absurd (List.find?_eq_none.mp hfind o ho) (by simp [hrow])
    | some o' =>
      have hrow' := List.find?_some hfind
      simp only [Bool.and_eq_true, decide_eq_true_eq] at hrow'
      exact hone o ho o' (List.mem_of_find?_eq_some hfind) hrow hrow'.1 hrow'.2.symm
  have hweights : sumOver (fun o => -o.qtyDelta * f o)
        (fun o => ofSale "sale" saleId o || ofSale "return" saleId o) d.operations =
      sumOver (fun o => -o.qtyDelta * lineWeight d saleId f o.productId)
        (fun o => ofSale "sale" saleId o || ofSale "return" saleId o) d.operations := by
    refine sumOver_weights fun o ho hrow => ?_
    rcases Bool.or_eq_true_iff.mp hrow with hrow | hrow
    · rw [hsale o ho hrow]
    · obtain ⟨-, origin, horigin, hsold, hsame⟩ := h.returned o ho hrow
      rw [hline origin o hsame, hsale origin horigin hsold, hsame.productId]
  have hkeys : ∀ o ∈ d.operations, (ofSale "sale" saleId o || ofSale "return" saleId o) = true →
      o.productId ∈ (d.operations.map Operation.productId).dedup :=
    fun o ho _ => List.mem_dedup.mpr (List.mem_map_of_mem ho)
  rw [hweights, sumOver_byKey (List.nodup_dedup _) hkeys]
  simp only [returnableQty_eq]

/-- What is true of each product's quantities is true of any weight of its lines. -/
theorem Books.weighted_nonneg (h : Books saleId d) {f : Operation → Int}
    (hline : ∀ origin o, SameLine origin o → f o = f origin)
    (hone : ∀ o ∈ d.operations, ∀ o' ∈ d.operations, ofSale "sale" saleId o = true →
      ofSale "sale" saleId o' = true → o.productId = o'.productId → f o = f o')
    (hf : ∀ o ∈ d.operations, ofSale "sale" saleId o = true → 0 ≤ f o) :
    0 ≤ sumOver (fun o => -o.qtyDelta * f o)
      (fun o => ofSale "sale" saleId o || ofSale "return" saleId o) d.operations := by
  rw [h.weighted hline hone]
  exact sumOver_nonneg fun p _ _ => Int.mul_nonneg (h.cap p) (lineWeight_nonneg hf p)

/-- The lines of each product of a sale share one price. -/
def OnePrice (saleId : String) (d : Db) : Prop :=
  ∀ o ∈ d.operations, ∀ o' ∈ d.operations, ofSale "sale" saleId o = true →
    ofSale "sale" saleId o' = true → o.productId = o'.productId →
    o.unitPriceCents = o'.unitPriceCents

/-- A product of a sale that one of its lines draws from a batch is drawn from it alone. -/
def OneBatch (saleId batchId : String) (d : Db) : Prop :=
  ∀ o ∈ d.operations, ∀ o' ∈ d.operations, ofSale "sale" saleId o = true →
    ofSale "sale" saleId o' = true → o.productId = o'.productId →
    (o.batchId = some batchId ↔ o'.batchId = some batchId)

/-- The units the rows of one type under a sale moved in or out of a batch. -/
def batchMoved (d : Db) (type saleId batchId : String) : Int :=
  sumDelta d.operations fun o => ofSale type saleId o && o.batchId = some batchId

/-- No more money goes back than came in, where the lines of a product share one price. -/
theorem Books.refunds_le (h : Books saleId d) (hprice : OnePrice saleId d) :
    -cashOf d "return" saleId ≤ cashOf d "sale" saleId := by
  have hnonneg := h.weighted_nonneg (f := fun o => o.unitPriceCents.getD 0)
    (fun origin o hline => by rw [hline.unitPriceCents])
    (fun o ho o' ho' hs hs' hp => by rw [hprice o ho o' ho' hs hs' hp])
    (fun o ho hs => by
      obtain ⟨-, ⟨cents, hcents, hpos⟩, -⟩ := h.sold o ho hs
      rw [hcents]
      exact hpos)
  have hsum : ledgerOf d "sale" saleId + ledgerOf d "return" saleId =
      sumOver (fun o => -o.qtyDelta * o.unitPriceCents.getD 0)
        (fun o => ofSale "sale" saleId o || ofSale "return" saleId o) d.operations := by
    refine (sumOver_or fun o _ hsale => ?_).symm
    simp [ofSale, (ofSale_iff.mp hsale).2]
  rw [h.credit, h.debit]
  omega

/-- No more units go back into a batch than were sold from it, where its product's lines draw from
it alone. -/
theorem Books.batch_le (h : Books saleId d) {batchId : String} (hbatch : OneBatch saleId batchId d) :
    batchMoved d "return" saleId batchId ≤ -batchMoved d "sale" saleId batchId := by
  have hnonneg := h.weighted_nonneg (f := fun o => if o.batchId = some batchId then 1 else 0)
    (fun origin o hline => by rw [hline.batchId])
    (fun o ho o' ho' hs hs' hp => by
      simp only [hbatch o ho o' ho' hs hs' hp])
    (fun o _ _ => by split_ifs <;> decide)
  have hsum : sumOver (fun o => -o.qtyDelta * if o.batchId = some batchId then 1 else 0)
        (fun o => ofSale "sale" saleId o || ofSale "return" saleId o) d.operations =
      -batchMoved d "sale" saleId batchId - batchMoved d "return" saleId batchId := by
    rw [sumOver_or fun o _ hsale => by simp [ofSale, (ofSale_iff.mp hsale).2]]
    have hside : ∀ type, sumOver (fun o : Operation =>
        -o.qtyDelta * if o.batchId = some batchId then 1 else 0) (ofSale type saleId)
        d.operations = -batchMoved d type saleId batchId := by
      intro type
      unfold batchMoved sumDelta
      rw [← sumOver_neg, sumOver_split _ _ fun o => decide (o.batchId = some batchId),
        sumOver_eq_zero (p := fun o => ofSale type saleId o && !decide (o.batchId = some batchId))
          fun o _ hp => by simp at hp; simp [hp.2], Int.add_zero]
      refine sumOver_weights fun o _ hp => ?_
      simp at hp
      simp [hp.2]
    rw [hside, hside]
    omega
  omega

/-- **Returns never exceed sales**, product by product; nor in money where the lines of each
product share one price, nor in a batch where its product is drawn from it alone. -/
theorem runAll_returns (run : List Request) (hservice : ∀ r ∈ run, r.call.Service)
    (saleId : String) :
    (∀ productId, movedQty (runAll {} run) "return" saleId productId ≤
        -movedQty (runAll {} run) "sale" saleId productId) ∧
      (OnePrice saleId (runAll {} run) → -cashOf (runAll {} run) "return" saleId ≤
        cashOf (runAll {} run) "sale" saleId) ∧
      ∀ batchId, OneBatch saleId batchId (runAll {} run) →
        batchMoved (runAll {} run) "return" saleId batchId ≤
          -batchMoved (runAll {} run) "sale" saleId batchId := by
  have hbooks := books_run hservice saleId
  refine ⟨fun productId => ?_, hbooks.refunds_le, fun batchId => hbooks.batch_le⟩
  have hcap := hbooks.cap productId
  unfold returnableQty at hcap
  omega

theorem runAll_returns_dearReturn :
    (∀ productId, movedQty (runAll {} dearReturn) "return" "xxxxxxxx" productId ≤
        -movedQty (runAll {} dearReturn) "sale" "xxxxxxxx" productId) ∧
      (OnePrice "xxxxxxxx" (runAll {} dearReturn) →
        -cashOf (runAll {} dearReturn) "return" "xxxxxxxx" ≤
          cashOf (runAll {} dearReturn) "sale" "xxxxxxxx") ∧
      ∀ batchId, OneBatch "xxxxxxxx" batchId (runAll {} dearReturn) →
        batchMoved (runAll {} dearReturn) "return" "xxxxxxxx" batchId ≤
          -batchMoved (runAll {} dearReturn) "sale" "xxxxxxxx" batchId :=
  runAll_returns dearReturn dearReturn_service "xxxxxxxx"

/-- The cap is counted by product, the price and the batch are those of the chosen line: all units
may go back at the dearest price, into one batch. -/
theorem not_returns_le_sales : ¬ ∀ run : List Request, (∀ r ∈ run, r.call.Service) →
    ∀ sale ∈ (runAll {} run).sales,
      -cashOf (runAll {} run) "return" sale.id ≤ cashOf (runAll {} run) "sale" sale.id ∧
        ∀ batchId, batchMoved (runAll {} run) "return" sale.id batchId ≤
          -batchMoved (runAll {} run) "sale" sale.id batchId := by
  intro h
  have hsales : ((runAll {} dearReturn).sales.map Sale.id) = ["xxxxxxxx"] := by decide +kernel
  obtain ⟨sale, hsale, hid⟩ := List.mem_map.mp (hsales ▸ List.mem_singleton_self "xxxxxxxx")
  have hle := (h dearReturn dearReturn_service sale hsale).1
  rw [hid] at hle
  revert hle
  decide +kernel

end MyOriShop
