import MyOriShop.Posting

/-!
# Selling: what a sale and a return write (`app/services/sales.py`, `returns.py`)

A sale that is done is one header, one `sale` row for each line of the checked basket and one cash
row for all of them (`Sold`). A return that is done is one `return` row and, where the origin's
price is not zero, one cash row (`Returned`). Anything else leaves nothing.

* `Posted w ops w'`: the ledger rows `ops` were appended and moved the cached quantities.

Results:
* `closes_writeSale`, `closes_writeReturn`: the write steps, on whatever store they find.
* `closes_registerSale`, `closes_registerReturn`: that is all the two services do.
* `saleCheck_ok`: what the checks of a sale let through.
-/

namespace MyOriShop

open Lib.Text Lib.IsoDate Lib.Sums Lib.Transaction Lib.Fallible

variable {env : Env} {w w' w'' d d' : Db}

/-! ## Ledger rows one after another -/

/-- A row carries what its call asked for. -/
structure Carries (args : OperationArgs) (op : Operation) : Prop where
  type : op.type = args.type
  productId : op.productId = args.productId
  qtyDelta : op.qtyDelta = args.qtyDelta
  unitCostCents : op.unitCostCents = args.unitCostCents
  unitPriceCents : op.unitPriceCents = args.unitPriceCents
  saleId : op.saleId = args.saleId
  batchId : args.type ∈ stockAffectingTypes → op.batchId = args.batchId
  day : ∀ day ∈ args.businessDate, op.businessDate = some day.isoformat

theorem batchGuard_stock {args : OperationArgs} {batchId : Option String}
    (h : batchGuard env w args = .ok batchId) (hstock : args.type ∈ stockAffectingTypes) :
    batchId = args.batchId ∧ ∃ b ∈ w.batches, batchId = some b.id ∧ b.productId = args.productId := by
  refine ⟨?_, (batchGuard_ok h).resolve_left fun haudit => haudit.1 hstock⟩
  unfold batchGuard at h
  rw [if_pos hstock] at h
  split at h
  · cases h
  · next i hargs =>
    split at h
    · cases h
    · split_ifs at h
      cases h
      exact hargs.symm

theorem Recorded.carries {args : OperationArgs} {op : Operation} (h : Recorded env args w op w') :
    Carries args op := by
  obtain ⟨createdAt, day, -, hday, hop⟩ := h.row
  have hbatch := h.batch
  rw [hop] at hbatch ⊢
  refine ⟨rfl, rfl, rfl, rfl, rfl, rfl, fun hstock => (batchGuard_stock hbatch hstock).1, ?_⟩
  intro d hd
  rw [← hday d hd]
  rfl

/-- The batch a stock row moves. -/
theorem Recorded.moves {args : OperationArgs} {op : Operation} (h : Recorded env args w op w')
    (hstock : args.type ∈ stockAffectingTypes) :
    ∃ b ∈ w.batches, op.batchId = some b.id ∧ b.productId = op.productId := by
  obtain ⟨-, b, hb, hid, hproduct⟩ := batchGuard_stock h.batch hstock
  exact ⟨b, hb, hid, hproduct.trans h.carries.productId.symm⟩

/-- Ledger rows were appended, and moved the cached quantities. -/
structure Posted (w : Db) (ops : List Operation) (w' : Db) : Prop where
  operations : w'.operations = w.operations ++ ops
  products : w'.products.map (fun p => (p.id, p.quantity)) =
    w.products.map fun p => (p.id, p.quantity + computeStock ops p.id)
  batches : w'.batches.map (fun b => (b.id, b.productId, b.warehouseId, b.quantity)) =
    w.batches.map fun b => (b.id, b.productId, b.warehouseId, b.quantity + batchSum ops b.id)
  rest : ∀ k, k ≠ .operation → k ≠ .product → k ≠ .batch → w'.get k = w.get k

theorem posted_nil (w : Db) : Posted w [] w where
  operations := (List.append_nil _).symm
  products := by simp [computeStock, sumDelta]
  batches := by simp [batchSum, sumDelta]
  rest _ _ _ _ := rfl

theorem posted_applyOperation (w : Db) (op : Operation) (stamp : String) :
    Posted w [op] (w.applyOperation op stamp) := by
  obtain ⟨hops, hproducts, hbatches⟩ := applyOperation_get w op stamp
  refine ⟨hops, ?_, ?_, fun k ho hp hb => applyOperation_get_ne w op stamp ho hp hb⟩
  · rw [hproducts, List.map_map]
    refine List.map_congr_left fun p _ => ?_
    by_cases hp : p.id = op.productId
    · simp [Function.comp_apply, hp, Product.bump, computeStock, sumDelta, sumOver_cons]
    · simp [Function.comp_apply, hp, Ne.symm hp, computeStock, sumDelta, sumOver_cons]
  · rw [hbatches, List.map_map]
    refine List.map_congr_left fun b _ => ?_
    by_cases hb : op.batchId = some b.id
    · simp [Function.comp_apply, hb, Batch.bump, batchSum, sumDelta, sumOver_cons]
    · simp [Function.comp_apply, hb, batchSum, sumDelta, sumOver_cons]

theorem Posted.trans {ops ops' : List Operation} (h : Posted w ops w') (h' : Posted w' ops' w'') :
    Posted w (ops ++ ops') w'' := by
  refine ⟨?_, ?_, ?_, fun k ho hp hb => (h'.rest k ho hp hb).trans (h.rest k ho hp hb)⟩
  · rw [h'.operations, h.operations, List.append_assoc]
  · have hmoved := congrArg (List.map fun p : String × Int => (p.1, p.2 + computeStock ops' p.1))
      h.products
    rw [List.map_map, List.map_map] at hmoved
    refine h'.products.trans (hmoved.trans (List.map_congr_left fun p _ => ?_))
    simp only [Function.comp_apply, computeStock, sumDelta, sumOver_append, Int.add_assoc]
  · have hmoved := congrArg (List.map fun b : String × String × String × Int =>
      (b.1, b.2.1, b.2.2.1, b.2.2.2 + batchSum ops' b.1)) h.batches
    rw [List.map_map, List.map_map] at hmoved
    refine h'.batches.trans (hmoved.trans (List.map_congr_left fun b _ => ?_))
    simp only [Function.comp_apply, batchSum, sumDelta, sumOver_append, Int.add_assoc]

theorem Recorded.posted {args : OperationArgs} {op : Operation} (h : Recorded env args w op w') :
    Posted w [op] w' := by
  obtain ⟨stamp, rfl⟩ := h.next
  exact posted_applyOperation w op stamp

/-- Ledger rows recorded one after another. -/
inductive RecordedAll (env : Env) : List OperationArgs → Db → List Operation → Db → Prop where
  | nil (w : Db) : RecordedAll env [] w [] w
  | cons {args : OperationArgs} {rest : List OperationArgs} {w w' w'' : Db} {op : Operation}
      {ops : List Operation} (h : Recorded env args w op w')
      (hrest : RecordedAll env rest w' ops w'') : RecordedAll env (args :: rest) w (op :: ops) w''

theorem RecordedAll.posted {rows : List OperationArgs} {ops : List Operation}
    (h : RecordedAll env rows w ops w') : Posted w ops w' := by
  induction h with
  | nil w => exact posted_nil w
  | cons h _ ih => exact h.posted.trans ih

theorem RecordedAll.carries {rows : List OperationArgs} {ops : List Operation}
    (h : RecordedAll env rows w ops w') : List.Forall₂ Carries rows ops := by
  induction h with
  | nil w => exact .nil
  | cons h _ ih => exact .cons h.carries ih

/-! ## A sale -/

/-- The cash row of a sale. -/
def saleCashArgs (plan : SalePlan) (saleId : String) (day : Date) : CashArgs where
  category := "sale"
  amountCents := saleTotal plan.lines
  currency := plan.currency
  businessDate := some day
  saleId := some saleId

/-- A sale that is done. -/
structure Sold (env : Env) (form : SaleForm) (d : Db) (plan : SalePlan) (sale : Sale) (day : Date)
    (ops : List Operation) (m : CashMovement) (d' : Db) : Prop where
  check : ∃ parsed, saleCheck env d form parsed = .ok plan
  fresh : Fresh d sale.id
  rows : ∃ w, RecordedAll env (plan.lines.map (saleArgs plan.currency sale.id day))
    (d.insert .sale [sale]) ops w ∧ CashRecorded env (saleCashArgs plan sale.id day) w m d'
  ok : d'.Ok

/-- A cash row carries what its call asked for. -/
structure CashCarries (args : CashArgs) (m : CashMovement) : Prop where
  category : m.category = args.category
  amountCents : m.amountCents = args.amountCents
  currency : m.currency = args.currency
  saleId : m.saleId = args.saleId
  day : ∀ day ∈ args.businessDate, m.businessDate = some day.isoformat

theorem CashRecorded.carries {args : CashArgs} {m : CashMovement}
    (h : CashRecorded env args w m w') : CashCarries args m := by
  obtain ⟨createdAt, day, -, hday, rfl⟩ := h.row
  refine ⟨rfl, rfl, rfl, rfl, fun d hd => ?_⟩
  rw [← hday d hd]
  rfl

/-- What a sale appends to the two ledgers. -/
structure Sold.Adds (d : Db) (plan : SalePlan) (sale : Sale) (day : Date) (ops : List Operation)
    (m : CashMovement) (d' : Db) : Prop where
  operations : d'.operations = d.operations ++ ops
  cash : d'.cashMovements = d.cashMovements ++ [m]
  lines : List.Forall₂ Carries (plan.lines.map (saleArgs plan.currency sale.id day)) ops
  credit : CashCarries (saleCashArgs plan sale.id day) m

/-- The rows of a sale: one for each line of its basket, and one cash row. -/
def SaleRows (env : Env) (d : Db) (plan : SalePlan) (sale : Sale) (day : Date)
    (ops : List Operation) (m : CashMovement) (d' : Db) : Prop :=
  ∃ w, RecordedAll env (plan.lines.map (saleArgs plan.currency sale.id day))
    (d.insert .sale [sale]) ops w ∧ CashRecorded env (saleCashArgs plan sale.id day) w m d'

theorem SaleRows.adds {plan : SalePlan} {sale : Sale} {day : Date} {ops : List Operation}
    {m : CashMovement} (h : SaleRows env d plan sale day ops m d') :
    Sold.Adds d plan sale day ops m d' := by
  obtain ⟨w, hops, hcash⟩ := h
  have hposted := hops.posted
  refine ⟨?_, ?_, hops.carries, hcash.carries⟩
  · rw [hcash.next]
    exact hposted.operations
  · rw [hcash.next]
    have hsame := hposted.rest .cashMovement (by decide) (by decide) (by decide)
    show w.get .cashMovement ++ [m] = _
    rw [hsame]
    rfl

theorem Sold.adds {form : SaleForm} {plan : SalePlan} {sale : Sale} {day : Date}
    {ops : List Operation} {m : CashMovement} (h : Sold env form d plan sale day ops m d') :
    Sold.Adds d plan sale day ops m d' :=
  SaleRows.adds h.rows

theorem stages_recordLines {currency saleId : String} {day : Date} (ls : List BasketLine) (w : Db) :
    Stages w (recordLines env currency saleId day ls) fun _ w' =>
      ∃ ops, RecordedAll env (ls.map (saleArgs currency saleId day)) w ops w' := by
  induction ls generalizing w with
  | nil => exact stages_pure ⟨[], .nil w⟩
  | cons l ls ih =>
    refine stages_bind (stages_recordOperation _) fun op w' h => (ih w').mono ?_
    rintro _ w'' ⟨ops, hrest⟩
    exact ⟨op :: ops, .cons h hrest⟩

theorem answers_saleCheck {db : Db} {form : SaleForm} {day : Except String (Option Date)} :
    Answers (saleCheck env db form day) := by
  unfold saleCheck
  dsimp only
  split_ifs
  · exact answers_bind answers_refuse fun _ => answers_bind answers_stop fun _ => by
      split
      · exact answers_refuse
      · exact answers_refuse
      · split_ifs
        · exact answers_bind answers_warned fun _ => answers_ok
        · exact answers_ok
  · refine answers_bind answers_stop fun _ => ?_
    split
    · exact answers_refuse
    · exact answers_refuse
    · split_ifs
      · exact answers_bind answers_warned fun _ => answers_ok
      · exact answers_ok

/-- The write step of a sale, on whatever store it finds, is done whole or leaves nothing. -/
theorem closes_writeSale (form : SaleForm) (parsed : Except String (Option Date))
    (plan : SalePlan) :
    Closes d d Outcome.No (writeSale env form parsed plan) fun answer d' => ∃ sale day ops m,
      answer = .done ⟨sale.id, plan.lines.length, saleTotal plan.lines⟩ ∧ Fresh d sale.id ∧
        SaleRows env d plan sale day ops m d' ∧ d'.Ok := by
  unfold writeSale
  refine closes_read (closes_bind (stages_dayOrToday _) ?_)
  rintro day w ⟨-, rfl⟩
  refine closes_bind stages_utcnowIso ?_
  rintro createdAt w ⟨-, rfl⟩
  refine closes_stage (closes_recover ?_ fun e y h => closes_rollbackWith h trivial)
  refine closes_bind (stages_recordLines _ _) ?_
  rintro _ w' ⟨ops, hops⟩
  refine closes_bind (stages_recordCashMovement _) fun m w'' hcash => closes_done fun hok => ?_
  exact ⟨_, day, ops, m, rfl, (env.newId w.usedIds).2, ⟨w', hops, hcash⟩, hok⟩

/-- **A sale** is done whole, or leaves nothing. -/
theorem closes_registerSale (form : SaleForm) :
    Closes d d Outcome.No (registerSale env form) fun answer d' => ∃ plan sale day ops m,
      answer = .done ⟨sale.id, plan.lines.length, saleTotal plan.lines⟩ ∧
        Sold env form d plan sale day ops m d' := by
  rw [registerSale_eq]
  refine closes_bind (stages_parseOpDate _) ?_
  rintro parsed _ rfl
  refine closes_read (closes_orAnswer answers_saleCheck fun plan hplan => ?_)
  refine (closes_writeSale form parsed plan).mono ?_
  rintro _ d' ⟨sale, day, ops, m, rfl, fresh, hrows, hok⟩
  exact ⟨plan, sale, day, ops, m, rfl, ⟨parsed, hplan⟩, fresh, hrows, hok⟩

/-! ## What a sale's checks let through -/

/-- A basket line that can be sold. -/
structure Sellable (db : Db) (l : BasketLine) : Prop where
  qty : 0 < l.qty
  price : 0 ≤ l.priceCents
  product : l.product ∈ db.products
  batch : l.batch ∈ db.batches
  owner : l.batch.productId = l.product.id

theorem basketErrors_eq_nil {db : Db} {errors : Errors} {i : Nat} {ls : List RawLine} :
    basketErrors env db errors i ls = [] ↔
      errors = [] ∧ ∀ l ∈ ls, lineErrors env db [] 0 l = [] := by
  have hline : ∀ (errors : Errors) (i : Nat) (l : RawLine),
      lineErrors env db errors i l = [] ↔ errors = [] ∧ lineErrors env db [] 0 l = [] := by
    intro errors i l
    simp only [lineErrors, Errors.putIf_eq_nil, Errors.putField_eq_nil]
    constructor
    · rintro ⟨hbatch, hproduct, hprice, hqty, herrors⟩
      exact ⟨herrors, hbatch, hproduct, hprice, hqty, trivial⟩
    · rintro ⟨herrors, hbatch, hproduct, hprice, hqty, -⟩
      exact ⟨hbatch, hproduct, hprice, hqty, herrors⟩
  induction ls generalizing errors i with
  | nil => simp [basketErrors]
  | cons l ls ih =>
    refine ih.trans ?_
    rw [hline, List.forall_mem_cons, and_assoc]

theorem linePrice_nonneg {raw : String} {cents : Int} (h : linePrice raw = .ok cents) :
    0 ≤ cents := by
  unfold linePrice at h
  split_ifs at h
  split at h
  · cases h
  · split_ifs at h with hneg
    cases h
    exact not_lt.mp hneg

theorem lineBatch_ok {db : Db} {product : Option Product} {raw : String} {b : Batch}
    (h : lineBatch env db product raw = some b) :
    b ∈ db.batches ∧ ∀ p ∈ product, b.productId = p.id := by
  unfold lineBatch at h
  obtain ⟨hb, hguard⟩ := Option.filter_eq_some_iff.mp h
  rw [Bool.and_eq_true] at hguard
  constructor
  · split_ifs at hb
    exact (Db.mem_of_find (k := .batch) hb).1
  · rintro p ⟨⟩
    simpa using hguard.1

/-- A complete line without errors can be sold. -/
theorem sellable_of_complete {db : Db} {raw : RawLine} {l : BasketLine}
    (herrors : lineErrors env db [] 0 raw = []) (h : (resolveLine env db raw).complete = some l) :
    Sellable db l := by
  have hqty : 0 < parseQty raw.qty := by
    simp only [lineErrors, Errors.putIf_eq_nil, Errors.putField_eq_nil] at herrors
    obtain ⟨-, -, -, hqty, -⟩ := herrors
    exact not_le.mp (of_decide_eq_false hqty)
  unfold ResolvedLine.complete at h
  simp only [Option.pure_def, Option.bind_eq_bind, Option.bind_eq_some_iff] at h
  obtain ⟨p, hp, cents, hcents, b, hb, hl⟩ := h
  cases hl
  obtain ⟨hmem, howner⟩ := lineBatch_ok hb
  refine ⟨hqty, ?_, List.mem_of_find?_eq_some hp, hmem, howner p hp⟩
  have hcents' : (linePrice raw.price).toOption = some cents := hcents
  cases hprice : linePrice raw.price with
  | error e =>
    rw [hprice] at hcents'
    cases hcents'
  | ok c =>
    rw [hprice] at hcents'
    cases hcents'
    exact linePrice_nonneg hprice

/-- **What the checks of a sale let through**: lines that can be sold, from warehouses of one
currency. -/
theorem saleCheck_ok {db : Db} {form : SaleForm} {day : Except String (Option Date)}
    {plan : SalePlan} (h : saleCheck env db form day = .ok plan) :
    (∀ l ∈ plan.lines, Sellable db l) ∧ basketCurrencies db plan.lines = [plan.currency] := by
  unfold saleCheck at h
  dsimp only at h
  split_ifs at h with hraw
  · cases h
  obtain ⟨_, hstop, h⟩ := bind_ok_iff.mp h
  have herrors := Errors.stop_ok_iff.mp hstop
  rw [Errors.putDate_eq_nil, basketErrors_eq_nil] at herrors
  split at h
  · cases h
  · cases h
  · next currency hcurrency =>
    have hplan : plan = ⟨(nonBlankLines form.codes form.qtys form.prices form.batchIds).filterMap
        fun l => (resolveLine env db l).complete, currency⟩ := by
      split_ifs at h <;> cases h
      rfl
    subst hplan
    refine ⟨fun l hl => ?_, hcurrency⟩
    obtain ⟨raw, hmem, hcomplete⟩ := List.mem_filterMap.mp hl
    exact sellable_of_complete (herrors.2.2 raw hmem) hcomplete

/-! ## A return -/

/-- The batch a return goes to, and the working copy with it. -/
inductive ReturnBatch (d : Db) (origin : Operation) : String → Db → Prop where
  | origin {batchId : String} (h : origin.batchId = some batchId) : ReturnBatch d origin batchId d
  | legacy {b : Batch} (h : origin.batchId = none) (hb : legacyBatch d origin.productId = some b) :
      ReturnBatch d origin b.id d
  | created {batchId now : String} (h : origin.batchId = none)
      (hnone : legacyBatch d origin.productId = none) (fresh : Fresh d batchId) :
      ReturnBatch d origin batchId (d.insert .batch [lazyLegacyBatch origin.productId batchId now])

/-- The cash row of a return. -/
def refundArgs (saleId currency : String) (debit : Int) (day : Date) : CashArgs where
  category := "return"
  amountCents := -debit
  currency := currency
  businessDate := some day
  saleId := some saleId

/-- The money side of a return: nothing for a price of zero. -/
inductive Refunded (env : Env) (saleId : String) (debit : Int) (batchId : String) (day : Date)
    (w : Db) : Option CashMovement → Db → Prop where
  | nothing (h : debit = 0) : Refunded env saleId debit batchId day w none w
  | cash {warehouse : Warehouse} {m : CashMovement} {w' : Db} (h : debit ≠ 0)
      (hw : warehouseOfBatch w batchId = some warehouse)
      (hm : CashRecorded env (refundArgs saleId warehouse.currency debit day) w m w') :
      Refunded env saleId debit batchId day w (some m) w'

/-- What a return gives back. -/
def refund (origin : Operation) (form : ReturnForm) : Int :=
  parseQty form.qtyRaw * origin.unitPriceCents.getD 0

/-- A return that is done. -/
structure Returned (env : Env) (form : ReturnForm) (d : Db) (origin : Operation) (saleId : String)
    (op : Operation) (day : Date) (m : Option CashMovement) (d' : Db) : Prop where
  check : ∃ remaining, returnCheck env d form = .ok (origin, saleId, remaining)
  rows : ∃ batchId w w', ReturnBatch d origin batchId w ∧
    Recorded env (returnArgs origin saleId (parseQty form.qtyRaw) batchId day) w op w' ∧
    Refunded env saleId (refund origin form) batchId day w' m d'
  ok : d'.Ok

/-- What a return appends to the two ledgers. -/
structure Returned.Adds (form : ReturnForm) (d : Db) (origin : Operation) (saleId : String)
    (op : Operation) (day : Date) (m : Option CashMovement) (d' : Db) : Prop where
  operations : d'.operations = d.operations ++ [op]
  cash : d'.cashMovements = d.cashMovements ++ m.toList
  row : ∃ batchId, (∀ b ∈ origin.batchId, batchId = b) ∧
    Carries (returnArgs origin saleId (parseQty form.qtyRaw) batchId day) op
  nothing : m = none → refund origin form = 0
  debit : ∀ m' ∈ m, ∃ currency, CashCarries (refundArgs saleId currency (refund origin form) day) m'

theorem ReturnBatch.ledgers {origin : Operation} {batchId : String}
    (h : ReturnBatch d origin batchId w) :
    w.operations = d.operations ∧ w.cashMovements = d.cashMovements ∧
      ∀ b ∈ origin.batchId, batchId = b := by
  cases h with
  | origin h => exact ⟨rfl, rfl, fun b hb => Option.some.inj (h.symm.trans hb)⟩
  | legacy h => exact ⟨rfl, rfl, fun b hb => nomatch h.symm.trans hb⟩
  | created h => exact ⟨rfl, rfl, fun b hb => nomatch h.symm.trans hb⟩

/-- The rows of a return: one stock row, and a cash row if there is something to give back. -/
def ReturnRows (env : Env) (form : ReturnForm) (d : Db) (origin : Operation) (saleId : String)
    (op : Operation) (day : Date) (m : Option CashMovement) (d' : Db) : Prop :=
  ∃ batchId w w', ReturnBatch d origin batchId w ∧
    Recorded env (returnArgs origin saleId (parseQty form.qtyRaw) batchId day) w op w' ∧
    Refunded env saleId (refund origin form) batchId day w' m d'

theorem ReturnRows.adds {form : ReturnForm} {origin : Operation} {saleId : String} {op : Operation}
    {day : Date} {m : Option CashMovement} (h : ReturnRows env form d origin saleId op day m d') :
    Returned.Adds form d origin saleId op day m d' := by
  obtain ⟨batchId, w, w', hbatch, hop, hrefund⟩ := h
  obtain ⟨hoperations, hcash, horigin⟩ := hbatch.ledgers
  have hposted := hop.posted
  have hops : w'.operations = d.operations ++ [op] := by rw [hposted.operations, hoperations]
  have hcash' : w'.cashMovements = d.cashMovements :=
    (hposted.rest .cashMovement (by decide) (by decide) (by decide)).trans hcash
  cases hrefund with
  | nothing hzero =>
    refine ⟨hops, ?_, ⟨batchId, horigin, hop.carries⟩, fun _ => hzero, fun _ h => nomatch h⟩
    rw [hcash', Option.toList_none, List.append_nil]
  | cash hne hwarehouse hm =>
    refine ⟨?_, ?_, ⟨batchId, horigin, hop.carries⟩, fun h => (nomatch h), ?_⟩
    · rw [hm.next]
      exact hops
    · rw [hm.next]
      show w'.cashMovements ++ _ = _
      rw [hcash']
      rfl
    · rintro _ ⟨⟩
      exact ⟨_, hm.carries⟩

theorem Returned.adds {form : ReturnForm} {origin : Operation} {saleId : String} {op : Operation}
    {day : Date} {m : Option CashMovement} (h : Returned env form d origin saleId op day m d') :
    Returned.Adds form d origin saleId op day m d' :=
  ReturnRows.adds h.rows

theorem stages_resolveOrCreate (origin : Operation) :
    Stages d (resolveOrCreateReturnBatchId env origin) (ReturnBatch d origin) := by
  unfold resolveOrCreateReturnBatchId
  cases hbatch : origin.batchId with
  | some batchId => exact stages_pure (.origin hbatch)
  | none =>
    refine stages_read ?_
    cases hlegacy : legacyBatch d origin.productId with
    | some b => exact stages_pure (.legacy hbatch hlegacy)
    | none =>
      refine stages_bind stages_utcnowIso ?_
      rintro now _ ⟨-, rfl⟩
      refine stages_stage (stages_flush' fun _ => stages_pure ?_)
      exact .created hbatch hlegacy (env.newId _).2

/-- The end of a return. -/
theorem closes_settleReturn {saleId batchId : String} {debit : Int} {day : Date}
    {result : Operation × Int} {Q : Outcome (Operation × Int) → Db → Prop}
    (h : ∀ m d', Refunded env saleId debit batchId day w m d' → d'.Ok → Q (.done result) d') :
    Closes d w Outcome.No (settleReturn env saleId debit batchId day (.done result)) Q := by
  unfold settleReturn
  split_ifs with hdebit
  · exact closes_done fun hok => h none w (.nothing hdebit) hok
  · refine closes_read ?_
    split
    · exact closes_rollback trivial
    · next warehouse hw =>
      refine closes_bind (stages_recordCashMovement _) fun m w' hm => closes_done fun hok => ?_
      exact h (some m) w' (.cash hdebit hw hm) hok

theorem answers_returnCheck {db : Db} {form : ReturnForm} : Answers (returnCheck env db form) := by
  unfold returnCheck
  split
  · simp only [refuse_bind]
    split_ifs <;> first | exact answers_refuse | exact answers_ok
  · exact answers_refuse

/-- **What the checks of a return let through**: a positive quantity of a sale row, no more than
what is left of its product in its sale. -/
theorem returnCheck_ok {db : Db} {form : ReturnForm} {origin : Operation} {saleId : String}
    {remaining : Int} (h : returnCheck env db form = .ok (origin, saleId, remaining)) :
    origin ∈ db.operations ∧ origin.id = form.originOpId ∧ origin.type = "sale" ∧
      origin.saleId = some saleId ∧ 0 < parseQty form.qtyRaw ∧ parseQty form.qtyRaw ≤ remaining ∧
      remaining = returnableQty db saleId origin.productId := by
  unfold returnCheck at h
  split at h
  · next found saleId' hfound =>
    simp only [refuse_bind] at h
    split_ifs at h with hqty hleft hmore
    · cases h
    · cases h
    · cases h
    · cases h
      unfold returnOrigin at hfound
      simp only [Option.bind_eq_bind, Option.bind_eq_some_iff] at hfound
      obtain ⟨row, hrow, sale, hsale, hguard⟩ := hfound
      split_ifs at hguard with hsold
      cases hguard
      obtain ⟨hmem, hid⟩ := Db.mem_of_find (k := .operation) hrow
      exact ⟨hmem, hid, hsold.1, hsale, not_le.mp hqty, not_lt.mp hmore, rfl⟩
  · cases h

/-- The write step of a return, on whatever store it finds, is done whole or leaves nothing. -/
theorem closes_writeReturn (form : ReturnForm) (origin : Operation) (saleId : String)
    (remaining : Int) :
    Closes d d Outcome.No (writeReturn env form (origin, saleId, remaining)) fun answer d' =>
      ∃ op day m, answer = .done (op, remaining - parseQty form.qtyRaw) ∧
        ReturnRows env form d origin saleId op day m d' ∧ d'.Ok := by
  unfold writeReturn
  refine closes_bind (stages_parseOpDate _) ?_
  rintro parsed _ rfl
  refine closes_orAnswer answers_stop fun _ _ => ?_
  refine closes_bind (stages_dayOrToday _) ?_
  rintro day _ ⟨-, rfl⟩
  refine closes_recover ?_ ?_
  · refine closes_bind (stages_resolveOrCreate origin) fun batchId w hbatch => ?_
    refine closes_bind (stages_recordOperation _) fun op w' hop => closes_settleReturn ?_
    exact fun m d' hm hok => ⟨op, day, m, rfl, ⟨batchId, w, w', hbatch, hop, hm⟩, hok⟩
  · intro e y h
    unfold returnHandler at h
    split_ifs at h
    · exact closes_rollbackWith h trivial
    · exact closes_rollbackWith h trivial

/-- **A return** is done whole, or leaves nothing. -/
theorem closes_registerReturn (form : ReturnForm) :
    Closes d d Outcome.No (registerReturn env form) fun answer d' => ∃ origin saleId op day m,
      answer = .done (op, returnableQty d saleId origin.productId - parseQty form.qtyRaw) ∧
        Returned env form d origin saleId op day m d' := by
  rw [registerReturn_eq]
  refine closes_read (closes_orAnswer answers_returnCheck ?_)
  rintro ⟨origin, saleId, remaining⟩ hcheck
  refine (closes_writeReturn form origin saleId remaining).mono ?_
  rintro _ d' ⟨op, day, m, rfl, hrows, hok⟩
  have hremaining := (returnCheck_ok hcheck).2.2.2.2.2.2
  exact ⟨origin, saleId, op, day, m, by rw [hremaining], ⟨remaining, hcheck⟩, hrows, hok⟩

end MyOriShop
