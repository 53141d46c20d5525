import MyOriShop.Agreement

/-!
# Undo: a full return undoes its sale (`app/services/sales.py`, `returns.py`, `reports.py`)

* `FullReturn` is a sale of pairwise distinct products and a run after it at whose end nothing of
  the sale is left to return. The run may hold any other requests.
* `Db.withoutSale` is a database without the rows of a sale.

Results:
* `moved_of_writes`: a cached quantity moves by the ledger rows that were appended, and by them
  alone.
* `Books.weighted_zero`: nothing left to return makes every weight of the lines vanish.
* `fullReturn_undoes`: quantities, cash, profit report and balance are as without the sale.
-/

namespace MyOriShop

open Lib.Sums Lib.IsoDate Lib.Fallible Lib.Transaction
open Relation (ReflTransGen)

variable {env : Env} {d d' : Db} {saleId currency : String} {r : Request}

/-! ## Quantities move by the ledger -/

/-- Ledger rows were appended, and every cached quantity moved by them. -/
structure Moved (d : Db) (ops : List Operation) (d' : Db) : Prop where
  operations : d'.operations = d.operations ++ ops
  product : ∀ p ∈ d.products, ∃ p' ∈ d'.products, p'.id = p.id ∧
    p'.quantity = p.quantity + computeStock ops p.id
  batch : ∀ b ∈ d.batches, ∃ b' ∈ d'.batches, b'.id = b.id ∧ b'.productId = b.productId ∧
    b'.quantity = b.quantity + batchSum ops b.id
  owner : ∀ o ∈ ops, o.qtyDelta ≠ 0 → ∀ b ∈ d.batches, o.batchId = some b.id →
    b.productId = o.productId
  nodup : (d'.ids .batch).Nodup

theorem Moved.refl (h : (d.ids .batch).Nodup) : Moved d [] d where
  operations := (List.append_nil _).symm
  product p hp := ⟨p, hp, rfl, by simp [computeStock, sumDelta]⟩
  batch b hb := ⟨b, hb, rfl, rfl, by simp [batchSum, sumDelta]⟩
  owner o ho := absurd ho List.not_mem_nil
  nodup := h

/-- A write that appends no ledger row and moves no quantity. -/
theorem Moved.still {ops : List Operation} {d'' : Db} (h : Moved d ops d')
    (hops : d''.operations = d'.operations)
    (hproduct : ∀ p ∈ d'.products, ∃ p' ∈ d''.products, p'.id = p.id ∧ p'.quantity = p.quantity)
    (hbatch : ∀ b ∈ d'.batches, ∃ b' ∈ d''.batches, b'.id = b.id ∧ b'.productId = b.productId ∧
      b'.quantity = b.quantity) (hnodup : (d''.ids .batch).Nodup) : Moved d ops d'' where
  operations := hops.trans h.operations
  product p hp := by
    obtain ⟨p', hp', hid, hq⟩ := h.product p hp
    obtain ⟨p'', hp'', hid', hq'⟩ := hproduct p' hp'
    exact ⟨p'', hp'', hid'.trans hid, hq'.trans hq⟩
  batch b hb := by
    obtain ⟨b', hb', hid, hp, hq⟩ := h.batch b hb
    obtain ⟨b'', hb'', hid', hp', hq'⟩ := hbatch b' hb'
    exact ⟨b'', hb'', hid'.trans hid, hp'.trans hp, hq'.trans hq⟩
  owner := h.owner
  nodup := hnodup

/-- An appended ledger row. -/
theorem Moved.operation {ops : List Operation} (h : Moved d ops d') {op : Operation}
    (hborn : OperationBorn d' op) (stamp : String)
    (hnodup : ((d'.applyOperation op stamp).ids .batch).Nodup) :
    Moved d (ops ++ [op]) (d'.applyOperation op stamp) := by
  obtain ⟨hops, hproducts, hbatches⟩ := applyOperation_get d' op stamp
  constructor
  · rw [hops, h.operations, List.append_assoc]
  · intro p hp
    obtain ⟨p', hp', hid, hq⟩ := h.product p hp
    refine ⟨_, hproducts ▸ List.mem_map_of_mem hp', ?_, ?_⟩
    · split_ifs <;> exact hid
    · rw [computeStock, sumDelta, sumOver_append, ← sumDelta, ← computeStock, sumOver_cons]
      by_cases hop : p'.id = op.productId
      · rw [if_pos hop, if_pos (by simpa using (hid.symm.trans hop).symm)]
        show p'.quantity + op.qtyDelta = _
        rw [hq, sumOver_nil]
        omega
      · rw [if_neg hop, if_neg (by simpa using fun heq => hop (hid.trans heq.symm)), hq, sumOver_nil]
        omega
  · intro b hb
    obtain ⟨b', hb', hid, hp, hq⟩ := h.batch b hb
    refine ⟨_, hbatches ▸ List.mem_map_of_mem hb', ?_, ?_, ?_⟩
    · split_ifs <;> exact hid
    · split_ifs <;> exact hp
    · rw [batchSum, sumDelta, sumOver_append, ← sumDelta, ← batchSum, sumOver_cons, ← hid]
      by_cases hop : op.batchId = some b'.id
      · rw [if_pos hop, if_pos (by simpa using hop)]
        show b'.quantity + op.qtyDelta = _
        rw [hq, hid, sumOver_nil]
        omega
      · rw [if_neg hop, if_neg (by simpa using hop), hq, hid, sumOver_nil]
        omega
  · intro o ho hne b hb hbatch
    rcases List.mem_append.mp ho with ho | ho
    · exact h.owner o ho hne b hb hbatch
    · rw [List.mem_singleton] at ho
      subst ho
      obtain ⟨b', hb', hid, hp, -⟩ := h.batch b hb
      rcases hborn.batch with ⟨-, hzero⟩ | ⟨b'', hb'', hid'', hp''⟩
      · exact absurd hzero hne
      · have hsame : b'' = b' := by
          refine List.inj_on_of_nodup_map h.nodup hb'' hb' ?_
          exact (Option.some.inj (hid''.symm.trans hbatch)).trans hid.symm
        rw [← hp, ← hsame, hp'']
  · exact hnodup

/-- **A cached quantity moves by the ledger**: whatever the services write, a product and a batch
move by the rows that were appended for them. -/
theorem moved_of_writes {free : String → Prop} (h : ReflTransGen (Write free) d d')
    (hnodup : (d.ids .batch).Nodup) : ∃ ops, Moved d ops d' := by
  refine Writes.induct (motive := fun d' => ∃ ops, Moved d ops d') ?_ h ⟨[], .refl hnodup⟩
  rintro x y hw ⟨ops, hmoved⟩
  have hnodup' := hw.nodup hmoved.nodup
  cases hw with
  | born k row fresh hborn =>
    refine ⟨ops, hmoved.still ?_ (fun p hp => ?_) (fun b hb => ?_) hnodup'⟩
    · exact Db.get_insert_ne x (k := k) (fun heq : .operation = k => by subst heq; exact hborn) _
    · exact ⟨p, kept_get_insert (l := .product) hp, rfl, rfl⟩
    · exact ⟨b, kept_get_insert (l := .batch) hb, rfl, rfl, rfl⟩
  | edited k id f hedit =>
    refine ⟨ops, hmoved.still ?_ (fun p hp => ?_) (fun b hb => ?_) hnodup'⟩
    · exact get_edit_of_eq (l := .operation) fun heq r hr => by subst heq; exact hedit r hr
    · by_cases hk : k = .product
      · subst hk
        refine ⟨_, List.mem_map_of_mem hp, ?_, ?_⟩ <;> split_ifs
        · exact (hedit p hp).1
        · rfl
        · exact (hedit p hp).2
        · rfl
      · have hsame : (x.edit k id f).get .product = x.get .product :=
          get_edit_of_eq fun heq => absurd heq hk
        exact ⟨p, by rw [show (x.edit k id f).products = x.products from hsame]; exact hp, rfl, rfl⟩
    · by_cases hk : k = .batch
      · subst hk
        refine ⟨_, List.mem_map_of_mem hb, ?_, ?_, ?_⟩ <;> split_ifs
        · exact (hedit b hb).1
        · rfl
        · exact (hedit b hb).2.2.1
        · rfl
        · exact (hedit b hb).2.1
        · rfl
      · have hsame : (x.edit k id f).get .batch = x.get .batch :=
          get_edit_of_eq fun heq => absurd heq hk
        exact ⟨b, by rw [show (x.edit k id f).batches = x.batches from hsame]; exact hb, rfl, rfl, rfl⟩
  | operation op stamp fresh hborn => exact ⟨_, hmoved.operation hborn stamp hnodup'⟩
  | cash m fresh hborn =>
    exact ⟨ops, hmoved.still rfl (fun p hp => ⟨p, hp, rfl, rfl⟩) (fun b hb => ⟨b, hb, rfl, rfl, rfl⟩)
      hnodup'⟩

/-! ## A sale that stands -/

/-- A row of the sale: sold under it, or returned. -/
def rowOfSale (saleId : String) (o : Operation) : Bool :=
  ofSale "sale" saleId o || ofSale "return" saleId o

/-- What stays of a sale through every later request. -/
structure Standing (saleId currency : String) (lines : List Operation) (d : Db) : Prop where
  books : Books saleId d
  lines : d.operations.filter (ofSale "sale" saleId) = lines
  currency : InCurrency saleId currency d
  credited : ∃ m ∈ d.cashMovements, m.saleId = some saleId
  nodup : ∀ k, (d.ids k).Nodup

theorem Standing.not_sold {lines : List Operation} (h : Standing saleId currency lines d)
    {form : SaleForm} {plan : SalePlan} {sale : Sale} {day : Date} {ops : List Operation}
    {m : CashMovement} (hsold : Sold env form d plan sale day ops m d') : sale.id ≠ saleId := by
  rintro rfl
  obtain ⟨m', hm', hid⟩ := h.credited
  exact hsold.fresh.noSale.cash m' hm' hid

/-- **A sale stands** through every request that keeps its warehouses' currency. -/
theorem Standing.step {lines : List Operation} (h : Standing saleId currency lines d)
    (heffect : Effect r.env d r.call (r.exec d)) (hkeep : KeepsSaleCurrency saleId d r) :
    Standing saleId currency lines (r.exec d) := by
  have hcurrency : InCurrency saleId currency (r.exec d) := by
    refine (h.currency.step heffect hkeep (h.nodup _) (h.nodup _)).resolve_right ?_
    rintro ⟨-, form, plan, sale, day, ops, m, hsold, hid⟩
    exact h.not_sold hsold hid
  have hgrown : ∃ ops ms, (r.exec d).operations = d.operations ++ ops ∧
      (r.exec d).cashMovements = d.cashMovements ++ ms ∧
      ∀ o ∈ ops, ofSale "sale" saleId o = false := by
    clear hkeep hcurrency
    generalize r.exec d = d' at heffect
    cases heffect with
    | nothing =>
      exact ⟨[], [], (List.append_nil _).symm, (List.append_nil _).symm,
        fun o ho => absurd ho List.not_mem_nil⟩
    | aside hsells hreach =>
      have haside := aside_of_reaches hsells hreach
      obtain ⟨ops, hops, hplain⟩ := haside.operations
      obtain ⟨ms, hms, -⟩ := haside.cash
      exact ⟨ops, ms, hops, hms, fun o ho => by simp [ofSale, (hplain o ho).1]⟩
    | sold hcall hsold =>
      have hadds := hsold.adds
      refine ⟨_, _, hadds.operations, hadds.cash, fun o ho => ?_⟩
      obtain ⟨l, -, hl⟩ := hadds.line ho
      have hsale : o.saleId = some _ := hl.saleId
      simp [ofSale, hsale, h.not_sold hsold]
    | returned hcall hreturned =>
      have hadds := hreturned.adds
      refine ⟨_, _, hadds.operations, hadds.cash, fun o ho => ?_⟩
      obtain ⟨batchId, -, hcarries⟩ := hadds.row
      have htype : o.type = "return" := List.mem_singleton.mp ho ▸ hcarries.type
      simp [ofSale, htype]
  obtain ⟨ops, ms, hops, hms, hother⟩ := hgrown
  refine ⟨h.books.effect heffect, ?_, hcurrency, ?_, fun k => ?_⟩
  · have hnone : ops.filter (ofSale "sale" saleId) = [] :=
      List.filter_eq_nil_iff.mpr fun o ho => by simp [hother o ho]
    rw [hops, List.filter_append, hnone, List.append_nil, h.lines]
  · obtain ⟨m, hm, hid⟩ := h.credited
    exact ⟨m, hms ▸ List.mem_append_left _ hm, hid⟩
  · exact writes_nodup (exec_writes r d) (h.nodup k)

/-! ## Nothing left to return -/

/-- **Nothing left to return**: every weight of the lines vanishes over the rows of the sale. -/
theorem Books.weighted_zero (h : Books saleId d)
    (hdistinct : ((d.operations.filter (ofSale "sale" saleId)).map Operation.productId).Nodup)
    (hfull : ∀ line ∈ d.operations, ofSale "sale" saleId line = true →
      returnableQty d saleId line.productId = 0)
    {f : Operation → Int} (hline : ∀ origin o, SameLine origin o → f o = f origin) :
    sumOver (fun o => -o.qtyDelta * f o) (rowOfSale saleId) d.operations = 0 := by
  refine (h.weighted hline fun o ho o' ho' hs hs' hp => ?_).trans (sumOver_eq_zero fun p _ _ => ?_)
  · have hsame : o = o' := List.inj_on_of_nodup_map hdistinct
      (List.mem_filter.mpr ⟨ho, hs⟩) (List.mem_filter.mpr ⟨ho', hs'⟩) hp
    rw [hsame]
  · unfold lineWeight
    cases hfind : d.operations.find? fun o => ofSale "sale" saleId o && o.productId = p with
    | none => exact Int.mul_zero _
    | some o =>
      have hrow := List.find?_some hfind
      simp only [Bool.and_eq_true, decide_eq_true_eq] at hrow
      have hzero := hfull o (List.mem_of_find?_eq_some hfind) hrow.1
      rw [hrow.2] at hzero
      rw [hzero, Int.zero_mul]

/-- The same over the rows that satisfy a condition on the line. -/
theorem Books.counted_zero (h : Books saleId d)
    (hdistinct : ((d.operations.filter (ofSale "sale" saleId)).map Operation.productId).Nodup)
    (hfull : ∀ line ∈ d.operations, ofSale "sale" saleId line = true →
      returnableQty d saleId line.productId = 0)
    {f : Operation → Int} (hline : ∀ origin o, SameLine origin o → f o = f origin)
    {p : Operation → Bool} (hp : ∀ origin o, SameLine origin o → p o = p origin) :
    sumOver (fun o => -o.qtyDelta * f o) (fun o => rowOfSale saleId o && p o) d.operations = 0 := by
  have hzero := h.weighted_zero hdistinct hfull (f := fun o => if p o then f o else 0)
    fun origin o hsame => by rw [hline origin o hsame, hp origin o hsame]
  rw [sumOver_split _ _ p, sumOver_eq_zero (p := fun o => rowOfSale saleId o && !p o)
    fun o _ ho => by simp at ho; simp [ho.2], Int.add_zero] at hzero
  rw [← hzero]
  refine sumOver_weights fun o _ ho => ?_
  rw [Bool.and_eq_true] at ho
  rw [if_pos ho.2]

/-! ## Without the sale -/

/-- The database without the rows of a sale. -/
def Db.withoutSale (d : Db) (saleId : String) : Db :=
  { d with
    sales := d.sales.filter fun s => s.id ≠ saleId
    operations := d.operations.filter fun o => !rowOfSale saleId o
    cashMovements := d.cashMovements.filter fun m => m.saleId ≠ some saleId }

/-- The ledger rows appended since, other than the sale's. -/
def othersSince (saleId : String) (d d' : Db) : List Operation :=
  (d'.operations.drop d.operations.length).filter fun o => !rowOfSale saleId o

/-- A sale of pairwise distinct products, after which nothing but its returns moved these products,
and all of them came back. -/
structure FullReturn (saleId : String) (d : Db) (run : List Request) : Prop where
  distinct : ((d.operations.filter (ofSale "sale" saleId)).map Operation.productId).Nodup
  services : Along (fun d r => r.call.Service ∧ KeepsSaleCurrency saleId d r) d run
  untouched : ∀ o ∈ (runAll d run).operations.drop d.operations.length, o.qtyDelta ≠ 0 →
    (∃ line ∈ d.operations, ofSale "sale" saleId line = true ∧ line.productId = o.productId) →
    ofSale "return" saleId o = true
  full : ∀ line ∈ d.operations, ofSale "sale" saleId line = true →
    returnableQty (runAll d run) saleId line.productId = 0

/-- A sale is undone: `d` is the database before it, `d'` the one after its returns. -/
structure Undone (saleId : String) (d d' : Db) : Prop where
  /-- Every product is where the other rows have moved it. -/
  product : ∀ p ∈ d.products, ∃ p' ∈ d'.products, p'.id = p.id ∧
    p'.quantity = p.quantity + computeStock (othersSince saleId d d') p.id
  batch : ∀ b ∈ d.batches, ∃ b' ∈ d'.batches, b'.id = b.id ∧ b'.productId = b.productId ∧
    b'.quantity = b.quantity + batchSum (othersSince saleId d d') b.id
  /-- The other rows have not moved the products of the sale, or their batches. -/
  untouched : ∀ line ∈ d'.operations, ofSale "sale" saleId line = true →
    computeStock (othersSince saleId d d') line.productId = 0 ∧
      ∀ b ∈ d.batches, b.productId = line.productId → batchSum (othersSince saleId d d') b.id = 0
  cash : sumOver CashMovement.amountCents (fun m => m.saleId = some saleId) d'.cashMovements = 0
  refused : ∀ env form, (∃ o ∈ d'.operations, o.id = form.originOpId ∧ o.saleId = some saleId) →
    ∃ errors, (registerReturn env form).reply d' = .ok (.refused errors)
  report : ∀ env period currency,
    (∀ o ∈ d'.operations, rowOfSale saleId o = true → period.covers o.day = true) →
    (salesProfitReport env d' ⟨period, none, currency⟩).totals.revenueCents =
        (salesProfitReport env (d'.withoutSale saleId) ⟨period, none, currency⟩).totals.revenueCents ∧
      (salesProfitReport env d' ⟨period, none, currency⟩).totals.costCents =
        (salesProfitReport env (d'.withoutSale saleId) ⟨period, none, currency⟩).totals.costCents ∧
      (salesProfitReport env d' ⟨period, none, currency⟩).totals.profitCents =
        (salesProfitReport env (d'.withoutSale saleId) ⟨period, none, currency⟩).totals.profitCents
  /-- The report goes on counting the lines of the sale that have no cost. -/
  unknown : ∀ env period currency,
    (salesProfitReport env d' ⟨period, none, currency⟩).totals.costUnknownCount =
      (salesProfitReport env (d'.withoutSale saleId) ⟨period, none, currency⟩).totals.costUnknownCount +
        (d'.operations.filter fun o => ofSale "sale" saleId o && o.costUnknown &&
          ReportQuery.counts env d' ⟨period, none, currency⟩ o).length
  balance : ∀ currency, computeBalance d'.cashMovements currency =
    computeBalance (d'.withoutSale saleId).cashMovements currency

/-! ### What is left of each figure -/

/-- What a report counts of a row of the sale depends on its line. -/
def lineCounts (env : Env) (d : Db) (currency : String) (o : Operation) : Bool :=
  operationCurrency d o = currency &&
    env.warehouseScope ((operationBatch d o).map Batch.warehouseId) &&
    (d.find .product o.productId).isSome

theorem lineCounts_line {origin o : Operation} (h : SameLine origin o) :
    lineCounts env d currency o = lineCounts env d currency origin := by
  unfold lineCounts operationCurrency operationBatch
  rw [h.batchId, h.productId]

theorem counts_rowOfSale {period : Period} {o : Operation} (h : rowOfSale saleId o = true)
    (hday : period.covers o.day = true) :
    ReportQuery.counts env d ⟨period, none, currency⟩ o = lineCounts env d currency o := by
  have htype : (decide (o.type = "sale") || decide (o.type = "return")) = true := by
    rcases Bool.or_eq_true_iff.mp h with hrow | hrow
    · simp [(ofSale_iff.mp hrow).2]
    · simp [(ofSale_iff.mp hrow).2]
  simp [ReportQuery.counts, ReportQuery.takes, lineCounts, htype, hday]

theorem counts_withoutSale (q : ReportQuery) :
    q.counts env (d.withoutSale saleId) = q.counts env d := rfl

/-- A figure of the report is what it would be without the sale, when the sale's rows add nothing. -/
theorem sum_withoutSale {w : Operation → Int} {p : Operation → Bool}
    (h : sumOver w (fun o => rowOfSale saleId o && p o) d.operations = 0) :
    sumOver w p d.operations = sumOver w p (d.withoutSale saleId).operations := by
  show _ = sumOver w p (d.operations.filter fun o => !rowOfSale saleId o)
  rw [sumOver_filter, sumOver_split w p (rowOfSale saleId)]
  have hswap : (fun o => p o && rowOfSale saleId o) = fun o => rowOfSale saleId o && p o := by
    funext o
    exact Bool.and_comm _ _
  rw [hswap, h, Int.zero_add]

/-- What the report counts of the sale vanishes. -/
theorem Books.counted_report_zero (h : Books saleId d)
    (hdistinct : ((d.operations.filter (ofSale "sale" saleId)).map Operation.productId).Nodup)
    (hfull : ∀ line ∈ d.operations, ofSale "sale" saleId line = true →
      returnableQty d saleId line.productId = 0)
    {f w : Operation → Int} (hw : ∀ o, w o = -o.qtyDelta * f o)
    (hline : ∀ origin o, SameLine origin o → f o = f origin) {period : Period}
    (hday : ∀ o ∈ d.operations, rowOfSale saleId o = true → period.covers o.day = true) :
    sumOver w (ReportQuery.counts env d ⟨period, none, currency⟩) d.operations =
      sumOver w (ReportQuery.counts env (d.withoutSale saleId) ⟨period, none, currency⟩)
        (d.withoutSale saleId).operations := by
  rw [counts_withoutSale]
  refine sum_withoutSale ?_
  have hzero := h.counted_zero hdistinct hfull hline
    fun origin o hsame => @lineCounts_line env d currency origin o hsame
  rw [← hzero, show w = fun o => -o.qtyDelta * f o from funext hw]
  refine sumOver_congr fun o ho _ => ?_
  cases hrow : rowOfSale saleId o with
  | false => rfl
  | true => rw [Bool.true_and, Bool.true_and, counts_rowOfSale hrow (hday o ho hrow)]

/-- The profit report does not see the sale any more. -/
theorem Books.report_undone (h : Books saleId d)
    (hdistinct : ((d.operations.filter (ofSale "sale" saleId)).map Operation.productId).Nodup)
    (hfull : ∀ line ∈ d.operations, ofSale "sale" saleId line = true →
      returnableQty d saleId line.productId = 0) (period : Period)
    (hday : ∀ o ∈ d.operations, rowOfSale saleId o = true → period.covers o.day = true) :
    (salesProfitReport env d ⟨period, none, currency⟩).totals.revenueCents =
        (salesProfitReport env (d.withoutSale saleId) ⟨period, none, currency⟩).totals.revenueCents ∧
      (salesProfitReport env d ⟨period, none, currency⟩).totals.costCents =
        (salesProfitReport env (d.withoutSale saleId) ⟨period, none, currency⟩).totals.costCents ∧
      (salesProfitReport env d ⟨period, none, currency⟩).totals.profitCents =
        (salesProfitReport env (d.withoutSale saleId) ⟨period, none, currency⟩).totals.profitCents := by
  obtain ⟨hrevenue, hcost, hprofit, -⟩ := salesTotals_eq env d ⟨period, none, currency⟩
  obtain ⟨hrevenue', hcost', hprofit', -⟩ :=
    salesTotals_eq env (d.withoutSale saleId) ⟨period, none, currency⟩
  rw [hrevenue, hcost, hprofit, hrevenue', hcost', hprofit']
  refine ⟨?_, ?_, ?_⟩
  · refine h.counted_report_zero hdistinct hfull (f := fun o => o.unitPriceCents.getD 0)
      (fun o => Int.mul_comm _ _) (fun origin o hsame => by rw [hsame.unitPriceCents]) hday
  · refine h.counted_report_zero hdistinct hfull (f := fun o => o.unitCostCents.getD 0)
      (fun o => ?_) (fun origin o hsame => by rw [hsame.unitCostCents]) hday
    unfold Operation.cost
    cases o.unitCostCents with
    | none => exact (Int.mul_zero _).symm
    | some c => exact Int.mul_comm _ _
  · refine h.counted_report_zero hdistinct hfull
      (f := fun o => o.unitCostCents.elim 0 fun c => o.unitPriceCents.getD 0 - c)
      (fun o => ?_) (fun origin o hsame => by rw [hsame.unitCostCents, hsame.unitPriceCents]) hday
    unfold Operation.profit Operation.cost Operation.revenue
    cases o.unitCostCents with
    | none => exact (Int.mul_zero _).symm
    | some c =>
      show o.unitPriceCents.getD 0 * -o.qtyDelta - c * -o.qtyDelta = _
      rw [← Int.sub_mul, Int.mul_comm]
      rfl

/-- The report goes on counting the lines that have no cost: a return is no sale line. -/
theorem unknown_withoutSale (env : Env) (d : Db) (saleId : String) (q : ReportQuery) :
    (salesProfitReport env d q).totals.costUnknownCount =
      (salesProfitReport env (d.withoutSale saleId) q).totals.costUnknownCount +
        (d.operations.filter fun o => ofSale "sale" saleId o && o.costUnknown &&
          q.counts env d o).length := by
  have hcount := (salesTotals_eq env d q).2.2.2
  have hcount' := (salesTotals_eq env (d.withoutSale saleId) q).2.2.2
  have hlength : ∀ p : Operation → Bool,
      ((d.operations.filter p).length : Int) = sumOver (fun _ => 1) p d.operations := by
    intro p
    rw [← sum_filter]
    simp
  have hlines : sumOver (fun _ => 1) (fun o => (q.counts env d o && o.costUnknown) &&
      rowOfSale saleId o) d.operations = sumOver (fun _ => 1)
      (fun o => ofSale "sale" saleId o && o.costUnknown && q.counts env d o) d.operations := by
    refine sumOver_congr fun o _ _ => ?_
    -- a return with no cost is not counted
    cases hsale : ofSale "sale" saleId o with
    | true => simp [rowOfSale, hsale, Bool.and_comm]
    | false =>
      have hnone : (o.costUnknown && ofSale "return" saleId o) = false := by
        cases hreturn : ofSale "return" saleId o with
        | false => exact Bool.and_false _
        | true => simp [Operation.costUnknown, (ofSale_iff.mp hreturn).2]
      simp [rowOfSale, hsale, Bool.and_assoc, hnone]
  have hsplit := sumOver_split (fun _ => 1) (fun o => q.counts env d o && o.costUnknown)
    (rowOfSale saleId) d.operations
  rw [counts_withoutSale] at hcount'
  have hrest : sumOver (fun _ => 1) (fun o => q.counts env d o && o.costUnknown)
      (d.withoutSale saleId).operations = sumOver (fun _ => 1)
      (fun o => (q.counts env d o && o.costUnknown) && !rowOfSale saleId o) d.operations :=
    sumOver_filter _ _ _ _
  have htotal := hlength fun o => ofSale "sale" saleId o && o.costUnknown && q.counts env d o
  omega

theorem InCurrency.balance (h : InCurrency saleId currency d)
    (hzero : sumOver CashMovement.amountCents (fun m => m.saleId = some saleId) d.cashMovements = 0)
    (c : String) : computeBalance d.cashMovements c =
      computeBalance (d.withoutSale saleId).cashMovements c := by
  show sumOver _ _ _ = sumOver _ _ (d.cashMovements.filter fun m => decide (m.saleId ≠ some saleId))
  rw [sumOver_filter, sumOver_split _ _ fun m => decide (m.saleId = some saleId)]
  have hsale : sumOver CashMovement.amountCents
      (fun m => decide (m.currency = c) && decide (m.saleId = some saleId)) d.cashMovements = 0 := by
    by_cases hc : c = currency
    · rw [← hzero]
      refine sumOver_congr fun m hm _ => ?_
      by_cases hid : m.saleId = some saleId
      · simp [hid, hc, h.cash m hm hid]
      · simp [hid]
    · refine sumOver_eq_zero fun m hm hp => ?_
      simp only [Bool.and_eq_true, decide_eq_true_eq] at hp
      exact absurd (hp.1.symm.trans (h.cash m hm hp.2)) hc
  rw [hsale, Int.zero_add]
  exact sumOver_congr fun m _ _ => by simp

/-- A return of a sale that has nothing left is refused. -/
theorem reply_refused (hnodup : (d.ids .operation).Nodup) {form : ReturnForm} {o : Operation}
    (ho : o ∈ d.operations) (hid : o.id = form.originOpId) (hsale : o.saleId = some saleId)
    (hfull : ofSale "sale" saleId o = true → returnableQty d saleId o.productId = 0) :
    ∃ errors, (registerReturn env form).reply d = .ok (.refused errors) := by
  have hcheck : ∃ errors, returnCheck env d form = .error (.refused errors) := by
    have hfound : d.find .operation form.originOpId = some o :=
      hid ▸ find_of_mem hnodup (k := .operation) ho
    unfold returnCheck returnOrigin
    rw [hfound]
    simp only [Option.bind_eq_bind, Option.bind_some, hsale]
    by_cases hguard : o.type = "sale" ∧ originAllowed env d o = true
    · rw [if_pos hguard]
      have hzero := hfull (ofSale_iff.mpr ⟨hsale, hguard.1⟩)
      simp only [refuse_bind, hzero]
      split_ifs with hqty hleft
      · exact ⟨_, rfl⟩
      · exact ⟨_, rfl⟩
      · exact absurd (le_refl _) hleft
      · exact absurd (le_refl _) hleft
    · rw [if_neg hguard]
      exact ⟨_, rfl⟩
  obtain ⟨errors, herrors⟩ := hcheck
  refine ⟨errors, ?_⟩
  show (orAnswer (returnCheck env d form) _ ⟨d, d, 0, 0⟩).1 = _
  rw [herrors]
  rfl

/-! ## The sale and its returns -/

/-- A sale that is done stands. -/
theorem Sold.standing {form : SaleForm} {plan : SalePlan} {sale : Sale} {day : Date}
    {ops : List Operation} {m : CashMovement}
    (h : Sold r.env form d plan sale day ops m (r.exec d))
    (heffect : Effect r.env d r.call (r.exec d)) (hrelabels : r.call.relabels = false) :
    Standing sale.id plan.currency ((r.exec d).operations.filter (ofSale "sale" sale.id))
      (r.exec d) := by
  have hadds := h.adds
  obtain ⟨parsed, hcheck⟩ := h.check
  refine ⟨hadds.books h.fresh.noSale (saleCheck_ok hcheck).1, rfl,
    h.inCurrency heffect hrelabels, ⟨m, ?_, hadds.credit.saleId⟩, h.ok.nodup⟩
  exact hadds.cash ▸ List.mem_append_right _ (List.mem_singleton_self m)

/-- The rows since, of a kind of line: those of the sale have come back, the others remain. -/
theorem Books.sum_others {d₀ : Db} {since : List Operation} (h : Books saleId d)
    (hnone : NoSale saleId d₀) (hops : d.operations = d₀.operations ++ since)
    (hdistinct : ((d.operations.filter (ofSale "sale" saleId)).map Operation.productId).Nodup)
    (hfull : ∀ line ∈ d.operations, ofSale "sale" saleId line = true →
      returnableQty d saleId line.productId = 0)
    {p : Operation → Bool} (hp : ∀ origin o, SameLine origin o → p o = p origin) :
    sumDelta since p = sumDelta (othersSince saleId d₀ d) p := by
  have hzero := h.counted_zero hdistinct hfull (f := fun _ => 1) (fun _ _ _ => rfl) hp
  have hbefore : sumOver (fun o : Operation => -o.qtyDelta * 1)
      (fun o => rowOfSale saleId o && p o) d₀.operations = 0 := by
    refine sumOver_eq_zero fun o ho hrow => ?_
    rw [Bool.and_eq_true, rowOfSale, Bool.or_eq_true] at hrow
    exact hrow.1.elim (fun hrow => absurd (ofSale_iff.mp hrow).1 (hnone.operations o ho))
      fun hrow => absurd (ofSale_iff.mp hrow).1 (hnone.operations o ho)
  have hrows : sumOver Operation.qtyDelta (fun o => p o && rowOfSale saleId o) since = 0 := by
    rw [hops, sumOver_append, hbefore, Int.zero_add] at hzero
    have hswap : (fun o => p o && rowOfSale saleId o) = fun o => rowOfSale saleId o && p o := by
      funext o
      exact Bool.and_comm _ _
    have hneg := sumOver_neg Operation.qtyDelta (fun o => rowOfSale saleId o && p o) since
    simp only [Int.mul_one] at hzero
    rw [hswap]
    omega
  unfold sumDelta othersSince
  rw [hops, List.drop_left, sumOver_filter, sumOver_split _ p (rowOfSale saleId), hrows, Int.zero_add]

/-- Another row appended since the sale moves none of its products. -/
theorem Standing.others_still {d₀ d₁ : Db} {ops later : List Operation}
    (h : Standing saleId currency (d₁.operations.filter (ofSale "sale" saleId)) d)
    (hsold : d₁.operations = d₀.operations ++ ops)
    (hops : ∀ o ∈ ops, ofSale "sale" saleId o = true)
    (hlater : d.operations = d₁.operations ++ later)
    (huntouched : ∀ o ∈ later, o.qtyDelta ≠ 0 →
      (∃ line ∈ d₁.operations, ofSale "sale" saleId line = true ∧ line.productId = o.productId) →
      ofSale "return" saleId o = true) {o : Operation} (ho : o ∈ othersSince saleId d₀ d)
    {line : Operation} (hline : line ∈ d.operations) (hrow : ofSale "sale" saleId line = true)
    (hproduct : line.productId = o.productId) : o.qtyDelta = 0 := by
  obtain ⟨hsince, hother⟩ := List.mem_filter.mp ho
  rw [Bool.not_eq_true', rowOfSale, Bool.or_eq_false_iff] at hother
  rw [hlater, hsold, List.append_assoc, List.drop_left] at hsince
  have hmem : o ∈ later := by
    refine (List.mem_append.mp hsince).resolve_left fun hsale => ?_
    rw [hops o hsale] at hother
    cases hother.1
  have hold : line ∈ d₁.operations := by
    have hfiltered := List.mem_filter.mpr ⟨hline, hrow⟩
    rw [h.lines] at hfiltered
    exact (List.mem_filter.mp hfiltered).1
  by_contra hmoves
  rw [huntouched o hmem hmoves ⟨line, hold, hrow, hproduct⟩] at hother
  cases hother.2

/-- A sale that stands with nothing left to return is undone. -/
theorem Standing.undone {d₀ d₁ : Db} {ops since later : List Operation}
    (h : Standing saleId currency (d₁.operations.filter (ofSale "sale" saleId)) d)
    (hnone : NoSale saleId d₀) (hsold : d₁.operations = d₀.operations ++ ops)
    (hops : ∀ o ∈ ops, ofSale "sale" saleId o = true) (hmoved : Moved d₀ since d)
    (hlater : d.operations = d₁.operations ++ later)
    (hdistinct : ((d₁.operations.filter (ofSale "sale" saleId)).map Operation.productId).Nodup)
    (huntouched : ∀ o ∈ later, o.qtyDelta ≠ 0 →
      (∃ line ∈ d₁.operations, ofSale "sale" saleId line = true ∧ line.productId = o.productId) →
      ofSale "return" saleId o = true)
    (hfull : ∀ line ∈ d₁.operations, ofSale "sale" saleId line = true →
      returnableQty d saleId line.productId = 0) : Undone saleId d₀ d := by
  have hlines : ∀ line ∈ d.operations, ofSale "sale" saleId line = true →
      line ∈ d₁.operations := by
    intro line hline hrow
    have hfiltered := List.mem_filter.mpr ⟨hline, hrow⟩
    rw [h.lines] at hfiltered
    exact (List.mem_filter.mp hfiltered).1
  replace hdistinct : ((d.operations.filter (ofSale "sale" saleId)).map Operation.productId).Nodup := by
    rw [h.lines]
    exact hdistinct
  replace hfull : ∀ line ∈ d.operations, ofSale "sale" saleId line = true →
      returnableQty d saleId line.productId = 0 :=
    fun line hline hrow => hfull line (hlines line hline hrow) hrow
  have hcash : sumOver CashMovement.amountCents (fun m => m.saleId = some saleId)
      d.cashMovements = 0 := by
    rw [h.books.cash]
    exact h.books.weighted_zero hdistinct hfull (f := fun o => o.unitPriceCents.getD 0)
      fun origin o hsame => by rw [hsame.unitPriceCents]
  constructor
  · intro p hp
    obtain ⟨p', hp', hid, hq⟩ := hmoved.product p hp
    refine ⟨p', hp', hid, hq.trans (congrArg _ ?_)⟩
    exact h.books.sum_others hnone hmoved.operations hdistinct hfull
      fun origin o hsame => by rw [hsame.productId]
  · intro b hb
    obtain ⟨b', hb', hid, hproduct, hq⟩ := hmoved.batch b hb
    refine ⟨b', hb', hid, hproduct, hq.trans (congrArg _ ?_)⟩
    exact h.books.sum_others hnone hmoved.operations hdistinct hfull
      fun origin o hsame => by rw [hsame.batchId]
  · intro line hline hrow
    refine ⟨sumOver_eq_zero fun o ho hp => ?_, fun b hb hproduct => ?_⟩
    · exact h.others_still hsold hops hlater huntouched ho hline hrow (of_decide_eq_true hp).symm
    · refine sumOver_eq_zero fun o ho hp => ?_
      by_contra hmoves
      have hsince : o ∈ since := by
        have hmem := (List.mem_filter.mp ho).1
        rwa [hmoved.operations, List.drop_left] at hmem
      have howner := hmoved.owner o hsince hmoves b hb (of_decide_eq_true hp)
      exact hmoves (h.others_still hsold hops hlater huntouched ho hline hrow
        (hproduct.symm.trans howner))
  · exact hcash
  · rintro env' form' ⟨o, ho, hid, hsale⟩
    exact reply_refused (h.nodup .operation) ho hid hsale fun hrow => hfull o ho hrow
  · exact fun env' period currency hday => h.books.report_undone hdistinct hfull period hday
  · exact fun env' period currency => unknown_withoutSale env' d saleId _
  · exact h.currency.balance hcash

/-- **A full return undoes its sale**: quantities, cash, balance and the profit report are what they
would be without it, and a further return is refused; the report goes on counting the lines of the
sale that have no cost. -/
theorem fullReturn_undoes (env : Env) (form : SaleForm) (d : Db) (result : SaleResult)
    (run : List Request) (hsold : (registerSale env form).reply d = .ok (.done result))
    (h : FullReturn result.header ((registerSale env form).exec d) run) :
    Undone result.header d (runAll ((registerSale env form).exec d) run) := by
  obtain ⟨plan, sale, day, ops, m, hresult, hdone⟩ :=
    done_of_closes (closes_registerSale form) hsold id
  have hheader : result.header = sale.id := by
    cases hresult
    rfl
  rw [hheader] at h ⊢
  have hstart := Sold.standing (r := ⟨env, .sale form⟩) hdone (.sold rfl hdone) rfl
  have hend := along_induct (fun _ _ h => h.1) (fun _ _ hr heffect h => h.step heffect hr.2)
    h.services hstart
  have hrun : ReflTransGen (Write fun _ => True) ((registerSale env form).exec d)
      (runAll ((registerSale env form).exec d) run) :=
    runAll_reaches fun _ _ _ _ => .inr trivial
  have hwhole := (exec_writes ⟨env, .sale form⟩ d).trans hrun
  obtain ⟨later, hlater⟩ := moved_of_writes hrun (hdone.ok.nodup .batch)
  obtain ⟨since, hmoved⟩ := moved_of_writes hwhole (hdone.start_ok.nodup .batch)
  have huntouched := h.untouched
  rw [hlater.operations, List.drop_left] at huntouched
  refine hend.undone hdone.fresh.noSale hdone.adds.operations (fun o ho => ?_) hmoved
    hlater.operations h.distinct huntouched h.full
  obtain ⟨l, -, hl⟩ := hdone.adds.line ho
  exact ofSale_iff.mpr ⟨hl.saleId, hl.type⟩

/-! ## Two units sold, returned one by one -/

deriving instance DecidableEq for Warning, Outcome, SaleResult

/-- Two units of a product bought at no known cost. -/
def stockedTwo : Db :=
  runAll {} [atShop (.addWarehouse { name := "w", address := "" }),
    atShop (.receipt
      { code := "c", name := "n", qtyRaw := "2", costRaw := "", saleRaw := "", warehouseId := "x"
        batchChoice := "new" })]

/-- Both of them sold. -/
def saleOfTwo : SaleForm :=
  { customerId := none, codes := ["c"], qtys := ["2"], prices := ["10"], batchIds := ["xxxx"] }

/-- Both of them returned, one by one. -/
def oneByOne : List Request :=
  [atShop (.saleReturn { originOpId := "xxxxxxx", qtyRaw := "1" }),
    atShop (.saleReturn { originOpId := "xxxxxxx", qtyRaw := "1" })]

theorem saleOfTwo_done : (registerSale { Env.sample with newId := shortId } saleOfTwo).reply stockedTwo =
    .ok (.done ⟨"xxxxxx", 1, 2000⟩) := by
  decide +kernel

theorem oneByOne_full : FullReturn "xxxxxx"
    ((registerSale { Env.sample with newId := shortId } saleOfTwo).exec stockedTwo) oneByOne where
  distinct := by decide +kernel
  services := along_of_forall fun r hr d => by
    refine ⟨?_, fun hrelabels => ?_⟩
    · revert r
      simp [oneByOne, atShop, Call.Service]
    · have hnone : ∀ r ∈ oneByOne, r.call.relabels = false := by decide
      rw [hnone r hr] at hrelabels
      cases hrelabels
  untouched := by decide +kernel
  full := by decide +kernel

theorem fullReturn_undoes_oneByOne : Undone "xxxxxx" stockedTwo
    (runAll ((registerSale { Env.sample with newId := shortId } saleOfTwo).exec stockedTwo) oneByOne) :=
  fullReturn_undoes _ saleOfTwo stockedTwo ⟨"xxxxxx", 1, 2000⟩ oneByOne saleOfTwo_done oneByOne_full

/-- The report still counts the line without a cost. -/
theorem not_fullReturn_unknown : ¬ ∀ (env : Env) (form : SaleForm) (d : Db) (result : SaleResult)
    (run : List Request), (registerSale env form).reply d = .ok (.done result) →
    FullReturn result.header ((registerSale env form).exec d) run →
    ∀ period currency, (∀ o ∈ (runAll ((registerSale env form).exec d) run).operations,
      rowOfSale result.header o = true → period.covers o.day = true) →
    (salesProfitReport env (runAll ((registerSale env form).exec d) run)
        ⟨period, none, currency⟩).totals.costUnknownCount =
      (salesProfitReport env ((runAll ((registerSale env form).exec d) run).withoutSale result.header)
        ⟨period, none, currency⟩).totals.costUnknownCount := by
  intro h
  have hrun := h _ saleOfTwo stockedTwo ⟨"xxxxxx", 1, 2000⟩ oneByOne saleOfTwo_done oneByOne_full
    ⟨"2026-01-01", "2026-01-01"⟩ "RUB" (by decide +kernel)
  revert hrun
  decide +kernel

end MyOriShop
