import MyOriShop.Confinement
import MyOriShop.Lib.CheckAct
import MyOriShop.SaleBooks

/-!
# Gates: stock checks of requests that interleave (`app/services/returns.py`, `sales.py`)

A return reads what is left to return, a sale, a write-off and a transfer read what their batches
have. Then they write, and `record_operation` adds its change to whatever quantity it finds
(`UPDATE ... SET quantity = quantity + ?`). Requests run in a pool of threads, each in its own
session, and nothing ties the write to the store that was checked.

* `Waiting`: a request of one of the four services that has passed its checks, with what they read.
* `gates`: their checks, their write steps, and any writes of the services that sell nothing.
* `Timely d r`: the store that the write of `r` finds still has what its checks asked for.
* `Capped d`: no product of a sale is returned beyond what was sold.
* `Stocked i d`: the batch `i` is not overdrawn.

Results:
* `Waiting.wrote`: what a write step leaves of the ledger and of the batches, on any store.
* `run_alone`: a request that writes right after its checks is timely.
* `gates_timely`, `stocked_run`: the gates hold along every run of timely writes.
* `gates_raced`: two requests that both check before one of them writes pass both gates.
-/

namespace MyOriShop

open Lib.Text Lib.IsoDate Lib.Sums Lib.Transaction Lib.Fallible
open Lib.CheckAct (World Service Run)
open Relation (ReflTransGen)

variable {env : Env} {d d' w w' : Db} {i : String}

/-! ## Requests between their two steps -/

/-- A request that has passed its checks, and what they read. -/
inductive Waiting where
  | sale (env : Env) (form : SaleForm) (day : Except String (Option Date)) (plan : SalePlan)
  | saleReturn (env : Env) (form : ReturnForm) (origin : Operation) (saleId : String)
      (remaining : Int)
  | writeoff (env : Env) (form : WriteoffForm) (day : Except String (Option Date))
      (product : Product) (batch : Batch)
  | transfer (env : Env) (form : TransferForm) (day : Except String (Option Date))
      (plan : TransferPlan)

namespace Waiting

/-- The checks of the request pass on this store, and read this. -/
def Passes (d : Db) : Waiting → Prop
  | .sale env form day plan => saleCheck env d form day = .ok plan
  | .saleReturn env form origin saleId remaining =>
    returnCheck env d form = .ok (origin, saleId, remaining)
  | .writeoff env form day product batch => writeoffCheck env d form day = .ok (product, batch)
  | .transfer env form day plan => transferCheck env d form day = .ok plan

/-- The store after the write step of the request. -/
def write (d : Db) : Waiting → Db
  | .sale env form day plan => (writeSale env form day plan).exec d
  | .saleReturn env form origin saleId remaining =>
    (writeReturn env form (origin, saleId, remaining)).exec d
  | .writeoff env form day product batch =>
    (recordOrFail env (writeoffArgs form (opDate day) product batch)).exec d
  | .transfer env form day plan => (writeTransfer env form day plan).exec d

/-- The oversell warning of the request was confirmed; a return has none. -/
def Confirmed : Waiting → Prop
  | .sale _ form _ _ => form.confirm = "1"
  | .saleReturn .. => False
  | .writeoff _ form _ _ _ => form.confirm = "1"
  | .transfer _ form _ _ => form.confirm = "1"

/-- What the request takes out of a batch. -/
def removes : Waiting → String → Int
  | .sale _ _ _ plan, i => requestedOf plan.lines i
  | .saleReturn .., _ => 0
  | .writeoff _ form _ _ batch, i => if batch.id = i then parseQty form.qtyRaw else 0
  | .transfer _ form _ plan, i => if plan.source.id = i then parseQty form.qtyRaw else 0

/-- What the request returns of a product of a sale. -/
def returns : Waiting → String → String → Int
  | .saleReturn _ form origin saleId' _, saleId, productId =>
    if saleId' = saleId ∧ origin.productId = productId then parseQty form.qtyRaw else 0
  | .sale .., _, _ | .writeoff .., _, _ | .transfer .., _, _ => 0

end Waiting

/-- What requests between their steps share the store with: any writes of services that sell
nothing, of a whole call or of a part of one. -/
def Elsewhere (d d' : Db) : Prop := ∃ sc env, Scope.plain sc ∧ ReflTransGen (Scoped sc env) d d'

/-- The gated services. -/
def gates : Service Db Waiting := ⟨Waiting.Passes, Waiting.write, Elsewhere⟩

/-- The store still has what the checks of a request asked for: no more is returned than is left,
and without a confirmation no more is taken out of a batch than it has. -/
structure Timely (d : Db) (r : Waiting) : Prop where
  returns : ∀ saleId productId, 0 < r.returns saleId productId →
    r.returns saleId productId ≤ returnableQty d saleId productId
  removes : ¬r.Confirmed → ∀ b ∈ d.batches, 0 ≤ b.quantity → r.removes b.id ≤ b.quantity

/-- Of no product of a sale more is returned than was sold. -/
def Capped (d : Db) : Prop := ∀ saleId productId, 0 ≤ returnableQty d saleId productId

/-- The batch is not overdrawn. -/
def Stocked (i : String) (d : Db) : Prop := ∀ b ∈ d.batches, b.id = i → 0 ≤ b.quantity

/-! ## Everything else -/

/-- A program of a service that sells nothing, from its start or from the boundary on. -/
theorem elsewhere_exec {α : Type} {x : Act α} {sc : Scope} (hplain : sc.plain)
    (h : Keeps (Scoped sc env) x) : Elsewhere d (x.exec d) :=
  ⟨sc, env, hplain, exec_reaches h⟩

theorem elsewhere_call {call : Call} (hsells : call.sells = false) :
    Elsewhere d (call.exec env d) :=
  ⟨call.scope fun _ => True, env, hsells, Call.reaches env d call fun _ _ => .inr trivial⟩

/-- The write step of a correction. -/
theorem elsewhere_correction (form : CorrectionForm) (day : Option Date) (product : Product)
    (batch : Batch) (delta : Int) :
    Elsewhere d ((recordOrFail env (correctionArgs form day product batch delta)).exec d) := by
  have hargs : (correctionArgs form day product batch delta).Sound :=
    .inl (by simp [correctionArgs, stockAffectingTypes])
  have hkeeps : Keeps (Scoped ⟨fun _ => True, True, True⟩ env)
      (recordOrFail env (correctionArgs form day product batch delta)) :=
    keeps_recordOrFail hargs fun _ => by simp [OperationArgs.Plain, correctionArgs]
  exact elsewhere_exec trivial hkeeps

/-! ## What a write step leaves -/

/-- The units of a product that ledger rows return to a sale. -/
def returnedBy (ops : List Operation) (saleId productId : String) : Int :=
  sumDelta ops fun o => o.saleId = some saleId && o.productId = productId && o.type = "return"

/-- What a write step leaves: new ledger rows, and each batch with no less than what it had without
what the request takes, unless it is a new one. -/
structure Wrote (r : Waiting) (d : Db) (ops : List Operation) (d' : Db) : Prop where
  operations : d'.operations = d.operations ++ ops
  sales : ∀ o ∈ ops, o.type = "sale" → o.qtyDelta ≤ 0
  returns : ∀ saleId productId, returnedBy ops saleId productId = r.returns saleId productId
  batches : ∀ b' ∈ d'.batches, 0 ≤ b'.quantity ∨
    ∃ b ∈ d.batches, b.id = b'.id ∧ b.quantity - r.removes b.id ≤ b'.quantity

theorem Posted.mem_batch {ops : List Operation} (h : Posted w ops w') {b' : Batch}
    (hb : b' ∈ w'.batches) :
    ∃ b ∈ w.batches, b.id = b'.id ∧ b'.quantity = b.quantity + batchSum ops b.id := by
  have hmem := List.mem_map_of_mem
    (f := fun b : Batch => (b.id, b.productId, b.warehouseId, b.quantity)) hb
  rw [h.batches] at hmem
  obtain ⟨b, hb, heq⟩ := List.mem_map.mp hmem
  simp only [Prod.mk.injEq] at heq
  exact ⟨b, hb, heq.1, heq.2.2.2.symm⟩

theorem returnedBy_other {ops : List Operation} (h : ∀ o ∈ ops, o.type ≠ "return")
    (saleId productId : String) : returnedBy ops saleId productId = 0 := by
  refine sumOver_eq_zero fun o ho hp => ?_
  simp only [Bool.and_eq_true, decide_eq_true_eq] at hp
  exact absurd hp.2 (h o ho)

/-- The rows of a sale take what the basket requests. -/
theorem requested_lines {currency saleId : String} {day : Date} {lines : List BasketLine}
    {ops : List Operation}
    (h : List.Forall₂ (fun l => Carries (saleArgs currency saleId day l)) lines ops) (i : String) :
    batchSum ops i = -requestedOf lines i := by
  induction h with
  | nil => rfl
  | @cons l o lines ops hl _ ih =>
    have hbatch : o.batchId = some l.batch.id :=
      hl.batchId (by simp [saleArgs, stockAffectingTypes])
    have hqty : o.qtyDelta = -l.qty := hl.qtyDelta
    unfold batchSum sumDelta requestedOf at ih ⊢
    rw [sumOver_cons, sumOver_cons, ih, hbatch, hqty]
    by_cases hid : l.batch.id = i
    · simp [hid]
      omega
    · simp [hid]

theorem SaleRows.wrote {form : SaleForm} {parsed : Except String (Option Date)} {plan : SalePlan}
    {sale : Sale} {day : Date} {ops : List Operation} {m : CashMovement}
    (h : SaleRows env d plan sale day ops m d') (hqty : ∀ l ∈ plan.lines, 0 < l.qty) :
    Wrote (.sale env form parsed plan) d ops d' := by
  have hadds := h.adds
  obtain ⟨w, hops, hcash⟩ := h
  have hlines := List.forall₂_map_left_iff.mp hadds.lines
  refine ⟨hadds.operations, fun o ho _ => ?_, ?_, fun b' hb' => ?_⟩
  · obtain ⟨l, hl, hcarries⟩ := hadds.line ho
    have hdelta : o.qtyDelta = -l.qty := hcarries.qtyDelta
    have hpos := hqty l hl
    omega
  · refine fun _ _ => returnedBy_other (fun o ho => ?_) _ _
    obtain ⟨l, -, hcarries⟩ := hadds.line ho
    have htype : o.type = "sale" := hcarries.type
    simp [htype]
  · rw [hcash.next] at hb'
    obtain ⟨b, hb, hid, hquantity⟩ := hops.posted.mem_batch hb'
    rw [requested_lines hlines] at hquantity
    refine .inr ⟨b, hb, hid, ?_⟩
    show b.quantity - requestedOf plan.lines b.id ≤ b'.quantity
    omega

/-- What one row does to a batch. -/
theorem batchSum_row {args : OperationArgs} {op : Operation} {batchId : String}
    (h : Carries args op) (hstock : args.type ∈ stockAffectingTypes)
    (hbatch : args.batchId = some batchId) (i : String) :
    batchSum [op] i = if batchId = i then args.qtyDelta else 0 := by
  simp [batchSum, sumDelta, sumOver_cons, h.batchId hstock, hbatch, h.qtyDelta]

theorem ReturnRows.wrote {form : ReturnForm} {origin : Operation} {saleId : String}
    {remaining : Int} {op : Operation} {day : Date} {m : Option CashMovement}
    (h : ReturnRows env form d origin saleId op day m d') (hqty : 0 < parseQty form.qtyRaw) :
    Wrote (.saleReturn env form origin saleId remaining) d [op] d' := by
  have hoperations := h.adds.operations
  obtain ⟨batchId, w, w', hbatch, hop, hrefund⟩ := h
  have hcarries := hop.carries
  have htype : op.type = "return" := hcarries.type
  have hbatches : d'.batches = w'.batches := by
    cases hrefund with
    | nothing => rfl
    | cash _ _ hm =>
      rw [hm.next]
      rfl
  have hadds : ∀ i, 0 ≤ batchSum [op] i := by
    intro i
    rw [batchSum_row hcarries (by simp [returnArgs, stockAffectingTypes]) rfl]
    show 0 ≤ if batchId = i then parseQty form.qtyRaw else 0
    split_ifs <;> omega
  refine ⟨hoperations, fun o ho hsale => ?_, fun saleId' productId => ?_, fun b' hb' => ?_⟩
  · rw [List.mem_singleton.mp ho, htype] at hsale
    exact absurd hsale (by decide)
  · have hsale : op.saleId = some saleId := hcarries.saleId
    have hproduct : op.productId = origin.productId := hcarries.productId
    have hdelta : op.qtyDelta = parseQty form.qtyRaw := hcarries.qtyDelta
    simp [returnedBy, sumDelta, sumOver_cons, Waiting.returns, hsale, hproduct, hdelta, htype]
  · rw [hbatches] at hb'
    obtain ⟨b, hb, hid, hquantity⟩ := hop.posted.mem_batch hb'
    have hrow := hadds b.id
    cases hbatch with
    | origin | legacy =>
      refine .inr ⟨b, hb, hid, ?_⟩
      show b.quantity - 0 ≤ b'.quantity
      omega
    | created =>
      rcases List.mem_append.mp hb with hold | hnew
      · refine .inr ⟨b, hold, hid, ?_⟩
        show b.quantity - 0 ≤ b'.quantity
        omega
      · have hempty : b.quantity = 0 := by
          rw [List.mem_singleton.mp hnew]
          rfl
        exact .inl (by omega)

theorem Recorded.wrote_writeoff {form : WriteoffForm} {parsed : Except String (Option Date)}
    {product : Product} {batch : Batch} {op : Operation}
    (h : Recorded env (writeoffArgs form (opDate parsed) product batch) d op d') :
    Wrote (.writeoff env form parsed product batch) d [op] d' := by
  have hcarries := h.carries
  have htype : op.type = "writeoff" := hcarries.type
  refine ⟨h.posted.operations, fun o ho hsale => ?_, ?_, fun b' hb' => ?_⟩
  · rw [List.mem_singleton.mp ho, htype] at hsale
    exact absurd hsale (by decide)
  · refine fun _ _ => returnedBy_other (fun o ho => ?_) _ _
    rw [List.mem_singleton.mp ho, htype]
    decide
  · obtain ⟨b, hb, hid, hquantity⟩ := h.posted.mem_batch hb'
    rw [batchSum_row hcarries (by simp [writeoffArgs, stockAffectingTypes]) rfl] at hquantity
    refine .inr ⟨b, hb, hid, ?_⟩
    show b.quantity - (if batch.id = b.id then parseQty form.qtyRaw else 0) ≤ b'.quantity
    have hdelta : (writeoffArgs form (opDate parsed) product batch).qtyDelta =
      -parseQty form.qtyRaw := rfl
    rw [hdelta] at hquantity
    split_ifs at hquantity ⊢ <;> omega

theorem TransferRows.wrote {form : TransferForm} {parsed : Except String (Option Date)}
    {plan : TransferPlan} {dest : Batch} {out into : Operation}
    (h : TransferRows env form d plan dest out into d') (hqty : 0 < parseQty form.qtyRaw) :
    Wrote (.transfer env form parsed plan) d [out, into] d' := by
  obtain ⟨now, hdest⟩ := h.batch
  obtain ⟨w, day, hout, hinto⟩ := h.rows
  have hposted := hout.posted.trans hinto.posted
  have htype : ∀ o ∈ [out, into], o.type = "transfer" := by
    simp [show out.type = "transfer" from hout.carries.type,
      show into.type = "transfer" from hinto.carries.type]
  -- the two rows of a batch that is both source and destination cancel out
  have hsum : ∀ i, batchSum [out, into] i =
      (if plan.source.id = i then -parseQty form.qtyRaw else 0) +
        if dest.id = i then parseQty form.qtyRaw else 0 := by
    intro i
    have hsplit : batchSum [out, into] i = batchSum [out] i + batchSum [into] i := by
      unfold batchSum sumDelta
      exact sumOver_append _ _ [out] [into]
    rw [hsplit, batchSum_row hout.carries (by simp [transferArgs, stockAffectingTypes]) rfl,
      batchSum_row hinto.carries (by simp [transferArgs, stockAffectingTypes]) rfl]
    rfl
  refine ⟨hposted.operations, fun o ho hsale => ?_, ?_, fun b' hb' => ?_⟩
  · rw [htype o ho] at hsale
    exact absurd hsale (by decide)
  · refine fun _ _ => returnedBy_other (fun o ho => ?_) _ _
    rw [htype o ho]
    decide
  · obtain ⟨b, hb, hid, hquantity⟩ := hposted.mem_batch hb'
    rw [List.cons_append, List.nil_append, hsum] at hquantity
    rcases List.mem_append.mp hb with hold | hnew
    · refine .inr ⟨b, hold, hid, ?_⟩
      show b.quantity - (if plan.source.id = b.id then parseQty form.qtyRaw else 0) ≤ b'.quantity
      split_ifs at hquantity ⊢ <;> omega
    · have hb : b = dest := List.mem_singleton.mp hnew
      have hempty : dest.quantity = 0 := by
        rw [hdest]
        rfl
      rw [hb, hempty, if_pos rfl] at hquantity
      refine .inl ?_
      split_ifs at hquantity <;> omega

/-- **A write step**, on any store, leaves what the request was let through with, or nothing. -/
theorem Waiting.wrote {r : Waiting} (h : gates.Passed r) (d : Db) :
    r.write d = d ∨ ∃ ops, Wrote r d ops (r.write d) := by
  obtain ⟨seen, h⟩ := h
  cases r with
  | sale env form day plan =>
    refine (exec_of_closes (closes_writeSale form day plan)).imp_right ?_
    rintro ⟨_, -, sale, _, ops, m, -, -, hrows, -⟩
    exact ⟨ops, hrows.wrote fun l hl => ((saleCheck_ok h).1 l hl).qty⟩
  | saleReturn env form origin saleId remaining =>
    refine (exec_of_closes (closes_writeReturn form origin saleId remaining)).imp_right ?_
    rintro ⟨_, -, op, day, m, -, hrows, -⟩
    exact ⟨[op], hrows.wrote (returnCheck_ok h).2.2.2.2.1⟩
  | writeoff env form day product batch =>
    refine (exec_of_closes (closes_recordOrFail _)).imp_right ?_
    rintro ⟨_, -, op, hop⟩
    exact ⟨[op], hop.wrote_writeoff⟩
  | transfer env form day plan =>
    refine (exec_of_closes (closes_writeTransfer form day plan)).imp_right ?_
    rintro ⟨_, -, dest, out, into, hrows⟩
    exact ⟨[out, into], hrows.wrote (transferCheck_qty h)⟩

/-! ## What the gates keep -/

theorem capped_append {ops : List Operation} (hd : Capped d)
    (hops : d'.operations = d.operations ++ ops)
    (hsales : ∀ o ∈ ops, o.type = "sale" → o.qtyDelta ≤ 0)
    (hreturns : ∀ saleId productId,
      returnedBy ops saleId productId ≤ max 0 (returnableQty d saleId productId)) :
    Capped d' := by
  intro saleId productId
  have hsold : 0 ≤ -sumDelta ops fun o =>
      o.saleId = some saleId && o.productId = productId && o.type = "sale" := by
    unfold sumDelta
    rw [← sumOver_neg]
    refine sumOver_nonneg fun o ho hp => ?_
    simp only [Bool.and_eq_true, decide_eq_true_eq] at hp
    have hdelta := hsales o ho hp.2
    omega
  have hleft := hreturns saleId productId
  rw [max_eq_right (hd saleId productId)] at hleft
  unfold returnedBy at hleft
  rw [returnableQty_append hops]
  omega

/-- Writes of the services that sell nothing return nothing. -/
theorem Elsewhere.capped (h : Elsewhere d d') (hd : Capped d) : Capped d' := by
  obtain ⟨sc, env, hplain, hreach⟩ := h
  obtain ⟨ops, hops, hrows⟩ := (aside_of_reaches hplain hreach).operations
  refine capped_append hd hops (fun o ho hsale => absurd hsale (hrows o ho).1) ?_
  intro saleId productId
  rw [returnedBy_other fun o ho => (hrows o ho).2]
  exact le_max_left _ _

/-- **A timely write returns no more than is left.** -/
theorem Timely.capped {r : Waiting} (h : Timely d r) (hr : gates.Passed r) (hd : Capped d) :
    Capped (r.write d) := by
  rcases Waiting.wrote hr d with hsame | ⟨ops, hwrote⟩
  · rwa [hsame]
  · refine capped_append hd hwrote.operations hwrote.sales fun saleId productId => ?_
    rw [hwrote.returns]
    rcases le_or_gt (r.returns saleId productId) 0 with hnone | hsome
    · exact hnone.trans (le_max_left _ _)
    · exact (h.returns _ _ hsome).trans (le_max_right _ _)

/-- **A timely write that was not confirmed overdraws no batch.** -/
theorem Timely.stocked {r : Waiting} (h : Timely d r) (hr : gates.Passed r) (hno : ¬r.Confirmed)
    (hd : Stocked i d) : Stocked i (r.write d) := by
  rcases Waiting.wrote hr d with hsame | ⟨ops, hwrote⟩
  · rwa [hsame]
  · intro b' hb' hid
    rcases hwrote.batches b' hb' with hquantity | ⟨b, hb, hid', hquantity⟩
    · exact hquantity
    · have hstock := hd b hb (hid'.trans hid)
      have hleft := h.removes hno b hb hstock
      omega

/-! ## What the checks ask for -/

theorem oversold_eq_nil {lines : List BasketLine} (h : oversold lines = []) :
    ∀ l ∈ lines, ∃ l' ∈ lines, l'.batch.id = l.batch.id ∧
      requestedOf lines l.batch.id ≤ l'.batch.quantity := by
  intro l hl
  unfold oversold at h
  rw [List.map_eq_nil_iff, ← List.length_eq_zero_iff, List.length_insertionSort,
    List.length_eq_zero_iff, List.filterMap_eq_nil_iff] at h
  have hentry := h l.batch.id (by simpa using ⟨l, hl, rfl⟩)
  cases hfind : lines.reverse.find? fun l' => l'.batch.id = l.batch.id with
  | none =>
    have hnone := List.find?_eq_none.mp hfind l (List.mem_reverse.mpr hl)
    simp at hnone
  | some l' =>
    have hid := List.find?_some hfind
    rw [hfind] at hentry
    dsimp only at hentry
    split_ifs at hentry with hless
    exact ⟨l', List.mem_reverse.mp (List.mem_of_find?_eq_some hfind), by simpa using hid,
      not_lt.mp hless⟩

theorem saleCheck_oversold {form : SaleForm} {day : Except String (Option Date)} {plan : SalePlan}
    (h : saleCheck env d form day = .ok plan) (hno : form.confirm ≠ "1") :
    oversold plan.lines = [] := by
  unfold saleCheck at h
  dsimp only at h
  split_ifs at h
  · cases h
  obtain ⟨_, -, h⟩ := bind_ok_iff.mp h
  split at h
  · cases h
  · cases h
  · split_ifs at h with hwarned
    · cases h
    · cases h
      by_contra hover
      exact hwarned ⟨hno, .inl hover⟩

theorem writeoffCheck_ok {form : WriteoffForm} {day : Except String (Option Date)}
    {product : Product} {batch : Batch} (h : writeoffCheck env d form day = .ok (product, batch)) :
    batch ∈ d.batches ∧ (form.confirm ≠ "1" → parseQty form.qtyRaw ≤ batch.quantity) := by
  unfold writeoffCheck at h
  obtain ⟨_, -, h⟩ := bind_ok_iff.mp h
  split at h
  · split at h
    · next found hfound =>
      simp only [warned_bind] at h
      split_ifs at h with hwarned
      cases h
      exact ⟨pickedBatch_mem hfound, fun hno => not_lt.mp fun hless => hwarned ⟨hno, hless⟩⟩
    · cases h
  · cases h

theorem transferCheck_oversold {form : TransferForm} {day : Except String (Option Date)}
    {plan : TransferPlan} (h : transferCheck env d form day = .ok plan)
    (hno : form.confirm ≠ "1") : parseQty form.qtyRaw ≤ plan.source.quantity := by
  unfold transferCheck at h
  obtain ⟨_, -, h⟩ := bind_ok_iff.mp h
  obtain ⟨⟨product, source, dest, home⟩, -, h⟩ := bind_ok_iff.mp h
  obtain ⟨⟨price, cost⟩, -, h⟩ := bind_ok_iff.mp h
  simp only [refuse_bind, warned_bind] at h
  split_ifs at h with hsame hwarned
  · cases h
  · cases h
    exact not_lt.mp fun hless => hwarned ⟨hno, hless⟩

/-- A return is timely while its units are left to return. -/
theorem timely_return {form : ReturnForm} {origin : Operation} {saleId : String}
    (remaining : Int) (h : parseQty form.qtyRaw ≤ returnableQty d saleId origin.productId) :
    Timely d (.saleReturn env form origin saleId remaining) := by
  refine ⟨fun saleId' productId hsome => ?_, fun _ b _ hstock => hstock⟩
  simp only [Waiting.returns] at hsome ⊢
  split_ifs at hsome ⊢ with hline
  · obtain ⟨rfl, rfl⟩ := hline
    exact h
  · exact absurd hsome (lt_irrefl 0)

/-- Without a confirmation the checks let no more out of a batch than they read it to have. -/
theorem removes_le {r : Waiting} (h : r.Passes d) (hids : (d.ids .batch).Nodup)
    (hno : ¬r.Confirmed) {b : Batch} (hb : b ∈ d.batches) (hsome : 0 < r.removes b.id) :
    r.removes b.id ≤ b.quantity := by
  have hsame : ∀ b' ∈ d.batches, b'.id = b.id → b' = b := fun b' hb' hid =>
    List.inj_on_of_nodup_map hids hb' hb hid
  cases r with
  | sale env form day plan =>
    have hlines := (saleCheck_ok h).1
    obtain ⟨l, hl, hid⟩ : ∃ l ∈ plan.lines, l.batch.id = b.id := by
      by_contra hnone
      refine absurd hsome (not_lt.mpr (sumOver_eq_zero fun l hl hid => ?_).le)
      exact absurd ⟨l, hl, by simpa using hid⟩ hnone
    obtain ⟨l', hl', hid', hle⟩ := oversold_eq_nil (saleCheck_oversold h hno) l hl
    rw [hid] at hid' hle
    rwa [hsame l'.batch (hlines l' hl').batch hid'] at hle
  | saleReturn env form origin saleId remaining => exact absurd hsome (lt_irrefl 0)
  | writeoff env form day product batch =>
    obtain ⟨hmem, hle⟩ := writeoffCheck_ok h
    simp only [Waiting.removes] at hsome ⊢
    split_ifs at hsome ⊢ with hid
    · rw [← hsame batch hmem hid]
      exact hle hno
    · exact absurd hsome (lt_irrefl 0)
  | transfer env form day plan =>
    simp only [Waiting.removes] at hsome ⊢
    split_ifs at hsome ⊢ with hid
    · rw [← hsame plan.source (transferCheck_source h) hid]
      exact transferCheck_oversold h hno
    · exact absurd hsome (lt_irrefl 0)

/-- **The checks ask for what makes a write timely**, of the store they read. -/
theorem timely_of_passes {r : Waiting} (h : r.Passes d) (hids : (d.ids .batch).Nodup) :
    Timely d r := by
  refine ⟨fun saleId productId hsome => ?_, fun hno b hb hstock => ?_⟩
  · cases r with
    | saleReturn env form origin saleId' remaining =>
      obtain ⟨-, -, -, -, -, hle, rfl⟩ := returnCheck_ok h
      exact (timely_return _ hle).returns saleId productId hsome
    | sale | writeoff | transfer => exact absurd hsome (lt_irrefl 0)
  · rcases le_or_gt (r.removes b.id) 0 with hnone | hsome
    · exact hnone.trans hstock
    · exact removes_le h hids hno hb hsome

/-- A request that writes right after its checks is timely. -/
theorem run_alone {r : Waiting} {rest : List Waiting} (h : r.Passes d)
    (hids : (d.ids .batch).Nodup) : Run gates Timely ⟨d, rest⟩ ⟨r.write d, rest⟩ :=
  Lib.CheckAct.alone h (timely_of_passes h hids)

/-! ## Every interleaving -/

/-- **The gates hold along every run of timely writes**: whatever interleaves, no product of a sale
is returned beyond what was sold, and no timely write of an unconfirmed request takes a batch that
is not overdrawn below zero. -/
theorem gates_timely {d : Db} {w : World Db Waiting} (hrun : Run gates Timely ⟨d, []⟩ w)
    (hd : Capped d) :
    Capped w.store ∧ ∀ r ∈ w.waiting, Timely w.store r → ¬r.Confirmed →
      ∀ i, Stocked i w.store → Stocked i (r.write w.store) := by
  have hempty : ∀ r ∈ (⟨d, []⟩ : World Db Waiting).waiting, gates.Passed r :=
    fun r hr => absurd hr List.not_mem_nil
  have hpassed := Lib.CheckAct.run_passed hrun hempty
  refine ⟨?_, fun r hr htimely hno i => htimely.stocked (hpassed r hr) hno⟩
  exact Lib.CheckAct.run_induct (fun d d' h hd => Elsewhere.capped h hd)
    (fun d r hr htimely hd => htimely.capped hr hd) hrun hempty hd

/-- **A batch is not overdrawn through timely writes**: if it ends below zero, a confirmed request
or a service that sells nothing took it there. -/
theorem stocked_run {d : Db} {w : World Db Waiting}
    (hrun : Run { gates with other := fun d d' => Elsewhere d d' ∧ (Stocked i d → Stocked i d') }
      (fun d r => Timely d r ∧ (r.Confirmed → Stocked i d → Stocked i (r.write d))) ⟨d, []⟩ w)
    (hd : Stocked i d) : Stocked i w.store := by
  refine Lib.CheckAct.run_induct ?_ ?_ hrun (fun r hr => absurd hr List.not_mem_nil) hd
  · exact fun d d' h => h.2
  · intro d r hr h hstock
    by_cases hconfirmed : r.Confirmed
    · exact h.2 hconfirmed hstock
    · exact h.1.stocked hr hconfirmed hstock

/-- A sale of two units of a product, one of each of two batches. -/
def soldTwo : Db := runAll {} (dearReturn.take 4)

/-- A return from the first line of that sale, of so many units. -/
def backTo (qty : String) (found : Operation × String × Int) : Waiting :=
  .saleReturn { Env.sample with newId := shortId } { originOpId := "xxxxxxxxx", qtyRaw := qty }
    found.1 found.2.1 found.2.2

/-- The two batches before that sale, one unit in each. -/
def onShelf : Db := runAll {} (dearReturn.take 3)

/-- A sale of the unit in the first batch. -/
def sellFirst : SaleForm where
  customerId := none
  codes := ["c"]
  qtys := ["1"]
  prices := ["10"]
  batchIds := ["xxxx"]

theorem soldTwo_capped : Capped soldTwo := fun saleId =>
  (books_run (fun r hr => dearReturn_service r (List.mem_of_mem_take hr)) saleId).cap

/-- Two returns of one unit each, which both check before one of them writes. -/
theorem gates_timely_soldTwo : ∃ w, Run gates Timely ⟨soldTwo, []⟩ w ∧
    w.store.operations.length = soldTwo.operations.length + 2 ∧ Capped w.store ∧
    ∀ r ∈ w.waiting, Timely w.store r → ¬r.Confirmed →
      ∀ i, Stocked i w.store → Stocked i (r.write w.store) := by
  have hchecks : (returnCheck { Env.sample with newId := shortId } soldTwo
      { originOpId := "xxxxxxxxx", qtyRaw := "1" }).toOption.any (fun found =>
        let r := backTo "1" found
        1 ≤ returnableQty soldTwo found.2.1 found.1.productId &&
          1 ≤ returnableQty (r.write soldTwo) found.2.1 found.1.productId &&
          (r.write (r.write soldTwo)).operations.length = soldTwo.operations.length + 2) =
      true := by
    decide +kernel
  obtain ⟨found, hcheck, hleft⟩ := toOption_any_iff.mp hchecks
  simp only [Bool.and_eq_true, decide_eq_true_eq] at hleft
  have hpasses : gates.passes soldTwo (backTo "1" found) := hcheck
  have htimely : ∀ d, 1 ≤ returnableQty d found.2.1 found.1.productId →
      Timely d (backTo "1" found) := fun d hone => timely_return found.2.2 hone
  have hrun : Run gates Timely ⟨soldTwo, []⟩ ⟨_, []⟩ :=
    Lib.CheckAct.race hpasses hpasses (htimely _ hleft.1.1) (htimely _ hleft.1.2)
  exact ⟨_, hrun, hleft.2, gates_timely hrun soldTwo_capped⟩

/-- **The gates do not hold of every interleaving.** Two returns of two units each of a sale of
two, and two unconfirmed sales of the one unit in a batch: both check, and then both write. -/
theorem gates_raced :
    (∃ w, Run gates (fun _ _ => True) ⟨soldTwo, []⟩ w ∧ Capped soldTwo ∧ ¬Capped w.store) ∧
    ∃ w, Run ⟨Waiting.Passes, Waiting.write, fun _ _ => False⟩ (fun _ r => ¬r.Confirmed)
      ⟨onShelf, []⟩ w ∧ Stocked "xxxx" onShelf ∧ ¬Stocked "xxxx" w.store := by
  constructor
  · have hchecks : (returnCheck { Env.sample with newId := shortId } soldTwo
        { originOpId := "xxxxxxxxx", qtyRaw := "2" }).toOption.any (fun found =>
          let r := backTo "2" found
          returnableQty (r.write (r.write soldTwo)) "xxxxxxxx" "xx" < 0) = true := by
      decide +kernel
    obtain ⟨found, hcheck, hover⟩ := toOption_any_iff.mp hchecks
    have hpasses : gates.passes soldTwo (backTo "2" found) := hcheck
    have hrun : Run gates (fun _ _ => True) ⟨soldTwo, []⟩ ⟨_, []⟩ :=
      Lib.CheckAct.race hpasses hpasses trivial trivial
    refine ⟨_, hrun, soldTwo_capped, fun hcapped => ?_⟩
    exact absurd (hcapped _ _) (not_le.mpr (of_decide_eq_true hover))
  · let env : Env := { Env.sample with newId := shortId }
    have hchecks : (saleCheck env onShelf sellFirst (.ok none)).toOption.any (fun plan =>
        let r := Waiting.sale env sellFirst (.ok none) plan
        (r.write (r.write onShelf)).batches.any fun b => b.id = "xxxx" && b.quantity < 0) =
        true := by
      decide +kernel
    obtain ⟨plan, hcheck, hover⟩ := toOption_any_iff.mp hchecks
    have hpasses : (Waiting.sale env sellFirst (.ok none) plan).Passes onShelf := hcheck
    have hno : ¬(Waiting.sale env sellFirst (.ok none) plan).Confirmed := by
      show ¬"" = "1"
      decide
    have hrun : Run ⟨Waiting.Passes, Waiting.write, fun _ _ => False⟩ (fun _ r => ¬r.Confirmed)
        ⟨onShelf, []⟩ ⟨_, []⟩ := Lib.CheckAct.race hpasses hpasses hno hno
    refine ⟨_, hrun, ?_, fun hstocked => ?_⟩
    · unfold Stocked
      decide +kernel
    · obtain ⟨b, hb, hguard⟩ := List.any_eq_true.mp hover
      simp only [Bool.and_eq_true, decide_eq_true_eq] at hguard
      exact absurd (hstocked b hb hguard.1) (not_le.mpr hguard.2)

end MyOriShop
