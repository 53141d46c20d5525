import MyOriShop.Atomicity
import MyOriShop.Effects

/-!
# Confinement: an operator and the other warehouses (`app/services/ledger.py`, `security.py`)

An operator has a list of warehouses. Each service resolves the ids it is given in its own way, and
`record_operation` checks the warehouse of the batch once more, except for the incoming leg of a
transfer.

* `Spared W b b'`: a batch is where it was, and outside of `W` it has the quantity it had.
* `Brings op b`: `op` is the incoming leg that filled the new batch `b`.
* `Confined` is what the requests of an operator leave.

Results:
* `Recorded.confined`: a row other than an incoming leg is written to a batch in `W`.
* `Call.confined`: each stock service is confined, whatever ids it is given.
* `operator_confined`: so is every run of them.
-/

namespace MyOriShop

open Lib.Text Lib.IsoDate Lib.Transaction Lib.Fallible
open Relation (ReflTransGen)

variable {W : List String} {env : Env} {d d' d'' w w' : Db}

/-- A batch after a write: outside of the warehouses `W` its quantity is what it was. -/
structure Spared (W : List String) (b b' : Batch) : Prop where
  id : b'.id = b.id
  warehouse : b'.warehouseId = b.warehouseId
  quantity : b.warehouseId ∉ W → b'.quantity = b.quantity

/-- The incoming leg of a transfer, and the batch it filled. -/
structure Brings (op : Operation) (b : Batch) : Prop where
  type : op.type = "transfer"
  batch : op.batchId = some b.id
  qty : 0 < op.qtyDelta
  quantity : b.quantity = op.qtyDelta

/-- What requests of an operator leave: the batches that were there, spared outside of `W`; new
batches, outside of `W` each with the incoming leg that filled it; and new ledger rows, each of a
batch in `W` or such a leg. -/
structure Confined (W : List String) (d d' : Db) (kept : Batch → Batch) (new : List Batch)
    (ops : List Operation) : Prop where
  batches : d'.batches = d.batches.map kept ++ new
  operations : d'.operations = d.operations ++ ops
  spared : ∀ b ∈ d.batches, Spared W b (kept b)
  brought : ∀ b ∈ new, b.warehouseId ∉ W → ∃ op ∈ ops, Brings op b
  written : ∀ op ∈ ops, ∀ i ∈ op.batchId, ∃ b ∈ d'.batches, b.id = i ∧
    (b.warehouseId ∈ W ∨ b ∈ new ∧ Brings op b)

/-- The writes from one state to another are confined. -/
def Confines (W : List String) (d d' : Db) : Prop := ∃ kept new ops, Confined W d d' kept new ops

theorem warehouseAllowed_iff (henv : env.allowed = some W) (warehouseId : String) :
    env.warehouseAllowed warehouseId = true ↔ warehouseId ∈ W := by
  rw [Env.warehouseAllowed, henv, decide_eq_true_eq]

/-! ## One write after another -/

theorem Spared.refl (W : List String) (b : Batch) : Spared W b b := ⟨rfl, rfl, fun _ => rfl⟩

theorem Spared.trans {b b' b'' : Batch} (h : Spared W b b') (h' : Spared W b' b'') :
    Spared W b b'' where
  id := h'.id.trans h.id
  warehouse := h'.warehouse.trans h.warehouse
  quantity hout := (h'.quantity (h.warehouse ▸ hout)).trans (h.quantity hout)

theorem Brings.spared {op : Operation} {b b' : Batch} (h : Brings op b) (hout : b.warehouseId ∉ W)
    (hb : Spared W b b') : Brings op b' where
  type := h.type
  batch := by rw [h.batch, hb.id]
  qty := h.qty
  quantity := (hb.quantity hout).trans h.quantity

/-- Writes that add no batch and no ledger row. -/
theorem Confines.of_map {kept : Batch → Batch} (hb : d'.batches = d.batches.map kept)
    (ho : d'.operations = d.operations) (hspared : ∀ b ∈ d.batches, Spared W b (kept b)) :
    Confines W d d' := by
  refine ⟨kept, [], [], by rw [hb, List.append_nil], by rw [ho, List.append_nil], hspared, ?_, ?_⟩
  · exact fun b hb => absurd hb List.not_mem_nil
  · exact fun op hop => absurd hop List.not_mem_nil

theorem Confines.of_eq (hb : d'.batches = d.batches) (ho : d'.operations = d.operations) :
    Confines W d d' := by
  have hmap : d'.batches = d.batches.map id := by rw [hb, List.map_id]
  exact .of_map hmap ho fun b _ => .refl W b

theorem Confines.refl (W : List String) (d : Db) : Confines W d d := .of_eq rfl rfl

/-- **Confined writes one after another.** -/
theorem Confined.trans {kept kept' : Batch → Batch} {new new' : List Batch}
    {ops ops' : List Operation} (h : Confined W d d' kept new ops)
    (h' : Confined W d' d'' kept' new' ops') :
    Confined W d d'' (kept' ∘ kept) (new.map kept' ++ new') (ops ++ ops') := by
  have hmem : ∀ b ∈ d.batches, kept b ∈ d'.batches := fun b hb => by
    rw [h.batches]
    exact List.mem_append_left _ (List.mem_map_of_mem hb)
  have hnew : ∀ b ∈ new, Spared W b (kept' b) := fun b hb => by
    refine h'.spared b ?_
    rw [h.batches]
    exact List.mem_append_right _ hb
  refine ⟨?_, ?_, fun b hb => (h.spared b hb).trans (h'.spared _ (hmem b hb)), ?_, ?_⟩
  · rw [h'.batches, h.batches, List.map_append, List.map_map, List.append_assoc]
  · rw [h'.operations, h.operations, List.append_assoc]
  · intro b hb hout
    rcases List.mem_append.mp hb with hb | hb
    · obtain ⟨b₀, hb₀, rfl⟩ := List.mem_map.mp hb
      have hout₀ : b₀.warehouseId ∉ W := (hnew b₀ hb₀).warehouse ▸ hout
      obtain ⟨op, hop, hbrings⟩ := h.brought b₀ hb₀ hout₀
      exact ⟨op, List.mem_append_left _ hop, hbrings.spared hout₀ (hnew b₀ hb₀)⟩
    · obtain ⟨op, hop, hbrings⟩ := h'.brought b hb hout
      exact ⟨op, List.mem_append_right _ hop, hbrings⟩
  · intro op hop i hi
    rcases List.mem_append.mp hop with hop | hop
    · obtain ⟨b, hb, hid, hwhere⟩ := h.written op hop i hi
      have hspared := h'.spared b hb
      refine ⟨kept' b, ?_, hspared.id.trans hid, ?_⟩
      · rw [h'.batches]
        exact List.mem_append_left _ (List.mem_map_of_mem hb)
      · rw [hspared.warehouse]
        by_cases hin : b.warehouseId ∈ W
        · exact .inl hin
        · obtain ⟨hmem, hbrings⟩ := hwhere.resolve_left hin
          exact .inr ⟨List.mem_append_left _ (List.mem_map_of_mem hmem), hbrings.spared hin hspared⟩
    · obtain ⟨b, hb, hid, hwhere⟩ := h'.written op hop i hi
      exact ⟨b, hb, hid, hwhere.imp_right fun hb => ⟨List.mem_append_right _ hb.1, hb.2⟩⟩

theorem Confines.trans (h : Confines W d d') (h' : Confines W d' d'') : Confines W d d'' := by
  obtain ⟨kept, new, ops, h⟩ := h
  obtain ⟨kept', new', ops', h'⟩ := h'
  exact ⟨_, _, _, h.trans h'⟩

/-! ## The single writes -/

/-- A batch after a ledger row, moved if it is the row's. -/
def moved (op : Operation) (stamp : String) (b : Batch) : Batch :=
  if op.batchId = some b.id then b.bump op.qtyDelta stamp else b

@[simp] theorem moved_id (op : Operation) (stamp : String) (b : Batch) :
    (moved op stamp b).id = b.id := by
  unfold moved
  split_ifs <;> rfl

@[simp] theorem moved_warehouse (op : Operation) (stamp : String) (b : Batch) :
    (moved op stamp b).warehouseId = b.warehouseId := by
  unfold moved
  split_ifs <;> rfl

theorem moved_of_ne {op : Operation} {b : Batch} (stamp : String) (h : op.batchId ≠ some b.id) :
    moved op stamp b = b := if_neg h

/-- The batches after a recorded row. -/
theorem Recorded.batches {args : OperationArgs} {op : Operation} (h : Recorded env args w op w') :
    ∃ stamp, w'.batches = w.batches.map (moved op stamp) := by
  obtain ⟨stamp, rfl⟩ := h.next
  exact ⟨stamp, (applyOperation_get w op stamp).2.2⟩

/-- The batch of a row that is no incoming leg is in one of the operator's warehouses. -/
theorem Recorded.owned {args : OperationArgs} {op : Operation} (h : Recorded env args w op w')
    (henv : env.allowed = some W) (hargs : args.type ≠ "transfer" ∨ args.qtyDelta ≤ 0) :
    ∀ b ∈ w.batches, op.batchId = some b.id → b.warehouseId ∈ W := by
  intro b hb hid
  -- ids are unique, so the batch that the guards found is the one that is moved
  obtain ⟨b', hb', hid', hwhere⟩ := batchGuard_warehouse h.batch b.id hid
  have hsame : b' = b := List.inj_on_of_nodup_map (h.ok.nodup .batch) hb' hb hid'
  rw [← hsame, ← warehouseAllowed_iff henv]
  refine hwhere.resolve_right fun hleg => ?_
  exact hargs.elim (fun hne => hne hleg.1) fun hle => absurd hleg.2 (not_lt.mpr hle)

/-- **A recorded row** that is no incoming leg is of a batch in one of the operator's warehouses. -/
theorem Recorded.confined {args : OperationArgs} {op : Operation} (h : Recorded env args w op w')
    (henv : env.allowed = some W) (hargs : args.type ≠ "transfer" ∨ args.qtyDelta ≤ 0) :
    ∃ stamp, Confined W w w' (moved op stamp) [] [op] := by
  obtain ⟨stamp, hbatches⟩ := h.batches
  have howned := h.owned henv hargs
  refine ⟨stamp, by rw [hbatches, List.append_nil], h.posted.operations, fun b hb => ?_,
    fun b hb => absurd hb List.not_mem_nil, fun op' hop' i hi => ?_⟩
  · refine ⟨moved_id .., moved_warehouse .., fun hout => ?_⟩
    rw [moved_of_ne stamp fun hid => hout (howned b hb hid)]
  · cases List.mem_singleton.mp hop'
    obtain ⟨b, hb, hid, -⟩ := batchGuard_warehouse h.batch i hi
    refine ⟨moved op stamp b, ?_, (moved_id ..).trans hid, .inl ?_⟩
    · rw [hbatches]
      exact List.mem_map_of_mem hb
    · rw [moved_warehouse]
      exact howned b hb (hid ▸ hi)

theorem Recorded.confines {args : OperationArgs} {op : Operation} (h : Recorded env args w op w')
    (henv : env.allowed = some W) (hargs : args.type ≠ "transfer") : Confines W w w' := by
  obtain ⟨stamp, hconfined⟩ := h.confined henv (.inl hargs)
  exact ⟨_, _, _, hconfined⟩

/-- A new batch in one of the operator's warehouses. -/
theorem confines_insert {b : Batch} (hb : b.warehouseId ∈ W) :
    Confines W d (d.insert .batch [b]) := by
  refine ⟨id, [b], [], by rw [List.map_id]; rfl, (List.append_nil _).symm, fun b _ => .refl W b,
    ?_, fun op hop => absurd hop List.not_mem_nil⟩
  exact fun b' hb' hout => absurd (List.mem_singleton.mp hb' ▸ hb) hout

/-- An edit that moves no batch and changes no quantity. -/
theorem confines_edit {id : String} {f : Batch → Batch}
    (h : ∀ b ∈ d.batches, Edited .batch b (f b)) : Confines W d (d.edit .batch id f) := by
  have hmap : (d.edit .batch id f).batches = d.batches.map fun b => if b.id = id then f b else b :=
    rfl
  refine .of_map hmap rfl fun b hb => ?_
  split_ifs
  · obtain ⟨hid, hquantity, -, hwarehouse, -⟩ := h b hb
    exact ⟨hid, hwarehouse, fun _ => hquantity⟩
  · exact .refl W b

/-! ## The services -/

/-- The program publishes nothing, and its writes are confined. -/
def Bounded {α : Type} (W : List String) (x : Act α) : Prop :=
  ∀ w, Stages w x fun _ w' => Confines W w w'

section Bounded

variable {α β : Type}

theorem bounded_pure (a : α) : Bounded W (pure a : Act α) := fun w => stages_pure (.refl W w)

theorem bounded_bind {x : Act β} {f : β → Act α} (hx : Bounded W x) (hf : ∀ b, Bounded W (f b)) :
    Bounded W (x >>= f) := fun w =>
  stages_bind (hx w) fun b w' h => (hf b w').mono fun _ _ h' => h.trans h'

theorem bounded_utcnowIso : Bounded W (utcnowIso env) := fun w =>
  stages_utcnowIso.mono fun _ _ h => h.2 ▸ .refl W w

theorem bounded_recordOperation (henv : env.allowed = some W) {args : OperationArgs}
    (hargs : args.type ≠ "transfer") : Bounded W (recordOperation env args) := fun _ =>
  (stages_recordOperation args).mono fun _ _ h => h.confines henv hargs

theorem bounded_applyEntered (henv : env.allowed = some W) {product : Product}
    (es : List (PriceField × Option Int)) : Bounded W (applyEntered env product es) := by
  induction es with
  | nil => exact bounded_pure ()
  | cons e es ih =>
    have hargs : (enteredPriceArgs product e.1 e.2).type ≠ "transfer" := by
      simp [enteredPriceArgs]
    unfold applyEntered
    split_ifs
    · exact ih
    · refine bounded_bind (bounded_recordOperation henv hargs) fun _ => ?_
      refine bounded_bind bounded_utcnowIso fun stamp w => stages_stage ?_
      exact (ih _).mono fun _ _ h => Confines.trans (by exact .of_eq rfl rfl) h

theorem bounded_receiptCard (henv : env.allowed = some W) {form : ReceiptForm} :
    Bounded W (receiptCard env form) := by
  intro w
  unfold receiptCard
  refine stages_read ?_
  split
  · exact bounded_bind (bounded_applyEntered henv _) (fun _ => bounded_pure _) w
  · refine bounded_bind bounded_utcnowIso (fun now w' => stages_stage ?_) w
    have hargs : ∀ p, (createdArgs p).type ≠ "transfer" := fun p => by simp [createdArgs]
    refine (bounded_bind (bounded_recordOperation henv (hargs _))
      (fun _ => bounded_pure _) _).mono fun _ _ h => ?_
    exact Confines.trans (by exact .of_eq rfl rfl) h

theorem bounded_receiptTarget {form : ReceiptForm} {product : Product} {day : Date}
    (hwarehouse : strip form.warehouseId ∈ W) :
    Bounded W (receiptTarget env form product day) := by
  intro w
  unfold receiptTarget
  refine stages_flush' fun _ => ?_
  split_ifs
  · refine bounded_bind bounded_utcnowIso (fun now w' => stages_read (stages_stage ?_)) w
    exact stages_pure (confines_insert hwarehouse)
  · refine stages_read ?_
    split
    · exact stages_pure (.refl W w)
    · split_ifs <;> exact stages_pure (.refl W w)

end Bounded

/-- A receipt's warehouse is one of the operator's. -/
theorem receiptErrors_warehouse (henv : env.allowed = some W) {form : ReceiptForm}
    {parsed : Except String (Option Date)} (h : receiptErrors env d form parsed = []) :
    strip form.warehouseId ∈ W := by
  have hactive : strip form.warehouseId ∈ activeWarehouses env d true := by
    unfold receiptErrors at h
    dsimp only at h
    rw [Errors.putDate_eq_nil] at h
    obtain ⟨-, h⟩ := h
    split_ifs at h <;> simp_all [Errors.put_ne_nil]
  obtain ⟨w, hw, hid⟩ := List.mem_map.mp hactive
  rw [← hid, ← warehouseAllowed_iff henv]
  have hguard := (List.mem_filter.mp hw).2
  simp only [Bool.not_true, Bool.false_or, Bool.and_eq_true] at hguard
  exact hguard.2

theorem closes_registerReceipt_confined (henv : env.allowed = some W) (form : ReceiptForm) :
    Closes d d Outcome.No (registerReceipt env form) fun _ d' => Confines W d d' := by
  unfold registerReceipt
  refine closes_bind (stages_parseOpDate _) ?_
  rintro parsed _ rfl
  refine closes_read (closes_orAnswer answers_stop fun _ hstop => ?_)
  have hwarehouse := receiptErrors_warehouse henv (Errors.stop_ok_iff.mp hstop)
  refine closes_bind (stages_dayOrToday _) ?_
  rintro day _ ⟨-, rfl⟩
  refine closes_bind (bounded_receiptCard henv _) fun product w hcard => ?_
  refine closes_bind (bounded_receiptTarget hwarehouse w) fun target w' htarget => ?_
  cases target with
  | none => exact closes_rollback trivial
  | some batchId =>
    have hargs : (receiptArgs form product day batchId).type ≠ "transfer" := by simp [receiptArgs]
    refine closes_bind (bounded_recordOperation henv hargs w') fun op w'' hop => ?_
    refine closes_recover (closes_done fun _ => ?_) fun e y h => closes_rollbackWith h trivial
    exact (hcard.trans htarget).trans hop

theorem closes_updateBatch (batchId : String) (form : BatchForm) :
    Closes d d Outcome.No (updateBatch env batchId form) fun _ d' => ∃ stamp,
      d' = d.edit .batch batchId (form.onto stamp) := by
  unfold updateBatch
  refine closes_read (closes_orAnswer answers_stop fun _ _ => ?_)
  refine closes_bind stages_utcnowIso ?_
  rintro stamp _ ⟨-, rfl⟩
  exact closes_stage (closes_done fun _ => ⟨stamp, rfl⟩)

theorem RecordedAll.confined (henv : env.allowed = some W) {rows : List OperationArgs}
    {ops : List Operation} (hargs : ∀ args ∈ rows, args.type ≠ "transfer")
    (h : RecordedAll env rows w ops w') : Confines W w w' := by
  induction h with
  | nil w => exact .refl W w
  | cons hop _ ih =>
    obtain ⟨hfirst, hrest⟩ := List.forall_mem_cons.mp hargs
    exact (hop.confines henv hfirst).trans (ih hrest)

theorem CashRecorded.confined {args : CashArgs} {m : CashMovement}
    (h : CashRecorded env args w m w') : Confines W w w' := by
  rw [h.next]
  exact .of_eq rfl rfl

theorem Sold.confined (henv : env.allowed = some W) {form : SaleForm} {plan : SalePlan}
    {sale : Sale} {day : Date} {ops : List Operation} {m : CashMovement}
    (h : Sold env form d plan sale day ops m d') : Confines W d d' := by
  obtain ⟨w, hops, hcash⟩ := h.rows
  have hheader : Confines W d (d.insert .sale [sale]) := .of_eq rfl rfl
  refine (hheader.trans (hops.confined henv fun args hargs => ?_)).trans hcash.confined
  obtain ⟨l, -, rfl⟩ := List.mem_map.mp hargs
  simp [saleArgs]

/-- The batch of a return is there, or is made in a warehouse of the operator's. -/
theorem ReturnBatch.confined (henv : env.allowed = some W) {origin : Operation} {batchId : String}
    (hallowed : originAllowed env d origin = true) (h : ReturnBatch d origin batchId w) :
    Confines W d w := by
  cases h with
  | origin => exact .refl W d
  | legacy => exact .refl W d
  | created hnull hnone =>
    refine confines_insert ?_
    unfold originAllowed resolveReturnBatch at hallowed
    rw [hnull, hnone] at hallowed
    exact (warehouseAllowed_iff henv _).mp hallowed

theorem returnCheck_allowed {form : ReturnForm} {origin : Operation} {saleId : String}
    {remaining : Int} (h : returnCheck env d form = .ok (origin, saleId, remaining)) :
    originAllowed env d origin = true := by
  unfold returnCheck at h
  split at h
  · next found saleId' hfound =>
    have horigin : found = origin := by
      simp only [refuse_bind] at h
      split_ifs at h <;> cases h
      rfl
    unfold returnOrigin at hfound
    simp only [Option.bind_eq_bind, Option.bind_eq_some_iff] at hfound
    obtain ⟨row, -, sale, -, hguard⟩ := hfound
    split_ifs at hguard with hsold
    cases hguard
    exact horigin ▸ hsold.2
  · cases h

theorem Returned.confined (henv : env.allowed = some W) {form : ReturnForm} {origin : Operation}
    {saleId : String} {op : Operation} {day : Date} {m : Option CashMovement}
    (h : Returned env form d origin saleId op day m d') : Confines W d d' := by
  obtain ⟨remaining, hcheck⟩ := h.check
  obtain ⟨batchId, w, w', hbatch, hop, hrefund⟩ := h.rows
  have hargs : (returnArgs origin saleId (parseQty form.qtyRaw) batchId day).type ≠ "transfer" := by
    simp [returnArgs]
  have hstock := (hbatch.confined henv (returnCheck_allowed hcheck)).trans
    (hop.confines henv hargs)
  cases hrefund with
  | nothing => exact hstock
  | cash _ _ hm => exact hstock.trans hm.confined

theorem transferCheck_qty {form : TransferForm} {parsed : Except String (Option Date)}
    {plan : TransferPlan} (h : transferCheck env d form parsed = .ok plan) :
    0 < parseQty form.qtyRaw := by
  unfold transferCheck at h
  obtain ⟨_, hstop, -⟩ := bind_ok_iff.mp h
  have herrors := Errors.stop_ok_iff.mp hstop
  rw [Errors.putDate_eq_nil, Errors.putIf_eq_nil] at herrors
  simpa using herrors.2.1

/-- The id of a transfer's new batch is none of those that were there. -/
theorem Transferred.new {form : TransferForm} {plan : TransferPlan} {dest : Batch}
    {out into : Operation} (h : Transferred env form d plan dest out into d') :
    ∀ b ∈ d.batches, b.id ≠ dest.id := fun _ hb hid =>
  h.fresh.2 (mem_usedIds (k := .batch) (hid ▸ List.mem_map_of_mem hb))

/-- **The batches after a transfer**: the two rows moved one batch each. -/
theorem Transferred.batches {form : TransferForm} {plan : TransferPlan} {dest : Batch}
    {out into : Operation} (h : Transferred env form d plan dest out into d') :
    out.batchId = some plan.source.id ∧ into.batchId = some dest.id ∧ ∃ stamp stamp',
      d'.batches = d.batches.map (moved out stamp) ++ [moved into stamp' dest] := by
  obtain ⟨parsed, hcheck⟩ := h.check
  obtain ⟨w, day, hout, hinto⟩ := h.rows
  obtain ⟨stamp, hleaves⟩ := hout.batches
  obtain ⟨stamp', hfills⟩ := hinto.batches
  have hstock : ("transfer" : String) ∈ stockAffectingTypes := by decide
  have houtId : out.batchId = some plan.source.id := hout.carries.batchId hstock
  have hintoId : into.batchId = some dest.id := hinto.carries.batchId hstock
  refine ⟨houtId, hintoId, stamp, stamp', ?_⟩
  -- the new batch is none of those that were there
  have hdestSame : moved out stamp dest = dest := by
    refine moved_of_ne stamp fun hid => h.new _ (transferCheck_source hcheck) ?_
    exact Option.some.inj (houtId.symm.trans hid)
  have hw : w.batches = d.batches.map (moved out stamp) ++ [dest] := by
    rw [hleaves]
    show (d.batches ++ [dest]).map _ = _
    rw [List.map_append, List.map_singleton, hdestSame]
  rw [hfills, hw, List.map_append, List.map_map, List.map_singleton]
  refine congrArg (· ++ _) (List.map_congr_left fun b hb => ?_)
  refine moved_of_ne stamp' fun hid => h.new b hb ?_
  rw [moved_id] at hid
  exact (Option.some.inj (hintoId.symm.trans hid)).symm

/-- **A transfer** takes from a batch in `W` and fills a batch that is new. -/
theorem Transferred.confined (henv : env.allowed = some W) {form : TransferForm}
    {plan : TransferPlan} {dest : Batch} {out into : Operation}
    (h : Transferred env form d plan dest out into d') : Confines W d d' := by
  obtain ⟨parsed, hcheck⟩ := h.check
  have hqty := transferCheck_qty hcheck
  obtain ⟨now, hdest⟩ := h.batch
  obtain ⟨houtId, hintoId, stamp, stamp', hbatches⟩ := h.batches
  obtain ⟨w, day, hout, hinto⟩ := h.rows
  have howned : ∀ b ∈ d.batches, out.batchId = some b.id → b.warehouseId ∈ W := fun b hb =>
    hout.owned henv (.inr (neg_nonpos.mpr hqty.le)) b (List.mem_append_left _ hb)
  have hbrings : Brings into (moved into stamp' dest) := by
    refine ⟨hinto.carries.type, by rw [moved_id, hintoId], ?_, ?_⟩
    · rw [hinto.carries.qtyDelta]
      exact hqty
    · have hempty : dest.quantity = 0 := by rw [hdest]; rfl
      rw [moved, if_pos hintoId, Batch.bump]
      simp [hempty]
  refine ⟨moved out stamp, [moved into stamp' dest], [out, into], hbatches, ?_, fun b hb => ?_,
    fun b hb _ => ?_, ?_⟩
  · rw [hinto.posted.operations, hout.posted.operations, List.append_assoc]
    rfl
  · refine ⟨moved_id .., moved_warehouse .., fun houtside => ?_⟩
    rw [moved_of_ne stamp fun hid => houtside (howned b hb hid)]
  · rw [List.mem_singleton.mp hb]
    exact ⟨into, List.mem_cons_of_mem _ (List.mem_singleton_self _), hbrings⟩
  · intro op hop i hi
    rw [hbatches]
    rcases List.mem_cons.mp hop with rfl | hop
    · have hsource := transferCheck_source hcheck
      refine ⟨moved op stamp plan.source, List.mem_append_left _ (List.mem_map_of_mem hsource),
        (moved_id ..).trans (Option.some.inj (houtId.symm.trans hi)), .inl ?_⟩
      rw [moved_warehouse]
      exact howned _ hsource houtId
    · cases List.mem_singleton.mp hop
      refine ⟨moved into stamp' dest, List.mem_append_right _ (List.mem_singleton_self _), ?_,
        .inr ⟨List.mem_singleton_self _, hbrings⟩⟩
      rw [moved_id]
      exact Option.some.inj (hintoId.symm.trans hi)

/-! ## Runs -/

/-- The services that write stock or batches. -/
def Call.Stock : Call → Prop
  | .sale _ | .receipt _ | .saleReturn _ | .writeoff _ | .correction _ | .transfer _
  | .updateBatch .. => True
  | _ => False

/-- **Each stock service is confined**, whatever ids it is given. -/
theorem Call.confined (henv : env.allowed = some W) {call : Call} (h : call.Stock) (d : Db) :
    Confines W d (call.exec env d) := by
  have hdone : ∀ {α : Type} {x : Act (Outcome α)} {Q : Outcome α → Db → Prop},
      Closes d d Outcome.No x Q → (∀ a d', Q a d' → Confines W d d') → Confines W d (x.exec d) := by
    intro α x Q hx hQ
    rcases exec_of_closes hx with hsame | ⟨a, -, hdone⟩
    · rw [hsame]
      exact .refl W d
    · exact hQ a _ hdone
  cases call with
  | sale form =>
    refine hdone (closes_registerSale form) ?_
    rintro _ d' ⟨plan, sale, day, ops, m, -, hsold⟩
    exact hsold.confined henv
  | saleReturn form =>
    refine hdone (closes_registerReturn form) ?_
    rintro _ d' ⟨origin, saleId, op, day, m, -, hreturned⟩
    exact hreturned.confined henv
  | receipt form => exact hdone (closes_registerReceipt_confined henv form) fun _ _ h => h
  | writeoff form =>
    refine hdone (closes_registerWriteoff form) ?_
    rintro _ d' ⟨parsed, plan, op, -, hop⟩
    exact hop.confines henv (by simp [writeoffArgs])
  | correction form =>
    refine hdone (closes_registerCorrection form) ?_
    rintro _ d' ⟨parsed, plan, op, -, hop⟩
    exact hop.confines henv (by simp [correctionArgs])
  | transfer form =>
    refine hdone (closes_registerTransfer form) ?_
    rintro _ d' ⟨plan, dest, out, into, htransferred⟩
    exact htransferred.confined henv
  | updateBatch batchId form =>
    refine hdone (closes_updateBatch batchId form) ?_
    rintro _ d' ⟨stamp, rfl⟩
    exact confines_edit fun b _ => edited_batch form stamp b
  | createProduct | updateProduct | softDeleteProduct | quickDeleteProduct | restoreProduct | cash
  | addWarehouse | updateWarehouse | restoreWarehouse | softDeleteWarehouse | createCustomer
  | updateCustomer | addEntry | updateEntry | staged => exact h.elim

/-- **Operator confinement.** After every run of the stock services by operators of the warehouses
`W`, whatever ids they are given: each batch that was there is there, in its warehouse, and outside
of `W` with the quantity it had; each new batch outside of `W` has the positive quantity that an
incoming transfer leg brought; and each new ledger row is of no batch, of a batch in `W`, or the
incoming leg that filled a new batch, which ids that are unique make the only one it can be of. -/
theorem operator_confined (W : List String) (d : Db) (run : List Request)
    (hrun : ∀ r ∈ run, r.env.allowed = some W ∧ r.call.Stock) :
    ∃ kept new ops, Confined W d (runAll d run) kept new ops ∧
      ((d.ids .batch).Nodup → ∀ op ∈ ops, ∀ b ∈ (runAll d run).batches, op.batchId = some b.id →
        b.warehouseId ∈ W ∨ b ∈ new ∧ Brings op b) := by
  have hconfines : Confines W d (runAll d run) := by
    induction run generalizing d with
    | nil => exact .refl W d
    | cons r run ih =>
      obtain ⟨⟨henv, hcall⟩, hrest⟩ := List.forall_mem_cons.mp hrun
      exact (Call.confined henv hcall d).trans (ih (r.exec d) hrest)
  obtain ⟨kept, new, ops, hconfined⟩ := hconfines
  refine ⟨kept, new, ops, hconfined, fun hids op hop b hb hid => ?_⟩
  have hreaches : ReflTransGen (Write fun _ => True) d (runAll d run) :=
    runAll_reaches fun _ _ _ _ => .inr trivial
  have hnodup := writes_nodup hreaches hids (k := .batch)
  obtain ⟨b', hb', hid', hwhere⟩ := hconfined.written op hop b.id hid
  rwa [List.inj_on_of_nodup_map hnodup hb' hb hid'] at hwhere

/-- Five units in one of two warehouses. -/
def twoShops : Db :=
  runAll {} [⟨Env.sample, .addWarehouse { name := "a", address := "" }⟩,
    ⟨Env.sample, .addWarehouse { name := "b", address := "" }⟩,
    ⟨Env.sample, .receipt
      { code := "c", name := "n", qtyRaw := "5", costRaw := "", saleRaw := "", warehouseId := "x"
        batchChoice := "new" }⟩]

/-- An operator of the first one sends two of them to the second. -/
def sentAway : List Request :=
  [⟨{ Env.sample with allowed := some ["x"] }, .transfer
    { code := "c", qtyRaw := "2", batchId := "xxxxxxxxxxxxxxxxxxxx", destWarehouseId := "xx" }⟩]

theorem operator_confined_sentAway :
    ((runAll twoShops sentAway).batches.map fun b => (b.warehouseId, b.quantity)) =
      [("x", 3), ("xx", 2)] ∧
    ∃ kept new ops, Confined ["x"] twoShops (runAll twoShops sentAway) kept new ops ∧
      ((twoShops.ids .batch).Nodup → ∀ op ∈ ops, ∀ b ∈ (runAll twoShops sentAway).batches,
        op.batchId = some b.id → b.warehouseId ∈ ["x"] ∨ b ∈ new ∧ Brings op b) := by
  refine ⟨by decide +kernel, operator_confined ["x"] twoShops sentAway fun r hr => ?_⟩
  cases List.mem_singleton.mp hr
  exact ⟨rfl, trivial⟩

end MyOriShop
