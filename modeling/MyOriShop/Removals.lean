import MyOriShop.Gates

/-!
# Removals: what an unconfirmed call may take out of a batch (`app/services/sales.py`,
`writeoffs.py`, `transfers.py`, `corrections.py`)

Each of the four services has a gate of its own. Without `confirm = "1"` it answers with a warning
and writes nothing; with it the batch may go below zero.

* `Call.Unconfirmed`: a call of one of the four services without the confirmation.
* `Guarded d r`: no batch that the request decreases ends below zero, and a warning changes nothing.
* `OverRemoval form batch`: the correction takes stock out of the batch and would leave it below
  zero. `Overdue form batch`: it brings stock to a batch that stays below zero.

Results:
* `Wrote.guarded`: a write step that takes no more than there is leaves no batch it decreases below
  zero.
* `unconfirmed_removals`: every request of a run of unconfirmed calls is guarded.
* `correction_gate_iff`: a correction asks exactly for its over-removals, and never for a count or
  for stock that comes in, unless it is overdue; `not_correction_gate` has one that is.
-/

namespace MyOriShop

open Lib.Text Lib.IsoDate Lib.Transaction Lib.Fallible
open Relation (ReflTransGen)

variable {env : Env} {d d' : Db}

/-! ## The four gates -/

/-- The removing services, called without a confirmation. -/
def Call.Unconfirmed : Call → Prop
  | .sale form => form.confirm ≠ "1"
  | .writeoff form => form.confirm ≠ "1"
  | .transfer form => form.confirm ≠ "1"
  | .correction form => form.confirm ≠ "1"
  | _ => False

/-- The service answers with a warning. -/
def Call.Warns (env : Env) (d : Db) : Call → Prop
  | .sale form => ∃ warning, (registerSale env form).reply d = .ok (.warned warning)
  | .writeoff form => ∃ warning, (registerWriteoff env form).reply d = .ok (.warned warning)
  | .transfer form => ∃ warning, (registerTransfer env form).reply d = .ok (.warned warning)
  | .correction form => ∃ warning, (registerCorrection env form).reply d = .ok (.warned warning)
  | _ => False

/-- A batch that is decreased does not end below zero. -/
def Decreases (d d' : Db) : Prop :=
  ∀ b ∈ d.batches, ∀ b' ∈ d'.batches, b'.id = b.id → b'.quantity < b.quantity → 0 ≤ b'.quantity

/-- What the gates promise of a request. -/
structure Guarded (d : Db) (r : Request) : Prop where
  stock : Decreases d (r.exec d)
  warned : r.call.Warns r.env d → r.exec d = d

theorem Decreases.refl (hids : (d.ids .batch).Nodup) : Decreases d d := by
  intro b hb b' hb' hid hless
  rw [List.inj_on_of_nodup_map hids hb' hb hid] at hless
  exact absurd hless (lt_irrefl _)

/-- A write step that takes no more out of a batch than it has. -/
theorem Wrote.decreases {r : Waiting} {ops : List Operation} (h : Wrote r d ops d')
    (hids : (d.ids .batch).Nodup)
    (hremoves : ∀ b ∈ d.batches, 0 < r.removes b.id → r.removes b.id ≤ b.quantity) :
    Decreases d d' := by
  intro b hb b' hb' hid hless
  rcases h.batches b' hb' with hquantity | ⟨b₀, hb₀, hid₀, hquantity⟩
  · exact hquantity
  · rw [List.inj_on_of_nodup_map hids hb₀ hb (hid₀.trans hid)] at hquantity
    have hstock := hremoves b hb (by omega)
    omega

theorem correctionCheck_ok {form : CorrectionForm} {day : Except String (Option Date)}
    {product : Product} {batch : Batch} {delta : Int}
    (h : correctionCheck env d form day = .ok (product, batch, delta)) :
    batch ∈ d.batches ∧ (form.confirm ≠ "1" → -delta ≤ batch.quantity) := by
  unfold correctionCheck at h
  obtain ⟨⟨product', batch'⟩, htarget, h⟩ := bind_ok_iff.mp h
  obtain ⟨_, -, h⟩ := bind_ok_iff.mp h
  simp only [refuse_bind, warned_bind] at h
  split_ifs at h with hzero hwarned
  · cases h
  · cases h
    refine ⟨?_, fun hno => not_lt.mp fun hless => hwarned ⟨hno, hless⟩⟩
    unfold correctionTarget at htarget
    simp only [refuse_bind] at htarget
    split_ifs at htarget
    · cases htarget
    · cases htarget
    · split at htarget
      · split at htarget
        · next hpicked =>
          cases htarget
          exact pickedBatch_mem hpicked
        · cases htarget
      · cases htarget

/-- A correction leaves the other batches as they are. -/
theorem Recorded.decreases {form : CorrectionForm} {day : Option Date} {product : Product}
    {batch : Batch} {delta : Int} {op : Operation}
    (h : Recorded env (correctionArgs form day product batch delta) d op d')
    (hids : (d.ids .batch).Nodup) (hbatch : batch ∈ d.batches)
    (hremoves : -delta ≤ batch.quantity) : Decreases d d' := by
  intro b hb b' hb' hid hless
  obtain ⟨b₀, hb₀, hid₀, hquantity⟩ := h.posted.mem_batch hb'
  rw [List.inj_on_of_nodup_map hids hb₀ hb (hid₀.trans hid),
    batchSum_row h.carries (by simp [correctionArgs, stockAffectingTypes]) rfl] at hquantity
  have hdelta : (correctionArgs form day product batch delta).qtyDelta = delta := rfl
  rw [hdelta] at hquantity
  split_ifs at hquantity with hsame
  · rw [List.inj_on_of_nodup_map hids hbatch hb hsame] at hremoves
    omega
  · omega

theorem Atomic.warned {α : Type} {x : Act (Outcome α)} (h : Atomic x) {warning : Warning}
    (hreply : x.reply d = .ok (.warned warning)) : x.exec d = d :=
  (h.no ⟨d, d, 0, 0⟩ rfl _ hreply trivial).1

/-- A request of a removing service is guarded. -/
theorem guarded_of_unconfirmed {r : Request} (h : r.call.Unconfirmed)
    (hids : (d.ids .batch).Nodup) : Guarded d r := by
  obtain ⟨env, call⟩ := r
  have hgate : ∀ {x : Waiting} {ops : List Operation} {d' : Db}, x.Passes d → ¬x.Confirmed →
      Wrote x d ops d' → Decreases d d' := fun hpasses hno hwrote =>
    hwrote.decreases hids fun b hb hsome => removes_le hpasses hids hno hb hsome
  obtain ⟨hsale, -, -, htransfer, hwriteoff, hcorrection, -⟩ := services_atomic env
  cases call with
  | sale form =>
    refine ⟨?_, fun ⟨_, hreply⟩ => (hsale form).warned hreply⟩
    rcases exec_of_closes (@closes_registerSale env d form) with hsame | hdone
    · have hexec : Request.exec d ⟨env, .sale form⟩ = d := hsame
      rw [hexec]
      exact Decreases.refl hids
    · obtain ⟨_, -, plan, sale, day, ops, m, -, hsold⟩ := hdone
      obtain ⟨parsed, hcheck⟩ := hsold.check
      have hrows : SaleRows env d plan sale day ops m ((registerSale env form).exec d) :=
        hsold.rows
      exact hgate (x := .sale env form parsed plan) hcheck h
        (hrows.wrote fun l hl => ((saleCheck_ok hcheck).1 l hl).qty)
  | writeoff form =>
    refine ⟨?_, fun ⟨_, hreply⟩ => (hwriteoff form).warned hreply⟩
    rcases exec_of_closes (@closes_registerWriteoff env d form) with hsame | hdone
    · have hexec : Request.exec d ⟨env, .writeoff form⟩ = d := hsame
      rw [hexec]
      exact Decreases.refl hids
    · obtain ⟨_, -, parsed, ⟨product, batch⟩, op, hcheck, hop⟩ := hdone
      exact hgate (x := .writeoff env form parsed product batch) hcheck h hop.wrote_writeoff
  | transfer form =>
    refine ⟨?_, fun ⟨_, hreply⟩ => (htransfer form).warned hreply⟩
    rcases exec_of_closes (@closes_registerTransfer env d form) with hsame | hdone
    · have hexec : Request.exec d ⟨env, .transfer form⟩ = d := hsame
      rw [hexec]
      exact Decreases.refl hids
    · obtain ⟨_, -, plan, dest, out, into, hdone⟩ := hdone
      obtain ⟨parsed, hcheck⟩ := hdone.check
      have hrows : TransferRows env form d plan dest out into ((registerTransfer env form).exec d) :=
        ⟨hdone.fresh, hdone.batch, hdone.rows, hdone.ok⟩
      exact hgate (x := .transfer env form parsed plan) hcheck h (hrows.wrote (transferCheck_qty hcheck))
  | correction form =>
    refine ⟨?_, fun ⟨_, hreply⟩ => (hcorrection form).warned hreply⟩
    rcases exec_of_closes (@closes_registerCorrection env d form) with hsame | hdone
    · have hexec : Request.exec d ⟨env, .correction form⟩ = d := hsame
      rw [hexec]
      exact Decreases.refl hids
    · obtain ⟨_, -, parsed, ⟨product, batch, delta⟩, op, hcheck, hop⟩ := hdone
      obtain ⟨hbatch, hremoves⟩ := correctionCheck_ok hcheck
      exact hop.decreases hids hbatch (hremoves h)
  | createProduct | updateProduct | softDeleteProduct | quickDeleteProduct | restoreProduct
  | receipt | updateBatch | saleReturn | cash | addWarehouse | updateWarehouse | restoreWarehouse
  | softDeleteWarehouse | createCustomer | updateCustomer | addEntry | updateEntry | staged =>
    exact False.elim h

/-- **Unconfirmed removals** take no batch below zero: in every run of the four services without a
confirmation, a batch that a request decreases ends at zero or more, and a request that warns leaves
the database as it was. -/
theorem unconfirmed_removals (d : Database) (run : List Request)
    (h : ∀ r ∈ run, r.call.Unconfirmed) : Along Guarded d.db run := by
  have hids : (d.db.ids .batch).Nodup := d.ok.nodup .batch
  generalize d.db = found at hids ⊢
  induction run generalizing found with
  | nil => trivial
  | cons r run ih =>
    obtain ⟨hr, hrun⟩ := List.forall_mem_cons.mp h
    exact ⟨guarded_of_unconfirmed hr hids, ih hrun _ (writes_nodup (exec_writes r found) hids)⟩

/-- A sale of one unit of the first batch, asked for twice. -/
theorem unconfirmed_removals_twice :
    Along Guarded onShelf [atShop (.sale sellFirst), atShop (.sale sellFirst)] ∧
      (Request.exec onShelf (atShop (.sale sellFirst))).batches.map Batch.quantity = [0, 1] ∧
      Call.Warns { Env.sample with newId := shortId }
        (Request.exec onShelf (atShop (.sale sellFirst))) (.sale sellFirst) := by
  have hok : onShelf.Ok := by decide
  refine ⟨unconfirmed_removals ⟨onShelf, hok⟩ _ ?_, by decide +kernel, ?_⟩
  · have hno : (atShop (.sale sellFirst)).call.Unconfirmed := by
      show "" ≠ "1"
      decide
    exact List.forall_mem_cons.mpr ⟨hno, List.forall_mem_singleton.mpr hno⟩
  · exact reply_warned (by decide +kernel)

/-! ## The gate of a correction -/

/-- `register_correction` asks for a confirmation. -/
def Asks (env : Env) (d : Db) (form : CorrectionForm) : Prop :=
  ∃ warning, (registerCorrection env form).reply d = .ok (.warned warning)

/-- The correction takes stock out of the batch and would leave it below zero. -/
def OverRemoval (form : CorrectionForm) (batch : Batch) : Prop :=
  ∃ delta, correctionDelta form batch = .ok delta ∧ delta < 0 ∧ batch.quantity + delta < 0

/-- The correction brings stock to the batch. -/
def BringsStock (form : CorrectionForm) (batch : Batch) : Prop :=
  ∃ delta, correctionDelta form batch = .ok delta ∧ 0 < delta

/-- It brings stock to a batch that stays below zero. -/
def Overdue (form : CorrectionForm) (batch : Batch) : Prop :=
  ∃ delta, correctionDelta form batch = .ok delta ∧ 0 < delta ∧ batch.quantity + delta < 0

/-- The one-row services answer with their row or with a refusal. -/
theorem closes_recordOrFail_answer (args : OperationArgs) :
    Closes d d (fun answer => ∃ errors, answer = .refused errors) (recordOrFail env args)
      fun answer _ => ∃ op, answer = .done op := by
  unfold recordOrFail recordOperationCommit
  refine closes_recover (closes_map ?_) fun e y h w => ?_
  · refine closes_bind (stages_recordOperation args) fun op w _ => closes_commit ?_ fun _ => ?_
    · rintro ⟨errors, h⟩
      cases h
    · exact ⟨op, rfl⟩
  · unfold rollbackWith at h
    split_ifs at h
    cases h
    exact closes_rollback ⟨_, rfl⟩

/-- A correction asks where its checks do. -/
theorem asks_iff {form : CorrectionForm} {day : Except String (Option Date)}
    (hday : (parseOpDate env form.opDate).reply d = .ok day) :
    Asks env d form ↔ ∃ warning, correctionCheck env d form day = .error (.warned warning) := by
  obtain ⟨hcommitted, -, hworking⟩ := @stages_parseOpDate d env form.opDate ⟨d, d, 0, 0⟩ rfl
  have hsame : ((parseOpDate env form.opDate) ⟨d, d, 0, 0⟩).2.working = d := hworking day hday
  have hrun : (registerCorrection env form).reply d =
      (orAnswer (correctionCheck env d form day) (fun plan =>
        recordOrFail env (correctionArgs form (opDate day) plan.1 plan.2.1 plan.2.2))
          ((parseOpDate env form.opDate) ⟨d, d, 0, 0⟩).2).1 := by
    unfold registerCorrection Tx.reply
    rw [bind_run_ok (show (parseOpDate env form.opDate) ⟨d, d, 0, 0⟩ =
      (.ok day, ((parseOpDate env form.opDate) ⟨d, d, 0, 0⟩).2) from Prod.ext hday rfl)]
    rw [bind_run_ok (show Tx.read ((parseOpDate env form.opDate) ⟨d, d, 0, 0⟩).2 =
      (.ok d, ((parseOpDate env form.opDate) ⟨d, d, 0, 0⟩).2) from by rw [Tx.read, hsame])]
  unfold Asks
  rw [hrun]
  cases hcheck : correctionCheck env d form day with
  | error answer =>
    show (∃ warning, Except.ok answer = .ok (.warned warning)) ↔ _
    simp only [Except.ok.injEq, Except.error.injEq]
  | ok plan =>
    refine iff_of_false ?_ ?_
    · rintro ⟨warning, hreply⟩
      have hend := @closes_recordOrFail_answer env d
        (correctionArgs form (opDate day) plan.1 plan.2.1 plan.2.2) _ hcommitted hsame
      have hanswer : (recordOrFail env (correctionArgs form (opDate day) plan.1 plan.2.1 plan.2.2)
        ((parseOpDate env form.opDate) ⟨d, d, 0, 0⟩).2).1 = .ok (.warned warning) := hreply
      rw [hanswer] at hend
      cases hend with
      | refused _ _ hno =>
        obtain ⟨errors, h⟩ := hno
        cases h
      | done _ _ _ _ _ hdone =>
        obtain ⟨op, h⟩ := hdone
        cases h
    · rintro ⟨warning, h⟩
      cases h

theorem correctionCheck_warned_iff {form : CorrectionForm} {product : Product} {batch : Batch}
    {day : Option Date} (htarget : correctionTarget env d form = .ok (product, batch)) :
    (∃ warning, correctionCheck env d form (.ok day) = .error (.warned warning)) ↔
      form.confirm ≠ "1" ∧ ∃ delta, correctionDelta form batch = .ok delta ∧ delta ≠ 0 ∧
        batch.quantity < -delta := by
  cases hdelta : correctionDelta form batch with
  | error message =>
    refine iff_of_false ?_ fun ⟨_, _, h, _⟩ => by cases h
    rintro ⟨warning, h⟩
    unfold correctionCheck at h
    rw [htarget, ok_bind] at h
    simp only [hdelta] at h
    cases h
  | ok delta =>
    have hcheck : correctionCheck env d form (.ok day) =
        if delta = 0 then refuse "quantity" "Остаток не изменился — нечего сохранять."
        else if form.confirm ≠ "1" ∧ batch.quantity < -delta then
          .error (.warned (oversellWarning product batch (-delta)))
        else .ok (product, batch, delta) := by
      unfold correctionCheck
      rw [htarget, ok_bind]
      simp only [hdelta, Errors.putField, Errors.putDate, Errors.stop, if_true, ok_bind,
        refuse_bind, warned_bind]
      rfl
    rw [hcheck]
    constructor
    · rintro ⟨warning, h⟩
      split_ifs at h with hzero hwarned
      · cases h
      · exact ⟨hwarned.1, delta, rfl, hzero, hwarned.2⟩
    · rintro ⟨hno, delta', heq, hzero, hless⟩
      cases heq
      rw [if_neg hzero, if_pos ⟨hno, hless⟩]
      exact ⟨_, rfl⟩

/-- A count leaves the batch at what was counted. -/
theorem count_nonneg {form : CorrectionForm} {batch : Batch} {delta : Int}
    (hmode : form.mode = "count") (h : correctionDelta form batch = .ok delta) :
    0 ≤ batch.quantity + delta := by
  unfold correctionDelta at h
  rw [if_pos hmode] at h
  split at h
  · cases h
    omega
  · cases h

/-- **The gate of a correction**: it asks exactly for its over-removals, and neither for stock that
comes in nor for a count, unless it brings stock to a batch that stays below zero. -/
theorem correction_gate_iff {form : CorrectionForm} {product : Product} {batch : Batch}
    {day : Option Date} (hno : form.confirm ≠ "1")
    (htarget : correctionTarget env d form = .ok (product, batch))
    (hday : (parseOpDate env form.opDate).reply d = .ok (.ok day)) :
    ((Asks env d form ↔ OverRemoval form batch) ∧
      (BringsStock form batch ∨ form.mode = "count" → ¬Asks env d form)) ↔
        ¬Overdue form batch := by
  have hasks : Asks env d form ↔ ∃ delta, correctionDelta form batch = .ok delta ∧ delta ≠ 0 ∧
      batch.quantity < -delta := by
    rw [asks_iff hday, correctionCheck_warned_iff htarget]
    exact and_iff_right hno
  rw [hasks]
  constructor
  · rintro ⟨-, hnever⟩ ⟨delta, hdelta, hpos, hneg⟩
    exact hnever (.inl ⟨delta, hdelta, hpos⟩) ⟨delta, hdelta, hpos.ne', by omega⟩
  · intro hdue
    refine ⟨⟨?_, ?_⟩, ?_⟩
    · rintro ⟨delta, hdelta, hzero, hless⟩
      refine ⟨delta, hdelta, ?_, by omega⟩
      by_contra hpos
      exact hdue ⟨delta, hdelta, by omega, by omega⟩
    · rintro ⟨delta, hdelta, hneg, hless⟩
      exact ⟨delta, hdelta, hneg.ne, by omega⟩
    · rintro hform ⟨delta, hdelta, -, hless⟩
      rcases hform with ⟨delta', hdelta', hpos⟩ | hmode
      · rw [hdelta] at hdelta'
        cases hdelta'
        exact hdue ⟨delta, hdelta, hpos, by omega⟩
      · have hcount := count_nonneg hmode hdelta
        omega

/-- The first batch after a confirmed sale of eleven units of its one. -/
def oversoldShelf : Db :=
  runAll onShelf [atShop (.sale { sellFirst with qtys := ["11"], confirm := "1" })]

/-- A change of the first batch by so many units. -/
def changeFirst (valueRaw : String) : CorrectionForm where
  code := "c"
  mode := "delta"
  valueRaw := valueRaw
  note := ""
  batchId := "xxxx"

/-- The batch that it changes. -/
theorem changeFirst_target (valueRaw : String) : ∃ product batch,
    correctionTarget Env.sample oversoldShelf (changeFirst valueRaw) = .ok (product, batch) ∧
      batch.quantity = -10 := by
  have hfound : (correctionTarget Env.sample oversoldShelf (changeFirst "")).toOption.any
      (fun target => target.2.quantity = -10) = true := by
    decide +kernel
  obtain ⟨⟨product, batch⟩, htarget, hquantity⟩ := toOption_any_iff.mp hfound
  refine ⟨product, batch, ?_, of_decide_eq_true hquantity⟩
  rw [← htarget]
  generalize oversoldShelf = found
  rfl

theorem changeFirst_delta {valueRaw : String} {delta : Int} (batch : Batch)
    (h : parseSigned (strip valueRaw) = some delta) :
    correctionDelta (changeFirst valueRaw) batch = .ok delta := by
  have hmode : ¬(changeFirst valueRaw).mode = "count" := by
    show ¬"delta" = "count"
    decide
  unfold correctionDelta
  rw [if_neg hmode, show (changeFirst valueRaw).valueRaw = valueRaw from rfl, h]

/-- No date was typed. -/
theorem changeFirst_day (valueRaw : String) (d : Db) :
    (parseOpDate Env.sample (changeFirst valueRaw).opDate).reply d = .ok (.ok none) := rfl

/-- Five units less in the oversold batch. -/
theorem correction_gate_less : ∃ batch : Batch, batch.quantity = -10 ∧
    (Asks Env.sample oversoldShelf (changeFirst "-5") ↔ OverRemoval (changeFirst "-5") batch) := by
  obtain ⟨product, batch, htarget, hquantity⟩ := changeFirst_target "-5"
  have hno : (changeFirst "-5").confirm ≠ "1" := by
    show "" ≠ "1"
    decide
  refine ⟨batch, hquantity,
    ((correction_gate_iff hno htarget (changeFirst_day _ _)).mpr ?_).1⟩
  rintro ⟨delta, hdelta, hpos, -⟩
  rw [@changeFirst_delta "-5" (-5) batch (by decide)] at hdelta
  cases hdelta
  exact absurd hpos (by decide)

/-- Five units more in it are held up. -/
theorem not_correction_gate : ¬∀ env d form product batch day, form.confirm ≠ "1" →
    correctionTarget env d form = .ok (product, batch) →
    (parseOpDate env form.opDate).reply d = .ok (.ok day) →
    (Asks env d form ↔ OverRemoval form batch) ∧
      (BringsStock form batch ∨ form.mode = "count" → ¬Asks env d form) := by
  intro h
  obtain ⟨product, batch, htarget, hquantity⟩ := changeFirst_target "5"
  have hmore : correctionDelta (changeFirst "5") batch = .ok 5 :=
    changeFirst_delta batch (by decide)
  have hno : (changeFirst "5").confirm ≠ "1" := by
    show "" ≠ "1"
    decide
  have hday := changeFirst_day "5" oversoldShelf
  refine (h Env.sample oversoldShelf (changeFirst "5") product batch none hno htarget hday).2
    (.inl ⟨5, hmore, by decide⟩) ((asks_iff hday).mpr ?_)
  refine (correctionCheck_warned_iff htarget).mpr ⟨hno, 5, hmore, by decide, ?_⟩
  omega

end MyOriShop
