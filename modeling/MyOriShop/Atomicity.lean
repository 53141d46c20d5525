import MyOriShop.Selling

/-!
# Atomicity: every write service writes all or nothing (`app/services/*.py`)

A service stages several rows, flushes some of them on the way and has its own `except` clauses.
However it ends, its unit of work ends whole.

* `Atomic x` says so of a service: it refused or warned, and nothing is changed and nothing is
  pending; or it raised, and nothing is committed; or it is done, nothing is pending, and what it
  wrote was committed at once.
* `answers_transferCheck` and the lemmas named alike: what a service's checks answer is a refusal
  or a warning.

Results:
* `services_atomic`: the eight write services are atomic.
-/

namespace MyOriShop

open Lib.Text Lib.IsoDate Lib.Transaction

variable {α β : Type} {env : Env} {w d : Db}

/-- A service whose unit of work ends whole, in every session with nothing pending. -/
structure Atomic (x : Act (Outcome α)) : Prop where
  no : ∀ s, s.working = s.committed → ∀ a, (x s).1 = .ok a → a.No →
    (x s).2.committed = s.committed ∧ (x s).2.working = s.committed ∧ (x s).2.commits = s.commits
  raised : ∀ s, s.working = s.committed → ∀ e, (x s).1 = .error e →
    (x s).2.committed = s.committed ∧ (x s).2.commits = s.commits
  done : ∀ s, s.working = s.committed → ∀ r, (x s).1 = .ok (.done r) →
    (x s).2.working = (x s).2.committed ∧
      ((x s).2.commits = s.commits + 1 ∨
        (x s).2.commits = s.commits ∧ (x s).2.committed = s.committed)

theorem atomic_of_closes {x : Act (Outcome α)} {Q : Db → Outcome α → Db → Prop}
    (h : ∀ d, Closes d d Outcome.No x (Q d)) : Atomic x := by
  constructor
  · intro s hs a ha hno
    have hend := h s.committed s rfl hs
    rw [ha] at hend
    cases hend with
    | refused _ _ _ hc hn hw => exact ⟨hc, hw, hn⟩
    | done _ _ hdone => exact absurd hno hdone
  · intro s hs e he
    have hend := h s.committed s rfl hs
    rw [he] at hend
    cases hend with
    | raised _ _ hc hn => exact ⟨hc, hn⟩
  · intro s hs r hr
    have hend := h s.committed s rfl hs
    rw [hr] at hend
    cases hend with
    | refused _ _ hno => exact hno.elim
    | done _ _ _ hw hn => exact ⟨hw, hn⟩

/-! ## What the checks answer -/

theorem answers_updateCheck {productId : String} {form : ProductForm} :
    Answers (updateCheck d productId form) := by
  unfold updateCheck
  split
  · simp only [refuse_bind]
    split_ifs
    · exact answers_refuse
    · exact answers_bind answers_stop fun _ => answers_ok
  · exact answers_refuse

theorem answers_writeoffCheck {form : WriteoffForm} {day : Except String (Option Date)} :
    Answers (writeoffCheck env d form day) := by
  unfold writeoffCheck
  refine answers_bind answers_stop fun _ => ?_
  split
  · split
    · simp only [warned_bind]
      split_ifs
      · exact answers_warned
      · exact answers_ok
    · exact answers_refuse
  · exact answers_refuse

theorem answers_correctionTarget {form : CorrectionForm} :
    Answers (correctionTarget env d form) := by
  unfold correctionTarget
  simp only [refuse_bind]
  split_ifs
  · exact answers_refuse
  · exact answers_refuse
  · split
    · split
      · exact answers_ok
      · exact answers_refuse
    · exact answers_refuse

theorem answers_correctionCheck {form : CorrectionForm} {day : Except String (Option Date)} :
    Answers (correctionCheck env d form day) := by
  unfold correctionCheck
  refine answers_bind answers_correctionTarget fun target => ?_
  refine answers_bind answers_stop fun _ => ?_
  simp only [refuse_bind, warned_bind]
  split_ifs
  · exact answers_refuse
  · exact answers_warned
  · exact answers_ok

theorem answers_transferTarget {form : TransferForm} : Answers (transferTarget env d form) := by
  unfold transferTarget
  split
  · split
    · split
      · split
        · exact answers_ok
        · exact answers_refuse
      · exact answers_refuse
    · exact answers_refuse
  · exact answers_refuse

theorem answers_transferCost {form : TransferForm}
    {dflt : Except (Outcome String) (Option Int)} (h : Answers dflt) :
    Answers (transferCost form dflt) := by
  unfold transferCost
  split_ifs
  · exact h
  · split
    · exact answers_ok
    · exact answers_refuse

theorem answers_transferMoney {form : TransferForm} {source : Batch} {crossCurrency : Bool} :
    Answers (transferMoney form source crossCurrency) := by
  unfold transferMoney
  split_ifs
  · refine answers_bind (answers_transferCost answers_refuse) fun cost => ?_
    exact answers_bind answers_stop fun _ => answers_ok
  · exact answers_bind (answers_transferCost answers_ok) fun cost => answers_ok

theorem answers_transferCheck {form : TransferForm} {day : Except String (Option Date)} :
    Answers (transferCheck env d form day) := by
  unfold transferCheck
  refine answers_bind answers_stop fun _ => answers_bind answers_transferTarget fun target => ?_
  refine answers_bind answers_transferMoney fun money => ?_
  simp only [refuse_bind, warned_bind]
  split_ifs
  · exact answers_refuse
  · exact answers_warned
  · exact answers_ok

theorem answers_manualCheck {form : ManualForm} {day : Except String (Option Date)} :
    Answers (manualCheck env d form day) := by
  unfold manualCheck
  refine answers_bind answers_stop fun _ => ?_
  simp only [refuse_bind, warned_bind]
  split_ifs <;> first | exact answers_refuse | exact answers_warned | exact answers_ok

/-! ## The services -/

/-- The program publishes nothing. -/
def Quiet (x : Act α) : Prop := ∀ w, Stages w x fun _ _ => True

theorem quiet_recordOperation (args : OperationArgs) : Quiet (recordOperation env args) :=
  fun _ => (stages_recordOperation args).mono fun _ _ _ => trivial

theorem quiet_pure (a : α) : Quiet (pure a : Act α) := fun _ => stages_pure trivial

theorem quiet_bind {x : Act β} {f : β → Act α} (hx : Quiet x) (hf : ∀ b, Quiet (f b)) :
    Quiet (x >>= f) := fun w => stages_bind (hx w) fun b w' _ => hf b w'

theorem quiet_utcnowIso : Quiet (utcnowIso env) :=
  fun _ => stages_utcnowIso.mono fun _ _ _ => trivial

theorem quiet_recordPriceChanges {old new : Product} (fs : List PriceField) :
    Quiet (recordPriceChanges env old new fs) := by
  induction fs with
  | nil => exact quiet_pure ()
  | cons f fs ih => exact quiet_bind (quiet_recordOperation _) fun _ => ih

theorem quiet_recordEdited {old : Product} {fields : List String} :
    Quiet (recordEdited env old fields) := by
  unfold recordEdited
  split
  · exact quiet_pure ()
  · exact quiet_bind (quiet_recordOperation _) fun _ => quiet_pure ()

theorem quiet_applyEntered {product : Product} (es : List (PriceField × Option Int)) :
    Quiet (applyEntered env product es) := by
  induction es with
  | nil => exact quiet_pure ()
  | cons e es ih =>
    unfold applyEntered
    split_ifs
    · exact ih
    · refine quiet_bind (quiet_recordOperation _) fun _ => quiet_bind quiet_utcnowIso fun stamp => ?_
      exact fun _ => stages_stage (ih _)

theorem quiet_receiptCard {form : ReceiptForm} : Quiet (receiptCard env form) := by
  intro w
  unfold receiptCard
  refine stages_read ?_
  split
  · exact quiet_bind (quiet_applyEntered _) (fun _ => quiet_pure _) w
  · refine quiet_bind quiet_utcnowIso (fun now w' => stages_stage ?_) w
    exact quiet_bind (quiet_recordOperation _) (fun _ => quiet_pure _) _

theorem quiet_receiptTarget {form : ReceiptForm} {product : Product} {day : Date} :
    Quiet (receiptTarget env form product day) := by
  intro w
  unfold receiptTarget
  refine stages_flush' fun _ => ?_
  split_ifs
  · refine quiet_bind quiet_utcnowIso (fun now w' => ?_) w
    exact stages_read (stages_stage (stages_pure trivial))
  · refine stages_read ?_
    split
    · exact stages_pure trivial
    · split_ifs <;> exact stages_pure trivial

/-- A product edit ends whole: the card, its audit rows and one commit. -/
theorem closes_updateProduct (productId : String) (form : ProductForm) :
    Closes d d Outcome.No (updateProduct env productId form) fun _ _ => True := by
  unfold updateProduct
  refine closes_read (closes_orAnswer answers_updateCheck fun old _ => ?_)
  dsimp only
  split_ifs
  · exact closes_idle id trivial
  · refine closes_bind (quiet_utcnowIso d) fun stamp w _ => closes_stage ?_
    refine closes_recover ?_ fun e y h => closes_rollbackWith h trivial
    refine closes_bind (quiet_recordPriceChanges _ _) fun _ w' _ => ?_
    exact closes_bind (quiet_recordEdited w') fun _ _ _ => closes_done fun _ => trivial

/-- A receipt ends whole: a new card, a new batch and the stock row in one commit. -/
theorem closes_registerReceipt (form : ReceiptForm) :
    Closes d d Outcome.No (registerReceipt env form) fun _ _ => True := by
  unfold registerReceipt
  refine closes_bind (stages_parseOpDate _) ?_
  rintro parsed _ rfl
  refine closes_read (closes_orAnswer answers_stop fun _ _ => ?_)
  refine closes_bind (stages_dayOrToday _) fun day w _ => ?_
  refine closes_bind (quiet_receiptCard w) fun product w _ => ?_
  refine closes_bind (quiet_receiptTarget w) fun target w _ => ?_
  cases target with
  | none => exact closes_rollback trivial
  | some batchId =>
    -- the stock row is recorded before the `try`: its errors go out, and nothing is committed
    refine closes_bind (quiet_recordOperation _ w) fun op w _ => ?_
    exact closes_recover (closes_done fun _ => trivial) fun e y h => closes_rollbackWith h trivial

theorem closes_recordOrFail (args : OperationArgs) :
    Closes d d Outcome.No (recordOrFail env args) fun _ d' => ∃ op, Recorded env args d op d' := by
  unfold recordOrFail recordOperationCommit
  refine closes_recover (closes_map ?_) fun e y h => closes_rollbackWith h trivial
  refine closes_bind (stages_recordOperation args) fun op w hop => closes_commit id fun _ => ?_
  exact ⟨op, hop⟩

/-- A write-off ends whole: one row of the checked batch. -/
theorem closes_registerWriteoff (form : WriteoffForm) :
    Closes d d Outcome.No (registerWriteoff env form) fun _ d' => ∃ parsed plan op,
      writeoffCheck env d form parsed = .ok plan ∧
        Recorded env (writeoffArgs form (opDate parsed) plan.1 plan.2) d op d' := by
  unfold registerWriteoff
  refine closes_bind (stages_parseOpDate _) ?_
  rintro parsed _ rfl
  refine closes_read (closes_orAnswer answers_writeoffCheck fun plan hplan => ?_)
  refine (closes_recordOrFail _).mono ?_
  rintro _ d' ⟨op, hop⟩
  exact ⟨parsed, plan, op, hplan, hop⟩

/-- A correction ends whole: one row of the checked batch. -/
theorem closes_registerCorrection (form : CorrectionForm) :
    Closes d d Outcome.No (registerCorrection env form) fun _ d' => ∃ parsed plan op,
      correctionCheck env d form parsed = .ok plan ∧
        Recorded env (correctionArgs form (opDate parsed) plan.1 plan.2.1 plan.2.2) d op d' := by
  unfold registerCorrection
  refine closes_bind (stages_parseOpDate _) ?_
  rintro parsed _ rfl
  refine closes_read (closes_orAnswer answers_correctionCheck fun plan hplan => ?_)
  refine (closes_recordOrFail _).mono ?_
  rintro _ d' ⟨op, hop⟩
  exact ⟨parsed, plan, op, hplan, hop⟩

/-- A transfer that is done: the new batch, and one row for each side. -/
structure Transferred (env : Env) (form : TransferForm) (d : Db) (plan : TransferPlan)
    (dest : Batch) (out into : Operation) (d' : Db) : Prop where
  check : ∃ parsed, transferCheck env d form parsed = .ok plan
  fresh : Fresh d dest.id
  batch : ∃ now, dest = transferBatch form plan dest.id now
  rows : ∃ w day, Recorded env (transferArgs plan plan.source.id (-parseQty form.qtyRaw) day)
      (d.insert .batch [dest]) out w ∧
    Recorded env (transferArgs plan dest.id (parseQty form.qtyRaw) day) w into d'
  ok : d'.Ok

/-- The rows of a transfer: the new batch, and one stock row for each side. -/
structure TransferRows (env : Env) (form : TransferForm) (d : Db) (plan : TransferPlan)
    (dest : Batch) (out into : Operation) (d' : Db) : Prop where
  fresh : Fresh d dest.id
  batch : ∃ now, dest = transferBatch form plan dest.id now
  rows : ∃ w day, Recorded env (transferArgs plan plan.source.id (-parseQty form.qtyRaw) day)
      (d.insert .batch [dest]) out w ∧
    Recorded env (transferArgs plan dest.id (parseQty form.qtyRaw) day) w into d'
  ok : d'.Ok

/-- The write step of a transfer, on whatever store it finds, is done whole or leaves nothing. -/
theorem closes_writeTransfer (form : TransferForm) (parsed : Except String (Option Date))
    (plan : TransferPlan) :
    Closes d d Outcome.No (writeTransfer env form parsed plan) fun _ d' => ∃ dest out into,
      TransferRows env form d plan dest out into d' := by
  unfold writeTransfer
  refine closes_read (closes_bind stages_utcnowIso ?_)
  rintro now w ⟨-, rfl⟩
  refine closes_stage (closes_bind (stages_dayOrToday _) ?_)
  rintro day _ ⟨-, rfl⟩
  refine closes_recover ?_ fun e y h => closes_rollbackWith h trivial
  refine closes_bind (stages_recordOperation _) fun out w' hout => ?_
  refine closes_bind (stages_recordOperation _) fun into d' hinto => closes_done fun hok => ?_
  exact ⟨transferBatch form plan (env.newId w.usedIds) now, out, into,
    (env.newId w.usedIds).2, ⟨now, rfl⟩, ⟨w', day, hout, hinto⟩, hok⟩

/-- A transfer ends whole: the new batch and both stock rows in one commit. -/
theorem closes_registerTransfer (form : TransferForm) :
    Closes d d Outcome.No (registerTransfer env form) fun _ d' => ∃ plan dest out into,
      Transferred env form d plan dest out into d' := by
  rw [registerTransfer_eq]
  refine closes_bind (stages_parseOpDate _) ?_
  rintro parsed _ rfl
  refine closes_read (closes_orAnswer answers_transferCheck fun plan hplan => ?_)
  refine (closes_writeTransfer form parsed plan).mono ?_
  rintro _ d' ⟨dest, out, into, h⟩
  exact ⟨plan, dest, out, into, ⟨parsed, hplan⟩, h.fresh, h.batch, h.rows, h.ok⟩

theorem closes_recordManualMovement (form : ManualForm) :
    Closes d d Outcome.No (recordManualMovement env form) fun _ _ => True := by
  unfold recordManualMovement
  refine closes_bind (stages_parseOpDate _) ?_
  rintro parsed _ rfl
  refine closes_read (closes_orAnswer answers_manualCheck fun args _ => ?_)
  refine closes_recover ?_ fun e y h => closes_rollbackWith h trivial
  exact closes_bind (stages_recordCashMovement args) fun m w _ => closes_done fun _ => trivial

/-- **The write services are atomic**, whatever their arguments, the database and the point at
which a row, a flush or the commit fails. -/
theorem services_atomic (env : Env) :
    (∀ form, Atomic (registerSale env form)) ∧ (∀ form, Atomic (registerReceipt env form)) ∧
      (∀ form, Atomic (registerReturn env form)) ∧ (∀ form, Atomic (registerTransfer env form)) ∧
      (∀ form, Atomic (registerWriteoff env form)) ∧
      (∀ form, Atomic (registerCorrection env form)) ∧
      (∀ productId form, Atomic (updateProduct env productId form)) ∧
      ∀ form, Atomic (recordManualMovement env form) :=
  ⟨fun form => atomic_of_closes fun _ => closes_registerSale form,
    fun form => atomic_of_closes fun _ => closes_registerReceipt form,
    fun form => atomic_of_closes fun _ => closes_registerReturn form,
    fun form => atomic_of_closes fun _ => closes_registerTransfer form,
    fun form => atomic_of_closes fun _ => closes_registerWriteoff form,
    fun form => atomic_of_closes fun _ => closes_registerCorrection form,
    fun productId form => atomic_of_closes fun _ => closes_updateProduct productId form,
    fun form => atomic_of_closes fun _ => closes_recordManualMovement form⟩

end MyOriShop
