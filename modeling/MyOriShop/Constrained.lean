import MyOriShop.Lib.Published
import MyOriShop.Runs

/-!
# Constrained: no service publishes what the constraints refuse

A service stages rows that may break a constraint: a code that another session has taken, a batch of
a product that is gone. The database refuses the commit, and the service has then published nothing.

Results:
* `Call.constrained`: a call of a local service, however it ends, leaves a database that satisfies
  its constraints.
* `runAll_ok`: so does every run of them.
-/

namespace MyOriShop

open Lib.Transaction Lib.IsoDate

variable {α β : Type} {env : Env} {d : Db}

/-! ## Small programs -/

theorem publishes_commit' : Publishes Db.Ok commit :=
  publishes_commit fun d h => (Db.check_iff d).mp h

theorem publishes_done {a : α} : Publishes Db.Ok (commit >>= fun _ => (pure a : Act α)) :=
  publishes_bind publishes_commit' fun _ => publishes_pure

theorem publishes_orRaise {r : Except Exn α} {k : α → Act β} (h : ∀ a, Publishes Db.Ok (k a)) :
    Publishes Db.Ok (orRaise r k) := by
  unfold orRaise
  split
  · exact h _
  · exact publishes_raise

theorem publishes_orAnswer {checked : Except (Outcome α) β} {write : β → Act (Outcome α)}
    (h : ∀ plan, Publishes Db.Ok (write plan)) : Publishes Db.Ok (orAnswer checked write) := by
  unfold orAnswer
  split
  · exact publishes_pure
  · exact h _

theorem publishes_rollbackWith {answer : α} {takes : Exn → Bool} {e : Exn} {y : Act α}
    (h : rollbackWith answer takes e = some y) : Publishes Db.Ok y := by
  unfold rollbackWith at h
  split_ifs at h
  cases h
  exact publishes_bind publishes_rollback fun _ => publishes_pure

theorem publishes_utcnowIso : Publishes Db.Ok (utcnowIso env) :=
  publishes_bind publishes_tick fun _ => publishes_pure

theorem publishes_localToday : Publishes Db.Ok (localToday env) :=
  publishes_bind publishes_tick fun _ => publishes_pure

theorem publishes_dayOrToday (day : Option Date) : Publishes Db.Ok (dayOrToday env day) := by
  cases day with
  | some day => exact publishes_pure
  | none => exact publishes_localToday

theorem publishes_parseOpDate (raw : String) : Publishes Db.Ok (parseOpDate env raw) := by
  unfold parseOpDate
  split_ifs
  · exact publishes_pure
  · split
    · exact publishes_pure
    · split_ifs
      · exact publishes_pure
      · refine publishes_bind publishes_localToday fun today => ?_
        split_ifs <;> exact publishes_pure

theorem publishes_recordOperation (args : OperationArgs) :
    Publishes Db.Ok (recordOperation env args) := by
  refine publishes_orRaise fun _ => publishes_bind publishes_flush fun _ => ?_
  refine publishes_bind publishes_read fun _ => ?_
  refine publishes_orRaise fun _ => publishes_orRaise fun _ => ?_
  refine publishes_bind publishes_utcnowIso fun _ => ?_
  refine publishes_bind (publishes_dayOrToday _) fun _ => ?_
  refine publishes_bind publishes_utcnowIso fun _ => ?_
  exact publishes_bind publishes_stage fun _ => publishes_pure

theorem publishes_recordOperationCommit (args : OperationArgs) :
    Publishes Db.Ok (recordOperationCommit env args) :=
  publishes_bind (publishes_recordOperation args) fun _ => publishes_done

theorem publishes_recordCashMovement (args : CashArgs) :
    Publishes Db.Ok (recordCashMovement env args) := by
  refine publishes_orRaise fun _ => publishes_bind publishes_flush fun _ => ?_
  refine publishes_bind publishes_utcnowIso fun _ => ?_
  refine publishes_bind (publishes_dayOrToday _) fun _ => ?_
  refine publishes_bind publishes_read fun _ => ?_
  exact publishes_bind publishes_stage fun _ => publishes_pure

theorem publishes_editAndCommit (k : Kind) (id : String) (f : Row k → Row k) :
    Publishes Db.Ok (editAndCommit k id f) :=
  publishes_bind publishes_stage fun _ => publishes_commit'

/-- Rows recorded one after another. -/
theorem publishes_each {rows : List β} {record : List β → Act Unit} {args : β → OperationArgs}
    (hnil : record [] = pure ())
    (hcons : ∀ row rows, record (row :: rows) =
      (recordOperation env (args row) >>= fun _ => record rows)) :
    Publishes Db.Ok (record rows) := by
  induction rows with
  | nil =>
    rw [hnil]
    exact publishes_pure
  | cons row rows ih =>
    rw [hcons]
    exact publishes_bind (publishes_recordOperation _) fun _ => ih

/-! ## Products and receipts -/

theorem publishes_createProduct (form : ProductForm) :
    Publishes Db.Ok (createProduct env form) := by
  refine publishes_bind publishes_read fun _ => publishes_orAnswer fun _ => ?_
  refine publishes_bind publishes_utcnowIso fun _ => publishes_bind publishes_stage fun _ => ?_
  refine publishes_recover ?_ fun e y h => publishes_rollbackWith h
  exact publishes_bind (publishes_recordOperationCommit _) fun _ => publishes_pure

theorem publishes_updateProduct (id : String) (form : ProductForm) :
    Publishes Db.Ok (updateProduct env id form) := by
  refine publishes_bind publishes_read fun _ => publishes_orAnswer fun old => ?_
  dsimp only
  split_ifs
  · exact publishes_pure
  · refine publishes_bind publishes_utcnowIso fun _ => publishes_bind publishes_stage fun _ => ?_
    refine publishes_recover ?_ fun e y h => publishes_rollbackWith h
    refine publishes_bind (publishes_each rfl fun _ _ => rfl) fun _ => ?_
    refine publishes_bind ?_ fun _ => publishes_done
    unfold recordEdited
    split
    · exact publishes_pure
    · exact publishes_bind (publishes_recordOperation _) fun _ => publishes_pure

theorem publishes_stampProduct (id : String) (deleted : Bool) :
    Publishes Db.Ok (stampProduct env id deleted) :=
  publishes_bind publishes_utcnowIso fun _ =>
    publishes_bind publishes_stage fun _ => publishes_commit'

theorem publishes_softDeleteProduct (id : String) :
    Publishes Db.Ok (softDeleteProduct env id) := by
  refine publishes_bind publishes_read fun _ => ?_
  split
  · exact publishes_pure
  · split_ifs
    · exact publishes_pure
    · exact publishes_stampProduct _ _

theorem publishes_quickDeleteProduct (id : String) :
    Publishes Db.Ok (quickDeleteProduct env id) := by
  refine publishes_bind publishes_read fun _ => ?_
  split
  · exact publishes_pure
  · split_ifs
    · exact publishes_pure
    · exact publishes_pure
    · exact publishes_bind (publishes_stampProduct _ _) fun _ => publishes_pure

theorem publishes_restoreProduct (id : String) : Publishes Db.Ok (restoreProduct env id) := by
  refine publishes_bind publishes_read fun _ => ?_
  split
  · exact publishes_pure
  · split_ifs
    · exact publishes_pure
    · exact publishes_stampProduct _ _

theorem publishes_applyEntered (product : Product) (es : List (PriceField × Option Int)) :
    Publishes Db.Ok (applyEntered env product es) := by
  induction es with
  | nil => exact publishes_pure
  | cons e es ih =>
    unfold applyEntered
    split_ifs
    · exact ih
    · refine publishes_bind (publishes_recordOperation _) fun _ => ?_
      refine publishes_bind publishes_utcnowIso fun _ => ?_
      exact publishes_bind publishes_stage fun _ => ih

theorem publishes_receiptCard (form : ReceiptForm) : Publishes Db.Ok (receiptCard env form) := by
  refine publishes_bind publishes_read fun _ => ?_
  split
  · exact publishes_bind (publishes_applyEntered _ _) fun _ => publishes_pure
  · refine publishes_bind publishes_utcnowIso fun _ => publishes_bind publishes_stage fun _ => ?_
    exact publishes_bind (publishes_recordOperation _) fun _ => publishes_pure

theorem publishes_receiptTarget (form : ReceiptForm) (product : Product) (day : Date) :
    Publishes Db.Ok (receiptTarget env form product day) := by
  refine publishes_bind publishes_flush fun _ => ?_
  split_ifs
  · refine publishes_bind publishes_utcnowIso fun _ => publishes_bind publishes_read fun _ => ?_
    exact publishes_bind publishes_stage fun _ => publishes_pure
  · refine publishes_bind publishes_read fun _ => ?_
    split
    · exact publishes_pure
    · split_ifs <;> exact publishes_pure

theorem publishes_registerReceipt (form : ReceiptForm) :
    Publishes Db.Ok (registerReceipt env form) := by
  refine publishes_bind (publishes_parseOpDate _) fun _ => publishes_bind publishes_read fun _ => ?_
  refine publishes_orAnswer fun _ => publishes_bind (publishes_dayOrToday _) fun day => ?_
  refine publishes_bind (publishes_receiptCard form) fun product => ?_
  refine publishes_bind (publishes_receiptTarget form product day) fun target => ?_
  split
  · exact publishes_bind publishes_rollback fun _ => publishes_pure
  · refine publishes_bind (publishes_recordOperation _) fun _ => ?_
    exact publishes_recover publishes_done fun e y h => publishes_rollbackWith h

theorem publishes_updateBatch (id : String) (form : BatchForm) :
    Publishes Db.Ok (updateBatch env id form) := by
  refine publishes_bind publishes_read fun _ => publishes_orAnswer fun _ => ?_
  refine publishes_bind publishes_utcnowIso fun _ => ?_
  exact publishes_bind publishes_stage fun _ => publishes_done

/-! ## Sales, returns and stock -/

theorem publishes_registerSale (form : SaleForm) : Publishes Db.Ok (registerSale env form) := by
  refine publishes_bind (publishes_parseOpDate _) fun _ => publishes_bind publishes_read fun _ => ?_
  refine publishes_orAnswer fun plan => publishes_bind (publishes_dayOrToday _) fun _ => ?_
  refine publishes_bind publishes_utcnowIso fun _ => publishes_bind publishes_stage fun _ => ?_
  refine publishes_recover ?_ fun e y h => publishes_rollbackWith h
  refine publishes_bind (publishes_each rfl fun _ _ => rfl) fun _ => ?_
  exact publishes_bind (publishes_recordCashMovement _) fun _ => publishes_done

theorem publishes_resolveOrCreate (origin : Operation) :
    Publishes Db.Ok (resolveOrCreateReturnBatchId env origin) := by
  unfold resolveOrCreateReturnBatchId
  split
  · exact publishes_pure
  · refine publishes_bind publishes_read fun _ => ?_
    split
    · exact publishes_pure
    · refine publishes_bind publishes_utcnowIso fun _ => publishes_bind publishes_stage fun _ => ?_
      exact publishes_bind publishes_flush fun _ => publishes_pure

theorem publishes_settleReturn {saleId batchId : String} {debit : Int} {day : Date}
    {answer : Outcome (Operation × Int)} :
    Publishes Db.Ok (settleReturn env saleId debit batchId day answer) := by
  unfold settleReturn
  split_ifs
  · exact publishes_done
  · refine publishes_bind publishes_read fun _ => ?_
    split
    · exact publishes_bind publishes_rollback fun _ => publishes_pure
    · exact publishes_bind (publishes_recordCashMovement _) fun _ => publishes_done

theorem publishes_registerReturn (form : ReturnForm) :
    Publishes Db.Ok (registerReturn env form) := by
  refine publishes_bind publishes_read fun _ => publishes_orAnswer ?_
  rintro ⟨origin, saleId, remaining⟩
  refine publishes_bind (publishes_parseOpDate _) fun _ => publishes_orAnswer fun _ => ?_
  refine publishes_bind (publishes_dayOrToday _) fun _ => publishes_recover ?_ fun e y h => ?_
  · refine publishes_bind (publishes_resolveOrCreate origin) fun _ => ?_
    exact publishes_bind (publishes_recordOperation _) fun _ => publishes_settleReturn
  · unfold returnHandler at h
    split_ifs at h
    · exact publishes_rollbackWith h
    · exact publishes_rollbackWith h

theorem publishes_recordOrFail (args : OperationArgs) :
    Publishes Db.Ok (recordOrFail env args) := by
  refine publishes_recover ?_ fun e y h => publishes_rollbackWith h
  exact publishes_bind (publishes_recordOperationCommit _) fun _ => publishes_pure

theorem publishes_registerTransfer (form : TransferForm) :
    Publishes Db.Ok (registerTransfer env form) := by
  refine publishes_bind (publishes_parseOpDate _) fun _ => publishes_bind publishes_read fun _ => ?_
  refine publishes_orAnswer fun _ => publishes_bind publishes_utcnowIso fun _ => ?_
  refine publishes_bind publishes_stage fun _ => publishes_bind (publishes_dayOrToday _) fun _ => ?_
  refine publishes_recover ?_ fun e y h => publishes_rollbackWith h
  refine publishes_bind (publishes_recordOperation _) fun _ => ?_
  exact publishes_bind (publishes_recordOperation _) fun _ => publishes_done

theorem publishes_recordManualMovement (form : ManualForm) :
    Publishes Db.Ok (recordManualMovement env form) := by
  refine publishes_bind (publishes_parseOpDate _) fun _ => publishes_bind publishes_read fun _ => ?_
  refine publishes_orAnswer fun _ => publishes_recover ?_ fun e y h => publishes_rollbackWith h
  exact publishes_bind (publishes_recordCashMovement _) fun _ => publishes_done

/-! ## Reference data -/

theorem publishes_stampWarehouse (id : String) (deleted : Bool) :
    Publishes Db.Ok (stampWarehouse env id deleted) :=
  publishes_bind publishes_utcnowIso fun _ => publishes_editAndCommit _ _ _

theorem publishes_softDeleteWarehouse (id : String) (confirm : Bool) :
    Publishes Db.Ok (softDeleteWarehouse env id confirm) := by
  refine publishes_bind publishes_read fun _ => ?_
  split
  · exact publishes_pure
  · exact publishes_bind (publishes_stampWarehouse _ _) fun _ => publishes_pure

theorem publishes_restoreWarehouse (id : String) :
    Publishes Db.Ok (restoreWarehouse env id) := by
  refine publishes_bind publishes_read fun _ => ?_
  split
  · exact publishes_pure
  · split_ifs
    · exact publishes_pure
    · exact publishes_stampWarehouse _ _

/-- A form that is checked and written on a row. -/
theorem publishes_edit {errors : Errors} {k : Kind} {id : String} {f : String → Row k → Row k}
    {a : α} : Publishes Db.Ok (orAnswer errors.stop fun _ => do
      let stamp ← utcnowIso env
      editAndCommit k id (f stamp)
      return (.done a : Outcome α)) :=
  publishes_orAnswer fun _ => publishes_bind publishes_utcnowIso fun _ =>
    publishes_bind (publishes_editAndCommit _ _ _) fun _ => publishes_pure

theorem publishes_addEntry (code name : String) : Publishes Db.Ok (addEntry env code name) := by
  refine publishes_bind publishes_read fun _ => publishes_orAnswer fun _ => ?_
  refine publishes_bind publishes_utcnowIso fun _ => publishes_bind publishes_stage fun _ => ?_
  exact publishes_recover publishes_done fun e y h => publishes_rollbackWith h

theorem publishes_updateEntry (id code name : String) :
    Publishes Db.Ok (updateEntry env id code name) := by
  refine publishes_bind publishes_read fun _ => publishes_orAnswer fun _ => ?_
  refine publishes_bind publishes_utcnowIso fun _ => ?_
  refine publishes_recover ?_ fun e y h => publishes_rollbackWith h
  exact publishes_bind (publishes_editAndCommit _ _ _) fun _ => publishes_pure

/-! ## Calls and runs -/

/-- **A call** leaves a database that satisfies its constraints. -/
theorem Call.constrained (env : Env) (call : Call) (hd : d.Ok) : (call.exec env d).Ok := by
  cases call with
  | createProduct form => exact exec_publishes (publishes_createProduct form) hd
  | updateProduct id form => exact exec_publishes (publishes_updateProduct id form) hd
  | softDeleteProduct id => exact exec_publishes (publishes_softDeleteProduct id) hd
  | quickDeleteProduct id => exact exec_publishes (publishes_quickDeleteProduct id) hd
  | restoreProduct id => exact exec_publishes (publishes_restoreProduct id) hd
  | receipt form => exact exec_publishes (publishes_registerReceipt form) hd
  | updateBatch id form => exact exec_publishes (publishes_updateBatch id form) hd
  | sale form => exact exec_publishes (publishes_registerSale form) hd
  | saleReturn form => exact exec_publishes (publishes_registerReturn form) hd
  | writeoff form =>
    refine exec_publishes (publishes_bind (publishes_parseOpDate _) fun _ => ?_) hd
    exact publishes_bind publishes_read fun _ =>
      publishes_orAnswer fun _ => publishes_recordOrFail _
  | correction form =>
    refine exec_publishes (publishes_bind (publishes_parseOpDate _) fun _ => ?_) hd
    exact publishes_bind publishes_read fun _ =>
      publishes_orAnswer fun _ => publishes_recordOrFail _
  | transfer form => exact exec_publishes (publishes_registerTransfer form) hd
  | cash form => exact exec_publishes (publishes_recordManualMovement form) hd
  | addWarehouse form =>
    refine exec_publishes (publishes_orAnswer fun _ => publishes_bind publishes_utcnowIso ?_) hd
    exact fun _ => publishes_bind publishes_read fun _ =>
      publishes_bind publishes_stage fun _ => publishes_done
  | updateWarehouse id form =>
    refine exec_publishes (publishes_bind publishes_read fun _ => ?_) hd
    refine publishes_orAnswer fun _ => publishes_bind publishes_utcnowIso fun _ => ?_
    exact publishes_bind (publishes_editAndCommit _ _ _) fun _ => publishes_pure
  | restoreWarehouse id => exact exec_publishes (publishes_restoreWarehouse id) hd
  | softDeleteWarehouse id confirm =>
    exact exec_publishes (publishes_softDeleteWarehouse id confirm) hd
  | createCustomer form =>
    refine exec_publishes (publishes_orAnswer fun _ => publishes_bind publishes_utcnowIso ?_) hd
    exact fun _ => publishes_bind publishes_read fun _ =>
      publishes_bind publishes_stage fun _ => publishes_done
  | updateCustomer id form =>
    exact exec_publishes (publishes_bind publishes_read fun _ => publishes_edit) hd
  | addEntry code name => exact exec_publishes (publishes_addEntry code name) hd
  | updateEntry id code name => exact exec_publishes (publishes_updateEntry id code name) hd
  | staged rows sound commits =>
    refine exec_publishes (publishes_bind (publishes_each rfl fun _ _ => rfl) fun _ => ?_) hd
    split_ifs
    · exact publishes_commit'
    · exact publishes_rollback

/-- **A run** keeps the constraints of its database. -/
theorem runAll_ok {run : List Request} (hd : d.Ok) : (runAll d run).Ok := by
  induction run generalizing d with
  | nil => exact hd
  | cons r run ih => exact ih (Call.constrained r.env r.call hd)

/-- The database after a run from the empty one. -/
def afterRun (run : List Request) : Database := ⟨runAll {} run, runAll_ok (by decide)⟩

end MyOriShop
