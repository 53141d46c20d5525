import MyOriShop.Services.Stock
import MyOriShop.Services.Reference

/-!
# Runs: the local services one after another

A `Call` is one call of a local service with its form, a `Request` adds the outside of its request.
`Call.exec` runs the call in its own session: what it has not committed when it returns, refuses,
warns or raises is gone. `runAll` is a run of any length.

`stageOperations` stages any number of ledger rows in one transaction, as `record_operation` with
`commit=False` lets its callers do, and then commits or leaves.

Results:
* `Call.reaches`: a call reaches its end state by the writes of its scope. A transfer's typed expiry
  is the only text that has to be in `free`.
* `runAll_induct`: what every write preserves holds after every run.
-/

namespace MyOriShop

open Lib.Text Lib.IsoDate Lib.Transaction
open Relation (ReflTransGen)

/-- Stage ledger rows one after another. -/
def stageRows (env : Env) : List OperationArgs → Act Unit
  | [] => return ()
  | args :: rows => do
    let _ ← recordOperation env args
    stageRows env rows

/-- Any number of ledger rows in one transaction, committed or not. -/
def stageOperations (env : Env) (rows : List OperationArgs) (commits : Bool) : Act Unit := do
  stageRows env rows
  if commits then commit else Tx.rollback

/-- A call of a local service. -/
inductive Call where
  | createProduct (form : ProductForm)
  | updateProduct (productId : String) (form : ProductForm)
  | softDeleteProduct (productId : String)
  | quickDeleteProduct (productId : String)
  | restoreProduct (productId : String)
  | receipt (form : ReceiptForm)
  | updateBatch (batchId : String) (form : BatchForm)
  | sale (form : SaleForm)
  | saleReturn (form : ReturnForm)
  | writeoff (form : WriteoffForm)
  | correction (form : CorrectionForm)
  | transfer (form : TransferForm)
  | cash (form : ManualForm)
  | addWarehouse (form : WarehouseForm)
  | updateWarehouse (warehouseId : String) (form : WarehouseForm)
  | restoreWarehouse (warehouseId : String)
  | softDeleteWarehouse (warehouseId : String) (confirm : Bool)
  | createCustomer (form : CustomerForm)
  | updateCustomer (customerId : String) (form : CustomerForm)
  | addEntry (code name : String)
  | updateEntry (entryId code name : String)
  | staged (rows : List OperationArgs) (sound : ∀ args ∈ rows, args.Sound) (commits : Bool)

/-- The database after a call. -/
def Call.exec (env : Env) (d : Db) : Call → Db
  | .createProduct form => (MyOriShop.createProduct env form).exec d
  | .updateProduct id form => (MyOriShop.updateProduct env id form).exec d
  | .softDeleteProduct id => (MyOriShop.softDeleteProduct env id).exec d
  | .quickDeleteProduct id => (MyOriShop.quickDeleteProduct env id).exec d
  | .restoreProduct id => (MyOriShop.restoreProduct env id).exec d
  | .receipt form => (registerReceipt env form).exec d
  | .updateBatch id form => (MyOriShop.updateBatch env id form).exec d
  | .sale form => (registerSale env form).exec d
  | .saleReturn form => (registerReturn env form).exec d
  | .writeoff form => (registerWriteoff env form).exec d
  | .correction form => (registerCorrection env form).exec d
  | .transfer form => (registerTransfer env form).exec d
  | .cash form => (recordManualMovement env form).exec d
  | .addWarehouse form => (MyOriShop.addWarehouse env form).exec d
  | .updateWarehouse id form => (MyOriShop.updateWarehouse env id form).exec d
  | .restoreWarehouse id => (MyOriShop.restoreWarehouse env id).exec d
  | .softDeleteWarehouse id confirm => (MyOriShop.softDeleteWarehouse env id confirm).exec d
  | .createCustomer form => (MyOriShop.createCustomer env form).exec d
  | .updateCustomer id form => (MyOriShop.updateCustomer env id form).exec d
  | .addEntry code name => (MyOriShop.addEntry env code name).exec d
  | .updateEntry id code name => (MyOriShop.updateEntry env id code name).exec d
  | .staged rows _ commits => (stageOperations env rows commits).exec d

/-- A call together with the outside of its request. -/
structure Request where
  env : Env
  call : Call

/-- The database after a request. -/
def Request.exec (d : Db) (r : Request) : Db := r.call.exec r.env d

/-- The database after a run. -/
def runAll (d : Db) (run : List Request) : Db := run.foldl Request.exec d

/-- The expiry a call may store unparsed: the one typed into a transfer. -/
def Call.typedExpiry : Call → Option String
  | .transfer form => orNone (strip form.newExpiry)
  | _ => none

/-! ## What a run can do -/

variable {free : String → Prop}

theorem keeps_stageRows {env : Env} {rows : List OperationArgs}
    (h : ∀ args ∈ rows, args.Sound) : Keeps (Scoped (selling free True) env) (stageRows env rows) := by
  induction rows with
  | nil => exact fun w => keepsAt_pure w _
  | cons args rows ih =>
    refine fun w => keepsAt_bind (keeps_recordOperation (h args List.mem_cons_self) False.elim w) ?_
    exact fun _ => ih fun a ha => h a (List.mem_cons_of_mem _ ha)

theorem keeps_rollback {P : Db → Db → Prop} : Keeps P (Tx.rollback : Act Unit) := by
  rintro w s rfl hs
  exact ⟨.refl, .refl⟩

theorem keeps_stageOperations {env : Env} {rows : List OperationArgs} {commits : Bool}
    (h : ∀ args ∈ rows, args.Sound) :
    Keeps (Scoped (selling free True) env) (stageOperations env rows commits) := by
  refine fun w => keepsAt_bind (keeps_stageRows h w) fun _ w' => ?_
  cases commits with
  | true => exact keeps_commit _ _ w'
  | false => exact keeps_rollback w'

/-- The calls that touch sales: a sale, a return, and rows staged by hand. -/
def Call.sells : Call → Bool
  | .sale _ | .saleReturn _ | .staged .. => true
  | _ => false

/-- The calls that may change a warehouse's currency. -/
def Call.relabels : Call → Bool
  | .updateWarehouse .. => true
  | _ => false

/-- The scope of a call. -/
def Call.scope (free : String → Prop) (call : Call) : Scope :=
  ⟨free, call.sells = false, call.relabels = false⟩

/-- **A call** ends in a state the writes of its scope reach. -/
theorem Call.reaches (env : Env) (d : Db) (call : Call)
    (hfree : ∀ e ∈ call.typedExpiry, CanonicalDate e ∨ free e) :
    ReflTransGen (Scoped (call.scope free) env) d (call.exec env d) := by
  cases call with
  | createProduct => exact exec_reaches keeps_createProduct
  | updateProduct => exact exec_reaches keeps_updateProduct
  | softDeleteProduct => exact exec_reaches keeps_softDeleteProduct
  | quickDeleteProduct => exact exec_reaches keeps_quickDeleteProduct
  | restoreProduct => exact exec_reaches keeps_restoreProduct
  | receipt => exact exec_reaches keeps_registerReceipt
  | updateBatch => exact exec_reaches keeps_updateBatch
  | sale form =>
    have h : Call.scope free (.sale form) = selling free True := by
      simp [Call.scope, selling, Call.sells, Call.relabels]
    rw [h]
    exact exec_reaches keeps_registerSale
  | saleReturn form =>
    have h : Call.scope free (.saleReturn form) = selling free True := by
      simp [Call.scope, selling, Call.sells, Call.relabels]
    rw [h]
    exact exec_reaches keeps_registerReturn
  | writeoff => exact exec_reaches keeps_registerWriteoff
  | correction => exact exec_reaches keeps_registerCorrection
  | transfer form =>
    refine exec_reaches (keeps_registerTransfer fun hne => hfree _ ?_)
    simp [typedExpiry, orNone, hne]
  | cash => exact exec_reaches keeps_recordManualMovement
  | addWarehouse => exact exec_reaches keeps_addWarehouse
  | updateWarehouse =>
    exact exec_reaches (keeps_updateWarehouse (by simp [Call.scope, Call.relabels]))
  | restoreWarehouse => exact exec_reaches keeps_restoreWarehouse
  | softDeleteWarehouse => exact exec_reaches keeps_softDeleteWarehouse
  | createCustomer => exact exec_reaches keeps_createCustomer
  | updateCustomer => exact exec_reaches keeps_updateCustomer
  | addEntry => exact exec_reaches keeps_addEntry
  | updateEntry => exact exec_reaches keeps_updateEntry
  | staged rows sound commits =>
    have h : Call.scope free (.staged rows sound commits) = selling free True := by
      simp [Call.scope, selling, Call.sells, Call.relabels]
    rw [h]
    exact exec_reaches (keeps_stageOperations sound)

theorem Call.writes (env : Env) (d : Db) (call : Call)
    (hfree : ∀ e ∈ call.typedExpiry, CanonicalDate e ∨ free e) :
    ReflTransGen (Write free) d (call.exec env d) :=
  ReflTransGen.mono (fun _ _ h => h.write) _ _ (Call.reaches env d call hfree)

theorem runAll_reaches {d : Db} {run : List Request}
    (hfree : ∀ r ∈ run, ∀ e ∈ r.call.typedExpiry, CanonicalDate e ∨ free e) :
    ReflTransGen (Write free) d (runAll d run) := by
  induction run generalizing d with
  | nil => exact .refl
  | cons r run ih =>
    refine (Call.writes r.env d r.call (hfree r List.mem_cons_self)).trans (ih fun r' hr' => ?_)
    exact hfree r' (List.mem_cons_of_mem _ hr')

/-- **Invariants of runs**: what every write preserves holds after every run. -/
theorem runAll_induct {Inv : Db → Prop} {run : List Request} {d : Db}
    (hstep : ∀ d d', Write free d d' → Inv d → Inv d') (hd : Inv d)
    (hfree : ∀ r ∈ run, ∀ e ∈ r.call.typedExpiry, CanonicalDate e ∨ free e) :
    Inv (runAll d run) :=
  Writes.induct hstep (runAll_reaches hfree) hd

end MyOriShop
