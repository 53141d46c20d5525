import MyOriShop.Lib.Fallible
import MyOriShop.Writes

/-!
# Finance: the single write path for cash (`app/services/finance.py`)

* `recordCashMovement` is `record_cash_movement`: the two allow-lists, then one appended row.
* `recordManualMovement` is `record_manual_movement`: direction from the category, currency,
  amount, business date, the mandatory comment, the negative-balance warning, one row.
* `computeBalance` is `compute_balance`, the live sum of one currency.

Results:
* `keeps_recordCashMovement`, `keeps_recordManualMovement`: only an appended cash row is written.
-/

namespace MyOriShop

open Lib.Text Lib.IsoDate Lib.Sums Lib.Fallible Lib.Transaction

/-- `CASH_BUCKETS["withdrawal"]`. -/
def withdrawalCategories : List String :=
  ["withdrawal_supplier", "withdrawal_salary", "withdrawal_rent", "withdrawal_utilities",
    "withdrawal_other"]

/-- `CASH_BUCKETS["deposit"]`. -/
def depositCategories : List String := ["deposit_opening", "deposit_correction"]

/-- The keys of `CASH_CATEGORIES`. -/
def cashCategories : List String := ["sale", "return"] ++ withdrawalCategories ++ depositCategories

/-- `_NOTE_REQUIRED_CATEGORIES`. -/
def noteRequiredCategories : List String := ["withdrawal_other", "deposit_correction"]

/-- The keyword arguments of `record_cash_movement`. -/
structure CashArgs where
  category : String
  amountCents : Int
  currency : String := defaultCurrency
  saleId : Option String := none
  note : Option String := none
  businessDate : Option Date := none

/-- The two allow-lists of `record_cash_movement`. -/
def cashGuard (args : CashArgs) : Except Exn Unit :=
  if args.category ∉ cashCategories then
    .error (.value s!"unknown cash category: \x27{args.category}\x27")
  else if args.currency ∉ currencies then
    .error (.value s!"unknown currency: \x27{args.currency}\x27")
  else .ok ()

/-- The row `record_cash_movement` appends. -/
def newCashMovement (env : Env) (db : Db) (args : CashArgs) (createdAt : String) (day : Date) :
    CashMovement where
  id := env.newId db.usedIds
  category := args.category
  amountCents := args.amountCents
  currency := args.currency
  note := args.note
  saleId := args.saleId
  reversesMovementId := none
  authorId := env.authorFields.1
  deviceId := env.deviceId
  seq := nextSeq (db.cashMovements.map fun m => (m.deviceId, m.seq)) env.deviceId
  createdAt := createdAt
  businessDate := some day.isoformat
  createdBy := env.authorFields.2
  syncedAt := none

/-- `record_cash_movement(..., commit=False)`. -/
def recordCashMovement (env : Env) (args : CashArgs) : Act CashMovement :=
  orRaise (cashGuard args) fun _ => do
    flush
    let createdAt ← utcnowIso env
    let day ← dayOrToday env args.businessDate
    let db ← Tx.read
    let mv := newCashMovement env db args createdAt day
    Tx.stage fun d => d.insert .cashMovement [mv]
    return mv

/-- `compute_balance` of one currency. -/
def computeBalance (movements : List CashMovement) (currency : String) : Int :=
  sumOver CashMovement.amountCents (fun m => m.currency = currency) movements

/-- `finance.SAVE_FAILED_ERROR`, the same text in every service. -/
def saveFailedError : String := "Не удалось сохранить. Попробуйте ещё раз."

/-- `except (IntegrityError, ValueError): session.rollback(); return answer`. -/
def rollbackWith {α : Type} (answer : α) (takes : Exn → Bool) (e : Exn) : Option (Act α) :=
  if takes e then some (do Tx.rollback; return answer) else none

/-- `(IntegrityError, ValueError)`. -/
def integrityOrValue (e : Exn) : Bool := e = .integrity || e.isValueError

/-- The form of a manual movement. -/
structure ManualForm where
  category : String
  amountRaw : String
  note : String
  currency : String := ""
  confirm : String := ""
  opDate : String := ""

/-- The checks of `record_manual_movement`, up to the row it then writes. -/
def manualCheck (env : Env) (db : Db) (form : ManualForm) (day : Except String (Option Date)) :
    Except (Outcome CashMovement) CashArgs := do
  let isWithdrawal := decide (form.category ∈ withdrawalCategories)
  let isDeposit := decide (form.category ∈ depositCategories)
  let currency := cleanCurrency env.upper form.currency
  let parsed := (toCents form.amountRaw).getD 0
  let errors := Errors.putIf [] (!isWithdrawal && !isDeposit) "category" "Выберите категорию."
  let errors := errors.putIf currency.isNone "currency" "Выберите валюту из списка."
  let errors := errors.putIf (decide (parsed ≤ 0)) "amount" "Введите сумму больше нуля."
  (errors.putDate day).stop
  let code := currency.getD defaultCurrency
  let amount := if isWithdrawal then -parsed else parsed
  if form.category ∈ noteRequiredCategories ∧ strip form.note = "" then
    refuse "note" "Укажите комментарий."
  let balance := computeBalance db.cashMovements code
  if isWithdrawal ∧ form.confirm ≠ "1" ∧ balance + amount < 0 then
    throw (.warned { negativeBalance := some (balance, -amount) })
  return { category := form.category, amountCents := amount, currency := code,
           note := orNone (strip form.note), businessDate := opDate day }

/-- `record_manual_movement`. -/
def recordManualMovement (env : Env) (form : ManualForm) : Act (Outcome CashMovement) := do
  let day ← parseOpDate env form.opDate
  let db ← Tx.read
  orAnswer (manualCheck env db form day) fun args =>
    Tx.recover
      (do
        let mv ← recordCashMovement env args
        commit
        return .done mv)
      (rollbackWith (.refused [("form", saveFailedError)]) integrityOrValue)

/-! ## What is written -/

variable {sc : Scope}

variable {P : Db → Db → Prop}

theorem keeps_rollbackWith {α : Type} {answer : α} {takes : Exn → Bool} {e : Exn} {y : Act α}
    (h : rollbackWith answer takes e = some y) : Keeps P y := by
  unfold rollbackWith at h
  split_ifs at h
  cases h
  exact keeps_rollback_bind fun w => keepsAt_pure w _

/-- A call of `record_cash_movement` for a row that is part of no sale. -/
def CashArgs.Plain (args : CashArgs) : Prop :=
  args.category ≠ "sale" ∧ args.category ≠ "return" ∧ args.saleId = none

theorem keeps_recordCashMovement {env : Env} {args : CashArgs} (hplain : sc.plain → args.Plain) :
    Keeps (Scoped sc env) (recordCashMovement env args) := by
  intro w
  unfold recordCashMovement
  refine keepsAt_orRaise fun _ _ => keepsAt_flush' fun _ => ?_
  refine keepsAt_utcnowIso fun createdAt hcreated => keepsAt_dayOrToday fun day => ?_
  refine keepsAt_read (keepsAt_stage ?_ (keepsAt_pure _ _))
  exact .cash _ (env.newId w.usedIds).2 ⟨hcreated, ⟨_, rfl, day, rfl⟩, rfl⟩ hplain ⟨rfl, rfl⟩

/-- A manual movement is part of no sale. -/
theorem manualCheck_plain {env : Env} {db : Db} {form : ManualForm}
    {day : Except String (Option Date)} {args : CashArgs}
    (h : manualCheck env db form day = .ok args) : args.Plain := by
  unfold manualCheck at h
  obtain ⟨_, hstop, h⟩ := bind_ok_iff.mp h
  have hbucket := Errors.stop_ok_iff.mp hstop
  simp only [Errors.putDate_eq_nil, Errors.putIf_eq_nil] at hbucket
  have hargs : args.category = form.category ∧ args.saleId = none := by
    dsimp only at h
    split_ifs at h <;> cases h <;> exact ⟨rfl, rfl⟩
  have hmem : form.category ∈ withdrawalCategories ++ depositCategories := by
    rw [List.mem_append]
    by_contra hnone
    simp [not_or] at hnone
    simp [hnone] at hbucket
  rw [← hargs.1] at hmem
  refine ⟨fun heq => ?_, fun heq => ?_, hargs.2⟩
  · rw [heq] at hmem
    exact absurd hmem (by decide)
  · rw [heq] at hmem
    exact absurd hmem (by decide)

theorem keeps_recordManualMovement {env : Env} {form : ManualForm} :
    Keeps (Scoped sc env) (recordManualMovement env form) := by
  intro w
  unfold recordManualMovement
  refine keepsAt_bind_still (still_parseOpDate env _) fun day => keepsAt_read ?_
  refine keepsAt_orAnswer fun args hargs => keepsAt_recover ?_ fun e y h => keeps_rollbackWith h
  refine keepsAt_bind (keeps_recordCashMovement (fun _ => manualCheck_plain hargs) w) fun mv w' => ?_
  exact keepsAt_bind (keeps_commit _ _ w') fun _ w'' => keepsAt_pure w'' _

end MyOriShop
