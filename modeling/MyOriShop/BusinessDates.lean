import MyOriShop.Lib.IsoOrder
import MyOriShop.Upkeep

/-!
# BusinessDates: the dates of the rows that are written (`app/services/*.py`)

A service takes the business date from its form, or the local day from the clock. The clock is read
anew for the check of the date, for the default, for `created_at` and by the two write paths.

* `RowDated`: the date of a row against the reading that is its `created_at` and the next one.
* `BusinessDates env d call d'`: the rows a call has added, and what they share.

Results:
* `upkept_dated`: the single writes of the services keep the new rows dated.
* `Call.oneDay`: the movement rows of a sale, a return or a transfer are of one day.
* `Call.refused`: a date that `parse_op_date` refuses writes nothing.
* `call_businessDates`: all of it, for every call of a service.
* `not_businessDates`: a clock before the year 2000, or one set back in the middle of a call, takes
  a date out of its bounds.
-/

namespace MyOriShop

open Lib.Text Lib.IsoDate Lib.Transaction Lib.Fallible

variable {env : Env} {d d' w : Db} {n : Nat}

/-- No local day read up to the reading `n` is before the floor. -/
def Env.AboveFloor (env : Env) (n : Nat) : Prop := ∀ j ≤ n, opDateFloorYear ≤ (env.today j).year

/-- The local days read up to the reading `n` do not go back. -/
def Env.Forward (env : Env) (n : Nat) : Prop :=
  ∀ i j, i ≤ j → j ≤ n → env.today i ≤ env.today j

/-- The date of a row: a canonical one, not before the floor and not after the local day that is
read when the row is written, and that day for an audit row. -/
structure RowDated (env : Env) (audit : Prop) (createdAt : String) (day : Date) (n : Nat) :
    Prop where
  written : createdAt = (env.clock n).isoformat
  floor : env.AboveFloor (n + 1) → opDateFloorYear ≤ day.year
  today : env.Forward (n + 1) → day ≤ env.today (n + 1)
  real : audit → day = env.today (n + 1)

/-- A ledger row that was added. -/
def OperationDated (env : Env) (o : Operation) : Prop :=
  ∃ day n, o.businessDate = some day.isoformat ∧
    RowDated env (o.type ∉ stockAffectingTypes) o.createdAt day n

/-- A cash row that was added. -/
def CashDated (env : Env) (m : CashMovement) : Prop :=
  ∃ day n, m.businessDate = some day.isoformat ∧ RowDated env False m.createdAt day n

/-- The text of a call's date field. -/
def Call.opDateText : Call → Option String
  | .receipt form => some form.opDate
  | .sale form => some form.opDate
  | .saleReturn form => some form.opDate
  | .writeoff form => some form.opDate
  | .correction form => some form.opDate
  | .transfer form => some form.opDate
  | .cash form => some form.opDate
  | _ => none

/-- The calls that write several movement rows. -/
def Call.Several : Call → Prop
  | .sale _ | .saleReturn _ | .transfer _ => True
  | _ => False

/-- What a call has written, as to the dates. -/
structure BusinessDates (env : Env) (d : Db) (call : Call) (d' : Db) : Prop where
  rows : ∃ ops ms, d'.operations = d.operations ++ ops ∧
    d'.cashMovements = d.cashMovements ++ ms ∧ (∀ o ∈ ops, OperationDated env o) ∧
      (∀ m ∈ ms, CashDated env m) ∧
        (call.Several → ∃ day, (∀ o ∈ ops, o.businessDate = some day) ∧
          ∀ m ∈ ms, m.businessDate = some day)
  refused : ∀ raw ∈ call.opDateText, ∀ message, opDateAt env 0 raw = .error message → d' = d

/-! ## The dates of the rows -/

/-- A day that the program has is within the bounds. -/
theorem Env.HasDay.dated {day : Date} {createdAt : String} {audit : Prop}
    (h : env.HasDay (n + 2) day) (hwritten : createdAt = (env.clock n).isoformat)
    (hreal : audit → day = env.today (n + 1)) : RowDated env audit createdAt day n := by
  obtain ⟨j, hj, hday⟩ := h
  have hj : j ≤ n + 1 := Nat.le_of_lt_succ hj
  refine ⟨hwritten, fun hfloor => ?_, fun hforward => ?_, hreal⟩
  · rcases hday with rfl | ⟨hyear, -⟩
    · exact hfloor j hj
    · exact hyear
  · have hnext := hforward j (n + 1) hj le_rfl
    rcases hday with rfl | ⟨-, hpast⟩
    · exact hnext
    · exact (isoformat_le_iff.mp (not_lt.mp hpast)).trans hnext

/-- The rows added since `d` are dated. -/
def Dated (env : Env) (d w : Db) : Prop :=
  ∃ ops ms, w.operations = d.operations ++ ops ∧ w.cashMovements = d.cashMovements ++ ms ∧
    (∀ o ∈ ops, OperationDated env o) ∧ ∀ m ∈ ms, CashDated env m

theorem Dated.refl (env : Env) (d : Db) : Dated env d d :=
  ⟨[], [], (List.append_nil _).symm, (List.append_nil _).symm, fun _ h => absurd h List.not_mem_nil,
    fun _ h => absurd h List.not_mem_nil⟩

theorem Dated.of_eq (h : Dated env d w) (ho : d'.operations = w.operations)
    (hc : d'.cashMovements = w.cashMovements) : Dated env d d' := by
  obtain ⟨ops, ms, hops, hms, hdated⟩ := h
  exact ⟨ops, ms, ho.trans hops, hc.trans hms, hdated⟩

theorem Dated.applyOperation {op : Operation} {stamp : String} (h : Dated env d w)
    (hop : OperationDated env op) : Dated env d (w.applyOperation op stamp) := by
  obtain ⟨ops, ms, hops, hms, hdated, hcash⟩ := h
  refine ⟨ops ++ [op], ms, ?_, ?_, List.forall_mem_append.mpr ⟨hdated, ?_⟩, hcash⟩
  · rw [(applyOperation_get w op stamp).1, hops, List.append_assoc]
  · have hsame := applyOperation_get_ne w op stamp (k := .cashMovement) (by decide) (by decide)
      (by decide)
    exact hsame.trans hms
  · exact fun o ho => List.mem_singleton.mp ho ▸ hop

theorem Dated.insert_cash {m : CashMovement} (h : Dated env d w) (hm : CashDated env m) :
    Dated env d (w.insert .cashMovement [m]) := by
  obtain ⟨ops, ms, hops, hms, hdated, hcash⟩ := h
  refine ⟨ops, ms ++ [m], hops, ?_, hdated, List.forall_mem_append.mpr ⟨hcash, ?_⟩⟩
  · show w.cashMovements ++ [m] = _
    rw [hms, List.append_assoc]
  · exact fun m' hm' => List.mem_singleton.mp hm' ▸ hm

/-- The date given to a write path, or the day it reads. -/
theorem hasDay_getD {day : Option Date} (h : ∀ typed ∈ day, env.HasDay n typed) :
    env.HasDay (n + 2) (day.getD (env.today (n + 1))) := by
  cases day with
  | none => exact hasDay_today env (n + 1)
  | some typed => exact (h typed rfl).mono (Nat.le_add_right n 2)

/-- **The single writes** keep the new rows dated. -/
theorem upkept_dated (env : Env) (d : Db) : Upkept env (fun _ => True) (Dated env d) where
  amount _ _ := trivial
  sees _ _ := ⟨fun _ _ _ => trivial, fun _ _ => ⟨trivial, trivial⟩, fun _ _ => ⟨trivial, trivial⟩⟩
  card _ _ h _ := h.of_eq rfl rfl
  reprice _ _ _ h _ := h.of_eq rfl rfl
  batch _ _ h _ := h.of_eq rfl rfl
  rebatch _ _ _ h _ := h.of_eq rfl rfl
  header _ _ h := h.of_eq rfl rfl
  operation n _ args op stamp h hargs hop := by
    refine h.applyOperation ⟨_, n, hop.day, (hasDay_getD hargs.day).dated hop.createdAt ?_⟩
    intro haudit
    rw [hargs.audit (hop.type ▸ haudit)]
    rfl
  cash n _ args m h hday hm :=
    h.insert_cash ⟨_, n, hm.day, (hasDay_getD hday).dated hm.createdAt False.elim⟩
  clerical _ _ h hsame := h.of_eq hsame.operations hsame.cashMovements

/-- **Every call** dates the rows it adds. -/
theorem Call.dated {call : Call} (hservice : call.Service) : Dated env d (call.exec env d) := by
  by_cases hmoves : call.Moves
  · cases call with
    | transfer form =>
      have htransfer := (upkept_dated env d).registerTransfer (n := 0) form fun _ _ _ _ _ =>
        ⟨trivial, trivial⟩
      exact exec_upholds htransfer (.refl env d)
    | _ => exact hmoves.elim
  · exact Call.upkept (upkept_dated env d) hservice hmoves (.refl env d)

/-! ## One day for all rows of a movement -/

/-- The rows that were added are of one day. -/
def OneDay (d d' : Db) : Prop :=
  ∃ ops ms day, d'.operations = d.operations ++ ops ∧ d'.cashMovements = d.cashMovements ++ ms ∧
    (∀ o ∈ ops, o.businessDate = some day) ∧ ∀ m ∈ ms, m.businessDate = some day

theorem OneDay.refl (d : Db) : OneDay d d :=
  ⟨[], [], "", (List.append_nil _).symm, (List.append_nil _).symm,
    fun _ h => absurd h List.not_mem_nil, fun _ h => absurd h List.not_mem_nil⟩

/-- Rows of calls that were given one day. -/
theorem forall_day {day : Date} {rows : List OperationArgs} {ops : List Operation}
    (h : List.Forall₂ Carries rows ops) (hrows : ∀ args ∈ rows, args.businessDate = some day) :
    ∀ o ∈ ops, o.businessDate = some day.isoformat := by
  induction h with
  | nil => exact fun _ ho => absurd ho List.not_mem_nil
  | cons hcarries _ ih =>
    obtain ⟨hfirst, hrest⟩ := List.forall_mem_cons.mp hrows
    exact List.forall_mem_cons.mpr ⟨hcarries.day day hfirst, ih hrest⟩

theorem Sold.oneDay {form : SaleForm} {plan : SalePlan} {sale : Sale} {day : Date}
    {ops : List Operation} {m : CashMovement} (h : Sold env form d plan sale day ops m d') :
    OneDay d d' := by
  have hadds := h.adds
  refine ⟨ops, [m], day.isoformat, hadds.operations, hadds.cash, forall_day hadds.lines ?_,
    fun m' hm' => ?_⟩
  · intro args hargs
    obtain ⟨l, -, rfl⟩ := List.mem_map.mp hargs
    rfl
  · rw [List.mem_singleton.mp hm']
    exact hadds.credit.day day rfl

theorem Returned.oneDay {form : ReturnForm} {origin : Operation} {saleId : String} {op : Operation}
    {day : Date} {m : Option CashMovement} (h : Returned env form d origin saleId op day m d') :
    OneDay d d' := by
  have hadds := h.adds
  refine ⟨[op], m.toList, day.isoformat, hadds.operations, hadds.cash, fun o ho => ?_,
    fun m' hm' => ?_⟩
  · obtain ⟨batchId, -, hcarries⟩ := hadds.row
    rw [List.mem_singleton.mp ho]
    exact hcarries.day day rfl
  · obtain ⟨currency, hcarries⟩ := hadds.debit m' (Option.mem_toList.mp hm')
    exact hcarries.day day rfl

theorem MovedStock.oneDay {form : TransferForm} {product : Product} {source dest : Batch}
    {out into : Operation} (h : MovedStock form d product source dest out into d') :
    OneDay d d' := by
  obtain ⟨day, hout, hinto⟩ := h.day
  have hcash : d'.cashMovements = d.cashMovements :=
    h.rest .cashMovement (by decide) (by decide) (by decide)
  refine ⟨[out, into], [], day.isoformat, h.operations, by rw [hcash, List.append_nil], ?_,
    fun _ hm => absurd hm List.not_mem_nil⟩
  exact List.forall_mem_cons.mpr ⟨hout, List.forall_mem_cons.mpr ⟨hinto, fun _ ho =>
    absurd ho List.not_mem_nil⟩⟩

/-- **One day**: every line of a sale and its cash credit, the stock and the refund of a return, the
two halves of a transfer, whatever the clock does in between. -/
theorem Call.oneDay {call : Call} (h : call.Several) : OneDay d (call.exec env d) := by
  have hall : ∀ {α : Type} {x : Act (Outcome α)} {R : Outcome α → Db → Prop},
      Closes d d Outcome.No x R → (∀ a d', R a d' → OneDay d d') → OneDay d (x.exec d) := by
    intro α x R hx hR
    rcases exec_of_closes hx with hsame | ⟨a, -, hdone⟩
    · rw [hsame]
      exact .refl d
    · exact hR a _ hdone
  cases call with
  | sale form =>
    refine hall (closes_registerSale form) ?_
    rintro _ d' ⟨plan, sale, day, ops, m, -, hsold⟩
    exact hsold.oneDay
  | saleReturn form =>
    refine hall (closes_registerReturn form) ?_
    rintro _ d' ⟨origin, saleId, op, day, m, -, hreturned⟩
    exact hreturned.oneDay
  | transfer form =>
    refine hall (closes_registerTransfer form) ?_
    rintro _ d' ⟨plan, dest, out, into, htransferred⟩
    obtain ⟨dest', hmoved⟩ := htransferred.movedStock
    exact hmoved.oneDay
  | _ => exact h.elim

/-! ## A date that is refused -/

/-- What runs after a date that was refused, in a store that stays as it is. -/
theorem upholds_refusedDate {α : Type} {raw message : String} {f : Except String (Option Date) → Act α}
    (hbad : opDateAt env n raw = .error message)
    (h : ∀ m, Upholds (· = d) m (f (.error message)) fun _ _ => True) :
    Upholds (· = d) n (parseOpDate env raw >>= f) fun _ _ => True :=
  upholds_bind (upholds_parseOpDate raw) fun m parsed _ hparsed => by
    rw [hparsed.1, hbad]
    exact h m

/-- The checks of a service that refuses the date pass nothing on. -/
theorem upholds_stopped {α β : Type} {checked : Except (Outcome α) β} {write : β → Act (Outcome α)}
    (h : ∀ plan, checked ≠ .ok plan) :
    Upholds (· = d) n (orAnswer checked write) fun _ _ => True :=
  upholds_orAnswer fun plan hplan => absurd hplan (h plan)

theorem putDate_stop {α : Type} (errors : Errors) (message : String) (u : Unit) :
    ((errors.putDate (.error message)).stop : Except (Outcome α) Unit) ≠ .ok u := by
  intro h
  obtain ⟨⟨_, hday⟩, -⟩ := Errors.putDate_eq_nil.mp (Errors.stop_ok_iff.mp h)
  cases hday

/-- **A refused date writes nothing.** -/
theorem Call.refused {call : Call} {raw message : String} (h : raw ∈ call.opDateText)
    (hbad : opDateAt env 0 raw = .error message) : call.exec env d = d := by
  have hall : ∀ {α : Type} {x : Act α}, Upholds (· = d) 0 x (fun _ _ => True) → x.exec d = d :=
    fun hx => exec_upholds hx rfl
  cases call with
  | receipt form =>
    cases h
    refine hall (upholds_refusedDate hbad fun m => upholds_read fun w _ => upholds_stopped ?_)
    exact fun plan => putDate_stop _ _ plan
  | sale form =>
    cases h
    refine hall (upholds_refusedDate hbad fun m => upholds_read fun w _ => upholds_stopped ?_)
    intro plan hplan
    unfold saleCheck at hplan
    dsimp only at hplan
    split_ifs at hplan
    · cases hplan
    · obtain ⟨_, hstop, -⟩ := bind_ok_iff.mp hplan
      exact putDate_stop _ _ _ hstop
  | saleReturn form =>
    cases h
    refine hall (upholds_read fun w _ => upholds_orAnswer fun plan _ => ?_)
    refine upholds_refusedDate hbad fun m => upholds_stopped fun plan => putDate_stop _ _ plan
  | writeoff form =>
    cases h
    refine hall (upholds_refusedDate hbad fun m => upholds_read fun w _ => upholds_stopped ?_)
    intro plan hplan
    obtain ⟨_, hstop, -⟩ := bind_ok_iff.mp hplan
    exact putDate_stop _ _ _ hstop
  | correction form =>
    cases h
    refine hall (upholds_refusedDate hbad fun m => upholds_read fun w _ => upholds_stopped ?_)
    intro plan hplan
    obtain ⟨_, -, hplan⟩ := bind_ok_iff.mp hplan
    obtain ⟨_, hstop, -⟩ := bind_ok_iff.mp hplan
    exact putDate_stop _ _ _ hstop
  | transfer form =>
    cases h
    refine hall (upholds_refusedDate hbad fun m => upholds_read fun w _ => upholds_stopped ?_)
    intro plan hplan
    obtain ⟨_, hstop, -⟩ := bind_ok_iff.mp hplan
    exact putDate_stop _ _ _ hstop
  | cash form =>
    cases h
    refine hall (upholds_refusedDate hbad fun m => upholds_read fun w _ => upholds_stopped ?_)
    intro plan hplan
    obtain ⟨_, hstop, -⟩ := bind_ok_iff.mp hplan
    exact putDate_stop _ _ _ hstop
  | createProduct | updateProduct | softDeleteProduct | quickDeleteProduct | restoreProduct
  | updateBatch | addWarehouse | updateWarehouse | restoreWarehouse | softDeleteWarehouse
  | createCustomer | updateCustomer | addEntry | updateEntry | staged => cases h

/-- **Business dates.** Whatever the clock, the date text and the database: every row that a call of
a service adds to a ledger has a canonical date; while the clock has read no local day before the
floor the date is not before it, and while the days it reads do not go back the date is not after the
local day that is read when the row is written; an audit row has that day itself. The rows of a sale,
a return or a transfer are of one day, and a refused date writes nothing. -/
theorem call_businessDates (env : Env) (d : Db) (call : Call) (hservice : call.Service) :
    BusinessDates env d call (call.exec env d) where
  rows := by
    obtain ⟨ops, ms, hops, hms, hdated, hcash⟩ := @Call.dated env d call hservice
    refine ⟨ops, ms, hops, hms, hdated, hcash, fun hseveral => ?_⟩
    obtain ⟨ops', ms', day, hops', hms', hday, hcashDay⟩ := @Call.oneDay env d call hseveral
    have heq : ops' = ops := List.append_cancel_left (hops'.symm.trans hops)
    have heqCash : ms' = ms := List.append_cancel_left (hms'.symm.trans hms)
    exact ⟨day, heq ▸ hday, heqCash ▸ hcashDay⟩
  refused _ hraw _ hbad := Call.refused hraw hbad

theorem midnight_valid : 0 < 24 ∧ 0 < 60 ∧ 0 < 60 := by decide

/-- A clock that reads midnight of these days, one after another. -/
def readingDays (day : Nat → Date) : Env :=
  { Env.sample with clock := fun n => ⟨day n, 0, 0, 0, midnight_valid⟩ }

theorem newYear_valid :
    1 ≤ 2026 ∧ 2026 ≤ 9999 ∧ 1 ≤ 1 ∧ 1 ≤ 12 ∧ 1 ≤ 1 ∧ 1 ≤ daysInMonth 2026 1 := by decide

/-- A clock that is set back by a day after its first reading. -/
def setBack : Env :=
  readingDays fun n => match n with
    | 0 => ⟨2026, 1, 2, by decide⟩
    | _ + 1 => ⟨2026, 1, 1, newYear_valid⟩

/-- The first deposit into a till, dated by its form. -/
def openingDeposit (opDate : String) : Call :=
  .cash { category := "deposit_opening", amountRaw := "1", note := "", opDate := opDate }

theorem call_businessDates_deposit :
    (openingDeposit "2026-01-01").Service ∧
      ((openingDeposit "2026-01-01").exec Env.sample {}).cashMovements.map
        CashMovement.businessDate = [some "2026-01-01"] ∧
      BusinessDates Env.sample {} (openingDeposit "2026-01-01")
        ((openingDeposit "2026-01-01").exec Env.sample {}) :=
  ⟨trivial, by decide, call_businessDates Env.sample {} _ trivial⟩

/-- A clock before the year 2000 dates a row before the floor, and a clock that is set back after
the date was checked leaves a row of a day that is still to come. -/
theorem not_businessDates :
    (¬∀ (env : Env) (d : Db) (call : Call), call.Service →
      ∀ m ∈ (call.exec env d).cashMovements, m ∈ d.cashMovements ∨
        ∃ day : Date, m.businessDate = some day.isoformat ∧ opDateFloorYear ≤ day.year) ∧
    ¬∀ (env : Env) (d : Db) (call : Call), call.Service →
      ∀ m ∈ (call.exec env d).cashMovements, m ∈ d.cashMovements ∨
        ∃ (day : Date) (n : Nat), m.businessDate = some day.isoformat ∧
          m.createdAt = (env.clock n).isoformat ∧ day ≤ env.today (n + 1) := by
  constructor
  · intro hclaim
    have hrows : ((openingDeposit "").exec (readingDays fun _ => ⟨1999, 12, 31, by decide⟩)
        {}).cashMovements.map CashMovement.businessDate = [some "1999-12-31"] := by decide
    obtain ⟨m, hm, hdate⟩ := List.mem_map.mp (hrows ▸ List.mem_singleton_self (some "1999-12-31"))
    rcases hclaim _ {} (openingDeposit "") trivial m hm with hold | ⟨day, hday, hyear⟩
    · exact absurd hold List.not_mem_nil
    · have hsame : day = ⟨1999, 12, 31, by decide⟩ := by
        refine isoformat_inj.mp (Option.some.inj (hday.symm.trans (hdate.trans ?_)))
        decide
      rw [hsame] at hyear
      exact absurd hyear (by decide)
  · intro hclaim
    have hrows : ((openingDeposit "2026-01-02").exec setBack {}).cashMovements.map
        (fun m => (m.businessDate, m.createdAt)) =
          [(some "2026-01-02", "2026-01-01T00:00:00+00:00")] := by decide
    obtain ⟨m, hm, hrow⟩ := List.mem_map.mp (hrows ▸ List.mem_singleton_self _)
    rcases hclaim setBack {} (openingDeposit "2026-01-02") trivial m hm with hold | hbounded
    · exact absurd hold List.not_mem_nil
    obtain ⟨day, n, hday, hwritten, hle⟩ := hbounded
    have hsame : day = ⟨2026, 1, 2, by decide⟩ := by
      refine isoformat_inj.mp (Option.some.inj (hday.symm.trans ((congrArg Prod.fst hrow).trans ?_)))
      decide
    -- every reading after the first is of the day before
    have htoday : setBack.today (n + 1) = ⟨2026, 1, 1, by decide⟩ := rfl
    rw [hsame, htoday] at hle
    exact absurd hle (by decide)

end MyOriShop
