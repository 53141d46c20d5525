import MyOriShop.Lib.Upholds
import MyOriShop.PriceChain
import MyOriShop.Transfers

/-!
# Upkeep: the services against an invariant of the store (`app/services/*.py`)

One walk through the services, step by step, with an invariant of the store and with the clock
readings made so far. An invariant says what it asks of the single writes (`Upkept`), and every
service then keeps it.

* `Env.HasDay env n day`: by the reading `n` the program has the day: it has read it as the local
  day, or accepted it as a typed one.
* `Booked env n args op`: the row `op` that `record_operation` writes for a call at the reading `n`.
  `created_at` is that reading; the business date is the one given, or the local day of the next.
  `CashBooked` is the same for `record_cash_movement`.
* `AllAmounts N d`: every price and cost stored satisfies `N`.
* `Untouched d d'`: no batch, ledger row, cash row, sale or price is other than it was.

Results:
* `upholds_parseOpDate`: what `parse_op_date` answers, and that an accepted date is one it has.
* `Call.untouched`: the calls on reference data, and the deletion marks of cards.
* `Call.upkept`: every call of a service but a transfer keeps an invariant of the single writes.
* `upholds_registerTransfer`: so does a transfer whose cost satisfies `N`.
-/

namespace MyOriShop

open Lib.Text Lib.IsoDate Lib.Transaction

variable {α β : Type} {env : Env} {N : Option Int → Prop} {I : Db → Prop} {n : Nat}
  {Q : Nat → α → Prop} {d w : Db}

/-! ## The clock -/

/-- The local day of the `n`-th reading. -/
def Env.today (env : Env) (n : Nat) : Date := env.localDay (env.clock n)

/-- What `parse_op_date` answers when its reading is the `n`-th. -/
def opDateAt (env : Env) (n : Nat) (raw : String) : Except String (Option Date) :=
  if strip raw = "" then .ok none
  else match Date.fromIso (strip raw) with
    | none => .error opDateFormatError
    | some parsed =>
      if parsed.year < opDateFloorYear then .error opDateTooOldError
      else if (env.today n).isoformat < parsed.isoformat then .error opDateFutureError
      else .ok (some parsed)

/-- By the reading `n` the program has the day: a local day read before, or a typed one that is
neither before the floor nor after a local day read before. -/
def Env.HasDay (env : Env) (n : Nat) (day : Date) : Prop :=
  ∃ j < n, day = env.today j ∨
    opDateFloorYear ≤ day.year ∧ ¬(env.today j).isoformat < day.isoformat

theorem Env.HasDay.mono {m : Nat} {day : Date} (h : env.HasDay n day) (hm : n ≤ m) :
    env.HasDay m day := by
  obtain ⟨j, hj, hday⟩ := h
  exact ⟨j, hj.trans_le hm, hday⟩

theorem hasDay_today (env : Env) (n : Nat) : env.HasDay (n + 1) (env.today n) :=
  ⟨n, Nat.lt_succ_self n, .inl rfl⟩

theorem upholds_utcnowIso {f : String → Act α}
    (h : Upholds I (n + 1) (f (env.clock n).isoformat) Q) : Upholds I n (utcnowIso env >>= f) Q :=
  upholds_bind (R := fun m s => m = n + 1 ∧ s = (env.clock n).isoformat)
    (upholds_tick (upholds_pure ⟨rfl, rfl⟩)) fun m s _ hs => by
      obtain ⟨rfl, rfl⟩ := hs
      exact h

/-- The day that is read, or the one that was given. -/
theorem upholds_dayOrToday (day : Option Date) :
    Upholds I n (dayOrToday env day) fun m resolved =>
      resolved = day.getD (env.today n) ∧ (day = none → m = n + 1) := by
  cases day with
  | none => exact upholds_tick (upholds_pure ⟨rfl, fun _ => rfl⟩)
  | some day => exact upholds_pure ⟨rfl, fun h => nomatch h⟩

/-- **What `parse_op_date` answers**; an accepted date is one that the program has. -/
theorem upholds_parseOpDate (raw : String) :
    Upholds I n (parseOpDate env raw) fun m parsed =>
      parsed = opDateAt env n raw ∧ ∀ day ∈ opDate parsed, env.HasDay m day := by
  unfold parseOpDate opDateAt
  by_cases hempty : strip raw = ""
  · rw [if_pos hempty, if_pos hempty]
    exact upholds_pure ⟨rfl, fun _ h => nomatch h⟩
  rw [if_neg hempty, if_neg hempty]
  cases Date.fromIso (strip raw) with
  | none => exact upholds_pure ⟨rfl, fun _ h => nomatch h⟩
  | some parsed =>
    dsimp only
    by_cases hfloor : parsed.year < opDateFloorYear
    · rw [if_pos hfloor, if_pos hfloor]
      exact upholds_pure ⟨rfl, fun _ h => nomatch h⟩
    rw [if_neg hfloor, if_neg hfloor]
    refine upholds_bind (R := fun m today => m = n + 1 ∧ today = env.today n)
      (upholds_tick (upholds_pure ⟨rfl, rfl⟩)) fun m today _ htoday => ?_
    obtain ⟨rfl, rfl⟩ := htoday
    by_cases hfuture : (env.today n).isoformat < parsed.isoformat
    · rw [if_pos hfuture, if_pos hfuture]
      exact upholds_pure ⟨rfl, fun _ h => nomatch h⟩
    · rw [if_neg hfuture, if_neg hfuture]
      refine upholds_pure ⟨rfl, ?_⟩
      rintro _ ⟨⟩
      exact ⟨n, Nat.lt_succ_self n, .inr ⟨not_lt.mp hfloor, hfuture⟩⟩

/-- The day of a service: the typed one, or the local day that is then read. -/
theorem upholds_resolvedDay {day : Option Date} (h : ∀ typed ∈ day, env.HasDay n typed) :
    Upholds I n (dayOrToday env day) fun m resolved => env.HasDay m resolved := by
  refine (upholds_dayOrToday day).mono fun m resolved hm hresolved => ?_
  obtain ⟨rfl, hread⟩ := hresolved
  cases day with
  | none =>
    rw [hread rfl]
    exact hasDay_today env n
  | some typed => exact (h typed rfl).mono hm

/-! ## The write paths -/

theorem upholds_orRaise {r : Except Exn β} {k : β → Act α}
    (h : ∀ b, r = .ok b → Upholds I n (k b) Q) : Upholds I n (orRaise r k) Q := by
  unfold orRaise
  split
  · exact h _ rfl
  · exact upholds_raise

/-- The row of a call of `record_operation` at the reading `n`. -/
structure Booked (env : Env) (n : Nat) (args : OperationArgs) (op : Operation) : Prop where
  type : op.type = args.type
  unitCostCents : op.unitCostCents = args.unitCostCents
  unitPriceCents : op.unitPriceCents = args.unitPriceCents
  createdAt : op.createdAt = (env.clock n).isoformat
  day : op.businessDate = some (args.businessDate.getD (env.today (n + 1))).isoformat

/-- The row of a call of `record_cash_movement` at the reading `n`. -/
structure CashBooked (env : Env) (n : Nat) (args : CashArgs) (m : CashMovement) : Prop where
  createdAt : m.createdAt = (env.clock n).isoformat
  day : m.businessDate = some (args.businessDate.getD (env.today (n + 1))).isoformat

/-- **The single write path for stock** upholds what its row does. -/
theorem upholds_recordOperation {args : OperationArgs}
    (h : ∀ w op stamp, I w → Booked env n args op → I (w.applyOperation op stamp)) :
    Upholds I n (recordOperation env args) fun _ _ => True := by
  unfold recordOperation
  refine upholds_orRaise fun _ _ => upholds_flush (upholds_read fun w _ => ?_)
  refine upholds_orRaise fun _ _ => upholds_orRaise fun batchId _ => upholds_utcnowIso ?_
  refine upholds_bind (upholds_dayOrToday _) fun m day _ hday => upholds_utcnowIso ?_
  refine upholds_stage (fun w' hw' => h w' _ _ hw' ?_) (upholds_pure trivial)
  exact ⟨rfl, rfl, rfl, rfl, by rw [← hday.1]; rfl⟩

/-- **The single write path for cash** upholds what its row does. -/
theorem upholds_recordCashMovement {args : CashArgs}
    (h : ∀ w m, I w → CashBooked env n args m → I (w.insert .cashMovement [m])) :
    Upholds I n (recordCashMovement env args) fun _ _ => True := by
  unfold recordCashMovement
  refine upholds_orRaise fun _ _ => upholds_flush (upholds_utcnowIso ?_)
  refine upholds_bind (upholds_dayOrToday _) fun m day _ hday => upholds_read fun w _ => ?_
  refine upholds_stage (fun w' hw' => h w' _ hw' ?_) (upholds_pure trivial)
  exact ⟨rfl, by rw [← hday.1]; rfl⟩

theorem upholds_orAnswer {checked : Except (Outcome α) β} {write : β → Act (Outcome α)}
    (h : ∀ plan, checked = .ok plan → Upholds I n (write plan) fun _ _ => True) :
    Upholds I n (orAnswer checked write) fun _ _ => True := by
  unfold orAnswer
  split
  · exact upholds_pure trivial
  · exact h _ rfl

/-- A program that throws its writes away and answers. -/
theorem upholds_giveUp {a : α} :
    Upholds I n (Tx.rollback >>= fun _ => (pure a : Act α)) fun _ _ => True :=
  upholds_bind (R := fun _ _ => True) (upholds_rollback trivial) fun _ _ _ _ => upholds_pure trivial

theorem upholds_rollbackWith {answer : α} {takes : Exn → Bool} {m : Nat} {e : Exn} {y : Act α}
    (h : rollbackWith answer takes e = some y) : Upholds I m y fun _ _ => True := by
  unfold rollbackWith at h
  split_ifs at h
  cases h
  exact upholds_giveUp

/-- The commit and the answer of a service that is done. -/
theorem upholds_done {a : α} : Upholds I n (commit >>= fun _ => (pure a : Act α)) fun _ _ => True :=
  upholds_bind (R := fun _ _ => True) (upholds_commit trivial) fun _ _ _ _ => upholds_pure trivial

/-- A stage that is committed and answered. -/
theorem upholds_stageDone {g : Db → Db} {a : α} (h : ∀ w, I w → I (g w)) :
    Upholds I n (Tx.stage g >>= fun _ => commit >>= fun _ => (pure a : Act α)) fun _ _ => True :=
  upholds_stage h upholds_done

/-! ## Reference data and deletion marks -/

/-- No batch, ledger row, cash row, sale or price is other than it was. -/
structure Untouched (d d' : Db) : Prop where
  batches : d'.batches = d.batches
  operations : d'.operations = d.operations
  cashMovements : d'.cashMovements = d.cashMovements
  sales : d'.sales = d.sales
  prices : d'.products.map Product.price = d.products.map Product.price

theorem Untouched.refl (d : Db) : Untouched d d := ⟨rfl, rfl, rfl, rfl, rfl⟩

/-- A reference table may be anything. -/
theorem Untouched.set {k : Kind} (h : Untouched d w)
    (hk : k = .warehouse ∨ k = .customer ∨ k = .dictionary) (rows : List (Row k)) :
    Untouched d (w.set k rows) := by
  rcases hk with rfl | rfl | rfl
  · exact ⟨h.batches, h.operations, h.cashMovements, h.sales, h.prices⟩
  · exact ⟨h.batches, h.operations, h.cashMovements, h.sales, h.prices⟩
  · exact ⟨h.batches, h.operations, h.cashMovements, h.sales, h.prices⟩

/-- An edit of a card that leaves its prices. -/
theorem Untouched.card {id : String} {f : Product → Product} (h : Untouched d w)
    (hf : ∀ p, (f p).price = p.price) : Untouched d (w.edit .product id f) := by
  refine ⟨h.batches, h.operations, h.cashMovements, h.sales, ?_⟩
  rw [← h.prices]
  show (w.products.map fun p => if p.id = id then f p else p).map Product.price = _
  rw [List.map_map]
  refine List.map_congr_left fun p _ => ?_
  rw [Function.comp_apply]
  split_ifs
  · exact hf p
  · rfl

theorem upholds_editAndCommit {k : Kind} {id : String} {f : Row k → Row k}
    (hk : k = .warehouse ∨ k = .customer ∨ k = .dictionary) :
    Upholds (Untouched d) n (editAndCommit k id f) fun _ _ => True :=
  upholds_stage (fun _ hw => hw.set hk _) (upholds_commit trivial)

theorem upholds_stampWarehouse (id : String) (deleted : Bool) :
    Upholds (Untouched d) n (stampWarehouse env id deleted) fun _ _ => True :=
  upholds_utcnowIso (upholds_editAndCommit (.inl rfl))

theorem upholds_stampProduct (id : String) (deleted : Bool) :
    Upholds (Untouched d) n (stampProduct env id deleted) fun _ _ => True :=
  upholds_utcnowIso (upholds_stage (fun _ hw => hw.card fun _ => rfl) (upholds_commit trivial))

theorem upholds_softDeleteProduct (id : String) :
    Upholds (Untouched d) n (softDeleteProduct env id) fun _ _ => True := by
  unfold softDeleteProduct
  refine upholds_read fun w _ => ?_
  split
  · exact upholds_pure trivial
  · split_ifs
    · exact upholds_pure trivial
    · exact upholds_stampProduct id true

theorem upholds_quickDeleteProduct (id : String) :
    Upholds (Untouched d) n (quickDeleteProduct env id) fun _ _ => True := by
  unfold quickDeleteProduct
  refine upholds_read fun w _ => ?_
  split
  · exact upholds_pure trivial
  · split_ifs
    · exact upholds_pure trivial
    · exact upholds_pure trivial
    · exact upholds_bind (upholds_stampProduct id true) fun _ _ _ _ => upholds_pure trivial

theorem upholds_restoreProduct (id : String) :
    Upholds (Untouched d) n (restoreProduct env id) fun _ _ => True := by
  unfold restoreProduct
  refine upholds_read fun w _ => ?_
  split
  · exact upholds_pure trivial
  · split_ifs
    · exact upholds_pure trivial
    · exact upholds_stampProduct id false

theorem upholds_restoreWarehouse (id : String) :
    Upholds (Untouched d) n (restoreWarehouse env id) fun _ _ => True := by
  unfold restoreWarehouse
  refine upholds_read fun w _ => ?_
  split
  · exact upholds_pure trivial
  · split_ifs
    · exact upholds_pure trivial
    · exact upholds_stampWarehouse id false

theorem upholds_softDeleteWarehouse (id : String) (confirm : Bool) :
    Upholds (Untouched d) n (softDeleteWarehouse env id confirm) fun _ _ => True := by
  unfold softDeleteWarehouse
  refine upholds_read fun w _ => ?_
  split
  · exact upholds_pure trivial
  · exact upholds_bind (upholds_stampWarehouse id true) fun _ _ _ _ => upholds_pure trivial

/-- A form that is checked and written on a row of a reference table. -/
theorem upholds_editForm {checked : Except (Outcome α) β} {k : Kind} {id : String}
    {f : String → Row k → Row k} {a : α}
    (hk : k = .warehouse ∨ k = .customer ∨ k = .dictionary) :
    Upholds (Untouched d) n (orAnswer checked fun _ => do
      let stamp ← utcnowIso env
      editAndCommit k id (f stamp)
      return (.done a : Outcome α)) fun _ _ => True :=
  upholds_orAnswer fun _ _ => upholds_utcnowIso <|
    upholds_bind (upholds_editAndCommit hk) fun _ _ _ _ => upholds_pure trivial

/-- The calls on reference data, and the deletion marks of cards. -/
def Call.Clerical : Call → Prop
  | .softDeleteProduct _ | .quickDeleteProduct _ | .restoreProduct _ | .addWarehouse _
  | .updateWarehouse .. | .restoreWarehouse _ | .softDeleteWarehouse .. | .createCustomer _
  | .updateCustomer .. | .addEntry .. | .updateEntry .. => True
  | _ => False

/-- **A clerical call** touches no stock, no ledger and no price. -/
theorem Call.untouched (env : Env) (d : Db) {call : Call} (h : call.Clerical) :
    Untouched d (call.exec env d) := by
  have hall : ∀ {α : Type} {x : Act α}, Upholds (Untouched d) 0 x (fun _ _ => True) →
      Untouched d (x.exec d) := fun hx => exec_upholds hx (.refl d)
  cases call with
  | softDeleteProduct id => exact hall (upholds_softDeleteProduct id)
  | quickDeleteProduct id => exact hall (upholds_quickDeleteProduct id)
  | restoreProduct id => exact hall (upholds_restoreProduct id)
  | addWarehouse form =>
    refine hall (upholds_orAnswer fun _ _ => upholds_utcnowIso (upholds_read fun w _ => ?_))
    exact upholds_stageDone fun w' hw' => hw'.set (.inl rfl) _
  | updateWarehouse id form => exact hall (upholds_read fun w _ => upholds_editForm (.inl rfl))
  | restoreWarehouse id => exact hall (upholds_restoreWarehouse id)
  | softDeleteWarehouse id confirm => exact hall (upholds_softDeleteWarehouse id confirm)
  | createCustomer form =>
    refine hall (upholds_orAnswer fun _ _ => upholds_utcnowIso (upholds_read fun w _ => ?_))
    exact upholds_stageDone fun w' hw' => hw'.set (.inr (.inl rfl)) _
  | updateCustomer id form =>
    exact hall (upholds_read fun w _ => upholds_editForm (.inr (.inl rfl)))
  | addEntry code name =>
    refine hall (upholds_read fun w _ => upholds_orAnswer fun _ _ => upholds_utcnowIso ?_)
    refine upholds_stage (fun w' hw' => hw'.set (.inr (.inr rfl)) _) ?_
    exact upholds_recover upholds_done fun _ _ _ _ h => upholds_rollbackWith h
  | updateEntry id code name =>
    refine hall (upholds_read fun w _ => upholds_orAnswer fun _ _ => upholds_utcnowIso ?_)
    refine upholds_recover ?_ fun _ _ _ _ h => upholds_rollbackWith h
    exact upholds_bind (upholds_editAndCommit (.inr (.inr rfl))) fun _ _ _ _ => upholds_pure trivial
  | createProduct | updateProduct | receipt | updateBatch | sale | saleReturn | writeoff
  | correction | transfer | cash | staged => exact h.elim

/-! ## Amounts -/

/-- No amount, or one that is not negative. -/
def NotNegative (cents : Option Int) : Prop := ∀ c ∈ cents, 0 ≤ c

theorem notNegative_none : NotNegative none := fun _ h => nomatch h

/-- What `parse_optional_cents` lets through. -/
theorem notNegative_parsed (raw : String) :
    NotNegative (fieldValue (parseOptionalCents raw)) := by
  cases h : parseOptionalCents raw with
  | error => exact notNegative_none
  | ok cents => exact (parseOptionalCents_ok h).2

/-- Every price of the card satisfies `N`. -/
def Product.Amounts (N : Option Int → Prop) (p : Product) : Prop := ∀ f, N (p.price f)

/-- Price and cost of the batch satisfy `N`. -/
def Batch.Amounts (N : Option Int → Prop) (b : Batch) : Prop := N b.priceCents ∧ N b.costCents

/-- Every price and cost stored satisfies `N`. -/
structure AllAmounts (N : Option Int → Prop) (d : Db) : Prop where
  products : ∀ p ∈ d.products, p.Amounts N
  batches : ∀ b ∈ d.batches, b.Amounts N
  operations : ∀ o ∈ d.operations, N o.unitCostCents ∧ N o.unitPriceCents

/-! ## What an invariant asks of the single writes -/

/-- What a call of `record_operation` is given: amounts that satisfy `N`, and a business date on
stock rows only, which the program has by then. -/
structure Fit (env : Env) (N : Option Int → Prop) (n : Nat) (args : OperationArgs) : Prop where
  cost : N args.unitCostCents
  price : N args.unitPriceCents
  audit : args.type ∉ stockAffectingTypes → args.businessDate = none
  day : ∀ day ∈ args.businessDate, env.HasDay n day

/-- An invariant that the single writes of the services keep, and that says of the amounts stored
that they satisfy `N`. -/
structure Upkept (env : Env) (N : Option Int → Prop) (I : Db → Prop) : Prop where
  amount : ∀ cents, NotNegative cents → N cents
  sees : ∀ w, I w → AllAmounts N w
  card : ∀ w p, I w → p.Amounts N → I (w.insert .product [p])
  reprice : ∀ w id (g : Product → Product), I w → (∀ p, p.Amounts N → (g p).Amounts N) →
    I (w.edit .product id g)
  batch : ∀ w b, I w → b.Amounts N → I (w.insert .batch [b])
  rebatch : ∀ w id (g : Batch → Batch), I w → (∀ b, b.Amounts N → (g b).Amounts N) →
    I (w.edit .batch id g)
  header : ∀ w sale, I w → I (w.insert .sale [sale])
  operation : ∀ n w args op stamp, I w → Fit env N n args → Booked env n args op →
    I (w.applyOperation op stamp)
  cash : ∀ n w args m, I w → (∀ day ∈ args.businessDate, env.HasDay n day) →
    CashBooked env n args m → I (w.insert .cashMovement [m])
  clerical : ∀ w w', I w → Untouched w w' → I w'

/-- The date of a manual movement is the one that was parsed. -/
theorem manualCheck_day {form : ManualForm} {day : Except String (Option Date)} {args : CashArgs}
    (h : manualCheck env d form day = .ok args) : args.businessDate = opDate day := by
  unfold manualCheck at h
  obtain ⟨_, -, h⟩ := Lib.Fallible.bind_ok_iff.mp h
  simp only [refuse_bind, warned_bind] at h
  split_ifs at h <;> cases h <;> rfl

namespace Upkept

variable (hI : Upkept env N I)
include hI

theorem none : N none := hI.amount _ notNegative_none

theorem parsed (raw : String) : N (fieldValue (parseOptionalCents raw)) :=
  hI.amount _ (notNegative_parsed raw)

theorem record {args : OperationArgs} (hargs : Fit env N n args) :
    Upholds I n (recordOperation env args) fun _ _ => True :=
  upholds_recordOperation fun w op stamp hw hop => hI.operation n w args op stamp hw hargs hop

/-- An audit row has no amounts and no business date. -/
theorem recordAudit {args : OperationArgs} (hcost : args.unitCostCents = Option.none)
    (hprice : args.unitPriceCents = Option.none) (hday : args.businessDate = Option.none) :
    Upholds I n (recordOperation env args) fun _ _ => True := by
  refine hI.record ⟨by rw [hcost]; exact hI.none, by rw [hprice]; exact hI.none, fun _ => hday, ?_⟩
  rw [hday]
  exact fun _ h => nomatch h

theorem recordCash {args : CashArgs} (hday : ∀ day ∈ args.businessDate, env.HasDay n day) :
    Upholds I n (recordCashMovement env args) fun _ _ => True :=
  upholds_recordCashMovement fun w m hw hm => hI.cash n w args m hw hday hm

/-! ### Cards -/

omit hI in
theorem setPrices {g : PriceField → Option Int} (hg : ∀ f, N (g f)) (fs : List PriceField)
    {p : Product} (hp : p.Amounts N) : (fs.foldl (fun q f => q.setPrice f (g f)) p).Amounts N := by
  induction fs generalizing p with
  | nil => exact hp
  | cons f fs ih =>
    refine ih fun f' => ?_
    rw [setPrice_price]
    split_ifs
    · exact hg f
    · exact hp f'

theorem onto {form : ProductForm} {p : Product} (hp : p.Amounts N) :
    (form.onto env p).Amounts N := by
  refine setPrices (fun f => ?_) PriceField.all fun f => ?_
  · unfold ProductForm.price
    split
    · exact hp f
    · exact hI.parsed _
  · have hsame := hp f
    cases f <;> exact hsame

theorem createProduct (form : ProductForm) :
    Upholds I n (createProduct env form) fun _ _ => True := by
  unfold MyOriShop.createProduct recordOperationCommit
  refine upholds_read fun w _ => upholds_orAnswer fun _ _ => upholds_utcnowIso ?_
  have hblank : ∀ id now, (blankProduct id now).Amounts N := fun id now f => by
    cases f <;> exact hI.none
  refine upholds_stage (fun w' hw' => hI.card w' _ hw' (hI.onto (hblank _ _))) ?_
  refine upholds_recover ?_ fun _ _ _ _ h => upholds_rollbackWith h
  refine upholds_bind (R := fun _ _ => True) ?_ fun _ _ _ _ => upholds_pure trivial
  exact upholds_bind (hI.recordAudit rfl rfl rfl) fun _ _ _ _ => upholds_done

theorem recordPriceChanges {old new : Product} (fs : List PriceField) :
    Upholds I n (recordPriceChanges env old new fs) fun _ _ => True := by
  induction fs generalizing n with
  | nil => exact upholds_pure trivial
  | cons f fs ih => exact upholds_bind (hI.recordAudit rfl rfl rfl) fun _ _ _ _ => ih

theorem recordEdited {old : Product} {fields : List String} :
    Upholds I n (recordEdited env old fields) fun _ _ => True := by
  unfold MyOriShop.recordEdited
  split
  · exact upholds_pure trivial
  · exact upholds_bind (hI.recordAudit rfl rfl rfl) fun _ _ _ _ => upholds_pure trivial

theorem updateProduct (productId : String) (form : ProductForm) :
    Upholds I n (updateProduct env productId form) fun _ _ => True := by
  unfold MyOriShop.updateProduct
  refine upholds_read fun w _ => upholds_orAnswer fun old _ => ?_
  dsimp only
  split_ifs
  · exact upholds_pure trivial
  refine upholds_utcnowIso (upholds_stage (fun w' hw' => hI.reprice w' _ _ hw' ?_) ?_)
  · intro p hp f
    rw [touch_price]
    exact hI.onto hp f
  refine upholds_recover ?_ fun _ _ _ _ h => upholds_rollbackWith h
  refine upholds_bind (hI.recordPriceChanges _) fun _ _ _ _ => ?_
  exact upholds_bind hI.recordEdited fun _ _ _ _ => upholds_done

/-! ### Receipts and batches -/

theorem entered {form : ReceiptForm} : ∀ e ∈ enteredPrices w form, N e.2 := by
  unfold enteredPrices
  refine List.forall_mem_cons.mpr ⟨hI.parsed _, List.forall_mem_cons.mpr ⟨hI.parsed _, ?_⟩⟩
  exact fun _ h => absurd h List.not_mem_nil

omit hI in
theorem enter {es : List (PriceField × Option Int)} (hes : ∀ e ∈ es, N e.2) {p : Product}
    (hp : p.Amounts N) : (es.foldl (fun q e => q.setPrice e.1 e.2) p).Amounts N := by
  induction es generalizing p with
  | nil => exact hp
  | cons e es ih =>
    obtain ⟨he, hes⟩ := List.forall_mem_cons.mp hes
    refine ih hes fun f => ?_
    rw [setPrice_price]
    split_ifs
    · exact he
    · exact hp f

theorem applyEntered {product : Product} {es : List (PriceField × Option Int)}
    (hes : ∀ e ∈ es, N e.2) : Upholds I n (applyEntered env product es) fun _ _ => True := by
  induction es generalizing n with
  | nil => exact upholds_pure trivial
  | cons e es ih =>
    obtain ⟨he, hes⟩ := List.forall_mem_cons.mp hes
    unfold MyOriShop.applyEntered
    split_ifs
    · exact ih hes
    refine upholds_bind (hI.recordAudit rfl rfl rfl) fun _ _ _ _ => upholds_utcnowIso ?_
    refine upholds_stage (fun w' hw' => hI.reprice w' _ _ hw' fun p hp f => ?_) (ih hes)
    rw [touch_price, setPrice_price]
    split_ifs
    · exact he
    · exact hp f

theorem receiptCard (form : ReceiptForm) :
    Upholds I n (receiptCard env form) fun _ _ => True := by
  unfold MyOriShop.receiptCard
  refine upholds_read fun w _ => ?_
  split
  · exact upholds_bind (hI.applyEntered hI.entered) fun _ _ _ _ => upholds_pure trivial
  · refine upholds_utcnowIso (upholds_stage (fun w' hw' => hI.card w' _ hw' ?_) ?_)
    · refine enter hI.entered fun f => ?_
      cases f <;> exact hI.none
    · exact upholds_bind (hI.recordAudit rfl rfl rfl) fun _ _ _ _ => upholds_pure trivial

theorem receiptTarget (form : ReceiptForm) (product : Product) (day : Date) :
    Upholds I n (receiptTarget env form product day) fun _ _ => True := by
  unfold MyOriShop.receiptTarget
  refine upholds_flush ?_
  split_ifs
  · refine upholds_utcnowIso (upholds_read fun w _ => upholds_stage (fun w' hw' => ?_) ?_)
    · exact hI.batch w' _ hw' ⟨hI.parsed _, hI.parsed _⟩
    · exact upholds_pure trivial
  · refine upholds_read fun w _ => ?_
    split
    · exact upholds_pure trivial
    · split_ifs <;> exact upholds_pure trivial

theorem registerReceipt (form : ReceiptForm) :
    Upholds I n (registerReceipt env form) fun _ _ => True := by
  unfold MyOriShop.registerReceipt
  refine upholds_bind (upholds_parseOpDate _) fun _ parsed _ hparsed => upholds_read fun w _ => ?_
  refine upholds_orAnswer fun _ _ => ?_
  refine upholds_bind (upholds_resolvedDay hparsed.2) fun _ day _ hday => ?_
  refine upholds_bind (hI.receiptCard form) fun _ product hcard _ => ?_
  refine upholds_bind (hI.receiptTarget form product day) fun _ target htarget _ => ?_
  cases target with
  | none => exact upholds_giveUp
  | some batchId =>
    refine upholds_bind (hI.record ⟨hI.parsed _, hI.parsed _, ?_, ?_⟩) fun _ _ _ _ => ?_
    · exact fun hstock => absurd (show "receipt" ∈ stockAffectingTypes by decide) hstock
    · rintro _ ⟨⟩
      exact hday.mono (hcard.trans htarget)
    · exact upholds_recover upholds_done fun _ _ _ _ h => upholds_rollbackWith h

theorem updateBatch (batchId : String) (form : BatchForm) :
    Upholds I n (updateBatch env batchId form) fun _ _ => True := by
  unfold MyOriShop.updateBatch
  refine upholds_read fun w _ => upholds_orAnswer fun _ _ => upholds_utcnowIso ?_
  refine upholds_stageDone fun w' hw' => hI.rebatch w' _ _ hw' fun b hb => ?_
  unfold BatchForm.onto
  dsimp only
  split_ifs
  · exact hb
  · exact ⟨hI.parsed _, hI.parsed _⟩

/-! ### Sales and returns -/

theorem recordLines {currency saleId : String} {day : Date} {lines : List BasketLine} (hw : I w)
    (h : ∀ l ∈ lines, Sellable w l) (hday : env.HasDay n day) :
    Upholds I n (recordLines env currency saleId day lines) fun _ _ => True := by
  induction lines generalizing n with
  | nil => exact upholds_pure trivial
  | cons l lines ih =>
    obtain ⟨hl, hrest⟩ := List.forall_mem_cons.mp h
    have hamounts := hI.sees w hw
    refine upholds_bind (hI.record ⟨?_, ?_, ?_, ?_⟩) fun _ _ hm _ => ih hrest (hday.mono hm)
    -- the cost is the batch's, or the card's
    · show N (l.batch.costCents.or _)
      have hbatch := (hamounts.batches _ hl.batch).2
      cases hcost : l.batch.costCents with
      | none => exact hamounts.products _ hl.product _
      | some c =>
        rw [hcost] at hbatch
        exact hbatch
    · refine hI.amount _ ?_
      rintro _ ⟨⟩
      exact hl.price
    · exact fun hstock => absurd (show "sale" ∈ stockAffectingTypes by decide) hstock
    · rintro _ ⟨⟩
      exact hday

theorem registerSale (form : SaleForm) :
    Upholds I n (registerSale env form) fun _ _ => True := by
  unfold MyOriShop.registerSale
  refine upholds_bind (upholds_parseOpDate _) fun _ parsed _ hparsed => upholds_read fun w hw => ?_
  refine upholds_orAnswer fun plan hplan => ?_
  obtain ⟨hlines, -⟩ := saleCheck_ok hplan
  refine upholds_bind (upholds_resolvedDay hparsed.2) fun m day _ hday => upholds_utcnowIso ?_
  refine upholds_stage (fun w' hw' => hI.header w' _ hw') ?_
  refine upholds_recover ?_ fun _ _ _ _ h => upholds_rollbackWith h
  have hday' : env.HasDay (m + 1) day := hday.mono (Nat.le_succ m)
  refine upholds_bind (hI.recordLines hw hlines hday') fun _ _ hread _ => ?_
  refine upholds_bind (hI.recordCash ?_) fun _ _ _ _ => upholds_done
  rintro _ ⟨⟩
  exact hday'.mono hread

theorem resolveOrCreate (origin : Operation) :
    Upholds I n (resolveOrCreateReturnBatchId env origin) fun _ _ => True := by
  unfold resolveOrCreateReturnBatchId
  split
  · exact upholds_pure trivial
  · refine upholds_read fun w _ => ?_
    split
    · exact upholds_pure trivial
    · refine upholds_utcnowIso (upholds_stage (fun w' hw' => ?_) ?_)
      · exact hI.batch w' _ hw' ⟨hI.none, hI.none⟩
      · exact upholds_flush (upholds_pure trivial)

theorem settleReturn {saleId batchId : String} {debit : Int} {day : Date}
    {answer : Outcome (Operation × Int)} (hday : env.HasDay n day) :
    Upholds I n (settleReturn env saleId debit batchId day answer) fun _ _ => True := by
  unfold MyOriShop.settleReturn
  split_ifs
  · exact upholds_done
  · refine upholds_read fun w _ => ?_
    split
    · exact upholds_giveUp
    · refine upholds_bind (hI.recordCash ?_) fun _ _ _ _ => upholds_done
      rintro _ ⟨⟩
      exact hday

omit hI in
theorem returnHandler {m : Nat} {e : Exn} {y : Act (Outcome (Operation × Int))}
    (h : returnHandler e = some y) : Upholds I m y fun _ _ => True := by
  unfold MyOriShop.returnHandler at h
  split_ifs at h
  · exact upholds_rollbackWith h
  · exact upholds_rollbackWith h

theorem registerReturn (form : ReturnForm) :
    Upholds I n (registerReturn env form) fun _ _ => True := by
  unfold MyOriShop.registerReturn
  refine upholds_read fun w hw => upholds_orAnswer fun plan hplan => ?_
  obtain ⟨origin, saleId, remaining⟩ := plan
  obtain ⟨horigin, -⟩ := returnCheck_ok hplan
  -- the row carries the frozen amounts of the sale
  obtain ⟨hcost, hprice⟩ := (hI.sees w hw).operations origin horigin
  refine upholds_bind (upholds_parseOpDate _) fun _ parsed _ hparsed => upholds_orAnswer fun _ _ => ?_
  refine upholds_bind (upholds_resolvedDay hparsed.2) fun _ day _ hday => ?_
  refine upholds_recover ?_ fun _ _ _ _ h => returnHandler h
  refine upholds_bind (hI.resolveOrCreate origin) fun _ batchId hbatch _ => ?_
  have hday' := hday.mono hbatch
  refine upholds_bind (hI.record ⟨hcost, hprice, ?_, ?_⟩) fun _ op hop _ => ?_
  · exact fun hstock => absurd (show "return" ∈ stockAffectingTypes by decide) hstock
  · rintro _ ⟨⟩
    exact hday'
  · exact hI.settleReturn (hday'.mono hop)

/-! ### Stock and cash -/

theorem recordOrFail {args : OperationArgs} (hargs : Fit env N n args) :
    Upholds I n (recordOrFail env args) fun _ _ => True := by
  unfold MyOriShop.recordOrFail recordOperationCommit
  refine upholds_recover ?_ fun _ _ _ _ h => upholds_rollbackWith h
  refine upholds_bind (R := fun _ _ => True) ?_ fun _ _ _ _ => upholds_pure trivial
  exact upholds_bind (hI.record hargs) fun _ _ _ _ => upholds_done

theorem registerWriteoff (form : WriteoffForm) :
    Upholds I n (registerWriteoff env form) fun _ _ => True := by
  unfold MyOriShop.registerWriteoff
  refine upholds_bind (upholds_parseOpDate _) fun _ parsed _ hparsed => upholds_read fun w _ => ?_
  refine upholds_orAnswer fun plan _ => hI.recordOrFail ⟨hI.none, hI.none, ?_, hparsed.2⟩
  exact fun hstock => absurd (show "writeoff" ∈ stockAffectingTypes by decide) hstock

theorem registerCorrection (form : CorrectionForm) :
    Upholds I n (registerCorrection env form) fun _ _ => True := by
  unfold MyOriShop.registerCorrection
  refine upholds_bind (upholds_parseOpDate _) fun _ parsed _ hparsed => upholds_read fun w _ => ?_
  refine upholds_orAnswer fun plan _ => hI.recordOrFail ⟨hI.none, hI.none, ?_, hparsed.2⟩
  exact fun hstock => absurd (show "correction" ∈ stockAffectingTypes by decide) hstock

/-- A transfer whose cost satisfies `N`. -/
theorem registerTransfer (form : TransferForm)
    (hcost : ∀ w, I w → ∀ parsed plan, transferCheck env w form parsed = .ok plan →
      N plan.priceCents ∧ N plan.costCents) :
    Upholds I n (registerTransfer env form) fun _ _ => True := by
  unfold MyOriShop.registerTransfer
  refine upholds_bind (upholds_parseOpDate _) fun _ parsed _ hparsed => upholds_read fun w hw => ?_
  refine upholds_orAnswer fun plan hplan => upholds_utcnowIso ?_
  refine upholds_stage (fun w' hw' => hI.batch w' _ hw' (hcost w hw parsed plan hplan)) ?_
  have hparsed' : ∀ typed ∈ opDate parsed, env.HasDay _ typed := fun typed h =>
    (hparsed.2 typed h).mono (Nat.le_succ _)
  refine upholds_bind (upholds_resolvedDay hparsed') fun m day _ hday => ?_
  have hargs : ∀ k, m ≤ k → ∀ batchId qty, Fit env N k (transferArgs plan batchId qty day) := by
    intro k hk batchId qty
    refine ⟨hI.none, hI.none, fun hstock => absurd ?_ hstock, ?_⟩
    · show "transfer" ∈ stockAffectingTypes
      decide
    · rintro _ ⟨⟩
      exact hday.mono hk
  refine upholds_recover ?_ fun _ _ _ _ h => upholds_rollbackWith h
  refine upholds_bind (hI.record (hargs m le_rfl _ _)) fun k _ hk _ => ?_
  exact upholds_bind (hI.record (hargs k hk _ _)) fun _ _ _ _ => upholds_done

theorem recordManualMovement (form : ManualForm) :
    Upholds I n (recordManualMovement env form) fun _ _ => True := by
  unfold MyOriShop.recordManualMovement
  refine upholds_bind (upholds_parseOpDate _) fun _ parsed _ hparsed => upholds_read fun w _ => ?_
  refine upholds_orAnswer fun args hargs => ?_
  refine upholds_recover ?_ fun _ _ _ _ h => upholds_rollbackWith h
  refine upholds_bind (hI.recordCash ?_) fun _ _ _ _ => upholds_done
  rw [manualCheck_day hargs]
  exact hparsed.2

end Upkept

/-- A transfer. -/
def Call.Moves : Call → Prop
  | .transfer _ => True
  | _ => False

/-- **A call of a service** that is no transfer keeps an invariant of the single writes. -/
theorem Call.upkept (hI : Upkept env N I) {call : Call} (hservice : call.Service)
    (hmoves : ¬call.Moves) (hd : I d) : I (call.exec env d) := by
  cases call with
  | createProduct form => exact exec_upholds (hI.createProduct form) hd
  | updateProduct id form => exact exec_upholds (hI.updateProduct id form) hd
  | receipt form => exact exec_upholds (hI.registerReceipt form) hd
  | updateBatch id form => exact exec_upholds (hI.updateBatch id form) hd
  | sale form => exact exec_upholds (hI.registerSale form) hd
  | saleReturn form => exact exec_upholds (hI.registerReturn form) hd
  | writeoff form => exact exec_upholds (hI.registerWriteoff form) hd
  | correction form => exact exec_upholds (hI.registerCorrection form) hd
  | transfer => exact absurd trivial hmoves
  | cash form => exact exec_upholds (hI.recordManualMovement form) hd
  | softDeleteProduct | quickDeleteProduct | restoreProduct | addWarehouse | updateWarehouse
  | restoreWarehouse | softDeleteWarehouse | createCustomer | updateCustomer | addEntry
  | updateEntry => exact hI.clerical d _ hd (Call.untouched env d trivial)
  | staged => exact hservice.elim

end MyOriShop
