import MyOriShop.Ledger

/-!
# Writes: everything a local service can do to the tables

`Write free d d'` lists the single writes of the services: a born reference row, an edited
reference row, an appended ledger row with its two increments, an appended cash row. Each write
carries what its writer has checked, so an invariant of the tables is proved once per kind of
write and then holds after every service, however the service ends.

`free` is the set of expiry texts that reach `batches.expiry` without having been parsed as a date.
Every other date a writer stores is the canonical text of a day.

Results:
* `Scoped` are the writes of a service that leaves the sales, or the currencies, alone.
* `keeps_recordOperation`: the single write path makes only these writes.
* `Writes.induct`: what every write preserves holds in every state the writes reach.
* `Write.mem`, `Write.kept`: what one write does to the rows of any table.
-/

namespace MyOriShop

open Lib.IsoDate Lib.Transaction
open Relation (ReflTransGen)

/-- The canonical text of some day. -/
def CanonicalDate (s : String) : Prop := ∃ d : Date, s = d.isoformat

/-- The text of some moment of the clock. -/
def ClockText (s : String) : Prop := ∃ t : Instant, s = t.isoformat

/-- A row of a reference kind as its writer creates it. -/
def Born (free : String → Prop) (d : Db) : (k : Kind) → Row k → Prop
  | .product, p => Product.quantity p = 0
  | .batch, b =>
    Batch.quantity b = 0 ∧
      (∀ e ∈ Batch.expiry b, CanonicalDate e ∨ free e ∨ ∃ b' ∈ d.batches, b'.expiry = some e) ∧
      (Batch.isLegacy b = 0 ∨
        Batch.isLegacy b = 1 ∧ ∀ b' ∈ d.batches, b'.productId = Batch.productId b → b'.isLegacy ≠ 1)
  | .warehouse, _ | .customer, _ | .dictionary, _ | .sale, _ => True
  | .operation, _ | .cashMovement, _ => False

/-- What an edit of a reference row leaves as it is. -/
def Edited : (k : Kind) → Row k → Row k → Prop
  | .product, p, p' => Product.id p' = Product.id p ∧ Product.quantity p' = Product.quantity p
  | .batch, b, b' =>
    Batch.id b' = Batch.id b ∧ Batch.quantity b' = Batch.quantity b ∧
      Batch.productId b' = Batch.productId b ∧ Batch.warehouseId b' = Batch.warehouseId b ∧
      Batch.isLegacy b' = Batch.isLegacy b ∧
      ∀ e ∈ Batch.expiry b', CanonicalDate e ∨ Batch.expiry b = some e
  | .warehouse, w, w' => Warehouse.id w' = Warehouse.id w
  | .customer, c, c' => Customer.id c' = Customer.id c
  | .dictionary, e, e' => Dictionary.id e' = Dictionary.id e
  | .sale, s, s' => s' = s
  | .operation, o, o' => o' = o
  | .cashMovement, m, m' => m' = m

/-- A ledger row as `record_operation` appends it. -/
structure OperationBorn (d : Db) (op : Operation) : Prop where
  product : op.productId ∈ d.ids .product
  batch : (op.batchId = none ∧ op.qtyDelta = 0) ∨
    ∃ b ∈ d.batches, op.batchId = some b.id ∧ b.productId = op.productId
  created : ClockText op.createdAt
  business : ∃ s, op.businessDate = some s ∧ CanonicalDate s
  unsynced : op.syncedAt = none

/-- A cash row as `record_cash_movement` appends it. -/
structure CashBorn (m : CashMovement) : Prop where
  created : ClockText m.createdAt
  business : ∃ s, m.businessDate = some s ∧ CanonicalDate s
  unsynced : m.syncedAt = none

/-- An id no row has or refers to. -/
def Fresh (d : Db) (id : String) : Prop := id ≠ "" ∧ id ∉ d.usedIds

/-- The single writes of the local services. -/
inductive Write (free : String → Prop) (d : Db) : Db → Prop where
  | born (k : Kind) (row : Row k) (fresh : Fresh d (rowId k row)) (h : Born free d k row) :
      Write free d (d.insert k [row])
  | edited (k : Kind) (id : String) (f : Row k → Row k) (h : ∀ r ∈ d.get k, Edited k r (f r)) :
      Write free d (d.edit k id f)
  | operation (op : Operation) (stamp : String) (fresh : Fresh d op.id) (h : OperationBorn d op) :
      Write free d (d.applyOperation op stamp)
  | cash (m : CashMovement) (fresh : Fresh d m.id) (h : CashBorn m) :
      Write free d (d.insert .cashMovement [m])

/-- What a service leaves alone. -/
structure Scope where
  /-- The expiry texts it may store unparsed. -/
  free : String → Prop
  /-- It touches no sale: no header, no ledger row and no cash row of one. -/
  plain : Prop
  /-- It changes no warehouse's currency. -/
  steady : Prop

/-- A changed warehouse keeps its currency. -/
def Steady : (k : Kind) → Row k → Row k → Prop
  | .warehouse, w, w' => Warehouse.currency w' = Warehouse.currency w
  | .product, _, _ | .customer, _, _ | .dictionary, _, _ | .batch, _, _ | .sale, _, _
  | .operation, _, _ | .cashMovement, _, _ => True

/-- A ledger row that is part of no sale. -/
def Operation.Plain (op : Operation) : Prop := op.type ≠ "sale" ∧ op.type ≠ "return"

/-- A cash row that is part of no sale. -/
def CashMovement.Plain (m : CashMovement) : Prop :=
  m.category ≠ "sale" ∧ m.category ≠ "return" ∧ m.saleId = none

/-- A ledger row as a request of its own records it: its number is the device's next one, and its
batch is in a warehouse the operator may use, or it brings a transfer in. -/
structure RecordedBy (env : Env) (d : Db) (op : Operation) : Prop where
  device : op.deviceId = env.deviceId
  seq : op.seq = nextSeq (d.operations.map fun o => (o.deviceId, o.seq)) env.deviceId
  warehouse : ∀ i, op.batchId = some i → ∃ b ∈ d.batches, b.id = i ∧
    (env.warehouseAllowed b.warehouseId = true ∨ op.type = "transfer" ∧ 0 < op.qtyDelta)

/-- A cash row as a request of its own numbers it. -/
structure CashRecordedBy (env : Env) (d : Db) (m : CashMovement) : Prop where
  device : m.deviceId = env.deviceId
  seq : m.seq = nextSeq (d.cashMovements.map fun m => (m.deviceId, m.seq)) env.deviceId

/-- The single writes of a service in a request, in its scope. -/
inductive Scoped (sc : Scope) (env : Env) (d : Db) : Db → Prop where
  | born (k : Kind) (row : Row k) (fresh : Fresh d (rowId k row)) (h : Born sc.free d k row)
      (hplain : sc.plain → k ≠ .sale) : Scoped sc env d (d.insert k [row])
  | edited (k : Kind) (id : String) (f : Row k → Row k) (h : ∀ r ∈ d.get k, Edited k r (f r))
      (hsteady : sc.steady → ∀ r ∈ d.get k, Steady k r (f r)) : Scoped sc env d (d.edit k id f)
  | operation (op : Operation) (stamp : String) (fresh : Fresh d op.id) (h : OperationBorn d op)
      (hplain : sc.plain → op.Plain) (hby : RecordedBy env d op) :
      Scoped sc env d (d.applyOperation op stamp)
  | cash (m : CashMovement) (fresh : Fresh d m.id) (h : CashBorn m)
      (hplain : sc.plain → m.Plain) (hby : CashRecordedBy env d m) :
      Scoped sc env d (d.insert .cashMovement [m])

theorem Scoped.write {sc : Scope} {env : Env} {d d' : Db} (h : Scoped sc env d d') : Write sc.free d d' := by
  cases h with
  | born k row fresh h => exact .born k row fresh h
  | edited k id f h => exact .edited k id f h
  | operation op stamp fresh h => exact .operation op stamp fresh h
  | cash m fresh h => exact .cash m fresh h

/-- **Invariants of the writes**: what each write preserves is preserved by any number of them. -/
theorem Writes.induct {free : String → Prop} {motive : Db → Prop}
    (hstep : ∀ d d', Write free d d' → motive d → motive d') {d d' : Db}
    (h : ReflTransGen (Write free) d d') (hd : motive d) : motive d' := by
  induction h with
  | refl => exact hd
  | tail _ hw ih => exact hstep _ _ hw ih

/-! ## What one write does to a table -/

/-- What every write leaves of a row that was there: an edit, or a change of the cached quantity. -/
def Kept : (k : Kind) → Row k → Row k → Prop
  | .product, p, p' => Product.id p' = Product.id p
  | .batch, b, b' =>
    Batch.id b' = Batch.id b ∧ Batch.productId b' = Batch.productId b ∧
      Batch.warehouseId b' = Batch.warehouseId b ∧ Batch.isLegacy b' = Batch.isLegacy b ∧
      ∀ e ∈ Batch.expiry b', CanonicalDate e ∨ Batch.expiry b = some e
  | .warehouse, w, w' => Edited .warehouse w w'
  | .customer, c, c' => Edited .customer c c'
  | .dictionary, e, e' => Edited .dictionary e e'
  | .sale, s, s' => s' = s
  | .operation, o, o' => o' = o
  | .cashMovement, m, m' => m' = m

/-- A row that was not there before a write. -/
def Appears (free : String → Prop) (d : Db) : (k : Kind) → Row k → Prop
  | .operation, o => OperationBorn d o
  | .cashMovement, m => CashBorn m
  | .product, p => Born free d .product p
  | .batch, b => Born free d .batch b
  | .warehouse, _ | .customer, _ | .dictionary, _ | .sale, _ => True

theorem Kept.refl (k : Kind) (r : Row k) : Kept k r r := by
  cases k with
  | batch => exact ⟨rfl, rfl, rfl, rfl, fun _ he => .inr he⟩
  | product | warehouse | customer | dictionary | sale | operation | cashMovement => rfl

theorem Edited.kept {k : Kind} {r r' : Row k} (h : Edited k r r') : Kept k r r' := by
  cases k with
  | product => exact h.1
  | batch => exact ⟨h.1, h.2.2.1, h.2.2.2.1, h.2.2.2.2.1, h.2.2.2.2.2⟩
  | warehouse | customer | dictionary | sale | operation | cashMovement => exact h

theorem Born.appears {free : String → Prop} {d : Db} {k : Kind} {r : Row k}
    (h : Born free d k r) : Appears free d k r := by
  cases k with
  | product | batch => exact h
  | warehouse | customer | dictionary | sale => trivial
  | operation | cashMovement => exact h.elim

theorem Kept.id_eq {k : Kind} {r r' : Row k} (h : Kept k r r') : rowId k r' = rowId k r := by
  cases k with
  | product | warehouse | customer | dictionary => exact h
  | batch => exact h.1
  | sale | operation | cashMovement => exact congrArg _ h

/-- The tables after an appended ledger row. -/
theorem applyOperation_get (d : Db) (op : Operation) (stamp : String) :
    (d.applyOperation op stamp).operations = d.operations ++ [op] ∧
      (d.applyOperation op stamp).products =
        (d.products.map fun p => if p.id = op.productId then p.bump op.qtyDelta stamp else p) ∧
      (d.applyOperation op stamp).batches =
        (d.batches.map fun b =>
          if op.batchId = some b.id then b.bump op.qtyDelta stamp else b) := by
  unfold Db.applyOperation
  cases hb : op.batchId with
  | none => exact ⟨rfl, rfl, by simp [Db.edit, Db.insert, Db.set]⟩
  | some i =>
    refine ⟨rfl, rfl, ?_⟩
    show (d.batches.map fun b => if b.id = i then b.bump op.qtyDelta stamp else b) = _
    simp [eq_comm]

theorem applyOperation_get_ne (d : Db) (op : Operation) (stamp : String) {k : Kind}
    (ho : k ≠ .operation) (hp : k ≠ .product) (hb : k ≠ .batch) :
    (d.applyOperation op stamp).get k = d.get k := by
  unfold Db.applyOperation
  cases op.batchId <;> simp [Db.edit, Db.insert, ho, hp, hb]

/-- The rows of a table after an edit. -/
theorem mem_get_edit {d : Db} {k k' : Kind} {id : String} {f : Row k → Row k} {r' : Row k'}
    (hr : r' ∈ (d.edit k id f).get k') (hf : ∀ r ∈ d.get k, Kept k r (f r)) :
    ∃ r ∈ d.get k', Kept k' r r' := by
  by_cases hk : k' = k
  · subst hk
    rw [Db.edit, Db.get_set_same] at hr
    obtain ⟨r, hmem, rfl⟩ := List.mem_map.mp hr
    refine ⟨r, hmem, ?_⟩
    split_ifs
    · exact hf r hmem
    · exact Kept.refl _ r
  · rw [Db.edit, Db.get_set_ne _ hk] at hr
    exact ⟨r', hr, Kept.refl _ r'⟩

theorem kept_get_edit {d : Db} {k k' : Kind} {id : String} {f : Row k → Row k} {r : Row k'}
    (hr : r ∈ d.get k') (hf : ∀ r ∈ d.get k, Kept k r (f r)) :
    ∃ r' ∈ (d.edit k id f).get k', Kept k' r r' := by
  by_cases hk : k' = k
  · subst hk
    rw [Db.edit, Db.get_set_same]
    refine ⟨_, List.mem_map_of_mem hr, ?_⟩
    split_ifs
    · exact hf r hr
    · exact Kept.refl _ r
  · rw [Db.edit, Db.get_set_ne _ hk]
    exact ⟨r, hr, Kept.refl _ r⟩

theorem mem_get_insert {d : Db} {k k' : Kind} {row : Row k} {r' : Row k'}
    (hr : r' ∈ (d.insert k [row]).get k') :
    r' ∈ d.get k' ∨ ∃ h : k = k', h ▸ row = r' := by
  by_cases hk : k = k'
  · subst hk
    rw [Db.insert, Db.get_set_same, List.mem_append, List.mem_singleton] at hr
    exact hr.imp_right fun h => ⟨rfl, h.symm⟩
  · rw [Db.insert, Db.get_set_ne _ (Ne.symm hk)] at hr
    exact .inl hr

theorem kept_get_insert {d : Db} {k l : Kind} {rows : List (Row k)} {r : Row l}
    (hr : r ∈ d.get l) : r ∈ (d.insert k rows).get l := by
  by_cases hk : l = k
  · subst hk
    rw [Db.insert, Db.get_set_same]
    exact List.mem_append_left _ hr
  · rwa [Db.insert, Db.get_set_ne _ hk]

theorem kept_bumpProduct (q : Int) (stamp : String) (p : Product) :
    Kept .product p (p.bump q stamp) := rfl

theorem kept_bumpBatch (q : Int) (stamp : String) (b : Batch) :
    Kept .batch b (b.bump q stamp) := ⟨rfl, rfl, rfl, rfl, fun _ he => .inr he⟩

/-- An appended ledger row is one new row and two edits. -/
theorem mem_get_applyOperation {d : Db} {op : Operation} {stamp : String} {k : Kind} {r' : Row k}
    (hr : r' ∈ (d.applyOperation op stamp).get k) :
    (∃ r ∈ d.get k, Kept k r r') ∨ ∃ h : Kind.operation = k, h ▸ op = r' := by
  have hinsert : ∀ {k : Kind} {r' : Row k}, r' ∈ (d.insert .operation [op]).get k →
      (∃ r ∈ d.get k, Kept k r r') ∨ ∃ h : Kind.operation = k, h ▸ op = r' :=
    fun hr => (mem_get_insert hr).imp_left fun h => ⟨_, h, Kept.refl _ _⟩
  have hproduct : ∀ {k : Kind} {r' : Row k}, r' ∈ ((d.insert .operation [op]).edit .product
      op.productId (Product.bump op.qtyDelta stamp)).get k →
      (∃ r ∈ d.get k, Kept k r r') ∨ ∃ h : Kind.operation = k, h ▸ op = r' := by
    intro k r' hr
    by_cases hk : k = .product
    · subst hk
      obtain ⟨r, hmem, hkept⟩ := mem_get_edit hr fun p _ => kept_bumpProduct ..
      exact .inl ⟨r, hmem, hkept⟩
    · rw [Db.edit, Db.get_set_ne _ hk] at hr
      exact hinsert hr
  unfold Db.applyOperation at hr
  cases hb : op.batchId with
  | none =>
    rw [hb] at hr
    exact hproduct hr
  | some i =>
    rw [hb] at hr
    by_cases hk : k = .batch
    · subst hk
      obtain ⟨r, hmem, hkept⟩ := mem_get_edit hr fun b _ => kept_bumpBatch ..
      exact .inl ⟨r, hmem, hkept⟩
    · dsimp only at hr
      rw [Db.edit, Db.get_set_ne _ hk] at hr
      exact hproduct hr

/-- **A row after a write** was there before, up to what a write may change, or is new. -/
theorem Write.mem {free : String → Prop} {d d' : Db} (h : Write free d d') {k : Kind}
    {r' : Row k} (hr : r' ∈ d'.get k) :
    (∃ r ∈ d.get k, Kept k r r') ∨ (Fresh d (rowId k r') ∧ Appears free d k r') := by
  cases h with
  | born k' row fresh h =>
    rcases mem_get_insert hr with hold | ⟨rfl, rfl⟩
    · exact .inl ⟨r', hold, Kept.refl _ _⟩
    · exact .inr ⟨fresh, h.appears⟩
  | edited k' id f h => exact .inl (mem_get_edit hr fun r hr => (h r hr).kept)
  | operation op stamp fresh h =>
    rcases mem_get_applyOperation hr with hold | ⟨rfl, rfl⟩
    · exact .inl hold
    · exact .inr ⟨fresh, h⟩
  | cash m fresh h =>
    rcases mem_get_insert hr with hold | ⟨rfl, rfl⟩
    · exact .inl ⟨r', hold, Kept.refl _ _⟩
    · exact .inr ⟨fresh, h⟩

/-- **No write removes a row**, and what it leaves of it is `Kept`. -/
theorem Write.kept {free : String → Prop} {d d' : Db} (h : Write free d d') {k : Kind}
    {r : Row k} (hr : r ∈ d.get k) : ∃ r' ∈ d'.get k, Kept k r r' := by
  cases h with
  | born k' row fresh h => exact ⟨r, kept_get_insert hr, Kept.refl _ _⟩
  | edited k' id f h => exact kept_get_edit hr fun r hr => (h r hr).kept
  | operation op stamp fresh h =>
    obtain ⟨hops, hproducts, hbatches⟩ := applyOperation_get d op stamp
    by_cases ho : k = .operation
    · subst ho
      refine ⟨r, ?_, Kept.refl _ _⟩
      show r ∈ (d.applyOperation op stamp).operations
      rw [hops]
      exact List.mem_append_left _ hr
    by_cases hp : k = .product
    · subst hp
      have hmem := List.mem_map_of_mem (f := fun p : Product =>
        if p.id = op.productId then p.bump op.qtyDelta stamp else p) (l := d.products) hr
      rw [← hproducts] at hmem
      refine ⟨_, hmem, ?_⟩
      split_ifs
      · exact kept_bumpProduct ..
      · exact Kept.refl _ _
    by_cases hb : k = .batch
    · subst hb
      have hmem := List.mem_map_of_mem (f := fun b : Batch =>
        if op.batchId = some b.id then b.bump op.qtyDelta stamp else b) (l := d.batches) hr
      rw [← hbatches] at hmem
      refine ⟨_, hmem, ?_⟩
      split_ifs
      · exact kept_bumpBatch ..
      · exact Kept.refl _ _
    · exact ⟨r, (applyOperation_get_ne d op stamp ho hp hb).symm ▸ hr, Kept.refl _ _⟩
  | cash m fresh h => exact ⟨r, kept_get_insert hr, Kept.refl _ _⟩

theorem ids_edit {d : Db} {k : Kind} (k' : Kind) {id : String} {f : Row k → Row k}
    (hf : ∀ r ∈ d.get k, Kept k r (f r)) : (d.edit k id f).ids k' = d.ids k' := by
  unfold Db.ids
  by_cases hk : k' = k
  · subst hk
    rw [Db.edit, Db.get_set_same, List.map_map]
    refine List.map_congr_left fun r hr => ?_
    dsimp only [Function.comp_apply]
    split_ifs
    · exact (hf r hr).id_eq
    · rfl
  · rw [Db.edit, Db.get_set_ne _ hk]

theorem ids_insert (d : Db) (k : Kind) (row : Row k) :
    (d.insert k [row]).ids k = d.ids k ++ [rowId k row] := by
  simp [Db.ids, Db.insert]

theorem ids_insert_ne (d : Db) {k k' : Kind} (hk : k' ≠ k) (row : Row k) :
    (d.insert k [row]).ids k' = d.ids k' := by
  simp [Db.ids, Db.insert, hk]

theorem ids_applyOperation (d : Db) (op : Operation) (stamp : String) (k : Kind) :
    (d.applyOperation op stamp).ids k = (d.insert .operation [op]).ids k := by
  have hproduct : ((d.insert .operation [op]).edit .product op.productId
      (Product.bump op.qtyDelta stamp)).ids k = (d.insert .operation [op]).ids k :=
    ids_edit k fun p _ => kept_bumpProduct op.qtyDelta stamp p
  unfold Db.applyOperation
  cases op.batchId with
  | none => exact hproduct
  | some b => exact (ids_edit k fun b _ => kept_bumpBatch op.qtyDelta stamp b).trans hproduct

/-- A write leaves the ids of a table, or adds one that nothing has or refers to. -/
theorem Write.ids {free : String → Prop} {d d' : Db} (h : Write free d d') (k : Kind) :
    d'.ids k = d.ids k ∨ ∃ i, Fresh d i ∧ d'.ids k = d.ids k ++ [i] := by
  have hnew : ∀ {k' : Kind} {row : Row k'}, Fresh d (rowId k' row) →
      (d.insert k' [row]).ids k = d.ids k ∨
        ∃ i, Fresh d i ∧ (d.insert k' [row]).ids k = d.ids k ++ [i] := by
    intro k' row fresh
    by_cases hk : k = k'
    · subst hk
      exact .inr ⟨_, fresh, ids_insert d k row⟩
    · exact .inl (ids_insert_ne d hk row)
  cases h with
  | born k' row fresh h => exact hnew fresh
  | edited k' id f h => exact .inl (ids_edit k fun r hr => (h r hr).kept)
  | operation op stamp fresh h =>
    rw [ids_applyOperation]
    exact hnew fresh
  | cash m fresh h => exact hnew fresh

theorem mem_usedIds {d : Db} {k : Kind} {i : String} (h : i ∈ d.ids k) : i ∈ d.usedIds := by
  unfold Db.usedIds
  simp only [List.mem_append, List.mem_flatMap]
  exact .inl (.inl (.inl (.inl ⟨k, k.mem_all, h⟩)))

theorem Write.nodup {free : String → Prop} {d d' : Db} (h : Write free d d') {k : Kind}
    (hd : (d.ids k).Nodup) : (d'.ids k).Nodup := by
  rcases h.ids k with heq | ⟨i, fresh, heq⟩
  · rwa [heq]
  · rw [heq]
    refine List.nodup_append.mpr ⟨hd, by simp, ?_⟩
    rintro a ha b hb rfl
    rw [List.mem_singleton] at hb
    exact fresh.2 (mem_usedIds (hb ▸ ha))

/-! ## Small programs -/

variable {P : Db → Db → Prop} {α β : Type}

theorem keepsAt_orRaise {w : Db} {r : Except Exn α} {k : α → Act β}
    (h : ∀ a, r = .ok a → KeepsAt P w (k a)) :
    KeepsAt P w (orRaise r k) := by
  unfold orRaise
  split
  · exact h _ rfl
  · exact keepsAt_raise _ _

theorem keepsAt_orAnswer {w : Db} {checked : Except (Outcome α) β} {write : β → Act (Outcome α)}
    (h : ∀ plan, checked = .ok plan → KeepsAt P w (write plan)) :
    KeepsAt P w (orAnswer checked write) := by
  unfold orAnswer
  split
  · exact keepsAt_pure _ _
  · exact h _ rfl

theorem keepsAt_flush' {w : Db} {f : Unit → Act β} (h : w.Ok → KeepsAt P w (f ())) :
    KeepsAt P w (flush >>= f) :=
  keepsAt_flush fun hc => h ((Db.check_iff w).mp hc)

theorem keepsAt_utcnowIso {env : Env} {w : Db} {f : String → Act β}
    (h : ∀ s, ClockText s → KeepsAt P w (f s)) :
    KeepsAt P w (utcnowIso env >>= f) :=
  keepsAt_tick (f := fun n => f (env.clock n).isoformat) fun _ => h _ ⟨_, rfl⟩

theorem still_localToday (env : Env) : Still (localToday env) :=
  still_bind still_tick fun _ => still_pure _

theorem keepsAt_dayOrToday {env : Env} {day : Option Date} {w : Db} {f : Date → Act β}
    (h : ∀ d, KeepsAt P w (f d)) :
    KeepsAt P w (dayOrToday env day >>= f) := by
  refine keepsAt_bind_still ?_ h
  cases day with
  | none => exact still_localToday env
  | some d => exact still_pure d

theorem still_parseOpDate (env : Env) (raw : String) : Still (parseOpDate env raw) := by
  unfold parseOpDate
  split_ifs
  · exact still_pure _
  · cases Date.fromIso (Lib.Text.strip raw) with
    | none => exact still_pure _
    | some parsed =>
      dsimp only
      split_ifs
      · exact still_pure _
      · refine still_bind (still_localToday env) fun today => ?_
        split_ifs <;> exact still_pure _

/-! ## The single write path -/

variable {sc : Scope}

theorem productGuard_ok {db : Db} {args : OperationArgs} {u : Unit}
    (h : productGuard db args = .ok u) : args.productId ∈ db.ids .product := by
  unfold productGuard at h
  split at h
  · cases h
  · next p hp =>
    obtain ⟨hmem, hid⟩ := Db.mem_of_find hp
    exact List.mem_map.mpr ⟨p, hmem, hid⟩

/-- What the batch guards let through: an audit row without a batch, or a row on a batch of its
own product. -/
theorem batchGuard_ok {env : Env} {db : Db} {args : OperationArgs} {batchId : Option String}
    (h : batchGuard env db args = .ok batchId) :
    (args.type ∉ stockAffectingTypes ∧ batchId = none) ∨
      ∃ b ∈ db.batches, batchId = some b.id ∧ b.productId = args.productId := by
  unfold batchGuard at h
  split at h
  · next hstock =>
    split at h
    · cases h
    · next id hargs =>
      split at h
      · cases h
      · next b hb =>
        obtain ⟨hmem, hid⟩ := Db.mem_of_find hb
        split_ifs at h with howner hallowed
        cases h
        exact .inr ⟨b, hmem, congrArg some hid.symm, not_not.mp howner⟩
  · next hstock =>
    split at h
    · cases h
      exact .inl ⟨hstock, rfl⟩
    · cases h

/-- The warehouse of the batch that the guards let through. -/
theorem batchGuard_warehouse {env : Env} {db : Db} {args : OperationArgs}
    {batchId : Option String} (h : batchGuard env db args = .ok batchId) :
    ∀ i, batchId = some i → ∃ b ∈ db.batches, b.id = i ∧
      (env.warehouseAllowed b.warehouseId = true ∨ args.type = "transfer" ∧ 0 < args.qtyDelta) := by
  rintro i rfl
  unfold batchGuard at h
  split at h
  · split at h
    · cases h
    · next id hargs =>
      split at h
      · cases h
      · next b hb =>
        obtain ⟨hmem, hid⟩ := Db.mem_of_find hb
        split_ifs at h with howner hallowed
        cases h
        refine ⟨b, hmem, hid, ?_⟩
        by_contra hno
        obtain ⟨hout, hleg⟩ := not_or.mp hno
        simp [hout] at hallowed
        exact hleg hallowed
  · split at h <;> cases h

/-- A call of `record_operation` that the services make: a stock row, or an audit row of delta 0. -/
def OperationArgs.Sound (args : OperationArgs) : Prop :=
  args.type ∈ stockAffectingTypes ∨ args.qtyDelta = 0

/-- A call of `record_operation` for a row that is part of no sale. -/
def OperationArgs.Plain (args : OperationArgs) : Prop := args.type ≠ "sale" ∧ args.type ≠ "return"

/-- **The single write path** appends one row that its guards have checked, or nothing. -/
theorem keeps_recordOperation {env : Env} {args : OperationArgs} (hargs : args.Sound)
    (hplain : sc.plain → args.Plain) : Keeps (Scoped sc env) (recordOperation env args) := by
  intro w
  unfold recordOperation
  refine keepsAt_orRaise fun _ _ => keepsAt_flush' fun _ => keepsAt_read ?_
  refine keepsAt_orRaise fun _ hproduct => keepsAt_orRaise fun batchId hbatch => ?_
  refine keepsAt_utcnowIso fun createdAt hcreated => keepsAt_dayOrToday fun day => ?_
  refine keepsAt_utcnowIso fun stamp _ => keepsAt_stage ?_ (keepsAt_pure _ _)
  refine .operation _ stamp (env.newId w.usedIds).2 ⟨productGuard_ok hproduct, ?_, hcreated,
    ⟨_, rfl, day, rfl⟩, rfl⟩ hplain ⟨rfl, rfl, batchGuard_warehouse hbatch⟩
  rcases batchGuard_ok hbatch with ⟨haudit, hnone⟩ | h
  · exact .inl ⟨hnone, hargs.resolve_left haudit⟩
  · exact .inr h

theorem keeps_recordOperationCommit {env : Env} {args : OperationArgs} (hargs : args.Sound)
    (hplain : sc.plain → args.Plain) : Keeps (Scoped sc env) (recordOperationCommit env args) := fun w =>
  keepsAt_bind (keeps_recordOperation hargs hplain w) fun _ w' =>
    keepsAt_bind (keeps_commit _ _ w') fun _ w'' => keepsAt_pure w'' _

end MyOriShop
