import MyOriShop.Constraints
import MyOriShop.Selling

/-!
# Effects: what a request leaves, sale by sale

Seen from the sales, a service call leaves everything as it is, or writes aside of the sales, or is
a sale that is done, or a return that is done.

* `Effect env d call d'` lists these four.
* `Aside d d'`: no header, no ledger row and no cash row of a sale was added.
* `Along P d run`: `P` holds of every request of a run, in the state it finds.

Results:
* `Call.effect`: every service call has one of the four effects.
* `along_induct`: what every effect preserves holds after every run of service calls.
* `writes_batch`, `writes_id`: no request removes a row, or moves a batch.
-/

namespace MyOriShop

open Lib.Transaction
open Relation (ReflTransGen)

variable {env : Env} {d d' d'' : Db} {call : Call}

/-! ## One request -/

/-- A call of a service; rows staged by hand are none. -/
def Call.Service : Call → Prop
  | .staged .. => False
  | _ => True

/-- The scope of a call whose stored texts do not matter. -/
def Call.writesIn (call : Call) : Scope := call.scope fun _ => True

/-- What a call leaves. -/
inductive Effect (env : Env) (d : Db) (call : Call) : Db → Prop where
  | nothing : Effect env d call d
  | aside {d' : Db} (hsells : call.sells = false)
      (h : ReflTransGen (Scoped call.writesIn env) d d') : Effect env d call d'
  | sold {form : SaleForm} {plan : SalePlan} {sale : Sale} {day : Lib.IsoDate.Date}
      {ops : List Operation} {m : CashMovement} {d' : Db} (hcall : call = .sale form)
      (h : Sold env form d plan sale day ops m d') : Effect env d call d'
  | returned {form : ReturnForm} {origin : Operation} {saleId : String} {op : Operation}
      {day : Lib.IsoDate.Date} {m : Option CashMovement} {d' : Db} (hcall : call = .saleReturn form)
      (h : Returned env form d origin saleId op day m d') : Effect env d call d'

/-- **A service call** has one of the four effects. -/
theorem Call.effect (env : Env) (d : Db) (call : Call) (h : call.Service) :
    Effect env d call (call.exec env d) := by
  have hreaches : ReflTransGen (Scoped (call.scope fun _ => True) env) d (call.exec env d) :=
    Call.reaches env d call fun _ _ => .inr trivial
  cases hcall : call with
  | sale form =>
    rcases exec_of_closes (@closes_registerSale env d form) with hsame | hdone
    · have hexec : (Call.sale form).exec env d = d := hsame
      rw [hexec]
      exact .nothing
    · obtain ⟨answer, -, plan, sale, day, ops, m, -, hsold⟩ := hdone
      exact .sold rfl hsold
  | saleReturn form =>
    rcases exec_of_closes (@closes_registerReturn env d form) with hsame | hdone
    · have hexec : (Call.saleReturn form).exec env d = d := hsame
      rw [hexec]
      exact .nothing
    · obtain ⟨answer, -, origin, saleId, op, day, m, -, hreturned⟩ := hdone
      exact .returned rfl hreturned
  | staged => exact absurd h (by rw [hcall]; exact id)
  | createProduct | updateProduct | softDeleteProduct | quickDeleteProduct | restoreProduct
  | receipt | updateBatch | writeoff | correction | transfer | cash | addWarehouse
  | updateWarehouse | restoreWarehouse | softDeleteWarehouse | createCustomer | updateCustomer
  | addEntry | updateEntry =>
    rw [hcall] at hreaches
    exact .aside rfl hreaches

/-! ## Aside of the sales -/

/-- Nothing of a sale was added. -/
structure Aside (d d' : Db) : Prop where
  operations : ∃ ops, d'.operations = d.operations ++ ops ∧ ∀ o ∈ ops, o.Plain
  cash : ∃ ms, d'.cashMovements = d.cashMovements ++ ms ∧ ∀ m ∈ ms, m.Plain
  sales : d'.sales = d.sales

theorem Aside.refl (d : Db) : Aside d d where
  operations := ⟨[], (List.append_nil _).symm, fun _ h => absurd h List.not_mem_nil⟩
  cash := ⟨[], (List.append_nil _).symm, fun _ h => absurd h List.not_mem_nil⟩
  sales := rfl

theorem Aside.trans (h : Aside d d') (h' : Aside d' d'') : Aside d d'' := by
  obtain ⟨ops, hops, hplain⟩ := h.operations
  obtain ⟨ops', hops', hplain'⟩ := h'.operations
  obtain ⟨ms, hms, hcash⟩ := h.cash
  obtain ⟨ms', hms', hcash'⟩ := h'.cash
  refine ⟨⟨ops ++ ops', ?_, ?_⟩, ⟨ms ++ ms', ?_, ?_⟩, h'.sales.trans h.sales⟩
  · rw [hops', hops, List.append_assoc]
  · exact List.forall_mem_append.mpr ⟨hplain, hplain'⟩
  · rw [hms', hms, List.append_assoc]
  · exact List.forall_mem_append.mpr ⟨hcash, hcash'⟩

/-- Tables that are the same rows. -/
theorem Aside.of_eq (ho : d'.operations = d.operations)
    (hc : d'.cashMovements = d.cashMovements) (hs : d'.sales = d.sales) : Aside d d' where
  operations := ⟨[], by rw [ho, List.append_nil], fun _ h => absurd h List.not_mem_nil⟩
  cash := ⟨[], by rw [hc, List.append_nil], fun _ h => absurd h List.not_mem_nil⟩
  sales := hs

/-- An edit that may not change a row leaves its table. -/
theorem get_edit_of_eq {k l : Kind} {id : String} {f : Row k → Row k}
    (h : k = l → ∀ r ∈ d.get k, f r = r) : (d.edit k id f).get l = d.get l := by
  by_cases hk : l = k
  · subst hk
    rw [Db.edit, Db.get_set_same]
    refine (List.map_congr_left fun r hr => ?_).trans (List.map_id _)
    split_ifs
    · exact h rfl r hr
    · rfl
  · rw [Db.edit, Db.get_set_ne _ hk]

/-- A write in the scope of a service that sells nothing is aside of the sales. -/
theorem Scoped.aside {sc : Scope} (hplain : sc.plain) (h : Scoped sc env d d') : Aside d d' := by
  have hget : ∀ {k : Kind} {rows : List (Row k)} (k' : Kind), k' ≠ k →
      (d.insert k rows).get k' = d.get k' := fun k' hk => Db.get_insert_ne d hk _
  cases h with
  | born k row fresh hborn hk =>
    have hop : Kind.operation ≠ k := fun heq => by subst heq; exact hborn
    have hcash : Kind.cashMovement ≠ k := fun heq => by subst heq; exact hborn
    exact .of_eq (hget _ hop) (hget _ hcash) (hget _ (hk hplain).symm)
  | edited k id f hedit =>
    exact .of_eq (get_edit_of_eq (l := .operation) fun heq r hr => by subst heq; exact hedit r hr)
      (get_edit_of_eq (l := .cashMovement) fun heq r hr => by subst heq; exact hedit r hr)
      (get_edit_of_eq (l := .sale) fun heq r hr => by subst heq; exact hedit r hr)
  | operation op stamp fresh hborn hop =>
    refine ⟨⟨[op], (applyOperation_get d op stamp).1, ?_⟩, ⟨[], ?_, ?_⟩, ?_⟩
    · exact fun o ho => List.mem_singleton.mp ho ▸ hop hplain
    · rw [List.append_nil]
      exact applyOperation_get_ne d op stamp (k := .cashMovement) (by decide) (by decide) (by decide)
    · exact fun _ h => absurd h List.not_mem_nil
    · exact applyOperation_get_ne d op stamp (k := .sale) (by decide) (by decide) (by decide)
  | cash m fresh hborn hm =>
    refine ⟨⟨[], (List.append_nil _).symm, fun _ h => absurd h List.not_mem_nil⟩, ⟨[m], rfl, ?_⟩,
      rfl⟩
    exact fun _ h => List.mem_singleton.mp h ▸ hm hplain

theorem aside_of_reaches {sc : Scope} (hplain : sc.plain) (h : ReflTransGen (Scoped sc env) d d') :
    Aside d d' := by
  induction h with
  | refl => exact Aside.refl d
  | tail _ hstep ih => exact ih.trans (hstep.aside hplain)

/-! ## What stays -/

theorem exec_writes (r : Request) (d : Db) :
    ReflTransGen (Write fun _ => True) d (r.exec d) :=
  Call.writes r.env d r.call fun _ _ => .inr trivial

/-- A batch stays its product's, and where it is. -/
theorem writes_batch {free : String → Prop} (h : ReflTransGen (Write free) d d') {b : Batch}
    (hb : b ∈ d.batches) :
    ∃ b' ∈ d'.batches, b'.id = b.id ∧ b'.productId = b.productId ∧
      b'.warehouseId = b.warehouseId := by
  refine Writes.induct (motive := fun d' => ∃ b' ∈ d'.batches, b'.id = b.id ∧
    b'.productId = b.productId ∧ b'.warehouseId = b.warehouseId) ?_ h ⟨b, hb, rfl, rfl, rfl⟩
  rintro d d' hw ⟨b', hmem, hid, hproduct, hwarehouse⟩
  obtain ⟨b'', hmem', hkept⟩ := hw.kept (k := .batch) hmem
  exact ⟨b'', hmem', hkept.1.trans hid, hkept.2.1.trans hproduct, hkept.2.2.1.trans hwarehouse⟩

theorem writes_id {free : String → Prop} (h : ReflTransGen (Write free) d d') {k : Kind}
    {i : String} (hi : i ∈ d.ids k) : i ∈ d'.ids k := by
  refine Writes.induct (motive := fun d' => i ∈ d'.ids k) ?_ h hi
  intro d d' hw hmem
  rcases hw.ids k with heq | ⟨j, -, heq⟩ <;> rw [heq]
  · exact hmem
  · exact List.mem_append_left _ hmem

theorem writes_nodup {free : String → Prop} (h : ReflTransGen (Write free) d d') {k : Kind}
    (hd : (d.ids k).Nodup) : (d'.ids k).Nodup :=
  Writes.induct (motive := fun d' => (d'.ids k).Nodup) (fun _ _ hw => hw.nodup) h hd

/-- The lookup by id finds each row. -/
theorem find_of_mem {k : Kind} (hnodup : (d.ids k).Nodup) {row : Row k} (h : row ∈ d.get k) :
    d.find k (rowId k row) = some row := by
  cases hfind : d.find k (rowId k row) with
  | none =>
    have hnone := List.find?_eq_none.mp hfind row h
    simp at hnone
  | some row' =>
    obtain ⟨hmem, hid⟩ := Db.mem_of_find hfind
    exact congrArg some (List.inj_on_of_nodup_map hnodup hmem h hid)

/-! ## Runs -/

/-- A condition on every request of a run and the state it finds. -/
def Along (P : Db → Request → Prop) : Db → List Request → Prop
  | _, [] => True
  | d, r :: run => P d r ∧ Along P (r.exec d) run

/-- **Invariants of the services**: what every effect preserves holds after every run. -/
theorem along_induct {P : Db → Request → Prop} {Inv : Db → Prop}
    (hservice : ∀ d r, P d r → r.call.Service)
    (hstep : ∀ d r, P d r → Effect r.env d r.call (r.exec d) → Inv d → Inv (r.exec d))
    {d : Db} {run : List Request} (h : Along P d run) (hd : Inv d) : Inv (runAll d run) := by
  induction run generalizing d with
  | nil => exact hd
  | cons r run ih =>
    have heffect : Effect r.env d r.call (r.exec d) := Call.effect _ _ _ (hservice d r h.1)
    exact ih h.2 (hstep d r h.1 heffect hd)

theorem along_append {P : Db → Request → Prop} {run run' : List Request} :
    Along P d (run ++ run') ↔ Along P d run ∧ Along P (runAll d run) run' := by
  induction run generalizing d with
  | nil => exact (iff_of_eq (true_and _)).symm
  | cons r run ih =>
    show P d r ∧ Along P (r.exec d) (run ++ run') ↔ _
    rw [ih, ← and_assoc]
    rfl

theorem along_of_forall {P : Db → Request → Prop} {run : List Request}
    (h : ∀ r ∈ run, ∀ d, P d r) : Along P d run := by
  induction run generalizing d with
  | nil => trivial
  | cons r run ih =>
    exact ⟨h r List.mem_cons_self d, ih fun r' hr' => h r' (List.mem_cons_of_mem _ hr')⟩

end MyOriShop
