import MyOriShop.Constrained
import MyOriShop.Removals

/-!
# Deletions: what may leave the active rows, and come back (`app/services/warehouses.py`,
`catalog.py`)

A deletion stamps `deleted_at`, a restoration clears it. Both warehouses and products refuse to go
while they hold stock, and both guards look at a sum: the warehouse at that of its batches, the
product at its cached quantity. A batch below zero takes its units off the sum.

* `SparesStock d r`: the request deletes nothing that has a batch with units in it, and a refusal
  changes nothing.
* `Uncancelled d r`: where the request finds units, their sum is positive too.
* `KeepsCodes env d id`: a restoration makes the product active, the active codes staying apart, or
  it reports a refusal.

Results:
* `stampProduct_run`, `stampWarehouse_run`: a stamp is published where the codes allow it.
* `spares_stock_iff`: along every run, stock holds a deletion up exactly where no batch below zero
  cancels it.
* `restore_keeps_codes_iff`: a restoration does what it says exactly where no other active product
  has taken the code.
-/

namespace MyOriShop

open Lib.Sums Lib.Transaction

variable {env : Env} {d : Db}

/-! ## A stamp -/

/-- The product with its stamp set or cleared. -/
def Product.stamped (now : String) (deleted : Bool) (p : Product) : Product :=
  { p with deletedAt := if deleted then some now else none, updatedAt := now }

/-- The warehouse with its stamp set or cleared. -/
def Warehouse.stamped (now : String) (deleted : Bool) (w : Warehouse) : Warehouse :=
  { w with deletedAt := if deleted then some now else none, updatedAt := now }

/-- **A stamp** is published where the rows then satisfy the constraints, and raises elsewhere. -/
theorem stampProduct_run (id : String) (deleted : Bool) (s : Lib.Transaction.Session Db) :
    let stamped := s.working.edit .product id
      (Product.stamped (env.clock s.reads).isoformat deleted)
    (stamped.Ok → stampProduct env id deleted s =
      (.ok (), ⟨stamped, stamped, s.reads + 1, s.commits + 1⟩)) ∧
    (¬stamped.Ok → stampProduct env id deleted s =
      (.error .integrity, ⟨s.committed, stamped, s.reads + 1, s.commits⟩)) := by
  intro stamped
  have hrun : stampProduct env id deleted s = if stamped.check then
      (.ok (), ⟨stamped, stamped, s.reads + 1, s.commits + 1⟩)
      else (.error .integrity, ⟨s.committed, stamped, s.reads + 1, s.commits⟩) := rfl
  rw [hrun]
  constructor
  · exact fun h => if_pos ((Db.check_iff _).mpr h)
  · exact fun h => if_neg fun hc => h ((Db.check_iff _).mp hc)

/-- A warehouse's stamp breaks no constraint. -/
theorem stampWarehouse_run (id : String) (deleted : Bool) (s : Lib.Transaction.Session Db)
    (hs : s.working.Ok) :
    let stamped := s.working.edit .warehouse id
      (Warehouse.stamped (env.clock s.reads).isoformat deleted)
    stampWarehouse env id deleted s =
      (.ok (), ⟨stamped, stamped, s.reads + 1, s.commits + 1⟩) := by
  intro stamped
  have hok : stamped.Ok :=
    (Db.ok_edit_iff (k := .warehouse) hs (f := Warehouse.stamped _ deleted) (fun _ => rfl)
      fun _ => rfl).mpr trivial
  exact if_pos ((Db.check_iff _).mpr hok)

theorem Product.activeCode_stamped (now : String) (deleted : Bool) (p : Product) :
    (p.stamped now deleted).activeCode = if deleted then none else p.code := by
  cases deleted <;> rfl

theorem codeTaken_iff {code id : String} : codeTaken d code (some id) = true ↔
    ∃ q ∈ d.products, q.activeCode = some code ∧ q.id ≠ id := by
  simp [codeTaken]

/-- **The codes allow a stamp** that deletes, and one that restores a product whose code no other
active product has. -/
theorem stamped_ok_iff (hd : d.Ok) {p : Product} (hp : p ∈ d.products) (now : String)
    (deleted : Bool) : (d.edit .product p.id (Product.stamped now deleted)).Ok ↔
      deleted = true ∨ ∀ c, p.code = some c → codeTaken d c (some p.id) = false := by
  have hids := hd.nodup .product
  have hrows : (d.edit .product p.id (Product.stamped now deleted)).get .product =
      d.products.map fun r => if r.id = p.id then r.stamped now deleted else r := rfl
  have hcode : ∀ r : Product, ∀ c, r.id = p.id → (r.stamped now deleted).activeCode = some c →
      deleted = false ∧ r.code = some c := by
    intro r c _ h
    rw [Product.activeCode_stamped] at h
    cases deleted with
    | true => cases h
    | false => exact ⟨rfl, h⟩
  rw [Db.ok_edit_iff (k := .product) hd (f := Product.stamped now deleted) (fun _ => rfl)
    fun _ => rfl, hrows]
  constructor
  · intro hnodup
    cases deleted with
    | true => exact .inl rfl
    | false =>
      refine .inr fun c hc => Bool.eq_false_iff.mpr fun htaken => ?_
      obtain ⟨q, hq, hqc, hne⟩ := codeTaken_iff.mp htaken
      have hmem : ∀ r ∈ d.products, (if r.id = p.id then r.stamped now false else r) ∈
          d.products.map fun r => if r.id = p.id then r.stamped now false else r :=
        fun r hr => List.mem_map_of_mem hr
      have hsame := Db.eq_of_nodup_filterMap hnodup (hmem p hp) (hmem q hq) (c := c)
        (by rw [if_pos rfl]; exact hc) (by rw [if_neg hne]; exact hqc)
      rw [if_pos rfl, if_neg hne] at hsame
      exact hne (congrArg Product.id hsame).symm
  · intro hfree
    have hrest : ∀ r ∈ d.products, ∀ c, deleted = false → p.code = some c →
        r.activeCode = some c → r.id ≠ p.id → False := by
      intro r hr c hdeleted hc hrc hne
      rcases hfree with htrue | hfree
      · rw [hdeleted] at htrue
        cases htrue
      · exact absurd (codeTaken_iff.mpr ⟨r, hr, hrc, hne⟩) (Bool.eq_false_iff.mp (hfree c hc))
    have hself : ∀ r ∈ d.products, r.id = p.id → r = p := fun r hr h =>
      List.inj_on_of_nodup_map hids hr hp h
    refine Db.nodup_filterMap_of_inj ?_ ?_
    · refine List.Nodup.of_map Product.id ?_
      have hsame : (d.products.map fun r => if r.id = p.id then r.stamped now deleted else r).map
          Product.id = d.ids .product := by
        rw [List.map_map]
        refine List.map_congr_left fun r _ => ?_
        show (if r.id = p.id then r.stamped now deleted else r).id = r.id
        split_ifs <;> rfl
      rw [hsame]
      exact hids
    · simp only [List.forall_mem_map]
      intro r hr r' hr' c hc hc'
      split_ifs at hc hc' ⊢ with h h' h'
      · rw [hself r hr h, hself r' hr' h']
      · obtain ⟨hdeleted, hcode⟩ := hcode r c h hc
        rw [hself r hr h] at hcode
        exact (hrest r' hr' c hdeleted hcode hc' h').elim
      · obtain ⟨hdeleted, hcode⟩ := hcode r' c h' hc'
        rw [hself r' hr' h'] at hcode
        exact (hrest r hr c hdeleted hcode hc h).elim
      · exact Db.eq_of_nodup_filterMap hd.codeActive hr hr' hc hc'

/-- An id is that of no row, or of one. -/
theorem find_cases {k : Kind} (hids : (d.ids k).Nodup) (id : String) :
    (d.find k id = none ∧ ∀ r ∈ d.get k, rowId k r ≠ id) ∨
      ∃ r ∈ d.get k, d.find k id = some r ∧ rowId k r = id ∧
        ∀ r' ∈ d.get k, rowId k r' = id → r' = r := by
  cases hfind : d.find k id with
  | none =>
    refine .inl ⟨rfl, fun r hr h => ?_⟩
    exact List.find?_eq_none.mp hfind r hr (decide_eq_true h)
  | some r =>
    obtain ⟨hr, hid⟩ := Db.mem_of_find hfind
    refine .inr ⟨r, hr, rfl, hid, fun r' hr' h => ?_⟩
    exact List.inj_on_of_nodup_map hids hr' hr (h.trans hid.symm)

/-! ## Deletions -/

/-- The warehouse is there and not deleted. -/
def ActiveWarehouse (d : Db) (id : String) : Prop :=
  ∃ w ∈ d.warehouses, w.id = id ∧ w.deletedAt = none

/-- The product is there and not deleted. -/
def ActiveProduct (d : Db) (id : String) : Prop :=
  ∃ p ∈ d.products, p.id = id ∧ p.deletedAt = none

/-- The warehouse has a batch with units in it. -/
def WarehouseStocked (d : Db) (id : String) : Prop :=
  ∃ b ∈ d.batches, b.warehouseId = id ∧ 0 < b.quantity

/-- The product has a batch with units in it. -/
def ProductStocked (d : Db) (id : String) : Prop :=
  ∃ b ∈ d.batches, b.productId = id ∧ 0 < b.quantity

/-- Stock holds a deletion up, and a refused deletion changes nothing. -/
def SparesStock (d : Db) (r : Request) : Prop :=
  match r.call with
  | .softDeleteWarehouse id confirm =>
    (ActiveWarehouse d id → WarehouseStocked d id → ActiveWarehouse (r.exec d) id) ∧
      ((softDeleteWarehouse r.env id confirm).reply d ≠ .ok .deleted → r.exec d = d)
  | .quickDeleteProduct id =>
    (ActiveProduct d id → ProductStocked d id → ActiveProduct (r.exec d) id) ∧
      ((quickDeleteProduct r.env id).reply d ≠ .ok (true, none) → r.exec d = d)
  | _ => True

/-- The units of all batches of a warehouse. -/
def warehouseUnits (d : Db) (id : String) : Int :=
  sumOver Batch.quantity (fun b => b.warehouseId = id) d.batches

/-- A deletion of what has units in one batch finds more units than the batches below zero owe, or
is held up as that of the last warehouse. -/
def Uncancelled (d : Db) (r : Request) : Prop :=
  match r.call with
  | .softDeleteWarehouse id confirm =>
    ActiveWarehouse d id → WarehouseStocked d id → 0 < warehouseUnits d id ∨
      confirm = false ∧ (d.warehouses.filter fun w => w.deletedAt.isNone).length ≤ 1
  | .quickDeleteProduct id =>
    ProductStocked d id → ∀ p ∈ d.products, p.id = id → p.deletedAt = none → 0 < p.quantity
  | _ => True

theorem warehouseDeletionBlock_eq_none (hids : (d.ids .warehouse).Nodup) {id : String}
    {confirm : Bool} : warehouseDeletionBlock d id confirm = none ↔
      ActiveWarehouse d id ∧ ¬(0 < warehouseUnits d id ∨
        confirm = false ∧ (d.warehouses.filter fun w => w.deletedAt.isNone).length ≤ 1) := by
  unfold warehouseDeletionBlock
  rcases find_cases hids id with ⟨hfind, hnone⟩ | ⟨w, hw, hfind, hid, hself⟩
  · rw [hfind]
    refine iff_of_false (fun h => by cases h) ?_
    rintro ⟨⟨w, hw, hid, -⟩, -⟩
    exact hnone w hw hid
  · rw [hfind]
    by_cases hactive : Warehouse.deletedAt w = none
    · rw [show (Option.filter (fun w : Row .warehouse => (Warehouse.deletedAt w).isNone) (some w)) =
        some w from Option.filter_some_pos (Option.isNone_iff_eq_none.mpr hactive)]
      show (if 0 < warehouseUnits d id then _ else _) = none ↔ _
      have hthere : ActiveWarehouse d id := ⟨w, hw, hid, hactive⟩
      rw [and_iff_right hthere, not_or, not_and]
      by_cases hunits : 0 < warehouseUnits d id
      · rw [if_pos hunits]
        exact iff_of_false (fun h => by cases h) fun h => h.1 hunits
      · rw [if_neg hunits, and_iff_right hunits]
        cases confirm <;> simp
    · rw [show (Option.filter (fun w : Row .warehouse => (Warehouse.deletedAt w).isNone) (some w)) =
        none from Option.filter_some_eq_none.mpr (by rwa [Option.isNone_iff_eq_none])]
      refine iff_of_false (fun h => by cases h) ?_
      rintro ⟨⟨w', hw', hid', hactive'⟩, -⟩
      rw [hself w' hw' hid'] at hactive'
      exact hactive hactive'

/-- A deleted warehouse is not active. -/
theorem not_active_deleted (id now : String) :
    ¬ActiveWarehouse (d.edit .warehouse id (Warehouse.stamped now true)) id := by
  rintro ⟨w, hw, hid, hactive⟩
  obtain ⟨r, -, hr⟩ := List.mem_map.mp hw
  split_ifs at hr with hrow
  · rw [← hr] at hactive
    cases hactive
  · exact hrow (hr ▸ hid)

theorem not_active_deleted_product (id now : String) :
    ¬ActiveProduct (d.edit .product id (Product.stamped now true)) id := by
  rintro ⟨p, hp, hid, hactive⟩
  obtain ⟨r, -, hr⟩ := List.mem_map.mp hp
  split_ifs at hr with hrow
  · rw [← hr] at hactive
    cases hactive
  · exact hrow (hr ▸ hid)

/-- **The deletion of a warehouse** spares its stock where its units are not cancelled. -/
theorem softDeleteWarehouse_spares (hd : d.Ok) (id : String) (confirm : Bool) :
    SparesStock d ⟨env, .softDeleteWarehouse id confirm⟩ ↔
      Uncancelled d ⟨env, .softDeleteWarehouse id confirm⟩ := by
  have hguards := @warehouseDeletionBlock_eq_none d (hd.nodup .warehouse) id confirm
  have hread : softDeleteWarehouse env id confirm ⟨d, d, 0, 0⟩ = _ :=
    bind_run_ok (show Tx.read ⟨d, d, 0, 0⟩ = (.ok d, ⟨d, d, 0, 0⟩) from rfl)
  have hexec : Request.exec d ⟨env, .softDeleteWarehouse id confirm⟩ =
      (softDeleteWarehouse env id confirm ⟨d, d, 0, 0⟩).2.committed := rfl
  have hreply : (softDeleteWarehouse env id confirm).reply d =
      (softDeleteWarehouse env id confirm ⟨d, d, 0, 0⟩).1 := rfl
  unfold SparesStock Uncancelled
  dsimp only
  rw [hexec, hreply, hread]
  cases hblock : warehouseDeletionBlock d id confirm with
  | some block =>
    have hkept : ActiveWarehouse d id → 0 < warehouseUnits d id ∨
        confirm = false ∧ (d.warehouses.filter fun w => w.deletedAt.isNone).length ≤ 1 := by
      intro hactive
      by_contra hno
      rw [hguards.mpr ⟨hactive, hno⟩] at hblock
      cases hblock
    exact iff_of_true ⟨fun h _ => h, fun _ => rfl⟩ fun hactive _ => hkept hactive
  | none =>
    obtain ⟨hactive, hno⟩ := hguards.mp hblock
    dsimp only
    rw [bind_run_ok (stampWarehouse_run id true ⟨d, d, 0, 0⟩ hd)]
    constructor
    · rintro ⟨hspares, -⟩ _ hstocked
      exact (not_active_deleted _ _ (hspares hactive hstocked)).elim
    · intro huncancelled
      exact ⟨fun _ hstocked => (hno (huncancelled hactive hstocked)).elim, fun h => absurd rfl h⟩

/-- What a deletion of a product does: nothing, where no active product with that id is without
units, and its stamp elsewhere. -/
theorem quickDeleteProduct_run (hd : d.Ok) (id : String) :
    (∃ info, quickDeleteProduct env id ⟨d, d, 0, 0⟩ = (.ok info, ⟨d, d, 0, 0⟩) ∧
      ∀ p ∈ d.products, p.id = id → p.deletedAt = none → 0 < p.quantity) ∨
    ∃ p ∈ d.products, p.id = id ∧ p.deletedAt = none ∧ ¬0 < p.quantity ∧
      ∃ now s, quickDeleteProduct env id ⟨d, d, 0, 0⟩ = (.ok (true, none), s) ∧
        s.committed = d.edit .product id (Product.stamped now true) := by
  have hread : (Tx.read : Act Db) ⟨d, d, 0, 0⟩ = (.ok d, ⟨d, d, 0, 0⟩) := rfl
  unfold quickDeleteProduct
  rw [bind_run_ok hread]
  rcases find_cases (hd.nodup .product) id with ⟨hfind, hnone⟩ | ⟨p, hp, hfind, hid, hself⟩
  · rw [hfind]
    exact .inl ⟨_, rfl, fun p hp hpid => (hnone p hp hpid).elim⟩
  · have hone : ∀ q ∈ d.products, q.id = id → q = p := hself
    rw [hfind]
    dsimp only
    by_cases hdeleted : Product.deletedAt p = none
    · rw [if_neg (by rw [hdeleted]; exact Bool.false_ne_true)]
      by_cases hunits : 0 < Product.quantity p
      · rw [if_pos hunits]
        exact .inl ⟨_, rfl, fun q hq hqid _ => hone q hq hqid ▸ hunits⟩
      · have hok : (d.edit .product id
            (Product.stamped (env.clock (0 : Nat)).isoformat true)).Ok := by
          rw [← show Product.id p = id from hid]
          exact (stamped_ok_iff hd hp _ true).mpr (.inl rfl)
        rw [if_neg hunits, bind_run_ok ((stampProduct_run id true ⟨d, d, 0, 0⟩).1 hok)]
        exact .inr ⟨p, hp, hid, hdeleted, hunits, _, _, rfl, rfl⟩
    · rw [if_pos (Option.isSome_iff_ne_none.mpr hdeleted)]
      exact .inl ⟨_, rfl, fun q hq hqid hactive => (hdeleted (hone q hq hqid ▸ hactive)).elim⟩

/-- **The deletion of a product** spares its stock where its units are not cancelled. -/
theorem quickDeleteProduct_spares (hd : d.Ok) (id : String) :
    SparesStock d ⟨env, .quickDeleteProduct id⟩ ↔ Uncancelled d ⟨env, .quickDeleteProduct id⟩ := by
  have hexec : Request.exec d ⟨env, .quickDeleteProduct id⟩ =
      (quickDeleteProduct env id ⟨d, d, 0, 0⟩).2.committed := rfl
  have hreply : (quickDeleteProduct env id).reply d =
      (quickDeleteProduct env id ⟨d, d, 0, 0⟩).1 := rfl
  unfold SparesStock Uncancelled
  dsimp only
  rw [hexec, hreply]
  rcases @quickDeleteProduct_run env d hd id with ⟨info, hrun, hunits⟩ |
    ⟨p, hp, hid, hactive, hunits, now, s, hrun, hs⟩
  · rw [hrun]
    exact iff_of_true ⟨fun h _ => h, fun _ => rfl⟩ fun _ => hunits
  · rw [hrun, hs]
    constructor
    · rintro ⟨hspares, -⟩ hstocked
      exact (not_active_deleted_product _ _ (hspares ⟨p, hp, hid, hactive⟩ hstocked)).elim
    · intro huncancelled
      exact ⟨fun _ hstocked => (hunits (huncancelled hstocked p hp hid hactive)).elim,
        fun h => absurd rfl h⟩

/-- **Stock on hand** holds a deletion up, in every run from every database, exactly where its units
are not cancelled by batches below zero. -/
theorem spares_stock_iff (d : Database) (run : List Request) :
    Along (fun d r => SparesStock d r ↔ Uncancelled d r) d.db run := by
  obtain ⟨found, hok⟩ := d
  dsimp only
  induction run generalizing found with
  | nil => trivial
  | cons r run ih =>
    refine ⟨?_, ih _ (Call.constrained r.env r.call hok)⟩
    obtain ⟨env, call⟩ := r
    cases call with
    | softDeleteWarehouse id confirm => exact softDeleteWarehouse_spares hok id confirm
    | quickDeleteProduct id => exact quickDeleteProduct_spares hok id
    | _ => exact Iff.rfl

/-- One unit in each of two batches of a warehouse, and a confirmed sale of eleven units of the
first one. -/
def oversellRun : List Request :=
  dearReturn.take 3 ++ [atShop (.sale { sellFirst with qtys := ["11"], confirm := "1" })]

/-- The unit in the other batch holds up neither the deletion of the warehouse nor that of the
product. -/
theorem not_spares_stock :
    ¬Along SparesStock {} (oversellRun ++ [atShop (.softDeleteWarehouse "x" true)]) ∧
      ¬Along SparesStock {} (oversellRun ++ [atShop (.quickDeleteProduct "xx")]) := by
  have hok : (runAll {} oversellRun).Ok := runAll_ok (by decide)
  constructor
  · intro h
    have huncancelled := (softDeleteWarehouse_spares hok "x" true).mp (along_append.mp h).2.1
    have hactive : ActiveWarehouse (runAll {} oversellRun) "x" := by
      unfold ActiveWarehouse
      decide +kernel
    have hstocked : WarehouseStocked (runAll {} oversellRun) "x" := by
      unfold WarehouseStocked
      decide +kernel
    rcases huncancelled hactive hstocked with hunits | ⟨hconfirm, -⟩
    · exact absurd hunits (by decide +kernel)
    · cases hconfirm
  · intro h
    have huncancelled := (quickDeleteProduct_spares hok "xx").mp (along_append.mp h).2.1
    have hstocked : ProductStocked (runAll {} oversellRun) "xx" := by
      unfold ProductStocked
      decide +kernel
    have hfound : ∃ p ∈ (runAll {} oversellRun).products, p.id = "xx" ∧ p.deletedAt = none ∧
        p.quantity ≤ 0 := by
      decide +kernel
    obtain ⟨p, hp, hid, hactive, hunits⟩ := hfound
    exact absurd (huncancelled hstocked p hp hid hactive) (not_lt.mpr hunits)

/-! ## Restorations -/

/-- A restoration makes the product active and leaves the active codes apart, or it changes nothing
and its caller gets a refusal. It returns nothing, so that a refusal could only be an exception of
its own: that of the index is none. -/
def KeepsCodes (env : Env) (d : Db) (id : String) : Prop :=
  ((restoreProduct env id).reply d = .ok () ∧ ActiveProduct ((restoreProduct env id).exec d) id ∧
      ((restoreProduct env id).exec d).activeCodes.Nodup ∨
    (restoreProduct env id).exec d = d ∧
      ∃ e, (restoreProduct env id).reply d = .error e ∧ e ≠ .integrity) ∧
    (restoreProduct env id).reply d ≠ .error .integrity

theorem restoreProduct_run {p : Product} (hd : d.Ok) (hp : p ∈ d.products) :
    restoreProduct env p.id ⟨d, d, 0, 0⟩ =
      if p.deletedAt.isNone then (.ok (), ⟨d, d, 0, 0⟩)
      else stampProduct env p.id false ⟨d, d, 0, 0⟩ := by
  have hfind : d.find .product p.id = some p := find_of_mem (hd.nodup .product) hp
  unfold restoreProduct
  rw [bind_run_ok (show (Tx.read : Act Db) ⟨d, d, 0, 0⟩ = (.ok d, ⟨d, d, 0, 0⟩) from rfl), hfind]
  by_cases hactive : p.deletedAt.isNone = true
  · rw [if_pos hactive]
    exact congrFun (if_pos hactive) _
  · rw [if_neg hactive]
    exact congrFun (if_neg hactive) _

/-- A restored product is active. -/
theorem active_restored {p : Product} (hp : p ∈ d.products) (now : String) :
    ActiveProduct (d.edit .product p.id (Product.stamped now false)) p.id := by
  exact ⟨p.stamped now false, List.mem_map.mpr ⟨p, hp, if_pos rfl⟩, rfl, rfl⟩

theorem keepsCodes_iff {p : Product} (hd : d.Ok) (hp : p ∈ d.products) : KeepsCodes env d p.id ↔
    p.deletedAt = none ∨ ∀ c, p.code = some c → codeTaken d c (some p.id) = false := by
  have hrun := @restoreProduct_run env d p hd hp
  unfold KeepsCodes Tx.exec Tx.reply
  rw [hrun]
  by_cases hactive : p.deletedAt = none
  · rw [if_pos (by rw [hactive]; rfl)]
    exact iff_of_true ⟨.inl ⟨rfl, ⟨p, hp, rfl, hactive⟩, hd.codeActive⟩, by simp⟩ (.inl hactive)
  · rw [if_neg (by rwa [Option.isNone_iff_eq_none]), or_iff_right hactive]
    have hstamp := @stampProduct_run env p.id false ⟨d, d, 0, 0⟩
    have hcodes := stamped_ok_iff hd hp (env.clock (0 : Nat)).isoformat false
    rw [or_iff_right Bool.false_ne_true] at hcodes
    rw [← hcodes]
    constructor
    · rintro ⟨-, hno⟩
      by_contra hbroken
      rw [hstamp.2 hbroken] at hno
      exact hno rfl
    · intro hok
      rw [hstamp.1 hok]
      exact ⟨.inl ⟨rfl, active_restored hp _, hok.codeActive⟩, by simp⟩

/-- **A restoration** keeps the active codes apart, or refuses, exactly where the product is active
or no other active product has its code; an unknown id changes nothing. -/
theorem restore_keeps_codes_iff (env : Env) (d : Database) :
    (∀ p ∈ d.db.products, KeepsCodes env d.db p.id ↔
      p.deletedAt = none ∨ ∀ c, p.code = some c → codeTaken d.db c (some p.id) = false) ∧
    ∀ id ∉ d.db.ids .product, restoreProduct env id ⟨d.db, d.db, 0, 0⟩ =
      (.ok (), ⟨d.db, d.db, 0, 0⟩) := by
  refine ⟨fun p hp => keepsCodes_iff d.ok hp, fun id hid => ?_⟩
  have hfind : d.db.find .product id = none := by
    refine List.find?_eq_none.mpr fun p hp h => hid ?_
    exact List.mem_map.mpr ⟨p, hp, of_decide_eq_true h⟩
  unfold restoreProduct
  rw [bind_run_ok (show (Tx.read : Act Db) ⟨d.db, d.db, 0, 0⟩ =
    (.ok d.db, ⟨d.db, d.db, 0, 0⟩) from rfl), hfind]
  rfl

/-- A product is created and deleted. -/
def deletedCard : List Request :=
  let form : ProductForm := { code := "c", name := "n", category := "", costRaw := "", saleRaw := "" }
  [atShop (.createProduct form), atShop (.softDeleteProduct "x")]

/-- The deleted product is restored. -/
theorem restore_keeps_codes_deletedCard : ∃ p ∈ (afterRun deletedCard).db.products,
    p.deletedAt ≠ none ∧ KeepsCodes Env.sample (afterRun deletedCard).db p.id := by
  have hfound : ∃ p ∈ (runAll {} deletedCard).products, p.deletedAt ≠ none ∧
      ∀ c ∈ p.code.toList, codeTaken (runAll {} deletedCard) c (some p.id) = false := by
    decide
  obtain ⟨p, hp, hdeleted, hfree⟩ := hfound
  refine ⟨p, hp, hdeleted,
    ((restore_keeps_codes_iff Env.sample (afterRun deletedCard)).1 p hp).mpr (.inr fun c hc => ?_)⟩
  exact hfree c (Option.mem_toList.mpr hc)

/-- After the deletion its code goes to a second product. -/
def reusedCode : List Request := deletedCard ++ deletedCard.take 1

/-- The deleted product cannot come back. -/
theorem not_restore_keeps_codes : ¬∀ (env : Env) (d : Database), ∀ p ∈ d.db.products,
    KeepsCodes env d.db p.id := by
  intro h
  have hfound : ∃ p ∈ (runAll {} reusedCode).products, p.deletedAt ≠ none ∧ p.code = some "c" ∧
      codeTaken (runAll {} reusedCode) "c" (some p.id) = true := by
    decide
  obtain ⟨p, hp, hdeleted, hcode, htaken⟩ := hfound
  have hkeeps := h Env.sample (afterRun reusedCode) p hp
  rcases (keepsCodes_iff (afterRun reusedCode).ok hp).mp hkeeps with hactive | hfree
  · exact hdeleted hactive
  · exact Bool.false_ne_true ((hfree "c" hcode).symm.trans htaken)

end MyOriShop
