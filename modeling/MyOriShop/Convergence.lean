import MyOriShop.Pages

/-!
# Convergence: what a full pull leaves on the device (`app/services/sync_client.py`)

Page by page the server's rows are laid over the device's tables. Up to the cached quantities and
their stamps the result does not depend on the pages: it is `Db.overlaid`. Whether the pages can be
applied does: a card is written under its code at some moment, and any other card of the device that
has the code must have been written before.

* `pullAll` is `_pull_all` over the pages it is answered with.
* `Db.overlaid` is what the pull is for: the server's rows over the device's.
* `PageFits` is the condition on one page: its codes, its dictionary entries, the stock afterwards.

Results:
* `pulled_page`: one page takes the overlay one piece further, exactly when it fits.
* `pull_converges_iff`: a full pull ends with every row of the server exactly when every page fits.
* `not_pull_converges`: two cards whose codes were exchanged on the server stop the pull.
-/

namespace MyOriShop

open Lib.Fallible Lib.Overlay Lib.Paging

variable {driver : Driver} {now : String} {d d' client : Db} {pre rows : List AnyRow}

/-! ## The loop -/

/-- `_pull_all` over the pages of the server: each page is a transaction of its own. The reply is
the number of rows pulled; when a page fails the pages before it stay. -/
def pullAll (driver : Driver) (now : String) : List PullPage → Db → Except Exn Nat × Db
  | [], d => (.ok 0, d)
  | page :: pages, d =>
    if page.records.isEmpty then pullAll driver now pages d
    else match applyPullPage driver now d page.records with
      | .error e => (.error e, d)
      | .ok (d', _) =>
        let (pulled, d'') := pullAll driver now pages d'
        (pulled.map fun n => page.records.length + n, d'')

/-! ## The overlay -/

/-- The device's reference tables under rows of the server. -/
def Db.overlaid (client : Db) (rows : List AnyRow) : Db where
  warehouses := overlay (rowId .warehouse) last client.warehouses (rowsOf .warehouse rows)
  products := overlay (rowId .product) last client.products (rowsOf .product rows)
  customers := overlay (rowId .customer) last client.customers (rowsOf .customer rows)
  dictionary := client.dictionary
  batches := overlay (rowId .batch) last client.batches (rowsOf .batch rows)
  sales := overlay (rowId .sale) last client.sales (rowsOf .sale rows)
  operations := client.operations
  cashMovements := client.cashMovements

/-- The kinds that are matched by id. -/
def Kind.byId (k : Kind) : Prop := k ∈ referenceInsertOrder ∧ k ≠ .dictionary

theorem Db.get_overlaid {k : Kind} (hk : k.byId) (client : Db) (rows : List AnyRow) :
    (client.overlaid rows).get k = overlay (rowId k) last (client.get k) (rowsOf k rows) := by
  cases k with
  | dictionary => exact absurd rfl hk.2
  | operation | cashMovement => exact absurd hk.1 (by decide)
  | warehouse | product | customer | batch | sale => rfl

theorem master_arrived {k : Kind} (hk : k.byId) (r : Row k) :
    master k (arrived k r) = master k r := by
  cases k with
  | operation | cashMovement => exact absurd hk.1 (by decide)
  | warehouse | product | customer | dictionary | batch | sale => rfl

theorem master_adopt (k : Kind) (s r : Row k) : master k (adopt k s r) = master k s := by
  cases k <;> rfl

/-- An upsert, as far as the master data go: the row wins. -/
theorem master_adopted {k : Kind} (base rows : List (Row k)) :
    (overlay (rowId k) (adopt k) base rows).map (master k) =
      (overlay (rowId k) last base rows).map (master k) := by
  have hadopt : ∀ s r : Row k, rowId k s = rowId k r →
      master k (adopt k s r) = last (master k s) (master k r) := fun s r _ => master_adopt k s r
  have hlast : ∀ s r : Row k, rowId k s = rowId k r →
      master k (last s r) = last (master k s) (master k r) := fun s r _ => rfl
  exact (overlay_map (rowId_master k) hadopt base rows).trans
    (overlay_map (rowId_master k) hlast base rows).symm

/-- The master data of an overlay are those of its two sides. -/
theorem master_overlay {k : Kind} {base base' rows rows' : List (Row k)}
    (hbase : base.map (master k) = base'.map (master k))
    (hrows : rows.map (master k) = rows'.map (master k)) :
    (overlay (rowId k) last base rows).map (master k) =
      (overlay (rowId k) last base' rows').map (master k) := by
  have hlast : ∀ base rows : List (Row k), (overlay (rowId k) last base rows).map (master k) =
      overlay (rowId k) last (base.map (master k)) (rows.map (master k)) :=
    overlay_map (rowId_master k) fun s r _ => rfl
  rw [hlast, hlast, hbase, hrows]

theorem ids_of_master {k : Kind} {rows rows' : List (Row k)}
    (h : rows.map (master k) = rows'.map (master k)) :
    rows.map (rowId k) = rows'.map (rowId k) := by
  have hids : ∀ rows : List (Row k), rows.map (rowId k) = (rows.map (master k)).map (rowId k) := by
    intro rows
    rw [List.map_map]
    exact List.map_congr_left fun r _ => (rowId_master k r).symm
  rw [hids, h, ← hids]

/-! ## Codes -/

theorem activeCode_master (p : Product) :
    Product.activeCode (master .product p) = p.activeCode := rfl

theorem activeCodes_of_master {rows rows' : List Product}
    (h : rows.map (master .product) = rows'.map (master .product)) :
    rows.filterMap Product.activeCode = rows'.filterMap Product.activeCode := by
  have hcodes : ∀ rows : List Product, rows.filterMap Product.activeCode =
      (rows.map (master .product)).filterMap Product.activeCode := by
    intro rows
    rw [List.filterMap_map]
    rfl
  rw [hcodes, h, ← hcodes]

/-- **Codes under an overlay** are unique exactly when no entry keeps a code that a row brings. -/
theorem codes_overlay_iff {base rows : List Product} (hbase : (base.map Product.id).Nodup)
    (hbaseCodes : (base.filterMap Product.activeCode).Nodup) (hrows : (rows.map Product.id).Nodup)
    (hrowCodes : (rows.filterMap Product.activeCode).Nodup) :
    ((overlay Product.id last base rows).filterMap Product.activeCode).Nodup ↔
      ∀ s ∈ rows, ∀ x ∈ base, ∀ c, s.activeCode = some c → x.activeCode = some c →
        x.id ∈ rows.map Product.id := by
  constructor
  · intro h s hs x hx c hsc hxc
    by_contra hkept
    have hs' : s ∈ overlay Product.id last base rows := (mem_overlay_last hrows).mpr (.inl hs)
    have hx' : x ∈ overlay Product.id last base rows :=
      (mem_overlay_last hrows).mpr (.inr ⟨hx, hkept⟩)
    have heq := Db.eq_of_nodup_filterMap h hs' hx' hsc hxc
    exact hkept (heq ▸ List.mem_map_of_mem hs)
  · intro h
    have hids := nodup_overlay (keepsKey_last Product.id) hbase hrows
    refine Db.nodup_filterMap_of_inj hids.of_map fun a ha b hb c hac hbc => ?_
    rcases (mem_overlay_last hrows).mp ha with ha | ⟨ha, hkept⟩ <;>
      rcases (mem_overlay_last hrows).mp hb with hb | ⟨hb, hkept'⟩
    · exact Db.eq_of_nodup_filterMap hrowCodes ha hb hac hbc
    · exact absurd (h a ha b hb c hac hbc) hkept'
    · exact absurd (h b hb a ha c hbc hac) hkept
    · exact Db.eq_of_nodup_filterMap hbaseCodes ha hb hac hbc

/-! ## One page -/

/-- The cards a page inserts. -/
def inserted (client : Db) (rows : List AnyRow) : List Product :=
  newRows (k := .product) Product.id client.products (rowsOf .product rows)

/-- The cards a page updates, in its order. -/
def updated (client : Db) (rows : List AnyRow) : List Product :=
  oldRows (k := .product) Product.id client.products (rowsOf .product rows)

/-- A page can be applied after the rows `pre`. -/
structure PageFits (now : String) (client : Db) (pre rows : List AnyRow) : Prop where
  /-- Whenever a card has been written, so has each card of the device that had its code. -/
  codes : ∀ m, m <+: updated client rows → ∀ s ∈ inserted client rows ++ m, ∀ x ∈ client.products,
    ∀ c, s.activeCode = some c → x.activeCode = some c →
      x.id ∈ (rowsOf .product pre ++ (inserted client rows ++ m)).map Product.id
  /-- A dictionary entry with a new code brings a new id. -/
  entries : ∀ e ∈ coded (rowsOf .dictionary rows),
    e.code ∈ client.dictionary.map Dictionary.code ∨ e.id ∉ client.dictionary.map Dictionary.id
  /-- The device's ledger balances over the cards and batches it then has. -/
  stock : StockBalanced ((client.overlaid (pre ++ rows)).recompute now)

/-- A database after the rows `pre`. -/
structure Pulled (client : Db) (pre : List AnyRow) (d : Db) : Prop where
  ok : d.Ok
  rows : ∀ k : Kind, k.byId →
    (d.get k).map (master k) = ((client.overlaid pre).get k).map (master k)
  operations : d.operations = client.operations
  codes : ∀ c, c ∈ d.dictionary.map Dictionary.code ↔ c ∈ client.dictionary.map Dictionary.code ∨
    c ∈ (coded (rowsOf .dictionary pre)).map Dictionary.code
  ids : ∀ i, i ∈ d.dictionary.map Dictionary.id → i ∈ client.dictionary.map Dictionary.id ∨
    i ∈ (rowsOf .dictionary pre).map Dictionary.id
  localIds : ∀ i ∈ client.dictionary.map Dictionary.id, i ∈ d.dictionary.map Dictionary.id

/-- Rows a server hands out: distinct, with distinct codes, and each after its parents. -/
structure Handed (rows : List AnyRow) : Prop where
  distinct : Distinct rows
  codes : ((rowsOf .product rows).filterMap Product.activeCode).Nodup
  parents : ParentsBefore rows

/-- The rows of a page may come together. -/
theorem Handed.page (h : Handed (pre ++ rows)) : Distinct rows where
  keys := h.distinct.keys.sublist ((List.sublist_append_right pre rows).map _)
  codes := by
    refine h.distinct.codes.sublist (List.Sublist.map _ ?_)
    rw [rowsOf_append]
    exact List.sublist_append_right _ _

theorem newRows_congr {k : Kind} {key : Row k → String} {base base' : List (Row k)}
    (h : base.map key = base'.map key) (rows : List (Row k)) :
    newRows key base rows = newRows key base' rows ∧ oldRows key base rows = oldRows key base' rows := by
  unfold newRows oldRows
  rw [h]
  exact ⟨rfl, rfl⟩

/-- The rows of a page lie over the rows before it. -/
theorem overlaid_append {k : Kind} (hk : k.byId) (client : Db)
    (h : ((pre ++ rows).map AnyRow.key).Nodup) :
    (client.overlaid (pre ++ rows)).get k =
      overlay (rowId k) last ((client.overlaid pre).get k) (rowsOf k rows) := by
  have hnodup := nodup_rowsOf h k
  rw [rowsOf_append] at hnodup
  rw [Db.get_overlaid hk, Db.get_overlaid hk, rowsOf_append,
    overlay_overlay (keepsKey_last (rowId k)) hnodup]

theorem Pulled.ids_eq (h : Pulled client pre d) {k : Kind} (hk : k.byId) :
    d.ids k = ((client.overlaid pre).get k).map (rowId k) := ids_of_master (h.rows k hk)

theorem Pulled.mem_ids (h : Pulled client pre d) {k : Kind} (hk : k.byId) {i : String} :
    i ∈ d.ids k ↔ i ∈ client.ids k ∨ i ∈ (rowsOf k pre).map (rowId k) := by
  rw [h.ids_eq hk, Db.get_overlaid hk, mem_keys_overlay (keepsKey_last (rowId k))]
  rfl

theorem byId_parents {k p : Kind} (h : p ∈ Db.parents k) (hk : k ∈ referenceInsertOrder) :
    p.byId := by
  unfold Kind.byId
  revert p
  cases k <;> first | exact absurd hk (by decide) | decide

/-- The parents of a page's rows are there. -/
theorem Pulled.parents (h : Pulled client pre d) (hrows : ParentsBefore (pre ++ rows)) :
    ParentsAmong d referenceInsertOrder rows := by
  intro k hk r hr ref href
  obtain ⟨a, b, rfl⟩ := List.append_of_mem (mem_rowsOf.mp hr)
  obtain ⟨p, hp, rfl⟩ := hrows (pre ++ a) ⟨k, r⟩ b (List.append_assoc ..).symm ref href
  have hparent := byId_parents (Db.mem_parents href) hk
  rcases List.mem_append.mp hp with hp | hp
  · exact .inl ((h.mem_ids hparent).mpr (.inr (List.mem_map_of_mem (mem_rowsOf.mpr hp))))
  · refine .inr ⟨hparent.1, List.mem_map_of_mem (mem_rowsOf.mpr ?_)⟩
    exact List.mem_append_left _ hp

/-- The cards of a state on the way, with those before the page. -/
theorem subperm_onTheWay (pre : List AnyRow) {m : List Product} (hm : m <+: updated client rows) :
    List.Subperm (rowsOf .product pre ++ (inserted client rows ++ m))
      (rowsOf .product (pre ++ rows)) := by
  rw [rowsOf_append]
  exact (List.subperm_append_left _).mpr (subperm_rows hm)

section Page

variable (hpre : Pulled client pre d) (hrows : Handed (pre ++ rows))
include hrows

/-- No row of a page came before. -/
theorem apart {k : Kind} {r : Row k} (hr : r ∈ rowsOf k rows) :
    rowId k r ∉ (rowsOf k pre).map (rowId k) := by
  have hnodup := nodup_rowsOf hrows.distinct.keys k
  rw [rowsOf_append, List.map_append, List.nodup_append] at hnodup
  exact fun hmem => hnodup.2.2 _ hmem _ (List.mem_map_of_mem hr) rfl

/-- No dictionary code of a page came before. -/
theorem code_apart {e : Dictionary} (he : e ∈ rowsOf .dictionary rows) :
    e.code ∉ (rowsOf .dictionary pre).map Dictionary.code := by
  have hnodup := hrows.distinct.codes
  rw [rowsOf_append, List.map_append, List.nodup_append] at hnodup
  exact fun hmem => hnodup.2.2 _ hmem _ (List.mem_map_of_mem he) rfl

include hpre

/-- What is new to the table is new to the device. -/
theorem newRows_eq {k : Kind} (hk : k.byId) :
    newRows (rowId k) (d.get k) (rowsOf k rows) = newRows (rowId k) (client.get k) (rowsOf k rows) ∧
      oldRows (rowId k) (d.get k) (rowsOf k rows) =
        oldRows (rowId k) (client.get k) (rowsOf k rows) := by
  have hids : ∀ r ∈ rowsOf k rows,
      (rowId k r ∈ (d.get k).map (rowId k) ↔ rowId k r ∈ (client.get k).map (rowId k)) :=
    fun r hr => (hpre.mem_ids hk).trans (or_iff_left (apart hrows hr))
  constructor
  · exact List.filter_congr fun r hr => decide_eq_decide.mpr (not_congr (hids r hr))
  · exact List.filter_congr fun r hr => decide_eq_decide.mpr (hids r hr)

/-- The master data in a state on the way. -/
theorem master_onTheWay {k : Kind} (hk : k.byId) (m : List (Row k)) :
    (overlay (rowId k) (adopt k) (d.get k)
      ((newRows (rowId k) (d.get k) (rowsOf k rows)).map (arrived k) ++ m)).map (master k) =
      (overlay (rowId k) last ((client.overlaid pre).get k)
        (newRows (rowId k) (client.get k) (rowsOf k rows) ++ m)).map (master k) := by
  rw [master_adopted, (newRows_eq hpre hrows hk).1]
  refine master_overlay (hpre.rows k hk) ?_
  rw [List.map_append, List.map_append, List.map_map]
  congr 1
  exact List.map_congr_left fun r _ => master_arrived hk r

/-- The table under the page's rows, as far as the master data go. -/
theorem master_laid {k : Kind} (hk : k.byId) :
    (laid k (d.get k) (rowsOf k rows)).map (master k) =
      ((client.overlaid (pre ++ rows)).get k).map (master k) := by
  have hover : (overById k (d.get k) (rowsOf k rows)).map (master k) =
      ((client.overlaid (pre ++ rows)).get k).map (master k) := by
    have hids := hpre.ids_eq hk
    rw [overById, master_onTheWay hpre hrows hk, (newRows_eq hpre hrows hk).2,
      ← (newRows_eq hpre hrows hk).1, ← (newRows_eq hpre hrows hk).2,
      (newRows_congr hids _).1, (newRows_congr hids _).2, overlaid_append hk client hrows.distinct.keys]
    exact congrArg (List.map (master k)) (overlay_partition (nodup_rowsOf
      (hrows.distinct.keys.sublist (List.Sublist.map _ (List.sublist_append_right pre rows))) k))
  cases k with
  | dictionary => exact absurd rfl hk.2
  | operation | cashMovement => exact absurd hk.1 (by decide)
  | warehouse | product | customer | batch | sale => exact hover

/-- The codes in a state on the way. -/
theorem codes_onTheWay {m : List Product} (hm : m <+: updated client rows) :
    (overlay (rowId .product) (adopt .product) (d.get .product)
      ((newRows (rowId .product) (d.get .product) (rowsOf .product rows)).map
        (arrived .product) ++ m)).filterMap Product.activeCode =
      (overlay Product.id last client.products
        (rowsOf .product pre ++ (inserted client rows ++ m))).filterMap Product.activeCode := by
  have hproduct : Kind.product.byId := ⟨by decide, by decide⟩
  have hnodup := Db.nodup_map_of_subperm (subperm_onTheWay pre hm)
    (nodup_rowsOf hrows.distinct.keys .product)
  rw [activeCodes_of_master (master_onTheWay hpre hrows hproduct m), Db.get_overlaid hproduct]
  exact congrArg (List.filterMap Product.activeCode)
    (overlay_overlay (keepsKey_last (rowId .product)) hnodup)

/-- **The cards fit** exactly when no code is brought before it is given up. -/
theorem fits_product (hclient : client.Ok) :
    Fits .product (d.get .product) (rowsOf .product rows) ↔
      ∀ m, m <+: updated client rows → ∀ s ∈ inserted client rows ++ m, ∀ x ∈ client.products, ∀ c,
        s.activeCode = some c → x.activeCode = some c →
          x.id ∈ (rowsOf .product pre ++ (inserted client rows ++ m)).map Product.id := by
  have hproduct : Kind.product.byId := ⟨by decide, by decide⟩
  have hold : oldRows (rowId .product) (d.get .product) (rowsOf .product rows) =
      updated client rows := (newRows_eq hpre hrows hproduct).2
  have hnodup := nodup_rowsOf hrows.distinct.keys .product
  have hsublist : List.Sublist (rowsOf .product pre) (rowsOf .product (pre ++ rows)) := by
    rw [rowsOf_append]
    exact List.sublist_append_left _ _
  -- the cards before the page have met the device's already
  have hbefore : ∀ s ∈ rowsOf .product pre, ∀ x ∈ client.products, ∀ c, s.activeCode = some c →
      x.activeCode = some c → x.id ∈ (rowsOf .product pre).map Product.id := by
    refine (codes_overlay_iff (hclient.nodup .product) hclient.codeActive (hnodup.sublist (hsublist.map _))
      (hrows.codes.sublist (hsublist.filterMap _))).mp ?_
    have hcodes : (d.get .product).filterMap Product.activeCode = _ :=
      activeCodes_of_master (hpre.rows .product hproduct)
    rw [Db.get_overlaid hproduct] at hcodes
    exact hcodes ▸ hpre.ok.codeActive
  rw [Fits, hold]
  refine forall₂_congr fun m hm => ?_
  have hsub := subperm_onTheWay pre hm
  rw [codes_onTheWay hpre hrows hm]
  refine (codes_overlay_iff (hclient.nodup .product) hclient.codeActive
    (Db.nodup_map_of_subperm hsub hnodup) (Db.nodup_filterMap_of_subperm hsub hrows.codes)).trans ?_
  constructor
  · exact fun h s hs => h s (List.mem_append_right _ hs)
  · intro h s hs x hx c hsc hxc
    rcases List.mem_append.mp hs with hs | hs
    · rw [List.map_append]
      exact List.mem_append_left _ (hbefore s hs x hx c hsc hxc)
    · exact h s hs x hx c hsc hxc

/-- **The entries fit** exactly when every new code brings a new id. -/
theorem fits_dictionary :
    Fits .dictionary (d.get .dictionary) (rowsOf .dictionary rows) ↔
      ∀ e ∈ coded (rowsOf .dictionary rows), e.code ∈ client.dictionary.map Dictionary.code ∨
        e.id ∉ client.dictionary.map Dictionary.id := by
  refine forall₂_congr fun e he => or_congr ?_ (not_congr ?_)
  · have hnot : e.code ∉ (coded (rowsOf .dictionary pre)).map Dictionary.code := fun hmem =>
      code_apart hrows (List.mem_of_mem_filter he) (List.map_subset _ (List.filter_subset_self _) hmem)
    exact (hpre.codes e.code).trans (or_iff_left hnot)
  · have hnot := apart (k := .dictionary) hrows (List.mem_of_mem_filter he)
    exact ⟨fun hmem => (hpre.ids e.id hmem).resolve_right hnot, hpre.localIds e.id⟩

/-- The stock after a page is that of the overlay. -/
theorem stock_lay : StockBalanced ((d.lay rows).recompute now) ↔
    StockBalanced ((client.overlaid (pre ++ rows)).recompute now) := by
  refine stockBalanced_of_master hpre.operations ?_ ?_
  · exact master_laid hpre hrows (k := .product) ⟨by decide, by decide⟩
  · exact master_laid hpre hrows (k := .batch) ⟨by decide, by decide⟩

/-- **One page** is applied exactly when it fits. -/
theorem pulled_page_iff (hclient : client.Ok) :
    (∃ n, applyPullPage driver now d (rows.map AnyRow.record) = .ok (d', n)) ↔
      PageFits now client pre rows ∧ d' = (d.lay rows).recompute now := by
  rw [applyPullPage_ok_iff hpre.ok hrows.page (hpre.parents hrows.parents), stock_lay hpre hrows,
    ← and_assoc]
  refine and_congr_left fun _ => ⟨?_, fun h => ⟨fun k hk => ?_, h.stock⟩⟩
  · rintro ⟨hfits, hstock⟩
    exact
      { codes := (fits_product hpre hrows hclient).mp (hfits .product (by decide))
        entries := (fits_dictionary hpre hrows).mp (hfits .dictionary (by decide))
        stock := hstock }
  · cases k with
    | product => exact (fits_product hpre hrows hclient).mpr h.codes
    | dictionary => exact (fits_dictionary hpre hrows).mpr h.entries
    | warehouse | customer | batch | sale | operation | cashMovement => trivial

/-- The database after an applied page. -/
theorem pulled_page {n : Nat}
    (happlied : applyPullPage driver now d (rows.map AnyRow.record) = .ok (d', n))
    (hd' : d' = (d.lay rows).recompute now) : Pulled client (pre ++ rows) d' where
  ok := applyPullPage_ok hpre.ok happlied
  rows k hk := by
    rw [hd', get_recompute, List.map_map, ← master_laid hpre hrows hk, ← Db.get_lay]
    exact List.map_congr_left fun r _ => master_derive ..
  operations := by
    rw [hd']
    exact hpre.operations
  codes c := by
    have hkeys : c ∈ d'.dictionary.map Dictionary.code ↔ c ∈ d.dictionary.map Dictionary.code ∨
        c ∈ (coded (rowsOf .dictionary rows)).map Dictionary.code := by
      rw [hd']
      exact mem_keys_overlay keepsKey_adoptEntry
    rw [hkeys, hpre.codes, rowsOf_append, coded_append, List.map_append, List.mem_append, or_assoc]
  ids i hi := by
    rw [hd'] at hi
    replace hi : i ∈ (overlay Dictionary.code adoptEntry d.dictionary
      (coded (rowsOf .dictionary rows))).map Dictionary.id := hi
    rw [ids_overlay_entry, List.mem_append] at hi
    rw [rowsOf_append, List.map_append, List.mem_append, ← or_assoc]
    refine hi.imp (hpre.ids i) fun hi => ?_
    obtain ⟨e, he, rfl⟩ := List.mem_map.mp hi
    exact List.mem_map_of_mem (List.mem_of_mem_filter (List.mem_of_mem_filter he))
  localIds i hi := by
    rw [hd']
    show i ∈ (overlay Dictionary.code adoptEntry d.dictionary
      (coded (rowsOf .dictionary rows))).map Dictionary.id
    rw [ids_overlay_entry]
    exact List.mem_append_left _ (hpre.localIds i hi)

end Page

/-! ## A full pull -/

/-- Every page with rows fits after the pages before it. -/
def PagesFit (now : String) (client : Db) : List AnyRow → List (List AnyRow) → Prop
  | _, [] => True
  | pre, rows :: chunks =>
    (rows ≠ [] → PageFits now client pre rows) ∧ PagesFit now client (pre ++ rows) chunks

theorem Handed.append_left (h : Handed (pre ++ rows)) : Handed pre where
  distinct :=
    { keys := h.distinct.keys.sublist ((List.sublist_append_left pre rows).map _)
      codes := by
        refine h.distinct.codes.sublist (List.Sublist.map _ ?_)
        rw [rowsOf_append]
        exact List.sublist_append_left _ _ }
  codes := by
    refine h.codes.sublist (List.Sublist.filterMap _ ?_)
    rw [rowsOf_append]
    exact List.sublist_append_left _ _
  parents a r b heq := h.parents a r (b ++ rows) (by rw [heq]; simp)

theorem pullAll_page (driver : Driver) (now : String) (hne : rows ≠ []) (chunks : List (List AnyRow))
    (d : Db) : pullAll driver now ((rows :: chunks).map pageOf) d =
      match applyPullPage driver now d (rows.map AnyRow.record) with
      | .error e => (.error e, d)
      | .ok (d', _) =>
        ((pullAll driver now (chunks.map pageOf) d').1.map fun n => (rows.map AnyRow.record).length + n,
          (pullAll driver now (chunks.map pageOf) d').2) := by
  have hfull : (pageOf rows).records.isEmpty = false := by
    cases rows with
    | nil => exact absurd rfl hne
    | cons r rows => rfl
  rw [List.map_cons, pullAll, hfull]
  rfl

/-- **Page after page**: all are applied exactly when each fits, and then the server's rows lie over
the device's. -/
theorem pullAll_ok_iff (hclient : client.Ok) {chunks : List (List AnyRow)}
    (hrows : Handed (pre ++ chunks.flatten)) (hpre : Pulled client pre d) :
    ((∃ n, (pullAll driver now (chunks.map pageOf) d).1 = .ok n) ↔ PagesFit now client pre chunks) ∧
      ((∃ n, (pullAll driver now (chunks.map pageOf) d).1 = .ok n) →
        Pulled client (pre ++ chunks.flatten) (pullAll driver now (chunks.map pageOf) d).2) := by
  induction chunks generalizing pre d with
  | nil =>
    refine ⟨iff_of_true ⟨0, rfl⟩ trivial, fun _ => ?_⟩
    rwa [List.flatten_nil, List.append_nil]
  | cons rows chunks ih =>
    rw [List.flatten_cons, ← List.append_assoc] at hrows ⊢
    by_cases hne : rows = []
    · subst hne
      rw [List.append_nil] at hrows ⊢
      rw [PagesFit, List.append_nil, and_iff_right (fun h => absurd rfl h)]
      exact ih hrows hpre
    · have hpage := hrows.append_left
      rw [PagesFit, pullAll_page driver now hne]
      cases happlied : applyPullPage driver now d (rows.map AnyRow.record) with
      | error e =>
        refine ⟨iff_of_false (fun ⟨n, h⟩ => nomatch h) fun h => ?_, fun ⟨n, h⟩ => nomatch h⟩
        have hok : ∃ n, applyPullPage driver now d (rows.map AnyRow.record) = .ok (_, n) :=
          (pulled_page_iff hpre hpage hclient).mpr ⟨h.1 hne, rfl⟩
        obtain ⟨n, hok⟩ := hok
        rw [happlied] at hok
        cases hok
      | ok out =>
        obtain ⟨d₁, n₁⟩ := out
        obtain ⟨hfits, hd₁⟩ := (pulled_page_iff hpre hpage hclient).mp ⟨n₁, happlied⟩
        obtain ⟨hiff, hpulled⟩ := ih hrows (pulled_page hpre hpage happlied hd₁)
        have hmap : (∃ n, ((pullAll driver now (chunks.map pageOf) d₁).1.map
            fun n => (rows.map AnyRow.record).length + n) = .ok n) ↔
            ∃ n, (pullAll driver now (chunks.map pageOf) d₁).1 = .ok n := by
          cases (pullAll driver now (chunks.map pageOf) d₁).1 with
          | error e => exact iff_of_false (fun ⟨n, h⟩ => nomatch h) fun ⟨n, h⟩ => nomatch h
          | ok n => exact iff_of_true ⟨_, rfl⟩ ⟨n, rfl⟩
        refine ⟨?_, fun h => hpulled (hmap.mp h)⟩
        rw [and_iff_right fun _ => hfits]
        exact hmap.trans hiff

/-! ## The server's pages -/

/-- The rows of a kind in the stream are those of its table. -/
theorem rowsOf_stream {k : Kind} (hk : k ∈ pullKinds) (server : Db) :
    (rowsOf k (referenceStream server)).Perm (server.get k) := by
  have hrows := rowsOf_flatMap (by decide) hk server.get
  rw [← hrows]
  exact (stream_perm server).filterMap _

/-- What a server hands out is fit to be handed out. -/
theorem handed_stream {server : Db} (hserver : server.Ok)
    (hunique : (pullKinds.flatMap server.ids).Nodup) : Handed (referenceStream server) where
  distinct :=
    { keys := by
        refine (((stream_perm server).map AnyRow.key).nodup_iff).mpr (List.Nodup.of_map Prod.snd ?_)
        have hids : ((referenceRows server).map AnyRow.key).map Prod.snd =
            pullKinds.flatMap server.ids := by
          rw [referenceRows, List.map_map, List.map_flatMap]
          refine List.flatMap_congr fun k _ => ?_
          rw [List.map_map]
          rfl
        rwa [hids]
      codes := by
        have hentries : (rowsOf .dictionary (referenceStream server)).Perm server.dictionary :=
          rowsOf_stream (by decide) server
        exact ((hentries.map Dictionary.code).nodup_iff).mpr hserver.dictionaryCode }
  codes := by
    have hproducts : (rowsOf .product (referenceStream server)).Perm server.products :=
      rowsOf_stream (by decide) server
    exact (hproducts.filterMap Product.activeCode).nodup_iff.mpr hserver.codeActive
  parents := parentsBefore_stream hserver

/-- A database before the first page. -/
theorem pulled_start {client : Db} (hclient : client.Ok) : Pulled client [] client where
  ok := hclient
  rows k hk := by
    rw [Db.get_overlaid hk]
    show _ = (overlay (rowId k) last (client.get k) []).map (master k)
    rw [overlay, List.filter_nil, List.append_nil]
    exact congrArg (List.map (master k)) (List.map_id' (client.get k)).symm
  operations := rfl
  codes c := (or_iff_left List.not_mem_nil).symm
  ids i hi := .inl hi
  localIds i hi := hi

/-- Every reference row of the server is there, up to its cached quantity and its stamp; the
dictionary is matched by code. -/
def Converged (server d : Db) : Prop :=
  ∀ k ∈ pullKinds, k ≠ .dictionary → ∀ s ∈ server.get k, ∃ r ∈ d.get k, master k r = master k s

theorem Pulled.converged {server : Db} (h : Pulled client (referenceStream server) d)
    (hrows : Handed (referenceStream server)) : Converged server d := by
  intro k hk hdictionary s hs
  have hbyId : k.byId := ⟨by revert hk; cases k <;> decide, hdictionary⟩
  have hmem : s ∈ rowsOf k (referenceStream server) := (rowsOf_stream hk server).mem_iff.mpr hs
  have hover : s ∈ (client.overlaid (referenceStream server)).get k := by
    rw [Db.get_overlaid hbyId]
    exact (mem_overlay_last (nodup_rowsOf hrows.distinct.keys k)).mpr (.inl hmem)
  have hmaster : master k s ∈ (d.get k).map (master k) := by
    rw [h.rows k hbyId]
    exact List.mem_map_of_mem hover
  exact List.mem_map.mp hmaster

/-- The pages of a pull hold the stream. -/
theorem pullPages_chunks (server : Database) (hunique : (pullKinds.flatMap server.db.ids).Nodup)
    (limit : Option Int) : ∃ chunks : List (List AnyRow),
      pullPages server.db limit ((referenceStream server.db).length + 1) none none =
        some (chunks.map pageOf) ∧ chunks.flatten = referenceStream server.db := by
  have hserves := serves_reference (fun k => server.ok.nodup k) hunique limit
  have hfirst : pageRows server.db (clampLimit limit) (none, none) =
      ((referenceStream server.db).filter (onFirstPage none)).take (clampLimit limit) := by
    show collectKinds server.db none (clampLimit limit) pullKinds = _
    rw [collectKinds_eq fun k => server.ok.nodup k]
    rfl
  obtain ⟨chunks, a, b, hdrain, hstream, hflat⟩ :=
    hserves.drain_start hfirst (Nat.lt_succ_self _)
  refine ⟨chunks, by rw [pullPages_eq, hdrain]; rfl, ?_⟩
  rw [hflat, hstream, onFirstPage_none, List.filter_eq_self.mpr fun _ _ => rfl]

/-- **A full pull** ends with every row of the server exactly when every page fits. -/
theorem pull_converges_iff (driver : Driver) (now : String) (client server : Database)
    (hunique : (pullKinds.flatMap server.db.ids).Nodup) (limit : Option Int) :
    ∃ chunks, pullPages server.db limit ((referenceStream server.db).length + 1) none none =
        some (chunks.map pageOf) ∧ chunks.flatten = referenceStream server.db ∧
      ((∃ n, (pullAll driver now (chunks.map pageOf) client.db).1 = .ok n ∧
          Converged server.db (pullAll driver now (chunks.map pageOf) client.db).2) ↔
        PagesFit now client.db [] chunks) := by
  obtain ⟨chunks, hpages, hall⟩ := pullPages_chunks server hunique limit
  refine ⟨chunks, hpages, hall, ?_⟩
  have hhanded := handed_stream server.ok hunique
  have hstart : Handed ([] ++ chunks.flatten) := hall.symm ▸ hhanded
  obtain ⟨hiff, hpulled⟩ : (_ ↔ _) ∧ (_ → Pulled client.db ([] ++ chunks.flatten)
      (pullAll driver now (chunks.map pageOf) client.db).2) :=
    pullAll_ok_iff client.ok hstart (pulled_start client.ok)
  rw [← hiff]
  constructor
  · rintro ⟨n, hn, -⟩
    exact ⟨n, hn⟩
  · rintro ⟨n, hn⟩
    have hend := hpulled ⟨n, hn⟩
    rw [List.nil_append, hall] at hend
    exact ⟨n, hn, hend.converged hhanded⟩

theorem pull_converges_oneCard :
    ∃ chunks, pullPages oneCard none 2 none none = some (chunks.map pageOf) ∧
      chunks.flatten = referenceStream oneCard ∧
      ((∃ n, (pullAll Driver.strict "" (chunks.map pageOf) {}).1 = .ok n ∧
          Converged oneCard (pullAll Driver.strict "" (chunks.map pageOf) {}).2) ↔
        PagesFit "" {} [] chunks) :=
  pull_converges_iff Driver.strict "" ⟨{}, by decide⟩ ⟨oneCard, by decide⟩
    (by decide) none

/-- Two cards under two codes. -/
def exchangedCards (first second : String) : Db where
  products := [{ blankProduct "p" "" with code := some first },
    { blankProduct "q" "" with code := some second }]

/-- Two cards have exchanged their codes on the server. -/
theorem not_pull_converges : ¬ ∀ (driver : Driver) (now : String) (client server : Database),
    (pullKinds.flatMap server.db.ids).Nodup → ∃ pages n,
      pullPages server.db none ((referenceStream server.db).length + 1) none none = some pages ∧
        (pullAll driver now pages client.db).1 = .ok n ∧
        Converged server.db (pullAll driver now pages client.db).2 := by
  intro h
  obtain ⟨pages, n, hpages, hn, -⟩ := h Driver.strict "" ⟨exchangedCards "a" "b", by decide⟩
    ⟨exchangedCards "b" "a", by decide⟩ (by decide)
  have hstops : (pullPages (exchangedCards "b" "a") none 3 none none).map (fun pages =>
      (pullAll Driver.strict "" pages (exchangedCards "a" "b")).1.toOption.isNone) = some true := by
    decide
  have hpages' : pullPages (exchangedCards "b" "a") none 3 none none = some pages := hpages
  rw [hpages', Option.map_some] at hstops
  have hn' : (pullAll Driver.strict "" pages (exchangedCards "a" "b")).1 = .ok n := hn
  rw [hn'] at hstops
  cases hstops

end MyOriShop
