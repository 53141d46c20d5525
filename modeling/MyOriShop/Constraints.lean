import Mathlib.Data.List.Perm.Subperm
import MyOriShop.Models

/-!
# Constraints: one database against another (`app/models.py`)

`Db.Ok` splits into what forbids rows (the unique keys) and what demands rows (the foreign keys).
Fewer rows keep the first, more parents keep the second.

* `references` lists the foreign keys of a row, `parents` the tables they point into.
* `Db.Within` says that every table of one database is part of the other's, in any order.
* `Db.append` adds rows to every table.

Results:
* `Db.ok_iff`: the constraints are the unique keys and the foreign keys.
* `Db.Unique.within`, `ok_of_perm`: both survive a reordering, the unique keys any loss of rows.
* `ok_set_iff`, `ok_edit_iff`: what one table's rows owe when the others stay.
* `ok_insert_of_append`: a table may be filled before the tables that refer to it.
-/

namespace MyOriShop

namespace Db

/-- The tables are the rows of every kind. -/
theorem ext_get {d d' : Db} (h : ∀ k, d.get k = d'.get k) : d = d' := by
  obtain ⟨w, p, c, e, b, s, o, m⟩ := d
  obtain ⟨w', p', c', e', b', s', o', m'⟩ := d'
  rw [show w = w' from h .warehouse, show p = p' from h .product, show c = c' from h .customer,
    show e = e' from h .dictionary, show b = b' from h .batch, show s = s' from h .sale,
    show o = o' from h .operation, show m = m' from h .cashMovement]

/-- Rows added to every table. -/
def append (d : Db) (rows : (k : Kind) → List (Row k)) : Db where
  warehouses := d.warehouses ++ rows .warehouse
  products := d.products ++ rows .product
  customers := d.customers ++ rows .customer
  dictionary := d.dictionary ++ rows .dictionary
  batches := d.batches ++ rows .batch
  sales := d.sales ++ rows .sale
  operations := d.operations ++ rows .operation
  cashMovements := d.cashMovements ++ rows .cashMovement

@[simp] theorem get_append (d : Db) (rows : (k : Kind) → List (Row k)) (k : Kind) :
    (d.append rows).get k = d.get k ++ rows k := by
  cases k <;> rfl

theorem append_append (d : Db) (rows rows' : (k : Kind) → List (Row k)) :
    (d.append rows).append rows' = d.append fun k => rows k ++ rows' k :=
  ext_get fun k => by simp

theorem append_nil (d : Db) : (d.append fun _ => []) = d := ext_get fun k => by simp

theorem get_insert_same (d : Db) (k : Kind) (rows : List (Row k)) :
    (d.insert k rows).get k = d.get k ++ rows := by
  rw [insert, get_set_same]

theorem get_insert_ne (d : Db) {k k' : Kind} (h : k' ≠ k) (rows : List (Row k)) :
    (d.insert k rows).get k' = d.get k' := by
  rw [insert, get_set_ne d h]

/-! ## Unique keys -/

/-- The keys no two rows of a table may share. -/
structure Unique (d : Db) : Prop where
  pk : ∀ k, ((d.get k).map (rowId k)).Nodup
  codeActive : ((d.get .product).filterMap Product.activeCode).Nodup
  dictionaryCode : ((d.get .dictionary).map Dictionary.code).Nodup
  operationSeq : ((d.get .operation).map fun o => (o.deviceId, o.seq)).Nodup
  cashSeq : ((d.get .cashMovement).map fun m => (m.deviceId, m.seq)).Nodup

/-- Every table is part of the other's, in any order. -/
def Within (d d' : Db) : Prop := ∀ k, List.Subperm (d.get k) (d'.get k)

/-- The same rows in every table, in any order. -/
def Same (d d' : Db) : Prop := ∀ k, List.Perm (d.get k) (d'.get k)

theorem Same.within {d d' : Db} (h : Same d d') : Within d d' := fun k => (h k).subperm

theorem Same.symm {d d' : Db} (h : Same d d') : Same d' d := fun k => (h k).symm

theorem within_append (d : Db) (rows : (k : Kind) → List (Row k)) : Within d (d.append rows) := by
  intro k
  rw [get_append]
  exact (List.sublist_append_left _ _).subperm

theorem nodup_filterMap_of_subperm {α β : Type} {l l' : List α} {f : α → Option β}
    (h : List.Subperm l l') (hl' : (l'.filterMap f).Nodup) : (l.filterMap f).Nodup := by
  obtain ⟨m, hperm, hsub⟩ := h
  exact ((hperm.filterMap f).nodup_iff).mp ((hsub.filterMap f).nodup hl')

theorem nodup_map_of_subperm {α β : Type} {l l' : List α} {f : α → β} (h : List.Subperm l l')
    (hl' : (l'.map f).Nodup) : (l.map f).Nodup := by
  obtain ⟨m, hperm, hsub⟩ := h
  exact ((hperm.map f).nodup_iff).mp ((hsub.map f).nodup hl')

/-- A key that occurs once belongs to one row. -/
theorem eq_of_nodup_filterMap {α β : Type} {l : List α} {f : α → Option β}
    (hl : (l.filterMap f).Nodup) {a b : α} {c : β} (ha : a ∈ l) (hb : b ∈ l) (hac : f a = some c)
    (hbc : f b = some c) : a = b := by
  induction l with
  | nil => exact absurd ha List.not_mem_nil
  | cons x l ih =>
    have hrest : (l.filterMap f).Nodup := hl.sublist ((List.sublist_cons_self x l).filterMap f)
    have hhead : ∀ y ∈ l, f x = some c → f y = some c → False := by
      intro y hy hx hyc
      rw [List.filterMap_cons_some hx, List.nodup_cons] at hl
      exact hl.1 (List.mem_filterMap.mpr ⟨y, hy, hyc⟩)
    rcases List.mem_cons.mp ha with hax | hal <;> rcases List.mem_cons.mp hb with hbx | hbl
    · exact hax.trans hbx.symm
    · exact (hhead b hbl (hax ▸ hac) hbc).elim
    · exact (hhead a hal (hbx ▸ hbc) hac).elim
    · exact ih hrest hal hbl

/-- Keys that belong to one row each occur once. -/
theorem nodup_filterMap_of_inj {α β : Type} {l : List α} {f : α → Option β} (hl : l.Nodup)
    (h : ∀ a ∈ l, ∀ b ∈ l, ∀ c, f a = some c → f b = some c → a = b) : (l.filterMap f).Nodup := by
  induction l with
  | nil => exact List.nodup_nil
  | cons a l ih =>
    obtain ⟨ha, hl⟩ := List.nodup_cons.mp hl
    have hrest := ih hl fun b hb b' hb' => h b (List.mem_cons_of_mem _ hb) b' (List.mem_cons_of_mem _ hb')
    cases hfa : f a with
    | none => rwa [List.filterMap_cons_none hfa]
    | some c =>
      rw [List.filterMap_cons_some hfa, List.nodup_cons]
      refine ⟨fun hmem => ?_, hrest⟩
      obtain ⟨b, hb, hfb⟩ := List.mem_filterMap.mp hmem
      exact ha (h a List.mem_cons_self b (List.mem_cons_of_mem _ hb) c hfa hfb ▸ hb)

/-- Fewer rows keep the unique keys. -/
theorem Unique.within {d d' : Db} (hw : Within d d') (h : d'.Unique) : d.Unique where
  pk k := nodup_map_of_subperm (hw k) (h.pk k)
  codeActive := nodup_filterMap_of_subperm (hw .product) h.codeActive
  dictionaryCode := nodup_map_of_subperm (hw .dictionary) h.dictionaryCode
  operationSeq := nodup_map_of_subperm (hw .operation) h.operationSeq
  cashSeq := nodup_map_of_subperm (hw .cashMovement) h.cashSeq

/-- The keys of a table besides its primary key. -/
def KeysOk : (k : Kind) → List (Row k) → Prop
  | .product, rows => (rows.filterMap Product.activeCode).Nodup
  | .dictionary, rows => (rows.map Dictionary.code).Nodup
  | .operation, rows => (rows.map fun (o : Operation) => (o.deviceId, o.seq)).Nodup
  | .cashMovement, rows => (rows.map fun (m : CashMovement) => (m.deviceId, m.seq)).Nodup
  | .warehouse, _ | .customer, _ | .batch, _ | .sale, _ => True

/-- The unique keys, table by table. -/
theorem unique_iff {d : Db} :
    d.Unique ↔ ∀ k, ((d.get k).map (rowId k)).Nodup ∧ KeysOk k (d.get k) := by
  constructor
  · intro h k
    refine ⟨h.pk k, ?_⟩
    cases k with
    | product => exact h.codeActive
    | dictionary => exact h.dictionaryCode
    | operation => exact h.operationSeq
    | cashMovement => exact h.cashSeq
    | warehouse | customer | batch | sale => trivial
  · exact fun h => ⟨fun k => (h k).1, (h .product).2, (h .dictionary).2, (h .operation).2,
      (h .cashMovement).2⟩

/-! ## Foreign keys -/

/-- The foreign keys of a row. -/
def references : (k : Kind) → Row k → List (Kind × String)
  | .operation, (o : Operation) => [(.product, o.productId)]
  | .batch, (b : Batch) => [(.product, b.productId), (.warehouse, b.warehouseId)]
  | .sale, (s : Sale) => s.customerId.toList.map fun c => (.customer, c)
  | .cashMovement, (m : CashMovement) => m.saleId.toList.map fun s => (.sale, s)
  | .warehouse, _ | .product, _ | .customer, _ | .dictionary, _ => []

/-- The tables the foreign keys of a kind point into. -/
def parents : Kind → List Kind
  | .operation => [.product]
  | .batch => [.product, .warehouse]
  | .sale => [.customer]
  | .cashMovement => [.sale]
  | .warehouse | .product | .customer | .dictionary => []

theorem mem_parents {k : Kind} {r : Row k} {ref : Kind × String} (h : ref ∈ references k r) :
    ref.1 ∈ parents k := by
  cases k with
  | warehouse | product | customer | dictionary => exact absurd h List.not_mem_nil
  | operation =>
    rw [List.mem_singleton.mp h]
    exact List.mem_singleton_self _
  | batch =>
    rcases List.mem_pair.mp h with rfl | rfl
    · exact List.mem_cons_self
    · exact List.mem_cons_of_mem _ (List.mem_singleton_self _)
  | sale | cashMovement =>
    obtain ⟨i, -, rfl⟩ := List.mem_map.mp h
    exact List.mem_singleton_self _

/-- Every foreign key points at a row. -/
def Linked (d : Db) : Prop :=
  ∀ k, ∀ r ∈ d.get k, ∀ ref ∈ references k r, ref.2 ∈ (d.get ref.1).map (rowId ref.1)

/-- **The constraints** are the unique keys and the foreign keys. -/
theorem ok_iff {d : Db} : d.Ok ↔ d.Unique ∧ d.Linked := by
  constructor
  · intro h
    refine ⟨⟨h.nodup, h.codeActive, h.dictionaryCode, h.operationSeq, h.cashSeq⟩, ?_⟩
    intro k r hr ref href
    cases k with
    | warehouse | product | customer | dictionary => exact absurd href List.not_mem_nil
    | operation =>
      rw [List.mem_singleton.mp href]
      exact h.operationProduct r hr
    | batch =>
      rcases List.mem_pair.mp href with rfl | rfl
      · exact h.batchProduct r hr
      · exact h.batchWarehouse r hr
    | sale =>
      obtain ⟨c, hc, rfl⟩ := List.mem_map.mp href
      exact h.saleCustomer r hr c (Option.mem_toList.mp hc)
    | cashMovement =>
      obtain ⟨s, hs, rfl⟩ := List.mem_map.mp href
      exact h.cashSale r hr s (Option.mem_toList.mp hs)
  · rintro ⟨hu, hl⟩
    exact
      { pk := fun k _ => hu.pk k
        codeActive := hu.codeActive
        dictionaryCode := hu.dictionaryCode
        operationSeq := hu.operationSeq
        cashSeq := hu.cashSeq
        operationProduct := fun o ho =>
          hl .operation o ho (.product, o.productId) (List.mem_singleton_self _)
        batchProduct := fun b hb => hl .batch b hb (.product, b.productId) List.mem_cons_self
        batchWarehouse := fun b hb =>
          hl .batch b hb (.warehouse, b.warehouseId) (List.mem_cons_of_mem _ (List.mem_singleton_self _))
        saleCustomer := fun s hs c hc =>
          hl .sale s hs (.customer, c) (List.mem_map.mpr ⟨c, Option.mem_toList.mpr hc, rfl⟩)
        cashSale := fun m hm s hs =>
          hl .cashMovement m hm (.sale, s) (List.mem_map.mpr ⟨s, Option.mem_toList.mpr hs, rfl⟩) }

/-- **One table replaced** by rows with at least its ids: its own keys and references decide. -/
theorem ok_set_iff {d : Db} {k : Kind} {rows : List (Row k)} (hd : d.Ok)
    (hids : d.ids k ⊆ rows.map (rowId k)) : (d.set k rows).Ok ↔ (rows.map (rowId k)).Nodup ∧
      KeysOk k rows ∧ ∀ r ∈ rows, ∀ ref ∈ references k r, ref.2 ∈ (d.set k rows).ids ref.1 := by
  obtain ⟨hu, hl⟩ := ok_iff.mp hd
  rw [ok_iff, unique_iff]
  constructor
  · rintro ⟨hunique, hlinked⟩
    have hk := hunique k
    rw [get_set_same] at hk
    exact ⟨hk.1, hk.2, fun r hr => hlinked k r (by rwa [get_set_same])⟩
  · rintro ⟨hpk, hkeys, hrefs⟩
    refine ⟨fun k' => ?_, fun k' r hr ref href => ?_⟩
    · by_cases hk : k' = k
      · subst hk
        rw [get_set_same]
        exact ⟨hpk, hkeys⟩
      · rw [get_set_ne d hk]
        exact unique_iff.mp hu k'
    · by_cases hk : k' = k
      · subst hk
        rw [get_set_same] at hr
        exact hrefs r hr ref href
      · rw [get_set_ne d hk] at hr
        have hmem := hl k' r hr ref href
        by_cases hk' : ref.1 = k
        · obtain ⟨k', i⟩ := ref
          subst hk'
          rw [get_set_same]
          exact hids hmem
        · rwa [get_set_ne d hk']

/-- **Rows edited** under their ids and references: the keys of their table decide. -/
theorem ok_edit_iff {d : Db} {k : Kind} {id : String} {f : Row k → Row k} (hd : d.Ok)
    (hid : ∀ r, rowId k (f r) = rowId k r) (href : ∀ r, references k (f r) = references k r) :
    (d.edit k id f).Ok ↔ KeysOk k ((d.edit k id f).get k) := by
  have hids : ((d.get k).map fun r => if rowId k r = id then f r else r).map (rowId k) =
      d.ids k := by
    rw [List.map_map]
    refine List.map_congr_left fun r _ => ?_
    show rowId k (if rowId k r = id then f r else r) = rowId k r
    split_ifs
    · exact hid r
    · rfl
  have htables : ∀ k', (d.edit k id f).ids k' = d.ids k' := by
    intro k'
    by_cases hk : k' = k
    · subst hk
      rw [ids, edit, get_set_same, hids]
    · rw [ids, edit, get_set_ne d hk, ids]
  unfold edit at htables ⊢
  rw [ok_set_iff hd (hids.symm ▸ List.Subset.refl _), get_set_same, hids]
  refine ⟨fun h => h.2.1, fun h => ⟨hd.nodup k, h, ?_⟩⟩
  rw [List.forall_mem_map]
  intro r hr ref hmem
  have hmem' : ref ∈ references k r := by
    split_ifs at hmem
    · rwa [href] at hmem
    · exact hmem
  rw [htables]
  exact (ok_iff.mp hd).2 k r hr ref hmem'

/-- The constraints do not see the order of the rows. -/
theorem ok_of_perm {d d' : Db} (h : Same d d') (hd : d.Ok) : d'.Ok := by
  obtain ⟨hu, hl⟩ := ok_iff.mp hd
  refine ok_iff.mpr ⟨hu.within h.symm.within, fun k r hr ref href => ?_⟩
  exact ((h ref.1).map (rowId ref.1)).subset (hl k r ((h k).mem_iff.mpr hr) ref href)

theorem ok_perm_iff {d d' : Db} (h : Same d d') : d.Ok ↔ d'.Ok :=
  ⟨ok_of_perm h, ok_of_perm h.symm⟩

/-- **Parents first**: a table may be filled when its parents' tables are complete, whatever the
other tables still lack. -/
theorem ok_insert_of_append {d : Db} (rows : (k : Kind) → List (Row k)) (hd : d.Ok)
    (hall : (d.append rows).Ok) (k : Kind) (hparents : ∀ p ∈ parents k, p ≠ k ∧ rows p = []) :
    (d.insert k (rows k)).Ok := by
  obtain ⟨hu, hl⟩ := ok_iff.mp hall
  obtain ⟨-, hl₀⟩ := ok_iff.mp hd
  have hget : ∀ k', (d.insert k (rows k)).get k' = d.get k' ∨
      (d.insert k (rows k)).get k' = (d.append rows).get k' := by
    intro k'
    by_cases hk : k' = k
    · subst hk
      exact .inr (by rw [get_insert_same, get_append])
    · exact .inl (get_insert_ne d hk _)
  have hsub : ∀ k', (d.get k') ⊆ (d.insert k (rows k)).get k' := by
    intro k'
    by_cases hk : k' = k
    · subst hk
      rw [get_insert_same]
      exact List.subset_append_left _ _
    · rw [get_insert_ne d hk]
      exact fun _ h => h
  refine ok_iff.mpr ⟨hu.within fun k' => ?_, fun k' r hr ref href => ?_⟩
  · rcases hget k' with h | h <;> rw [h]
    · exact within_append d rows k'
  · by_cases hk : k' = k
    · subst hk
      -- the parents' tables are complete already
      obtain ⟨hne, hnone⟩ := hparents ref.1 (mem_parents href)
      have hmem := hl k' r (by rw [get_append]; rwa [get_insert_same] at hr) ref href
      rw [get_append, hnone, List.append_nil] at hmem
      rwa [get_insert_ne d hne]
    · rw [get_insert_ne d hk] at hr
      exact List.map_subset _ (hsub ref.1) (hl₀ k' r hr ref href)

end Db

end MyOriShop
