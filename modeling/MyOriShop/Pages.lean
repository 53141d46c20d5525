import MyOriShop.DictionaryPull

/-!
# Pages: what one page makes of the tables (`app/services/sync_client.py`)

`_apply_pull_page` writes kind by kind, and within a kind statement by statement. Its effect is that
the rows of the page are laid over the tables; what can go wrong on the way depends on each table
alone, as long as the parents of the rows are there.

* `rowsOf` are the rows of a kind among the rows of a page, `laid` the table under them.
* `Fits` is what a table's own keys demand of the rows, in every state on the way.

Results:
* `upsertKinds_ok_iff`: a page is taken in exactly when the rows of each kind fit its table.
* `applyPullPage_ok_iff`: and it is applied exactly when then the stock check passes.
-/

namespace MyOriShop

open Lib.Fallible Lib.Overlay

variable {driver : Driver} {now : String} {d d' : Db} {rows : List AnyRow}

/-! ## The rows of a kind -/

/-- The row, where it is of the kind. -/
def AnyRow.ofKind (k : Kind) (r : AnyRow) : Option (Row k) :=
  if h : r.1 = k then some (h ▸ r.2) else none

/-- The rows of a kind. -/
def rowsOf (k : Kind) (rows : List AnyRow) : List (Row k) := rows.filterMap (AnyRow.ofKind k)

theorem ofKind_eq_some {k : Kind} {r : AnyRow} {row : Row k} :
    r.ofKind k = some row ↔ r = ⟨k, row⟩ := by
  obtain ⟨k', row'⟩ := r
  unfold AnyRow.ofKind
  by_cases h : k' = k
  · subst h
    simp
  · rw [dif_neg h]
    constructor
    · intro hnone
      cases hnone
    · intro heq
      exact absurd (congrArg Sigma.fst heq) h

theorem mem_rowsOf {k : Kind} {row : Row k} : row ∈ rowsOf k rows ↔ (⟨k, row⟩ : AnyRow) ∈ rows := by
  unfold rowsOf
  rw [List.mem_filterMap]
  constructor
  · rintro ⟨r, hr, heq⟩
    rwa [← ofKind_eq_some.mp heq]
  · exact fun h => ⟨_, h, ofKind_eq_some.mpr rfl⟩

theorem rowsOf_append (k : Kind) (rows rows' : List AnyRow) :
    rowsOf k (rows ++ rows') = rowsOf k rows ++ rowsOf k rows' := List.filterMap_append

theorem rowsOf_mk_same (k : Kind) (rows : List (Row k)) : rowsOf k (rows.map (Sigma.mk k)) = rows := by
  unfold rowsOf
  rw [List.filterMap_map]
  refine (List.filterMap_congr fun row _ => ?_).trans List.filterMap_some
  exact ofKind_eq_some.mpr rfl

theorem rowsOf_eq_nil {k : Kind} (h : ∀ r ∈ rows, r.1 ≠ k) : rowsOf k rows = [] :=
  List.filterMap_eq_nil_iff.mpr fun r hr => dif_neg (h r hr)

/-- Tables one after another: the rows of a kind are its table. -/
theorem rowsOf_flatMap {k : Kind} {kinds : List Kind} (hkinds : kinds.Nodup) (hk : k ∈ kinds)
    (table : (k : Kind) → List (Row k)) :
    rowsOf k (kinds.flatMap fun k => (table k).map (Sigma.mk k)) = table k := by
  have hkind : ∀ k', ∀ r ∈ (table k').map (Sigma.mk k'), r.1 = k' := by
    intro k' r hr
    obtain ⟨row, -, rfl⟩ := List.mem_map.mp hr
    rfl
  induction kinds with
  | nil => exact absurd hk List.not_mem_nil
  | cons k' kinds ih =>
    obtain ⟨hk', hkinds⟩ := List.nodup_cons.mp hkinds
    rw [List.flatMap_cons, rowsOf_append]
    rcases List.mem_cons.mp hk with rfl | hk
    · have hrest : rowsOf k (kinds.flatMap fun k => (table k).map (Sigma.mk k)) = [] := by
        refine rowsOf_eq_nil fun r hr heq => ?_
        obtain ⟨k', hmem, hr⟩ := List.mem_flatMap.mp hr
        exact hk' (heq ▸ (hkind k' r hr).symm ▸ hmem)
      rw [hrest, List.append_nil, rowsOf_mk_same]
    · have hfirst : rowsOf k ((table k').map (Sigma.mk k')) = [] := by
        refine rowsOf_eq_nil fun r hr heq => ?_
        exact hk' ((hkind k' r hr).symm.trans heq ▸ hk)
      rw [hfirst, List.nil_append, ih hkinds hk]

/-- The records of a kind are those of its rows. -/
theorem bucket_record (k : Kind) (rows : List AnyRow) :
    bucket (rows.map AnyRow.record) k = (rowsOf k rows).map (toData k) := by
  induction rows with
  | nil => rfl
  | cons r rows ih =>
    obtain ⟨k', row⟩ := r
    have hkind : (AnyRow.record ⟨k', row⟩).kind = k' := rfl
    rw [bucket] at ih
    rw [bucket, List.map_cons, List.filter_cons]
    by_cases hk : k' = k
    · subst hk
      have hcons : rowsOf k' (⟨k', row⟩ :: rows) = row :: rowsOf k' rows :=
        List.filterMap_cons_some (ofKind_eq_some.mpr rfl)
      rw [hcons, if_pos (decide_eq_true hkind), List.map_cons, List.map_cons, ih]
      rfl
    · have hcons : rowsOf k (⟨k', row⟩ :: rows) = rowsOf k rows :=
        List.filterMap_cons_none (dif_neg hk)
      rw [hcons, if_neg fun h => hk (hkind.symm.trans (of_decide_eq_true h)), ih]

theorem nodup_rowsOf (h : (rows.map AnyRow.key).Nodup) (k : Kind) :
    ((rowsOf k rows).map (rowId k)).Nodup := by
  refine List.Nodup.of_map (fun id => (k, id)) ?_
  have hkeys : (((rowsOf k rows).map (Sigma.mk k)).map AnyRow.key).Nodup := by
    refine h.sublist (List.Sublist.map _ ?_)
    unfold rowsOf
    rw [List.map_filterMap]
    induction rows with
    | nil => exact List.Sublist.refl _
    | cons r rows ih =>
      have ih := ih (List.Nodup.of_cons h)
      cases hr : r.ofKind k with
      | none =>
        rw [List.filterMap_cons_none (by rw [hr]; rfl)]
        exact ih.cons _
      | some row =>
        rw [List.filterMap_cons_some (by rw [hr]; rfl), ofKind_eq_some.mp hr]
        exact ih.cons_cons _
  rw [List.map_map] at hkeys ⊢
  exact hkeys

/-! ## A table under the rows -/

/-- A table under rows, matched by id. -/
def overById (k : Kind) (base rows : List (Row k)) : List (Row k) :=
  overlay (rowId k) (adopt k) base
    ((newRows (rowId k) base rows).map (arrived k) ++ oldRows (rowId k) base rows)

/-- The table of a kind under rows: what an upsert leaves. -/
def laid : (k : Kind) → List (Row k) → List (Row k) → List (Row k)
  | .dictionary, base, rows => overlay Dictionary.code adoptEntry base (coded rows)
  | .warehouse, base, rows => overById .warehouse base rows
  | .product, base, rows => overById .product base rows
  | .customer, base, rows => overById .customer base rows
  | .batch, base, rows => overById .batch base rows
  | .sale, base, rows => overById .sale base rows
  | .operation, base, _ | .cashMovement, base, _ => base

/-- What the keys of a table besides the primary key demand of rows. The new rows come first, the
others are updated one by one, and the codes are unique in every state on the way. -/
def Fits : (k : Kind) → List (Row k) → List (Row k) → Prop
  | .product, base, rows => ∀ m, m <+: oldRows (rowId .product) base rows →
    ((overlay (rowId .product) (adopt .product) base
      ((newRows (rowId .product) base rows).map (arrived .product) ++ m)).filterMap
        Product.activeCode).Nodup
  | .dictionary, base, rows => ∀ s ∈ coded rows,
    s.code ∈ base.map Dictionary.code ∨ s.id ∉ base.map Dictionary.id
  | .warehouse, _, _ | .customer, _, _ | .batch, _, _ | .sale, _, _ | .operation, _, _
  | .cashMovement, _, _ => True

/-- Rows that may come together: distinct ids, and distinct codes in the dictionary. -/
structure Distinct (rows : List AnyRow) : Prop where
  keys : (rows.map AnyRow.key).Nodup
  codes : ((rowsOf .dictionary rows).map Dictionary.code).Nodup

/-- Every row's parents are in a database. -/
def ParentsIn (d : Db) (k : Kind) (rows : List (Row k)) : Prop :=
  ∀ r ∈ rows, ∀ ref ∈ Db.references k r, ref.2 ∈ d.ids ref.1

@[simp] theorem references_arrived (k : Kind) (r : Row k) :
    Db.references k (arrived k r) = Db.references k r := by
  cases k <;> rfl

@[simp] theorem references_adopt (k : Kind) (s r : Row k) :
    Db.references k (adopt k s r) = Db.references k s := by
  cases k <;> rfl

/-- No kind refers to itself. -/
theorem parents_ne {k p : Kind} (h : p ∈ Db.parents k) : p ≠ k := by
  revert p
  cases k <;> decide

/-- A table with rows laid over it satisfies the constraints as soon as its own keys do. -/
theorem set_overlay_ok_iff {k : Kind} (hd : d.Ok) {rows : List (Row k)}
    (hnodup : (rows.map (rowId k)).Nodup) (hparents : ParentsIn d k rows) :
    (d.set k (overlay (rowId k) (adopt k) (d.get k) rows)).Ok ↔
      Db.KeysOk k (overlay (rowId k) (adopt k) (d.get k) rows) := by
  rw [Db.ok_set_iff hd]
  · have hids := nodup_overlay (keepsKey_adopt k) (hd.nodup k) hnodup
    rw [and_iff_right hids, and_iff_left]
    intro r hr ref href
    rw [Db.ids, Db.get_set_ne d (parents_ne (Db.mem_parents href))]
    rcases (mem_overlay hnodup).mp hr with ⟨s, hs, ⟨-, rfl⟩ | ⟨r', -, -, rfl⟩⟩ | ⟨hr, -⟩
    · exact hparents r hs ref href
    · exact hparents s hs ref (references_adopt k s r' ▸ href)
    · exact (Db.ok_iff.mp hd).2 k r hr ref href
  · intro i hi
    exact (mem_keys_overlay (keepsKey_adopt k)).mpr (.inl hi)

/-! ## A page -/

/-- The rows of a state on the way of an upsert have distinct ids. -/
theorem nodup_onTheWay {k : Kind} {base rows m : List (Row k)} (h : (rows.map (rowId k)).Nodup)
    (hm : m <+: oldRows (rowId k) base rows) :
    (((newRows (rowId k) base rows).map (arrived k) ++ m).map (rowId k)).Nodup := by
  have hids : ((newRows (rowId k) base rows).map (arrived k)).map (rowId k) =
      (newRows (rowId k) base rows).map (rowId k) := by
    rw [List.map_map]
    exact List.map_congr_left fun r _ => rowId_arrived k r
  rw [List.map_append, hids, ← List.map_append]
  exact Db.nodup_map_of_subperm (subperm_rows hm) h

theorem upsertById_fits {k : Kind} (hd : d.Ok) {rows : List (Row k)}
    (hnodup : (rows.map (rowId k)).Nodup) (hparents : ParentsIn d k rows) :
    (∃ n, upsertById driver now k (rows.map (toData k)) d = .ok (d', n)) ↔
      (∀ m, m <+: oldRows (rowId k) (d.get k) rows → Db.KeysOk k (overlay (rowId k) (adopt k)
        (d.get k) ((newRows (rowId k) (d.get k) rows).map (arrived k) ++ m))) ∧
        d' = d.set k (overById k (d.get k) rows) := by
  rw [upsertById_ok_iff hd hnodup]
  refine and_congr_left fun _ => forall₂_congr fun m hm => ?_
  refine set_overlay_ok_iff hd (nodup_onTheWay hnodup hm) fun r hr ref href => ?_
  rcases List.mem_append.mp hr with hr | hr
  · obtain ⟨s, hs, rfl⟩ := List.mem_map.mp hr
    rw [references_arrived] at href
    exact hparents s (List.mem_of_mem_filter hs) ref href
  · exact hparents r (List.mem_of_mem_filter (hm.subset hr)) ref href

/-- **The rows of one kind** are taken in exactly when they fit the table. -/
theorem upsertKind_ok_iff {k : Kind} (hk : k ∈ referenceInsertOrder) (hd : d.Ok)
    (hrows : Distinct rows) (hparents : ParentsIn d k (rowsOf k rows)) :
    (∃ n, upsertKind driver now (rows.map AnyRow.record) k d = .ok (d', n)) ↔
      Fits k (d.get k) (rowsOf k rows) ∧ d' = d.set k (laid k (d.get k) (rowsOf k rows)) := by
  have hnodup := nodup_rowsOf hrows.keys k
  unfold upsertKind
  rw [bucket_record]
  cases k with
  | dictionary => exact upsertDictionary_enters hd hrows.codes hnodup
  | product => exact upsertById_fits hd hnodup hparents
  | warehouse | customer | batch | sale =>
    refine (upsertById_fits hd hnodup hparents).trans (and_congr_left fun _ => ?_)
    exact iff_of_true (fun _ _ => trivial) trivial
  | operation | cashMovement => exact absurd hk (by decide)

/-- The rows of some kinds find their parents in a database or among themselves. -/
def ParentsAmong (d : Db) (kinds : List Kind) (rows : List AnyRow) : Prop :=
  ∀ k ∈ kinds, ∀ r ∈ rowsOf k rows, ∀ ref ∈ Db.references k r,
    ref.2 ∈ d.ids ref.1 ∨ ref.1 ∈ kinds ∧ ref.2 ∈ (rowsOf ref.1 rows).map (rowId ref.1)

/-- The ids of a table are still there under rows, and those of the rows are. -/
theorem mem_ids_laid {k : Kind} (hk : k ∈ referenceInsertOrder) (hdictionary : k ≠ .dictionary)
    {base rows : List (Row k)} {i : String} : i ∈ (laid k base rows).map (rowId k) ↔
      i ∈ base.map (rowId k) ∨ i ∈ rows.map (rowId k) := by
  have hover : i ∈ (overById k base rows).map (rowId k) ↔
      i ∈ base.map (rowId k) ∨ i ∈ rows.map (rowId k) := by
    rw [overById, mem_keys_overlay (keepsKey_adopt k), List.map_append, List.map_map]
    have hids : rowId k ∘ arrived k = rowId k := funext fun r => rowId_arrived k r
    rw [hids]
    refine or_congr_right ?_
    rw [← List.map_append, List.mem_map, List.mem_map]
    refine exists_congr fun r => and_congr_left fun _ => ?_
    rw [List.mem_append, newRows, oldRows, List.mem_filter, List.mem_filter, decide_eq_true_eq,
      decide_eq_true_eq, ← and_or_left, and_iff_left (em' _)]
  cases k with
  | dictionary => exact absurd rfl hdictionary
  | operation | cashMovement => exact absurd hk (by decide)
  | warehouse | product | customer | batch | sale => exact hover

theorem parents_ne_dictionary {k p : Kind} (h : p ∈ Db.parents k) : p ≠ .dictionary := by
  revert p
  cases k <;> decide

/-- **A page is taken in** exactly when the rows of each kind fit its table. -/
theorem upsertKinds_ok_iff {kinds : List Kind} (hsub : ∀ k ∈ kinds, k ∈ referenceInsertOrder)
    (horder : ParentsFirst kinds) (hd : d.Ok) (hrows : Distinct rows)
    (hparents : ParentsAmong d kinds rows) :
    (∃ n, upsertKinds driver now (rows.map AnyRow.record) kinds d = .ok (d', n)) ↔
      (∀ k ∈ kinds, Fits k (d.get k) (rowsOf k rows)) ∧
        (∀ k ∈ kinds, d'.get k = laid k (d.get k) (rowsOf k rows)) ∧
        ∀ k ∉ kinds, d'.get k = d.get k := by
  induction kinds generalizing d with
  | nil =>
    constructor
    · rintro ⟨n, h⟩
      cases h
      exact ⟨by simp, by simp, fun _ _ => rfl⟩
    · rintro ⟨-, -, hsame⟩
      rw [Db.ext_get fun k => hsame k List.not_mem_nil]
      exact ⟨0, rfl⟩
  | cons k kinds ih =>
    obtain ⟨hk, hfirst, horder⟩ := horder
    have hkOrder := hsub k List.mem_cons_self
    have hne : ∀ k' ∈ kinds, k' ≠ k := by
      rintro k' hk' rfl
      exact hk hk'
    have hin : ParentsIn d k (rowsOf k rows) := by
      intro r hr ref href
      refine (hparents k List.mem_cons_self r hr ref href).resolve_right fun h => ?_
      exact hfirst ref.1 (Db.mem_parents href) h.1
    have hkind : ∀ d₁, (∃ n, upsertKind driver now (rows.map AnyRow.record) k d = .ok (d₁, n)) ↔ _ :=
      fun d₁ => upsertKind_ok_iff hkOrder hd hrows hin
    have hstep : ∀ d₁ : Db, d₁ = d.set k (laid k (d.get k) (rowsOf k rows)) →
        ParentsAmong d₁ kinds rows := by
      rintro _ rfl k' hk' r hr ref href
      have hparent := Db.mem_parents href
      by_cases href' : ref.1 = k
      · obtain ⟨k, i⟩ := ref
        subst href'
        refine .inl ?_
        rw [Db.ids, Db.get_set_same]
        refine (mem_ids_laid hkOrder (parents_ne_dictionary hparent)).mpr ?_
        exact (hparents k' (List.mem_cons_of_mem _ hk') r hr _ href).imp id And.right
      · rw [Db.ids, Db.get_set_ne d href']
        refine (hparents k' (List.mem_cons_of_mem _ hk') r hr ref href).imp id fun h => ?_
        exact ⟨(List.mem_cons.mp h.1).resolve_left href', h.2⟩
    constructor
    · rintro ⟨n, h⟩
      obtain ⟨⟨d₁, n₁⟩, hone, h⟩ := bind_ok_iff.mp h
      obtain ⟨⟨d₂, n₂⟩, hrest, h⟩ := bind_ok_iff.mp h
      cases h
      obtain ⟨hfits, heq⟩ := (hkind d₁).mp ⟨n₁, hone⟩
      obtain ⟨hfits', hlaid, hsame⟩ := (ih (fun k' hk' => hsub k' (List.mem_cons_of_mem _ hk'))
        horder (upsertKind_ok hd hone) (hstep d₁ heq)).mp ⟨n₂, hrest⟩
      have hget : ∀ k' ∈ kinds, d₁.get k' = d.get k' := by
        intro k' hk'
        rw [heq, Db.get_set_ne d (hne k' hk')]
      refine ⟨List.forall_mem_cons.mpr ⟨hfits, fun k' hk' => ?_⟩,
        List.forall_mem_cons.mpr ⟨?_, fun k' hk' => ?_⟩, fun k' hk' => ?_⟩
      · rw [← hget k' hk']
        exact hfits' k' hk'
      · rw [hsame k hk, heq, Db.get_set_same]
      · rw [hlaid k' hk', hget k' hk']
      · obtain ⟨hk'k, hk'⟩ := List.ne_and_not_mem_of_not_mem_cons hk'
        rw [hsame k' hk', heq, Db.get_set_ne d hk'k]
    · rintro ⟨hfits, hlaid, hsame⟩
      obtain ⟨hfits, hfits'⟩ := List.forall_mem_cons.mp hfits
      obtain ⟨hlaidk, hlaid⟩ := List.forall_mem_cons.mp hlaid
      obtain ⟨n₁, hone⟩ := (hkind _).mpr ⟨hfits, rfl⟩
      have hget : ∀ k' ∈ kinds,
          (d.set k (laid k (d.get k) (rowsOf k rows))).get k' = d.get k' :=
        fun k' hk' => Db.get_set_ne d (hne k' hk') _
      have hfits₁ : ∀ k' ∈ kinds,
          Fits k' ((d.set k (laid k (d.get k) (rowsOf k rows))).get k') (rowsOf k' rows) := by
        intro k' hk'
        rw [hget k' hk']
        exact hfits' k' hk'
      have hlaid₁ : ∀ k' ∈ kinds, d'.get k' =
          laid k' ((d.set k (laid k (d.get k) (rowsOf k rows))).get k') (rowsOf k' rows) := by
        intro k' hk'
        rw [hget k' hk', hlaid k' hk']
      have hsame₁ : ∀ k' ∉ kinds,
          d'.get k' = (d.set k (laid k (d.get k) (rowsOf k rows))).get k' := by
        intro k' hk'
        by_cases hk'k : k' = k
        · subst hk'k
          rw [Db.get_set_same, hlaidk]
        · rw [Db.get_set_ne d hk'k, hsame k' fun h => (List.mem_cons.mp h).elim hk'k hk']
      obtain ⟨n₂, hrest⟩ := (ih (fun k' hk' => hsub k' (List.mem_cons_of_mem _ hk'))
        horder (upsertKind_ok hd hone) (hstep _ rfl)).mpr ⟨hfits₁, hlaid₁, hsame₁⟩
      exact ⟨n₁ + n₂, bind_ok_iff.mpr ⟨_, hone, bind_ok_iff.mpr ⟨_, hrest, rfl⟩⟩⟩

/-- The tables under the rows of a page. -/
def Db.lay (d : Db) (rows : List AnyRow) : Db where
  warehouses := laid .warehouse d.warehouses (rowsOf .warehouse rows)
  products := laid .product d.products (rowsOf .product rows)
  customers := laid .customer d.customers (rowsOf .customer rows)
  dictionary := laid .dictionary d.dictionary (rowsOf .dictionary rows)
  batches := laid .batch d.batches (rowsOf .batch rows)
  sales := laid .sale d.sales (rowsOf .sale rows)
  operations := d.operations
  cashMovements := d.cashMovements

theorem Db.get_lay (d : Db) (rows : List AnyRow) (k : Kind) :
    (d.lay rows).get k = laid k (d.get k) (rowsOf k rows) := by
  cases k <;> rfl

/-- **A page is applied** exactly when the rows of each kind fit its table and then the stock check
passes; the result is the tables under its rows, recomputed. -/
theorem applyPullPage_ok_iff (hd : d.Ok) (hrows : Distinct rows)
    (hparents : ParentsAmong d referenceInsertOrder rows) :
    (∃ n, applyPullPage driver now d (rows.map AnyRow.record) = .ok (d', n)) ↔
      (∀ k ∈ referenceInsertOrder, Fits k (d.get k) (rowsOf k rows)) ∧
        StockBalanced ((d.lay rows).recompute now) ∧ d' = (d.lay rows).recompute now := by
  have horder : ParentsFirst referenceInsertOrder := by
    refine ⟨?_, ?_, ?_, ?_, ?_, ?_, ?_, ?_, ?_, ?_, ?_, ?_, trivial⟩ <;> decide
  have hkinds : ∀ d₁, (∃ n, upsertKinds driver now (rows.map AnyRow.record) referenceInsertOrder d =
      .ok (d₁, n)) ↔ _ := fun d₁ => upsertKinds_ok_iff (fun _ hk => hk) horder hd hrows hparents
  have hlay : ∀ d₁ : Db, (∀ k ∈ referenceInsertOrder, d₁.get k = laid k (d.get k) (rowsOf k rows)) →
      (∀ k ∉ referenceInsertOrder, d₁.get k = d.get k) → d₁ = d.lay rows := by
    intro d₁ hlaid hsame
    refine Db.ext_get fun k => ?_
    rw [Db.get_lay]
    cases k with
    | operation => exact hsame .operation (by decide)
    | cashMovement => exact hsame .cashMovement (by decide)
    | warehouse | product | customer | dictionary | batch | sale => exact hlaid _ (by decide)
  constructor
  · rintro ⟨n, h⟩
    obtain ⟨⟨d₁, n₁⟩, hupsert, h⟩ := bind_ok_iff.mp h
    obtain ⟨d₂, hderived, h⟩ := bind_ok_iff.mp h
    cases h
    obtain ⟨hfits, hlaid, hsame⟩ := (hkinds d₁).mp ⟨_, hupsert⟩
    obtain rfl := hlay d₁ hlaid hsame
    exact ⟨hfits, recomputeDerived_ok_iff.mp hderived⟩
  · rintro ⟨hfits, hderived⟩
    have hledgers : ∀ k ∉ referenceInsertOrder, (d.lay rows).get k = d.get k := by
      intro k hk
      cases k with
      | operation | cashMovement => rfl
      | warehouse | product | customer | dictionary | batch | sale => exact absurd (by decide) hk
    obtain ⟨n, hupsert⟩ := (hkinds (d.lay rows)).mpr
      ⟨hfits, fun k _ => Db.get_lay d rows k, hledgers⟩
    refine ⟨n, ?_⟩
    rw [applyPullPage_of_upsertKinds hupsert, recomputeDerived_ok_iff.mpr hderived]
    rfl

end MyOriShop
