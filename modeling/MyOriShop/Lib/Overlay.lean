import Mathlib.Data.List.Nodup
import Mathlib.Data.List.Perm.Basic

/-!
# Overlay: keyed rows laid over a keyed list

A list of rows is laid over another one: where the keys meet the rows are joined, in place, and what
has a new key comes at the end.

* `update` joins one row, `joined` is what becomes of an entry, `overlay` the whole.

Results:
* `foldl_update`, `update_eq_overlay`: appending the new rows and then joining the others one by one
  lays them over.
* `mem_overlay`: what is in the result. `overlay_overlay`: two overlays of different keys are one.
* `overlay_map`: an overlay seen through a function that keeps the keys.
-/

namespace MyOriShop.Lib.Overlay

variable {α β κ : Type} [DecidableEq κ] (key : α → κ) (join : α → α → α)

/-- The entries with the key of a row are joined with it. -/
def update (rows : List α) (s : α) : List α :=
  rows.map fun r => if key r = key s then join s r else r

/-- An entry under the row with its key. -/
def joined (rows : List α) (r : α) : α :=
  match rows.find? fun s => key s = key r with
  | some s => join s r
  | none => r

/-- Rows laid over a list. -/
def overlay (base rows : List α) : List α :=
  base.map (joined key join rows) ++ rows.filter fun s => key s ∉ base.map key

/-- The row wins over the entry it meets. -/
def last (s _ : α) : α := s

/-- A joined entry keeps its key. -/
def KeepsKey : Prop := ∀ s r, key s = key r → key (join s r) = key r

omit [DecidableEq κ] in
theorem keepsKey_last : KeepsKey key last := fun _ _ h => h

variable {key join} {base rows rows' : List α}

/-! ## One entry -/

theorem find_key (h : (rows.map key).Nodup) {s : α} (hs : s ∈ rows) :
    (rows.find? fun s' => key s' = key s) = some s := by
  induction rows with
  | nil => exact absurd hs List.not_mem_nil
  | cons a rows ih =>
    obtain ⟨ha, h⟩ := List.nodup_cons.mp h
    rcases List.mem_cons.mp hs with rfl | hs
    · exact List.find?_cons_of_pos (decide_eq_true rfl)
    · have hne : key a ≠ key s := fun heq => ha (heq ▸ List.mem_map_of_mem hs)
      rw [List.find?_cons_of_neg (by simpa using hne)]
      exact ih h hs

theorem find_key_none {k : κ} (h : k ∉ rows.map key) : (rows.find? fun s => key s = k) = none := by
  rw [List.find?_eq_none]
  exact fun s hs heq => h (of_decide_eq_true heq ▸ List.mem_map_of_mem hs)

theorem joined_of_mem (h : (rows.map key).Nodup) {s r : α} (hs : s ∈ rows) (hkey : key s = key r) :
    joined key join rows r = join s r := by
  rw [joined, ← hkey, find_key h hs]

theorem joined_of_notMem {r : α} (h : key r ∉ rows.map key) : joined key join rows r = r := by
  rw [joined, find_key_none h]

theorem key_joined (hjoin : KeepsKey key join) (rows : List α) (r : α) :
    key (joined key join rows r) = key r := by
  unfold joined
  cases hfind : rows.find? fun s => key s = key r with
  | none => rfl
  | some s => exact hjoin s r (of_decide_eq_true (List.find?_some hfind :))

theorem joined_cons (hjoin : KeepsKey key join) {s : α} (hs : key s ∉ rows.map key) (r : α) :
    joined key join rows (if key r = key s then join s r else r) =
      joined key join (s :: rows) r := by
  by_cases hkey : key r = key s
  · have hnone : key (join s r) ∉ rows.map key := by
      rwa [hjoin s r hkey.symm, hkey]
    rw [if_pos hkey, joined_of_notMem hnone, joined, List.find?_cons_of_pos]
    exact decide_eq_true hkey.symm
  · rw [if_neg hkey, joined, joined, List.find?_cons_of_neg]
    simpa using Ne.symm hkey

/-- Which rows there are decides, not their order. -/
theorem joined_perm (h : rows.Perm rows') (hnodup : (rows.map key).Nodup) (r : α) :
    joined key join rows r = joined key join rows' r := by
  have hnodup' : (rows'.map key).Nodup := (h.map key).nodup_iff.mp hnodup
  by_cases hr : key r ∈ rows.map key
  · obtain ⟨s, hs, hkey⟩ := List.mem_map.mp hr
    rw [joined_of_mem hnodup hs hkey, joined_of_mem hnodup' (h.mem_iff.mp hs) hkey]
  · rw [joined_of_notMem hr, joined_of_notMem ((h.map key).mem_iff.not.mp hr)]

/-! ## One row after another -/

/-- Rows joined one by one. -/
theorem foldl_update (hjoin : KeepsKey key join) (h : (rows.map key).Nodup) (base : List α) :
    rows.foldl (update key join) base = base.map (joined key join rows) := by
  induction rows generalizing base with
  | nil => exact (List.map_id' base).symm
  | cons s rows ih =>
    obtain ⟨hs, h⟩ := List.nodup_cons.mp h
    rw [List.foldl_cons, ih h, update, List.map_map]
    exact List.map_congr_left fun r _ => joined_cons hjoin hs r

/-- **New rows appended and the others joined one by one** are laid over. -/
theorem update_eq_overlay (hjoin : KeepsKey key join) {new old : List α}
    (hnew : ∀ s ∈ new, key s ∉ base.map key) (hold : ∀ s ∈ old, key s ∈ base.map key)
    (h : (old.map key).Nodup) :
    old.foldl (update key join) (base ++ new) = overlay key join base (new ++ old) := by
  have hfilter : (new ++ old).filter (fun s => key s ∉ base.map key) = new := by
    rw [List.filter_append, List.filter_eq_self.mpr fun s hs => decide_eq_true (hnew s hs),
      List.filter_eq_nil_iff.mpr fun s hs => by simpa using hold s hs, List.append_nil]
  have hapart : ∀ s ∈ new, key s ∉ old.map key := by
    intro s hs hmem
    obtain ⟨s', hs', heq⟩ := List.mem_map.mp hmem
    exact hnew s hs (heq ▸ hold s' hs')
  rw [foldl_update hjoin h, overlay, hfilter, List.map_append]
  congr 1
  · refine List.map_congr_left fun r hr => ?_
    have hnone : (new.find? fun s => key s = key r) = none :=
      find_key_none fun hmem => by
        obtain ⟨s, hs, heq⟩ := List.mem_map.mp hmem
        exact hnew s hs (heq ▸ List.mem_map_of_mem hr)
    rw [joined, joined, List.find?_append, hnone]
    rfl
  · exact (List.map_congr_left fun s hs => joined_of_notMem (hapart s hs)).trans (List.map_id' new)

/-- The new rows may come first. -/
theorem overlay_partition (h : (rows.map key).Nodup) :
    overlay key join base (rows.filter (fun s => key s ∉ base.map key) ++
      rows.filter fun s => key s ∈ base.map key) = overlay key join base rows := by
  have hperm : (rows.filter (fun s => key s ∉ base.map key) ++
      rows.filter fun s => key s ∈ base.map key).Perm rows := by
    refine List.perm_append_comm.trans ?_
    have hnot : (fun s => decide (key s ∉ base.map key)) =
        fun s => !decide (key s ∈ base.map key) := funext fun s => decide_not
    rw [hnot]
    exact List.filter_append_perm _ rows
  unfold overlay
  congr 1
  · exact List.map_congr_left fun r _ =>
      joined_perm hperm ((hperm.map key).nodup_iff.mpr h) r
  · rw [List.filter_append, List.filter_filter, List.filter_filter]
    simp

/-! ## The result -/

theorem keys_overlay (hjoin : KeepsKey key join) (base rows : List α) :
    (overlay key join base rows).map key =
      base.map key ++ (rows.map key).filter fun k => k ∉ base.map key := by
  rw [overlay, List.map_append, List.map_map, List.filter_map]
  congr 1
  exact List.map_congr_left fun r _ => key_joined hjoin rows r

theorem mem_keys_overlay (hjoin : KeepsKey key join) {k : κ} :
    k ∈ (overlay key join base rows).map key ↔ k ∈ base.map key ∨ k ∈ rows.map key := by
  rw [keys_overlay hjoin, List.mem_append, List.mem_filter, decide_eq_true_eq]
  by_cases hk : k ∈ base.map key <;> simp [hk]

theorem nodup_overlay (hjoin : KeepsKey key join) (hbase : (base.map key).Nodup)
    (hrows : (rows.map key).Nodup) : ((overlay key join base rows).map key).Nodup := by
  rw [keys_overlay hjoin, List.nodup_append]
  refine ⟨hbase, hrows.filter _, fun k hk k' hk' heq => ?_⟩
  exact of_decide_eq_true (List.mem_filter.mp hk').2 (heq ▸ hk)

/-- **What is there**: the rows, joined where the key was there, and the entries no row is about. -/
theorem mem_overlay (h : (rows.map key).Nodup) {x : α} : x ∈ overlay key join base rows ↔
    (∃ s ∈ rows, (key s ∉ base.map key ∧ x = s) ∨ ∃ r ∈ base, key s = key r ∧ x = join s r) ∨
      (x ∈ base ∧ key x ∉ rows.map key) := by
  rw [overlay, List.mem_append, List.mem_map, List.mem_filter, decide_eq_true_eq]
  constructor
  · rintro (⟨r, hr, rfl⟩ | ⟨hx, hkey⟩)
    · by_cases hkey : key r ∈ rows.map key
      · obtain ⟨s, hs, heq⟩ := List.mem_map.mp hkey
        exact .inl ⟨s, hs, .inr ⟨r, hr, heq, joined_of_mem h hs heq⟩⟩
      · rw [joined_of_notMem hkey]
        exact .inr ⟨hr, hkey⟩
    · exact .inl ⟨x, hx, .inl ⟨hkey, rfl⟩⟩
  · rintro (⟨s, hs, ⟨hkey, rfl⟩ | ⟨r, hr, hkey, rfl⟩⟩ | ⟨hx, hkey⟩)
    · exact .inr ⟨hs, hkey⟩
    · exact .inl ⟨r, hr, joined_of_mem h hs hkey⟩
    · exact .inl ⟨x, hx, joined_of_notMem hkey⟩

/-- Where the row wins, every row is there. -/
theorem mem_overlay_last (h : (rows.map key).Nodup) {x : α} :
    x ∈ overlay key last base rows ↔ x ∈ rows ∨ (x ∈ base ∧ key x ∉ rows.map key) := by
  rw [mem_overlay h]
  refine or_congr_left ⟨?_, fun hx => ?_⟩
  · rintro ⟨s, hs, ⟨-, rfl⟩ | ⟨r, -, -, rfl⟩⟩ <;> exact hs
  · by_cases hkey : key x ∈ base.map key
    · obtain ⟨r, hr, heq⟩ := List.mem_map.mp hkey
      exact ⟨x, hx, .inr ⟨r, hr, heq.symm, rfl⟩⟩
    · exact ⟨x, hx, .inl ⟨hkey, rfl⟩⟩

/-- Two overlays of different keys are one. -/
theorem overlay_overlay (hjoin : KeepsKey key join) (h : ((rows ++ rows').map key).Nodup) :
    overlay key join (overlay key join base rows) rows' = overlay key join base (rows ++ rows') := by
  rw [List.map_append, List.nodup_append] at h
  obtain ⟨hrows, -, hdisjoint⟩ := h
  have hapart : ∀ s ∈ rows, key s ∉ rows'.map key := fun s hs hmem =>
    hdisjoint _ (List.mem_map_of_mem hs) _ hmem rfl
  have hentry : ∀ r, joined key join rows' (joined key join rows r) =
      joined key join (rows ++ rows') r := by
    intro r
    by_cases hr : key r ∈ rows.map key
    · obtain ⟨s, hs, hkey⟩ := List.mem_map.mp hr
      have hnone : key (join s r) ∉ rows'.map key := by
        rw [hjoin s r hkey, ← hkey]
        exact hapart s hs
      rw [joined_of_mem hrows hs hkey, joined_of_notMem hnone, joined, List.find?_append, ← hkey,
        find_key hrows hs]
      rfl
    · rw [joined_of_notMem hr, joined, joined, List.find?_append, find_key_none hr]
      rfl
  have hkeys : ∀ s ∈ rows', (key s ∉ (overlay key join base rows).map key) = (key s ∉ base.map key) := by
    intro s hs
    have hnot : key s ∉ rows.map key := fun hmem =>
      hdisjoint _ hmem _ (List.mem_map_of_mem hs) rfl
    rw [mem_keys_overlay hjoin, or_iff_left hnot]
  rw [overlay, List.filter_congr fun s hs => decide_eq_decide.mpr (iff_of_eq (hkeys s hs))]
  rw [overlay, overlay, List.map_append, List.map_map, List.filter_append, List.append_assoc]
  congr 1
  · exact List.map_congr_left fun r _ => hentry r
  · congr 1
    refine (List.map_congr_left fun s hs => ?_).trans (List.map_id' _)
    exact joined_of_notMem (hapart s (List.mem_of_mem_filter hs))

/-- An overlay seen through a function that keeps the keys. -/
theorem overlay_map {key' : β → κ} {join' : β → β → β} {f : α → β} (hkey : ∀ a, key' (f a) = key a)
    (hjoin : ∀ s r, key s = key r → f (join s r) = join' (f s) (f r)) (base rows : List α) :
    (overlay key join base rows).map f = overlay key' join' (base.map f) (rows.map f) := by
  have hkeys : (base.map f).map key' = base.map key := by
    rw [List.map_map]
    exact List.map_congr_left fun a _ => hkey a
  have hentry : ∀ r, f (joined key join rows r) = joined key' join' (rows.map f) (f r) := by
    intro r
    have hfind : ((rows.map f).find? fun s => key' s = key' (f r)) =
        (rows.find? fun s => key s = key r).map f := by
      rw [List.find?_map]
      congr 2
      funext s
      simp only [Function.comp_apply, hkey]
    unfold joined
    rw [hfind]
    cases hs : rows.find? fun s => key s = key r with
    | none => rfl
    | some s => exact hjoin s r (of_decide_eq_true (List.find?_some hs :))
  rw [overlay, overlay, List.map_append, List.map_map, List.map_map, hkeys, List.filter_map]
  congr 1
  · exact List.map_congr_left fun r _ => hentry r
  · congr 2
    funext s
    simp only [Function.comp_apply, hkey]

end MyOriShop.Lib.Overlay
