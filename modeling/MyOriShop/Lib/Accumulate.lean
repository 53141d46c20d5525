import Mathlib.Data.List.Nodup
import Mathlib.Data.List.Sort

/-!
# Accumulate: keyed entries gathered into a dictionary

Entries with a key are laid over older ones, an entry in place of the one with its key, and the whole
is listed in the order of the keys.

* `put` is one assignment `d[key(x)] = x`, `gather` counts it, `accumulate` is the list in the end.

Results:
* `mem_accumulate`: the new entries, and the older ones that none of them replaced.
* `pairwise_accumulate`, `nodup_accumulate`: the list is in the order of the keys, with no key twice.
* `length_le_accumulate`: it is never shorter.
* `accumulate_accumulate`: the same entries once more change nothing.
* `keeps_iff`: no entry is made worse exactly when no new entry is worse than the one it replaces.
-/

namespace MyOriShop.Lib.Accumulate

variable {α κ : Type} [LinearOrder κ] (key : α → κ) (same : α → α → Bool)

/-- `d[key(x)] = x`. -/
def put (entries : List α) (x : α) : List α :=
  if key x ∈ entries.map key then entries.map fun y => if key y = key x then x else y
  else entries ++ [x]

/-- A dictionary that is being filled, and what has been counted. -/
structure Gathered (α : Type) where
  entries : List α
  added : Nat := 0
  updated : Nat := 0

/-- One new entry; `same` is the equality by which a replacement counts as no update. -/
def gather (g : Gathered α) (x : α) : Gathered α :=
  match g.entries.find? fun y => key y = key x with
  | none => { g with entries := put key g.entries x, added := g.added + 1 }
  | some y => { g with
      entries := put key g.entries x
      updated := if same y x then g.updated else g.updated + 1 }

/-- New entries over a dictionary of older ones. -/
def gatherAll (previous fresh : List α) : Gathered α :=
  fresh.foldl (gather key same) { entries := previous.foldl (put key) [] }

/-- `[d[k] for k in sorted(d)]`. -/
def accumulate (previous fresh : List α) : List α :=
  (gatherAll key same previous fresh).entries.insertionSort fun x y => key x ≤ key y

variable {key same} {previous fresh entries xs : List α} {x y : α}

/-! ## One assignment -/

theorem keys_put : (put key entries x).map key =
    if key x ∈ entries.map key then entries.map key else entries.map key ++ [key x] := by
  unfold put
  split_ifs with hmem
  · rw [List.map_map]
    refine List.map_congr_left fun y _ => ?_
    show key (if key y = key x then x else y) = key y
    split_ifs with hkey
    · exact hkey.symm
    · rfl
  · rw [List.map_append, List.map_singleton]

theorem nodup_put (h : (entries.map key).Nodup) : ((put key entries x).map key).Nodup := by
  rw [keys_put]
  split_ifs with hmem
  · exact h
  · exact List.nodup_append_comm.mp (List.nodup_cons.mpr ⟨hmem, h⟩)

theorem mem_put : y ∈ put key entries x ↔ y = x ∨ (y ∈ entries ∧ key y ≠ key x) := by
  unfold put
  split_ifs with hmem
  · rw [List.mem_map]
    constructor
    · rintro ⟨z, hz, rfl⟩
      split_ifs with hkey
      · exact .inl rfl
      · exact .inr ⟨hz, hkey⟩
    · rintro (rfl | ⟨hy, hkey⟩)
      · obtain ⟨z, hz, hkey⟩ := List.mem_map.mp hmem
        exact ⟨z, hz, if_pos hkey⟩
      · exact ⟨y, hy, if_neg hkey⟩
  · rw [List.mem_append, List.mem_singleton, or_comm]
    refine or_congr_right (iff_self_and.mpr fun hy hkey => hmem ?_)
    exact hkey ▸ List.mem_map_of_mem hy

theorem length_le_put : entries.length ≤ (put key entries x).length := by
  unfold put
  split_ifs <;> simp

/-! ## All of them -/

theorem nodup_putAll (h : (entries.map key).Nodup) :
    ((xs.foldl (put key) entries).map key).Nodup := by
  induction xs generalizing entries with
  | nil => exact h
  | cons x xs ih => exact ih (nodup_put h)

theorem length_le_putAll : entries.length ≤ (xs.foldl (put key) entries).length := by
  induction xs generalizing entries with
  | nil => exact Nat.le_refl _
  | cons x xs ih => exact Nat.le_trans length_le_put ih

theorem mem_putAll (hxs : (xs.map key).Nodup) :
    y ∈ xs.foldl (put key) entries ↔ y ∈ xs ∨ (y ∈ entries ∧ key y ∉ xs.map key) := by
  induction xs generalizing entries with
  | nil => simp
  | cons x xs ih =>
    obtain ⟨hx, hxs⟩ := List.nodup_cons.mp hxs
    rw [List.foldl_cons, ih hxs, mem_put, List.map_cons, List.mem_cons, List.mem_cons, not_or]
    constructor
    · rintro (hy | ⟨rfl | ⟨hy, hkey⟩, hnot⟩)
      · exact .inl (.inr hy)
      · exact .inl (.inl rfl)
      · exact .inr ⟨hy, hkey, hnot⟩
    · rintro ((rfl | hy) | ⟨hy, hkey, hnot⟩)
      · exact .inr ⟨.inl rfl, hx⟩
      · exact .inl hy
      · exact .inr ⟨.inr ⟨hy, hkey⟩, hnot⟩

/-- Entries with different keys are their own dictionary. -/
theorem mem_dict (h : (xs.map key).Nodup) : y ∈ xs.foldl (put key) [] ↔ y ∈ xs := by
  rw [mem_putAll h]
  simp

/-- The counting aside, the entries are assigned one after another. -/
theorem entries_gatherAll : (gatherAll key same previous fresh).entries =
    fresh.foldl (put key) (previous.foldl (put key) []) := by
  unfold gatherAll
  generalize hg : ({ entries := previous.foldl (put key) [] } : Gathered α) = g
  rw [show previous.foldl (put key) [] = g.entries by rw [← hg]]
  clear hg
  induction fresh generalizing g with
  | nil => rfl
  | cons x fresh ih =>
    rw [List.foldl_cons, List.foldl_cons, ih]
    unfold gather
    cases g.entries.find? fun y => key y = key x <;> rfl

/-! ## The list -/

theorem nodup_accumulate : ((accumulate key same previous fresh).map key).Nodup := by
  have hperm := List.perm_insertionSort (fun x y => key x ≤ key y)
    (gatherAll key same previous fresh).entries
  refine ((hperm.map key).nodup_iff).mpr ?_
  rw [entries_gatherAll]
  exact nodup_putAll (nodup_putAll List.nodup_nil)

theorem pairwise_accumulate :
    (accumulate key same previous fresh).Pairwise fun x y => key x ≤ key y := by
  have htotal : Std.Total fun x y : α => key x ≤ key y := ⟨fun x y => le_total (key x) (key y)⟩
  have htrans : IsTrans α fun x y => key x ≤ key y := ⟨fun _ _ _ h h' => le_trans h h'⟩
  exact List.pairwise_insertionSort _ _

theorem mem_accumulate_dict (hfresh : (fresh.map key).Nodup) :
    y ∈ accumulate key same previous fresh ↔
      y ∈ fresh ∨ (y ∈ previous.foldl (put key) [] ∧ key y ∉ fresh.map key) := by
  rw [accumulate, List.mem_insertionSort, entries_gatherAll, mem_putAll hfresh]

theorem mem_accumulate (hprevious : (previous.map key).Nodup) (hfresh : (fresh.map key).Nodup) :
    y ∈ accumulate key same previous fresh ↔
      y ∈ fresh ∨ (y ∈ previous ∧ key y ∉ fresh.map key) := by
  rw [mem_accumulate_dict hfresh, mem_dict hprevious]

/-- A list in the order of its keys, none of them twice, is told by its members. -/
theorem eq_of_mem_iff {l l' : List α} (h : l.Pairwise fun x y => key x ≤ key y)
    (h' : l'.Pairwise fun x y => key x ≤ key y) (hkeys : (l.map key).Nodup)
    (hkeys' : (l'.map key).Nodup) (hmem : ∀ x, x ∈ l ↔ x ∈ l') : l = l' := by
  have hperm : l.Perm l' :=
    (List.perm_ext_iff_of_nodup (List.Nodup.of_map _ hkeys) (List.Nodup.of_map _ hkeys')).mpr hmem
  refine hperm.eq_of_pairwise (fun x y hx hy hxy hyx => ?_) h h'
  exact List.inj_on_of_nodup_map hkeys hx ((hmem y).mpr hy) (le_antisymm hxy hyx)

/-- **Nothing gets lost**, by the number. -/
theorem length_le_accumulate : (previous.foldl (put key) []).length ≤
    (accumulate key same previous fresh).length := by
  rw [accumulate, List.length_insertionSort, entries_gatherAll]
  exact length_le_putAll

/-- **The same entries once more** change nothing. -/
theorem accumulate_accumulate (hfresh : (fresh.map key).Nodup) :
    accumulate key same (accumulate key same previous fresh) fresh =
      accumulate key same previous fresh := by
  refine eq_of_mem_iff pairwise_accumulate pairwise_accumulate nodup_accumulate nodup_accumulate
    fun x => ?_
  rw [mem_accumulate nodup_accumulate hfresh, mem_accumulate_dict hfresh]
  by_cases hkey : key x ∈ fresh.map key <;> simp [hkey]

/-- **No entry is made worse** exactly when no new entry is worse than the one it replaces. -/
theorem keeps_iff {R : α → α → Prop} (hrefl : ∀ x, R x x) (hprevious : (previous.map key).Nodup)
    (hfresh : (fresh.map key).Nodup) :
    (∀ x ∈ previous, ∃ y ∈ accumulate key same previous fresh, key y = key x ∧ R x y) ↔
      ∀ x ∈ previous, ∀ y ∈ fresh, key y = key x → R x y := by
  constructor
  · intro h x hx y hy hkey
    obtain ⟨z, hz, hzkey, hR⟩ := h x hx
    have hyz : y ∈ accumulate key same previous fresh :=
      (mem_accumulate hprevious hfresh).mpr (.inl hy)
    rwa [List.inj_on_of_nodup_map nodup_accumulate hyz hz (hkey.trans hzkey.symm)]
  · intro h x hx
    by_cases hkey : key x ∈ fresh.map key
    · obtain ⟨y, hy, hykey⟩ := List.mem_map.mp hkey
      exact ⟨y, (mem_accumulate hprevious hfresh).mpr (.inl hy), hykey, h x hx y hy hykey⟩
    · exact ⟨x, (mem_accumulate hprevious hfresh).mpr (.inr ⟨hx, hkey⟩), rfl, hrefl x⟩

end MyOriShop.Lib.Accumulate
