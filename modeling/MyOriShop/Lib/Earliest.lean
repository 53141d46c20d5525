import Mathlib.Data.List.Sort

/-!
# Earliest: the first row of a sorted list

Rows are sorted by a key; rows with one key keep the order in which they are stored.

Results:
* `filter_sorted`: rows may be left out before the sort or after it.
* `map_sorted`: the sort looks at nothing but the key.
-/

namespace MyOriShop.Lib.Earliest

variable {α β κ : Type} [LinearOrder κ] {key : α → κ}

/-- The rows by their keys. -/
def sorted (key : α → κ) (rows : List α) : List α :=
  rows.insertionSort fun x y => key x ≤ key y

theorem sorted_nil_iff {rows : List α} : sorted key rows = [] ↔ rows = [] := by
  rw [← List.length_eq_zero_iff, sorted, List.length_insertionSort, List.length_eq_zero_iff]

theorem mem_sorted {rows : List α} {x : α} : x ∈ sorted key rows ↔ x ∈ rows :=
  List.mem_insertionSort _

theorem mem_of_head?_sorted {rows : List α} {x : α} (h : (sorted key rows).head? = some x) :
    x ∈ rows := mem_sorted.mp (List.mem_of_head? h)

theorem pairwise_sorted (rows : List α) : (sorted key rows).Pairwise fun x y => key x ≤ key y :=
  have : Std.Total fun x y : α => key x ≤ key y := ⟨fun x y => le_total (key x) (key y)⟩
  have : IsTrans α fun x y => key x ≤ key y := ⟨fun _ _ _ => le_trans⟩
  List.pairwise_insertionSort _ rows

/-- The sort looks at nothing but the key. -/
theorem map_sorted {key' : β → κ} {f : α → β} (h : ∀ x, key' (f x) = key x) (rows : List α) :
    (sorted key rows).map f = sorted key' (rows.map f) :=
  List.map_insertionSort _ (fun x y => key' x ≤ key' y) f rows fun x _ y _ => by rw [h, h]

/-- An insertion into a sorted list, with rows left out. -/
theorem filter_orderedInsert {rows : List α} (hrows : rows.Pairwise fun x y => key x ≤ key y)
    (p : α → Bool) (x : α) :
    (rows.orderedInsert (fun x y => key x ≤ key y) x).filter p =
      if p x then (rows.filter p).orderedInsert (fun x y => key x ≤ key y) x else rows.filter p := by
  induction rows with
  | nil => cases hx : p x <;> simp [hx]
  | cons y rows ih =>
    obtain ⟨hfirst, hrest⟩ := List.pairwise_cons.mp hrows
    rw [List.orderedInsert_cons]
    by_cases hle : key x ≤ key y
    · rw [if_pos hle, List.filter_cons]
      cases hx : p x with
      | false => simp
      | true =>
        -- every row that is left stands behind `x`
        have hhead : ∀ z ∈ ((y :: rows).filter p).head?, key x ≤ key z := by
          intro z hz
          have hmem := (List.mem_filter.mp (List.mem_of_head? hz)).1
          rcases List.mem_cons.mp hmem with rfl | hmem
          · exact hle
          · exact hle.trans (hfirst z hmem)
        cases hkept : (y :: rows).filter p with
        | nil => rfl
        | cons z kept => simp [hhead z (by simp [hkept])]
    · rw [if_neg hle, List.filter_cons, ih hrest]
      cases hy : p y <;> cases p x <;> simp [hy, hle]

/-- **Rows may be left out** before the sort or after it. -/
theorem filter_sorted (p : α → Bool) (rows : List α) :
    (sorted key rows).filter p = sorted key (rows.filter p) := by
  induction rows with
  | nil => rfl
  | cons x rows ih =>
    show ((sorted key rows).orderedInsert _ x).filter p = _
    rw [filter_orderedInsert (pairwise_sorted rows), ih, List.filter_cons]
    cases p x <;> rfl

end MyOriShop.Lib.Earliest
