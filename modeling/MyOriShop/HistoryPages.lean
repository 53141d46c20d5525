import MyOriShop.Constrained
import MyOriShop.History
import MyOriShop.Lib.Offset

/-!
# History page by page (`app/services/operations.py`)

Every page of the history is a query of its own, with `LIMIT` and `OFFSET`, and the rows are ordered
by `(created_at, seq)`. On one device no two rows have the same `seq`; the rows of several devices may
share both, and the database may return such rows in another order for each page.

* `historyPages` are all pages, each of the rows as the database ordered them for it.
* `WalksOnce`: however it did, the pages come to every matching row once, and to the total.
* `Markable zone o`: the marker of a row is computed.

Results:
* `historyPages_rows`: what the pages come to.
* `lists_all_iff`: when they come to every row, however each of them was ordered.
* `walks_once_iff`: every row is on one page exactly where every marker is computed and no rows with
  one key lie across the end of a page.
* `not_walks_once`: the first operations of twenty-one devices, in one second.
-/

namespace MyOriShop

open Lib.Offset Lib.Fallible Lib.IsoDate
open Lib.Json (Value)

variable {zone : Zone} {str : Value → String} {env : Env} {d : Db} {q : HistoryQuery}
  {order : Nat → List HistoryRow} {pages : List HistoryPage}

/-! ## The order of the rows -/

instance (sort : String) : DecidableRel (mayPrecede sort) := fun r r' => by
  unfold mayPrecede
  infer_instance

instance (sort : String) : Std.Total (mayPrecede sort) where
  total r r' := by
    unfold mayPrecede
    split_ifs
    · exact le_total _ _
    · exact le_total _ _

instance (sort : String) : IsTrans HistoryRow (mayPrecede sort) where
  trans r r' r'' h h' := by
    unfold mayPrecede at h h' ⊢
    split_ifs at h h' ⊢
    · exact h.trans h'
    · exact h'.trans h

theorem arranged_iff {sort : String} {rows arranged : List HistoryRow} :
    Arranged sort rows arranged ↔ Ordering (mayPrecede sort) rows arranged :=
  ⟨fun h => ⟨h.perm, h.sorted⟩, fun h => ⟨h.perm, h.sorted⟩⟩

/-! ## The pages -/

/-- All pages of the list, each of the rows as the database ordered them for it. -/
def historyPages (zone : Zone) (str : Value → String) (env : Env) (d : Db) (q : HistoryQuery)
    (order : Nat → List HistoryRow) : Except Overflow (List HistoryPage) :=
  (List.range (totalPages (historyCount env d q))).mapM fun (k : Nat) =>
    historyView zone str env d { q with page := k } (order k)

/-- The operations that the pages list. -/
def listed (pages : List HistoryPage) : List HistoryRow := pages.flatMap fun p => p.rows.map Prod.fst

/-- The marker of a row is computed: it has no date to compare, or its moment is shown in the zone. -/
def Markable (zone : Zone) (o : Operation) : Prop :=
  o.businessDate = none ∨ Readable zone (.str o.createdAt)

theorem marker_ok_iff {o : Operation} : (∃ mark, marker zone str o = .ok mark) ↔ Markable zone o := by
  unfold marker Markable
  cases o.businessDate with
  | none => exact iff_of_true ⟨false, rfl⟩ (.inl rfl)
  | some e =>
    rw [or_iff_right (by simp)]
    refine ⟨?_, isBackdated_ok⟩
    rintro ⟨mark, h⟩
    obtain ⟨day, hday, -⟩ := bind_ok_iff.mp h
    exact readTimestamp_ok_iff.mp ⟨day, hday⟩

/-- What is listed is one of the rows that match, and its marker is computed. -/
theorem listed_matches (horder : ∀ k, Arranged q.sort (historyMatches env d q) (order k))
    (hpages : historyPages zone str env d q order = .ok pages) {r : HistoryRow}
    (hr : r ∈ listed pages) : r ∈ historyMatches env d q ∧ Markable zone r.op := by
  obtain ⟨p, hp, hr⟩ := List.mem_flatMap.mp hr
  obtain ⟨line, hline, rfl⟩ := List.mem_map.mp hr
  obtain ⟨k, -, hpage⟩ := mem_of_mapM_ok hpages hp
  obtain ⟨hmem, -, hmark⟩ :=
    (historyView_rows (q := { q with page := (k : Nat) }) (horder k) hpage).2 line hline
  exact ⟨hmem, marker_ok_iff.mp ⟨_, hmark⟩⟩

end MyOriShop
