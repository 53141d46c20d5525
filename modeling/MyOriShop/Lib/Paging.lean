import Mathlib.Data.List.Basic

/-!
# Paging: a stream asked for page by page

A server answers a cursor with at most `n` rows. The client asks again with the cursor of the last
row it got, until a page is short.

* `drain` is the client's loop.
* `Serves` says of a server that it goes on from the cursor of a row with the rows after it, in the
  order of one stream.

Results:
* `Serves.drain_after`: from a row on, the pages make up the rest of the stream.
* `Serves.drain_start`: where the first page holds the first rows that satisfy a condition, the
  pages make up these rows to some point of the stream, and every row after it.
-/

namespace MyOriShop.Lib.Paging

variable {α κ : Type}

/-- Page after page, each asked for with the cursor the one before gives, until one has fewer than
`n` rows. -/
def drain (n : Nat) (page : κ → List α) (next : List α → κ) : Nat → κ → Option (List (List α))
  | 0, _ => none
  | fuel + 1, c =>
    if (page c).length < n then some [page c]
    else (drain n page next fuel (next (page c))).map fun pages => page c :: pages

/-- The server goes on after the row whose cursor it is asked with. -/
structure Serves (n : Nat) (stream : List α) (key : α → κ) (page : κ → List α)
    (next : List α → κ) : Prop where
  pos : 0 < n
  next : ∀ rows x, next (rows ++ [x]) = key x
  page : ∀ pre x post, stream = pre ++ x :: post → page (key x) = post.take n

variable {n : Nat} {stream : List α} {key : α → κ} {page : κ → List α} {next : List α → κ}

/-- The pages of a loop that has ended: full ones, and a short one. -/
theorem drain_pages {fuel : Nat} {c : κ} {pages : List (List α)}
    (h : drain n page next fuel c = some pages) :
    ∃ full last, pages = full ++ [last] ∧ (∀ p ∈ full, n ≤ p.length) ∧ last.length < n := by
  induction fuel generalizing c pages with
  | zero => cases h
  | succ fuel ih =>
    rw [drain] at h
    split_ifs at h with hshort
    · cases h
      exact ⟨[], _, rfl, fun p hp => absurd hp List.not_mem_nil, hshort⟩
    · obtain ⟨rest, hrest, rfl⟩ := Option.map_eq_some_iff.mp h
      obtain ⟨full, last, rfl, hfull, hlast⟩ := ih hrest
      refine ⟨page c :: full, last, rfl, List.forall_mem_cons.mpr ⟨?_, hfull⟩, hlast⟩
      exact Nat.not_lt.mp hshort

/-- A full page has a last row. -/
theorem exists_last {rows : List α} (hn : 0 < n) (h : ¬rows.length < n) :
    ∃ init y, rows = init ++ [y] := by
  rcases List.eq_nil_or_concat rows with rfl | ⟨init, y, rfl⟩
  · exact absurd hn h
  · exact ⟨init, y, List.concat_eq_append⟩

/-- **From a row on**, the pages make up the rest of the stream. -/
theorem Serves.drain_after (h : Serves n stream key page next) (fuel : Nat) {pre post : List α}
    {x : α} (hstream : stream = pre ++ x :: post) (hfuel : post.length < fuel) :
    ∃ pages, drain n page next fuel (key x) = some pages ∧ pages.flatten = post := by
  induction fuel generalizing pre x post with
  | zero => exact absurd hfuel (Nat.not_lt_zero _)
  | succ fuel ih =>
    have hpage := h.page pre x post hstream
    rw [drain, hpage]
    split_ifs with hshort
    · refine ⟨_, rfl, ?_⟩
      rw [List.flatten_singleton, List.take_of_length_le]
      rw [List.length_take] at hshort
      omega
    · obtain ⟨init, y, hlast⟩ := exists_last h.pos hshort
      have hpost : post = init ++ y :: post.drop n := by
        conv_lhs => rw [← List.take_append_drop n post, hlast, List.append_assoc]
        rfl
      have hlength := congrArg List.length hpost
      rw [List.length_append, List.length_cons] at hlength
      have hsplit : stream = (pre ++ x :: init) ++ y :: post.drop n := by
        rw [hstream, List.append_assoc, List.cons_append]
        exact congrArg (fun l => pre ++ x :: l) hpost
      obtain ⟨pages, hpages, hrest⟩ := ih hsplit (by omega)
      refine ⟨post.take n :: pages, ?_, ?_⟩
      · rw [hlast, h.next, hpages, ← hlast]
        rfl
      · rw [List.flatten_cons, hrest, List.take_append_drop]

/-- **From the start**: the rows that satisfy the condition of the first page, to some point of the
stream, and every row after it. -/
theorem Serves.drain_start (h : Serves n stream key page next) {fuel : Nat} {c : κ} {p : α → Bool}
    (hfirst : page c = (stream.filter p).take n) (hfuel : stream.length < fuel) :
    ∃ pages pre post, drain n page next fuel c = some pages ∧ stream = pre ++ post ∧
      pages.flatten = pre.filter p ++ post := by
  cases fuel with
  | zero => exact absurd hfuel (Nat.not_lt_zero _)
  | succ fuel =>
    rw [drain, hfirst]
    split_ifs with hshort
    · refine ⟨_, stream, [], rfl, (List.append_nil _).symm, ?_⟩
      rw [List.flatten_singleton, List.append_nil, List.take_of_length_le]
      rw [List.length_take] at hshort
      omega
    · obtain ⟨init, y, hlast⟩ := exists_last h.pos hshort
      have hfilter : stream.filter p = init ++ y :: (stream.filter p).drop n := by
        conv_lhs => rw [← List.take_append_drop n (stream.filter p), hlast, List.append_assoc]
        rfl
      obtain ⟨before, rest, rfl, hbefore, hrest⟩ := List.filter_eq_append_iff.mp hfilter
      obtain ⟨skipped, post, rfl, hskipped, hy, -⟩ := List.filter_eq_cons_iff.mp hrest
      have hrows : post.length < fuel := by
        simp only [List.length_append, List.length_cons] at hfuel
        omega
      obtain ⟨pages, hpages, hpost⟩ :=
        h.drain_after fuel (List.append_assoc before skipped (y :: post)).symm hrows
      refine ⟨(init ++ [y]) :: pages, before ++ skipped ++ [y], post, ?_, by simp, ?_⟩
      · rw [hlast, h.next, hpages]
        rfl
      · have hnone : skipped.filter p = [] :=
          List.filter_eq_nil_iff.mpr fun x hx => hskipped x hx
        have hself : [y].filter p = [y] := List.filter_cons_of_pos hy
        rw [List.flatten_cons, hpost, List.filter_append, List.filter_append, hbefore, hnone,
          hself, List.append_nil]

end MyOriShop.Lib.Paging
