import Mathlib.Data.List.Infix

/-!
# Like: the pattern match of a query

In a pattern `%` stands for any characters and `_` for one; another character stands for itself, up
to the folding of the database.

Results:
* `like_literal`: a pattern without wildcards and a final `%` asks for a beginning.
-/

namespace MyOriShop.Lib.Like

/-- `text LIKE pattern`. -/
def like (fold : Char → Char) : List Char → List Char → Bool
  | [], text => text.isEmpty
  | c :: pattern, text =>
    if c = '%' then text.tails.any (like fold pattern)
    else match text with
      | [] => false
      | a :: rest => (c = '_' || fold c = fold a) && like fold pattern rest

/-- The text has no wildcards. -/
def Literal (text : List Char) : Prop := ∀ c ∈ text, c ≠ '%' ∧ c ≠ '_'

variable {fold : Char → Char} {front text : List Char}

theorem like_any (text : List Char) : like fold ['%'] text = true := by
  show (if '%' = '%' then text.tails.any (like fold []) else _) = true
  rw [if_pos rfl, List.any_eq_true]
  exact ⟨[], (List.mem_tails ..).mpr List.nil_suffix, rfl⟩

/-- **A pattern without wildcards** and a final `%` asks for a beginning. -/
theorem like_literal (h : Literal front) :
    like fold (front ++ ['%']) text = true ↔ front.map fold <+: text.map fold := by
  induction front generalizing text with
  | nil => exact iff_of_true (like_any text) List.nil_prefix
  | cons c front ih =>
    obtain ⟨⟨hany, hone⟩, hrest⟩ := List.forall_mem_cons.mp h
    cases text with
    | nil => simp [like, hany]
    | cons a rest => simp [like, hany, hone, ih hrest, List.cons_prefix_cons]

end MyOriShop.Lib.Like
