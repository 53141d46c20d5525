import Mathlib.Data.List.Basic

/-!
# ChangeLog: the log of a value that changes

A log keeps one row for each change of a value, with the value before it and the value after it.

* `changes l` is the log of the successive values `l`: where two neighbours differ, one row.
* `Links a rows b`: the rows lead from `a` to `b`, each one from where the last one ended, and each
  one to another value.

Results:
* `changes_cons`: the log of one more value in front.
* `links_changes`: the log of some values leads from the first to the last of them.
-/

namespace MyOriShop.Lib.ChangeLog

variable {α : Type}

/-- The rows lead from `a` to `b`. -/
def Links (a : α) : List (α × α) → α → Prop
  | [], b => a = b
  | row :: rows, b => row.1 = a ∧ row.1 ≠ row.2 ∧ Links row.2 rows b

theorem Links.append {a b c : α} {rows rows' : List (α × α)} (h : Links a rows b)
    (h' : Links b rows' c) : Links a (rows ++ rows') c := by
  induction rows generalizing a with
  | nil =>
    obtain rfl : a = b := h
    exact h'
  | cons row rows ih => exact ⟨h.1, h.2.1, ih h.2.2⟩

variable [DecidableEq α]

/-- The row of one step, if it is a change. -/
def diff (a b : α) : List (α × α) := if a = b then [] else [(a, b)]

/-- The log of a step between two optional values: the first one is not a change. -/
def between : Option α → Option α → List (α × α)
  | some a, some b => diff a b
  | _, _ => []

/-- The log of successive values. -/
def changes : List α → List (α × α)
  | a :: b :: l => diff a b ++ changes (b :: l)
  | _ => []

theorem diff_self (a : α) : diff a a = [] := if_pos rfl

theorem diff_of_ne {a b : α} (h : a ≠ b) : diff a b = [(a, b)] := if_neg h

@[simp] theorem between_none (b : Option α) : between none b = [] := rfl

theorem between_self (a : Option α) : between a a = [] := by
  cases a with
  | none => rfl
  | some a => exact diff_self a

/-- One more value in front of values that begin with `b`. -/
theorem changes_cons (a b : α) {l : List α} (h : l.head? = some b) :
    changes (a :: l) = diff a b ++ changes l := by
  cases l with
  | nil => cases h
  | cons c l =>
    cases h
    rfl

theorem links_diff (a b : α) : Links a (diff a b) b := by
  unfold diff
  split_ifs with h
  · exact h
  · exact ⟨rfl, h, rfl⟩

/-- **The log leads from the first value to the last.** -/
theorem links_changes : ∀ {l : List α} {a b : α}, l.head? = some a → l.getLast? = some b →
    Links a (changes l) b
  | [a], _, _, rfl, rfl => rfl
  | a :: b :: l, _, c, rfl, hlast => by
    refine (links_diff a b).append (links_changes rfl ?_)
    rwa [List.getLast?_cons_cons] at hlast

end MyOriShop.Lib.ChangeLog
