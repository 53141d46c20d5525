import Mathlib.Logic.Function.Basic

/-!
# Ternary: conditions over columns that may be NULL

A condition of SQL is true, false or unknown, and a `WHERE` keeps the rows where it is true. A
comparison with NULL is unknown.

* `Truth` is a truth value with Kleene's connectives, `Truth.holds` is what a `WHERE` asks for.
* `eq`, `ne`, `absent`, `present` are conditions on columns.

Results:
* `Truth.not_and`, `not_present`, `not_ne`: the negation of a condition, pushed to its columns.
* `Truth.holds_not`: a condition or its negation keeps a row exactly when the condition is known.
-/

namespace MyOriShop.Lib.Ternary

variable {α : Type}

/-- A truth value; `none` is unknown. -/
abbrev Truth := Option Bool

/-- The connectives: what one side alone decides is known. -/
def Truth.and : Truth → Truth → Truth
  | some false, _ => some false
  | some true, t => t
  | none, some false => some false
  | none, _ => none

def Truth.or : Truth → Truth → Truth
  | some true, _ => some true
  | some false, t => t
  | none, some true => some true
  | none, _ => none

def Truth.not : Truth → Truth := Option.map Bool.not

/-- A `WHERE` keeps the row. -/
def Truth.holds (t : Truth) : Bool := t == some true

/-- A comparison of two columns. -/
def compare (r : α → α → Bool) : Option α → Option α → Truth
  | some a, some b => some (r a b)
  | _, _ => none

section

variable [DecidableEq α]

/-- `x = y`. -/
def eq : Option α → Option α → Truth := compare fun a b => decide (a = b)

/-- `x != y`. -/
def ne : Option α → Option α → Truth := compare fun a b => decide (a ≠ b)

end

/-- `x IS NULL`. -/
def absent (x : Option α) : Truth := some x.isNone

/-- `x IS NOT NULL`. -/
def present (x : Option α) : Truth := some x.isSome

/-! ## Negations -/

variable {t t' : Truth} {x y : Option α}

theorem Truth.not_and : (t.and t').not = t.not.or t'.not := by
  rcases t with _ | _ | _ <;> rcases t' with _ | _ | _ <;> rfl

@[simp] theorem not_present : (present x).not = absent x := by
  cases x <;> rfl

@[simp] theorem not_ne [DecidableEq α] : (ne x y).not = eq x y := by
  cases x <;> cases y <;> simp [Truth.not, ne, eq, compare]

/-! ## What a `WHERE` keeps -/

theorem Truth.holds_and : (t.and t').holds = (t.holds && t'.holds) := by
  rcases t with _ | _ | _ <;> rcases t' with _ | _ | _ <;> rfl

/-- A condition that is known is kept, or its negation is. -/
theorem Truth.holds_not : t.isSome → t.not.holds = !t.holds := by
  rcases t with _ | _ | _ <;> decide

@[simp] theorem holds_present : (present x).holds = x.isSome := by
  cases x <;> rfl

theorem holds_ne [DecidableEq α] {a : α} :
    (ne x (some a)).holds = true ↔ ∃ b, x = some b ∧ b ≠ a := by
  cases x <;> simp [Truth.holds, ne, compare]

end MyOriShop.Lib.Ternary
