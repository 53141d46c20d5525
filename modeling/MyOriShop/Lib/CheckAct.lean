import Mathlib.Logic.Relation

/-!
# CheckAct: requests that check in one step and write in another

A request reads the store, is let through or not, and writes in a later step. What it was let
through with is kept outside of the store; between the two steps the store may change.

* `World D R`: the store, and the requests that passed their checks and have not written yet.
* `Service D R`: what the checks let through, what a request writes, and what else may happen to
  the store.
* `Step s timely`: one step. `timely` is a condition on the store that a write finds; with
  `fun _ _ => True` the runs are all interleavings.

Results:
* `run_induct`: what every timely write of a request that once passed its checks keeps, and
  everything else keeps, holds after every run.
* `run_passed`: the requests that wait have passed their checks.
* `alone`, `race`: a request that writes at once, and two that both check before one writes.
-/

namespace MyOriShop.Lib.CheckAct

open Relation

variable {D R : Type}

/-- A store, and the requests that wait for their write. -/
structure World (D R : Type) where
  store : D
  waiting : List R := []

/-- The checks, the writes, and whatever else happens. -/
structure Service (D R : Type) where
  passes : D → R → Prop
  write : D → R → D
  other : D → D → Prop

/-- The request has passed its checks, on some store. -/
def Service.Passed (s : Service D R) (r : R) : Prop := ∃ d, s.passes d r

/-- One step of one request, or of something else. -/
inductive Step (s : Service D R) (timely : D → R → Prop) (w : World D R) : World D R → Prop where
  | check (r : R) (h : s.passes w.store r) : Step s timely w ⟨w.store, r :: w.waiting⟩
  | write (r : R) (before after : List R) (hw : w.waiting = before ++ r :: after)
      (h : timely w.store r) : Step s timely w ⟨s.write w.store r, before ++ after⟩
  | other (d : D) (h : s.other w.store d) : Step s timely w ⟨d, w.waiting⟩

/-- Any number of steps. -/
def Run (s : Service D R) (timely : D → R → Prop) : World D R → World D R → Prop :=
  ReflTransGen (Step s timely)

variable {s : Service D R} {timely : D → R → Prop} {w w' : World D R} {d : D}

theorem step_passed (h : Step s timely w w') (hw : ∀ r ∈ w.waiting, s.Passed r) :
    ∀ r ∈ w'.waiting, s.Passed r := by
  cases h with
  | check r h => exact List.forall_mem_cons.mpr ⟨⟨_, h⟩, hw⟩
  | write r before after hwait =>
    intro r' hr'
    refine hw r' ?_
    rw [hwait, List.mem_append, List.mem_cons]
    exact (List.mem_append.mp hr').imp_right .inr
  | other => exact hw

/-- **The requests that wait** have passed their checks. -/
theorem run_passed (h : Run s timely w w') (hw : ∀ r ∈ w.waiting, s.Passed r) :
    ∀ r ∈ w'.waiting, s.Passed r := by
  induction h with
  | refl => exact hw
  | tail _ hstep ih => exact step_passed hstep ih

/-- **Invariants of the store**: what the timely writes and everything else keep. -/
theorem run_induct {Inv : D → Prop} (hother : ∀ d d', s.other d d' → Inv d → Inv d')
    (hwrite : ∀ d r, s.Passed r → timely d r → Inv d → Inv (s.write d r))
    (h : Run s timely w w') (hw : ∀ r ∈ w.waiting, s.Passed r) (hd : Inv w.store) :
    Inv w'.store := by
  induction h with
  | refl => exact hd
  | tail hrun hstep ih =>
    cases hstep with
    | check => exact ih
    | write r before after hwait htimely =>
      refine hwrite _ r (run_passed hrun hw r ?_) htimely ih
      rw [hwait]
      exact List.mem_append_right _ List.mem_cons_self
    | other d hd => exact hother _ d hd ih

/-- A request that writes right after its checks. -/
theorem alone {r : R} {rest : List R} (h : s.passes d r) (htimely : timely d r) :
    Run s timely ⟨d, rest⟩ ⟨s.write d r, rest⟩ :=
  .tail (.single (.check r h)) (.write r [] rest rfl htimely)

/-- Two requests that both pass their checks before one of them writes. -/
theorem race {r r' : R} {rest : List R} (h : s.passes d r) (h' : s.passes d r')
    (htimely : timely d r) (htimely' : timely (s.write d r) r') :
    Run s timely ⟨d, rest⟩ ⟨s.write (s.write d r) r', rest⟩ :=
  .tail (.tail (.tail (.single (.check r' h')) (.check r h))
    (.write r [] (r' :: rest) rfl htimely)) (.write r' [] rest rfl htimely')

end MyOriShop.Lib.CheckAct
