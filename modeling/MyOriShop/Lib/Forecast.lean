import Mathlib.Data.List.Pairwise

/-!
# Forecast: a run foretold without its effects

A program is run over a list of inputs, and another, which remembers what it has foretold, says
beforehand what each of its steps will do. Histories are kept with the latest entry first.

* `Runs` is a run: each input takes one step and leaves one output.
* `Foretells`: the forecasts agree with the outputs, each judged with the outputs before it.
* `Along` is a condition on each input and the inputs before it, `lastOf` the last input of a group.

Results:
* `foretells_iff`: with a relation between memory and state that a step keeps where its forecast was
  right, the forecasts are right exactly where the condition holds along the inputs.
* `along_lastOf_iff`: a condition on the last input of the same group concerns every input that
  another one of its group follows.
-/

namespace MyOriShop.Lib.Forecast

variable {ι σ τ ο π : Type}

/-! ## Runs and forecasts -/

/-- A run over a list of inputs. -/
inductive Runs (step : τ → ι → ο → τ → Prop) : τ → List ι → List ο → τ → Prop where
  | nil (t : τ) : Runs step t [] [] t
  | cons {t t' t'' : τ} {i : ι} {o : ο} {is : List ι} {os : List ο} (head : step t i o t')
      (tail : Runs step t' is os t'') : Runs step t (i :: is) (o :: os) t''

/-- What is foretold, one input after another. -/
def forecasts (foretell : σ → ι → π × σ) : σ → List ι → List π
  | _, [] => []
  | m, i :: is => (foretell m i).1 :: forecasts foretell (foretell m i).2 is

/-- The memory after it. -/
def memory (foretell : σ → ι → π × σ) (m : σ) (is : List ι) : σ :=
  is.foldl (fun m i => (foretell m i).2) m

/-- Each forecast agrees with its output, `seen` being the outputs before it. -/
def Foretells (agree : List ο → π → ο → Prop) : List ο → List π → List ο → Prop
  | _, [], [] => True
  | seen, p :: ps, o :: os => agree seen p o ∧ Foretells agree (o :: seen) ps os
  | _, _, _ => False

/-- A condition on each input, `past` being the inputs before it. -/
def Along (C : List ι → ι → Prop) : List ι → List ι → Prop
  | _, [] => True
  | past, i :: is => C past i ∧ Along C (i :: past) is

/-- A run over inputs that all have a property. -/
theorem Runs.of_forall {step : τ → ι → ο → τ → Prop} {P : ι → Prop} {t t' : τ} {is : List ι}
    {os : List ο} (hrun : Runs step t is os t') (h : ∀ i ∈ is, P i) :
    Runs (fun t i o t' => P i ∧ step t i o t') t is os t' := by
  induction hrun with
  | nil t => exact .nil t
  | cons head tail ih =>
    obtain ⟨hi, his⟩ := List.forall_mem_cons.mp h
    exact .cons ⟨hi, head⟩ (ih his)

section Step

variable {step : τ → ι → ο → τ → Prop} {foretell : σ → ι → π × σ}
  {agree : List ο → π → ο → Prop} {C : List ι → ι → Prop}
  {R : List ι → List ο → σ → τ → Prop}

/-- The relation is kept by a step whose forecast was right, and it was right on the condition. -/
def Tracks (step : τ → ι → ο → τ → Prop) (foretell : σ → ι → π × σ)
    (agree : List ο → π → ο → Prop) (C : List ι → ι → Prop)
    (R : List ι → List ο → σ → τ → Prop) : Prop :=
  ∀ ⦃past seen m t i o t'⦄, R past seen m t → step t i o t' →
    (agree seen (foretell m i).1 o ↔ C past i) ∧
      (C past i → R (i :: past) (o :: seen) (foretell m i).2 t')

/-- **The forecasts are right** exactly where the condition holds along the inputs. -/
theorem foretells_iff (h : Tracks step foretell agree C R) {past : List ι} {seen : List ο} {m : σ}
    {t t' : τ} {is : List ι} {os : List ο} (hR : R past seen m t) (hrun : Runs step t is os t') :
    Foretells agree seen (forecasts foretell m is) os ↔ Along C past is := by
  induction hrun generalizing past seen m with
  | nil t => exact Iff.rfl
  | cons head tail ih =>
    obtain ⟨hagree, hkeep⟩ := h hR head
    show agree _ _ _ ∧ Foretells agree _ _ _ ↔ C _ _ ∧ Along C _ _
    rw [hagree]
    exact and_congr_right fun hC => ih (hkeep hC)

/-- The relation after a run on which the condition holds. -/
theorem tracked (h : Tracks step foretell agree C R) {past : List ι} {seen : List ο} {m : σ}
    {t t' : τ} {is : List ι} {os : List ο} (hR : R past seen m t) (hrun : Runs step t is os t')
    (halong : Along C past is) :
    R (is.reverse ++ past) (os.reverse ++ seen) (memory foretell m is) t' := by
  induction hrun generalizing past seen m with
  | nil t => exact hR
  | cons head tail ih =>
    obtain ⟨hC, hrest⟩ := halong
    simpa [memory] using ih ((h hR head).2 hC) hrest

end Step

/-- Forecasts that are right are so one by one. -/
theorem Foretells.forall₂ {agree : List ο → π → ο → Prop} {seen : List ο} {ps : List π}
    {os : List ο} (h : Foretells agree seen ps os) :
    List.Forall₂ (fun p o => ∃ seen, agree seen p o) ps os := by
  induction ps generalizing seen os with
  | nil =>
    cases os with
    | nil => exact .nil
    | cons o os => exact h.elim
  | cons p ps ih =>
    cases os with
    | nil => exact h.elim
    | cons o os => exact .cons ⟨seen, h.1⟩ (ih h.2)

/-! ## The last input of a group -/

variable {κ : Type} [DecidableEq κ] {group : ι → Option κ} {P : ι → Prop}

/-- The last of the past inputs in a group. -/
def lastOf (group : ι → Option κ) (g : κ) (past : List ι) : Option ι :=
  past.find? fun i => group i = some g

theorem lastOf_cons (g : κ) (i : ι) (past : List ι) :
    lastOf group g (i :: past) = if group i = some g then some i else lastOf group g past := by
  unfold lastOf
  rw [List.find?_cons]
  by_cases h : group i = some g <;> simp [h]

theorem group_of_lastOf {g : κ} {past : List ι} {i : ι} (h : lastOf group g past = some i) :
    group i = some g := by
  simpa using List.find?_some h

theorem mem_of_lastOf {g : κ} {past : List ι} {i : ι} (h : lastOf group g past = some i) :
    i ∈ past := List.mem_of_find?_eq_some h

/-- The condition on the last input of the same group. -/
def OnLast (group : ι → Option κ) (P : ι → Prop) (past : List ι) (i : ι) : Prop :=
  ∀ g ∈ group i, ∀ j ∈ lastOf group g past, P j

/-- An input of the group that is still to come makes the condition apply to the last one. -/
theorem Along.last {past is : List ι} (h : Along (OnLast group P) past is) {g : κ} {j : ι}
    (hj : lastOf group g past = some j) (hlater : ∃ i ∈ is, group i = some g) : P j := by
  induction is generalizing past with
  | nil =>
    obtain ⟨i, hi, -⟩ := hlater
    exact absurd hi List.not_mem_nil
  | cons x is ih =>
    obtain ⟨hx, hrest⟩ := h
    by_cases hgroup : group x = some g
    · exact hx g hgroup j hj
    · have hj' : lastOf group g (x :: past) = some j := by rw [lastOf_cons, if_neg hgroup, hj]
      refine ih hrest hj' ?_
      obtain ⟨i, hi, hig⟩ := hlater
      rcases List.mem_cons.mp hi with rfl | hi
      · exact absurd hig hgroup
      · exact ⟨i, hi, hig⟩

theorem along_iff {past is : List ι} :
    Along (OnLast group P) past is ↔
      (∀ g j, lastOf group g past = some j → (∃ i ∈ is, group i = some g) → P j) ∧
        is.Pairwise fun j i => (group j).isSome → group j = group i → P j := by
  induction is generalizing past with
  | nil => exact iff_of_true trivial ⟨by simp, .nil⟩
  | cons x is ih =>
    constructor
    · intro h
      refine ⟨fun g j hj => h.last hj, List.pairwise_cons.mpr ⟨fun i hi hsome hsame => ?_, ?_⟩⟩
      · obtain ⟨g, hg⟩ := Option.isSome_iff_exists.mp hsome
        have hlast : lastOf group g (x :: past) = some x := by rw [lastOf_cons, if_pos hg]
        exact h.2.last hlast ⟨i, hi, hsame ▸ hg⟩
      · exact (ih.mp h.2).2
    · rintro ⟨hlast, hpair⟩
      obtain ⟨hx, hrest⟩ := List.pairwise_cons.mp hpair
      refine ⟨fun g hg j hj => hlast g j hj ⟨x, List.mem_cons_self, hg⟩,
        ih.mpr ⟨fun g j hj hlater => ?_, hrest⟩⟩
      obtain ⟨i, hi, hig⟩ := hlater
      rw [lastOf_cons] at hj
      by_cases hgroup : group x = some g
      · rw [if_pos hgroup] at hj
        cases hj
        exact hx i hi (by simp [hgroup]) (hgroup.trans hig.symm)
      · rw [if_neg hgroup] at hj
        exact hlast g j hj ⟨i, List.mem_cons_of_mem x hi, hig⟩

/-- **Every input that another one of its group follows** is at some time the last one. -/
theorem along_lastOf_iff {is : List ι} :
    Along (OnLast group P) [] is ↔
      is.Pairwise fun j i => (group j).isSome → group j = group i → P j := by
  rw [along_iff]
  exact and_iff_right fun g j hj => nomatch hj

end MyOriShop.Lib.Forecast
