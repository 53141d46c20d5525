import Mathlib.Order.Basic
import MyOriShop.Lib.Fallible

/-!
# Raising: programs on a state that may raise

A program changes a state and either returns or raises. What it has changed when it raises stays
changed: there is no transaction around it.

* `Prog σ ε α` is such a program, `exec` its run from a state.
* `ofExcept r` is a computation that may raise and has no effect, `step` an effect that either fails
  without trace or takes place.
* `Keeps f p`: however it ends, `p` leaves what `f` shows of the state as it was; with
  `KeepsUnless f Q p` it does so unless it ends as `Q` says.

Results:
* `exec_bind_ok_iff`: the rule of a sequence that returns.
* `Keeps.bind`, `Keeps.step`: the frame rules.
* `Keeps.then`, `KeepsUnless.returns`: a program that keeps `f` up to one last effect.
-/

namespace MyOriShop.Lib.Raising

variable {σ ε α β γ : Type}

/-- A program on the state `σ` that may raise `ε`. -/
abbrev Prog (σ ε α : Type) := ExceptT ε (StateM σ) α

/-- The run of a program: how it ends, and the state it leaves. -/
def exec (p : Prog σ ε α) (s : σ) : Except ε α × σ := StateT.run (ExceptT.run p) s

/-- An effect that takes place, or fails and leaves no trace. -/
def step (fault : Option ε) (effect : σ → σ) : Prog σ ε Unit :=
  match fault with
  | some e => throw e
  | none => modify effect

/-! ## Running -/

theorem exec_pure (a : α) (s : σ) : exec (pure a : Prog σ ε α) s = (.ok a, s) := rfl

theorem exec_throw (e : ε) (s : σ) : exec (throw e : Prog σ ε α) s = (.error e, s) := rfl

theorem exec_modify (effect : σ → σ) (s : σ) :
    exec (modify effect : Prog σ ε Unit) s = (.ok (), effect s) := rfl

theorem exec_ofExcept (r : Except ε α) (s : σ) :
    exec (ofExcept r : Prog σ ε α) s = (r, s) := by
  cases r <;> rfl

theorem exec_bind (p : Prog σ ε α) (k : α → Prog σ ε β) (s : σ) :
    exec (p >>= k) s =
      match exec p s with
      | (.ok a, s') => exec (k a) s'
      | (.error e, s') => (.error e, s') := by
  change (match (exec p s).1 with
    | .ok a => StateT.run (ExceptT.run (k a))
    | .error e => pure (Except.error e) : StateM σ (Except ε β)) (exec p s).2 = _
  rcases exec p s with ⟨_ | _, _⟩ <;> rfl

/-- A sequence that returns is two steps that return. -/
theorem exec_bind_ok_iff {p : Prog σ ε α} {k : α → Prog σ ε β} {s s' : σ} {b : β} :
    exec (p >>= k) s = (.ok b, s') ↔ ∃ a s₁, exec p s = (.ok a, s₁) ∧ exec (k a) s₁ = (.ok b, s') := by
  rw [exec_bind]
  rcases exec p s with ⟨e | a, s₁⟩
  · exact ⟨fun h => (nomatch h), fun ⟨a, _, h, _⟩ => (nomatch h)⟩
  · exact ⟨fun h => ⟨a, s₁, rfl, h⟩, fun ⟨a', s₂, h, h'⟩ => by cases h; exact h'⟩

theorem exec_step_ok_iff {fault : Option ε} {effect : σ → σ} {s s' : σ} :
    exec (step fault effect) s = (.ok (), s') ↔ fault = none ∧ s' = effect s := by
  cases fault with
  | none => exact ⟨fun h => by cases h; exact ⟨rfl, rfl⟩, fun ⟨_, h⟩ => by rw [h]; rfl⟩
  | some e => exact ⟨fun h => (nomatch h), fun ⟨h, _⟩ => (nomatch h)⟩

/-! ## What a program leaves alone -/

/-- However it ends, the program leaves what `f` shows as it was. -/
def Keeps (f : σ → γ) (p : Prog σ ε α) : Prop := ∀ s, f (exec p s).2 = f s

variable {f : σ → γ}

theorem Keeps.pure (a : α) : Keeps f (Pure.pure a : Prog σ ε α) := fun _ => rfl

theorem Keeps.throw (e : ε) : Keeps f (MonadExcept.throw e : Prog σ ε α) := fun _ => rfl

theorem Keeps.ofExcept (r : Except ε α) : Keeps f (ofExcept r : Prog σ ε α) := fun s => by
  rw [exec_ofExcept]

theorem Keeps.modify {effect : σ → σ} (h : ∀ s, f (effect s) = f s) :
    Keeps f (modify effect : Prog σ ε Unit) := h

theorem Keeps.step (fault : Option ε) {effect : σ → σ} (h : ∀ s, f (effect s) = f s) :
    Keeps f (step fault effect) := by
  cases fault with
  | none => exact h
  | some e => exact Keeps.throw e

theorem Keeps.bind {p : Prog σ ε α} {k : α → Prog σ ε β} (hp : Keeps f p) (hk : ∀ a, Keeps f (k a)) :
    Keeps f (p >>= k) := by
  intro s
  have hs := hp s
  rw [exec_bind]
  revert hs
  rcases exec p s with ⟨e | a, s₁⟩
  · exact id
  · exact (hk a s₁).trans

theorem Keeps.ite {c : Prop} [Decidable c] {p q : Prog σ ε α} (hp : Keeps f p) (hq : Keeps f q) :
    Keeps f (if c then p else q) := by
  split_ifs
  · exact hp
  · exact hq

/-- Unless it ends as `Q` says, the program leaves what `f` shows as it was. -/
def KeepsUnless (f : σ → γ) (Q : Except ε α → Prop) (p : Prog σ ε α) : Prop :=
  ∀ s, ¬Q (exec p s).1 → f (exec p s).2 = f s

/-- The program returned. -/
def Returned : Except ε α → Prop
  | .ok _ => True
  | .error _ => False

variable {Q : Except ε β → Prop}

theorem Keeps.unless {p : Prog σ ε β} (hp : Keeps f p) : KeepsUnless f Q p := fun s _ => hp s

/-- What comes first keeps `f`. -/
theorem Keeps.then {p : Prog σ ε α} {k : α → Prog σ ε β} (hp : Keeps f p)
    (hk : ∀ a, KeepsUnless f Q (k a)) : KeepsUnless f Q (p >>= k) := by
  intro s hQ
  have hs := hp s
  rw [exec_bind] at hQ ⊢
  revert hs hQ
  rcases exec p s with ⟨e | a, s₁⟩
  · exact fun _ hs => hs
  · exact fun hQ hs => (hk a s₁ hQ).trans hs

/-- What comes last always ends as `Q` says, if what comes before it returns. -/
theorem KeepsUnless.returns {p : Prog σ ε α} {k : α → Prog σ ε β} (hp : KeepsUnless f Returned p)
    (hk : ∀ a s, Q (exec (k a) s).1) : KeepsUnless f Q (p >>= k) := by
  intro s hQ
  have hs := hp s
  rw [exec_bind] at hQ ⊢
  revert hs hQ
  rcases exec p s with ⟨e | a, s₁⟩
  · exact fun _ hs => hs id
  · exact fun hQ _ => absurd (hk a s₁) hQ

/-- An effect on `f` itself. -/
theorem KeepsUnless.step (fault : Option ε) (effect : σ → σ) :
    KeepsUnless f Returned (step fault effect) := by
  intro s hret
  cases fault with
  | none => exact absurd trivial hret
  | some e => rfl

end MyOriShop.Lib.Raising
