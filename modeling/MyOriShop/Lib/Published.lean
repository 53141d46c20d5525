import MyOriShop.Lib.Transaction

/-!
# Published: what a store's own checks promise of everything that is published

A program changes the published store by a commit alone, and a commit runs the checks of the store.

* `Publishes p x`: if what is published satisfies `p` when the program `x` starts, it does so when
  the program ends, however it ends.

One rule for each operation follows a program step by step. They are stated for every session, so
that a rule does not ask what is pending.

Results:
* `publishes_commit`: a commit publishes what its check lets through.
* `exec_publishes`: a program in a session of its own keeps `p`.
-/

namespace MyOriShop.Lib.Transaction

variable {D E α β : Type} {p : D → Prop}

/-- The program publishes nothing but what satisfies `p`. -/
def Publishes (p : D → Prop) (x : Tx D E α) : Prop :=
  ∀ s : Session D, p s.committed → p (x s).2.committed

/-- A program that publishes nothing. -/
theorem publishes_of_eq {x : Tx D E α} (h : ∀ s, (x s).2.committed = s.committed) :
    Publishes p x := by
  intro s hs
  rwa [h s]

theorem publishes_pure {a : α} : Publishes p (pure a : Tx D E α) := fun _ hs => hs

theorem publishes_raise {e : E} : Publishes p (Tx.raise e : Tx D E α) := fun _ hs => hs

theorem publishes_read : Publishes p (Tx.read : Tx D E D) := fun _ hs => hs

theorem publishes_stage {f : D → D} : Publishes p (Tx.stage f : Tx D E Unit) := fun _ hs => hs

theorem publishes_tick : Publishes p (Tx.tick : Tx D E Nat) := fun _ hs => hs

theorem publishes_rollback : Publishes p (Tx.rollback : Tx D E Unit) := fun _ hs => hs

theorem publishes_flush {check : D → Bool} {e : E} :
    Publishes p (Tx.flush check e : Tx D E Unit) := by
  refine publishes_of_eq fun s => ?_
  unfold Tx.flush
  split_ifs <;> rfl

theorem publishes_commit {check : D → Bool} {e : E} (h : ∀ d, check d = true → p d) :
    Publishes p (Tx.commit check e : Tx D E Unit) := by
  intro s hs
  unfold Tx.commit
  split_ifs with hc
  · exact h s.working hc
  · exact hs

theorem publishes_bind {x : Tx D E α} {f : α → Tx D E β} (hx : Publishes p x)
    (hf : ∀ a, Publishes p (f a)) : Publishes p (x >>= f) := by
  intro s hs
  have hfirst := hx s hs
  cases hxs : x s with
  | mk r s' =>
    rw [hxs] at hfirst
    cases r with
    | ok a =>
      rw [bind_run_ok hxs]
      exact hf a s' hfirst
    | error e =>
      rw [bind_run_error hxs]
      exact hfirst

theorem publishes_recover {x : Tx D E α} {handler : E → Option (Tx D E α)} (hx : Publishes p x)
    (hh : ∀ e y, handler e = some y → Publishes p y) : Publishes p (Tx.recover x handler) := by
  intro s hs
  have hfirst := hx s hs
  unfold Tx.recover
  cases hxs : x s with
  | mk r s' =>
    rw [hxs] at hfirst
    cases r with
    | ok a => exact hfirst
    | error e =>
      dsimp only
      split
      · next y hy => exact hh e y hy s' hfirst
      · exact hfirst

/-- **A program in a session of its own** leaves a store that satisfies `p`. -/
theorem exec_publishes {x : Tx D E α} {d : D} (h : Publishes p x) (hd : p d) : p (x.exec d) :=
  h ⟨d, d, 0, 0⟩ hd

end MyOriShop.Lib.Transaction
