import MyOriShop.Lib.Transaction

/-!
# Upholds: a store invariant, and the readings a program has made

* `Upholds I n x Q`: from a session after `n` readings whose published store and working copy
  satisfy `I`, the program `x` ends, however it ends, in a session whose both do. It takes no
  reading back, and what it returns satisfies `Q` at the number of readings made by then.

One rule for each operation follows a program step by step. A program that reads the working copy
may use that `I` holds of it, so a value computed from what was read carries what `I` says of it.

Results:
* `upholds_bind`: the value of the first program, with its facts, is what the second starts from.
* `exec_upholds`: a program in a session of its own keeps `I`.
-/

namespace MyOriShop.Lib.Transaction

variable {D E α β : Type} {I : D → Prop} {n : Nat} {Q : Nat → α → Prop}

/-- The program keeps the invariant, and returns with `Q`. -/
def Upholds (I : D → Prop) (n : Nat) (x : Tx D E α) (Q : Nat → α → Prop) : Prop :=
  ∀ s : Session D, s.reads = n → I s.committed → I s.working →
    n ≤ (x s).2.reads ∧ I (x s).2.committed ∧ I (x s).2.working ∧
      ∀ a, (x s).1 = .ok a → Q (x s).2.reads a

theorem Upholds.mono {x : Tx D E α} {R : Nat → α → Prop} (h : Upholds I n x Q)
    (hQR : ∀ m a, n ≤ m → Q m a → R m a) : Upholds I n x R := by
  intro s hn hc hw
  obtain ⟨hreads, hc', hw', hQ⟩ := h s hn hc hw
  exact ⟨hreads, hc', hw', fun a ha => hQR _ a hreads (hQ a ha)⟩

theorem upholds_pure {a : α} (h : Q n a) : Upholds I n (pure a : Tx D E α) Q := by
  rintro s rfl hc hw
  refine ⟨Nat.le_refl _, hc, hw, ?_⟩
  rintro _ ⟨⟩
  exact h

theorem upholds_raise {e : E} : Upholds I n (Tx.raise e : Tx D E α) Q := by
  rintro s rfl hc hw
  exact ⟨Nat.le_refl _, hc, hw, fun _ ha => nomatch ha⟩

theorem upholds_bind {x : Tx D E β} {f : β → Tx D E α} {R : Nat → β → Prop}
    (hx : Upholds I n x R) (hf : ∀ m b, n ≤ m → R m b → Upholds I m (f b) Q) :
    Upholds I n (x >>= f) Q := by
  intro s hn hc hw
  obtain ⟨hreads, hc', hw', hR⟩ := hx s hn hc hw
  cases hxs : x s with
  | mk r s' =>
    rw [hxs] at hreads hc' hw' hR
    cases r with
    | error e =>
      rw [bind_run_error hxs]
      exact ⟨hreads, hc', hw', fun _ ha => nomatch ha⟩
    | ok b =>
      rw [bind_run_ok hxs]
      obtain ⟨hreads', hrest⟩ := hf s'.reads b hreads (hR b rfl) s' rfl hc' hw'
      exact ⟨Nat.le_trans hreads hreads', hrest⟩

/-- The working copy that is read satisfies the invariant. -/
theorem upholds_read {f : D → Tx D E α} (h : ∀ w, I w → Upholds I n (f w) Q) :
    Upholds I n (Tx.read >>= f) Q :=
  fun s hn hc hw => h s.working hw s hn hc hw

/-- A reading is the next one, and is counted. -/
theorem upholds_tick {f : Nat → Tx D E α} (h : Upholds I (n + 1) (f n) Q) :
    Upholds I n (Tx.tick >>= f) Q := by
  rintro s rfl hc hw
  obtain ⟨hreads, hrest⟩ := h { s with reads := s.reads + 1 } rfl hc hw
  exact ⟨Nat.le_of_succ_le hreads, hrest⟩

theorem upholds_stage {g : D → D} {f : Unit → Tx D E α} (hg : ∀ w, I w → I (g w))
    (h : Upholds I n (f ()) Q) : Upholds I n (Tx.stage g >>= f) Q :=
  fun s hn hc hw => h { s with working := g s.working } hn hc (hg _ hw)

theorem upholds_flush {check : D → Bool} {e : E} {f : Unit → Tx D E α}
    (h : Upholds I n (f ()) Q) : Upholds I n (Tx.flush check e >>= f) Q := by
  intro s hn hc hw
  by_cases hcheck : check s.working = true
  · rw [bind_run_ok (show Tx.flush check e s = (.ok (), s) from if_pos hcheck)]
    exact h s hn hc hw
  · rw [bind_run_error (show Tx.flush check e s = (.error e, s) from if_neg hcheck)]
    exact ⟨Nat.le_of_eq hn.symm, hc, hw, fun _ ha => nomatch ha⟩

/-- A commit publishes a working copy that satisfies the invariant. -/
theorem upholds_commit {check : D → Bool} {e : E} {Q : Nat → Unit → Prop} (h : Q n ()) :
    Upholds I n (Tx.commit check e : Tx D E Unit) Q := by
  rintro s rfl hc hw
  unfold Tx.commit
  split_ifs
  · exact ⟨Nat.le_refl _, hw, hw, fun _ _ => h⟩
  · exact ⟨Nat.le_refl _, hc, hw, fun _ ha => nomatch ha⟩

theorem upholds_rollback {Q : Nat → Unit → Prop} (h : Q n ()) :
    Upholds I n (Tx.rollback : Tx D E Unit) Q := by
  rintro s rfl hc -
  exact ⟨Nat.le_refl _, hc, hc, fun _ _ => h⟩

theorem upholds_recover {x : Tx D E α} {handler : E → Option (Tx D E α)} (hx : Upholds I n x Q)
    (hh : ∀ m e y, n ≤ m → handler e = some y → Upholds I m y Q) :
    Upholds I n (Tx.recover x handler) Q := by
  intro s hn hc hw
  obtain ⟨hreads, hc', hw', hQ⟩ := hx s hn hc hw
  unfold Tx.recover
  cases hxs : x s with
  | mk r s' =>
    rw [hxs] at hreads hc' hw' hQ
    cases r with
    | ok a => exact ⟨hreads, hc', hw', hQ⟩
    | error e =>
      dsimp only
      split
      · next y hy =>
        obtain ⟨hreads', hrest⟩ := hh s'.reads e y hreads hy s' rfl hc' hw'
        exact ⟨Nat.le_trans hreads hreads', hrest⟩
      · exact ⟨hreads, hc', hw', fun _ ha => nomatch ha⟩

/-- **A program in a session of its own** keeps the invariant. -/
theorem exec_upholds {x : Tx D E α} {d : D} (h : Upholds I 0 x Q) (hd : I d) : I (x.exec d) :=
  (h ⟨d, d, 0, 0⟩ rfl hd hd).2.1

end MyOriShop.Lib.Transaction
