import MyOriShop.Lib.Transaction

/-!
# Atomic: units of work that publish everything or nothing

A unit of work stages its writes and then commits them, or answers no, or raises.

* `Stages w x Q`: from the working copy `w` the program `x` publishes nothing, and what it returns
  satisfies `Q` with the working copy it leaves.
* `Closes c w no x Q`: from the published store `c` and the working copy `w` the program ends the
  unit of work as `Ended` says. It raises and has published nothing; or it answers no (`no`), has
  published nothing and left nothing pending; or it has published its working copy in one commit
  (or had nothing to publish), with `Q`.

One rule for each operation follows a program step by step, as for `KeepsAt`: `stages_bind`,
`closes_bind`, `closes_commit`, `closes_rollback`, `closes_recover`.
-/

namespace MyOriShop.Lib.Transaction

variable {D E α β : Type} {c w : D}

/-! ## Staging -/

/-- The program publishes nothing, and returns with `Q`. -/
def Stages (w : D) (x : Tx D E α) (Q : α → D → Prop) : Prop :=
  ∀ s : Session D, s.working = w →
    (x s).2.committed = s.committed ∧ (x s).2.commits = s.commits ∧
      ∀ a, (x s).1 = .ok a → Q a (x s).2.working

theorem Stages.mono {x : Tx D E α} {Q R : α → D → Prop} (h : Stages w x Q)
    (hQR : ∀ a w', Q a w' → R a w') : Stages w x R := by
  intro s hs
  obtain ⟨hc, hn, hQ⟩ := h s hs
  exact ⟨hc, hn, fun a ha => hQR a _ (hQ a ha)⟩

theorem stages_pure {a : α} {Q : α → D → Prop} (h : Q a w) : Stages w (pure a : Tx D E α) Q := by
  rintro s rfl
  refine ⟨rfl, rfl, ?_⟩
  rintro _ ⟨⟩
  exact h

theorem stages_raise {e : E} {Q : α → D → Prop} : Stages w (Tx.raise e : Tx D E α) Q := by
  rintro s -
  refine ⟨rfl, rfl, fun a ha => ?_⟩
  cases ha

theorem stages_bind {x : Tx D E α} {f : α → Tx D E β} {R : α → D → Prop} {Q : β → D → Prop}
    (hx : Stages w x R) (hf : ∀ a w', R a w' → Stages w' (f a) Q) : Stages w (x >>= f) Q := by
  intro s hs
  obtain ⟨hc, hn, hR⟩ := hx s hs
  show (Tx.andThen x f s).2.committed = s.committed ∧ (Tx.andThen x f s).2.commits = s.commits ∧
    ∀ b, (Tx.andThen x f s).1 = .ok b → Q b (Tx.andThen x f s).2.working
  unfold Tx.andThen
  cases hxs : x s with
  | mk r s' =>
    rw [hxs] at hc hn hR
    cases r with
    | error e => exact ⟨hc, hn, fun b hb => nomatch hb⟩
    | ok a =>
      obtain ⟨hc', hn', hQ⟩ := hf a s'.working (hR a rfl) s' rfl
      exact ⟨hc'.trans hc, hn'.trans hn, hQ⟩

theorem stages_read {f : D → Tx D E β} {Q : β → D → Prop} (h : Stages w (f w) Q) :
    Stages w (Tx.read >>= f) Q := by
  rintro s rfl
  exact h s rfl

theorem stages_tick {f : Nat → Tx D E β} {Q : β → D → Prop} (h : ∀ n, Stages w (f n) Q) :
    Stages w (Tx.tick >>= f) Q := by
  rintro s rfl
  exact h s.reads { s with reads := s.reads + 1 } rfl

theorem stages_stage {g : D → D} {f : Unit → Tx D E β} {Q : β → D → Prop}
    (h : Stages (g w) (f ()) Q) : Stages w (Tx.stage g >>= f) Q := by
  rintro s rfl
  exact h { s with working := g s.working } rfl

/-- After a flush the store's checks hold of the working copy. -/
theorem stages_flush {check : D → Bool} {e : E} {f : Unit → Tx D E β} {Q : β → D → Prop}
    (h : check w = true → Stages w (f ()) Q) : Stages w (Tx.flush check e >>= f) Q := by
  refine stages_bind (R := fun _ w' => w' = w ∧ check w = true) ?_ ?_
  · rintro s rfl
    unfold Tx.flush
    by_cases hc : check s.working = true
    · rw [if_pos hc]
      exact ⟨rfl, rfl, fun _ _ => ⟨rfl, hc⟩⟩
    · rw [if_neg hc]
      exact ⟨rfl, rfl, fun a ha => nomatch ha⟩
  · rintro _ _ ⟨rfl, hc⟩
    exact h hc

/-! ## The end of a unit of work -/

/-- How a unit of work ends that found `c` published, in `n` commits. -/
inductive Ended (c : D) (n : Nat) (no : α → Prop) (Q : α → D → Prop) :
    Except E α → Session D → Prop where
  /-- It raised, and nothing is published. -/
  | raised (e : E) (s : Session D) (hc : s.committed = c) (hn : s.commits = n) :
      Ended c n no Q (.error e) s
  /-- It answered no, nothing is published and nothing is pending. -/
  | refused (a : α) (s : Session D) (ha : no a) (hc : s.committed = c) (hn : s.commits = n)
      (hw : s.working = c) : Ended c n no Q (.ok a) s
  /-- It is done: nothing is pending, and what it wrote was published in one commit. -/
  | done (a : α) (s : Session D) (ha : ¬no a) (hw : s.working = s.committed)
      (hn : s.commits = n + 1 ∨ s.commits = n ∧ s.committed = c) (hQ : Q a s.committed) :
      Ended c n no Q (.ok a) s

/-- The program ends the unit of work. -/
def Closes (c w : D) (no : α → Prop) (x : Tx D E α) (Q : α → D → Prop) : Prop :=
  ∀ s : Session D, s.committed = c → s.working = w → Ended c s.commits no Q (x s).1 (x s).2

variable {no : α → Prop} {Q : α → D → Prop}

theorem Closes.mono {x : Tx D E α} {R : α → D → Prop} (h : Closes c w no x Q)
    (hQR : ∀ a d, Q a d → R a d) : Closes c w no x R := by
  intro s hc hw
  have hend := h s hc hw
  cases hr : (x s).1 with
  | error e =>
    rw [hr] at hend
    cases hend with
    | raised _ _ hc hn => exact .raised _ _ hc hn
  | ok a =>
    rw [hr] at hend
    cases hend with
    | refused _ _ ha hc hn hw => exact .refused _ _ ha hc hn hw
    | done _ _ ha hw hn hQ => exact .done _ _ ha hw hn (hQR _ _ hQ)

/-- An answer before anything was staged. -/
theorem closes_refuse {a : α} (h : no a) : Closes c c no (pure a : Tx D E α) Q :=
  fun s hc hw => .refused a s h hc rfl hw

/-- A unit of work with nothing to write. -/
theorem closes_idle {a : α} (h : ¬no a) (hQ : Q a c) : Closes c c no (pure a : Tx D E α) Q :=
  fun s hc hw => .done a s h (hw.trans hc.symm) (.inr ⟨rfl, hc⟩) (hc.symm ▸ hQ)

theorem closes_raise {e : E} : Closes c w no (Tx.raise e : Tx D E α) Q :=
  fun s hc _ => .raised e s hc rfl

theorem closes_bind {x : Tx D E β} {f : β → Tx D E α} {R : β → D → Prop} (hx : Stages w x R)
    (hf : ∀ b w', R b w' → Closes c w' no (f b) Q) : Closes c w no (x >>= f) Q := by
  intro s hsc hsw
  obtain ⟨hc, hn, hR⟩ := hx s hsw
  show Ended c s.commits no Q (Tx.andThen x f s).1 (Tx.andThen x f s).2
  unfold Tx.andThen
  cases hxs : x s with
  | mk r s' =>
    rw [hxs] at hc hn hR
    cases r with
    | error e => exact .raised e s' (hc.trans hsc) hn
    | ok b =>
      have hend := hf b s'.working (hR b rfl) s' (hc.trans hsc) rfl
      rw [hn] at hend
      exact hend

theorem closes_read {f : D → Tx D E α} (h : Closes c w no (f w) Q) :
    Closes c w no (Tx.read >>= f) Q := by
  rintro s hc rfl
  exact h s hc rfl

theorem closes_stage {g : D → D} {f : Unit → Tx D E α} (h : Closes c (g w) no (f ()) Q) :
    Closes c w no (Tx.stage g >>= f) Q := by
  rintro s hc rfl
  exact h { s with working := g s.working } hc rfl

/-- The commit that ends a unit of work. -/
theorem closes_commit {check : D → Bool} {e : E} {a : α} (ha : ¬no a)
    (hQ : check w = true → Q a w) :
    Closes c w no (Tx.commit check e >>= fun _ => (pure a : Tx D E α)) Q := by
  rintro s hc rfl
  show Ended c s.commits no Q (Tx.andThen (Tx.commit check e) (fun _ => pure a) s).1
    (Tx.andThen (Tx.commit check e) (fun _ => pure a) s).2
  unfold Tx.andThen Tx.commit
  by_cases hok : check s.working = true
  · rw [if_pos hok]
    exact .done a _ ha rfl (.inl rfl) (hQ hok)
  · rw [if_neg hok]
    exact .raised e s hc rfl

/-- A rollback and an answer no. -/
theorem closes_rollback {a : α} (ha : no a) :
    Closes c w no (Tx.rollback >>= fun _ => (pure a : Tx D E α)) Q :=
  fun _ hc _ => .refused a _ ha hc rfl hc

theorem closes_recover {x : Tx D E α} {handler : E → Option (Tx D E α)}
    (hx : Closes c w no x Q)
    (hh : ∀ e y, handler e = some y → ∀ w', Closes c w' no y Q) :
    Closes c w no (Tx.recover x handler) Q := by
  intro s hc hw
  have hend := hx s hc hw
  unfold Tx.recover
  cases hxs : x s with
  | mk r s' =>
    rw [hxs] at hend
    cases r with
    | ok a => exact hend
    | error e =>
      cases hend with
      | raised _ _ hc' hn' =>
        simp only
        split
        · next y hy =>
          have hlast := hh e y hy s'.working s' hc' rfl
          rw [hn'] at hlast
          exact hlast
        · exact .raised e s' hc' hn'

/-- A result that is passed on under another name. -/
theorem closes_map {x : Tx D E β} {g : β → α} (h : Closes c w (fun b => no (g b)) x
    fun b d => Q (g b) d) : Closes c w no (x >>= fun b => (pure (g b) : Tx D E α)) Q := by
  intro s hc hw
  have hend := h s hc hw
  show Ended c s.commits no Q (Tx.andThen x (fun b => pure (g b)) s).1
    (Tx.andThen x (fun b => pure (g b)) s).2
  unfold Tx.andThen
  cases hxs : x s with
  | mk r s' =>
    rw [hxs] at hend
    cases r with
    | error e =>
      cases hend with
      | raised _ _ hc hn => exact .raised _ _ hc hn
    | ok b =>
      cases hend with
      | refused _ _ ha hc hn hw => exact .refused _ _ ha hc hn hw
      | done _ _ ha hw hn hQ => exact .done _ _ ha hw hn hQ

/-- **The store after a unit of work** in a session of its own: what it was, or what the program
has done. -/
theorem exec_of_closes {x : Tx D E α} {d : D} (h : Closes d d no x Q) :
    x.exec d = d ∨ ∃ a, x.reply d = .ok a ∧ Q a (x.exec d) := by
  have hend := h ⟨d, d, 0, 0⟩ rfl rfl
  unfold Tx.exec Tx.reply
  cases hr : (x ⟨d, d, 0, 0⟩).1 with
  | error e =>
    rw [hr] at hend
    cases hend with
    | raised _ _ hc => exact .inl hc
  | ok a =>
    rw [hr] at hend
    cases hend with
    | refused _ _ _ hc => exact .inl hc
    | done _ _ _ _ _ hQ => exact .inr ⟨a, rfl, hQ⟩

/-- A unit of work that is done has done what it says. -/
theorem done_of_closes {x : Tx D E α} {d : D} {a : α} (h : Closes d d no x Q)
    (hr : x.reply d = .ok a) (ha : ¬no a) : Q a (x.exec d) := by
  have hend := h ⟨d, d, 0, 0⟩ rfl rfl
  unfold Tx.exec
  unfold Tx.reply at hr
  rw [hr] at hend
  cases hend with
  | refused _ _ hno => exact absurd hno ha
  | done _ _ _ _ _ hQ => exact hQ

end MyOriShop.Lib.Transaction
