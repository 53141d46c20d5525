import Mathlib.Data.List.Basic
import Mathlib.Logic.Relation

/-!
# Transaction: programs over a transactional store

A unit of work reads and writes a private working copy of the store; `commit` publishes the copy,
`rollback` throws it away, and a program that ends without a commit leaves no trace.

* `Session D` holds the published store and the working copy, and counts what the program has
  taken from outside (clock readings) and how often it has published.
* `Tx D E α` is a program that may raise an `E`; what it staged before it raised is still there,
  as in a session whose caller has to roll back.
* `Tx.exec` runs a program in a fresh session and closes it.

Rules, for a relation `P` that lists the single writes a program is allowed:
* `KeepsAt P w x`: started with the working copy `w` reached by `P`-writes from the published
  store, `x` publishes only stores reached by `P`-writes, and again leaves the working copy so.
* `keepsAt_bind`, `keepsAt_recover` and one rule for each operation follow a program step by
  step; the working copy is known as long as only reads, stages and commits have happened.
* `exec_reaches`: the store after a program that keeps `P` is reached by `P`-writes.
-/

namespace MyOriShop.Lib.Transaction

open Relation

/-- A unit of work on a store of type `D`. -/
structure Session (D : Type) where
  committed : D
  working : D
  reads : Nat
  commits : Nat

/-- A program over a store `D` that may raise an `E`. -/
def Tx (D E α : Type) : Type := Session D → Except E α × Session D

variable {D E α β : Type}

namespace Tx

/-- The program that only returns a value. -/
def ret (a : α) : Tx D E α := fun s => (.ok a, s)

/-- One program after another; an exception ends the sequence. -/
def andThen (x : Tx D E α) (f : α → Tx D E β) : Tx D E β := fun s =>
  match x s with
  | (.ok a, s') => f a s'
  | (.error e, s') => (.error e, s')

instance : Monad (Tx D E) where
  pure := ret
  bind := andThen

/-- `raise e`. -/
def raise (e : E) : Tx D E α := fun s => (.error e, s)

/-- `try x except: handler`, for the exceptions the handler takes (`none` lets one pass). -/
def recover (x : Tx D E α) (handler : E → Option (Tx D E α)) : Tx D E α := fun s =>
  match x s with
  | (.ok a, s') => (.ok a, s')
  | (.error e, s') =>
    match handler e with
    | some y => y s'
    | none => (.error e, s')

/-- The working copy. -/
def read : Tx D E D := fun s => (.ok s.working, s)

/-- A write to the working copy. -/
def stage (f : D → D) : Tx D E Unit := fun s => (.ok (), { s with working := f s.working })

/-- The number of the next reading taken from outside. -/
def tick : Tx D E Nat := fun s => (.ok s.reads, { s with reads := s.reads + 1 })

/-- The store's own checks on the working copy, `e` when one fails. -/
def flush (check : D → Bool) (e : E) : Tx D E Unit := fun s =>
  if check s.working then (.ok (), s) else (.error e, s)

/-- Publish the working copy, after the store's own checks. -/
def commit (check : D → Bool) (e : E) : Tx D E Unit := fun s =>
  if check s.working then
    (.ok (), { s with committed := s.working, commits := s.commits + 1 })
  else (.error e, s)

/-- Throw the working copy away. -/
def rollback : Tx D E Unit := fun s => (.ok (), { s with working := s.committed })

/-- Run a program in a fresh session and close it: only what was committed stays. -/
def exec (x : Tx D E α) (d : D) : D := (x ⟨d, d, 0, 0⟩).2.committed

/-- What a program run in a fresh session returns or raises. -/
def reply (x : Tx D E α) (d : D) : Except E α := (x ⟨d, d, 0, 0⟩).1

end Tx

/-! ## Running a program step by step -/

theorem bind_run_ok {x : Tx D E α} {f : α → Tx D E β} {s s' : Session D} {a : α}
    (h : x s = (.ok a, s')) : (x >>= f) s = f a s' := by
  show Tx.andThen x f s = f a s'
  unfold Tx.andThen
  rw [h]

theorem bind_run_error {x : Tx D E α} {f : α → Tx D E β} {s s' : Session D} {e : E}
    (h : x s = (.error e, s')) : (x >>= f) s = (.error e, s') := by
  show Tx.andThen x f s = (.error e, s')
  unfold Tx.andThen
  rw [h]

/-- A sequence that returned has run its parts one after another. -/
theorem bind_run_inv {x : Tx D E α} {f : α → Tx D E β} {s s' : Session D} {b : β}
    (h : (x >>= f) s = (.ok b, s')) : ∃ a s₁, x s = (.ok a, s₁) ∧ f a s₁ = (.ok b, s') := by
  change Tx.andThen x f s = (.ok b, s') at h
  unfold Tx.andThen at h
  cases hx : x s with
  | mk r s₁ =>
    rw [hx] at h
    cases r with
    | error e => cases (Prod.ext_iff.mp h).1
    | ok a => exact ⟨a, s₁, rfl, h⟩

theorem recover_run_ok {x : Tx D E α} {handler : E → Option (Tx D E α)} {s s' : Session D} {a : α}
    (h : x s = (.ok a, s')) : Tx.recover x handler s = (.ok a, s') := by
  unfold Tx.recover
  rw [h]

theorem recover_run_error {x y : Tx D E α} {g : E → Option (Tx D E α)} {s s' : Session D}
    {e : E} (h : x s = (.error e, s')) (hy : g e = some y) :
    Tx.recover x g s = y s' := by
  unfold Tx.recover
  rw [h]
  simp only [hy]

theorem commit_run {check : D → Bool} {e : E} {s : Session D} (h : check s.working = true) :
    (Tx.commit check e : Tx D E Unit) s =
      (.ok (), { s with committed := s.working, commits := s.commits + 1 }) :=
  if_pos h

/-- Two programs that do the same with the working copy they are given. -/
theorem read_bind_congr {f g : D → Tx D E β} (h : ∀ s : Session D, f s.working s = g s.working s) :
    (Tx.read >>= f) = Tx.read >>= g :=
  funext h

/-! ## What a program can do to the store -/

variable {P : D → D → Prop}

/-- From the working copy `w`, the program only makes `P`-writes. -/
def KeepsAt (P : D → D → Prop) (w : D) (x : Tx D E α) : Prop :=
  ∀ s : Session D, s.working = w → ReflTransGen P s.committed w →
    ReflTransGen P s.committed (x s).2.committed ∧
      ReflTransGen P (x s).2.committed (x s).2.working

/-- From every working copy, the program only makes `P`-writes. -/
def Keeps (P : D → D → Prop) (x : Tx D E α) : Prop := ∀ w, KeepsAt P w x

theorem keepsAt_pure (w : D) (a : α) : KeepsAt P w (pure a : Tx D E α) := by
  rintro s rfl h
  exact ⟨.refl, h⟩

theorem keepsAt_raise (w : D) (e : E) : KeepsAt P w (Tx.raise e : Tx D E α) := by
  rintro s rfl h
  exact ⟨.refl, h⟩

theorem keepsAt_bind {w : D} {x : Tx D E α} {f : α → Tx D E β} (hx : KeepsAt P w x)
    (hf : ∀ a, Keeps P (f a)) : KeepsAt P w (x >>= f) := by
  intro s hw h
  obtain ⟨h1, h2⟩ := hx s hw h
  show ReflTransGen P s.committed (Tx.andThen x f s).2.committed ∧
    ReflTransGen P (Tx.andThen x f s).2.committed (Tx.andThen x f s).2.working
  unfold Tx.andThen
  cases hxs : x s with
  | mk r s' =>
    rw [hxs] at h1 h2
    cases r with
    | error e => exact ⟨h1, h2⟩
    | ok a =>
      obtain ⟨h3, h4⟩ := hf a s'.working s' rfl h2
      exact ⟨h1.trans h3, h4⟩

/-- The program writes nothing: it reads, it ticks, it may raise. -/
def Still (x : Tx D E α) : Prop :=
  ∀ s : Session D, (x s).2.committed = s.committed ∧ (x s).2.working = s.working

theorem still_pure (a : α) : Still (pure a : Tx D E α) := fun _ => ⟨rfl, rfl⟩

theorem still_tick : Still (Tx.tick : Tx D E Nat) := fun _ => ⟨rfl, rfl⟩

theorem still_bind {x : Tx D E α} {f : α → Tx D E β} (hx : Still x) (hf : ∀ a, Still (f a)) :
    Still (x >>= f) := by
  intro s
  obtain ⟨h1, h2⟩ := hx s
  show (Tx.andThen x f s).2.committed = s.committed ∧ (Tx.andThen x f s).2.working = s.working
  unfold Tx.andThen
  cases hxs : x s with
  | mk r s' =>
    rw [hxs] at h1 h2
    cases r with
    | error e => exact ⟨h1, h2⟩
    | ok a =>
      obtain ⟨h3, h4⟩ := hf a s'
      exact ⟨h3.trans h1, h4.trans h2⟩

/-- A program that leaves the session's working copy alone hands `w` on. -/
theorem keepsAt_bind_still {w : D} {x : Tx D E α} {f : α → Tx D E β}
    (hx : Still x) (hf : ∀ a, KeepsAt P w (f a)) : KeepsAt P w (x >>= f) := by
  rintro s rfl h
  show ReflTransGen P s.committed (Tx.andThen x f s).2.committed ∧
    ReflTransGen P (Tx.andThen x f s).2.committed (Tx.andThen x f s).2.working
  unfold Tx.andThen
  obtain ⟨hc, hw⟩ := hx s
  cases hxs : x s with
  | mk r s' =>
    rw [hxs] at hc hw
    simp only at hc hw
    cases r with
    | error e =>
      rw [← hc, ← hw] at h
      rw [← hc]
      exact ⟨.refl, h⟩
    | ok a =>
      rw [← hc] at h ⊢
      exact hf a s' hw h

theorem keepsAt_read {w : D} {f : D → Tx D E β} (h : KeepsAt P w (f w)) :
    KeepsAt P w (Tx.read >>= f) := by
  rintro s rfl hs
  exact h s rfl hs

theorem keepsAt_tick {w : D} {f : Nat → Tx D E β} (h : ∀ n, KeepsAt P w (f n)) :
    KeepsAt P w (Tx.tick >>= f) :=
  keepsAt_bind_still still_tick h

/-- After a flush the store's checks hold of the working copy. -/
theorem keepsAt_flush {w : D} {check : D → Bool} {e : E} {f : Unit → Tx D E β}
    (h : check w = true → KeepsAt P w (f ())) : KeepsAt P w (Tx.flush check e >>= f) := by
  rintro s rfl hs
  show ReflTransGen P s.committed (Tx.andThen (Tx.flush check e) f s).2.committed ∧
    ReflTransGen P (Tx.andThen (Tx.flush check e) f s).2.committed
      (Tx.andThen (Tx.flush check e) f s).2.working
  unfold Tx.andThen Tx.flush
  by_cases hc : check s.working = true
  · rw [if_pos hc]
    exact h hc s rfl hs
  · rw [if_neg hc]
    exact ⟨.refl, hs⟩

theorem keepsAt_stage {w : D} {g : D → D} {f : Unit → Tx D E β} (hg : P w (g w))
    (h : KeepsAt P (g w) (f ())) : KeepsAt P w (Tx.stage g >>= f) := by
  rintro s rfl hs
  exact h { s with working := g s.working } rfl (hs.tail hg)

/-- A commit publishes the working copy and keeps it. -/
theorem keepsAt_commit {w : D} {check : D → Bool} {e : E} {f : Unit → Tx D E β}
    (h : KeepsAt P w (f ())) : KeepsAt P w (Tx.commit check e >>= f) := by
  rintro s rfl hs
  show ReflTransGen P s.committed (Tx.andThen (Tx.commit check e) f s).2.committed ∧
    ReflTransGen P (Tx.andThen (Tx.commit check e) f s).2.committed
      (Tx.andThen (Tx.commit check e) f s).2.working
  unfold Tx.andThen Tx.commit
  by_cases hc : check s.working = true
  · rw [if_pos hc]
    obtain ⟨h1, h2⟩ :=
      h { s with committed := s.working, commits := s.commits + 1 } rfl .refl
    exact ⟨hs.trans h1, h2⟩
  · rw [if_neg hc]
    exact ⟨.refl, hs⟩

theorem keeps_commit (check : D → Bool) (e : E) : Keeps P (Tx.commit check e : Tx D E Unit) := by
  rintro w s rfl hs
  unfold Tx.commit
  split
  · exact ⟨hs, .refl⟩
  · exact ⟨.refl, hs⟩

theorem keeps_rollback_bind {f : Unit → Tx D E β} (h : Keeps P (f ())) :
    Keeps P (Tx.rollback >>= f) := by
  rintro w s rfl hs
  exact h s.committed { s with working := s.committed } rfl .refl

theorem keepsAt_recover {w : D} {x : Tx D E α} {handler : E → Option (Tx D E α)}
    (hx : KeepsAt P w x) (hh : ∀ e y, handler e = some y → Keeps P y) :
    KeepsAt P w (Tx.recover x handler) := by
  intro s hw h
  obtain ⟨h1, h2⟩ := hx s hw h
  unfold Tx.recover
  cases hxs : x s with
  | mk r s' =>
    rw [hxs] at h1 h2
    cases r with
    | ok a => exact ⟨h1, h2⟩
    | error e =>
      simp only
      split
      · next y hy =>
        obtain ⟨h3, h4⟩ := hh e y hy s'.working s' rfl h2
        exact ⟨h1.trans h3, h4⟩
      · exact ⟨h1, h2⟩

/-- **The store after a program** that keeps `P` is reached from the store before by `P`-writes,
however the program ends. -/
theorem exec_reaches {x : Tx D E α} {d : D} (h : Keeps P x) : ReflTransGen P d (x.exec d) :=
  (h d ⟨d, d, 0, 0⟩ rfl .refl).1

end MyOriShop.Lib.Transaction
