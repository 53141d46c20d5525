import Mathlib.Data.List.Basic
import Mathlib.Tactic.IntervalCases

/-!
# Swap: one update cycle of the launcher (`launcher/swap.py`)

`apply_update` renames the running code away and the staged code into its place, migrates the
database, starts the new code and asks whether it is healthy. An exception ends the guarded body
wherever it is raised, also between two statements (`KeyboardInterrupt`), and the handler undoes
what three local flags say was done. Each flag is set one statement after the rename it records.

* `Statement` are the statements of the guarded body, `Done` what each does when it ends and
  `Inside` what an exception inside it may leave.
* `rollback` is the handler, with every step of it succeeding.
* `Ends` is one call of `apply_update` with an exception at some `Point`, or at none.

Results:
* `rollback_safe`: flags that record what was done bring back the old code.
* `ends_safe_iff`: the call ends well exactly when no rename is done and not yet recorded.
* `not_ends_safe`: an interrupt right after the first rename leaves no code at all.
-/

namespace MyOriShop

variable {κ : Type}

/-! ## The install -/

/-- The database file: as it was before the cycle, partly migrated, migrated, or the backup. -/
inductive DbState where
  | untouched | underway | migrated | restored
  deriving DecidableEq

/-- The directories under the install root, each with the code in it, and the database. -/
structure Install (κ : Type) where
  app : Option κ
  appPrev : Option κ
  staged : Option κ
  appFailed : Option κ
  db : DbState
  running : Bool

/-- The install while `apply_update` runs, with its local flags. -/
structure Cycle (κ : Type) extends Install κ where
  prevRenamed : Bool
  stagedSwapped : Bool
  migrateAttempted : Bool

/-- The flags before the `try`. -/
def Install.begin (s : Install κ) : Cycle κ where
  toInstall := s
  prevRenamed := false
  stagedSwapped := false
  migrateAttempted := false

/-! ## The guarded body -/

/-- The statements of the guarded body. -/
inductive Statement where
  /-- `stop_app()` -/
  | stopApp
  /-- `shutil.rmtree(paths.app_prev, ignore_errors=True)` -/
  | clearPrev
  /-- `os.replace(paths.app, paths.app_prev)` -/
  | renameApp
  /-- `prev_renamed = True` -/
  | notePrevRenamed
  /-- `os.replace(paths.staged, paths.app)` -/
  | renameStaged
  /-- `staged_swapped = True` -/
  | noteStagedSwapped
  /-- `migrate_attempted = True` -/
  | noteMigrateAttempted
  /-- `migrate()` -/
  | migrate
  /-- `start_app()` -/
  | startApp
  /-- `if not health_ok(): raise RuntimeError(...)` -/
  | checkHealth
  deriving DecidableEq

/-- The guarded body. -/
def guardedBody : List Statement :=
  [.stopApp, .clearPrev, .renameApp, .notePrevRenamed, .renameStaged, .noteStagedSwapped,
    .noteMigrateAttempted, .migrate, .startApp, .checkHealth]

/-- A statement that has ended. A rename wants its source to be there and its destination not. -/
inductive Done : Statement → Cycle κ → Cycle κ → Prop where
  | stopApp (s : Cycle κ) : Done .stopApp s { s with running := false }
  | clearPrev (s : Cycle κ) (left : Option κ) : Done .clearPrev s { s with appPrev := left }
  | renameApp (s : Cycle κ) (code : κ) (hsource : s.app = some code) (hfree : s.appPrev = none) :
      Done .renameApp s { s with app := none, appPrev := some code }
  | notePrevRenamed (s : Cycle κ) : Done .notePrevRenamed s { s with prevRenamed := true }
  | renameStaged (s : Cycle κ) (code : κ) (hsource : s.staged = some code) (hfree : s.app = none) :
      Done .renameStaged s { s with staged := none, app := some code }
  | noteStagedSwapped (s : Cycle κ) : Done .noteStagedSwapped s { s with stagedSwapped := true }
  | noteMigrateAttempted (s : Cycle κ) :
      Done .noteMigrateAttempted s { s with migrateAttempted := true }
  | migrate (s : Cycle κ) : Done .migrate s { s with db := .migrated }
  | startApp (s : Cycle κ) : Done .startApp s { s with running := true }
  | checkHealth (s : Cycle κ) : Done .checkHealth s s

/-- What an exception inside a statement may leave. A rename and an assignment are atomic: an
exception comes before them or after them. -/
inductive Inside : Statement → Cycle κ → Cycle κ → Prop where
  | before (q : Statement) (s : Cycle κ) : Inside q s s
  | stopApp (s : Cycle κ) (up : Bool) : Inside .stopApp s { s with running := up }
  | clearPrev (s : Cycle κ) (left : Option κ) : Inside .clearPrev s { s with appPrev := left }
  | migrate (s : Cycle κ) (db : DbState) (hdb : db = .underway ∨ db = .migrated) :
      Inside .migrate s { s with db := db }
  | startApp (s : Cycle κ) (up : Bool) : Inside .startApp s { s with running := up }

/-- Some statements, one after another. -/
inductive Ran : List Statement → Cycle κ → Cycle κ → Prop where
  | start (s : Cycle κ) : Ran [] s s
  | step {done : List Statement} {q : Statement} {s s' s'' : Cycle κ} (h : Ran done s s')
      (hq : Done q s' s'') : Ran (done ++ [q]) s s''

/-! ## The handler -/

/-- `except BaseException`, when every step of it succeeds. The application is stopped first and
started last; it cannot be started where there is no code. -/
def rollback (s : Cycle κ) : Cycle κ :=
  let s := { s with running := false }
  let s := if s.stagedSwapped then { s with appFailed := s.app, app := none } else s
  let s := if s.prevRenamed && s.app.isNone then { s with app := s.appPrev, appPrev := none } else s
  let s := if s.migrateAttempted then { s with db := .restored } else s
  { s with running := s.app.isSome }

/-- Where the one exception is raised. -/
inductive Point where
  /-- Before the `try`: the staged directory is missing, or any exception there. -/
  | preflight
  /-- In the guarded body, with some of its statements done. -/
  | body (done : List Statement)
  /-- In the `else`, while the previous code is removed. -/
  | cleanup
  /-- Nowhere. -/
  | nowhere

/-- One call of `apply_update`: where an exception was raised, and what it leaves. The body is
entered with a staged directory only. -/
inductive Ends (s : Install κ) : Point → Install κ → Prop where
  | preflight : Ends s .preflight s
  | body {done rest : List Statement} {q : Statement} {s₁ s₂ : Cycle κ}
      (hstaged : s.staged.isSome) (hbody : guardedBody = done ++ q :: rest)
      (hran : Ran done s.begin s₁) (hinside : Inside q s₁ s₂) :
      Ends s (.body done) (rollback s₂).toInstall
  /-- The last statement is done, and the `else` not yet begun. -/
  | after {s₁ : Cycle κ} (hstaged : s.staged.isSome) (hran : Ran guardedBody s.begin s₁) :
      Ends s (.body guardedBody) (rollback s₁).toInstall
  | cleanup {s₁ : Cycle κ} (left : Option κ) (hstaged : s.staged.isSome)
      (hran : Ran guardedBody s.begin s₁) : Ends s .cleanup { s₁.toInstall with appPrev := left }
  | nowhere {s₁ : Cycle κ} (left : Option κ) (hstaged : s.staged.isSome)
      (hran : Ran guardedBody s.begin s₁) : Ends s .nowhere { s₁.toInstall with appPrev := left }

/-! ## A good end -/

/-- The new code with the migrated database, or the old code with the database as it was or the
backup restored. -/
def Safe (old new : κ) (s : Install κ) : Prop :=
  (s.app = some new ∧ s.db = .migrated) ∨
    (s.app = some old ∧ (s.db = .untouched ∨ s.db = .restored))

/-- The body is done; an interrupt of the `cleanup` comes after it. -/
def Point.Finished : Point → Prop
  | .cleanup | .nowhere => True
  | .preflight | .body _ => False

/-- The statement renames a directory. -/
def Statement.Renames (q : Statement) : Prop := q = .renameApp ∨ q = .renameStaged

/-- A rename is done that no flag records yet. -/
def Point.Unrecorded : Point → Prop
  | .body done => ∃ q ∈ done.getLast?, q.Renames
  | .preflight | .cleanup | .nowhere => False

/-! ## What each statement finds -/

/-- The layout after the first `n` statements of the body. -/
structure Layout (old new : κ) (n : ℕ) (s : Cycle κ) : Prop where
  app : s.app = if n ≤ 2 then some old else if n ≤ 4 then none else some new
  staged : n ≤ 4 → s.staged = some new
  appPrev : 3 ≤ n → s.appPrev = some old
  prevRenamed : s.prevRenamed = decide (4 ≤ n)
  stagedSwapped : s.stagedSwapped = decide (6 ≤ n)
  migrateAttempted : s.migrateAttempted = decide (7 ≤ n)
  db : s.db = if n ≤ 7 then .untouched else .migrated

theorem Layout.begin {old new : κ} {s : Install κ} (happ : s.app = some old)
    (hstaged : s.staged = some new) (hdb : s.db = .untouched) : Layout old new 0 s.begin where
  app := happ
  staged _ := hstaged
  appPrev h := absurd h (by decide)
  prevRenamed := rfl
  stagedSwapped := rfl
  migrateAttempted := rfl
  db := hdb

/-- One statement: the `n`th finds the layout of `n` and leaves that of `n + 1`. -/
theorem Layout.step {old new : κ} {n : ℕ} {s s' : Cycle κ} (h : Layout old new n s)
    (hn : n < guardedBody.length) (hq : Done guardedBody[n] s s') : Layout old new (n + 1) s' := by
  have hn' : n < 10 := hn
  have hgoal : ∀ q, guardedBody[n] = q → Done q s s' → Layout old new (n + 1) s' := by
    obtain ⟨happ, hstaged, hprev, hp, hw, hm, hdb⟩ := h
    interval_cases n <;> rintro q rfl hq <;> cases hq
    all_goals constructor <;> simp_all
  exact hgoal _ rfl hq

theorem Ran.eq_of_nil {s s' : Cycle κ} (h : Ran [] s s') : s' = s := by
  generalize hl : ([] : List Statement) = l at h
  cases h with
  | start => rfl
  | step h hq => simp at hl

theorem Ran.inv {done : List Statement} {q : Statement} {s s'' : Cycle κ}
    (h : Ran (done ++ [q]) s s'') : ∃ s', Ran done s s' ∧ Done q s' s'' := by
  generalize hl : done ++ [q] = l at h
  cases h with
  | start => simp at hl
  | step h hq =>
    obtain ⟨rfl, hq'⟩ := List.append_inj' hl rfl
    obtain rfl := List.singleton_inj.1 hq'
    exact ⟨_, h, hq⟩

/-- Every run of the first `n` statements. -/
theorem Layout.run {old new : κ} {s : Cycle κ} (h : Layout old new 0 s) :
    ∀ {n : ℕ} {s' : Cycle κ}, n ≤ guardedBody.length → Ran (guardedBody.take n) s s' →
      Layout old new n s'
  | 0, s', _, hran => by
    rwa [hran.eq_of_nil]
  | n + 1, s', hn, hran => by
    rw [List.take_succ_eq_append_getElem hn] at hran
    obtain ⟨s₁, hran, hq⟩ := hran.inv
    exact (h.run (n.le_of_lt hn) hran).step hn hq

/-! ## Flags that record what was done -/

/-- The flags say which renames were done, and a database that was touched is flagged. -/
structure Flagged (old new : κ) (s : Cycle κ) : Prop where
  app : s.app = if s.stagedSwapped then some new else if s.prevRenamed then none else some old
  appPrev : s.prevRenamed → s.appPrev = some old
  order : s.stagedSwapped → s.prevRenamed
  db : s.migrateAttempted ∨ s.db = .untouched

theorem Layout.flagged {old new : κ} {n : ℕ} {s : Cycle κ} (h : Layout old new n s)
    (happ : n ≠ 3) (hnew : n ≠ 5) : Flagged old new s where
  app := by
    rw [h.app, h.stagedSwapped, h.prevRenamed]
    simp only [decide_eq_true_eq]
    split_ifs <;> first | rfl | omega
  appPrev hp := h.appPrev (by rw [h.prevRenamed, decide_eq_true_eq] at hp; omega)
  order hw := by
    rw [h.stagedSwapped, decide_eq_true_eq] at hw
    rw [h.prevRenamed, decide_eq_true_eq]
    omega
  db := by
    rw [h.migrateAttempted, h.db, decide_eq_true_eq]
    split_ifs with hn
    · exact .inr rfl
    · exact .inl (by omega)

/-- An exception inside the next statement leaves the flags right: only `migrate`, which is
flagged, touches the database, and only `rmtree`, before any rename, the previous code. -/
theorem Layout.flagged_inside {old new : κ} {n : ℕ} {s s' : Cycle κ} (h : Layout old new n s)
    (hn : n < guardedBody.length) (hq : Inside guardedBody[n] s s') (happ : n ≠ 3)
    (hnew : n ≠ 5) : Flagged old new s' := by
  have hs := h.flagged happ hnew
  have hn' : n < 10 := hn
  have hgoal : ∀ q, guardedBody[n] = q → Inside q s s' → Flagged old new s' := by
    intro q hnq hq
    cases hq with
    | before => exact hs
    | stopApp up => exact ⟨hs.app, hs.appPrev, hs.order, hs.db⟩
    | startApp up => exact ⟨hs.app, hs.appPrev, hs.order, hs.db⟩
    | clearPrev left =>
      have hn : n = 1 := by interval_cases n <;> first | rfl | cases hnq
      have hp : s.prevRenamed = false := by rw [h.prevRenamed, hn]; rfl
      exact ⟨hs.app, fun hp' => absurd hp' (by simp [hp]), hs.order, hs.db⟩
    | migrate db hdb =>
      have hn : n = 7 := by interval_cases n <;> first | rfl | cases hnq
      exact ⟨hs.app, hs.appPrev, hs.order, .inl (by rw [h.migrateAttempted, hn]; rfl)⟩
  exact hgoal _ rfl hq

/-- The handler brings the old code back, with the backup once the migration was flagged and
with the untouched database before. -/
theorem rollback_old {old new : κ} {s : Cycle κ} (h : Flagged old new s) :
    (rollback s).app = some old ∧ ((rollback s).db = .untouched ∨ (rollback s).db = .restored) := by
  obtain ⟨happ, hprev, horder, hdb⟩ := h
  constructor
  · cases hw : s.stagedSwapped <;> cases hp : s.prevRenamed <;>
      cases hm : s.migrateAttempted <;> simp_all [rollback]
  · cases hw : s.stagedSwapped <;> cases hp : s.prevRenamed <;>
      cases hm : s.migrateAttempted <;> simp_all [rollback]

theorem rollback_safe {old new : κ} {s : Cycle κ} (h : Flagged old new s) :
    Safe old new (rollback s).toInstall := .inr (rollback_old h)

/-! ## The two windows -/

/-- After the first rename and before its flag, the handler finds nothing to undo. -/
theorem Layout.no_code {old new : κ} {s : Cycle κ} (h : Layout old new 3 s) :
    ¬Safe old new (rollback s).toInstall := by
  have happ : s.app = none := h.app
  have hp : s.prevRenamed = false := h.prevRenamed
  have hw : s.stagedSwapped = false := h.stagedSwapped
  have hm : s.migrateAttempted = false := h.migrateAttempted
  simp [Safe, rollback, happ, hp, hw, hm]

/-- After the second rename and before its flag, the handler takes the new code for the old. -/
theorem Layout.new_code {old new : κ} {s : Cycle κ} (h : Layout old new 5 s) (hne : old ≠ new) :
    ¬Safe old new (rollback s).toInstall := by
  have happ : s.app = some new := h.app
  have hp : s.prevRenamed = true := h.prevRenamed
  have hw : s.stagedSwapped = false := h.stagedSwapped
  have hm : s.migrateAttempted = false := h.migrateAttempted
  have hdb : s.db = .untouched := h.db
  simp [Safe, rollback, happ, hp, hw, hm, hdb, hne.symm]

theorem unrecorded_take {n : ℕ} (hn : n ≤ guardedBody.length) :
    (Point.body (guardedBody.take n)).Unrecorded ↔ n = 3 ∨ n = 5 := by
  have hn' : n ≤ 10 := hn
  simp only [Point.Unrecorded, Statement.Renames]
  interval_cases n <;> simp [guardedBody]

/-- An exception after `n` statements, inside the next one or at the end of the body. -/
theorem Layout.rollback_safe_iff {old new : κ} (hne : old ≠ new) {n : ℕ} {s s' : Cycle κ}
    (h : Layout old new n s) (hsame : n = 3 ∨ n = 5 → s' = s)
    (hflagged : n ≠ 3 → n ≠ 5 → Flagged old new s') :
    Safe old new (rollback s').toInstall ↔ ¬(n = 3 ∨ n = 5) := by
  by_cases hn : n = 3 ∨ n = 5
  · rw [hsame hn]
    obtain rfl | rfl := hn
    · exact iff_of_false h.no_code (by simp)
    · exact iff_of_false (h.new_code hne) (by simp)
  · rw [not_or] at hn
    exact iff_of_true (rollback_safe (hflagged hn.1 hn.2)) (by simp [hn])

theorem Layout.same_inside {n : ℕ} {s s' : Cycle κ} (hn : n < guardedBody.length)
    (hq : Inside guardedBody[n] s s') (h : n = 3 ∨ n = 5) : s' = s := by
  obtain rfl | rfl := h
  · cases hq
    rfl
  · cases hq
    rfl

/-- How a call can end: before the body, by an exception after `n` of its statements, or with all
of them done. -/
inductive Ending (old new : κ) (s : Install κ) : Point → Install κ → Prop where
  | refused : Ending old new s .preflight s
  | handled {n : ℕ} {s₁ s₂ : Cycle κ} (hn : n ≤ guardedBody.length) (hs : Layout old new n s₁)
      (hsame : n = 3 ∨ n = 5 → s₂ = s₁) (hflagged : n ≠ 3 → n ≠ 5 → Flagged old new s₂) :
      Ending old new s (.body (guardedBody.take n)) (rollback s₂).toInstall
  | finished {p : Point} {s' : Install κ} (hp : p.Finished) (happ : s'.app = some new)
      (hdb : s'.db = .migrated) : Ending old new s p s'

/-- Every call of `apply_update` on an install with the old code and an untouched database. -/
theorem Ends.ending {old new : κ} {s s' : Install κ} {p : Point} (happ : s.app = some old)
    (hstaged : ∀ code ∈ s.staged, code = new) (hdb : s.db = .untouched) (h : Ends s p s') :
    Ending old new s p s' := by
  have hlayout : s.staged.isSome → Layout old new 0 s.begin := fun hsome => by
    obtain ⟨code, hcode⟩ := Option.isSome_iff_exists.1 hsome
    exact .begin happ (hstaged code hcode ▸ hcode) hdb
  cases h with
  | preflight => exact .refused
  | @body done rest q s₁ s₂ hsome hbody hran hinside =>
    have hn : done.length < guardedBody.length := by simp [hbody]
    have hdone : done = guardedBody.take done.length := by simp [hbody]
    have hq : q = guardedBody[done.length] := by simp [hbody]
    rw [hdone] at hran ⊢
    rw [hq] at hinside
    have hs := (hlayout hsome).run hn.le hran
    exact .handled hn.le hs (Layout.same_inside hn hinside) (hs.flagged_inside hn hinside)
  | after hsome hran =>
    have hs : Layout old new 10 _ := (hlayout hsome).run le_rfl hran
    exact .handled (n := 10) le_rfl hs (fun _ => rfl) hs.flagged
  | cleanup left hsome hran =>
    have hs : Layout old new 10 _ := (hlayout hsome).run le_rfl hran
    exact .finished trivial hs.app hs.db
  | nowhere left hsome hran =>
    have hs : Layout old new 10 _ := (hlayout hsome).run le_rfl hran
    exact .finished trivial hs.app hs.db

theorem Point.Finished.recorded {p : Point} (h : p.Finished) : ¬p.Unrecorded := by
  cases p with
  | preflight | body => cases h
  | cleanup | nowhere => exact id

theorem ends_safe_iff {old new : κ} (hne : old ≠ new) {s s' : Install κ} {p : Point}
    (happ : s.app = some old) (hstaged : ∀ code ∈ s.staged, code = new)
    (hdb : s.db = .untouched) (h : Ends s p s') : Safe old new s' ↔ ¬p.Unrecorded := by
  cases h.ending happ hstaged hdb with
  | refused => exact iff_of_true (.inr ⟨happ, .inl hdb⟩) not_false
  | handled hn hs hsame hflagged =>
    rw [unrecorded_take hn]
    exact hs.rollback_safe_iff hne hsame hflagged
  | finished hp hnew hmigrated => exact iff_of_true (.inl ⟨hnew, hmigrated⟩) hp.recorded

/-- With every rename recorded, the code is the old code, or the new code once the body is done. -/
theorem Ends.app {old new : κ} {s s' : Install κ} {p : Point} (happ : s.app = some old)
    (hstaged : ∀ code ∈ s.staged, code = new) (hdb : s.db = .untouched) (h : Ends s p s')
    (hrecorded : ¬p.Unrecorded) : s'.app = some old ∨ (p.Finished ∧ s'.app = some new) := by
  cases h.ending happ hstaged hdb with
  | refused => exact .inl happ
  | handled hn hs hsame hflagged =>
    rw [unrecorded_take hn, not_or] at hrecorded
    exact .inl (rollback_old (hflagged hrecorded.1 hrecorded.2)).1
  | finished hp hnew hmigrated => exact .inr ⟨hp, hnew⟩

/-- A call without an exception. -/
theorem ends_nowhere {old new : κ} {s : Install κ} (happ : s.app = some old)
    (hstaged : s.staged = some new) :
    Ends s .nowhere
      { app := some new, appPrev := none, staged := none, appFailed := s.appFailed, db := .migrated,
        running := true } := by
  have h₁ : Ran [.stopApp] s.begin _ := .step (.start _) (.stopApp _)
  have h₂ : Ran [.stopApp, .clearPrev] s.begin _ := .step h₁ (.clearPrev _ none)
  have h₃ : Ran [.stopApp, .clearPrev, .renameApp] s.begin _ := .step h₂ (.renameApp _ old happ rfl)
  have h₄ := Ran.step h₃ (.notePrevRenamed _)
  have h₅ := Ran.step h₄ (.renameStaged _ new hstaged rfl)
  have h₆ := Ran.step (Ran.step h₅ (.noteStagedSwapped _)) (.noteMigrateAttempted _)
  have h₇ := Ran.step (Ran.step h₆ (.migrate _)) (.startApp _)
  have hbody : Ran guardedBody s.begin _ := Ran.step h₇ (.checkHealth _)
  exact .nowhere none (by rw [hstaged]; rfl) hbody

/-! ## An interrupt after the first rename -/

/-- An install of version 3 with version 4 staged. -/
def stagedUpdate : Install ℕ where
  app := some 3
  appPrev := none
  staged := some 4
  appFailed := none
  db := .untouched
  running := true

/-- The body up to and with the first rename. -/
def upToRename : List Statement := [.stopApp, .clearPrev, .renameApp]

/-- The install when the interrupt has been handled. -/
def interrupted : Install ℕ := { stagedUpdate with app := none, appPrev := some 3, running := false }

theorem interrupted_ends : Ends stagedUpdate (.body upToRename) interrupted := by
  have h₁ : Ran [.stopApp] stagedUpdate.begin _ := .step (.start _) (.stopApp _)
  have h₂ : Ran [.stopApp, .clearPrev] stagedUpdate.begin _ := .step h₁ (.clearPrev _ none)
  have h₃ : Ran upToRename stagedUpdate.begin _ := .step h₂ (.renameApp _ 3 rfl rfl)
  exact .body rfl rfl h₃ (.before _ _)

theorem not_ends_safe :
    ¬∀ (s s' : Install ℕ) (p : Point), s.app = some 3 → s.staged = some 4 → s.db = .untouched →
      Ends s p s' → s'.app.isSome ∧ Safe 3 4 s' := by
  intro h
  have happ := (h _ _ _ rfl rfl rfl interrupted_ends).1
  cases happ

theorem interrupted_not_safe :
    Ends stagedUpdate (.body upToRename) interrupted ∧
      (Safe 3 4 interrupted ↔ ¬(Point.body upToRename).Unrecorded) :=
  ⟨interrupted_ends, ends_safe_iff (by decide) rfl (fun _ h => (Option.some_inj.1 h).symm) rfl
    interrupted_ends⟩

end MyOriShop
