import MyOriShop.StagedTree

/-!
# Snapshots: the ledger rows after a failed update (`launcher/swap.py`, `app/services/update.py`)

`apply` takes the backup that a rollback restores, writes the marker and goes on serving; the
launcher stops the app at some later tick. A ledger row committed in between is in the database that
the launcher finds and not in the backup.

* `OnRecord m x`: `x` is the database, a snapshot of it, or what the launcher found at the stop.
* `History`: of two databases on record between which no backup was restored, the later one holds the
  rows of the earlier one and after them as many as were committed since.

Results:
* `History.step`: every step of the machine keeps it.
* `rollback_keeps_iff`: when a rollback keeps every row that the stop found.
* `failed_cycle`: every staged update can fail its health check.
* `row_lost`: a row committed between the marker and the stop is gone after the rollback.
-/

namespace MyOriShop

open Relation

variable {ρ : Type} {host : Host} {fits : Machine ρ → ℕ → Phase → Prop}

/-! ## The history of the ledger -/

/-- The later database has the rows of the earlier one, and after them what was committed since. -/
def Continues (x y : DbFile ρ) : Prop :=
  ∃ new, y.rows = x.rows ++ new ∧ x.commits + new.length = y.commits

/-- The database, a snapshot of it, or what the launcher found when it stopped the app. -/
inductive OnRecord (m : Machine ρ) : DbFile ρ → Prop where
  | db : OnRecord m m.db
  | snapshot {path : String} {x : DbFile ρ} (h : m.snapshots path = some x) : OnRecord m x
  | atStop {d : Driven ρ} {x : DbFile ρ} (hd : m.launcher = .driving d) (h : d.atStop = some x) :
      OnRecord m x

/-- What is recorded of the ledger. -/
structure History (m : Machine ρ) : Prop where
  nodup : ∀ x, OnRecord m x → x.rows.Nodup
  restores : ∀ x, OnRecord m x → x.restores ≤ m.db.restores
  commits : ∀ x, OnRecord m x → x.restores = m.db.restores → x.commits ≤ m.db.commits
  continues : ∀ x y, OnRecord m x → OnRecord m y → x.restores = y.restores → x.commits ≤ y.commits →
    Continues x y
  /-- No backup is restored while the guarded body runs. -/
  cycle : ∀ d x, m.launcher = .driving d → d.atStop = some x → x.restores = m.db.restores

/-- The ledger has no row twice, no snapshot is taken yet, and the launcher is between two ticks. -/
structure Machine.Unsaved (m : Machine ρ) : Prop where
  nodup : m.db.rows.Nodup
  snapshots : ∀ path, m.snapshots path = none
  launcher : m.launcher = .watching

theorem Continues.refl (x : DbFile ρ) : Continues x x := ⟨[], (List.append_nil _).symm, rfl⟩

theorem Continues.mem {x y : DbFile ρ} (h : Continues x y) {row : ρ} (hrow : row ∈ x.rows) :
    row ∈ y.rows := by
  obtain ⟨new, hrows, -⟩ := h
  rw [hrows]
  exact List.mem_append_left _ hrow

/-- A row that was committed in between is not in the earlier database. -/
theorem Continues.exists_new {x y : DbFile ρ} (h : Continues x y) (hy : y.rows.Nodup)
    (hlt : x.commits < y.commits) : ∃ row ∈ y.rows, row ∉ x.rows := by
  obtain ⟨new, hrows, hcommits⟩ := h
  cases new with
  | nil => exact absurd hcommits (by simpa using hlt.ne)
  | cons row new =>
    rw [hrows] at hy ⊢
    have hdisjoint := (List.nodup_append.mp hy).2.2
    exact ⟨row, by simp, fun hrow => hdisjoint row hrow row (by simp) rfl⟩

variable {m m' : Machine ρ}

theorem Machine.Unsaved.history (h : m.Unsaved) : History m := by
  have hdb : ∀ x, OnRecord m x → x = m.db := by
    intro x hx
    cases hx with
    | db => rfl
    | snapshot hpath => rw [h.snapshots] at hpath; cases hpath
    | atStop hd => rw [h.launcher] at hd; cases hd
  refine ⟨fun x hx => ?_, fun x hx => ?_, fun x hx _ => ?_, fun x y hx hy _ _ => ?_,
    fun d x hd => ?_⟩
  · rw [hdb x hx]
    exact h.nodup
  · rw [hdb x hx]
  · rw [hdb x hx]
  · rw [hdb x hx, hdb y hy]
    exact .refl _
  · rw [h.launcher] at hd
    cases hd

/-- A step that leaves the database and records nothing that is not recorded already. -/
theorem History.mono (h : History m) (hdb : m'.db = m.db)
    (hsnapshot : ∀ path x, m'.snapshots path = some x → OnRecord m x)
    (hstop : ∀ d x, m'.launcher = .driving d → d.atStop = some x →
      OnRecord m x ∧ x.restores = m.db.restores) : History m' := by
  have hrecorded : ∀ x, OnRecord m' x → OnRecord m x := by
    intro x hx
    cases hx with
    | db => rw [hdb]; exact .db
    | snapshot hpath => exact hsnapshot _ x hpath
    | atStop hd hat => exact (hstop _ x hd hat).1
  refine ⟨fun x hx => h.nodup x (hrecorded x hx), fun x hx => ?_, fun x hx => ?_,
    fun x y hx hy => h.continues x y (hrecorded x hx) (hrecorded y hy), fun d x hd hat => ?_⟩
  · rw [hdb]
    exact h.restores x (hrecorded x hx)
  · rw [hdb]
    exact h.commits x (hrecorded x hx)
  · rw [hdb]
    exact (hstop d x hd hat).2

/-- A ledger row is committed. -/
theorem History.commit (h : History m) {row : ρ} (hnew : row ∉ m.db.rows) :
    History { m with
      db := { m.db with rows := m.db.rows ++ [row], commits := m.db.commits + 1 } } := by
  -- a database recorded before, or the new one
  have hrecorded : ∀ x, OnRecord { m with
      db := { m.db with rows := m.db.rows ++ [row], commits := m.db.commits + 1 } } x →
        OnRecord m x ∨
          x = { m.db with rows := m.db.rows ++ [row], commits := m.db.commits + 1 } := by
    intro x hx
    cases hx with
    | db => exact .inr rfl
    | snapshot hpath => exact .inl (.snapshot hpath)
    | atStop hd hat => exact .inl (.atStop hd hat)
  have hnext : ∀ x, OnRecord m x → x.restores = m.db.restores →
      Continues x { m.db with rows := m.db.rows ++ [row], commits := m.db.commits + 1 } := by
    intro x hx hrestores
    obtain ⟨new, hrows, hcommits⟩ := h.continues x _ hx .db hrestores (h.commits x hx hrestores)
    refine ⟨new ++ [row], by simp [hrows], ?_⟩
    rw [List.length_append, List.length_singleton, ← Nat.add_assoc, hcommits]
  refine ⟨fun x hx => ?_, fun x hx => ?_, fun x hx hrestores => ?_,
    fun x y hx hy hrestores hle => ?_, h.cycle⟩
  · rcases hrecorded x hx with hx | rfl
    · exact h.nodup x hx
    · exact List.nodup_append.mpr ⟨h.nodup _ .db, List.nodup_singleton _, fun a ha b hb => by
        rw [List.mem_singleton.mp hb]
        exact fun hab => hnew (hab ▸ ha)⟩
  · rcases hrecorded x hx with hx | rfl
    · exact h.restores x hx
    · exact le_rfl
  · rcases hrecorded x hx with hx | rfl
    · exact (h.commits x hx hrestores).trans (Nat.le_succ _)
    · exact le_rfl
  · rcases hrecorded x hx with hx | rfl <;> rcases hrecorded y hy with hy | rfl
    · exact h.continues x y hx hy hrestores hle
    · exact hnext x hx hrestores
    · exact absurd (h.commits y hy hrestores.symm) (Nat.not_le.mpr hle)
    · exact .refl _

/-- A backup is restored, and the launcher is out of the guarded body. -/
theorem History.restore (h : History m) {snapshot : DbFile ρ} (hrecorded : OnRecord m snapshot)
    (hdb : m'.db = m.db.restore snapshot)
    (hsnapshots : ∀ path x, m'.snapshots path = some x → OnRecord m x)
    (hlauncher : ∀ d, m'.launcher ≠ .driving d) : History m' := by
  have hcases : ∀ x, OnRecord m' x → x.restores ≤ m.db.restores ∧ OnRecord m x ∨ x = m'.db := by
    intro x hx
    cases hx with
    | db => exact .inr rfl
    | snapshot hpath => exact .inl ⟨h.restores x (hsnapshots _ x hpath), hsnapshots _ x hpath⟩
    | atStop hd => exact absurd hd (hlauncher _)
  have hrestores : m'.db.restores = m.db.restores + 1 := by rw [hdb]; rfl
  refine ⟨fun x hx => ?_, fun x hx => ?_, fun x hx hsame => ?_, fun x y hx hy hsame hle => ?_,
    fun d _ hd => absurd hd (hlauncher d)⟩
  · rcases hcases x hx with ⟨-, hx⟩ | rfl
    · exact h.nodup x hx
    · rw [hdb]
      exact h.nodup snapshot hrecorded
  · rcases hcases x hx with ⟨hx, -⟩ | rfl <;> omega
  · rcases hcases x hx with ⟨hx, -⟩ | rfl <;> omega
  · rcases hcases x hx with ⟨hx', hx⟩ | rfl <;> rcases hcases y hy with ⟨hy', hy⟩ | rfl
    · exact h.continues x y hx hy hsame hle
    · omega
    · omega
    · exact .refl _

/-! ## The steps -/

/-- A step of a call leaves the rows, and a snapshot it takes is one of them. -/
theorem CallStep.recorded {s s' : Disk ρ} {p p' : Phase} (h : CallStep host s p s' p') :
    s'.db = s.db ∧ ∀ path x, s'.snapshots path = some x → s.snapshots path = some x ∨ x = s.db := by
  cases h with
  | @backup v path hfresh =>
    refine ⟨rfl, fun path' x hx => ?_⟩
    replace hx : Function.update s.snapshots path (some s.db) path' = some x := hx
    by_cases hpath : path' = path
    · rw [hpath, Function.update_self] at hx
      exact .inr (Option.some_inj.mp hx).symm
    · rw [Function.update_of_ne hpath] at hx
      exact .inl hx
  | call | leave | verify | clear | remove | make | readNames | tear | member | torn | write
  | replace => exact ⟨rfl, fun _ _ hx => .inl hx⟩

theorem History.launcher (h : History m) (hstep : LauncherStep host m m') : History m' := by
  have hsnapshot : ∀ path x, m.snapshots path = some x → OnRecord m x := fun _ _ hx => .snapshot hx
  have hstop : ∀ d x, m.launcher = .driving d → d.atStop = some x →
      OnRecord m x ∧ x.restores = m.db.restores :=
    fun d x hd hx => ⟨.atStop hd hx, h.cycle d x hd hx⟩
  cases hstep with
  | refuse => exact h.mono rfl hsnapshot hstop
  | begin => exact h.mono rfl hsnapshot fun d x hd hx => by cases hd; cases hx
  | @statement d q rest c hd hbody hq =>
    refine h.mono rfl hsnapshot fun d' x hd' hx => ?_
    cases hd'
    simp only at hx
    split_ifs at hx
    · cases hx
      exact ⟨.db, rfl⟩
    · exact hstop d x hd hx
  | undo hd hundo =>
    cases hundo with
    | untouched => exact h.mono rfl hsnapshot fun d x hd => by cases hd
    | restored hc hm hx =>
      exact h.restore (.snapshot hx) rfl hsnapshot fun d hd => by cases hd
  | preflight | unrestored | cleanup | consume | quarantine | restart =>
    exact h.mono rfl hsnapshot fun d x hd => by cases hd

theorem History.step (h : History m) (hstep : MachineStep host fits m m') : History m' := by
  have hstop : ∀ d x, m.launcher = .driving d → d.atStop = some x →
      OnRecord m x ∧ x.restores = m.db.restores :=
    fun d x hd hx => ⟨.atStop hd hx, h.cycle d x hd hx⟩
  cases hstep with
  | commit hup hnew => exact h.commit hnew
  | call i hup hcall hfits =>
    refine h.mono hcall.recorded.1 (fun path x hx => ?_) hstop
    rcases hcall.recorded.2 path x hx with hold | rfl
    · exact .snapshot hold
    · exact .db
  | prune path =>
    refine h.mono rfl (fun path' x hx => ?_) hstop
    replace hx : Function.update m.snapshots path none path' = some x := hx
    by_cases hpath : path' = path
    · rw [hpath, Function.update_self] at hx
      cases hx
    · rw [Function.update_of_ne hpath] at hx
      exact .snapshot hx
  | launcher hlauncher => exact h.launcher hlauncher

theorem History.run {m₀ : Machine ρ} (h : History m₀) (hrun : MachineRun host fits m₀ m) :
    History m := by
  induction hrun with
  | refl => exact h
  | tail _ hstep ih => exact ih.step hstep

/-! ## After a rollback -/

/-- The database that the launcher found when it stopped the app; where that was in the handler, as
it is. -/
def Driven.found (d : Driven ρ) (m : Machine ρ) : DbFile ρ := d.atStop.getD m.db

/-- The backup that the marker names has what the launcher found: no row was committed in between,
and if another backup was restored in between, every row is in both. -/
def Current (found snapshot : DbFile ρ) : Prop :=
  if snapshot.restores = found.restores then found.commits ≤ snapshot.commits
  else ∀ row ∈ found.rows, row ∈ snapshot.rows

/-- Nothing is restored, or a backup that is current. -/
def Driven.Covered (d : Driven ρ) (m : Machine ρ) : Prop :=
  d.migrateAttempted = true →
    ∀ snapshot ∈ m.snapshots d.pending.dbBackupPath, Current (d.found m) snapshot

theorem History.found (h : History m) {d : Driven ρ} (hd : m.launcher = .driving d) :
    OnRecord m (d.found m) ∧ (d.found m).restores = m.db.restores := by
  unfold Driven.found
  cases hat : d.atStop with
  | none => exact ⟨.db, rfl⟩
  | some x => exact ⟨.atStop hd hat, h.cycle d x hd hat⟩

/-- Of two databases on record, the one has the rows of the other. -/
theorem History.current_iff (h : History m) {found snapshot : DbFile ρ} (hfound : OnRecord m found)
    (hsnapshot : OnRecord m snapshot) :
    (∀ row ∈ found.rows, row ∈ snapshot.rows) ↔ Current found snapshot := by
  unfold Current
  split_ifs with hrestores
  · constructor
    · intro hrows
      by_contra hlt
      have hcontinues := h.continues _ _ hsnapshot hfound hrestores (Nat.le_of_not_le hlt)
      obtain ⟨row, hrow, hlost⟩ := hcontinues.exists_new (h.nodup _ hfound) (Nat.lt_of_not_le hlt)
      exact hlost (hrows row hrow)
    · exact fun hle row => (h.continues _ _ hfound hsnapshot hrestores.symm hle).mem
  · exact Iff.rfl

theorem Driven.Raises.flag {d : Driven ρ} {dirs : Install Tree} {c : Cycle Tree}
    (h : d.Raises dirs c) : c.migrateAttempted = d.migrateAttempted := by
  cases h with
  | inside hbody hq => cases hq <;> rfl
  | after hbody => rfl

/-- **A rollback keeps every row that the stop found** exactly when the backup is current, or none
is restored. -/
theorem rollback_keeps_iff {m₀ : Machine ρ} (hstart : m₀.Unsaved) (hrun : MachineRun host fits m₀ m)
    {d : Driven ρ} (hd : m.launcher = .driving d) (hundo : Undo m d m') :
    (∀ row ∈ (d.found m).rows, row ∈ m'.db.rows) ↔ d.Covered m := by
  have h := hstart.history.run hrun
  obtain ⟨hfound, hrestores⟩ := h.found hd
  unfold Driven.Covered
  cases hundo with
  | untouched hc hm =>
    rw [hc.flag] at hm
    refine iff_of_true (fun row => ?_) (fun hm' => absurd (hm.symm.trans hm') (by decide))
    exact (h.continues _ _ hfound .db hrestores (h.commits _ hfound hrestores)).mem
  | restored hc hm hsnapshot =>
    rw [hc.flag] at hm
    rw [hsnapshot]
    simp only [hm, Option.mem_some_iff, forall_eq', true_imp_iff]
    exact h.current_iff hfound (.snapshot hsnapshot)

/-! ## A cycle that fails -/

/-- The launcher runs the body as far as `done`, and nothing comes between. -/
theorem driven_run {p : Pending} {c : Cycle Tree} {done : List Statement}
    (hd : m.launcher = .driving { pending := p }) (hran : Ran done m.root.dirs.begin c) :
    ∀ rest, guardedBody = done ++ rest → ∃ m' d, MachineRun host fits m m' ∧
      m'.launcher = .driving d ∧ d.pending = p ∧ d.done = done ∧ d.cycle m'.root.dirs = c ∧
      m'.db = m.db ∧ m'.snapshots = m.snapshots ∧
      (.stopApp ∈ done → d.atStop = some m.db) := by
  generalize hstart : m.root.dirs.begin = c₀ at hran
  induction hran with
  | start =>
    exact fun _ _ => ⟨m, _, .refl, hd, rfl, rfl, hstart, rfl, rfl, fun h => by cases h⟩
  | @step done q s s' s'' hran hq ih =>
    intro rest hbody
    rw [List.append_assoc] at hbody
    obtain ⟨m₁, d, hrun, hd₁, hp, hdone, hcycle, hdb, hsnapshots, hstop⟩ := ih hstart _ hbody
    rw [← hcycle] at hq
    rw [← hdone] at hbody
    refine ⟨m₁.advance d q s'', _, hrun.tail (.launcher (.statement hd₁ hbody hq)), rfl, hp,
      by rw [hdone], rfl, hdb, hsnapshots, fun hmem => ?_⟩
    simp only
    split_ifs with hqstop
    · rw [hdb]
    · refine hstop ((List.mem_append.mp hmem).resolve_right fun h => ?_)
      exact hqstop (List.mem_singleton.mp h).symm

/-- The body up to the health check. -/
def upToHealth : List Statement := guardedBody.take 9

theorem ran_upToHealth {κ : Type} {s : Install κ} {old new : κ} (happ : s.app = some old)
    (hstaged : s.staged = some new) : ∃ c, Ran upToHealth s.begin c ∧ c.migrateAttempted = true := by
  have h₁ : Ran [.stopApp] s.begin _ := .step (.start _) (.stopApp _)
  have h₂ : Ran [.stopApp, .clearPrev] s.begin _ := .step h₁ (.clearPrev _ none)
  have h₃ : Ran [.stopApp, .clearPrev, .renameApp] s.begin _ := .step h₂ (.renameApp _ old happ rfl)
  have h₄ := Ran.step h₃ (.notePrevRenamed _)
  have h₅ := Ran.step h₄ (.renameStaged _ new hstaged rfl)
  have h₆ := Ran.step (Ran.step h₅ (.noteStagedSwapped _)) (.noteMigrateAttempted _)
  exact ⟨_, Ran.step (Ran.step h₆ (.migrate _)) (.startApp _), rfl⟩

/-- Every staged update can fail its health check: the rollback leaves the rows of the backup that
the marker names. -/
theorem failed_cycle {p : Pending} {tree old : Tree} {snapshot : DbFile ρ}
    (hw : m.launcher = .watching) (hp : WouldSwap host m.root p tree)
    (happ : m.root.dirs.app = some old) (hsnapshot : m.snapshots p.dbBackupPath = some snapshot) :
    ∃ m₁ d m₂, MachineRun host fits m m₁ ∧ m₁.launcher = .driving d ∧ d.done = upToHealth ∧
      d.found m₁ = m.db ∧ Undo m₁ d m₂ ∧ m₂.db.rows = snapshot.rows := by
  let m' : Machine ρ := { m with
    root := { m.root with dirs := m.root.entering }, launcher := .driving { pending := p } }
  have hbegin : MachineRun host fits m m' := .single (.launcher (.begin hw hp))
  have hstaged : m'.root.dirs.staged = some tree := by
    obtain ⟨-, -, -, -, hstaged⟩ := hp
    exact hstaged
  obtain ⟨c, hran, hm⟩ := ran_upToHealth (s := m'.root.dirs) happ hstaged
  obtain ⟨m₁, d, hrun, hd, hpending, hdone, hcycle, hdb, hsnapshots, hstop⟩ :=
    driven_run (m := m') (p := p) rfl hran [.checkHealth] rfl
  have hinside : Inside .checkHealth (d.cycle m₁.root.dirs) c := by
    rw [hcycle]
    exact .before _ _
  have hraises : d.Raises m₁.root.dirs c := .inside (by rw [hdone]; rfl) hinside
  have hnamed : m₁.snapshots d.pending.dbBackupPath = some snapshot := by
    rw [hsnapshots, hpending]
    exact hsnapshot
  refine ⟨m₁, d, _, hbegin.trans hrun, hd, hdone, ?_, .restored hraises hm hnamed, rfl⟩
  rw [Driven.found, hstop (by decide)]
  rfl

/-! ## A row between the marker and the stop -/

/-- The machine when the marker is written. -/
def marked : Machine ℕ := machineAtRest.withCall 0 stagedDisk .gone

theorem marked_run : MachineRun easyHost (fun _ _ _ => True) machineAtRest marked :=
  ReflTransGen.mono (fun _ _ h => MachineStep.mono (fun _ _ _ => trivial) h) _ _ calm_run

/-- With no commit in between, the backup is current and the rollback keeps what there was. -/
theorem rollback_keeps_marked : ∃ m d m', m.launcher = .driving d ∧ Undo m d m' ∧
    (d.found m).rows = [5] ∧ d.Covered m := by
  obtain ⟨m, d, m', hrun, hd, -, hfound, hundo, hrows⟩ :=
    failed_cycle (m := marked) rfl calm_waits rfl rfl
  have hstart : machineAtRest.Unsaved := ⟨List.nodup_singleton 5, fun _ => rfl, rfl⟩
  have hkept : ∀ row ∈ (d.found m).rows, row ∈ m'.db.rows := by
    rw [hfound, hrows]
    exact fun _ => id
  exact ⟨m, d, m', hd, hundo, by rw [hfound]; rfl,
    (rollback_keeps_iff hstart (marked_run.trans hrun) hd hundo).mp hkept⟩

/-- The machine when the app has committed a row after that. -/
def markedSold : Machine ℕ := { marked with db := { rows := [5, 7], commits := 1 } }

theorem markedSold_run : MachineRun easyHost (fun _ _ _ => True) machineAtRest markedSold := by
  have hnew : 7 ∉ marked.db.rows := by decide
  exact marked_run.tail (.commit rfl hnew)

/-- **A row is lost.** It is committed between the marker and the tick that stops the app, the health
check fails, the rollback succeeds, and the row is not in the database. -/
theorem row_lost : ∃ m d m', MachineRun easyHost (fun _ _ _ => True) machineAtRest m ∧
    m.launcher = .driving d ∧ d.done = upToHealth ∧ Undo m d m' ∧
    7 ∈ (d.found m).rows ∧ 7 ∉ m'.db.rows := by
  obtain ⟨m, d, m', hrun, hd, hdone, hfound, hundo, hrows⟩ :=
    failed_cycle (m := markedSold) rfl calm_waits rfl rfl
  refine ⟨m, d, m', markedSold_run.trans hrun, hd, hdone, hundo, ?_, ?_⟩
  · rw [hfound]
    decide
  · rw [hrows]
    decide

end MyOriShop
