import Mathlib.Logic.Function.Basic
import MyOriShop.Launcher

/-!
# UpdateSteps: the update step by step (`app/services/update.py`, `launcher/`)

Nothing locks the staged directory, the marker or the database. While the app is up it commits
ledger rows and serves any number of calls of `apply`, which are web requests, and the launcher
polls the marker next to it. Here each of them takes one step at a time, in any order.

* `CallStep` are the steps of one call of `apply`. An exception, wherever it is raised, ends the
  call and leaves what the steps before it did, the started one included (`tear`, `torn`).
* `LauncherStep` are those of `run_once`, the guarded body of `apply_update` statement by statement.
  Stopping the app ends every call.
* `MachineStep` is a commit, a step of a call, of the launcher, or the removal of a backup.

Two counters of the database, which the program has not, say how many rows were committed and how
many backups restored so far.

Results:
* `apply_run`: a call of `apply` that nothing comes between is a run of these steps.
-/

namespace MyOriShop

open Lib.Json Lib.Raising Relation

variable {ρ : Type}

/-! ## One call of `apply` -/

/-- The ledger rows of the database, and what happened to it so far. -/
structure DbFile (ρ : Type) where
  rows : List ρ
  commits : ℕ := 0
  restores : ℕ := 0

/-- The install root, the database and the backup files. -/
structure Disk (ρ : Type) where
  root : InstallRoot
  db : DbFile ρ
  snapshots : String → Option (DbFile ρ)

/-- What `verify_release` returns. -/
structure Verified where
  version : String
  archive : Bytes

/-- Where a call stands. -/
inductive Phase where
  /-- Not called yet, returned, or ended by an exception. -/
  | gone
  /-- In `verify_release`, or before it. -/
  | verifying
  /-- In front of `if staged.exists()`. -/
  | verified (v : Verified)
  /-- In `rmtree`, or in front of `mkdir`. -/
  | clearing (v : Verified)
  /-- The directory is made, the member names are not read. -/
  | opening (v : Verified)
  /-- In `extractall`, with these members to come. -/
  | unpacking (v : Verified) (rest : Tree)
  /-- The snapshot is taken, the temporary file of the marker not written. -/
  | backedUp (v : Verified) (backupPath : String)
  /-- In front of `os.replace`. -/
  | placing (v : Verified)

/-- The disk with another tree in `staged\\`. -/
def Disk.stage (s : Disk ρ) (tree : Option Tree) : Disk ρ := { s with root := s.root.stage tree }

/-- The disk with more files in `staged\\`. -/
def Disk.unpack (s : Disk ρ) (members : Tree) : Disk ρ := { s with root := s.root.unpack members }

/-- The disk with another temporary file of the marker. -/
def Disk.partialWith (s : Disk ρ) (text : Option String) : Disk ρ :=
  { s with root := { s.root with partialMarker := text } }

/-- The disk with a snapshot of the database in a new file. -/
def Disk.backup (s : Disk ρ) (path : String) : Disk ρ :=
  { s with
    root := { s.root with backups := s.root.backups ++ [path] }
    snapshots := Function.update s.snapshots path (some s.db) }

/-- One step of a call that stands at the first phase. -/
inductive CallStep (host : Host) (s : Disk ρ) : Phase → Disk ρ → Phase → Prop where
  | call : CallStep host s .gone s .verifying
  /-- It returns or raises. -/
  | leave (p : Phase) : CallStep host s p s .gone
  | verify {t : Attempt} {app : Tree} {release : Value} {v : Verified}
      (happ : s.root.dirs.app = some app)
      (h : verifyRelease host t app release = .ok (some (v.version, v.archive))) :
      CallStep host s .verifying s (.verified v)
  | clear (v : Verified) : CallStep host s (.verified v) s (.clearing v)
  /-- `rmtree` removes some files, or the directory. -/
  | remove (v : Verified) (left : Option Tree)
      (h : ∀ tree ∈ left, ∃ whole ∈ s.root.dirs.staged, tree ⊆ whole) :
      CallStep host s (.clearing v) (s.stage left) (.clearing v)
  | make (v : Verified) : CallStep host s (.clearing v) (s.unpack []) (.opening v)
  | readNames {v : Verified} {members : Tree} (h : host.unzip v.archive = .ok members)
      (hinside : (members.any fun m => host.escapes m.1) = false) :
      CallStep host s (.opening v) s (.unpacking v members)
  /-- A member that is not written to its end. -/
  | tear (v : Verified) (name : String) (part bytes : Bytes) (rest : Tree) :
      CallStep host s (.unpacking v ((name, bytes) :: rest)) (s.unpack [(name, part)])
        (.unpacking v ((name, bytes) :: rest))
  | member (v : Verified) (m : String × Bytes) (rest : Tree) :
      CallStep host s (.unpacking v (m :: rest)) (s.unpack [m]) (.unpacking v rest)
  /-- `VACUUM INTO` a file that is not there yet. -/
  | backup (v : Verified) {path : String} (hfresh : s.snapshots path = none) :
      CallStep host s (.unpacking v []) (s.backup path) (.backedUp v path)
  /-- The temporary file is not written to its end. -/
  | torn (v : Verified) (path : String) (text : Option String) :
      CallStep host s (.backedUp v path) (s.partialWith text) (.backedUp v path)
  | write (v : Verified) {path backupRel : String} (h : host.relativeTo path = some backupRel) :
      CallStep host s (.backedUp v path)
        (s.partialWith (some (markerText "staged" v.version backupRel))) (.placing v)
  | replace (v : Verified) {text : String} (h : s.root.partialMarker = some text) :
      CallStep host s (.placing v)
        { s with root := { s.root with marker := some text, partialMarker := none } } .gone

/-! ## The launcher -/

/-- A cycle under way: the marker it began with, the statements done, the local flags, and the
database when the app was stopped. -/
structure Driven (ρ : Type) where
  pending : Pending
  done : List Statement := []
  prevRenamed : Bool := false
  stagedSwapped : Bool := false
  migrateAttempted : Bool := false
  atStop : Option (DbFile ρ) := none

/-- The cycle on the directories. -/
def Driven.cycle (d : Driven ρ) (dirs : Install Tree) : Cycle Tree where
  toInstall := dirs
  prevRenamed := d.prevRenamed
  stagedSwapped := d.stagedSwapped
  migrateAttempted := d.migrateAttempted

/-- What the launcher is at. -/
inductive Watcher (ρ : Type) where
  /-- Between two calls of `run_once`. -/
  | watching
  /-- In `apply_update`. -/
  | driving (d : Driven ρ)
  /-- Out of it, by returning or by raising; the marker is still there. -/
  | over (swapped : Bool)

/-- A machine: what is on the disk, the calls of `apply` and the launcher. -/
structure Machine (ρ : Type) extends Disk ρ where
  calls : ℕ → Phase
  launcher : Watcher ρ

/-- The app is stopped. -/
def noCalls : ℕ → Phase := fun _ => .gone

/-- `run_once` would begin a cycle on this marker, with this tree staged. -/
def WouldSwap (host : Host) (s : InstallRoot) (p : Pending) (tree : Tree) : Prop :=
  ∃ text, s.marker = some text ∧ parsePending host text = some p ∧
    p.stagedDir = host.stagedPath ∧ s.dirs.staged = some tree

/-- The statement `q` is done. -/
def Machine.advance (s : Machine ρ) (d : Driven ρ) (q : Statement) (c : Cycle Tree) :
    Machine ρ where
  toDisk := { s.toDisk with root := { s.root with dirs := c.toInstall } }
  calls := if q = .stopApp then noCalls else s.calls
  launcher := .driving {
    pending := d.pending
    done := d.done ++ [q]
    prevRenamed := c.prevRenamed
    stagedSwapped := c.stagedSwapped
    migrateAttempted := c.migrateAttempted
    atStop := if q = .stopApp then some s.db else d.atStop }

/-- An exception in the guarded body: inside its next statement, or with all of them done. -/
inductive Driven.Raises (d : Driven ρ) (dirs : Install Tree) : Cycle Tree → Prop where
  | inside {q : Statement} {rest : List Statement} {c : Cycle Tree}
      (hbody : guardedBody = d.done ++ q :: rest) (hq : Inside q (d.cycle dirs) c) : Raises d dirs c
  | after (hbody : d.done = guardedBody) : Raises d dirs (d.cycle dirs)

/-- The handler is through, with this database. -/
def Machine.rolledBack (s : Machine ρ) (c : Cycle Tree) (db : DbFile ρ) : Machine ρ where
  toDisk := { s.toDisk with root := { s.root with dirs := (rollback c).toInstall }, db := db }
  calls := noCalls
  launcher := .over false

/-- The database with the rows of a backup. -/
def DbFile.restore (db snapshot : DbFile ρ) : DbFile ρ :=
  { db with rows := snapshot.rows, restores := db.restores + 1 }

/-- An exception in the guarded body, and a rollback that succeeds. -/
inductive Undo (s : Machine ρ) (d : Driven ρ) : Machine ρ → Prop where
  | untouched {c : Cycle Tree} (h : d.Raises s.root.dirs c) (hm : c.migrateAttempted = false) :
      Undo s d (s.rolledBack c s.db)
  | restored {c : Cycle Tree} {snapshot : DbFile ρ} (h : d.Raises s.root.dirs c)
      (hm : c.migrateAttempted = true)
      (hsnapshot : s.snapshots d.pending.dbBackupPath = some snapshot) :
      Undo s d (s.rolledBack c (s.db.restore snapshot))

/-- One step of the launcher. -/
inductive LauncherStep (host : Host) (s : Machine ρ) : Machine ρ → Prop where
  /-- The marker is invalid or unsatisfiable. -/
  | refuse {text : String} {root : InstallRoot} (hw : s.launcher = .watching)
      (hmarker : s.root.marker = some text)
      (hbad : ∀ p ∈ parsePending host text,
        p.stagedDir ≠ host.stagedPath ∨ s.root.dirs.staged = none)
      (hmark : Quarantined s.root root) : LauncherStep host s { s with root := root }
  | begin {p : Pending} {tree : Tree} (hw : s.launcher = .watching)
      (hp : WouldSwap host s.root p tree) :
      LauncherStep host s
        { s with
          root := { s.root with dirs := s.root.entering }
          launcher := .driving { pending := p } }
  /-- An exception before the `try`. -/
  | preflight {d : Driven ρ} (hd : s.launcher = .driving d) (hdone : d.done = []) :
      LauncherStep host s { s with launcher := .over false }
  | statement {d : Driven ρ} {q : Statement} {rest : List Statement} {c : Cycle Tree}
      (hd : s.launcher = .driving d) (hbody : guardedBody = d.done ++ q :: rest)
      (hq : Done q (d.cycle s.root.dirs) c) : LauncherStep host s (s.advance d q c)
  | undo {d : Driven ρ} {s' : Machine ρ} (hd : s.launcher = .driving d) (h : Undo s d s') :
      LauncherStep host s s'
  /-- The restoration of the database fails. -/
  | unrestored {d : Driven ρ} {c : Cycle Tree} (hd : s.launcher = .driving d)
      (h : d.Raises s.root.dirs c) (hm : c.migrateAttempted = true) :
      LauncherStep host s (s.rolledBack c s.db)
  /-- The previous code is removed, or an exception raised there. -/
  | cleanup {d : Driven ρ} (left : Option Tree) (swapped : Bool) (hd : s.launcher = .driving d)
      (hdone : d.done = guardedBody) :
      LauncherStep host s
        { s with
          root := { s.root with dirs := { s.root.dirs with appPrev := left } }
          launcher := .over swapped }
  | consume {root : InstallRoot} (h : s.launcher = .over true) (hmark : Consumed s.root root) :
      LauncherStep host s { s with root := root, launcher := .watching }
  | quarantine {root : InstallRoot} (h : s.launcher = .over false)
      (hmark : Quarantined s.root root) :
      LauncherStep host s { s with root := root, launcher := .watching }
  /-- The launcher is closed or killed, and started again. -/
  | restart (up : Bool) :
      LauncherStep host s
        { s with
          root := { s.root with dirs := { s.root.dirs with running := up } }
          calls := noCalls
          launcher := .watching }

/-! ## The machine -/

/-- The disk and the phase of one call replaced. -/
def Machine.withCall (s : Machine ρ) (i : ℕ) (disk : Disk ρ) (phase : Phase) : Machine ρ where
  toDisk := disk
  calls := Function.update s.calls i phase
  launcher := s.launcher

theorem withCall_self (m : Machine ρ) (i : ℕ) (disk : Disk ρ) (p : Phase) :
    (m.withCall i disk p).calls i = p := Function.update_self ..

theorem withCall_of_ne (m : Machine ρ) {i j : ℕ} (hj : j ≠ i) (disk : Disk ρ) (p : Phase) :
    (m.withCall i disk p).calls j = m.calls j := Function.update_of_ne hj ..

/-- One step of the machine, where `fits` says what a step of a call is to meet. -/
inductive MachineStep (host : Host) (fits : Machine ρ → ℕ → Phase → Prop) (s : Machine ρ) :
    Machine ρ → Prop where
  | commit {row : ρ} (hup : s.root.dirs.running = true) (hnew : row ∉ s.db.rows) :
      MachineStep host fits s
        { s with db := { s.db with rows := s.db.rows ++ [row], commits := s.db.commits + 1 } }
  | call (i : ℕ) {disk : Disk ρ} {phase : Phase} (hup : s.root.dirs.running = true)
      (hstep : CallStep host s.toDisk (s.calls i) disk phase) (hfits : fits s i phase) :
      MachineStep host fits s (s.withCall i disk phase)
  /-- A backup is pruned, or removed by a call of `create_backup` that failed on the same name. -/
  | prune (path : String) :
      MachineStep host fits s { s with snapshots := Function.update s.snapshots path none }
  | launcher {s' : Machine ρ} (h : LauncherStep host s s') : MachineStep host fits s s'

/-- Any sequence of steps. -/
abbrev MachineRun (host : Host) (fits : Machine ρ → ℕ → Phase → Prop) :
    Machine ρ → Machine ρ → Prop :=
  ReflTransGen (MachineStep host fits)

theorem MachineStep.mono {host : Host} {fits fits' : Machine ρ → ℕ → Phase → Prop}
    {s s' : Machine ρ} (hfits : ∀ i p, fits s i p → fits' s i p) (h : MachineStep host fits s s') :
    MachineStep host fits' s s' := by
  cases h with
  | commit hup hnew => exact .commit hup hnew
  | call i hup hstep hfit => exact .call i hup hstep (hfits i _ hfit)
  | prune path => exact .prune path
  | launcher h => exact .launcher h

/-! ## A call that nothing comes between -/

/-- Some steps of one call. -/
abbrev CallRun (host : Host) : Disk ρ × Phase → Disk ρ × Phase → Prop :=
  ReflTransGen fun a b => CallStep host a.1 a.2 b.1 b.2

/-- From this phase the call can leave the install root so. -/
def Finishes (host : Host) (s : Disk ρ) (p : Phase) (root : InstallRoot) : Prop :=
  ∃ disk : Disk ρ, disk.root = root ∧ disk.db = s.db ∧ CallRun host (s, p) (disk, .gone)

variable {host : Host} {s s₁ : Disk ρ} {p p₁ : Phase} {root : InstallRoot}

theorem Finishes.leave : Finishes host s p s.root := ⟨s, rfl, rfl, .single (.leave p)⟩

theorem Finishes.step (h : CallStep host s p s₁ p₁) (hdb : s₁.db = s.db)
    (hrest : Finishes host s₁ p₁ root) : Finishes host s p root := by
  obtain ⟨disk, hroot, hdisk, hrun⟩ := hrest
  exact ⟨disk, hroot, hdisk.trans hdb, .head h hrun⟩

theorem exec_ofExcept_bind {σ ε α β : Type} (r : Except ε α) (k : α → Prog σ ε β) (s : σ) :
    exec (ofExcept r >>= k) s =
      match r with
      | .ok a => exec (k a) s
      | .error e => (.error e, s) := by
  rw [exec_bind, exec_ofExcept]
  cases r <;> rfl

theorem exec_modify_bind {σ ε β : Type} (effect : σ → σ) (k : Unit → Prog σ ε β) (s : σ) :
    exec (modify effect >>= k) s = exec (k ()) (effect s) := rfl

/-- A part of the program that may raise and has no effect. -/
theorem Finishes.ofExcept {α β : Type} {r : Except Raised α} {k : α → Prog InstallRoot Raised β}
    (h : ∀ a, r = .ok a → Finishes host s p (exec (k a) s.root).2) :
    Finishes host s p (exec (ofExcept r >>= k) s.root).2 := by
  rw [exec_ofExcept_bind]
  cases r with
  | error e => exact .leave
  | ok a => exact h a rfl

/-- `stage_pending`. -/
theorem finishes_pending {v : Verified} {path backupRel : String} (t : Attempt)
    (h : host.relativeTo path = some backupRel) :
    Finishes host s (.backedUp v path) (exec (do
      stagePending t "staged" v.version backupRel
      return ApplyResult.staged v.version) s.root).2 := by
  unfold stagePending
  simp only [bind_assoc]
  refine Finishes.ofExcept fun _ _ => ?_
  cases t.fault .partialWrite with
  | some r => exact Finishes.step (.torn v path t.torn) rfl .leave
  | none =>
    refine Finishes.step (.write v h) rfl ?_
    simp only [exec_modify_bind, bind_assoc]
    cases t.fault .replace with
    | some r => exact .leave
    | none => exact Finishes.step (.replace v rfl) rfl .leave

theorem unpack_unpack (s : Disk ρ) (a b : Tree) : (s.unpack a).unpack b = s.unpack (a ++ b) := by
  simp [Disk.unpack, InstallRoot.unpack, InstallRoot.stage]

theorem Finishes.unpack {v : Verified} {rest : Tree} : ∀ {members done : Tree},
    Finishes host (s.unpack (done ++ members)) (.unpacking v rest) root →
      Finishes host (s.unpack done) (.unpacking v (members ++ rest)) root
  | [], done, h => by rwa [List.append_nil] at h
  | m :: members, done, h => by
    refine Finishes.step (.member v m _) rfl ?_
    rw [unpack_unpack]
    exact Finishes.unpack (by rwa [List.append_assoc])

/-- `_extract_guarded` and what comes after it. -/
theorem finishes_extract {β : Type} {v : Verified} {t : Attempt}
    {k : Unit → Prog InstallRoot Raised β}
    (h : ∀ s' : Disk ρ, s'.snapshots = s.snapshots →
      Finishes host s' (.unpacking v []) (exec (k ()) s'.root).2) :
    Finishes host s (.clearing v) (exec (extractGuarded host t v.archive >>= k) s.root).2 := by
  unfold extractGuarded
  cases t.fault .stagedDir with
  | some r => exact .leave
  | none =>
  refine Finishes.step (.make v) rfl ?_
  simp only [step, bind_assoc, exec_modify_bind]
  refine Finishes.ofExcept (s := s.unpack []) fun members hmembers => ?_
  by_cases hescapes : (members.any fun m => host.escapes m.1) = true
  · rw [if_pos hescapes]
    exact .leave
  rw [if_neg hescapes]
  refine Finishes.step (.readNames hmembers (by simpa using hescapes)) rfl ?_
  -- the members that are unpacked, one at a time
  have hunpack : ∀ ms rest, members = ms ++ rest → ∀ {root},
      Finishes host (s.unpack ms) (.unpacking v rest) root →
        Finishes host (s.unpack []) (.unpacking v members) root := by
    rintro ms rest rfl root hrest
    have hdone : Finishes host (s.unpack ([] ++ ms)) (.unpacking v rest) root := hrest
    exact hdone.unpack
  cases t.extracted with
  | none =>
    refine hunpack members [] (List.append_nil _).symm ?_
    have hroot : (s.unpack members).root = (s.unpack []).root.unpack members :=
      congrArg Disk.root (unpack_unpack s [] members).symm
    rw [exec_modify_bind, ← hroot]
    exact h (s.unpack members) rfl
  | some stop =>
    refine hunpack (members.take stop.1) _ (List.take_append_drop _ _).symm ?_
    have hroot : (s.unpack (members.take stop.1)).root =
        (s.unpack []).root.unpack (members.take stop.1) :=
      congrArg Disk.root (unpack_unpack s [] _).symm
    simp only [bind_assoc, exec_modify_bind, ← hroot]
    exact .leave

/-- The call of an app that is up. -/
theorem apply_finishes {app : Tree} {t : Attempt} (release : Value)
    (happ : s.root.dirs.app = some app)
    (hleft : ∀ tree left, t.leftover tree = some left → left ⊆ tree)
    (hfresh : ∀ path, t.backup = .ok path → s.snapshots path = none) :
    Finishes host s .gone (exec (apply host t app release) s.root).2 := by
  unfold apply
  split_ifs
  · exact .leave
  refine Finishes.step .call rfl (Finishes.ofExcept fun release _ => ?_)
  split
  · exact .leave
  refine Finishes.ofExcept fun _ _ => Finishes.ofExcept fun verified hverified => ?_
  split
  · exact .leave
  next version archive =>
  refine Finishes.step (.verify (v := ⟨version, archive⟩) happ hverified) rfl ?_
  refine Finishes.step (.clear _) rfl ?_
  refine Finishes.step (.remove _ (s.root.dirs.staged.bind t.leftover) ?_) rfl ?_
  · intro tree htree
    obtain ⟨whole, hwhole, hrest⟩ := Option.bind_eq_some_iff.mp htree
    exact ⟨whole, hwhole, hleft whole tree hrest⟩
  rw [exec_modify_bind]
  refine finishes_extract (s := s.stage _) (v := ⟨version, archive⟩) fun s₁ hs₁ => ?_
  refine Finishes.ofExcept fun _ _ => Finishes.ofExcept fun path hpath => ?_
  have hnew : s₁.snapshots path = none := by rw [hs₁]; exact hfresh path hpath
  refine Finishes.step (.backup _ hnew) rfl ?_
  rw [exec_modify_bind]
  cases hrel : host.relativeTo path with
  | none => exact .leave
  | some backupRel => exact finishes_pending (s := s₁.backup path) (v := ⟨version, archive⟩) t hrel

/-- A call leaves the app up. -/
theorem CallStep.running (h : CallStep host s p s₁ p₁) :
    s₁.root.dirs.running = s.root.dirs.running := by
  cases h <;> rfl

variable {fits : Machine ρ → ℕ → Phase → Prop} {m₀ m : Machine ρ} {i : ℕ}

theorem withCall_withCall (disk disk' : Disk ρ) (p p' : Phase) :
    (m.withCall i disk p).withCall i disk' p' = m.withCall i disk' p' := by
  rw [Machine.withCall, Machine.withCall, Machine.withCall, Function.update_idem]

/-- A run goes on with a step of a call. -/
theorem MachineRun.call (hrun : MachineRun host fits m₀ (m.withCall i s p))
    (hup : s.root.dirs.running = true) (hstep : CallStep host s p s₁ p₁)
    (hfits : fits (m.withCall i s p) i p₁) : MachineRun host fits m₀ (m.withCall i s₁ p₁) := by
  have hnext : MachineStep host fits (m.withCall i s p) ((m.withCall i s p).withCall i s₁ p₁) :=
    .call i hup (by rwa [withCall_self]) hfits
  rw [withCall_withCall] at hnext
  exact hrun.tail hnext

/-- Steps of one call are steps of the machine. -/
theorem CallRun.machine {a b : Disk ρ × Phase} (h : CallRun host a b) (m : Machine ρ) (i : ℕ)
    (hup : a.1.root.dirs.running = true) :
    MachineRun host (fun _ _ _ => True) (m.withCall i a.1 a.2) (m.withCall i b.1 b.2) ∧
      b.1.root.dirs.running = true := by
  induction h with
  | refl => exact ⟨.refl, hup⟩
  | tail _ hstep ih => exact ⟨ih.1.call ih.2 hstep trivial, hstep.running.trans ih.2⟩

/-- **A call that nothing comes between** is a run of the machine: it leaves what `apply` leaves. -/
theorem apply_run {app : Tree} {t : Attempt} (release : Value)
    (hup : m.root.dirs.running = true) (hcall : m.calls i = .gone)
    (happ : m.root.dirs.app = some app)
    (hleft : ∀ tree left, t.leftover tree = some left → left ⊆ tree)
    (hfresh : ∀ path, t.backup = .ok path → m.snapshots path = none) :
    ∃ disk : Disk ρ, disk.root = (exec (apply host t app release) m.root).2 ∧ disk.db = m.db ∧
      MachineRun host (fun _ _ _ => True) m { m with toDisk := disk } := by
  obtain ⟨disk, hroot, hdb, hrun⟩ :
      Finishes host m.toDisk .gone (exec (apply host t app release) m.root).2 :=
    apply_finishes release happ hleft hfresh
  have hmachine := (hrun.machine m i hup).1
  rw [Machine.withCall, Machine.withCall, ← hcall, Function.update_eq_self] at hmachine
  exact ⟨disk, hroot, hdb, hmachine⟩

/-! ## A calm release -/

/-- Version 1.142 in use, with one row in its ledger. -/
def machineAtRest : Machine ℕ where
  root := atRest
  db := { rows := [5] }
  snapshots _ := none
  calls := noCalls
  launcher := .watching

/-- The release that `calm` downloads. -/
def release143 : Verified := ⟨"1.143", "zip".toByteArray⟩

theorem release143_verified : verifyRelease easyHost calm [] nextRelease =
    .ok (some (release143.version, release143.archive)) := by
  decide +kernel

end MyOriShop
