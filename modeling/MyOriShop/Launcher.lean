import Mathlib.Logic.Relation
import MyOriShop.Update

/-!
# Launcher: the marker and the installed version (`launcher/__main__.py`)

The app stages an update and names it in a marker; the launcher, which polls the marker, swaps the
staged code in if it serves the version the marker names, and takes the old code back otherwise.

* `parsePending` is `parse_pending`, `Tick` one call of `run_once` with an `apply_update` that ends
  as `Ends` says. An exception between a rename and its flag is left out of it: such a cycle
  installs what no marker names.
* `UpdateStep` is a call of `apply` or a tick, and `UpdateRun` any sequence of them.

Results:
* `parsePending_markerText`: what `stage_pending` wrote names the version it was given.
* `UpdateStep.onward`: a step keeps `Marked`, by which no marker names an older version than the
  installed one, and does not lower the installed counter.
* `update_gate`: the marker is written for admitted releases only, and along a run that starts
  without a marker the installed counter never decreases.
-/

namespace MyOriShop

open Lib.Json Lib.Raising

/-! ## The marker -/

/-- A parsed marker. -/
structure Pending where
  stagedDir : String
  expectedVersion : String
  dbBackupPath : String

/-- `_REQUIRED_KEYS`. -/
def requiredKeys : List String := ["staged_dir", "expected_version", "db_backup_path"]

/-- `str(data[key])`. -/
def strAt (host : Host) (data : List (String × Value)) (key : String) : String :=
  match valueAt key data with
  | .str s => s
  | v => host.str v

/-- `parse_pending`; `none` for `ValueError`. -/
def parsePending (host : Host) (raw : String) : Option Pending :=
  match loads raw with
  | some (.obj data) =>
    let keys := data.map Prod.fst
    if (∀ key ∈ keys, key ∈ requiredKeys) ∧ ∀ key ∈ requiredKeys, key ∈ keys then do
      let stagedDir ← host.confine (strAt host data "staged_dir")
      let dbBackupPath ← host.confine (strAt host data "db_backup_path")
      return { stagedDir, expectedVersion := strAt host data "expected_version", dbBackupPath }
    else none
  | _ => none

/-- What was written for a version names that version. -/
theorem parsePending_markerText {host : Host} {stagedRel version backupRel : String} {p : Pending}
    (h : parsePending host (markerText stagedRel version backupRel) = some p) :
    p.expectedVersion = version := by
  simp only [parsePending, markerText, loads_asciiDumps] at h
  split_ifs at h
  obtain ⟨stagedDir, -, h⟩ := Option.bind_eq_some_iff.mp h
  obtain ⟨dbBackupPath, -, h⟩ := Option.bind_eq_some_iff.mp h
  cases h
  rfl

/-! ## One tick -/

/-- The marker moved aside, or left where `os.replace` failed. -/
inductive Quarantined (s : InstallRoot) : InstallRoot → Prop where
  | moved : Quarantined s { s with marker := none, failedMarker := s.marker }
  | stuck : Quarantined s s

/-- The marker unlinked, or left where that failed. -/
inductive Consumed (s : InstallRoot) : InstallRoot → Prop where
  | unlinked : Consumed s { s with marker := none }
  | stuck : Consumed s s

/-- The install when a cycle begins. -/
def InstallRoot.entering (s : InstallRoot) : Install Tree := { s.dirs with db := .untouched }

/-- `run_once`. -/
inductive Tick (host : Host) (s : InstallRoot) : InstallRoot → Prop where
  /-- There is no marker. -/
  | idle (hmarker : s.marker = none) : Tick host s s
  /-- `OSError` on reading it: the marker is being written. -/
  | unread : Tick host s s
  | invalid {text : String} {s' : InstallRoot} (hmarker : s.marker = some text)
      (hbad : parsePending host text = none) (hmark : Quarantined s s') : Tick host s s'
  /-- It names another directory than the staged one, or that one is gone. -/
  | unsatisfiable {text : String} {p : Pending} {s' : InstallRoot} (hmarker : s.marker = some text)
      (hp : parsePending host text = some p)
      (hdir : p.stagedDir ≠ host.stagedPath ∨ s.dirs.staged = none) (hmark : Quarantined s s') :
      Tick host s s'
  /-- A cycle, whose health check wants the version the marker names. -/
  | cycle {text : String} {p : Pending} {point : Point} {dirs : Install Tree} {s' : InstallRoot}
      (hmarker : s.marker = some text) (hp : parsePending host text = some p)
      (hdir : p.stagedDir = host.stagedPath) (hends : Ends s.entering point dirs)
      (hrecorded : ¬point.Unrecorded)
      (hhealth : point.Finished → ∀ app ∈ dirs.app, host.version app = p.expectedVersion)
      (hmark : (point = .nowhere ∧ Consumed { s with dirs } s') ∨
        (point ≠ .nowhere ∧ Quarantined { s with dirs } s')) : Tick host s s'

/-- Either marker step leaves the directories, and the marker if it does not remove it. -/
theorem Quarantined.kept {s s' : InstallRoot} (h : Quarantined s s') :
    s'.dirs = s.dirs ∧ (s'.marker = none ∨ s'.marker = s.marker) := by
  cases h with
  | moved => exact ⟨rfl, .inl rfl⟩
  | stuck => exact ⟨rfl, .inr rfl⟩

theorem Consumed.kept {s s' : InstallRoot} (h : Consumed s s') :
    s'.dirs = s.dirs ∧ (s'.marker = none ∨ s'.marker = s.marker) := by
  cases h with
  | unlinked => exact ⟨rfl, .inl rfl⟩
  | stuck => exact ⟨rfl, .inr rfl⟩

/-! ## Runs -/

/-- A call of `apply` in the installed app, or a tick. -/
inductive UpdateStep (host : Host) (s : InstallRoot) : InstallRoot → Prop where
  | apply {app : Tree} (happ : s.dirs.app = some app) (t : Attempt) (release : Value) :
      UpdateStep host s (exec (apply host t app release) s).2
  | tick {s' : InstallRoot} (h : Tick host s s') : UpdateStep host s s'

/-- Any sequence of steps. -/
abbrev UpdateRun (host : Host) : InstallRoot → InstallRoot → Prop :=
  Relation.ReflTransGen (UpdateStep host)

/-- The installed counter. -/
def InstallRoot.installed (host : Host) (s : InstallRoot) : Option Int :=
  (s.dirs.app.map host.version).bind counter

/-- The counter of `v` is at least `n`. -/
def Reached (n : Int) (v : Option Int) : Prop := ∃ m, v = some m ∧ n ≤ m

/-- The marker, if there is one, names no older version than the installed one. -/
def Marked (host : Host) (s : InstallRoot) : Prop :=
  ∀ text ∈ s.marker, s.dirs.app.isSome ∧ ∀ p ∈ parsePending host text, ∀ n ∈ s.installed host,
    Reached n (counter p.expectedVersion)

/-- A step that keeps the app keeps what is installed. -/
theorem installed_congr {host : Host} {s s' : InstallRoot} (h : s'.dirs.app = s.dirs.app) :
    s'.installed host = s.installed host := by
  rw [InstallRoot.installed, h, InstallRoot.installed]

theorem Reached.refl {n : Int} {v : Option Int} (h : n ∈ v) : Reached n v := ⟨n, h, le_refl n⟩

theorem Marked.congr {host : Host} {s s' : InstallRoot} (h : Marked host s)
    (happ : s'.dirs.app = s.dirs.app) (hmarker : s'.marker = none ∨ s'.marker = s.marker) :
    Marked host s' := by
  intro text htext
  rcases hmarker with hnone | hsame
  · rw [hnone] at htext
    cases htext
  · rw [hsame] at htext
    rw [happ, installed_congr happ]
    exact h text htext

/-- What a step does to the installed counter, and that it keeps `Marked`. -/
structure Onward (host : Host) (s s' : InstallRoot) : Prop where
  marked : Marked host s'
  installed : ∀ n ∈ s.installed host, Reached n (s'.installed host)

theorem Onward.of_app {host : Host} {s s' : InstallRoot} (h : Marked host s)
    (happ : s'.dirs.app = s.dirs.app) (hmarker : s'.marker = none ∨ s'.marker = s.marker) :
    Onward host s s' where
  marked := h.congr happ hmarker
  installed n hn := by
    rw [installed_congr happ]
    exact .refl hn

theorem onward_apply {host : Host} {s : InstallRoot} {app : Tree} (h : Marked host s)
    (happ : s.dirs.app = some app) (t : Attempt) (release : Value) :
    Onward host s (exec (apply host t app release) s).2 := by
  have hkept := apply_app host t app release s
  by_cases hstaged : Staged (exec (apply host t app release) s).1
  · cases hrun : exec (apply host t app release) s with
    | mk r s' =>
    rw [hrun] at hstaged hkept
    obtain ⟨version, rfl⟩ := hstaged.version
    obtain ⟨⟨d, hd⟩, backupRel, hmarker⟩ := apply_staged hrun
    obtain ⟨l, m, hl, hm, hlt⟩ := hd.newer
    have hinstalled : s.installed host = some l := by
      rw [InstallRoot.installed, happ]
      exact hl
    constructor
    · intro text htext
      rw [hmarker] at htext
      cases htext
      refine ⟨by rw [hkept, happ]; rfl, fun p hp n hn => ?_⟩
      rw [installed_congr hkept, hinstalled] at hn
      cases hn
      exact ⟨m, by rw [parsePending_markerText hp, hm], hlt.le⟩
    · intro n hn
      rw [installed_congr hkept]
      exact .refl hn
  · exact .of_app h hkept (.inr (apply_marker host t app release s hstaged))

theorem Tick.onward {host : Host} {s s' : InstallRoot} (h : Marked host s) (htick : Tick host s s') :
    Onward host s s' := by
  cases htick with
  | idle => exact .of_app h rfl (.inr rfl)
  | unread => exact .of_app h rfl (.inr rfl)
  | invalid hmarker hbad hmark =>
    obtain ⟨hdirs, hleft⟩ := hmark.kept
    exact .of_app h (by rw [hdirs]) hleft
  | unsatisfiable hmarker hp hdir hmark =>
    obtain ⟨hdirs, hleft⟩ := hmark.kept
    exact .of_app h (by rw [hdirs]) hleft
  | @cycle text p point dirs s' hmarker hp hdir hends hrecorded hhealth hmark =>
    obtain ⟨happ, hnamed⟩ := h text hmarker
    obtain ⟨old, hold⟩ := Option.isSome_iff_exists.mp happ
    have hleft : s'.dirs = dirs ∧ (s'.marker = none ∨ s'.marker = s.marker) := by
      rcases hmark with ⟨-, hmark⟩ | ⟨-, hmark⟩
      · exact hmark.kept
      · exact hmark.kept
    obtain ⟨hdirs, hleft⟩ := hleft
    -- the tree that is swapped in, if there is one
    obtain ⟨new, hnew⟩ : ∃ new, ∀ code ∈ s.entering.staged, code = new := by
      cases hstaged : s.entering.staged with
      | none => exact ⟨old, fun code hcode => nomatch hcode⟩
      | some new => exact ⟨new, fun code hcode => (Option.some_inj.mp hcode).symm⟩
    have hentering : s.entering.app = some old := hold
    rcases hends.app hentering hnew rfl hrecorded with hsame | ⟨hfinished, hswapped⟩
    · exact .of_app h (by rw [hdirs, hsame, hold]) hleft
    · have hinstalled : s'.installed host = counter p.expectedVersion := by
        rw [InstallRoot.installed, hdirs, hswapped]
        exact congrArg counter (hhealth hfinished new hswapped)
      constructor
      · intro text' htext'
        obtain rfl : text' = text := by
          rcases hleft with hnone | hsame
          · rw [hnone] at htext'
            cases htext'
          · rw [hsame, hmarker] at htext'
            exact (Option.some_inj.mp htext').symm
        refine ⟨by rw [hdirs, hswapped]; rfl, fun p' hp' n hn => ?_⟩
        rw [hp] at hp'
        cases hp'
        rw [hinstalled] at hn
        exact .refl hn
      · intro n hn
        rw [hinstalled]
        exact hnamed p hp n hn

theorem UpdateStep.onward {host : Host} {s s' : InstallRoot} (h : Marked host s)
    (hstep : UpdateStep host s s') : Onward host s s' := by
  cases hstep with
  | apply happ t release => exact onward_apply h happ t release
  | tick htick => exact htick.onward h

theorem Reached.trans {n : Int} {v w : Option Int} (h : Reached n v)
    (hw : ∀ m ∈ v, Reached m w) : Reached n w := by
  obtain ⟨m, hm, hle⟩ := h
  obtain ⟨k, hk, hle'⟩ := hw m hm
  exact ⟨k, hk, hle.trans hle'⟩

/-- A run. -/
theorem UpdateRun.onward {host : Host} {s s' : InstallRoot} (h : Marked host s)
    (hrun : UpdateRun host s s') : Onward host s s' := by
  induction hrun with
  | refl => exact .of_app h rfl (.inr rfl)
  | tail _ hstep ih =>
    have hnext := hstep.onward ih.marked
    exact ⟨hnext.marked, fun n hn => (ih.installed n hn).trans hnext.installed⟩

/-- **The update gate.** A call of `apply` either stages a version that a download admitted, and the
marker then names that version, or leaves the marker as it was; and along a run that starts without a
marker the installed counter never decreases. -/
theorem update_gate (host : Host) :
    (∀ (t : Attempt) (app : Tree) (release : Value) (s : InstallRoot),
      (∃ version, (exec (apply host t app release) s).1 = .ok (.staged version) ∧
        Admitted host t app version ∧
        ∃ text, (exec (apply host t app release) s).2.marker = some text ∧
          ∃ backupRel, text = markerText "staged" version backupRel ∧
            ∀ p ∈ parsePending host text, p.expectedVersion = version) ∨
      (¬Staged (exec (apply host t app release) s).1 ∧
        (exec (apply host t app release) s).2.marker = s.marker)) ∧
    (∀ s₀ : InstallRoot, s₀.marker = none → ∀ s₁, UpdateRun host s₀ s₁ →
      ∀ s₂, UpdateRun host s₁ s₂ → ∀ n ∈ s₁.installed host,
        ∃ m ∈ s₂.installed host, n ≤ m) := by
  constructor
  · intro t app release s
    by_cases hstaged : Staged (exec (apply host t app release) s).1
    · obtain ⟨version, hversion⟩ := hstaged.version
      obtain ⟨hadmitted, backupRel, hmarker⟩ := apply_staged (Prod.ext hversion rfl)
      exact .inl ⟨version, hversion, hadmitted, _, hmarker, backupRel, rfl,
        fun p hp => parsePending_markerText hp⟩
    · exact .inr ⟨hstaged, apply_marker host t app release s hstaged⟩
  · intro s₀ hnone s₁ hrun₁ s₂ hrun₂ n hn
    have hstart : Marked host s₀ := fun text htext => by
      rw [hnone] at htext
      cases htext
    have hs₁ := UpdateRun.onward hstart hrun₁
    exact (UpdateRun.onward hs₁.marked hrun₂).installed n hn

/-! ## From one version to the next -/

/-- The key of a release and, as its key ids agree, a signature with it. -/
def keyText : String :=
  "untrusted comment: minisign\nRWToyp3x80Zr/qvvLitflHXzZU/n7VLpoC1JfSfWKim+EBdMsx18+jJV\n"

/-- A platform on which every check that is not the program's own passes. -/
def easyHost : Host where
  ed25519 _ _ _ := .ok ()
  blake2b := id
  sha256 _ := "ff"
  version tree := if tree.isEmpty then "1.142" else "1.143"
  minisignPub _ := keyText
  hostname _ := .ok (some "github.com")
  nonzero _ := true
  unzip archive := .ok [("app/__init__.py", archive)]
  escapes _ := false
  relativeTo := some
  confine := some
  str _ := ""
  stagedPath := "staged"

/-- One of the assets. -/
def assetNamed (name : String) : Value :=
  .obj [("name", .str name), ("browser_download_url", .str ("https://github.com/" ++ name))]

/-- A release with its manifest, its signature and one archive. -/
def nextRelease : Value :=
  .obj [("assets", .arr (["manifest.txt", "manifest.txt.minisig", "app.zip"].map assetNamed))]

/-- A call that meets nothing unusual. -/
def calm : Attempt where
  respond n _ := .ok (if n = 0 then "version=1.143\nsha256=ff".toByteArray
    else if n = 1 then keyText.toByteArray else "zip".toByteArray)
  backup := .ok "backups/myorishop.db"

/-- Version 1.142, nothing staged. -/
def atRest : InstallRoot where
  dirs := { app := some [], appPrev := none, staged := none, appFailed := none, db := .untouched,
            running := true }
  backups := []
  partialMarker := none
  marker := none
  failedMarker := none

/-- What the call of `apply` leaves. -/
def staging : InstallRoot := (exec (apply easyHost calm [] nextRelease) atRest).2

theorem staging_leaves : staging.dirs.app = some [] ∧
    staging.dirs.staged = some [("app/__init__.py", "zip".toByteArray)] ∧
    staging.marker = some (markerText "staged" "1.143" "backups/myorishop.db") := by
  decide +kernel

/-- What the next tick leaves. -/
def upgraded : InstallRoot :=
  { staging with
    dirs := { app := some [("app/__init__.py", "zip".toByteArray)], appPrev := none, staged := none,
              appFailed := staging.dirs.appFailed, db := .migrated, running := true }
    marker := none }

theorem upgraded_run : UpdateRun easyHost atRest upgraded := by
  obtain ⟨happ, hstaged, hmarker⟩ := staging_leaves
  have hp : parsePending easyHost (markerText "staged" "1.143" "backups/myorishop.db") =
      some ⟨"staged", "1.143", "backups/myorishop.db"⟩ := by
    rw [parsePending, markerText, loads_asciiDumps]
    rfl
  have htick : Tick easyHost staging upgraded := by
    refine .cycle hmarker hp rfl (ends_nowhere (s := staging.entering) happ hstaged) id ?_
      (.inl ⟨rfl, .unlinked⟩)
    rintro - app happ
    cases happ
    rfl
  have hcall : UpdateStep easyHost atRest staging := .apply rfl calm nextRelease
  exact (Relation.ReflTransGen.single hcall).tail (.tick htick)

theorem update_gate_upgraded : ∃ m ∈ upgraded.installed easyHost, 142 ≤ m :=
  (update_gate easyHost).2 atRest rfl atRest .refl upgraded upgraded_run 142 (by decide)

end MyOriShop
