import MyOriShop.UpdateSteps

/-!
# StagedTree: what a pending marker names (`app/services/update.py`)

`apply` rebuilds `staged\\` in place and writes the marker last. The marker of an earlier call may
still be there while a later one rebuilds the directory under it, and two calls may rebuild it at
the same time.

* `Complete host version tree`: the files are those of a verified archive of the version.
* `Exclusive` is what a step of a call is to meet: when it begins to rebuild, no marker waits and no
  other call is rebuilding; when it has removed what was there, what is left is in its archive.

Results:
* `Sound.step`: a step that meets it keeps `Sound`.
* `staged_complete`: along such steps, the tree under a waiting marker is complete.
* `rebuild_exposes`: a call that rebuilds under a waiting marker leaves an empty tree there.
* `not_staged_complete`: two calls of `apply`, one after the other, with no tick between.
-/

namespace MyOriShop

open Lib.Json Relation

variable {ρ : Type} {host : Host}

/-! ## The files of a tree -/

/-- The file of this name, the last one if there are more. -/
def fileAt (tree : Tree) (name : String) : Option Bytes := getItem tree.reverse name

/-- The same files. -/
def SameFiles (tree tree' : Tree) : Prop := ∀ name, fileAt tree name = fileAt tree' name

theorem fileAt_append (a b : Tree) (name : String) :
    fileAt (a ++ b) name = (fileAt b name).or (fileAt a name) := by
  simp only [fileAt, getItem, List.reverse_append, List.find?_append, Option.map_or]

theorem fileAt_eq_none_iff {tree : Tree} {name : String} :
    fileAt tree name = none ↔ name ∉ tree.map Prod.fst := by
  simp only [fileAt, getItem, Option.map_eq_none_iff, List.find?_eq_none, List.mem_reverse,
    decide_eq_true_eq, List.mem_map, not_exists, not_and]

/-- Files that are written over leave no trace. -/
theorem sameFiles_over {left members : Tree}
    (h : ∀ file ∈ left, file.1 ∈ members.map Prod.fst) : SameFiles (left ++ members) members := by
  intro name
  rw [fileAt_append]
  cases hfile : fileAt members name with
  | some bytes => rfl
  | none =>
    rw [Option.none_or, fileAt_eq_none_iff]
    intro hname
    obtain ⟨file, hleft, rfl⟩ := List.mem_map.mp hname
    exact fileAt_eq_none_iff.mp hfile (h file hleft)

/-- A torn file is written over by the whole one. -/
theorem sameFiles_tear (tree rest : Tree) (name : String) (part bytes : Bytes) :
    SameFiles (tree ++ [(name, part)] ++ (name, bytes) :: rest) (tree ++ (name, bytes) :: rest) := by
  have htear : SameFiles ([(name, part)] ++ (name, bytes) :: rest) ((name, bytes) :: rest) :=
    sameFiles_over (by simp)
  intro name
  rw [List.append_assoc, fileAt_append, htear, ← fileAt_append]

/-! ## A complete tree -/

/-- The release passed `verify_release` in some app. -/
def Passed (host : Host) (v : Verified) : Prop :=
  ∃ t app release, verifyRelease host t app release = .ok (some (v.version, v.archive))

/-- The files are the members of the archive. -/
def Unpacked (host : Host) (v : Verified) (tree : Tree) : Prop :=
  ∃ members, host.unzip v.archive = .ok members ∧ SameFiles tree members

/-- The files are those of a verified archive of the version. -/
def Complete (host : Host) (version : String) (tree : Tree) : Prop :=
  ∃ v : Verified, v.version = version ∧ Passed host v ∧ Unpacked host v tree

/-- A marker waits on which `run_once` acts if there is a staged directory. -/
def MarkerWaits (host : Host) (s : InstallRoot) : Prop :=
  ∃ text p, s.marker = some text ∧ parsePending host text = some p ∧
    p.stagedDir = host.stagedPath

/-- The call is at its directory or its marker. -/
def Phase.Busy : Phase → Prop
  | .gone | .verifying | .verified _ => False
  | .clearing _ | .opening _ | .unpacking _ _ | .backedUp _ _ | .placing _ => True

/-- A call begins to rebuild alone and under no marker, and what it could not remove it writes
over. -/
def Exclusive (host : Host) (m : Machine ρ) (i : ℕ) (next : Phase) : Prop :=
  match m.calls i, next with
  | .verified _, .clearing _ => ¬MarkerWaits host m.root ∧ ∀ j, ¬(m.calls j).Busy
  | .clearing v, .opening _ => ∀ members, host.unzip v.archive = .ok members →
      ∀ file ∈ m.root.dirs.staged.getD [], file.1 ∈ members.map Prod.fst
  | _, _ => True

/-- No marker, no call, and a launcher between two ticks. -/
structure Machine.Fresh (m : Machine ρ) : Prop where
  marker : m.root.marker = none
  calls : ∀ i, m.calls i = .gone
  launcher : m.launcher = .watching

/-! ## What the steps keep -/

/-- What a call in this phase knows of the install root. -/
def Holds (host : Host) (s : InstallRoot) : Phase → Prop
  | .gone | .verifying => True
  | .verified v | .clearing v => Passed host v
  | .opening v => Passed host v ∧ ∃ left, s.dirs.staged = some left ∧
      ∀ members, host.unzip v.archive = .ok members → Unpacked host v (left ++ members)
  | .unpacking v rest => Passed host v ∧
      ∃ tree, s.dirs.staged = some tree ∧ Unpacked host v (tree ++ rest)
  | .backedUp v _ => Passed host v ∧ ∃ tree, s.dirs.staged = some tree ∧ Unpacked host v tree
  | .placing v => Passed host v ∧ (∃ tree, s.dirs.staged = some tree ∧ Unpacked host v tree) ∧
      ∃ backupRel, s.partialMarker = some (markerText "staged" v.version backupRel)

/-- The invariant. -/
structure Sound (host : Host) (m : Machine ρ) : Prop where
  one : ∀ i j, (m.calls i).Busy → (m.calls j).Busy → i = j
  quiet : ∀ i, (m.calls i).Busy → ¬MarkerWaits host m.root
  holds : ∀ i, Holds host m.root (m.calls i)
  complete : ∀ p tree, WouldSwap host m.root p tree → Complete host p.expectedVersion tree
  driving : ∀ d, m.launcher = .driving d → MarkerWaits host m.root

variable {m m' : Machine ρ} {s s' : InstallRoot} {i : ℕ} {p : Phase}

theorem WouldSwap.waiting {p : Pending} {tree : Tree} (h : WouldSwap host s p tree) :
    MarkerWaits host s := by
  obtain ⟨text, hmarker, hp, hdir, -⟩ := h
  exact ⟨text, p, hmarker, hp, hdir⟩

theorem MarkerWaits.congr (hmarker : s'.marker = none ∨ s'.marker = s.marker)
    (h : MarkerWaits host s') : MarkerWaits host s := by
  obtain ⟨text, p, htext, hp, hdir⟩ := h
  rcases hmarker with hnone | hsame
  · rw [hnone] at htext
    cases htext
  · exact ⟨text, p, hsame ▸ htext, hp, hdir⟩

theorem WouldSwap.congr {p : Pending} {tree : Tree}
    (hmarker : s'.marker = none ∨ s'.marker = s.marker)
    (hstaged : s'.dirs.staged = none ∨ s'.dirs.staged = s.dirs.staged)
    (h : WouldSwap host s' p tree) : WouldSwap host s p tree := by
  obtain ⟨text, htext, hp, hdir, htree⟩ := h
  rw [htree] at hstaged
  rw [htext] at hmarker
  exact ⟨text, (hmarker.resolve_left (Option.some_ne_none _)).symm, hp, hdir,
    (hstaged.resolve_left (Option.some_ne_none _)).symm⟩

/-- A call that is not at its directory knows nothing of it. -/
theorem Holds.frame (h : Holds host s p) (hbusy : ¬p.Busy) : Holds host s' p := by
  cases p with
  | gone | verifying | verified => exact h
  | clearing | opening | unpacking | backedUp | placing => exact absurd trivial hbusy

theorem Holds.congr (h : Holds host s p) (hstaged : s'.dirs.staged = s.dirs.staged)
    (htemp : s'.partialMarker = s.partialMarker) : Holds host s' p := by
  cases p with
  | gone | verifying | verified | clearing => exact h
  | opening | unpacking | backedUp | placing =>
    simp only [Holds, hstaged, htemp]
    exact h

theorem Machine.Fresh.sound (h : m.Fresh) : Sound host m where
  one i j hi := by rw [h.calls i] at hi; exact hi.elim
  quiet i hi := by rw [h.calls i] at hi; exact hi.elim
  holds i := by rw [h.calls i]; trivial
  complete p tree hp := by
    obtain ⟨text, hmarker, -⟩ := hp
    rw [h.marker] at hmarker
    cases hmarker
  driving d hd := by rw [h.launcher] at hd; cases hd

/-! ## A step of a call -/

/-- The phase of one call replaced, whose step left the disk so. -/
theorem Sound.withCall (h : Sound host m) {disk : Disk ρ} (hholds : Holds host disk.root p)
    (halone : p.Busy → ∀ j ≠ i, ¬(m.calls j).Busy) (hquiet : p.Busy → ¬MarkerWaits host disk.root)
    (hothers : ∀ j ≠ i, Holds host disk.root (m.calls j) ∧
      ((m.calls j).Busy → ¬MarkerWaits host disk.root))
    (hcomplete : ∀ p tree, WouldSwap host disk.root p tree →
      Complete host p.expectedVersion tree)
    (hdriving : ∀ d, m.launcher = .driving d → MarkerWaits host disk.root) :
    Sound host (m.withCall i disk p) := by
  have hself := withCall_self m i disk p
  have hother : ∀ j ≠ i, (m.withCall i disk p).calls j = m.calls j := fun j hj =>
    withCall_of_ne m hj disk p
  refine ⟨fun j k hj hk => ?_, fun j hj => ?_, fun j => ?_, hcomplete, hdriving⟩
  · by_cases hji : j = i <;> by_cases hki : k = i
    · rw [hji, hki]
    · rw [hji, hself] at hj
      rw [hother k hki] at hk
      exact absurd hk (halone hj k hki)
    · rw [hki, hself] at hk
      rw [hother j hji] at hj
      exact absurd hj (halone hk j hji)
    · rw [hother j hji] at hj
      rw [hother k hki] at hk
      exact h.one j k hj hk
  · by_cases hji : j = i
    · rw [hji, hself] at hj
      exact hquiet hj
    · rw [hother j hji] at hj
      exact (hothers j hji).2 hj
  · by_cases hji : j = i
    · rw [hji, hself]
      exact hholds
    · rw [hother j hji]
      exact (hothers j hji).1

/-- A step that leaves the disk. -/
theorem Sound.quietly (h : Sound host m) (hholds : Holds host m.root p)
    (hbusy : p.Busy → ¬MarkerWaits host m.root ∧ ∀ j ≠ i, ¬(m.calls j).Busy) :
    Sound host (m.withCall i m.toDisk p) :=
  h.withCall hholds (fun hp => (hbusy hp).2) (fun hp => (hbusy hp).1)
    (fun j _ => ⟨h.holds j, h.quiet j⟩) h.complete h.driving

/-- A step of a call at its directory, before its marker. -/
theorem Sound.busily (h : Sound host m) {disk : Disk ρ} (hi : (m.calls i).Busy)
    (hmarker : disk.root.marker = m.root.marker) (hholds : Holds host disk.root p) :
    Sound host (m.withCall i disk p) := by
  have halone : ∀ j ≠ i, ¬(m.calls j).Busy := fun j hji hj => hji (h.one j i hj hi)
  have hquiet : ¬MarkerWaits host disk.root := fun hw => h.quiet i hi (hw.congr (.inr hmarker))
  exact h.withCall hholds (fun _ => halone) (fun _ => hquiet)
    (fun j hji => ⟨(h.holds j).frame (halone j hji), fun _ => hquiet⟩)
    (fun _ _ hp => absurd hp.waiting hquiet)
    (fun d hd => absurd (h.driving d hd) (h.quiet i hi))

/-- The marker is placed. -/
theorem Sound.replace (h : Sound host m) {v : Verified} {text : String}
    (hi : m.calls i = .placing v) (htext : m.root.partialMarker = some text) :
    Sound host (m.withCall i
      { m.toDisk with root := { m.root with marker := some text, partialMarker := none } } .gone) := by
  have hbusy : (m.calls i).Busy := by rw [hi]; trivial
  have halone : ∀ j ≠ i, ¬(m.calls j).Busy := fun j hji hj => hji (h.one j i hj hbusy)
  have hholds := h.holds i
  rw [hi] at hholds
  obtain ⟨hpassed, ⟨tree, htree, hunpacked⟩, backupRel, htemp⟩ := hholds
  refine h.withCall trivial (fun hp => hp.elim) (fun hp => hp.elim)
    (fun j hji => ⟨(h.holds j).frame (halone j hji), fun hj => absurd hj (halone j hji)⟩) ?_
    (fun d hd => absurd (h.driving d hd) (h.quiet i hbusy))
  rintro p tree' ⟨text', htext', hp, -, htree'⟩
  rw [htemp] at htext
  cases htext
  cases htext'
  rw [show m.root.dirs.staged = some tree' from htree'] at htree
  cases htree
  exact ⟨v, (parsePending_markerText hp).symm, hpassed, hunpacked⟩

theorem Sound.call (h : Sound host m) {disk : Disk ρ}
    (hstep : CallStep host m.toDisk (m.calls i) disk p) (hfits : Exclusive host m i p) :
    Sound host (m.withCall i disk p) := by
  have hholds := h.holds i
  have hbusy : ∀ {q}, m.calls i = q → q.Busy → (m.calls i).Busy := fun hq hb => hq ▸ hb
  unfold Exclusive at hfits
  generalize hi : m.calls i = q at hstep hholds hfits
  cases hstep with
  | call => exact h.quietly trivial fun hp => hp.elim
  | leave => exact h.quietly trivial fun hp => hp.elim
  | verify happ hverify => exact h.quietly ⟨_, _, _, hverify⟩ fun hp => hp.elim
  | clear v => exact h.quietly hholds fun _ => ⟨hfits.1, fun j _ => hfits.2 j⟩
  | remove v hleft => exact h.busily (hbusy hi trivial) rfl hholds
  | make v =>
    refine h.busily (hbusy hi trivial) rfl ⟨hholds, _, rfl, fun members hmembers => ?_⟩
    rw [List.append_nil]
    exact ⟨members, hmembers, sameFiles_over (hfits members hmembers)⟩
  | readNames hmembers hinside =>
    obtain ⟨hpassed, left, hleft, hover⟩ := hholds
    exact h.busily (hbusy hi trivial) rfl ⟨hpassed, left, hleft, hover _ hmembers⟩
  | tear v name part bytes rest =>
    obtain ⟨hpassed, tree, htree, members, hmembers, hsame⟩ := hholds
    have htorn : (m.toDisk.unpack [(name, part)]).root.dirs.staged =
        some (tree ++ [(name, part)]) := by
      simp [Disk.unpack, InstallRoot.unpack, InstallRoot.stage, htree]
    exact h.busily (hbusy hi trivial) rfl ⟨hpassed, _, htorn, members, hmembers,
      fun name' => (sameFiles_tear tree rest name part bytes name').trans (hsame name')⟩
  | member v file rest =>
    obtain ⟨hpassed, tree, htree, hunpacked⟩ := hholds
    have hwritten : (m.toDisk.unpack [file]).root.dirs.staged = some (tree ++ [file]) := by
      simp [Disk.unpack, InstallRoot.unpack, InstallRoot.stage, htree]
    refine h.busily (hbusy hi trivial) rfl ⟨hpassed, _, hwritten, ?_⟩
    rwa [List.append_assoc]
  | backup v hfresh =>
    obtain ⟨hpassed, tree, htree, hunpacked⟩ := hholds
    rw [List.append_nil] at hunpacked
    exact h.busily (hbusy hi trivial) rfl ⟨hpassed, tree, htree, hunpacked⟩
  | torn v path text => exact h.busily (hbusy hi trivial) rfl hholds
  | @write v path backupRel hrel =>
    exact h.busily (hbusy hi trivial) rfl ⟨hholds.1, hholds.2, backupRel, rfl⟩
  | replace v htext => exact h.replace hi htext

/-! ## A step of the launcher -/

/-- A step outside the calls: it leaves or removes the marker and the staged directory, and leaves
or ends the calls. -/
theorem Sound.outside (h : Sound host m)
    (hmarker : m'.root.marker = none ∨ m'.root.marker = m.root.marker)
    (hstaged : m'.root.dirs.staged = none ∨ m'.root.dirs.staged = m.root.dirs.staged)
    (hcalls : ∀ i, m'.calls i = .gone ∨ m'.calls i = m.calls i ∧ Holds host m'.root (m.calls i))
    (hdriving : ∀ d, m'.launcher = .driving d → MarkerWaits host m'.root) : Sound host m' := by
  have hbusy : ∀ i, (m'.calls i).Busy → (m.calls i).Busy := by
    intro i hi
    rcases hcalls i with hgone | ⟨hsame, -⟩
    · rw [hgone] at hi
      exact hi.elim
    · rwa [hsame] at hi
  refine ⟨fun i j hi hj => h.one i j (hbusy i hi) (hbusy j hj),
    fun i hi hw => h.quiet i (hbusy i hi) (hw.congr hmarker), fun i => ?_,
    fun p tree hp => h.complete p tree (hp.congr hmarker hstaged), hdriving⟩
  rcases hcalls i with hgone | ⟨hsame, hholds⟩
  · rw [hgone]
    trivial
  · rwa [hsame]

theorem Done.staged {κ : Type} {q : Statement} {c c' : Cycle κ} (h : Done q c c') :
    c'.staged = none ∨ c'.staged = c.staged := by
  cases h with
  | renameStaged => exact .inl rfl
  | stopApp | clearPrev | renameApp | notePrevRenamed | noteStagedSwapped | noteMigrateAttempted
  | migrate | startApp | checkHealth => exact .inr rfl

theorem Driven.Raises.staged {d : Driven ρ} {dirs : Install Tree} {c : Cycle Tree}
    (h : d.Raises dirs c) : (rollback c).staged = dirs.staged := by
  have hrollback : (rollback c).staged = c.staged := by
    unfold rollback
    cases c.stagedSwapped <;> cases c.migrateAttempted <;> simp only [] <;> split_ifs <;> rfl
  rw [hrollback]
  cases h with
  | inside hbody hq => cases hq <;> rfl
  | after hbody => rfl

/-- While a cycle is under way no call is at its directory. -/
theorem Sound.idle (h : Sound host m) {d : Driven ρ} (hd : m.launcher = .driving d) (i : ℕ) :
    ¬(m.calls i).Busy := fun hi => h.quiet i hi (h.driving d hd)

/-- The handler ends every call and leaves the staged directory. -/
theorem Sound.rolledBack (h : Sound host m) {d : Driven ρ} {c : Cycle Tree}
    (hc : d.Raises m.root.dirs c) (db : DbFile ρ) : Sound host (m.rolledBack c db) :=
  h.outside (.inr rfl) (.inr hc.staged) (fun _ => .inl rfl) fun _ hd => by cases hd

theorem Sound.launcher (h : Sound host m) (hstep : LauncherStep host m m') : Sound host m' := by
  have hcalls : ∀ {s : InstallRoot}, s.dirs.staged = m.root.dirs.staged →
      s.partialMarker = m.root.partialMarker → ∀ i, m.calls i = .gone ∨
        m.calls i = m.calls i ∧ Holds host s (m.calls i) :=
    fun hstaged htemp i => .inr ⟨rfl, (h.holds i).congr hstaged htemp⟩
  cases hstep with
  | refuse hw hmarker hbad hmark =>
    cases hmark with
    | moved =>
      exact h.outside (.inl rfl) (.inr rfl) (hcalls rfl rfl) fun d hd => by
        rw [hw] at hd
        cases hd
    | stuck => exact h
  | begin hw hp =>
    exact h.outside (.inr rfl) (.inr rfl) (hcalls rfl rfl) fun _ _ => hp.waiting
  | preflight hd hdone =>
    exact h.outside (.inr rfl) (.inr rfl) (hcalls rfl rfl) fun _ hd => by cases hd
  | @statement d q rest c hd hbody hq =>
    refine h.outside (.inr rfl) hq.staged (fun i => ?_) fun _ _ => h.driving d hd
    unfold Machine.advance
    simp only
    split_ifs with hstop
    · exact .inl rfl
    · exact .inr ⟨rfl, (h.holds i).frame (h.idle hd i)⟩
  | undo hd hundo =>
    cases hundo with
    | untouched hc hm => exact h.rolledBack hc _
    | restored hc hm hsnapshot => exact h.rolledBack hc _
  | unrestored hd hc hm => exact h.rolledBack hc _
  | cleanup left swapped hd hdone =>
    exact h.outside (.inr rfl) (.inr rfl) (hcalls rfl rfl) fun _ hd => by cases hd
  | consume hover hmark =>
    cases hmark with
    | unlinked => exact h.outside (.inl rfl) (.inr rfl) (hcalls rfl rfl) fun _ hd => by cases hd
    | stuck => exact h.outside (.inr rfl) (.inr rfl) (hcalls rfl rfl) fun _ hd => by cases hd
  | quarantine hover hmark =>
    cases hmark with
    | moved => exact h.outside (.inl rfl) (.inr rfl) (hcalls rfl rfl) fun _ hd => by cases hd
    | stuck => exact h.outside (.inr rfl) (.inr rfl) (hcalls rfl rfl) fun _ hd => by cases hd
  | restart up => exact h.outside (.inr rfl) (.inr rfl) (fun _ => .inl rfl) fun _ hd => by cases hd

/-- One step. -/
theorem Sound.step (h : Sound host m) (hstep : MachineStep host (Exclusive host) m m') :
    Sound host m' := by
  cases hstep with
  | commit hup hnew => exact ⟨h.one, h.quiet, h.holds, h.complete, h.driving⟩
  | call i hup hcall hfits => exact h.call hcall hfits
  | prune path => exact ⟨h.one, h.quiet, h.holds, h.complete, h.driving⟩
  | launcher hlauncher => exact h.launcher hlauncher

/-- A run. -/
theorem Sound.run {m₀ : Machine ρ} (h : Sound host m₀)
    (hrun : MachineRun host (Exclusive host) m₀ m) : Sound host m := by
  induction hrun with
  | refl => exact h
  | tail _ hstep ih => exact ih.step hstep

/-- **A waiting marker names a complete tree**, in every state of a run whose calls rebuild alone,
under no marker, and write over what they could not remove. -/
theorem staged_complete {m₀ : Machine ρ} (hstart : m₀.Fresh)
    (hrun : MachineRun host (Exclusive host) m₀ m) {p : Pending} {tree : Tree}
    (h : WouldSwap host m.root p tree) : Complete host p.expectedVersion tree :=
  (hstart.sound.run hrun).complete p tree h

/-! ## One call -/

/-- The member of its archive. -/
def newTree : Tree := [("app/__init__.py", release143.archive)]

/-- The disk when the call is over. -/
def stagedDisk : Disk ℕ :=
  { (machineAtRest.toDisk.unpack newTree).backup "backups/myorishop.db" with
    root := { ((machineAtRest.toDisk.unpack newTree).backup "backups/myorishop.db").root with
      marker := some (markerText "staged" "1.143" "backups/myorishop.db") } }

/-- One call of `apply`, up to its marker. -/
theorem calm_run : MachineRun easyHost (Exclusive easyHost) machineAtRest
    (machineAtRest.withCall 0 stagedDisk .gone) := by
  have hstart : MachineRun easyHost (Exclusive easyHost) machineAtRest
      (machineAtRest.withCall 0 machineAtRest.toDisk .verifying) :=
    .single (.call 0 rfl .call trivial)
  have hverified := hstart.call rfl (.verify rfl release143_verified) trivial
  have halone : Exclusive easyHost
      (machineAtRest.withCall 0 machineAtRest.toDisk (.verified release143)) 0
      (.clearing release143) := by
    refine ⟨fun ⟨_, _, htext, _⟩ => Option.some_ne_none _ htext.symm, fun j hj => ?_⟩
    by_cases hj0 : j = 0
    · rw [hj0, withCall_self] at hj
      exact hj
    · rw [withCall_of_ne _ hj0] at hj
      exact hj
  have hcleared := hverified.call rfl (.clear release143) halone
  have hmade := hcleared.call rfl (.make release143) (fun _ _ _ hfile => by cases hfile)
  have hread := hmade.call rfl (.readNames rfl rfl) trivial
  have hunpacked := hread.call rfl (.member release143 _ []) trivial
  have hfresh : (machineAtRest.unpack newTree).snapshots "backups/myorishop.db" = none := rfl
  have hbacked := hunpacked.call rfl (.backup release143 hfresh) trivial
  have hrelative : easyHost.relativeTo "backups/myorishop.db" = some "backups/myorishop.db" := rfl
  have hwritten := hbacked.call rfl (.write release143 hrelative) trivial
  exact hwritten.call rfl (.replace release143 rfl) trivial

/-- The marker of the release, read. -/
def pending143 : Pending := ⟨"staged", "1.143", "backups/myorishop.db"⟩

theorem calm_waits : WouldSwap easyHost stagedDisk.root pending143 newTree := by
  refine ⟨_, rfl, ?_, rfl, rfl⟩
  rw [parsePending, markerText, loads_asciiDumps]
  rfl

/-- The marker of one call finds the tree of that call. -/
theorem staged_complete_calm : Complete easyHost "1.143" newTree := by
  have hfresh : machineAtRest.Fresh := ⟨rfl, fun _ => rfl, rfl⟩
  exact staged_complete hfresh calm_run calm_waits

/-! ## A second call -/

/-- A call that goes on to rebuild leaves an empty tree under a waiting marker. -/
theorem rebuild_exposes {m₀ : Machine ρ} {disk : Disk ρ} {v : Verified} {p : Pending} {tree : Tree}
    (hrun : MachineRun host (fun _ _ _ => True) m₀ (m.withCall i disk (.verified v)))
    (hup : disk.root.dirs.running = true) (hp : WouldSwap host disk.root p tree) :
    ∃ m', MachineRun host (fun _ _ _ => True) m₀ m' ∧ WouldSwap host m'.root p [] := by
  have hcleared := hrun.call hup (.clear v) trivial
  have hremoved := hcleared.call hup (.remove v none nofun) trivial
  have hmade := hremoved.call hup (.make v) trivial
  obtain ⟨text, hmarker, hparse, hdir, -⟩ := hp
  exact ⟨_, hmade, text, hmarker, hparse, hdir, rfl⟩

/-- **Two calls with no tick between them.** When the second one has made its directory, the marker
of the first names an empty tree, which no archive unpacks to. -/
theorem not_staged_complete : ∃ m, MachineRun easyHost (fun _ _ _ => True) machineAtRest m ∧
    WouldSwap easyHost m.root pending143 [] ∧ ¬Complete easyHost "1.143" [] := by
  have hfirst : MachineRun easyHost (fun _ _ _ => True) machineAtRest
      (machineAtRest.withCall 0 stagedDisk .gone) := 
    ReflTransGen.mono (fun _ _ h => MachineStep.mono (fun _ _ _ => trivial) h) _ _ calm_run
  have hcalled := hfirst.call rfl .call trivial
  have hverified := hcalled.call rfl (.verify rfl release143_verified) trivial
  obtain ⟨m, hrun, hswap⟩ := rebuild_exposes hverified rfl calm_waits
  refine ⟨m, hrun, hswap, ?_⟩
  rintro ⟨v, -, -, members, hmembers, hsame⟩
  cases hmembers
  have hfile := hsame "app/__init__.py"
  simp [fileAt, getItem] at hfile

end MyOriShop
