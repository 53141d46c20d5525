import Mathlib.Data.List.Nodup
import Mathlib.Data.List.Sort
import Mathlib.Data.List.Perm.Subperm

/-!
# Backups: what the directory keeps (`app/services/backup.py`)

A backup is a file of its own, under a name that tells the second; within one second the names are
numbered. The start of the app and the button on the page make one and delete all but the newest; the
update and the import of a price list make one and delete none. The launcher goes back to the one the
update has made.

* `createBackup`, `pruneBackups` are the functions of these names on the files that match the pattern.
* `BackupCall.exec` is one of the four callers, at its moment; `taken` is the file it makes.
* `Shelf` is the directory, with what no directory has: every file it ever held.

Results:
* `freeName_isSome`: the search for a name ends.
* `Shelf.Kept.exec`: the directory is the end of the list of all files, through every call.
* `backups_retained`: which files are there after a run, and how long the one of an update is.
-/

namespace MyOriShop

/-- A file of the backup directory; `copy` is the database in it. -/
structure BackupFile (α : Type) where
  name : String
  mtime : Nat
  copy : α

variable {α : Type}

/-! ## The functions -/

/-- The name with a counter; the first one has none. -/
def backupName (stamp : String) (counter : Nat) : String :=
  if counter < 2 then "myorishop-" ++ stamp ++ ".db"
  else "myorishop-" ++ stamp ++ "-" ++ String.ofList (Nat.toDigits 10 counter) ++ ".db"

/-- The first name that does not exist. -/
def freeName (names : List String) (stamp : String) : Option String :=
  ((List.range (names.length + 1)).map fun n => backupName stamp (n + 1)).find? fun name =>
    name ∉ names

/-- What `create_backup` is called with: the clock, the time of the file when it is written, the
database, and whether `VACUUM INTO` raises. -/
structure BackupMoment (α : Type) where
  stamp : String
  mtime : Nat
  db : α
  fails : Bool

/-- `create_backup`: the new file. One that is not finished is deleted. -/
def createBackup (dir : List (BackupFile α)) (moment : BackupMoment α) : Option (BackupFile α) :=
  if moment.fails then none
  else (freeName (dir.map BackupFile.name) moment.stamp).map fun name =>
    ⟨name, moment.mtime, moment.db⟩

/-- The files `prune_backups` deletes: `files[:-keep]`. -/
def doomed (dir : List (BackupFile α)) (keep : Int) : List (BackupFile α) :=
  let files := dir.insertionSort fun f g => f.mtime ≤ g.mtime
  if 0 < keep then files.take (files.length - keep.toNat) else files

/-- `prune_backups`. -/
def pruneBackups (dir : List (BackupFile α)) (keep : Int) : List (BackupFile α) :=
  dir.filter fun f => f.name ∉ (doomed dir keep).map BackupFile.name

/-- What `startup_backup` asks first. -/
structure StartupGate where
  backupOnStartup : Bool
  dbExists : Bool
  isSqlite : Bool
  dbHasData : Bool

def StartupGate.opens (gate : StartupGate) : Bool :=
  gate.backupOnStartup && gate.dbExists && gate.isSqlite && gate.dbHasData

/-- The callers. -/
inductive BackupCaller where
  /-- `startup_backup`. -/
  | startup (gate : StartupGate)
  /-- `backup_now`. -/
  | button
  /-- `apply` of an update. -/
  | update
  /-- `backup_before_replace`. -/
  | priceList

/-- The caller gets as far as making a backup. -/
def BackupCaller.creates : BackupCaller → Bool
  | .startup gate => gate.opens
  | .button | .update | .priceList => true

/-- It deletes older ones behind a backup. -/
def BackupCaller.prunes : BackupCaller → Bool
  | .startup _ | .button => true
  | .update | .priceList => false

structure BackupCall (α : Type) where
  caller : BackupCaller
  moment : BackupMoment α

/-- The file a call makes. -/
def BackupCall.taken (dir : List (BackupFile α)) (call : BackupCall α) : Option (BackupFile α) :=
  if call.caller.creates then createBackup dir call.moment else none

/-- The directory after a call; one that makes no file leaves it as it is. -/
def BackupCall.exec (keep : Int) (dir : List (BackupFile α)) (call : BackupCall α) :
    List (BackupFile α) :=
  match call.taken dir with
  | none => dir
  | some file =>
    if call.caller.prunes then pruneBackups (dir ++ [file]) keep else dir ++ [file]

/-! ## The shelf -/

/-- The directory; every file it ever held, in the order they came, and how many there were when it
was pruned last. -/
structure Shelf (α : Type) where
  dir : List (BackupFile α)
  all : List (BackupFile α)
  pruned : Nat

/-- A directory as it is found. -/
def Shelf.found (dir : List (BackupFile α)) : Shelf α := ⟨dir, dir, 0⟩

def Shelf.exec (keep : Int) (s : Shelf α) (call : BackupCall α) : Shelf α :=
  { dir := call.exec keep s.dir
    all := s.all ++ (call.taken s.dir).toList
    pruned := if call.caller.prunes && (call.taken s.dir).isSome then s.all.length + 1 else s.pruned }

def Shelf.after (keep : Int) (s : Shelf α) (calls : List (BackupCall α)) : Shelf α :=
  calls.foldl (Shelf.exec keep) s

/-- **The directory is the end of the list of all files**, each later than the one before it, and
those there have names of their own. -/
structure Shelf.Kept (keep : Int) (s : Shelf α) : Prop where
  window : s.dir = s.all.drop (s.pruned - keep.toNat)
  pruned_le : s.pruned ≤ s.all.length
  times : (s.all.map BackupFile.mtime).Pairwise (· < ·)
  names : (s.dir.map BackupFile.name).Nodup

/-! ## The name -/

theorem backupName_injective {stamp : String} {m n : Nat}
    (h : backupName stamp (m + 1) = backupName stamp (n + 1)) : m = n := by
  have hchars := congrArg String.toList h
  simp only [backupName] at hchars
  by_cases hm : m + 1 < 2 <;> by_cases hn : n + 1 < 2
  · omega
  · have hlen := congrArg List.length hchars
    rw [if_pos hm, if_neg hn] at hlen
    simp at hlen
  · have hlen := congrArg List.length hchars
    rw [if_neg hm, if_pos hn] at hlen
    simp at hlen
  · rw [if_neg hm, if_neg hn] at hchars
    simp only [String.toList_append, String.toList_ofList, List.append_cancel_left_eq,
      List.append_cancel_right_eq] at hchars
    have hread := congrArg (Nat.ofDigitChars 10 · 0) hchars
    simp only [Nat.ofDigitChars_ten_toDigits] at hread
    omega

/-- **The search for a name ends**: there are more names than files. -/
theorem freeName_isSome (names : List String) (stamp : String) :
    ∃ name, freeName names stamp = some name ∧ name ∉ names := by
  cases hfind : freeName names stamp with
  | some name => exact ⟨name, rfl, by simpa using List.find?_some hfind⟩
  | none =>
    have hall := List.find?_eq_none.mp hfind
    have hsub : ((List.range (names.length + 1)).map fun n => backupName stamp (n + 1)) ⊆ names :=
      fun name hname => by simpa using hall name hname
    have hnodup : ((List.range (names.length + 1)).map fun n => backupName stamp (n + 1)).Nodup :=
      List.nodup_range.map fun m n h => backupName_injective h
    have hlen := (List.subperm_of_subset hnodup hsub).length_le
    rw [List.length_map, List.length_range] at hlen
    omega

/-! ## The files that are deleted -/

theorem mem_createBackup {dir : List (BackupFile α)} {moment : BackupMoment α} {file : BackupFile α}
    (h : createBackup dir moment = some file) :
    file.name ∉ dir.map BackupFile.name ∧ file.mtime = moment.mtime ∧ file.copy = moment.db := by
  unfold createBackup at h
  split_ifs at h
  obtain ⟨name, hname, rfl⟩ := Option.map_eq_some_iff.mp h
  obtain ⟨free, hfree, hnot⟩ := freeName_isSome (dir.map BackupFile.name) moment.stamp
  rw [hfree] at hname
  cases hname
  exact ⟨hnot, rfl, rfl⟩

/-- A backup is made unless the database's own copy fails. -/
theorem createBackup_isSome (dir : List (BackupFile α)) (moment : BackupMoment α) :
    (createBackup dir moment).isSome = !moment.fails := by
  unfold createBackup
  obtain ⟨name, hname, -⟩ := freeName_isSome (dir.map BackupFile.name) moment.stamp
  rw [hname]
  split_ifs with h <;> simp [h]

/-- **Pruning** a directory that is in the order of its times keeps its end. -/
theorem pruneBackups_eq {dir : List (BackupFile α)} (keep : Int)
    (htimes : (dir.map BackupFile.mtime).Pairwise (· < ·)) (hnames : (dir.map BackupFile.name).Nodup) :
    pruneBackups dir keep = dir.drop (dir.length - keep.toNat) := by
  have hsorted : dir.insertionSort (fun f g => f.mtime ≤ g.mtime) = dir :=
    List.Pairwise.insertionSort_eq ((List.pairwise_map.mp htimes).imp le_of_lt)
  have hdoomed : doomed dir keep = dir.take (dir.length - keep.toNat) := by
    simp only [doomed, hsorted]
    split_ifs with hkeep
    · rfl
    · rw [Int.toNat_of_nonpos (by omega), Nat.sub_zero, List.take_length]
  rw [pruneBackups, hdoomed]
  generalize dir.length - keep.toNat = k
  have hsplit := List.take_append_drop k dir
  rw [← hsplit, List.map_append] at hnames
  have hdisjoint := (List.nodup_append'.mp hnames).2.2
  have hfront : (dir.take k).filter (fun f => f.name ∉ (dir.take k).map BackupFile.name) = [] :=
    List.filter_eq_nil_iff.mpr fun f hf hkept => of_decide_eq_true hkept (List.mem_map_of_mem hf)
  have hback : (dir.drop k).filter (fun f => f.name ∉ (dir.take k).map BackupFile.name) =
      dir.drop k :=
    List.filter_eq_self.mpr fun f hf =>
      decide_eq_true fun hkept => hdisjoint hkept (List.mem_map_of_mem hf)
  calc dir.filter (fun f => f.name ∉ (dir.take k).map BackupFile.name)
      = (dir.take k ++ dir.drop k).filter (fun f => f.name ∉ (dir.take k).map BackupFile.name) := by
        rw [hsplit]
    _ = dir.drop k := by rw [List.filter_append, hfront, hback, List.nil_append]

/-! ## A call -/

/-- A call that makes a file makes a new one, later than all the others. -/
theorem BackupCall.taken_some {dir : List (BackupFile α)} {call : BackupCall α} {file : BackupFile α}
    (h : call.taken dir = some file) :
    file.name ∉ dir.map BackupFile.name ∧ file.mtime = call.moment.mtime ∧
      file.copy = call.moment.db := by
  unfold BackupCall.taken at h
  split_ifs at h
  exact mem_createBackup h

/-- The directory and the list of all files, a file later. -/
theorem Shelf.Kept.append {keep : Int} {s : Shelf α} (h : s.Kept keep) {file : BackupFile α}
    (hname : file.name ∉ s.dir.map BackupFile.name)
    (htime : ∀ f ∈ s.all, f.mtime < file.mtime) :
    Shelf.Kept keep ⟨s.dir ++ [file], s.all ++ [file], s.pruned⟩ where
  window := by
    have hle : s.pruned - keep.toNat ≤ s.all.length := (Nat.sub_le _ _).trans h.pruned_le
    rw [List.drop_append_of_le_length hle, ← h.window]
  pruned_le := by
    rw [List.length_append]
    exact h.pruned_le.trans (Nat.le_add_right _ _)
  times := by
    rw [List.map_append, List.pairwise_append]
    refine ⟨h.times, List.pairwise_singleton _ _, fun t ht t' ht' => ?_⟩
    obtain ⟨f, hf, rfl⟩ := List.mem_map.mp ht
    rw [List.mem_singleton.mp ht']
    exact htime f hf
  names := by
    rw [List.map_append, List.map_singleton]
    exact List.nodup_append'.mpr
      ⟨h.names, List.nodup_singleton _, List.disjoint_singleton.mpr hname⟩

/-- Pruned, the directory is the end of the list as long as the setting says. -/
theorem Shelf.Kept.prune {keep : Int} {s : Shelf α} (h : s.Kept keep) :
    Shelf.Kept keep ⟨pruneBackups s.dir keep, s.all, s.all.length⟩ where
  window := by
    have htimes : (s.dir.map BackupFile.mtime).Pairwise (· < ·) := by
      rw [h.window, List.map_drop]
      exact h.times.sublist (List.drop_sublist _ _)
    have hle := h.pruned_le
    have hcut : s.pruned - keep.toNat + (s.all.length - (s.pruned - keep.toNat) - keep.toNat) =
        s.all.length - keep.toNat := by omega
    rw [pruneBackups_eq keep htimes h.names, h.window, List.length_drop, List.drop_drop, hcut]
  pruned_le := le_rfl
  times := h.times
  names := h.names.sublist (List.filter_sublist.map _)

/-- **One call** keeps the directory the end of the list of all files. -/
theorem Shelf.Kept.exec {keep : Int} {s : Shelf α} (h : s.Kept keep) {call : BackupCall α}
    (htime : ∀ f ∈ s.all, f.mtime < call.moment.mtime) : (s.exec keep call).Kept keep := by
  unfold Shelf.exec BackupCall.exec
  cases htaken : call.taken s.dir with
  | none => simpa using h
  | some file =>
    obtain ⟨hname, hmtime, -⟩ := call.taken_some htaken
    have happended := h.append hname (by rwa [hmtime])
    by_cases hprunes : call.caller.prunes = true
    · simpa [hprunes] using happended.prune
    · simpa [hprunes] using happended

/-! ## A run -/

/-- The call comes through with a backup. -/
def BackupCall.succeeds (call : BackupCall α) : Bool := call.caller.creates && !call.moment.fails

theorem BackupCall.taken_isSome (dir : List (BackupFile α)) (call : BackupCall α) :
    (call.taken dir).isSome = call.succeeds := by
  unfold BackupCall.taken BackupCall.succeeds
  by_cases hcreates : call.caller.creates = true
  · simp [hcreates, createBackup_isSome]
  · simp [hcreates]

theorem BackupCall.exists_taken {call : BackupCall α} (h : call.succeeds = true)
    (dir : List (BackupFile α)) : ∃ file, call.taken dir = some file ∧
      file.mtime = call.moment.mtime ∧ file.copy = call.moment.db := by
  obtain ⟨file, hfile⟩ := Option.isSome_iff_exists.mp ((call.taken_isSome dir).trans h)
  exact ⟨file, hfile, (call.taken_some hfile).2⟩

/-- **A run** keeps the directory the end of the list of all files. -/
theorem Shelf.Kept.after {keep : Int} {s : Shelf α} (h : s.Kept keep) {calls : List (BackupCall α)}
    (hclock : (s.all.map BackupFile.mtime ++ calls.map fun c => c.moment.mtime).Pairwise (· < ·)) :
    (s.after keep calls).Kept keep := by
  induction calls generalizing s with
  | nil => exact h
  | cons call calls ih =>
    have hbefore : ∀ f ∈ s.all, f.mtime < call.moment.mtime := fun f hf =>
      (List.pairwise_append.mp hclock).2.2 _ (List.mem_map_of_mem hf) _ List.mem_cons_self
    refine ih (h.exec hbefore) (hclock.sublist ?_)
    rw [Shelf.exec, List.map_append, List.append_assoc, List.map_cons]
    refine List.Sublist.append_left ?_ _
    cases htaken : call.taken s.dir with
    | none => exact List.sublist_cons_self _ _
    | some file => simp [(call.taken_some htaken).2.1]

/-- Every file is that of its call. -/
theorem Shelf.after_copies (keep : Int) (s : Shelf α) (calls : List (BackupCall α)) :
    (s.after keep calls).all.map BackupFile.copy =
      s.all.map BackupFile.copy ++ (calls.filter BackupCall.succeeds).map fun c => c.moment.db := by
  induction calls generalizing s with
  | nil => exact (List.append_nil _).symm
  | cons call calls ih =>
    refine (ih (s.exec keep call)).trans ?_
    rw [Shelf.exec, List.map_append, List.append_assoc]
    by_cases hsucceeds : call.succeeds = true
    · obtain ⟨file, htaken, -, hcopy⟩ := call.exists_taken hsucceeds s.dir
      rw [htaken, List.filter_cons_of_pos hsucceeds, List.map_cons, ← hcopy]
      rfl
    · have hnone : call.taken s.dir = none := by
        rw [← Option.not_isSome_iff_eq_none, call.taken_isSome]
        exact hsucceeds
      rw [hnone, List.filter_cons_of_neg hsucceeds]
      rfl

/-- Starts of the app, each with its backup: the list grows with each, and is pruned at the last. -/
theorem Shelf.after_starts (keep : Int) (s : Shelf α) {calls : List (BackupCall α)}
    (hstarts : ∀ c ∈ calls, c.succeeds = true ∧ c.caller.prunes = true) :
    s.all <+: (s.after keep calls).all ∧
      (s.after keep calls).all.length = s.all.length + calls.length ∧
      (s.after keep calls).pruned = if calls = [] then s.pruned else s.all.length + calls.length := by
  induction calls generalizing s with
  | nil => exact ⟨List.prefix_refl _, rfl, rfl⟩
  | cons call calls ih =>
    obtain ⟨hcall, hcalls⟩ := List.forall_mem_cons.mp hstarts
    obtain ⟨file, htaken, -⟩ := call.exists_taken hcall.1 s.dir
    obtain ⟨hstart, hlength, hpruned⟩ := ih (s.exec keep call) hcalls
    have hall : (s.exec keep call).all = s.all ++ [file] := by simp [Shelf.exec, htaken]
    have hexec : (s.exec keep call).pruned = s.all.length + 1 := by
      simp [Shelf.exec, htaken, hcall.2]
    rw [hall] at hstart
    rw [hall, List.length_append, List.length_singleton] at hlength hpruned
    rw [hexec] at hpruned
    refine ⟨(List.prefix_append _ _).trans hstart, ?_, ?_⟩
    · rw [List.length_cons]
      exact hlength.trans (by omega)
    · rw [if_neg (List.cons_ne_nil _ _), List.length_cons]
      refine hpruned.trans ?_
      split_ifs with hnil
      · rw [hnil, List.length_nil]
      · omega

theorem found_kept {keep : Int} {dir : List (BackupFile α)}
    (htimes : (dir.map BackupFile.mtime).Pairwise (· < ·)) (hnames : (dir.map BackupFile.name).Nodup) :
    (Shelf.found dir).Kept keep where
  window := by simp [Shelf.found]
  pruned_le := Nat.zero_le _
  times := htimes
  names := hnames

/-- A file is there as long as fewer than the setting says came after it until the last pruning. -/
theorem Shelf.Kept.mem_iff {keep : Int} {s : Shelf α} (h : s.Kept keep) {i : Nat} {file : BackupFile α}
    (hi : s.all[i]? = some file) : file ∈ s.dir ↔ s.pruned ≤ i + keep.toNat := by
  have hinj : ∀ j, s.all[j]? = some file → j = i := fun j hj => by
    have hnodup : (s.all.map BackupFile.mtime).Nodup := h.times.imp ne_of_lt
    obtain ⟨hjlen, hjget⟩ := List.getElem?_eq_some_iff.mp hj
    obtain ⟨hilen, higet⟩ := List.getElem?_eq_some_iff.mp hi
    exact (List.Nodup.getElem_inj_iff (hnodup.of_map)).mp (hjget.trans higet.symm)
  rw [h.window, List.mem_iff_getElem?]
  constructor
  · rintro ⟨j, hj⟩
    rw [List.getElem?_drop] at hj
    have := hinj _ hj
    omega
  · intro hle
    refine ⟨i - (s.pruned - keep.toNat), ?_⟩
    rw [List.getElem?_drop, Nat.add_sub_cancel' (by omega)]
    exact hi

/-- **What the directory keeps.** The clock goes forward. Every backup ever made holds the database of
its moment, and no two files there have one name; a file is there exactly while fewer than `keep` have
come after it by the last pruning; so the one that an update has made outlives less than `keep` starts
of the app. -/
theorem backups_retained (keep : Int) (dir : List (BackupFile α)) (calls : List (BackupCall α))
    (hclock : (dir.map BackupFile.mtime ++ calls.map fun c => c.moment.mtime).Pairwise (· < ·))
    (hnames : (dir.map BackupFile.name).Nodup) :
    ((Shelf.found dir).after keep calls).all.map BackupFile.copy =
        dir.map BackupFile.copy ++ (calls.filter BackupCall.succeeds).map (fun c => c.moment.db) ∧
    (((Shelf.found dir).after keep calls).dir.map BackupFile.name).Nodup ∧
    (∀ i file, ((Shelf.found dir).after keep calls).all[i]? = some file →
      (file ∈ ((Shelf.found dir).after keep calls).dir ↔
        ((Shelf.found dir).after keep calls).pruned ≤ i + keep.toNat)) ∧
    ∀ before call starts, calls = before ++ call :: starts → call.caller = .update →
      call.succeeds = true → (∀ c ∈ starts, c.succeeds = true ∧ c.caller.prunes = true) →
      ((∃ file ∈ ((Shelf.found dir).after keep calls).dir,
          file.mtime = call.moment.mtime ∧ file.copy = call.moment.db) ↔
        starts = [] ∨ starts.length < keep) := by
  have hfound : (Shelf.found dir).Kept keep := found_kept (List.pairwise_append.mp hclock).1 hnames
  have hkept := hfound.after hclock
  refine ⟨Shelf.after_copies _ _ _, hkept.names, fun i file hi => hkept.mem_iff hi, ?_⟩
  rintro before call starts rfl hupdate hsucceeds hstarts
  set s := (Shelf.found dir).after keep before with hs
  have hsplit : (Shelf.found dir).after keep (before ++ call :: starts) =
      (s.exec keep call).after keep starts := by
    rw [hs]
    simp only [Shelf.after, List.foldl_append, List.foldl_cons]
  rw [hsplit] at hkept ⊢
  obtain ⟨file, htaken, htime, hcopy⟩ := call.exists_taken hsucceeds s.dir
  have hbefore : s.Kept keep := by
    refine hfound.after (hclock.sublist (List.Sublist.append_left ?_ _))
    exact (List.sublist_append_left _ _).map _
  have hall : (s.exec keep call).all = s.all ++ [file] := by simp [Shelf.exec, htaken]
  have hprunes : call.caller.prunes = false := by rw [hupdate]; rfl
  have hpruned : (s.exec keep call).pruned = s.pruned := by simp [Shelf.exec, hprunes]
  obtain ⟨⟨more, hmore⟩, -, hlast⟩ := (s.exec keep call).after_starts keep hstarts
  have hget : ((s.exec keep call).after keep starts).all[s.all.length]? = some file := by
    rw [← hmore, hall]
    simp
  -- the time tells the file
  have hfile : (∃ f ∈ ((s.exec keep call).after keep starts).dir,
      f.mtime = call.moment.mtime ∧ f.copy = call.moment.db) ↔
        file ∈ ((s.exec keep call).after keep starts).dir := by
    constructor
    · rintro ⟨f, hf, hftime, -⟩
      have hfall : f ∈ ((s.exec keep call).after keep starts).all := by
        rw [hkept.window] at hf
        exact List.mem_of_mem_drop hf
      have hnodup : (((s.exec keep call).after keep starts).all.map BackupFile.mtime).Nodup :=
        hkept.times.imp ne_of_lt
      rwa [List.inj_on_of_nodup_map hnodup (List.mem_of_getElem? hget) hfall (htime.trans hftime.symm)]
    · exact fun hf => ⟨file, hf, htime, hcopy⟩
  rw [hfile, hkept.mem_iff hget, hlast, hpruned, hall]
  have hle := hbefore.pruned_le
  by_cases hnil : starts = []
  · simp only [hnil, if_true, true_or, iff_true]
    omega
  · simp only [hnil, if_false, false_or, List.length_append, List.length_singleton]
    omega

/-- A call at a moment, of a database with that number. -/
def callAt (caller : BackupCaller) (n : Nat) : BackupCall Nat := ⟨caller, ⟨"20260101-120000", n, n, false⟩⟩

/-- An update, and the app started twice behind it. -/
def updatedThenStarted : List (BackupCall Nat) :=
  [callAt .update 1, callAt (.startup ⟨true, true, true, true⟩) 2,
    callAt (.startup ⟨true, true, true, true⟩) 3]

/-- Of two files none is the update's, of three one is. -/
theorem backups_retained_update :
    (¬∃ file ∈ ((Shelf.found []).after 2 updatedThenStarted).dir, file.mtime = 1 ∧ file.copy = 1) ∧
      ∃ file ∈ ((Shelf.found []).after 3 updatedThenStarted).dir, file.mtime = 1 ∧ file.copy = 1 := by
  have hclock : (([] : List (BackupFile Nat)).map BackupFile.mtime ++
      updatedThenStarted.map fun c => c.moment.mtime).Pairwise (· < ·) := by decide
  have hstarts : ∀ c ∈ updatedThenStarted.tail, c.succeeds = true ∧ c.caller.prunes = true := by
    simp [updatedThenStarted, callAt, BackupCall.succeeds, BackupCaller.creates, BackupCaller.prunes,
      StartupGate.opens]
  have htwo := (backups_retained 2 [] updatedThenStarted hclock List.nodup_nil).2.2.2
    [] _ _ rfl rfl rfl hstarts
  have hthree := (backups_retained 3 [] updatedThenStarted hclock List.nodup_nil).2.2.2
    [] _ _ rfl rfl rfl hstarts
  exact ⟨fun h => absurd (htwo.mp h) (by decide), hthree.mpr (.inr (by decide))⟩

end MyOriShop
