import MyOriShop.Launcher
import MyOriShop.Lib.JsonLimits

/-!
# Markers: what a tick does to `data/pending.json` (`launcher/__main__.py`)

`run_once` reads the marker, parses it and checks its paths, calls `apply_update` and consumes the
marker; `main` calls it every two seconds and goes on after an exception. A marker is anything:
whoever can write to `data` can write it.

* `Surroundings`: what a tick meets, with everything that may raise in front of the cycle.
* `runOnce`: `run_once`, on the marker, the quarantined marker and the cycles begun.
* `Drives`: the marker may begin a cycle. `Fits`: reading it meets nothing that no clause catches.
* `WatchStep`: a marker is written, or the watch loop ticks.

Results:
* `parse_agrees`: the parser is `parsePending` where nothing but `ValueError` is raised.
* `runOnce_calls`, `runOnce_consumed_iff`: which marker begins a cycle, and which one is consumed.
* `marker_once`: the same, and over the watch loop: no marker drives two cycles, and none is
  processed twice where all of them fit.
* `marker_replayed`: a marker that nests too deep is processed by every tick.
-/

namespace MyOriShop

open Lib.Json Lib.Fallible
open Relation (ReflTransGen)

/-! ## What a tick meets -/

/-- What a call in `run_once` raises, as its `except` clauses tell it apart. -/
inductive Fault where
  | valueError
  | osError
  | recursionError
  /-- Whatever `apply_update` raises, an interrupt included. -/
  | update
  deriving DecidableEq

/-- The clause for a `json.loads` that raises. -/
def faultOf (e : LoadsError) : Fault :=
  if e.isValueError then .valueError else .recursionError

/-- The platform around one tick. -/
structure Surroundings where
  /-- Reading the marker raises an `OSError`: it is being written. -/
  unreadable : Bool
  loads : Loads
  /-- `str(value)` of a JSON value that is no string. -/
  str : Value → Except Fault String
  /-- `Path(raw).parts`. -/
  parts : String → List String
  /-- `Path(raw).is_absolute()`. -/
  isAbsolute : String → Bool
  /-- `(root / raw).resolve()`. -/
  resolve : String → Except Fault String
  /-- `resolved.is_relative_to(root)`. -/
  isRelativeTo : String → Bool
  /-- The staged directory exists. -/
  stagedExists : Bool
  /-- `apply_update` raises. -/
  fails : Pending → Bool

namespace Surroundings

/-- `_confine`. -/
def confine (w : Surroundings) (raw : String) : Except Fault String :=
  if ".." ∈ w.parts raw then .error .valueError
  else if w.isAbsolute raw then .error .valueError
  else do
    let resolved ← w.resolve raw
    if w.isRelativeTo resolved then .ok resolved else .error .valueError

/-- `str(data[key])`. -/
def strAt (w : Surroundings) (data : List (String × Value)) (key : String) : Except Fault String :=
  match valueAt key data with
  | .str s => .ok s
  | v => w.str v

/-- `_confine(str(data[key]), root)`. -/
def pathAt (w : Surroundings) (data : List (String × Value)) (key : String) : Except Fault String :=
  w.strAt data key >>= w.confine

end Surroundings

/-- `set(data.keys()) == _REQUIRED_KEYS`. -/
def exactKeys (data : List (String × Value)) : Prop :=
  (∀ key ∈ data.map Prod.fst, key ∈ requiredKeys) ∧ ∀ key ∈ requiredKeys, key ∈ data.map Prod.fst

instance (data : List (String × Value)) : Decidable (exactKeys data) :=
  inferInstanceAs (Decidable (_ ∧ _))

namespace Surroundings

/-- `parse_pending` from the key set on. -/
def parseObject (w : Surroundings) (data : List (String × Value)) : Except Fault Pending :=
  if exactKeys data then do
    let stagedDir ← w.pathAt data "staged_dir"
    let dbBackupPath ← w.pathAt data "db_backup_path"
    let expectedVersion ← w.strAt data "expected_version"
    .ok { stagedDir, expectedVersion, dbBackupPath }
  else .error .valueError

/-- `parse_pending`. -/
def parse (w : Surroundings) (text : String) : Except Fault Pending :=
  match w.loads text with
  | .error e => .error (faultOf e)
  | .ok (.obj data) => w.parseObject data
  | .ok _ => .error .valueError

/-- `marker.read_text(encoding="utf-8")`. -/
def readText (w : Surroundings) (bytes : Bytes) : Except Fault String :=
  if w.unreadable then .error .osError
  else match String.fromUTF8? bytes with
    | some text => .ok (String.ofList (Lib.Lines.toLf text.toList))
    | none => .error .valueError

end Surroundings

/-- What a tick changes: the marker, the quarantined one, and the cycles begun. -/
structure Markers where
  marker : Option Bytes
  failedMarker : Option Bytes := none
  calls : List Pending := []

/-- `_quarantine_marker`, where `os.replace` succeeds. -/
def Markers.quarantined (s : Markers) : Markers :=
  { s with marker := none, failedMarker := s.marker }

/-- `run_once` from the staged directory on. -/
def runPending (w : Surroundings) (pending : Pending) (s : Markers) :
    Except Fault Bool × Markers :=
  match w.resolve "staged" with
  | .error e => (.error e, s)
  | .ok staged =>
    if pending.stagedDir ≠ staged then (.ok false, s.quarantined)
    else if !w.stagedExists then (.ok false, s.quarantined)
    else
      let called := { s with calls := s.calls ++ [pending] }
      if w.fails pending then (.error .update, called.quarantined)
      else (.ok true, { called with marker := none })

/-- `run_once`. -/
def runOnce (w : Surroundings) (s : Markers) : Except Fault Bool × Markers :=
  match s.marker with
  | none => (.ok false, s)
  | some bytes =>
    match w.readText bytes >>= w.parse with
    | .error .valueError => (.ok false, s.quarantined)
    | .error .osError => (.ok false, s)
    | .error e => (.error e, s)
    | .ok pending => runPending w pending s

/-! ## What a marker has to be -/

namespace Surroundings

/-- The value under a key is a path that resolves under the install root. -/
def Confined (w : Surroundings) (data : List (String × Value)) (key path : String) : Prop :=
  ∃ raw, w.strAt data key = .ok raw ∧ ".." ∉ w.parts raw ∧ w.isAbsolute raw = false ∧
    w.resolve raw = .ok path ∧ w.isRelativeTo path = true

/-- The marker may begin a cycle with these values. -/
structure Drives (w : Surroundings) (bytes : Bytes) (pending : Pending)
    (text : String) (data : List (String × Value)) : Prop where
  read : w.readText bytes = .ok text
  object : w.loads text = .ok (.obj data)
  keys : exactKeys data
  stagedDir : w.Confined data "staged_dir" pending.stagedDir
  dbBackupPath : w.Confined data "db_backup_path" pending.dbBackupPath
  expectedVersion : w.strAt data "expected_version" = .ok pending.expectedVersion
  staged : w.resolve "staged" = .ok pending.stagedDir
  stagedExists : w.stagedExists = true

/-- Turning the value under a key into a path raises nothing but `ValueError`. -/
def PathReads (w : Surroundings) (data : List (String × Value)) (key : String) : Prop :=
  ErrorsOnly (· = .valueError) (w.strAt data key) ∧
  ∀ raw, w.strAt data key = .ok raw → ".." ∉ w.parts raw → w.isAbsolute raw = false →
    ErrorsOnly (· = .valueError) (w.resolve raw)

/-- The values of a marker raise nothing but `ValueError`, as far as they are read, and then the
staged directory resolves. -/
def ObjectReads (w : Surroundings) (data : List (String × Value)) : Prop :=
  w.PathReads data "staged_dir" ∧ ∀ stagedDir, w.Confined data "staged_dir" stagedDir →
    w.PathReads data "db_backup_path" ∧
    ∀ dbBackupPath, w.Confined data "db_backup_path" dbBackupPath →
      ErrorsOnly (· = .valueError) (w.strAt data "expected_version") ∧
      ∀ expectedVersion, w.strAt data "expected_version" = .ok expectedVersion →
        ∃ staged, w.resolve "staged" = .ok staged

/-- Nothing is raised on the way through the text that no clause catches. -/
structure TextReads (w : Surroundings) (text : String) : Prop where
  flat : w.loads text ≠ .error .recursion
  object : ∀ data, w.loads text = .ok (.obj data) → exactKeys data → w.ObjectReads data

/-- The marker, if there is one and it is read. -/
def Fits (w : Surroundings) (marker : Option Bytes) : Prop :=
  ∀ bytes ∈ marker, ∀ text, w.readText bytes = .ok text → w.TextReads text

end Surroundings

/-! ## The parser -/

variable {w : Surroundings} {data : List (String × Value)} {key path : String} {s : Markers}

theorem confine_ok_iff {raw : String} : w.confine raw = .ok path ↔ ".." ∉ w.parts raw ∧
    w.isAbsolute raw = false ∧ w.resolve raw = .ok path ∧ w.isRelativeTo path = true := by
  unfold Surroundings.confine
  by_cases hparts : ".." ∈ w.parts raw
  · simp [hparts]
  rw [if_neg hparts]
  by_cases habs : w.isAbsolute raw = true
  · simp [habs]
  rw [if_neg habs, bind_ok_iff]
  constructor
  · rintro ⟨resolved, hresolve, h⟩
    split_ifs at h with hrel
    cases h
    exact ⟨hparts, by simpa using habs, hresolve, hrel⟩
  · rintro ⟨-, -, hresolve, hrel⟩
    exact ⟨path, hresolve, if_pos hrel⟩

theorem pathAt_ok_iff : w.pathAt data key = .ok path ↔ w.Confined data key path := by
  unfold Surroundings.pathAt Surroundings.Confined
  rw [bind_ok_iff]
  exact exists_congr fun raw => and_congr_right fun _ => confine_ok_iff

theorem confine_errors_iff {raw : String} : ErrorsOnly (· = .valueError) (w.confine raw) ↔
    (".." ∉ w.parts raw → w.isAbsolute raw = false →
      ErrorsOnly (· = .valueError) (w.resolve raw)) := by
  unfold Surroundings.confine
  by_cases hparts : ".." ∈ w.parts raw
  · simp [hparts]
  by_cases habs : w.isAbsolute raw = true
  · simp [hparts, habs]
  rw [if_neg hparts, if_neg habs, errorsOnly_bind]
  constructor
  · exact fun h _ _ => h.1
  · intro h
    refine ⟨h hparts (by simpa using habs), fun resolved _ => ?_⟩
    split_ifs
    · exact errorsOnly_ok _
    · exact errorsOnly_error.mpr rfl

theorem pathAt_errors_iff :
    ErrorsOnly (· = .valueError) (w.pathAt data key) ↔ w.PathReads data key := by
  unfold Surroundings.pathAt Surroundings.PathReads
  rw [errorsOnly_bind]
  exact and_congr_right fun _ => forall_congr' fun raw => imp_congr_right fun _ => confine_errors_iff

/-- What the parser returns for an object. -/
theorem parseObject_ok_iff {pending : Pending} : w.parseObject data = .ok pending ↔
    exactKeys data ∧ w.Confined data "staged_dir" pending.stagedDir ∧
      w.Confined data "db_backup_path" pending.dbBackupPath ∧
      w.strAt data "expected_version" = .ok pending.expectedVersion := by
  unfold Surroundings.parseObject
  by_cases hkeys : exactKeys data
  · rw [if_pos hkeys, and_iff_right hkeys]
    simp only [bind_ok_iff, pathAt_ok_iff]
    constructor
    · rintro ⟨stagedDir, hstaged, dbBackupPath, hbackup, expectedVersion, hversion, h⟩
      cases h
      exact ⟨hstaged, hbackup, hversion⟩
    · rintro ⟨hstaged, hbackup, hversion⟩
      exact ⟨_, hstaged, _, hbackup, _, hversion, rfl⟩
  · simp [hkeys]

/-- The parser is `parsePending` on a platform where nothing but `ValueError` is raised. -/
theorem parse_agrees {host : Host} {text : String} (hloads : w.loads text = plainLoads text)
    (hstr : ∀ v, w.str v = .ok (host.str v))
    (hconfine : ∀ raw, (w.confine raw).toOption = host.confine raw) :
    (w.parse text).toOption = parsePending host text := by
  have hat : ∀ data key, w.strAt data key = .ok (strAt host data key) := by
    intro data key
    unfold Surroundings.strAt strAt
    cases valueAt key data <;> first | rfl | exact hstr _
  unfold Surroundings.parse parsePending
  rw [hloads, plainLoads]
  cases loads text with
  | none => rfl
  | some v =>
    cases v with
    | obj data =>
      simp only [Surroundings.parseObject, Surroundings.pathAt, hat, ok_bind, ← hconfine]
      show _ = if exactKeys data then _ else none
      split_ifs with hkeys
      · cases w.confine (strAt host data "staged_dir") with
        | error e => rfl
        | ok stagedDir =>
          cases w.confine (strAt host data "db_backup_path") with
          | error e => rfl
          | ok dbBackupPath => rfl
      · rfl
    | _ => rfl

/-! ## One tick -/

/-- A tick that parses its marker. -/
theorem runOnce_of_ok {bytes : Bytes} {pending : Pending} (hmarker : s.marker = some bytes)
    (h : w.readText bytes >>= w.parse = .ok pending) : runOnce w s = runPending w pending s := by
  unfold runOnce
  rw [hmarker]
  simp only [h]

theorem parse_ok_iff {text : String} {pending : Pending} : w.parse text = .ok pending ↔
    ∃ data, w.loads text = .ok (.obj data) ∧ w.parseObject data = .ok pending := by
  unfold Surroundings.parse
  constructor
  · intro h
    split at h
    · cases h
    · next data hloads => exact ⟨data, hloads, h⟩
    · cases h
  · rintro ⟨data, hloads, h⟩
    rw [hloads]
    exact h

/-- The calls of a tick from the staged directory on. -/
theorem runPending_calls (pending : Pending) : (runPending w pending s).2.calls = s.calls ∨
    ((runPending w pending s).2.calls = s.calls ++ [pending] ∧
      (runPending w pending s).2.marker = none ∧
      w.resolve "staged" = .ok pending.stagedDir ∧ w.stagedExists = true) := by
  unfold runPending
  cases hstaged : w.resolve "staged" with
  | error e => exact .inl rfl
  | ok staged =>
    simp only
    by_cases hdir : pending.stagedDir ≠ staged
    · rw [if_pos hdir]
      exact .inl rfl
    rw [if_neg hdir]
    cases hexists : w.stagedExists with
    | false => exact .inl rfl
    | true =>
      have hsame : Except.ok staged = (Except.ok pending.stagedDir : Except Fault String) := by
        rw [not_not.mp hdir]
      refine .inr ?_
      simp only [Bool.not_true, Bool.false_eq_true, if_false]
      split_ifs
      · exact ⟨rfl, rfl, hsame, trivial⟩
      · exact ⟨rfl, rfl, hsame, trivial⟩

/-- **The calls of a tick**: at most one, with a marker that may begin a cycle and is then gone. -/
theorem runOnce_calls (w : Surroundings) (s : Markers) : (runOnce w s).2.calls = s.calls ∨
    ∃ pending bytes text data, (runOnce w s).2.calls = s.calls ++ [pending] ∧
      (runOnce w s).2.marker = none ∧ s.marker = some bytes ∧
      w.Drives bytes pending text data := by
  cases hmarker : s.marker with
  | none =>
    left
    unfold runOnce
    rw [hmarker]
  | some bytes =>
    cases hparsed : w.readText bytes >>= w.parse with
    | error e =>
      left
      unfold runOnce
      rw [hmarker]
      simp only [hparsed]
      cases e <;> rfl
    | ok pending =>
      rw [runOnce_of_ok hmarker hparsed]
      obtain ⟨text, hread, hparse⟩ := bind_ok_iff.mp hparsed
      obtain ⟨data, hobject, hpending⟩ := parse_ok_iff.mp hparse
      obtain ⟨hkeys, hstagedDir, hbackup, hversion⟩ := parseObject_ok_iff.mp hpending
      rcases runPending_calls (w := w) (s := s) pending with hsame | ⟨hcall, hgone, hstaged, hexists⟩
      · exact .inl hsame
      · exact .inr ⟨pending, bytes, text, data, hcall, hgone, rfl, hread, hobject, hkeys, hstagedDir,
          hbackup, hversion, hstaged, hexists⟩

/-! ## Which marker is consumed -/

theorem parseObject_errors_iff : ErrorsOnly (· = .valueError) (w.parseObject data) ↔
    (exactKeys data → w.PathReads data "staged_dir" ∧
      ∀ stagedDir, w.Confined data "staged_dir" stagedDir → w.PathReads data "db_backup_path" ∧
        ∀ dbBackupPath, w.Confined data "db_backup_path" dbBackupPath →
          ErrorsOnly (· = .valueError) (w.strAt data "expected_version")) := by
  unfold Surroundings.parseObject
  by_cases hkeys : exactKeys data
  · rw [if_pos hkeys, forall_prop_of_true hkeys]
    simp only [errorsOnly_bind, pathAt_errors_iff, pathAt_ok_iff, errorsOnly_ok, implies_true,
      and_true]
  · rw [if_neg hkeys]
    exact ⟨fun _ h => absurd h hkeys, fun _ => errorsOnly_error.mpr rfl⟩

/-- The parser raises nothing but `ValueError`, and after it the staged directory resolves, exactly
when the text fits. -/
theorem parse_reads_iff {text : String} : w.TextReads text ↔
    ErrorsOnly (· = .valueError) (w.parse text) ∧
      ∀ pending, w.parse text = .ok pending → ∃ staged, w.resolve "staged" = .ok staged := by
  unfold Surroundings.parse
  cases hloads : w.loads text with
  | error e =>
    constructor
    · intro h
      refine ⟨errorsOnly_error.mpr ?_, fun _ h => nomatch h⟩
      cases e with
      | recursion => exact absurd hloads h.flat
      | decode | digits => rfl
    · rintro ⟨h, -⟩
      refine ⟨?_, fun data hdata => by rw [hloads] at hdata; cases hdata⟩
      rw [hloads]
      rintro ⟨⟩
      exact absurd (errorsOnly_error.mp h) (by decide)
  | ok v =>
    have hflat : w.loads text ≠ .error .recursion := by rw [hloads]; exact fun h => nomatch h
    cases v with
    | obj data =>
      show _ ↔ ErrorsOnly _ (w.parseObject data) ∧ _
      rw [parseObject_errors_iff]
      constructor
      · intro h
        have hobject := h.object data hloads
        refine ⟨fun hkeys => ?_, fun pending hpending => ?_⟩
        · obtain ⟨hstaged, hnext⟩ := hobject hkeys
          exact ⟨hstaged, fun d hd => ⟨(hnext d hd).1, fun b hb => ((hnext d hd).2 b hb).1⟩⟩
        · obtain ⟨hkeys, hstaged, hbackup, hversion⟩ := parseObject_ok_iff.mp hpending
          exact (((hobject hkeys).2 _ hstaged).2 _ hbackup).2 _ hversion
      · rintro ⟨herrors, hresolve⟩
        refine ⟨hflat, fun data' hdata' hkeys => ?_⟩
        rw [hloads] at hdata'
        cases hdata'
        obtain ⟨hstaged, hnext⟩ := herrors hkeys
        refine ⟨hstaged, fun d hd => ⟨(hnext d hd).1, fun b hb => ⟨(hnext d hd).2 b hb, ?_⟩⟩⟩
        exact fun v hv => hresolve ⟨d, v, b⟩ (parseObject_ok_iff.mpr ⟨hkeys, hd, hb, hv⟩)
    | _ =>
      refine ⟨fun _ => ⟨errorsOnly_error.mpr rfl, fun _ h => nomatch h⟩, fun _ => ⟨hflat, ?_⟩⟩
      intro data hdata
      rw [hloads] at hdata
      cases hdata

/-- Reading fails where the marker is being written, or is no UTF-8. -/
theorem readText_error {bytes : Bytes} {e : Fault} (h : w.readText bytes = .error e) :
    e = .valueError ∨ w.unreadable = true := by
  unfold Surroundings.readText at h
  split_ifs at h with hunreadable
  · exact .inr hunreadable
  · split at h <;> cases h
    exact .inl rfl

/-- From the staged directory on a tick consumes its marker, if that directory resolves. -/
theorem runPending_consumed_iff {bytes : Bytes} {pending : Pending} (hmarker : s.marker = some bytes) :
    (runPending w pending s).2.marker = none ↔ ∃ staged, w.resolve "staged" = .ok staged := by
  unfold runPending
  cases w.resolve "staged" with
  | error e =>
    refine ⟨fun h => ?_, fun ⟨_, h⟩ => nomatch h⟩
    rw [show s.marker = none from h] at hmarker
    cases hmarker
  | ok staged =>
    refine iff_of_true ?_ ⟨staged, rfl⟩
    simp only
    split_ifs <;> rfl

/-- **The marker is consumed** by a tick that reads it, exactly when it fits. -/
theorem runOnce_consumed_iff (w : Surroundings) (s : Markers) :
    (runOnce w s).2.marker = none ∨ w.unreadable = true ↔ w.Fits s.marker := by
  cases hmarker : s.marker with
  | none =>
    refine iff_of_true (.inl ?_) (fun bytes hbytes => by cases hbytes)
    unfold runOnce
    rw [hmarker]
    exact hmarker
  | some bytes =>
    unfold Surroundings.Fits
    simp only [Option.mem_some_iff, forall_eq']
    cases hread : w.readText bytes with
    | error e =>
      refine iff_of_true ?_ (fun text htext => by cases htext)
      rcases readText_error hread with rfl | hunreadable
      · left
        unfold runOnce
        rw [hmarker]
        simp only [hread, error_bind]
        rfl
      · exact .inr hunreadable
    | ok text =>
      have hreadable : w.unreadable = false := by
        by_contra h
        rw [Surroundings.readText, if_pos (by simpa using h)] at hread
        cases hread
      simp only [Except.ok.injEq, forall_eq', hreadable, Bool.false_eq_true, or_false]
      rw [parse_reads_iff]
      cases hparse : w.parse text with
      | ok pending =>
        have hparsed : w.readText bytes >>= w.parse = .ok pending := by rw [hread, ok_bind, hparse]
        rw [runOnce_of_ok hmarker hparsed, runPending_consumed_iff hmarker]
        simp
      | error e =>
        have hparsed : w.readText bytes >>= w.parse = .error e := by rw [hread, ok_bind, hparse]
        unfold runOnce
        rw [hmarker]
        simp only [hparsed, errorsOnly_error]
        cases e with
        | valueError => exact iff_of_true rfl ⟨rfl, fun _ h => by cases h⟩
        | osError | recursionError | update =>
          refine iff_of_false ?_ (fun h => absurd h.1 (by decide))
          show s.marker ≠ none
          rw [hmarker]
          exact Option.some_ne_none bytes

/-- A tick leaves its marker or none. -/
theorem runOnce_marker (w : Surroundings) (s : Markers) :
    (runOnce w s).2.marker = none ∨ (runOnce w s).2.marker = s.marker := by
  cases hmarker : s.marker with
  | none =>
    left
    unfold runOnce
    rw [hmarker]
    exact hmarker
  | some bytes =>
    cases hparsed : w.readText bytes >>= w.parse with
    | ok pending =>
      rw [runOnce_of_ok hmarker hparsed, ← hmarker]
      unfold runPending
      cases w.resolve "staged" with
      | error e => exact .inr rfl
      | ok staged =>
        left
        simp only
        split_ifs <;> rfl
    | error e =>
      unfold runOnce
      rw [hmarker]
      simp only [hparsed]
      cases e with
      | valueError => exact .inl rfl
      | osError | recursionError | update => exact .inr hmarker

/-! ## The watch loop -/

/-- The marker with the number of its write, and the numbers of the markers that were read and of
those that began a cycle. -/
structure Watch where
  marker : Option (Nat × Bytes) := none
  written : Nat := 0
  processed : List Nat := []
  driven : List Nat := []

/-- The number of the marker that is there. -/
def Watch.number (s : Watch) : List Nat := (s.marker.map Prod.fst).toList

/-- One tick of the loop, which goes on whether `run_once` returns or raises. -/
def Watch.tick (s : Watch) (w : Surroundings) : Watch :=
  let after := (runOnce w { marker := s.marker.map Prod.snd }).2
  { s with
    marker := if after.marker.isNone then none else s.marker
    processed := if w.unreadable then s.processed else s.processed ++ s.number
    driven := if after.calls.isEmpty then s.driven else s.driven ++ s.number }

/-- A marker is written, over the one that may be there, or the loop ticks. -/
inductive WatchStep (fits : Surroundings → Option Bytes → Prop) (s : Watch) : Watch → Prop where
  | write (bytes : Bytes) :
    WatchStep fits s { s with marker := some (s.written, bytes), written := s.written + 1 }
  | tick (w : Surroundings) (h : fits w (s.marker.map Prod.snd)) : WatchStep fits s (s.tick w)

/-- Any sequence of writes and ticks. -/
abbrev WatchRun (fits : Surroundings → Option Bytes → Prop) : Watch → Watch → Prop :=
  ReflTransGen (WatchStep fits)

/-- No number is in the log twice, and that of the marker is not in it. -/
structure Once (log : List Nat) (s : Watch) : Prop where
  nodup : log.Nodup
  written : ∀ n ∈ log, n < s.written
  marker : ∀ m ∈ s.marker, m.1 < s.written ∧ m.1 ∉ log

variable {fits : Surroundings → Option Bytes → Prop} {log log' : List Nat} {t t' : Watch}

theorem Once.write (h : Once log t) (bytes : Bytes) :
    Once log { t with marker := some (t.written, bytes), written := t.written + 1 } where
  nodup := h.nodup
  written n hn := Nat.lt_succ_of_lt (h.written n hn)
  marker m hm := by
    cases hm
    exact ⟨Nat.lt_succ_self _, fun hn => absurd (h.written _ hn) (lt_irrefl _)⟩

/-- A tick that logs its marker only when the marker is gone. -/
theorem Once.tick (h : Once log t)
    (hlog : log' = log ∨ log' = log ++ t.number ∧ (t.tick w).marker = none) :
    Once log' (t.tick w) := by
  have hmarker : ∀ m ∈ (t.tick w).marker, m ∈ t.marker := by
    intro m hm
    unfold Watch.tick at hm
    simp only at hm
    split_ifs at hm
    · cases hm
    · exact hm
  rcases hlog with rfl | ⟨rfl, hgone⟩
  · exact ⟨h.nodup, h.written, fun m hm => h.marker m (hmarker m hm)⟩
  · have hnumber : ∀ n ∈ t.number, n < t.written ∧ n ∉ log := by
      intro n hn
      obtain ⟨m, hm, rfl⟩ := Option.map_eq_some_iff.mp (Option.mem_toList.mp hn)
      exact h.marker m hm
    have hone : t.number.Nodup := by
      unfold Watch.number
      cases t.marker <;> simp
    refine ⟨List.nodup_append.mpr ⟨h.nodup, hone, ?_⟩, fun n hn => ?_, fun m hm => ?_⟩
    · rintro n hn _ hn' rfl
      exact (hnumber n hn').2 hn
    · exact (List.mem_append.mp hn).elim (h.written n) fun hn => (hnumber n hn).1
    · rw [hgone] at hm
      cases hm

/-- A marker that began a cycle is gone. -/
theorem driven_tick : (t.tick w).driven = t.driven ∨
    (t.tick w).driven = t.driven ++ t.number ∧ (t.tick w).marker = none := by
  unfold Watch.tick
  rcases runOnce_calls w { marker := t.marker.map Prod.snd } with hnone | ⟨p, _, _, _, -, hgone, -⟩
  · left
    simp only [hnone, List.isEmpty_nil, if_true]
  · simp only [hgone, Option.isNone_none, if_true, and_true]
    split_ifs
    · exact .inl rfl
    · exact .inr rfl

/-- A marker that was read and fits is gone. -/
theorem processed_tick (h : w.Fits (t.marker.map Prod.snd)) : (t.tick w).processed = t.processed ∨
    (t.tick w).processed = t.processed ++ t.number ∧ (t.tick w).marker = none := by
  unfold Watch.tick
  rcases (runOnce_consumed_iff w { marker := t.marker.map Prod.snd }).mpr h with hgone | hunreadable
  · simp only [hgone, Option.isNone_none, if_true, and_true]
    split_ifs
    · exact .inl rfl
    · exact .inr rfl
  · left
    simp only [hunreadable, if_true]

/-- **No marker drives two cycles** along any run. -/
theorem once_driven (hrun : WatchRun fits {} t) : Once t.driven t := by
  induction hrun with
  | refl => exact ⟨List.nodup_nil, fun n hn => absurd hn List.not_mem_nil, fun m hm => nomatch hm⟩
  | tail _ hstep ih =>
    cases hstep with
    | write bytes => exact ih.write bytes
    | tick w => exact ih.tick driven_tick

/-- **No marker is processed twice** along a run whose markers fit when they are read. -/
theorem once_processed (hrun : WatchRun Surroundings.Fits {} t) : Once t.processed t := by
  induction hrun with
  | refl => exact ⟨List.nodup_nil, fun n hn => absurd hn List.not_mem_nil, fun m hm => nomatch hm⟩
  | tail _ hstep ih =>
    cases hstep with
    | write bytes => exact ih.write bytes
    | tick w h => exact ih.tick (processed_tick h)

/-- **A marker drives at most one cycle**: only one that parses with confined paths, of which one is
the staged directory, begins it; a tick that reads its marker consumes it exactly when it fits; no
marker drives two cycles, and none is processed twice where all that are read fit. -/
theorem marker_once (w : Surroundings) (s : Markers) (fits : Surroundings → Option Bytes → Prop)
    (t : Watch) :
    ((runOnce w s).2.calls = s.calls ∨
      ∃ pending bytes text data, (runOnce w s).2.calls = s.calls ++ [pending] ∧
        (runOnce w s).2.marker = none ∧ s.marker = some bytes ∧
        w.Drives bytes pending text data) ∧
    ((runOnce w s).2.marker = none ∨ w.unreadable = true ↔ w.Fits s.marker) ∧
    (WatchRun fits {} t → t.driven.Nodup) ∧
    (WatchRun Surroundings.Fits {} t → t.processed.Nodup) :=
  ⟨runOnce_calls w s, runOnce_consumed_iff w s, fun hrun => (once_driven hrun).nodup,
    fun hrun => (once_processed hrun).nodup⟩

/-- A platform on which every path resolves and every cycle succeeds. -/
def easySurroundings (loads : Loads) : Surroundings where
  unreadable := false
  loads := loads
  str _ := .ok ""
  parts raw := [raw]
  isAbsolute _ := false
  resolve := .ok
  isRelativeTo _ := true
  stagedExists := true
  fails _ := false

/-- On such a platform every text fits that is read. -/
theorem fits_easy {loads : Loads} (h : ∀ text, loads text ≠ .error .recursion)
    (marker : Option Bytes) : (easySurroundings loads).Fits marker := by
  refine fun bytes _ text _ => ⟨h text, fun data _ _ => ?_⟩
  have hstr : ∀ key, ∃ raw, (easySurroundings loads).strAt data key = .ok raw := by
    intro key
    unfold Surroundings.strAt
    split
    · exact ⟨_, rfl⟩
    · exact ⟨_, rfl⟩
  have hreads : ∀ key, (easySurroundings loads).PathReads data key := by
    intro key
    obtain ⟨raw, hraw⟩ := hstr key
    exact ⟨by rw [hraw]; exact errorsOnly_ok raw, fun raw _ _ _ => errorsOnly_ok _⟩
  refine ⟨hreads _, fun _ _ => ⟨hreads _, fun _ _ => ⟨?_, fun _ _ => ⟨_, rfl⟩⟩⟩⟩
  obtain ⟨raw, hraw⟩ := hstr "expected_version"
  rw [hraw]
  exact errorsOnly_ok raw

/-- What the app writes for a release. -/
def goodMarker : Bytes := (markerText "staged" "1.143" "backups/myorishop.db").toByteArray

/-- The marker of the app drives one cycle, and then there is nothing left to tick for. -/
theorem marker_once_good : ∃ t, WatchRun Surroundings.Fits {} t ∧ t.driven = [0] ∧
    t.processed.Nodup := by
  have hfits : ∀ marker, (easySurroundings plainLoads).Fits marker := fits_easy fun text h => by
    unfold plainLoads at h
    split at h <;> cases h
  have hwrite : WatchRun Surroundings.Fits {} { marker := some (0, goodMarker), written := 1 } :=
    .single (.write goodMarker)
  have hrun := (hwrite.tail (.tick _ (hfits _))).tail (.tick _ (hfits _))
  exact ⟨_, hrun, by decide +kernel,
    (marker_once (easySurroundings plainLoads) { marker := none } Surroundings.Fits _).2.2.2 hrun⟩

/-- Brackets are read as they are. -/
theorem readText_deep (loads : Loads) (n : Nat) :
    (easySurroundings loads).readText (deepText n).toByteArray = .ok (deepText n) := by
  have hlf : Lib.Lines.toLf (deepText n).toList = (deepText n).toList := by
    refine Lib.Lines.toLf_of_not_mem ?_
    rw [deepText, String.toList_ofList]
    exact fun h => absurd (List.eq_of_mem_replicate h) (by decide)
  unfold Surroundings.readText
  rw [Lib.Lines.fromUTF8?_toByteArray]
  simp only [hlf, String.ofList_toList]
  rfl

/-- A tick that meets more brackets than its reader nests raises and leaves them. -/
theorem runOnce_deep {depth n : Nat} (h : depth < n) :
    runOnce (easySurroundings (shallowLoads depth)) { marker := some (deepText n).toByteArray } =
      (.error .recursionError, { marker := some (deepText n).toByteArray }) := by
  have hparse : (easySurroundings (shallowLoads depth)).parse (deepText n) =
      .error .recursionError := by
    unfold Surroundings.parse
    rw [show (easySurroundings (shallowLoads depth)).loads (deepText n) = .error .recursion from
      shallowLoads_deep h]
    rfl
  unfold runOnce
  simp only [readText_deep, ok_bind, hparse]

/-- Two ticks on such a marker both read it. -/
theorem watch_deep {depth n : Nat} (h : depth < n) :
    ∃ t, WatchRun (fun _ _ => True) {} t ∧ t.processed = [0, 0] := by
  let w := easySurroundings (shallowLoads depth)
  let left : Watch := { marker := some (0, (deepText n).toByteArray), written := 1 }
  have htick : ∀ processed, Watch.tick { left with processed := processed } w =
      { left with processed := processed ++ [0] } := by
    intro processed
    unfold Watch.tick
    simp only [left, Option.map_some, w, runOnce_deep h]
    rfl
  have hwrite : WatchRun (fun _ _ => True) {} left := .single (.write _)
  have hfirst : left.tick w = { left with processed := [0] } := htick []
  refine ⟨_, (hwrite.tail (.tick w trivial)).tail (.tick w trivial), ?_⟩
  rw [hfirst, htick [0]]
  rfl

/-- **A marker that nests too deep** is left by the tick that reads it, and read by the next one. -/
theorem marker_replayed : ∃ w bytes, w.unreadable = false ∧
    runOnce w { marker := some bytes } = (.error .recursionError, { marker := some bytes }) ∧
    ∃ t, WatchRun (fun _ _ => True) {} t ∧ t.processed = [0, 0] :=
  ⟨easySurroundings (shallowLoads 1000), (deepText 100000).toByteArray, rfl,
    runOnce_deep (by decide), watch_deep (by decide : 1000 < 100000)⟩

end MyOriShop
