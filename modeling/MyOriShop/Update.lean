import MyOriShop.Core
import MyOriShop.Minisign
import MyOriShop.Lib.Dict
import MyOriShop.Lib.JsonAscii
import MyOriShop.Lib.Raising
import MyOriShop.Swap

/-!
# Update: the apply half of the self-update (`app/services/update.py`)

* `parseManifest`, `versionShape`, `counter` and `isStrictlyNewer` are `_parse_manifest`,
  `_VERSION_RE`, `_counter` and `is_strictly_newer`.
* `verifyRelease` is `verify_release`: what a release may still do wrong at each of its steps is in
  the reply of the network and in the faults of an `Attempt`.
* `stagePending` is `stage_pending`, `apply` is `apply`; they run on an `Install`, the directory tree
  around the running app.

Results:
* `verifyRelease_admitted`: a release passes with a version only if it is `Admitted` with it.
* `apply_cases`: either a call staged an admitted version and the marker names it, or the marker is
  as it was.
-/

namespace MyOriShop

open Lib.Text Lib.Lines Lib.Json Lib.Fallible Lib.Raising

/-! ## Versions -/

/-- `re.match(r"^1\.\d+$", version)`; the `$` also matches in front of a final line feed. -/
def versionShape (version : String) : Bool :=
  match version.toList with
  | '1' :: '.' :: rest =>
    let digits := if rest.getLast? = some '\n' then rest.dropLast else rest
    !digits.isEmpty && digits.all fun c => (decimalDigit c).isSome
  | _ => false

/-- The digits of an integer text, single underscores between them left out. -/
def intDigits : List Char → Option (List Nat)
  | [] => none
  | [c] => (decimalDigit c).map fun d => [d]
  | c :: '_' :: cs => do return (← decimalDigit c) :: (← intDigits cs)
  | c :: cs => do return (← decimalDigit c) :: (← intDigits cs)

/-- `sys.get_int_max_str_digits()`. -/
def maxStrDigits : Nat := 4300

/-- The white space `int` skips: without the four separators `str.strip` trims. -/
def intSpace (c : Char) : Bool := isSpace c && !(28 ≤ c.toNat && c.toNat ≤ 31)

/-- `int(text)`. -/
def pyInt (text : String) : Option Int := do
  let (neg, cs) := takeSign (text.toList.dropWhile intSpace)
  let ds ← intDigits (cs.reverse.dropWhile intSpace).reverse
  if maxStrDigits < ds.length then none
  else return if neg then -(natOfDecimals ds : Int) else natOfDecimals ds

/-- `_counter`: `int(version.split(".", 1)[1])`. -/
def counter (version : String) : Option Int :=
  match version.toList.dropWhile (· ≠ '.') with
  | [] => none
  | _ :: rest => pyInt (String.ofList rest)

/-- `is_strictly_newer`. -/
def isStrictlyNewer (remote loc : String) : Bool :=
  match counter remote, counter loc with
  | some r, some l => l < r
  | _, _ => false

theorem isStrictlyNewer_iff {remote loc : String} :
    isStrictlyNewer remote loc = true ↔
      ∃ l r, counter loc = some l ∧ counter remote = some r ∧ l < r := by
  unfold isStrictlyNewer
  constructor
  · intro h
    split at h
    · next r l hr hl => exact ⟨l, r, hl, hr, of_decide_eq_true h⟩
    · cases h
  · rintro ⟨l, r, hl, hr, hlt⟩
    rw [hl, hr]
    exact decide_eq_true hlt

/-! ## The manifest -/

/-- `d[key] = value`: a new key goes to the end. -/
def setItem {κ ν : Type} [DecidableEq κ] (d : List (κ × ν)) (key : κ) (value : ν) : List (κ × ν) :=
  if (d.map Prod.fst).contains key then d.map fun kv => if kv.1 = key then (key, value) else kv
  else d ++ [(key, value)]

/-- `d.get(key)`. -/
def getItem {κ ν : Type} [DecidableEq κ] (d : List (κ × ν)) (key : κ) : Option ν :=
  (d.find? fun kv => kv.1 = key).map Prod.snd

/-- `_parse_manifest`. -/
def parseManifest (manifest : Bytes) : Except Raised (List (String × String)) := do
  let text ← decodeUtf8 manifest
  return (splitlines text).foldl (fun fields raw =>
    let line := stripChars raw.toList
    if '=' ∈ line then
      let (key, value) := line.span (· ≠ '=')
      setItem fields (String.ofList (stripChars key)) (String.ofList (stripChars value.tail))
    else fields) []

/-! ## The release -/

/-- The files of a directory, later ones over earlier ones of the same name. -/
abbrev Tree := List (String × Bytes)

/-- What the code takes from the platform and from libraries that are not its own. -/
structure Host extends Crypto where
  /-- The `__version__` of the code in a tree. -/
  version : Tree → String
  /-- The text of its `app/minisign.pub`. -/
  minisignPub : Tree → String
  /-- `urlparse(url).hostname`. -/
  hostname : String → Except Raised (Option String)
  /-- `bool(x)` of a float. -/
  nonzero : FloatLit → Bool
  /-- `zipfile.ZipFile(path)`: the member names with their contents. -/
  unzip : Bytes → Except Raised Tree
  /-- `not (staged_dir / member).resolve().is_relative_to(root)`. -/
  escapes : String → Bool
  /-- `path.relative_to(root).as_posix()`; `none` for `ValueError`. -/
  relativeTo : String → Option String
  /-- `launcher.swap._confine(raw, root)`; `none` for `ValueError`. -/
  confine : String → Option String
  /-- `str(value)` of a JSON value that is no string. -/
  str : Value → String
  /-- `Path(paths.staged).resolve()`. -/
  stagedPath : String

/-- A key of the asset dictionary: a name, or something else of the given truth value. -/
inductive AssetKey where
  | name (s : String)
  | other (truthy : Bool)
  deriving DecidableEq

/-- `release.get(key, default)`. -/
def getAttr (v : Value) (key : String) (dflt : Value) : Except Raised Value :=
  match v with
  | .obj pairs => .ok ((lookup key pairs).getD dflt)
  | _ => .error (.error "AttributeError")

/-- `for a in value`. -/
def iterate : Value → Except Raised (List Value)
  | .arr items => .ok items
  | .obj pairs => .ok ((firstKeys pairs).map .str)
  | .str s => .ok (s.toList.map fun c => .str (String.singleton c))
  | _ => .error (.error "TypeError")

/-- The value as a dictionary key. -/
def assetKey (host : Host) : Value → Except Raised AssetKey
  | .str s => .ok (.name s)
  | .null => .ok (.other false)
  | .bool b => .ok (.other b)
  | .int n => .ok (.other (n ≠ 0))
  | .float lit => .ok (.other (host.nonzero lit))
  | _ => .error (.error "TypeError")

/-- `{a.get("name"): a.get("browser_download_url") for a in release.get("assets", [])}`. -/
def assetUrls (host : Host) (release : Value) : Except Raised (List (AssetKey × Value)) := do
  let items ← iterate (← getAttr release "assets" (.arr []))
  items.foldlM (fun assets a => do
    let key ← assetKey host (← getAttr a "name" .null)
    return setItem assets key (← getAttr a "browser_download_url" .null)) []

/-- `_archive_url`: a name that is no string is either falsy or has no `endswith`. -/
def archiveUrl : List (AssetKey × Value) → Except Raised Value
  | [] => .ok .null
  | (.name s, url) :: assets => if s.endsWith ".zip" then .ok url else archiveUrl assets
  | (.other truthy, _) :: assets =>
    if truthy then .error (.error "AttributeError") else archiveUrl assets

/-- A URL that is neither falsy nor, parsed, of a type that has no host. -/
def urlText : Value → Option String
  | .str s => if s = "" then none else some s
  | _ => none

/-- `_ALLOWED_ASSET_HOSTS`. -/
def allowedAssetHosts : List String := ["github.com", "objects.githubusercontent.com"]

/-- `urlparse(url).hostname in _ALLOWED_ASSET_HOSTS`. -/
def hostAllowed (host : Host) (url : String) : Except Raised Bool := do
  let some name ← host.hostname url | return false
  return name ∈ allowedAssetHosts

/-- What an attempt meets outside the program. -/
inductive Hazard where
  | keyFile | tempDir | archiveWrite | archiveRead | stagedDir | cleanup | dataDir | partialWrite
  | replace

/-- What `fetch_latest_release` meets. -/
inductive Fetched where
  | httpError
  | json (release : Value)
  | raises (r : Raised)

/-- One call of `apply`: its engine, what the network answers and what goes wrong at each step. -/
structure Attempt where
  dialect : String := "sqlite"
  latest : Fetched := .httpError
  /-- The answer to the `n`-th download. -/
  respond : Nat → String → Except Raised Bytes
  fault : Hazard → Option Raised := fun _ => none
  /-- What `rmtree(..., ignore_errors=True)` leaves of a tree. -/
  leftover : Tree → Option Tree := fun _ => none
  /-- The members that were unpacked when `extractall` raised. -/
  extracted : Option (Nat × Raised) := none
  backup : Except Raised String
  /-- What is in the temporary file when writing it raised. -/
  torn : Option String := none

/-- A step that may raise. -/
def Attempt.pass (t : Attempt) (h : Hazard) : Except Raised Unit :=
  match t.fault h with
  | some r => .error r
  | none => .ok ()

/-- `fetch_latest_release`; `null` where nothing came. -/
def fetchLatestRelease : Fetched → Except Raised Value
  | .httpError => .ok .null
  | .json release => .ok release
  | .raises r => .error r

/-- `verify_release`: the version and the archive, or `None`. -/
def verifyRelease (host : Host) (t : Attempt) (app : Tree) (release : Value) :
    Except Raised (Option (String × Bytes)) :=
  caught none do
    let assets ← assetUrls host release
    let man := getItem assets (.name "manifest.txt")
    let sig := getItem assets (.name "manifest.txt.minisig")
    let arc ← archiveUrl assets
    let some manUrl := man.bind urlText | return none
    let some sigUrl := sig.bind urlText | return none
    let some arcUrl := urlText arc | return none
    if ¬(← hostAllowed host manUrl) then return none
    if ¬(← hostAllowed host sigUrl) then return none
    if ¬(← hostAllowed host arcUrl) then return none
    let manifest ← t.respond 0 manUrl
    let sigText ← decodeUtf8 (← t.respond 1 sigUrl)
    t.pass .keyFile
    if ¬(← verifyMinisign host.toCrypto manifest sigText
        (host.minisignPub app)) then return none
    let fields ← parseManifest manifest
    let offered := (getItem fields "version").getD ""
    let expectedSha := (getItem fields "sha256").getD ""
    if ¬versionShape offered ∨ expectedSha = "" then return none
    if ¬isStrictlyNewer offered (host.version app) then return none
    let archive ← t.respond 2 arcUrl
    t.pass .archiveWrite
    t.pass .archiveRead
    if host.sha256 archive ≠ expectedSha then return none
    return some (offered, archive)

/-! ## Staging -/

/-- The directories around the app, and the files of `data\\` the update goes through. -/
structure InstallRoot where
  dirs : Install Tree
  backups : List String
  /-- `pending.json.partial` -/
  partialMarker : Option String
  /-- `pending.json` -/
  marker : Option String
  /-- `pending.failed.json` -/
  failedMarker : Option String

/-- The tree in `staged\\` replaced. -/
def InstallRoot.stage (s : InstallRoot) (tree : Option Tree) : InstallRoot :=
  { s with dirs := { s.dirs with staged := tree } }

/-- More files in `staged\\`. -/
def InstallRoot.unpack (s : InstallRoot) (members : Tree) : InstallRoot :=
  s.stage (some (s.dirs.staged.getD [] ++ members))

/-- `_extract_guarded`. -/
def extractGuarded (host : Host) (t : Attempt) (archive : Bytes) : Prog InstallRoot Raised Unit := do
  step (t.fault .stagedDir) fun s => s.unpack []
  let members ← ofExcept (host.unzip archive)
  if members.any fun m => host.escapes m.1 then
    throw (.error "ValueError")
  match t.extracted with
  | none => modify fun s => s.unpack members
  | some (n, r) =>
    modify fun s => s.unpack (members.take n)
    throw r

/-- The marker's text. -/
def markerText (stagedRel version backupRel : String) : String :=
  asciiDumps (.obj [("staged_dir", .str stagedRel), ("expected_version", .str version),
    ("db_backup_path", .str backupRel)])

/-- `stage_pending`. -/
def stagePending (t : Attempt) (stagedRel version backupRel : String) :
    Prog InstallRoot Raised Unit := do
  ofExcept (t.pass .dataDir)
  match t.fault .partialWrite with
  | none => modify fun s => { s with partialMarker := some (markerText stagedRel version backupRel) }
  | some r =>
    modify fun s => { s with partialMarker := t.torn }
    throw r
  step (t.fault .replace) fun s => { s with marker := s.partialMarker, partialMarker := none }

/-- The release asked for, or the latest one: `null` where there is none. -/
def requestedRelease (t : Attempt) : Value → Except Raised Value
  | .null => fetchLatestRelease t.latest
  | release => .ok release

/-- `ApplyResult`, by its `state`. -/
inductive ApplyResult where
  | noop
  | error (message : String)
  | staged (stagedVersion : String)

/-- `apply`, called in the app of the tree `app`. -/
def apply (host : Host) (t : Attempt) (app : Tree) (release : Value) :
    Prog InstallRoot Raised ApplyResult := do
  if t.dialect ≠ "sqlite" then return .noop
  match ← ofExcept (requestedRelease t release) with
  | .null => return .error "offline"
  | release =>
    ofExcept (t.pass .tempDir)
    match ← ofExcept (verifyRelease host t app release) with
    | none => throw .verification
    | some (version, archive) =>
      modify fun s => s.stage (s.dirs.staged.bind t.leftover)
      extractGuarded host t archive
      ofExcept (t.pass .cleanup)
      let backupPath ← ofExcept t.backup
      modify fun s => { s with backups := s.backups ++ [backupPath] }
      match host.relativeTo backupPath with
      | none => throw (.error "ValueError")
      | some backupRel =>
        stagePending t "staged" version backupRel
        return .staged version

/-! ## What passes the gate -/

/-- What one verification downloaded. -/
structure Download where
  manUrl : String
  sigUrl : String
  arcUrl : String
  manifest : Bytes
  signature : Bytes
  archive : Bytes

/-- The download authenticates `version` for the app of the tree `app`. -/
structure Download.Admits (d : Download) (host : Host) (t : Attempt) (app : Tree) (version : String) :
    Prop where
  hosts : ∀ url ∈ [d.manUrl, d.sigUrl, d.arcUrl], hostAllowed host url = .ok true
  manifest : t.respond 0 d.manUrl = .ok d.manifest
  signature : t.respond 1 d.sigUrl = .ok d.signature
  archive : t.respond 2 d.arcUrl = .ok d.archive
  signed : ∃ sigText, decodeUtf8 d.signature = .ok sigText ∧
    Signed host.toCrypto d.manifest sigText (host.minisignPub app)
  fields : ∃ fields, parseManifest d.manifest = .ok fields ∧
    getItem fields "version" = some version ∧
    getItem fields "sha256" = some (host.sha256 d.archive)
  shape : versionShape version = true
  newer : ∃ l r, counter (host.version app) = some l ∧ counter version = some r ∧ l < r

/-- Some download authenticates the version. -/
def Admitted (host : Host) (t : Attempt) (app : Tree) (version : String) : Prop :=
  ∃ d : Download, d.Admits host t app version

/-- A check that ends in `None` unless it passes. -/
theorem checked_ok_iff {α : Type} {check : Except Raised Bool} {rest : Except Raised (Option α)}
    {a : α} : (check >>= fun b => if ¬b = true then pure none else rest) = .ok (some a) ↔
      check = .ok true ∧ rest = .ok (some a) := by
  rw [bind_ok_iff]
  constructor
  · rintro ⟨b, hb, h⟩
    cases b with
    | false => cases h
    | true => exact ⟨hb, h⟩
  · rintro ⟨hb, h⟩
    exact ⟨true, hb, h⟩

/-- A test that ends in `None` where it holds. -/
theorem unless_ok_iff {α : Type} {c : Prop} [Decidable c] {rest : Except Raised (Option α)} {a : α} :
    (if c then pure none else rest : Except Raised (Option α)) = .ok (some a) ↔
      ¬c ∧ rest = .ok (some a) := by
  split_ifs with hc
  · exact ⟨fun h => (nomatch h), fun h => absurd hc h.1⟩
  · exact ⟨fun h => ⟨hc, h⟩, fun h => h.2⟩

theorem getItem_getD {d : List (String × String)} {key value : String}
    (h : (getItem d key).getD "" = value) (hne : value ≠ "") : getItem d key = some value := by
  cases hget : getItem d key with
  | none => exact absurd (by rw [← h, hget]; rfl) hne
  | some v => rw [← h, hget]; rfl

theorem verifyRelease_admitted {host : Host} {t : Attempt} {app : Tree} {release : Value}
    {version : String} {archive : Bytes}
    (h : verifyRelease host t app release = .ok (some (version, archive))) :
    Admitted host t app version := by
  rw [verifyRelease, caught_ok_iff (by simp)] at h
  obtain ⟨assets, -, h⟩ := bind_ok_iff.mp h
  obtain ⟨arc, -, h⟩ := bind_ok_iff.mp h
  cases hman : (getItem assets (.name "manifest.txt")).bind urlText with
  | none => rw [hman] at h; cases h
  | some manUrl =>
  cases hsig : (getItem assets (.name "manifest.txt.minisig")).bind urlText with
  | none => rw [hman, hsig] at h; cases h
  | some sigUrl =>
  cases harc : urlText arc with
  | none => rw [hman, hsig, harc] at h; cases h
  | some arcUrl =>
  rw [hman, hsig, harc] at h
  obtain ⟨hmanHost, h⟩ := checked_ok_iff.mp h
  obtain ⟨hsigHost, h⟩ := checked_ok_iff.mp h
  obtain ⟨harcHost, h⟩ := checked_ok_iff.mp h
  obtain ⟨manifest, hmanifest, h⟩ := bind_ok_iff.mp h
  obtain ⟨signature, hsignature, h⟩ := bind_ok_iff.mp h
  obtain ⟨sigText, hsigText, h⟩ := bind_ok_iff.mp h
  obtain ⟨-, h⟩ := then_ok_iff.mp h
  obtain ⟨hverified, h⟩ := checked_ok_iff.mp h
  obtain ⟨fields, hfields, h⟩ := bind_ok_iff.mp h
  obtain ⟨hshape, h⟩ := unless_ok_iff.mp h
  obtain ⟨hnewer, h⟩ := unless_ok_iff.mp h
  obtain ⟨archive', harchive, h⟩ := bind_ok_iff.mp h
  obtain ⟨-, h⟩ := then_ok_iff.mp h
  obtain ⟨-, h⟩ := then_ok_iff.mp h
  obtain ⟨hsha, h⟩ := unless_ok_iff.mp h
  obtain ⟨rfl, rfl⟩ : (getItem fields "version").getD "" = version ∧ archive' = archive := by
    cases h
    exact ⟨rfl, rfl⟩
  obtain ⟨hshape, hexpected⟩ := not_or.mp hshape
  have hoffered : (getItem fields "version").getD "" ≠ "" := by
    intro hempty
    rw [hempty] at hshape
    exact hshape (by decide)
  refine ⟨⟨manUrl, sigUrl, arcUrl, manifest, signature, archive'⟩, ?_, hmanifest, hsignature,
    harchive, ⟨sigText, hsigText, verifyMinisign_iff.mp hverified⟩, ⟨fields, hfields, ?_, ?_⟩,
    not_not.mp hshape, isStrictlyNewer_iff.mp (not_not.mp hnewer)⟩
  · intro url hurl
    simp only [List.mem_cons, List.not_mem_nil, or_false] at hurl
    rcases hurl with rfl | rfl | rfl
    · exact hmanHost
    · exact hsigHost
    · exact harcHost
  · exact getItem_getD rfl hoffered
  · exact getItem_getD (not_not.mp hsha).symm (by rwa [not_not.mp hsha])

/-! ## What a call leaves -/

/-- The state of an update call that staged something. -/
def Staged : Except Raised ApplyResult → Prop
  | .ok (.staged _) => True
  | _ => False

theorem Staged.version {r : Except Raised ApplyResult} (h : Staged r) :
    ∃ version, r = .ok (.staged version) := by
  cases r with
  | error e => cases h
  | ok result =>
    cases result with
    | staged version => exact ⟨version, rfl⟩
    | noop | error => cases h

section Frame

variable {γ : Type} {f : InstallRoot → γ} (hstage : ∀ s tree, f (InstallRoot.stage s tree) = f s)

include hstage

theorem keeps_extractGuarded (host : Host) (t : Attempt) (archive : Bytes) :
    Keeps f (extractGuarded host t archive) := by
  unfold extractGuarded
  refine Keeps.bind (Keeps.step _ fun s => hstage s _) fun _ =>
    Keeps.bind (Keeps.ofExcept _) fun members => ?_
  split_ifs
  · exact Keeps.throw _
  · cases t.extracted with
    | none => exact Keeps.modify fun s => hstage s _
    | some p => exact Keeps.bind (Keeps.modify fun s => hstage s _) fun _ => Keeps.throw _

/-- A call of `apply` up to `stage_pending`: it stages files and adds a backup. -/
theorem apply_keepsUnless {Q : Except Raised ApplyResult → Prop} {t : Attempt}
    (hbackups : ∀ (s : InstallRoot) backups, f { s with backups } = f s)
    (hpending : ∀ version backupRel,
      KeepsUnless f Q (do stagePending t "staged" version backupRel; return .staged version))
    (host : Host) (app : Tree) (release : Value) : KeepsUnless f Q (apply host t app release) := by
  unfold apply
  split_ifs
  · exact (Keeps.pure _).unless
  refine Keeps.then (Keeps.ofExcept _) fun release => ?_
  split
  · exact (Keeps.pure _).unless
  refine Keeps.then (Keeps.ofExcept _) fun _ => Keeps.then (Keeps.ofExcept _) fun verified => ?_
  split
  · exact (Keeps.throw _).unless
  refine Keeps.then (Keeps.modify fun s => hstage s _) fun _ =>
    Keeps.then (keeps_extractGuarded hstage host t _) fun _ => Keeps.then (Keeps.ofExcept _) fun _ =>
    Keeps.then (Keeps.ofExcept _) fun backupPath =>
    Keeps.then (Keeps.modify fun s => hbackups s _) fun _ => ?_
  split
  · exact (Keeps.throw _).unless
  · exact hpending _ _

end Frame

/-- The marker is written by the rename, which is the last thing that may fail. -/
theorem stagePending_keepsUnless (t : Attempt) (stagedRel version backupRel : String) :
    KeepsUnless InstallRoot.marker Returned (stagePending t stagedRel version backupRel) := by
  unfold stagePending
  refine Keeps.then (Keeps.ofExcept _) fun _ => ?_
  cases t.fault .partialWrite with
  | none => exact Keeps.then (Keeps.modify fun _ => rfl) fun _ => KeepsUnless.step _ _
  | some r => exact Keeps.then (Keeps.modify fun _ => rfl) fun _ => (Keeps.throw _).unless

/-- Unless it staged a version, a call leaves the marker as it was. -/
theorem apply_marker (host : Host) (t : Attempt) (app : Tree) (release : Value) :
    KeepsUnless InstallRoot.marker Staged (apply host t app release) :=
  apply_keepsUnless (fun _ _ => rfl) (fun _ _ => rfl)
    (fun _ _ => (stagePending_keepsUnless t _ _ _).returns fun _ _ => trivial) host app release

/-- A call leaves the installed app. -/
theorem apply_app (host : Host) (t : Attempt) (app : Tree) (release : Value) (s : InstallRoot) :
    (exec (apply host t app release) s).2.dirs.app = s.dirs.app := by
  have hstage (version backupRel : String) : Keeps (fun s : InstallRoot => s.dirs.app)
      (do stagePending t "staged" version backupRel; return ApplyResult.staged version) := by
    refine Keeps.bind ?_ fun _ => Keeps.pure _
    unfold stagePending
    refine Keeps.bind (Keeps.ofExcept _) fun _ => ?_
    cases t.fault .partialWrite with
    | none => exact Keeps.bind (Keeps.modify fun _ => rfl) fun _ => Keeps.step _ fun _ => rfl
    | some r => exact Keeps.bind (Keeps.modify fun _ => rfl) fun _ => Keeps.throw _
  have hkeeps : KeepsUnless (fun s : InstallRoot => s.dirs.app) (fun _ => False)
      (apply host t app release) :=
    apply_keepsUnless (fun _ _ => rfl) (fun _ _ => rfl) (fun v b => (hstage v b).unless) host app
      release
  exact hkeeps s id

theorem stagePending_returns {t : Attempt} {stagedRel version backupRel : String}
    {s s' : InstallRoot} (h : exec (stagePending t stagedRel version backupRel) s = (.ok (), s')) :
    s'.marker = some (markerText stagedRel version backupRel) := by
  unfold stagePending at h
  obtain ⟨-, s₁, -, h⟩ := exec_bind_ok_iff.mp h
  cases hwrite : t.fault .partialWrite with
  | some r =>
    rw [hwrite] at h
    obtain ⟨⟨⟩, s₂, -, h⟩ := exec_bind_ok_iff.mp h
    cases h
  | none =>
    rw [hwrite] at h
    obtain ⟨⟨⟩, s₂, hpartial, h⟩ := exec_bind_ok_iff.mp h
    obtain ⟨-, rfl⟩ := exec_step_ok_iff.mp h
    cases hpartial
    rfl

theorem apply_staged {host : Host} {t : Attempt} {app : Tree} {release : Value} {s s' : InstallRoot}
    {version : String} (h : exec (apply host t app release) s = (.ok (.staged version), s')) :
    Admitted host t app version ∧
      ∃ backupRel, s'.marker = some (markerText "staged" version backupRel) := by
  unfold apply at h
  split_ifs at h
  · cases h
  obtain ⟨release, s₁, -, h⟩ := exec_bind_ok_iff.mp h
  split at h
  · cases h
  obtain ⟨-, s₂, -, h⟩ := exec_bind_ok_iff.mp h
  obtain ⟨verified, s₃, hverified, h⟩ := exec_bind_ok_iff.mp h
  split at h
  · cases h
  obtain ⟨-, s₄, -, h⟩ := exec_bind_ok_iff.mp h
  obtain ⟨-, s₅, -, h⟩ := exec_bind_ok_iff.mp h
  obtain ⟨-, s₆, -, h⟩ := exec_bind_ok_iff.mp h
  obtain ⟨backupPath, s₇, -, h⟩ := exec_bind_ok_iff.mp h
  obtain ⟨-, s₈, -, h⟩ := exec_bind_ok_iff.mp h
  split at h
  · cases h
  next backupRel _ =>
  obtain ⟨⟨⟩, s₉, hmarker, h⟩ := exec_bind_ok_iff.mp h
  rw [exec_ofExcept] at hverified
  cases h
  exact ⟨verifyRelease_admitted (congrArg Prod.fst hverified), backupRel,
    stagePending_returns hmarker⟩

end MyOriShop
