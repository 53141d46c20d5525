import Mathlib.Data.List.Sort
import Mathlib.Data.String.Basic
import MyOriShop.Columns
import MyOriShop.Recompute

/-!
# Merge: a parsed batch enters the database (`app/services/merge.py`)

`apply_merge` runs inside the caller's transaction: reference rows are inserted where their id is
new, then the two ledgers, kind by kind with the parents first, and last the cached quantities are
recomputed. Nothing is updated or deleted.

* `partitionNew` is `_partition_new`, with its id probes in chunks of `inChunk`.
* `suffixCode` is `_suffix_code`, `resolveCodeCollisions` is `_resolve_code_collisions`: the rows
  heading for insert are gone through by id, the first claimant of a code keeps it.
* `applyMerge` is `apply_merge`. Every statement is checked against `Db.Ok` when it has run.

`now` stands for every clock reading of one merge.

Results:
* `mem_existingIds`: the chunked probes find exactly the ids that are in the table.
* `applyMerge_ok_iff`: a merge succeeds exactly when the new rows are storable, the database with
  them satisfies its constraints and its stock checks; and what the result then is.
-/

namespace MyOriShop

open Lib.Json (Value valueAt)
open Lib.Fallible

/-! ## The set difference -/

/-- `_IN_CHUNK`. -/
def inChunk : Nat := 500

/-- `range(0, len(ids), inChunk)`, each with its slice. -/
def chunks {α : Type} (ids : List α) : List (List α) :=
  (List.range ((ids.length + (inChunk - 1)) / inChunk)).map fun i =>
    (ids.drop (inChunk * i)).take inChunk

/-- The ids among `ids` that a table has, probed chunk by chunk. -/
def existingIds (table ids : List String) : List String :=
  (chunks ids).flatMap fun chunk => table.filter fun id => id ∈ chunk

/-- `_partition_new`: the rows whose id is new, and how many are not. -/
def partitionNew (table : List String) (rows : List Data) : List Data × Nat :=
  let existing := existingIds table (rows.map dataId)
  let newRows := rows.filter fun row => dataId row ∉ existing
  (newRows, rows.length - newRows.length)

theorem mem_chunks {α : Type} {ids : List α} {a : α} :
    (∃ chunk ∈ chunks ids, a ∈ chunk) ↔ a ∈ ids := by
  unfold chunks
  constructor
  · rintro ⟨chunk, hchunk, ha⟩
    obtain ⟨i, -, rfl⟩ := List.mem_map.mp hchunk
    exact List.mem_of_mem_drop (List.mem_of_mem_take ha)
  · intro ha
    obtain ⟨n, hn, rfl⟩ := List.mem_iff_getElem.mp ha
    have hpos : 0 < inChunk := by decide
    have hdiv := Nat.div_add_mod n inChunk
    have hmod := Nat.mod_lt n hpos
    have hlast : n / inChunk < (ids.length + (inChunk - 1)) / inChunk := by
      rw [Nat.lt_iff_add_one_le, Nat.le_div_iff_mul_le hpos, Nat.add_mul, Nat.one_mul,
        Nat.mul_comm]
      omega
    refine ⟨_, List.mem_map_of_mem (List.mem_range.mpr hlast), ?_⟩
    rw [List.mem_iff_getElem]
    refine ⟨n % inChunk, ?_, ?_⟩
    · rw [List.length_take, List.length_drop]
      omega
    · rw [List.getElem_take, List.getElem_drop]
      congr 1

/-- The probes find exactly the ids that are there. -/
theorem mem_existingIds {table ids : List String} {id : String} :
    id ∈ existingIds table ids ↔ id ∈ table ∧ id ∈ ids := by
  unfold existingIds
  rw [List.mem_flatMap]
  constructor
  · rintro ⟨chunk, hchunk, hid⟩
    obtain ⟨htable, hmem⟩ := List.mem_filter.mp hid
    exact ⟨htable, mem_chunks.mp ⟨chunk, hchunk, of_decide_eq_true hmem⟩⟩
  · rintro ⟨htable, hid⟩
    obtain ⟨chunk, hchunk, hmem⟩ := mem_chunks.mpr hid
    exact ⟨chunk, hchunk, List.mem_filter.mpr ⟨htable, decide_eq_true hmem⟩⟩

/-- The rows that are new are those whose id the table does not have. -/
theorem partitionNew_fst (table : List String) (rows : List Data) :
    (partitionNew table rows).1 = rows.filter fun row => dataId row ∉ table := by
  refine List.filter_congr fun row hrow => ?_
  have hid : dataId row ∈ rows.map dataId := List.mem_map_of_mem hrow
  rw [decide_eq_decide, mem_existingIds, and_iff_left hid]

/-! ## Code collisions -/

/-- `_CODE_MAX_LEN`. -/
def codeMaxLen : Nat := 20

/-- `_CODE_SUFFIX_HEX_LEN`. -/
def codeSuffixHexLen : Nat := 8

/-- `_CODE_COLLISION_MARKER` and the first `n` characters of a hex id. -/
def codeMarker (hexId : List Char) (n : Nat) : List Char := '~' :: hexId.take n

/-- The codes `_suffix_code` tries, in its order. -/
def suffixCandidates (code rowId : String) : List String :=
  let hexId := rowId.toList.filter (· ≠ '-')
  let maxHex := min hexId.length (codeMaxLen - 1)
  (List.range' codeSuffixHexLen (maxHex + 1 - codeSuffixHexLen)).map fun n =>
    let marker := codeMarker hexId n
    String.ofList (code.toList.take (codeMaxLen - marker.length) ++ marker)

/-- `_suffix_code`: the first candidate that is not taken, else the last one tried. -/
def suffixCode (code rowId : String) (taken : List String) : String :=
  let candidates := suffixCandidates code rowId
  match candidates.find? fun c => c ∉ taken with
  | some candidate => candidate
  | none => candidates.getLastD ""

/-- A resolved collision (`kind` is always `product_code`). -/
structure Conflict where
  productId : String
  originalCode : String
  resolvedCode : String
  incumbentId : String
  deriving DecidableEq

/-- The active product of the database that has the code. -/
def dbIncumbent (products : List Product) (code : String) : Option String :=
  (products.find? fun p => p.activeCode = some code).map Product.id

/-- `db_incumbent[code] or claimed_by.get(code)`: an empty id counts as none. -/
def incumbent (products : List Product) (claimed : List (String × String)) (code : String) :
    Option String :=
  ((dbIncumbent products code).filter (· ≠ "")).or (claimed.lookup code)

/-- The collisions of the rows, one after another. `claimed` is `claimed_by`, newest first. -/
def codeConflicts (products : List Product) (claimed : List (String × String)) :
    List Product → List Conflict
  | [] => []
  | row :: rows =>
    match row.activeCode with
    | none => codeConflicts products claimed rows
    | some code =>
      if code = "" then codeConflicts products claimed rows
      else match incumbent products claimed code with
        -- the first claimant keeps the clean code
        | none => codeConflicts products ((code, row.id) :: claimed) rows
        | some owner =>
          let resolved := suffixCode code row.id (claimed.map Prod.fst)
          ⟨row.id, code, resolved, owner⟩ ::
            codeConflicts products ((resolved, row.id) :: claimed) rows

/-- `row["code"] = resolved` for the row a conflict is about. -/
def renamed (conflicts : List Conflict) (row : Product) : Product :=
  match conflicts.find? fun c => c.productId = row.id with
  | some c => { row with code := some c.resolvedCode }
  | none => row

/-- The order of `sorted(product_rows, key=id)`. -/
def byId (rows : List Product) : List Product := rows.insertionSort fun p q => p.id ≤ q.id

/-- `_resolve_code_collisions`. -/
def resolveCodeCollisions (products rows : List Product) : List Product × List Conflict :=
  let conflicts := codeConflicts products [] (byId rows)
  (rows.map (renamed conflicts), conflicts)

/-- The collision pass is the products' alone. -/
def resolveKind (d : Db) : (k : Kind) → List (Row k) → List (Row k) × List Conflict
  | .product, rows => resolveCodeCollisions d.products rows
  | .warehouse, rows | .customer, rows | .dictionary, rows | .batch, rows | .sale, rows
  | .operation, rows | .cashMovement, rows => (rows, [])

/-! ## The merge -/

/-- The bulk insert of a statement, checked when it has run. -/
def insertAll (d : Db) (k : Kind) (rows : List (Row k)) : Except Exn Db :=
  match rows with
  | [] => .ok d
  | row :: rows =>
    if (d.insert k (row :: rows)).check then .ok (d.insert k (row :: rows)) else .error .integrity

/-- What the merge of one kind did. -/
structure Tally where
  kind : Kind
  inserted : Nat
  /-- Rows that were there already: `server_wins`, `skipped`. -/
  present : Nat
  conflicts : List Conflict
  deriving DecidableEq

/-- The records of a kind. -/
def bucket (records : List ExchangeRecord) (k : Kind) : List Data :=
  (records.filter fun r => r.kind = k).map ExchangeRecord.data

/-- The rows of a kind that head for insert, and the collisions among them. -/
def incoming (driver : Driver) (now : String) (d : Db) (records : List ExchangeRecord) (k : Kind) :
    Except Exn (List (Row k) × List Conflict) := do
  let rows ← (partitionNew (d.ids k) (bucket records k)).1.mapM (insertRow driver now k)
  return resolveKind d k rows

/-- `_upsert_reference` and `_insert_new`. -/
def mergeKind (driver : Driver) (now : String) (records : List ExchangeRecord) (k : Kind) (d : Db) :
    Except Exn (Db × Tally) := do
  let (rows, conflicts) ← incoming driver now d records k
  let d' ← insertAll d k rows
  return (d', ⟨k, rows.length, (partitionNew (d.ids k) (bucket records k)).2, conflicts⟩)

/-- The kinds one after another. -/
def mergeKinds (driver : Driver) (now : String) (records : List ExchangeRecord) :
    List Kind → Db → Except Exn (Db × List Tally)
  | [], d => .ok (d, [])
  | k :: kinds, d => do
    let (d', tally) ← mergeKind driver now records k d
    let (d'', tallies) ← mergeKinds driver now records kinds d'
    return (d'', tally :: tallies)

/-- `MergeReport`; the two dictionaries list the kinds with a count other than 0. -/
structure MergeReport where
  operationsInserted : Nat
  operationsSkipped : Nat
  cashInserted : Nat
  cashSkipped : Nat
  referenceInserted : List (Kind × Nat)
  referenceServerWins : List (Kind × Nat)
  conflicts : List Conflict
  deriving DecidableEq

/-- A count of the tally of a kind. -/
def tallyOf (tallies : List Tally) (k : Kind) (count : Tally → Nat) : Nat :=
  ((tallies.find? fun t => t.kind = k).map count).getD 0

/-- A count by reference kind, where it is not 0. -/
def referenceCounts (tallies : List Tally) (count : Tally → Nat) : List (Kind × Nat) :=
  (tallies.filter fun t => !t.kind.isLedger && count t != 0).map fun t => (t.kind, count t)

/-- The report of a merge. -/
def mergeReport (tallies : List Tally) : MergeReport where
  operationsInserted := tallyOf tallies .operation Tally.inserted
  operationsSkipped := tallyOf tallies .operation Tally.present
  cashInserted := tallyOf tallies .cashMovement Tally.inserted
  cashSkipped := tallyOf tallies .cashMovement Tally.present
  referenceInserted := referenceCounts tallies Tally.inserted
  referenceServerWins := referenceCounts tallies Tally.present
  conflicts := tallies.flatMap Tally.conflicts

/-- `apply_merge`. -/
def applyMerge (driver : Driver) (now : String) (d : Db) (records : List ExchangeRecord) :
    Except Exn (Db × MergeReport) := do
  let (d', tallies) ← mergeKinds driver now records Kind.all d
  let d'' ← recomputeDerived now d'
  return (d'', mergeReport tallies)

/-! ## What a merge is -/

variable {driver : Driver} {now : String} {records : List ExchangeRecord} {d d' : Db}

/-- The new rows of every kind, with the collisions among them. -/
abbrev Incoming := (k : Kind) → List (Row k) × List Conflict

/-- The tally of a kind whose new rows are known. -/
def kindTally (d : Db) (records : List ExchangeRecord) (rows : Incoming) (k : Kind) : Tally :=
  ⟨k, (rows k).1.length, (partitionNew (d.ids k) (bucket records k)).2, (rows k).2⟩

/-- The database with the new rows. -/
def Db.receive (d : Db) (rows : Incoming) : Db := d.append fun k => (rows k).1

@[simp] theorem Db.get_receive (d : Db) (rows : Incoming) (k : Kind) :
    (d.receive rows).get k = d.get k ++ (rows k).1 :=
  Db.get_append ..

theorem ids_congr {k : Kind} (h : d.get k = d'.get k) : d.ids k = d'.ids k := by
  rw [Db.ids, Db.ids, h]

/-- What heads for insert depends on the table of the kind alone. -/
theorem incoming_congr {k : Kind} (h : d.get k = d'.get k) :
    incoming driver now d records k = incoming driver now d' records k := by
  have hresolve : resolveKind d k = resolveKind d' k := by
    cases k with
    | product =>
      funext rows
      show resolveCodeCollisions (d.get .product) rows = resolveCodeCollisions (d'.get .product) rows
      rw [h]
    | warehouse | customer | dictionary | batch | sale | operation | cashMovement => rfl
  unfold incoming
  rw [ids_congr h, hresolve]

theorem kindTally_congr {rows rows' : Incoming} {k : Kind} (h : d.get k = d'.get k)
    (hrows : rows k = rows' k) : kindTally d records rows k = kindTally d' records rows' k := by
  unfold kindTally
  rw [ids_congr h, hrows]

theorem insert_nil (d : Db) (k : Kind) : d.insert k [] = d := by
  refine Db.ext_get fun k' => ?_
  by_cases hk : k' = k
  · subst hk
    rw [Db.get_insert_same, List.append_nil]
  · rw [Db.get_insert_ne d hk]

theorem insertAll_ok_iff {k : Kind} {rows : List (Row k)} (hd : d.Ok) :
    insertAll d k rows = .ok d' ↔ (d.insert k rows).Ok ∧ d' = d.insert k rows := by
  cases rows with
  | nil =>
    rw [insert_nil, insertAll]
    constructor
    · intro h
      cases h
      exact ⟨hd, rfl⟩
    · rintro ⟨-, rfl⟩
      rfl
  | cons row rows =>
    rw [← Db.check_iff, insertAll]
    split_ifs with hc
    · constructor
      · intro h
        cases h
        exact ⟨hc, rfl⟩
      · rintro ⟨-, rfl⟩
        rfl
    · constructor
      · intro h
        cases h
      · exact fun h => absurd h.1 hc

theorem mergeKind_ok_iff {k : Kind} {tally : Tally} (hd : d.Ok) :
    mergeKind driver now records k d = .ok (d', tally) ↔
      ∃ rows, incoming driver now d records k = .ok rows ∧ (d.insert k rows.1).Ok ∧
        d' = d.insert k rows.1 ∧
        tally = ⟨k, rows.1.length, (partitionNew (d.ids k) (bucket records k)).2, rows.2⟩ := by
  unfold mergeKind
  rw [bind_ok_iff]
  constructor
  · rintro ⟨rows, hrows, h⟩
    obtain ⟨d₁, hd₁, h⟩ := bind_ok_iff.mp h
    cases h
    obtain ⟨hok, rfl⟩ := (insertAll_ok_iff hd).mp hd₁
    exact ⟨rows, hrows, hok, rfl, rfl⟩
  · rintro ⟨rows, hrows, hok, rfl, rfl⟩
    exact ⟨rows, hrows, bind_ok_iff.mpr ⟨_, (insertAll_ok_iff hd).mpr ⟨hok, rfl⟩, rfl⟩⟩

/-- No kind comes twice, and none after a kind that refers to it. -/
def ParentsFirst : List Kind → Prop
  | [] => True
  | k :: kinds => k ∉ kinds ∧ (∀ p ∈ Db.parents k, p ∉ k :: kinds) ∧ ParentsFirst kinds

theorem parentsFirst_all : ParentsFirst Kind.all := by
  refine ⟨?_, ?_, ?_, ?_, ?_, ?_, ?_, ?_, ?_, ?_, ?_, ?_, ?_, ?_, ?_, ?_, trivial⟩ <;> decide

/-- **The kinds one after another** make one insert of all new rows, checked once at the end. -/
theorem mergeKinds_ok_iff {kinds : List Kind} {tallies : List Tally} (hd : d.Ok)
    (horder : ParentsFirst kinds) :
    mergeKinds driver now records kinds d = .ok (d', tallies) ↔
      ∃ rows : Incoming, (∀ k ∈ kinds, incoming driver now d records k = .ok (rows k)) ∧
        (∀ k, k ∉ kinds → rows k = ([], [])) ∧ (d.receive rows).Ok ∧ d' = d.receive rows ∧
        tallies = kinds.map (kindTally d records rows) := by
  induction kinds generalizing d d' tallies with
  | nil =>
    have hnil : ∀ rows : Incoming, (∀ k, k ∉ [] → rows k = ([], [])) → d.receive rows = d := by
      intro rows hrows
      refine Db.ext_get fun k => ?_
      rw [Db.get_receive, hrows k List.not_mem_nil, List.append_nil]
    constructor
    · intro h
      cases h
      have hd' := hnil (fun _ => ([], [])) fun _ _ => rfl
      exact ⟨fun _ => ([], []), by simp, fun _ _ => rfl, by rwa [hd'], hd'.symm, rfl⟩
    · rintro ⟨rows, -, hrows, -, rfl, rfl⟩
      rw [hnil rows hrows]
      rfl
  | cons k kinds ih =>
    obtain ⟨hk, hparents, horder⟩ := horder
    have hne : ∀ k' ∈ kinds, k' ≠ k := by
      rintro k' hk' rfl
      exact hk hk'
    unfold mergeKinds
    rw [bind_ok_iff]
    constructor
    · rintro ⟨⟨d₁, tally⟩, hfirst, h⟩
      obtain ⟨⟨d₂, tallies₂⟩, hrest, h⟩ := bind_ok_iff.mp h
      cases h
      obtain ⟨new, hnew, hok, rfl, rfl⟩ := (mergeKind_ok_iff hd).mp hfirst
      obtain ⟨rows, hrows, hnone, hall, rfl, rfl⟩ := (ih hok horder).mp hrest
      have hrows' : ∀ k' ∈ kinds, Function.update rows k new k' = rows k' :=
        fun k' hk' => Function.update_of_ne (hne k' hk') ..
      have hreceive : d.receive (Function.update rows k new) = (d.insert k new.1).receive rows := by
        refine Db.ext_get fun k' => ?_
        rw [Db.get_receive, Db.get_receive]
        by_cases hk' : k' = k
        · subst hk'
          rw [Function.update_self, Db.get_insert_same, hnone _ hk, List.append_nil]
        · rw [Function.update_of_ne hk', Db.get_insert_ne d hk']
      refine ⟨Function.update rows k new, ?_, ?_, hreceive ▸ hall, hreceive.symm, ?_⟩
      · refine List.forall_mem_cons.mpr ⟨by rwa [Function.update_self], fun k' hk' => ?_⟩
        rw [hrows' k' hk', ← hrows k' hk']
        exact incoming_congr (Db.get_insert_ne d (hne k' hk') _).symm
      · intro k' hk'
        rw [List.mem_cons, not_or] at hk'
        rw [Function.update_of_ne hk'.1, hnone k' hk'.2]
      · rw [List.map_cons, kindTally, Function.update_self]
        refine congrArg _ (List.map_congr_left fun k' hk' => ?_)
        exact kindTally_congr (Db.get_insert_ne d (hne k' hk') _) (hrows' k' hk').symm
    · rintro ⟨rows, hrows, hnone, hall, rfl, rfl⟩
      have hok : (d.insert k (rows k).1).Ok := by
        refine Db.ok_insert_of_append (fun k => (rows k).1) hd hall k fun p hp => ?_
        refine ⟨fun hpk => hparents p hp (hpk ▸ List.mem_cons_self), ?_⟩
        exact congrArg Prod.fst (hnone p (hparents p hp))
      have hrows' : ∀ k' ∈ kinds, Function.update rows k ([], []) k' = rows k' :=
        fun k' hk' => Function.update_of_ne (hne k' hk') ..
      have hreceive : (d.insert k (rows k).1).receive (Function.update rows k ([], [])) =
          d.receive rows := by
        refine Db.ext_get fun k' => ?_
        rw [Db.get_receive, Db.get_receive]
        by_cases hk' : k' = k
        · subst hk'
          rw [Function.update_self, Db.get_insert_same, List.append_nil]
        · rw [Function.update_of_ne hk', Db.get_insert_ne d hk']
      refine ⟨_, (mergeKind_ok_iff hd).mpr ⟨rows k, hrows k List.mem_cons_self, hok, rfl, rfl⟩, ?_⟩
      refine bind_ok_iff.mpr ⟨(d.receive rows, kinds.map (kindTally d records rows)), ?_, rfl⟩
      refine (ih hok horder).mpr ⟨Function.update rows k ([], []), ?_, ?_, hreceive ▸ hall,
        hreceive.symm, ?_⟩
      · intro k' hk'
        rw [hrows' k' hk', ← hrows k' (List.mem_cons_of_mem _ hk')]
        exact incoming_congr (Db.get_insert_ne d (hne k' hk') _)
      · intro k' hk'
        by_cases hk'' : k' = k
        · subst hk''
          exact Function.update_self ..
        · rw [Function.update_of_ne hk'']
          exact hnone k' (List.mem_cons.not.mpr (not_or.mpr ⟨hk'', hk'⟩))
      · refine List.map_congr_left fun k' hk' => ?_
        exact kindTally_congr (Db.get_insert_ne d (hne k' hk') _).symm (hrows' k' hk').symm

/-- **What a merge is**: it succeeds exactly when the new rows are storable, the database with them
satisfies its constraints and its quantities recompute; and then that is the result. -/
theorem applyMerge_ok_iff {report : MergeReport} (hd : d.Ok) :
    applyMerge driver now d records = .ok (d', report) ↔
      ∃ rows : Incoming, (∀ k, incoming driver now d records k = .ok (rows k)) ∧
        (d.receive rows).Ok ∧ recomputeDerived now (d.receive rows) = .ok d' ∧
        report = mergeReport (Kind.all.map (kindTally d records rows)) := by
  unfold applyMerge
  rw [bind_ok_iff]
  constructor
  · rintro ⟨⟨d₁, tallies⟩, hkinds, h⟩
    obtain ⟨d₂, hderived, h⟩ := bind_ok_iff.mp h
    cases h
    obtain ⟨rows, hrows, -, hok, rfl, rfl⟩ := (mergeKinds_ok_iff hd parentsFirst_all).mp hkinds
    exact ⟨rows, fun k => hrows k k.mem_all, hok, hderived, rfl⟩
  · rintro ⟨rows, hrows, hok, hderived, rfl⟩
    refine ⟨_, (mergeKinds_ok_iff hd parentsFirst_all).mpr ⟨rows, fun k _ => hrows k,
      fun k hk => absurd k.mem_all hk, hok, rfl, rfl⟩, ?_⟩
    exact bind_ok_iff.mpr ⟨d', hderived, rfl⟩

/-! ## What heads for insert -/

theorem renamed_id (conflicts : List Conflict) (row : Product) :
    (renamed conflicts row).id = row.id := by
  unfold renamed
  split <;> rfl

theorem resolveKind_ids (d : Db) (k : Kind) (rows : List (Row k)) :
    ((resolveKind d k rows).1).map (rowId k) = rows.map (rowId k) := by
  cases k with
  | product =>
    show ((rows.map (renamed _)).map (rowId .product)) = _
    rw [List.map_map]
    exact List.map_congr_left fun row _ => renamed_id _ row
  | warehouse | customer | dictionary | batch | sale | operation | cashMovement => rfl

theorem mem_bucket {k : Kind} {data : Data} :
    data ∈ bucket records k ↔ (⟨k, data⟩ : ExchangeRecord) ∈ records := by
  unfold bucket
  rw [List.mem_map]
  constructor
  · rintro ⟨⟨k', data'⟩, hr, rfl⟩
    obtain ⟨hmem, hk⟩ := List.mem_filter.mp hr
    cases of_decide_eq_true hk
    exact hmem
  · exact fun h => ⟨_, List.mem_filter.mpr ⟨h, decide_eq_true rfl⟩, rfl⟩

theorem bucket_id (hrecords : Accepted records) {k : Kind} {data : Data}
    (h : data ∈ bucket records k) : valueAt "id" data = .str (dataId data) :=
  valueAt_id (hrecords.id _ (mem_bucket.mp h))

theorem bucket_nodup (hrecords : Accepted records) (k : Kind) :
    ((bucket records k).map dataId).Nodup := by
  have hkeys : ((records.filter fun r => r.kind = k).map ExchangeRecord.key).Nodup :=
    hrecords.nodup.sublist (List.filter_sublist.map _)
  rw [bucket, List.map_map]
  refine List.Nodup.of_map (fun id => (k, id)) ?_
  rw [List.map_map]
  refine (List.map_congr_left fun r hr => ?_) ▸ hkeys
  have hk : r.kind = k := of_decide_eq_true (List.mem_filter.mp hr).2
  show r.key = (k, dataId r.data)
  rw [ExchangeRecord.key, hk]

/-- The records of a kind whose id a database does not have. -/
def newData (d : Db) (records : List ExchangeRecord) (k : Kind) : List Data :=
  (bucket records k).filter fun data => dataId data ∉ d.ids k

/-- The rows before the collision pass. -/
theorem incoming_ok_iff {k : Kind} {out : List (Row k) × List Conflict} :
    incoming driver now d records k = .ok out ↔ ∃ rows,
      (newData d records k).mapM (insertRow driver now k) = .ok rows ∧
        out = resolveKind d k rows := by
  unfold incoming newData
  rw [partitionNew_fst, bind_ok_iff]
  constructor
  · rintro ⟨rows, hrows, h⟩
    cases h
    exact ⟨rows, hrows, rfl⟩
  · rintro ⟨rows, hrows, rfl⟩
    exact ⟨rows, hrows, rfl⟩

/-- The rows have the ids of their records. -/
theorem newRows_ids (hrecords : Accepted records) {k : Kind} {rows : List (Row k)}
    (h : (newData d records k).mapM (insertRow driver now k) = .ok rows) :
    rows.map (rowId k) = (newData d records k).map dataId := by
  have hall := mapM_ok_iff.mp h
  have hmem : ∀ data ∈ newData d records k, data ∈ bucket records k :=
    fun data hdata => (List.mem_filter.mp hdata).1
  generalize newData d records k = new at hall hmem
  clear h
  induction hall with
  | nil => rfl
  | cons hrow _ ih =>
    rw [List.map_cons, List.map_cons, ih fun data hdata => hmem data (List.mem_cons_of_mem _ hdata),
      insertRow_id (bucket_id hrecords (hmem _ List.mem_cons_self)) hrow]

/-- The ids of the rows heading for insert are those of the records that are new. -/
theorem incoming_ids (hrecords : Accepted records) {k : Kind} {out : List (Row k) × List Conflict}
    (h : incoming driver now d records k = .ok out) : out.1.map (rowId k) =
      ((bucket records k).map dataId).filter fun id => id ∉ d.ids k := by
  obtain ⟨rows, hrows, rfl⟩ := incoming_ok_iff.mp h
  rw [resolveKind_ids, newRows_ids hrecords hrows, newData, List.filter_map]
  rfl

/-! ## After a merge -/

section After

variable {report : MergeReport}

/-- The commit's check passes. -/
theorem applyMerge_ok (hd : d.Ok) (h : applyMerge driver now d records = .ok (d', report)) :
    d'.Ok := by
  obtain ⟨rows, -, hok, hderived, -⟩ := (applyMerge_ok_iff hd).mp h
  obtain ⟨-, rfl⟩ := recomputeDerived_ok_iff.mp hderived
  exact recompute_ok hok

/-- A merged database is settled. -/
theorem applyMerge_settled (hd : d.Ok) (h : applyMerge driver now d records = .ok (d', report)) :
    Settled d' := by
  obtain ⟨rows, -, -, hderived, -⟩ := (applyMerge_ok_iff hd).mp h
  exact settled_of_recomputeDerived hderived

/-- **The ids after a merge**: those before it and those of the records. -/
theorem applyMerge_ids (hd : d.Ok) (hrecords : Accepted records)
    (h : applyMerge driver now d records = .ok (d', report)) (k : Kind) :
    d'.ids k = d.ids k ++ ((bucket records k).map dataId).filter fun id => id ∉ d.ids k := by
  obtain ⟨rows, hrows, -, hderived, -⟩ := (applyMerge_ok_iff hd).mp h
  obtain ⟨-, rfl⟩ := recomputeDerived_ok_iff.mp hderived
  rw [ids_recompute, Db.ids, Db.get_receive, List.map_append, incoming_ids hrecords (hrows k)]
  rfl

theorem mem_ids_applyMerge (hd : d.Ok) (hrecords : Accepted records)
    (h : applyMerge driver now d records = .ok (d', report)) (k : Kind) (id : String) :
    id ∈ d'.ids k ↔ id ∈ d.ids k ∨ id ∈ (bucket records k).map dataId := by
  rw [applyMerge_ids hd hrecords h, List.mem_append, List.mem_filter, decide_eq_true_eq]
  by_cases hid : id ∈ d.ids k
  · simp [hid]
  · simp [hid]

end After

end MyOriShop
