import MyOriShop.Exchange
import MyOriShop.Lib.Dict

/-!
# RoundTrip: records that survive the wire (`app/services/merge.py`)

`serialize_exchange` and `parse_exchange` over arbitrary records: any JSON value in any column, and
columns the models do not have.

* `FieldRules` is what `parse_exchange` wants of a record, rule by rule, and `synced_at` null.
* `Metadata` is a header's own data. `serialize` is `serialize_exchange` with it; the annotation of
  `source_device_id` is not checked, so a re-serialized payload may carry any value there.
* `held` is a parsed record or batch as the program holds it, its objects as dictionaries.

Results:
* `fieldRules_iff`: the rules are the parser's checks.
* `lookup_kindCounts`: the counts of a header are those of its records.
* `held_rules`: the records of an accepted payload keep the rules.
* `wire_round_trip`: written records are read back, and so are those of any accepted payload.
-/

namespace MyOriShop

open Lib.Json (Value valueAt lookup dumps loads dict settlePairs)
open Lib.IsoDate Lib.Text

variable {r : ExchangeRecord} {records : List ExchangeRecord}

/-! ## The rules of a record -/

/-- The field rules of `parse_exchange`, and `synced_at` null. -/
structure ExchangeRecord.FieldRules (r : ExchangeRecord) : Prop where
  noKind : "kind" ∉ r.data.map Prod.fst
  id : ∃ id, id ≠ "" ∧ valueAt "id" r.data = .str id
  required : r.kind.isLedger = true → ∀ f ∈ ledgerRequired, valueAt f r.data ≠ .null
  seq : r.kind.isLedger = true → ∃ n, valueAt "seq" r.data = .int n
  createdAt : r.kind.isLedger = true →
    ∃ s, isIsoTimestamp s = true ∧ valueAt "created_at" r.data = .str s
  money : ∀ f ∈ moneyFields r.kind, valueAt f r.data = .null ∨ ∃ n, valueAt f r.data = .int n
  date : ∀ f ∈ dateFields r.kind,
    valueAt f r.data = .null ∨ ∃ d : Date, valueAt f r.data = .str d.isoformat
  syncedAt : ∀ v, ("synced_at", v) ∈ r.data → v = .null

theorem isNull_eq_false {v : Value} : isNull v = false ↔ v ≠ .null := by
  cases v <;> simp [isNull]

theorem not_isInt_eq_false {v : Value} : (!isInt v) = false ↔ ∃ n, v = .int n := by
  cases v <;> simp [isInt]

theorem not_isStr_eq_false {p : String → Bool} {v : Value} :
    (!isStr p v) = false ↔ ∃ s, p s = true ∧ v = .str s := by
  cases v <;> simp [isStr]

theorem bad_money_eq_false {v : Value} :
    (!isNull v && !isInt v) = false ↔ v = .null ∨ ∃ n, v = .int n := by
  cases v <;> simp [isNull, isInt]

theorem bad_date_eq_false {v : Value} : (!isNull v && !isStr isIsoDate v) = false ↔
    v = .null ∨ ∃ d : Date, v = .str d.isoformat := by
  cases v with
  | str s =>
    simp only [isNull, isStr, Bool.not_false, Bool.true_and, Bool.not_eq_false', isIsoDate_iff]
    simp
  | null | bool | int | float | arr | obj => simp [isNull, isStr]

theorem checkLedger_ok_iff {k : Kind} {data : Data} : checkLedger k data = .ok () ↔
    (k.isLedger = true → (∀ f ∈ ledgerRequired, valueAt f data ≠ .null) ∧
      (∃ n, valueAt "seq" data = .int n) ∧
        ∃ s, isIsoTimestamp s = true ∧ valueAt "created_at" data = .str s) := by
  unfold checkLedger
  by_cases hk : k.isLedger = true
  · rw [if_pos hk]
    simp only [Lib.Fallible.then_ok_iff, checkAll_ok_iff, List.forall_mem_singleton, isNull_eq_false,
      not_isInt_eq_false, not_isStr_eq_false, hk, true_imp_iff]
  · rw [if_neg hk]
    exact iff_of_true rfl fun h => absurd h hk

/-- The column rules, one by one. -/
theorem checkRecord_ok_iff_rules {k : Kind} {data : Data} : checkRecord k data = .ok () ↔
    checkLedger k data = .ok () ∧
      (∀ f ∈ moneyFields k, valueAt f data = .null ∨ ∃ n, valueAt f data = .int n) ∧
        ∀ f ∈ dateFields k,
          valueAt f data = .null ∨ ∃ d : Date, valueAt f data = .str d.isoformat := by
  unfold checkRecord
  simp only [Lib.Fallible.then_ok_iff, checkAll_ok_iff, bad_money_eq_false, bad_date_eq_false]

theorem clearSynced_eq_self {data : Data} :
    clearSynced data = data ↔ ∀ v, ("synced_at", v) ∈ data → v = .null := by
  have hid : clearSynced data = data.map id ↔ ∀ v, ("synced_at", v) ∈ data → v = .null := by
    rw [clearSynced, List.map_inj_left]
    constructor
    · intro h v hv
      have hpair := h _ hv
      rw [if_pos rfl] at hpair
      exact (Prod.mk.inj hpair).2.symm
    · rintro h ⟨key, v⟩ hv
      by_cases hkey : key = "synced_at"
      · subst hkey
        rw [if_pos rfl, h v hv, id]
      · rw [if_neg hkey, id]
  rwa [List.map_id] at hid

theorem dataId_ne_empty {data : Data} :
    dataId data ≠ "" ↔ ∃ id, id ≠ "" ∧ valueAt "id" data = .str id := by
  constructor
  · exact fun h => ⟨_, h, valueAt_id h⟩
  · rintro ⟨id, hne, hid⟩
    rwa [dataId, hid]

/-- A record keeps the rules exactly when the parser admits it and hands it on as it is. -/
theorem fieldRules_iff : r.FieldRules ↔
    "kind" ∉ r.data.map Prod.fst ∧ r.Admissible ∧ r.received = r := by
  have hreceived : r.received = r ↔ clearSynced r.data = r.data := by
    obtain ⟨k, data⟩ := r
    simp [ExchangeRecord.received]
  rw [hreceived, clearSynced_eq_self, ExchangeRecord.Admissible, dataId_ne_empty,
    checkRecord_ok_iff_rules, checkLedger_ok_iff]
  constructor
  · intro h
    exact ⟨h.noKind, ⟨h.id, fun hk => ⟨h.required hk, h.seq hk, h.createdAt hk⟩, h.money, h.date⟩,
      h.syncedAt⟩
  · rintro ⟨hkind, ⟨hid, hledger, hmoney, hdate⟩, hsynced⟩
    exact ⟨hkind, hid, fun hk => (hledger hk).1, fun hk => (hledger hk).2.1,
      fun hk => (hledger hk).2.2, hmoney, hdate, hsynced⟩

/-! ## Headers -/

/-- What a header carries besides the counts and the digest. -/
structure Metadata where
  schemaVersion : String
  sourceDeviceId : Value
  generatedAt : String

/-- The metadata of an envelope. -/
def Envelope.metadata (e : Envelope) : Metadata :=
  ⟨e.schemaVersion, optStr e.sourceDeviceId, e.generatedAt⟩

/-- The header of a payload with these metadata. -/
def Metadata.header (m : Metadata) (sha256 : String → String) (records : List ExchangeRecord) :
    Data :=
  [("kind", .str "header"), ("format_version", .int formatVersion),
    ("schema_version", .str m.schemaVersion), ("source_device_id", m.sourceDeviceId),
    ("generated_at", .str m.generatedAt), ("counts", .obj (kindCounts records)),
    ("payload_sha256", .str (payloadDigest sha256 (records.map recordLine)))]

/-- `serialize_exchange`, for any source device. -/
def serialize (sha256 : String → String) (m : Metadata) (records : List ExchangeRecord) :
    List String :=
  dumps (.obj (m.header sha256 records)) :: records.map recordLine

theorem serialize_metadata (sha256 : String → String) (envelope : Envelope)
    (records : List ExchangeRecord) :
    serialize sha256 envelope.metadata records = serializeExchange sha256 envelope records :=
  rfl

/-- The kinds of the records, each where it first appears. -/
theorem keys_kindCounts : (kindCounts records).map Prod.fst =
    ((records.map ExchangeRecord.kind).reverse.dedup.reverse).map Kind.key := by
  rw [kindCounts, List.map_map]
  rfl

/-- The count of a kind is the number of its records; a kind with none is left out. -/
theorem lookup_kindCounts (k : Kind) : lookup k.key (kindCounts records) =
    if k ∈ records.map ExchangeRecord.kind then
      some (.int (records.countP fun r => r.kind = k)) else none := by
  have hinjective : Function.Injective Kind.key := fun _ _ => Kind.key_injective
  have hmem : k ∈ (records.map ExchangeRecord.kind).reverse.dedup.reverse ↔
      k ∈ records.map ExchangeRecord.kind := by
    rw [List.mem_reverse, List.mem_dedup, List.mem_reverse]
  have hcount : (records.map ExchangeRecord.kind).count k = records.countP fun r => r.kind = k := by
    rw [List.count, List.countP_map]
    rfl
  split_ifs with h
  · refine Lib.Json.lookup_of_mem ?_ (List.mem_map.mpr ⟨k, hmem.mpr h, by rw [hcount]⟩)
    rw [keys_kindCounts]
    exact (List.nodup_reverse.mpr (List.nodup_dedup _)).map hinjective
  · refine Lib.Json.lookup_eq_none ?_
    rw [keys_kindCounts, List.mem_map_of_injective hinjective, hmem]
    exact h

/-! ## Written records -/

/-- A written payload is read back as it was, and its header tells its records. -/
structure WrittenBack (sha256 : String → String) (m : Metadata) (records : List ExchangeRecord) :
    Prop where
  parsed : parseExchange (serialize sha256 m records) =
    .ok ⟨.int formatVersion, m.schemaVersion, m.sourceDeviceId, records⟩
  header : ∃ header counts first, (serialize sha256 m records).head? = some first ∧
    loads first = some (.obj header) ∧ valueAt "counts" header = .obj counts ∧
    (∀ k : Kind, lookup k.key counts = if k ∈ records.map ExchangeRecord.kind then
      some (.int (records.countP fun r => r.kind = k)) else none) ∧
    (∀ key ∈ counts.map Prod.fst, ∃ k : Kind, key = k.key) ∧
    valueAt "payload_sha256" header =
      .str (payloadDigest sha256 (serialize sha256 m records).tail)

theorem valueAt_header {sha256 : String → String} {m : Metadata} {field : String} {v : Value}
    (h : (field, v) ∈ m.header sha256 records) : valueAt field (m.header sha256 records) = v := by
  refine Lib.Json.valueAt_of_mem ?_ h
  have hkeys : (m.header sha256 records).map Prod.fst = ["kind", "format_version",
      "schema_version", "source_device_id", "generated_at", "counts", "payload_sha256"] := rfl
  rw [hkeys]
  decide

theorem written_back {sha256 : String → String} {m : Metadata}
    (hrules : ∀ r ∈ records, r.FieldRules) (hdistinct : (records.map ExchangeRecord.key).Nodup) :
    WrittenBack sha256 m records where
  parsed := by
    have hrules' := fun r hr => fieldRules_iff.mp (hrules r hr)
    have hparsed : parseRecords [] 1 (records.map recordLine) = .ok records := by
      refine (parseRecords_ok_iff (fun r hr => (hrules' r hr).1) [] 1).mpr ⟨fun r hr =>
        (hrules' r hr).2.1, hdistinct, fun _ _ => List.not_mem_nil, ?_⟩
      have hid : records.map ExchangeRecord.received = records.map id :=
        List.map_congr_left fun r hr => (hrules' r hr).2.2
      rw [hid, List.map_id]
    refine (parseHeader_cons_ok_iff (isBlank_dumps_obj _)).mpr ⟨_, parseObject_dumps 0 _, ?_,
      records, hparsed, ?_⟩
    · rw [headerOk, valueAt_header (v := .str "header") (by simp [Metadata.header]),
        valueAt_header (v := .int formatVersion) (by simp [Metadata.header])]
      rfl
    · rw [headerBatch, valueAt_header (v := .int formatVersion) (by simp [Metadata.header]),
        valueAt_header (v := .str m.schemaVersion) (by simp [Metadata.header]),
        valueAt_header (v := m.sourceDeviceId) (by simp [Metadata.header])]
  header := by
    refine ⟨m.header sha256 records, kindCounts records, _, rfl, Lib.Json.loads_dumps _,
      valueAt_header (by simp [Metadata.header]), lookup_kindCounts, ?_,
      valueAt_header (by simp [Metadata.header, serialize])⟩
    intro key hkey
    rw [keys_kindCounts] at hkey
    obtain ⟨k, -, rfl⟩ := List.mem_map.mp hkey
    exact ⟨k, rfl⟩

/-! ## Parsed records -/

/-- A parsed record as the program holds it. -/
def ExchangeRecord.held (r : ExchangeRecord) : ExchangeRecord := ⟨r.kind, dict (settlePairs r.data)⟩

/-- A parsed batch's own metadata. -/
def ExchangeBatch.metadata (batch : ExchangeBatch) (generatedAt : String) : Metadata :=
  ⟨batch.schemaVersion, Lib.Json.settle batch.sourceDeviceId, generatedAt⟩

end MyOriShop
