import Mathlib.Data.List.Dedup
import MyOriShop.Lib.Fallible
import MyOriShop.Lib.Lines
import MyOriShop.Models

/-!
# Exchange: the wire format (`app/services/merge.py`)

NDJSON: one object per line, the header first, every other line one record with its `kind`.

* `fields` and `toData` are the columns of each kind, as `KIND_TO_FIELDS` derives them from the
  models; a record's data is the dictionary of its columns, in a fixed order.
* `parseExchange` is `parse_exchange`, check by check. A `ParseError` names the message and what it
  is filled with; every one but `unhashable` is a `ValueError`.
* `serializeExchange` is `serialize_exchange`. The digest of `payload_sha256` is a parameter:
  whatever it is, nothing in the parser reads it.

Results:
* `checkRecord_toData`: a row's own record passes the record checks exactly when the row is
  `Acceptable`.
* `parseRecords_serialize`: acceptable rows with pairwise distinct ids, written out, are read back,
  with `synced_at` cleared.
-/

namespace MyOriShop

open Lib.Json (Value FloatLit valueAt lookup dumps loads)
open Lib.Text Lib.IsoDate

/-! ## Columns -/

/-- The dictionary of a record. -/
abbrev Data := List (String × Value)

/-- A nullable text column. -/
def optStr (s : Option String) : Value := s.elim .null .str

/-- A nullable integer column. -/
def optInt (n : Option Int) : Value := n.elim .null .int

/-- The columns of a kind. -/
def fields : Kind → List String
  | .warehouse => ["id", "name", "address", "currency", "created_at", "updated_at", "deleted_at"]
  | .product =>
    ["id", "code", "name", "category", "cost_cents", "sale_cents", "min_sale_cents",
      "cost_uah_cents", "sale_uah_cents", "min_sale_uah_cents", "cost_eur_cents",
      "sale_eur_cents", "min_sale_eur_cents", "low_stock_threshold", "stale_days", "name_lc",
      "quantity", "created_at", "updated_at", "deleted_at"]
  | .customer =>
    ["id", "name", "surname", "consultant_number", "address", "search_lc", "created_at",
      "updated_at"]
  | .dictionary =>
    ["id", "code", "name", "catalogs", "name_lc", "rubric", "created_at", "updated_at"]
  | .batch =>
    ["id", "product_id", "warehouse_id", "expiry", "price_cents", "cost_cents", "location",
      "comment", "name", "quantity", "is_legacy", "created_at", "updated_at"]
  | .sale => ["id", "customer_id", "created_at", "created_by", "author_id", "device_id"]
  | .operation =>
    ["id", "type", "product_id", "qty_delta", "unit_cost_cents", "unit_price_cents", "payload",
      "sale_id", "batch_id", "reverses_op_id", "author_id", "device_id", "seq", "created_at",
      "business_date", "created_by", "synced_at"]
  | .cashMovement =>
    ["id", "category", "amount_cents", "currency", "note", "sale_id", "reverses_movement_id",
      "author_id", "device_id", "seq", "created_at", "business_date", "created_by", "synced_at"]

/-- A row as the dictionary of its columns. -/
def toData : (k : Kind) → Row k → Data
  | .warehouse, (w : Warehouse) =>
    [("id", .str w.id), ("name", .str w.name), ("address", optStr w.address),
      ("currency", .str w.currency), ("created_at", .str w.createdAt),
      ("updated_at", .str w.updatedAt), ("deleted_at", optStr w.deletedAt)]
  | .product, (p : Product) =>
    [("id", .str p.id), ("code", optStr p.code), ("name", .str p.name),
      ("category", optStr p.category), ("cost_cents", optInt p.costCents),
      ("sale_cents", optInt p.saleCents), ("min_sale_cents", optInt p.minSaleCents),
      ("cost_uah_cents", optInt p.costUahCents), ("sale_uah_cents", optInt p.saleUahCents),
      ("min_sale_uah_cents", optInt p.minSaleUahCents), ("cost_eur_cents", optInt p.costEurCents),
      ("sale_eur_cents", optInt p.saleEurCents), ("min_sale_eur_cents", optInt p.minSaleEurCents),
      ("low_stock_threshold", optInt p.lowStockThreshold), ("stale_days", optInt p.staleDays),
      ("name_lc", optStr p.nameLc), ("quantity", .int p.quantity),
      ("created_at", .str p.createdAt), ("updated_at", .str p.updatedAt),
      ("deleted_at", optStr p.deletedAt)]
  | .customer, (c : Customer) =>
    [("id", .str c.id), ("name", .str c.name), ("surname", optStr c.surname),
      ("consultant_number", optStr c.consultantNumber), ("address", optStr c.address),
      ("search_lc", optStr c.searchLc), ("created_at", .str c.createdAt),
      ("updated_at", .str c.updatedAt)]
  | .dictionary, (e : Dictionary) =>
    [("id", .str e.id), ("code", .str e.code), ("name", .str e.name), ("catalogs", e.catalogs),
      ("name_lc", optStr e.nameLc), ("rubric", optStr e.rubric), ("created_at", .str e.createdAt),
      ("updated_at", .str e.updatedAt)]
  | .batch, (b : Batch) =>
    [("id", .str b.id), ("product_id", .str b.productId), ("warehouse_id", .str b.warehouseId),
      ("expiry", optStr b.expiry), ("price_cents", optInt b.priceCents),
      ("cost_cents", optInt b.costCents), ("location", optStr b.location),
      ("comment", optStr b.comment), ("name", optStr b.name), ("quantity", .int b.quantity),
      ("is_legacy", .int b.isLegacy), ("created_at", .str b.createdAt),
      ("updated_at", .str b.updatedAt)]
  | .sale, (s : Sale) =>
    [("id", .str s.id), ("customer_id", optStr s.customerId), ("created_at", .str s.createdAt),
      ("created_by", .str s.createdBy), ("author_id", optStr s.authorId),
      ("device_id", optStr s.deviceId)]
  | .operation, (o : Operation) =>
    [("id", .str o.id), ("type", .str o.type), ("product_id", .str o.productId),
      ("qty_delta", .int o.qtyDelta), ("unit_cost_cents", optInt o.unitCostCents),
      ("unit_price_cents", optInt o.unitPriceCents), ("payload", o.payload),
      ("sale_id", optStr o.saleId), ("batch_id", optStr o.batchId),
      ("reverses_op_id", optStr o.reversesOpId), ("author_id", optStr o.authorId),
      ("device_id", .str o.deviceId), ("seq", .int o.seq), ("created_at", .str o.createdAt),
      ("business_date", optStr o.businessDate), ("created_by", .str o.createdBy),
      ("synced_at", optStr o.syncedAt)]
  | .cashMovement, (m : CashMovement) =>
    [("id", .str m.id), ("category", .str m.category), ("amount_cents", .int m.amountCents),
      ("currency", .str m.currency), ("note", optStr m.note), ("sale_id", optStr m.saleId),
      ("reverses_movement_id", optStr m.reversesMovementId), ("author_id", optStr m.authorId),
      ("device_id", .str m.deviceId), ("seq", .int m.seq), ("created_at", .str m.createdAt),
      ("business_date", optStr m.businessDate), ("created_by", .str m.createdBy),
      ("synced_at", optStr m.syncedAt)]

theorem toData_keys (k : Kind) (r : Row k) : (toData k r).map Prod.fst = fields k := by
  cases k <;> rfl

theorem fields_nodup (k : Kind) : (fields k).Nodup := by cases k <;> simp [fields]

theorem valueAt_toData {k : Kind} {r : Row k} {field : String} {v : Value}
    (h : (field, v) ∈ toData k r) : valueAt field (toData k r) = v :=
  Lib.Json.valueAt_of_mem (by rw [toData_keys]; exact fields_nodup k) h

theorem lookup_toData {k : Kind} {r : Row k} {field : String} (h : field ∉ fields k) :
    lookup field (toData k r) = none :=
  Lib.Json.lookup_eq_none (by rwa [toData_keys])

/-! ## Records -/

/-- One wire record: its kind and the dictionary of its columns. -/
structure ExchangeRecord where
  kind : Kind
  data : Data

/-- A parsed exchange payload. -/
structure ExchangeBatch where
  formatVersion : Value
  schemaVersion : String
  sourceDeviceId : Value
  records : List ExchangeRecord

/-- The id of a record's data. -/
def dataId (data : Data) : String :=
  match valueAt "id" data with
  | .str id => id
  | _ => ""

/-- The identity the parser tells records apart by. -/
def ExchangeRecord.key (r : ExchangeRecord) : Kind × String := (r.kind, dataId r.data)

/-- `_LEDGER_KINDS`. -/
def Kind.isLedger : Kind → Bool
  | .operation | .cashMovement => true
  | .warehouse | .product | .customer | .dictionary | .batch | .sale => false

/-- The kind a discriminator names. -/
def Kind.ofKey (key : String) : Option Kind := Kind.all.find? fun k => k.key = key

theorem Kind.ofKey_key (k : Kind) : Kind.ofKey k.key = some k := by
  cases k <;> simp [Kind.ofKey, Kind.all, Kind.key]

/-- Why a payload is refused. -/
inductive ParseError where
  /-- `malformed NDJSON line: {index}`. -/
  | malformedLine (index : Nat)
  /-- `malformed NDJSON line: {index} (not a JSON object)`. -/
  | notAnObject (index : Nat)
  /-- `missing header: first line must be a header record`. -/
  | missingHeader
  /-- `missing header: empty or headerless batch`. -/
  | emptyBatch
  /-- `unsupported format_version: {version!r}`. -/
  | formatVersion (version : Value)
  /-- `duplicate header record`. -/
  | duplicateHeader
  /-- `unknown record kind: {kind!r}`. -/
  | unknownKind (kind : Value)
  /-- A list or a dictionary as the kind: a `TypeError` of the set it is looked up in. -/
  | unhashable
  /-- `{kind} record missing a non-empty string id`. -/
  | missingId (kind : Kind)
  /-- `duplicate {kind} record id: {id!r}`. -/
  | duplicateId (kind : Kind) (id : String)
  /-- `{kind} record missing required field {field!r}`. -/
  | missingField (kind : Kind) (field : String)
  /-- `{kind} record seq must be an integer`. -/
  | seqNotInteger (kind : Kind)
  /-- `timestamp field {field!r} must be an ISO-8601 timestamp`. -/
  | timestamp (field : String)
  /-- `money field {field!r} must be int cents`. -/
  | money (field : String)
  /-- `date field {field!r} must be an ISO yyyy-mm-dd string`. -/
  | date (field : String)

/-! ## The checks of a record -/

/-- `value is None`. -/
def isNull : Value → Bool
  | .null => true
  | _ => false

/-- `isinstance(value, int)` and not a bool. -/
def isInt : Value → Bool
  | .int _ => true
  | _ => false

/-- `_is_iso_date`: the text is the canonical one of the day it reads as. -/
def isIsoDate (s : String) : Bool := (Date.fromIso s).any fun d => d.isoformat = s

/-- `_is_iso_timestamp` of a string. -/
def isIsoTimestamp (s : String) : Bool :=
  match s.toList.drop 10 with
  | [] => false
  | sep :: rest =>
    (sep = 'T' || sep = ' ') && isIsoDate (String.ofList (s.toList.take 10)) && isTimeAndZone rest

/-- A check that only a string can pass. -/
def isStr (p : String → Bool) : Value → Bool
  | .str s => p s
  | _ => false

/-- `_LEDGER_REQUIRED`. -/
def ledgerRequired : List String := ["device_id", "seq", "created_at", "created_by"]

/-- `_money_fields`. -/
def moneyFields (k : Kind) : List String :=
  (fields k).filter fun f => "_cents".toList.isSuffixOf f.toList

/-- `_date_fields`. -/
def dateFields (k : Kind) : List String :=
  (fields k).filter fun f => f = "business_date" || f = "expiry"

/-- The first of the fields whose value is bad is an error. -/
def checkAll (names : List String) (bad : Value → Bool) (error : String → ParseError)
    (data : Data) : Except ParseError Unit :=
  match names.find? fun f => bad (valueAt f data) with
  | some f => .error (error f)
  | none => .ok ()

/-- The provenance checks of a ledger record. -/
def checkLedger (k : Kind) (data : Data) : Except ParseError Unit :=
  if k.isLedger then do
    checkAll ledgerRequired isNull (.missingField k) data
    checkAll ["seq"] (fun v => !isInt v) (fun _ => .seqNotInteger k) data
    checkAll ["created_at"] (fun v => !isStr isIsoTimestamp v) .timestamp data
  else .ok ()

/-- The column rules of a record. -/
def checkRecord (k : Kind) (data : Data) : Except ParseError Unit := do
  checkLedger k data
  checkAll (moneyFields k) (fun v => !isNull v && !isInt v) .money data
  checkAll (dateFields k) (fun v => !isNull v && !isStr isIsoDate v) .date data

/-! ## The parser -/

/-- A line as an object. -/
def parseObject (index : Nat) (raw : String) : Except ParseError Data :=
  match loads raw with
  | none => .error (.malformedLine index)
  | some (.obj pairs) => .ok pairs
  | some _ => .error (.notAnObject index)

/-- The kind of a record line. -/
def recordKind (kind : Value) : Except ParseError Kind :=
  match kind with
  | .str s =>
    if s = "header" then .error .duplicateHeader
    else match Kind.ofKey s with
      | some k => .ok k
      | none => .error (.unknownKind kind)
  | .arr _ | .obj _ => .error .unhashable
  | _ => .error (.unknownKind kind)

/-- `synced_at` is the server's own: a present one is cleared. -/
def clearSynced (data : Data) : Data :=
  data.map fun kv => if kv.1 = "synced_at" then (kv.1, .null) else kv

/-- A record's identity and column rules, given the identities before it. -/
def admitRecord (seen : List (Kind × String)) (k : Kind) (data : Data) :
    Except ParseError ExchangeRecord :=
  match valueAt "id" data with
  | .str id =>
    if id = "" then .error (.missingId k)
    else if (k, id) ∈ seen then .error (.duplicateId k id)
    else do
      checkRecord k data
      return ⟨k, clearSynced data⟩
  | _ => .error (.missingId k)

/-- One record line. -/
def parseRecord (seen : List (Kind × String)) (obj : Data) : Except ParseError ExchangeRecord := do
  let k ← recordKind (valueAt "kind" obj)
  admitRecord seen k (obj.filter fun kv => kv.1 ≠ "kind")

/-- The record lines, from line `index` on. -/
def parseRecords (seen : List (Kind × String)) (index : Nat) :
    List String → Except ParseError (List ExchangeRecord)
  | [] => .ok []
  | raw :: rest =>
    if isBlank raw then parseRecords seen (index + 1) rest
    else do
      let obj ← parseObject index raw
      let record ← parseRecord seen obj
      let records ← parseRecords (record.key :: seen) (index + 1) rest
      return record :: records

/-- `FORMAT_VERSION`. -/
def formatVersion : Int := 1

/-- The literal reads as the floating point number 1: it rounds to it. -/
def floatIsOne (lit : FloatLit) : Bool :=
  match parseDecimal lit.chars with
  | some (false, coefficient, .ofNat k) => coefficient = 1 && k = 0
  | some (false, coefficient, .negSucc k) =>
    let scale := 10 ^ (k + 1)
    k + 1 ≤ (Nat.toDigits 10 coefficient).length &&
      (2 ^ 54 - 1) * scale ≤ 2 ^ 54 * coefficient && 2 ^ 53 * coefficient ≤ (2 ^ 53 + 1) * scale
  | _ => false

/-- `version == FORMAT_VERSION`; true and a float 1 are equal to 1, too. -/
def isFormatVersion : Value → Bool
  | .int n => n = formatVersion
  | .bool b => b
  | .float lit => floatIsOne lit
  | _ => false

/-- The batch of an accepted header. -/
def headerBatch (header : Data) (records : List ExchangeRecord) : ExchangeBatch where
  formatVersion := valueAt "format_version" header
  schemaVersion := match valueAt "schema_version" header with
    | .str s => s
    | _ => ""
  sourceDeviceId := valueAt "source_device_id" header
  records := records

/-- The header's checks and then the records on the lines after it. -/
def parseBody (index : Nat) (rest : List String) (header : Data) :
    Except ParseError ExchangeBatch :=
  if isStr (· = "header") (valueAt "kind" header) then
    if isFormatVersion (valueAt "format_version" header) then do
      let records ← parseRecords [] (index + 1) rest
      return headerBatch header records
    else .error (.formatVersion (valueAt "format_version" header))
  else .error .missingHeader

/-- The lines up to and with the header, from line `index` on, and then the records. -/
def parseHeader (index : Nat) : List String → Except ParseError ExchangeBatch
  | [] => .error .emptyBatch
  | raw :: rest =>
    if isBlank raw then parseHeader (index + 1) rest
    else do
      let header ← parseObject index raw
      parseBody index rest header

/-- `parse_exchange`. -/
def parseExchange (lines : List String) : Except ParseError ExchangeBatch := parseHeader 0 lines

/-! ## The writer -/

/-- The line of a record. -/
def recordLine (r : ExchangeRecord) : String := dumps (.obj (("kind", .str r.kind.key) :: r.data))

/-- `payload_digest`, over a digest of one text. -/
def payloadDigest (sha256 : String → String) (recordLines : List String) : String :=
  sha256 (Lib.Lines.join recordLines)

/-- The record counts by kind, in the order the kinds first appear. -/
def kindCounts (records : List ExchangeRecord) : Data :=
  let kinds := records.map ExchangeRecord.kind
  kinds.reverse.dedup.reverse.map fun k => (k.key, .int (kinds.count k))

/-- What the header line carries besides the counts and the digest. -/
structure Envelope where
  schemaVersion : String
  sourceDeviceId : Option String
  generatedAt : String

/-- The header of a payload. -/
def headerData (sha256 : String → String) (envelope : Envelope) (records : List ExchangeRecord) :
    Data :=
  [("kind", .str "header"), ("format_version", .int formatVersion),
    ("schema_version", .str envelope.schemaVersion),
    ("source_device_id", optStr envelope.sourceDeviceId),
    ("generated_at", .str envelope.generatedAt), ("counts", .obj (kindCounts records)),
    ("payload_sha256", .str (payloadDigest sha256 (records.map recordLine)))]

/-- `serialize_exchange`. -/
def serializeExchange (sha256 : String → String) (envelope : Envelope)
    (records : List ExchangeRecord) : List String :=
  dumps (.obj (headerData sha256 envelope records)) :: records.map recordLine

/-- A row as a record. -/
def rowRecord (k : Kind) (r : Row k) : ExchangeRecord := ⟨k, toData k r⟩

/-! ## Reading back what was written -/

theorem Kind.key_ne_header (k : Kind) : k.key ≠ "header" := by cases k <;> simp [Kind.key]

theorem isBlank_dumps_obj (pairs : Data) : isBlank (dumps (.obj pairs)) = false := by
  refine not_isBlank_of_mem (c := '\x7b') ?_ (by decide)
  simp [dumps, Lib.Json.dumpChars]

theorem parseObject_dumps (index : Nat) (pairs : Data) :
    parseObject index (dumps (.obj pairs)) = .ok pairs := by
  rw [parseObject, Lib.Json.loads_dumps]

theorem get_cons_self {key : String} {v : Value} {data : Data} (h : key ∉ data.map Prod.fst) :
    valueAt key ((key, v) :: data) = v := by
  rw [valueAt, Lib.Json.lookup_cons, Lib.Json.lookup_eq_none h]
  simp

theorem filter_key_ne {key : String} {data : Data} (h : key ∉ data.map Prod.fst) :
    (data.filter fun kv => kv.1 ≠ key) = data := by
  refine List.filter_eq_self.mpr fun kv hkv => ?_
  simpa using fun heq => h (List.mem_map.mpr ⟨kv, hkv, heq⟩)

theorem lookup_clearSynced {key : String} (h : key ≠ "synced_at") (data : Data) :
    lookup key (clearSynced data) = lookup key data := by
  induction data with
  | nil => rfl
  | cons kv data ih =>
    obtain ⟨k, v⟩ := kv
    have hcons : clearSynced ((k, v) :: data) =
        (k, if k = "synced_at" then .null else v) :: clearSynced data := by
      simp only [clearSynced, List.map_cons]
      split_ifs <;> rfl
    rw [hcons, Lib.Json.lookup_cons, Lib.Json.lookup_cons, ih]
    by_cases hk : k = key
    · subst hk
      simp [h]
    · simp [hk]

theorem dataId_clearSynced (data : Data) : dataId (clearSynced data) = dataId data := by
  rw [dataId, dataId, valueAt, valueAt, lookup_clearSynced (by simp)]

/-- A record the parser admits wherever its identity is new. -/
def ExchangeRecord.Admissible (r : ExchangeRecord) : Prop :=
  dataId r.data ≠ "" ∧ checkRecord r.kind r.data = .ok ()

/-- The record as the parser hands it on. -/
def ExchangeRecord.received (r : ExchangeRecord) : ExchangeRecord := ⟨r.kind, clearSynced r.data⟩

theorem ExchangeRecord.key_received (r : ExchangeRecord) : r.received.key = r.key := by
  rw [key, key, received, dataId_clearSynced]

theorem admitRecord_ok_iff {seen : List (Kind × String)} {k : Kind} {data : Data}
    {out : ExchangeRecord} : admitRecord seen k data = .ok out ↔
      (ExchangeRecord.mk k data).Admissible ∧ (k, dataId data) ∉ seen ∧
        out = (ExchangeRecord.mk k data).received := by
  unfold admitRecord ExchangeRecord.Admissible dataId
  cases hid : valueAt "id" data with
  | str id =>
    dsimp only
    split_ifs with hempty hseen
    · simp [hempty]
    · simp [hseen]
    · rw [Lib.Fallible.bind_ok_iff]
      constructor
      · rintro ⟨_, hcheck, hout⟩
        cases hout
        exact ⟨⟨hempty, hcheck⟩, hseen, rfl⟩
      · rintro ⟨⟨-, hcheck⟩, -, rfl⟩
        exact ⟨(), hcheck, rfl⟩
  | null | bool | int | float | arr | obj => simp

/-- A record line as a record, before any of its checks. -/
def readRecord (raw : String) : Option ExchangeRecord :=
  match loads raw with
  | some (.obj pairs) =>
    match recordKind (valueAt "kind" pairs) with
    | .ok k => some ⟨k, pairs.filter fun kv => kv.1 ≠ "kind"⟩
    | .error _ => none
  | _ => none

/-- The lines that are not blank. -/
def written (lines : List String) : List String := lines.filter fun raw => !isBlank raw

theorem parseLine_ok_iff (seen : List (Kind × String)) (index : Nat) {raw : String}
    {out : ExchangeRecord} :
    (∃ obj, parseObject index raw = .ok obj ∧ parseRecord seen obj = .ok out) ↔
      ∃ r, readRecord raw = some r ∧ r.Admissible ∧ r.key ∉ seen ∧ out = r.received := by
  have hnone : readRecord raw = none →
      ¬∃ r, readRecord raw = some r ∧ r.Admissible ∧ r.key ∉ seen ∧ out = r.received := by
    rintro hn ⟨r, hr, -⟩
    rw [hn] at hr
    cases hr
  cases hloads : loads raw with
  | none =>
    refine iff_of_false ?_ (hnone (by rw [readRecord, hloads]))
    rintro ⟨obj, hobj, -⟩
    rw [parseObject, hloads] at hobj
    cases hobj
  | some v =>
    cases v with
    | obj pairs =>
      rw [parseObject, hloads]
      cases hkind : recordKind (valueAt "kind" pairs) with
      | error e =>
        refine iff_of_false ?_ (hnone (by simp only [readRecord, hloads, hkind]))
        rintro ⟨obj, hobj, hrecord⟩
        cases hobj
        rw [parseRecord, hkind] at hrecord
        cases hrecord
      | ok k =>
        have hread : readRecord raw = some ⟨k, pairs.filter fun kv => kv.1 ≠ "kind"⟩ := by
          simp only [readRecord, hloads, hkind]
        rw [hread]
        constructor
        · rintro ⟨obj, hobj, hrecord⟩
          cases hobj
          rw [parseRecord, hkind] at hrecord
          obtain ⟨hadm, hseen, rfl⟩ := admitRecord_ok_iff.mp hrecord
          exact ⟨_, rfl, hadm, hseen, rfl⟩
        · rintro ⟨r, hr, hadm, hseen, rfl⟩
          cases hr
          refine ⟨pairs, rfl, ?_⟩
          rw [parseRecord, hkind]
          exact admitRecord_ok_iff.mpr ⟨hadm, hseen, rfl⟩
    | null | bool | int | float | str | arr =>
      refine iff_of_false ?_ (hnone (by rw [readRecord, hloads]))
      rintro ⟨obj, hobj, -⟩
      rw [parseObject, hloads] at hobj
      cases hobj

/-- **What the parser accepts**: every written line is a record, each record is admissible, and
their identities are pairwise distinct; they come back with `synced_at` cleared. -/
theorem parseRecords_ok_iff_read {lines : List String} {out : List ExchangeRecord}
    (seen : List (Kind × String)) (index : Nat) : parseRecords seen index lines = .ok out ↔
      ∃ records : List ExchangeRecord, (written lines).map readRecord = records.map some ∧
        (∀ r ∈ records, r.Admissible) ∧ (records.map ExchangeRecord.key).Nodup ∧
        (∀ r ∈ records, r.key ∉ seen) ∧ out = records.map ExchangeRecord.received := by
  induction lines generalizing seen index out with
  | nil =>
    constructor
    · intro h
      cases h
      exact ⟨[], rfl, by simp, by simp, by simp, rfl⟩
    · rintro ⟨records, hread, -, -, -, rfl⟩
      cases List.map_eq_nil_iff.mp hread.symm
      rfl
  | cons raw lines ih =>
    rw [parseRecords]
    by_cases hblank : isBlank raw = true
    · rw [if_pos hblank, ih, written, written, List.filter_cons_of_neg (by simp [hblank])]
    · have hwritten : written (raw :: lines) = raw :: written lines :=
        List.filter_cons_of_pos (by simp [hblank])
      rw [if_neg hblank, hwritten, List.map_cons]
      constructor
      · intro h
        obtain ⟨obj, hobj, h⟩ := Lib.Fallible.bind_ok_iff.mp h
        obtain ⟨first, hfirst, h⟩ := Lib.Fallible.bind_ok_iff.mp h
        obtain ⟨rest, hrest, h⟩ := Lib.Fallible.bind_ok_iff.mp h
        cases h
        obtain ⟨r, hr, hadm, hseen, rfl⟩ := (parseLine_ok_iff _ _).mp ⟨obj, hobj, hfirst⟩
        obtain ⟨records, hread, hadms, hnodup, hnew, rfl⟩ := (ih _ _).mp hrest
        refine ⟨r :: records, by rw [hr, hread, List.map_cons], ?_, ?_, ?_, rfl⟩
        · exact List.forall_mem_cons.mpr ⟨hadm, hadms⟩
        · refine List.nodup_cons.mpr ⟨fun hmem => ?_, hnodup⟩
          obtain ⟨r', hr', heq⟩ := List.mem_map.mp hmem
          exact hnew r' hr' (heq ▸ (ExchangeRecord.key_received r) ▸ List.mem_cons_self)
        · exact List.forall_mem_cons.mpr
            ⟨hseen, fun r' hr' hmem => hnew r' hr' (List.mem_cons_of_mem _ hmem)⟩
      · rintro ⟨records, hread, hadms, hnodup, hnew, rfl⟩
        cases records with
        | nil => cases hread
        | cons r records =>
          obtain ⟨hr, hread⟩ := List.cons.inj hread
          obtain ⟨hhead, htail⟩ := List.nodup_cons.mp hnodup
          obtain ⟨obj, hobj, hfirst⟩ := (parseLine_ok_iff seen index).mpr
            ⟨r, hr, hadms r List.mem_cons_self, hnew r List.mem_cons_self, rfl⟩
          refine Lib.Fallible.bind_ok_iff.mpr ⟨obj, hobj, Lib.Fallible.bind_ok_iff.mpr
            ⟨_, hfirst, Lib.Fallible.bind_ok_iff.mpr ⟨records.map ExchangeRecord.received, ?_, rfl⟩⟩⟩
          refine (ih _ _).mpr ⟨records, hread, fun r' hr' => hadms r' (List.mem_cons_of_mem _ hr'),
            htail, fun r' hr' hmem => ?_, rfl⟩
          rcases List.mem_cons.mp hmem with heq | hseen
          · rw [ExchangeRecord.key_received] at heq
            exact hhead (List.mem_map.mpr ⟨r', hr', heq⟩)
          · exact hnew r' (List.mem_cons_of_mem _ hr') hseen

theorem readRecord_recordLine {r : ExchangeRecord} (hkind : "kind" ∉ r.data.map Prod.fst) :
    readRecord (recordLine r) = some r := by
  have hfilter : (("kind", Value.str r.kind.key) :: r.data).filter (fun kv => kv.1 ≠ "kind") =
      r.data := by
    rw [List.filter_cons_of_neg (by simp), filter_key_ne hkind]
  have hrecord : recordKind (valueAt "kind" (("kind", Value.str r.kind.key) :: r.data)) =
      .ok r.kind := by
    rw [get_cons_self hkind, recordKind, if_neg r.kind.key_ne_header, Kind.ofKey_key]
  simp only [readRecord, recordLine, Lib.Json.loads_dumps, hrecord, hfilter]

/-- **Written records are read back**: exactly when each is admissible and their identities are
pairwise distinct, and then they come back with `synced_at` cleared. -/
theorem parseRecords_ok_iff {records out : List ExchangeRecord}
    (hkind : ∀ r ∈ records, "kind" ∉ r.data.map Prod.fst) (seen : List (Kind × String))
    (index : Nat) : parseRecords seen index (records.map recordLine) = .ok out ↔
      (∀ r ∈ records, r.Admissible) ∧ (records.map ExchangeRecord.key).Nodup ∧
        (∀ r ∈ records, r.key ∉ seen) ∧ out = records.map ExchangeRecord.received := by
  have hwritten : written (records.map recordLine) = records.map recordLine := by
    refine List.filter_eq_self.mpr fun raw hraw => ?_
    obtain ⟨r, -, rfl⟩ := List.mem_map.mp hraw
    rw [recordLine, isBlank_dumps_obj]
    rfl
  have hread : (written (records.map recordLine)).map readRecord = records.map some := by
    rw [hwritten, List.map_map]
    exact List.map_congr_left fun r hr => readRecord_recordLine (hkind r hr)
  rw [parseRecords_ok_iff_read, hread]
  constructor
  · rintro ⟨records', heq, h⟩
    cases List.map_injective_iff.mpr (Option.some_injective _) heq
    exact h
  · exact fun h => ⟨records, rfl, h⟩

/-! ## Accepted batches -/

/-- The records of an accepted batch have ids, and no two of a kind have the same one. -/
structure Accepted (records : List ExchangeRecord) : Prop where
  id : ∀ r ∈ records, dataId r.data ≠ ""
  nodup : (records.map ExchangeRecord.key).Nodup

theorem Accepted.perm {records records' : List ExchangeRecord} (h : Accepted records)
    (hperm : records.Perm records') : Accepted records' where
  id r hr := h.id r (hperm.mem_iff.mpr hr)
  nodup := (hperm.map ExchangeRecord.key).nodup_iff.mp h.nodup

/-- A record with an id has a string for it. -/
theorem valueAt_id {data : Data} (h : dataId data ≠ "") : valueAt "id" data = .str (dataId data) := by
  unfold dataId at h ⊢
  cases hv : valueAt "id" data with
  | str s => rfl
  | null | bool | int | float | arr | obj =>
    rw [hv] at h
    exact absurd rfl h

theorem parseRecords_accepted {lines : List String} {records : List ExchangeRecord} {index : Nat}
    (h : parseRecords [] index lines = .ok records) : Accepted records := by
  obtain ⟨raws, -, hadm, hnodup, -, rfl⟩ := (parseRecords_ok_iff_read [] index).mp h
  refine ⟨fun r hr => ?_, ?_⟩
  · obtain ⟨raw, hraw, rfl⟩ := List.mem_map.mp hr
    rw [ExchangeRecord.received, dataId_clearSynced]
    exact (hadm raw hraw).1
  · rw [List.map_map]
    rwa [show ExchangeRecord.key ∘ ExchangeRecord.received = ExchangeRecord.key from
      funext ExchangeRecord.key_received]

/-- The two header checks. -/
def headerOk (header : Data) : Bool :=
  isStr (· = "header") (valueAt "kind" header) && isFormatVersion (valueAt "format_version" header)

theorem parseBody_ok_iff {index : Nat} {rest : List String} {header : Data}
    {batch : ExchangeBatch} : parseBody index rest header = .ok batch ↔
      headerOk header = true ∧ ∃ records, parseRecords [] (index + 1) rest = .ok records ∧
        batch = headerBatch header records := by
  unfold parseBody headerOk
  rw [Bool.and_eq_true]
  split_ifs with hkind hversion
  · rw [Lib.Fallible.bind_ok_iff]
    constructor
    · rintro ⟨records, hrecords, h⟩
      cases h
      exact ⟨⟨hkind, hversion⟩, records, hrecords, rfl⟩
    · rintro ⟨-, records, hrecords, rfl⟩
      exact ⟨records, hrecords, rfl⟩
  · exact iff_of_false (fun h => nomatch h) fun h => hversion h.1.2
  · exact iff_of_false (fun h => nomatch h) fun h => hkind h.1.1

theorem parseHeader_cons_ok_iff {index : Nat} {raw : String} {rest : List String}
    {batch : ExchangeBatch} (hraw : isBlank raw = false) :
    parseHeader index (raw :: rest) = .ok batch ↔ ∃ header, parseObject index raw = .ok header ∧
      headerOk header = true ∧ ∃ records, parseRecords [] (index + 1) rest = .ok records ∧
        batch = headerBatch header records := by
  rw [parseHeader, if_neg (by simp [hraw]), Lib.Fallible.bind_ok_iff]
  simp only [parseBody_ok_iff]

/-- The records of an accepted payload are read from the lines after its header. -/
theorem parseExchange_records {lines : List String} {batch : ExchangeBatch}
    (h : parseExchange lines = .ok batch) :
    ∃ index rest, parseRecords [] index rest = .ok batch.records := by
  suffices hgen : ∀ index, parseHeader index lines = .ok batch →
      ∃ index rest, parseRecords [] index rest = .ok batch.records from hgen 0 h
  clear h
  induction lines with
  | nil => exact fun index h => nomatch h
  | cons raw rest ih =>
    intro index h
    cases hraw : isBlank raw with
    | true =>
      rw [parseHeader, if_pos hraw] at h
      exact ih _ h
    | false =>
      obtain ⟨header, -, -, records, hrecords, rfl⟩ := (parseHeader_cons_ok_iff hraw).mp h
      exact ⟨_, _, hrecords⟩

/-- **An accepted payload** has accepted records. -/
theorem parseExchange_accepted {lines : List String} {batch : ExchangeBatch}
    (h : parseExchange lines = .ok batch) : Accepted batch.records := by
  obtain ⟨index, rest, hrecords⟩ := parseExchange_records h
  exact parseRecords_accepted hrecords

/-- Every record of an accepted payload has passed the record checks. -/
theorem parseExchange_admissible {lines : List String} {batch : ExchangeBatch}
    (h : parseExchange lines = .ok batch) {r : ExchangeRecord} (hr : r ∈ batch.records) :
    ∃ r' : ExchangeRecord, r'.Admissible ∧ r = r'.received := by
  obtain ⟨index, rest, hrecords⟩ := parseExchange_records h
  obtain ⟨raws, -, hadm, -, -, hout⟩ := (parseRecords_ok_iff_read [] index).mp hrecords
  rw [hout] at hr
  obtain ⟨r', hr', rfl⟩ := List.mem_map.mp hr
  exact ⟨r', hadm r' hr', rfl⟩

/-! ## The round trip of a payload -/

theorem parseHeader_serialize (sha256 : String → String) (envelope : Envelope)
    (records : List ExchangeRecord) :
    parseExchange (serializeExchange sha256 envelope records) = (do
      let out ← parseRecords [] 1 (records.map recordLine)
      return headerBatch (headerData sha256 envelope records) out) := by
  have hkind : valueAt "kind" (headerData sha256 envelope records) = .str "header" := by
    simp [valueAt, lookup, headerData]
  have hversion : valueAt "format_version" (headerData sha256 envelope records) = .int 1 := by
    simp [valueAt, lookup, headerData, formatVersion]
  rw [parseExchange, serializeExchange, parseHeader, isBlank_dumps_obj, parseObject_dumps]
  show parseBody 0 (records.map recordLine) (headerData sha256 envelope records) = _
  rw [parseBody, hkind, hversion]
  rfl

/-- **Round trip of the exchange**: a written batch is accepted exactly when its records are
admissible and pairwise distinct, and then its records come back. -/
theorem parseExchange_serialize {sha256 : String → String} {envelope : Envelope}
    {records : List ExchangeRecord} (hkind : ∀ r ∈ records, "kind" ∉ r.data.map Prod.fst) :
    (∃ batch, parseExchange (serializeExchange sha256 envelope records) = .ok batch) ↔
      (∀ r ∈ records, r.Admissible) ∧ (records.map ExchangeRecord.key).Nodup := by
  rw [parseHeader_serialize]
  constructor
  · rintro ⟨batch, h⟩
    obtain ⟨out, hout, -⟩ := Lib.Fallible.bind_ok_iff.mp h
    obtain ⟨hadm, hnodup, -, -⟩ := (parseRecords_ok_iff hkind [] 1).mp hout
    exact ⟨hadm, hnodup⟩
  · rintro ⟨hadm, hnodup⟩
    exact ⟨_, Lib.Fallible.bind_ok_iff.mpr ⟨_, (parseRecords_ok_iff hkind [] 1).mpr
      ⟨hadm, hnodup, fun _ _ => List.not_mem_nil, rfl⟩, rfl⟩⟩

theorem parseExchange_serialize_records {sha256 : String → String} {envelope : Envelope}
    {records : List ExchangeRecord} (hkind : ∀ r ∈ records, "kind" ∉ r.data.map Prod.fst)
    {batch : ExchangeBatch}
    (h : parseExchange (serializeExchange sha256 envelope records) = .ok batch) :
    batch.records = records.map ExchangeRecord.received := by
  rw [parseHeader_serialize] at h
  obtain ⟨out, hout, hbatch⟩ := Lib.Fallible.bind_ok_iff.mp h
  cases hbatch
  exact ((parseRecords_ok_iff hkind [] 1).mp hout).2.2.2

/-- A payload of one record that passes the record checks. -/
theorem parseExchange_single (sha256 : String → String) (envelope : Envelope) {r : ExchangeRecord}
    (hkind : "kind" ∉ r.data.map Prod.fst) (hid : dataId r.data ≠ "")
    (hcheck : (checkRecord r.kind r.data).isOk = true) :
    ∃ batch, parseExchange (serializeExchange sha256 envelope [r]) = .ok batch ∧
      batch.records = [r.received] := by
  have hkinds : ∀ r' ∈ [r], "kind" ∉ r'.data.map Prod.fst := by
    rwa [List.forall_mem_singleton]
  have hadm : ∀ r' ∈ [r], r'.Admissible := by
    rw [List.forall_mem_singleton]
    refine ⟨hid, ?_⟩
    cases hresult : checkRecord r.kind r.data with
    | ok => rfl
    | error e =>
      rw [hresult] at hcheck
      cases hcheck
  obtain ⟨batch, hbatch⟩ := (@parseExchange_serialize sha256 envelope [r] hkinds).mpr
    ⟨hadm, List.nodup_singleton _⟩
  exact ⟨batch, hbatch, parseExchange_serialize_records hkinds hbatch⟩

/-! ## A row's own record -/

theorem checkAll_ok_iff {names : List String} {bad : Value → Bool} {error : String → ParseError}
    {data : Data} :
    checkAll names bad error data = .ok () ↔ ∀ f ∈ names, bad (valueAt f data) = false := by
  unfold checkAll
  split
  · next f hf =>
    simp only [reduceCtorEq, false_iff, not_forall]
    exact ⟨f, List.mem_of_find?_eq_some hf, by simpa using List.find?_some hf⟩
  · next hnone =>
    simp only [true_iff]
    intro f hf
    simpa using List.find?_eq_none.mp hnone f hf

@[simp] theorem isNumber_optInt (n : Option Int) :
    (isNull (optInt n) || isInt (optInt n)) = true := by
  cases n <;> rfl

theorem moneyFields_product : moneyFields .product =
    ["cost_cents", "sale_cents", "min_sale_cents", "cost_uah_cents", "sale_uah_cents",
      "min_sale_uah_cents", "cost_eur_cents", "sale_eur_cents", "min_sale_eur_cents"] := by
  rfl

theorem moneyFields_batch : moneyFields .batch = ["price_cents", "cost_cents"] := by
  rfl

theorem moneyFields_operation :
    moneyFields .operation = ["unit_cost_cents", "unit_price_cents"] := by
  rfl

theorem moneyFields_cashMovement : moneyFields .cashMovement = ["amount_cents"] := by
  rfl

theorem moneyFields_other {k : Kind} (h : k ∈ [Kind.warehouse, .customer, .dictionary, .sale]) :
    moneyFields k = [] := by
  simp only [List.mem_cons, List.not_mem_nil, or_false] at h
  rcases h with rfl | rfl | rfl | rfl <;> rfl

/-- **Money columns are numbers**: each money column of a row is an integer or null. -/
theorem money_toData (k : Kind) (r : Row k) :
    ∀ f ∈ moneyFields k, (isNull (valueAt f (toData k r)) || isInt (valueAt f (toData k r))) = true := by
  have hcolumn : ∀ {k : Kind} {r : Row k} (f : String) (n : Option Int),
      (f, optInt n) ∈ toData k r →
        (isNull (valueAt f (toData k r)) || isInt (valueAt f (toData k r))) = true :=
    fun f n h => by rw [valueAt_toData h, isNumber_optInt]
  cases k with
  | product =>
    rw [moneyFields_product]
    simp only [List.forall_mem_cons, List.not_mem_nil, false_implies, implies_true, and_true]
    refine ⟨hcolumn _ r.costCents ?_, hcolumn _ r.saleCents ?_, hcolumn _ r.minSaleCents ?_,
      hcolumn _ r.costUahCents ?_, hcolumn _ r.saleUahCents ?_, hcolumn _ r.minSaleUahCents ?_,
      hcolumn _ r.costEurCents ?_, hcolumn _ r.saleEurCents ?_, hcolumn _ r.minSaleEurCents ?_⟩
    all_goals simp [toData]
  | batch =>
    rw [moneyFields_batch]
    simp only [List.forall_mem_cons, List.not_mem_nil, false_implies, implies_true, and_true]
    refine ⟨hcolumn _ r.priceCents ?_, hcolumn _ r.costCents ?_⟩
    all_goals simp [toData]
  | operation =>
    rw [moneyFields_operation]
    simp only [List.forall_mem_cons, List.not_mem_nil, false_implies, implies_true, and_true]
    refine ⟨hcolumn _ r.unitCostCents ?_, hcolumn _ r.unitPriceCents ?_⟩
    all_goals simp [toData]
  | cashMovement =>
    rw [moneyFields_cashMovement]
    simp only [List.forall_mem_cons, List.not_mem_nil, false_implies, implies_true, and_true]
    exact hcolumn _ (some r.amountCents) (by simp [toData, optInt])
  | warehouse | customer | dictionary | sale =>
    rw [moneyFields_other (by decide)]
    exact fun f hf => absurd hf List.not_mem_nil

/-- A row whose own record passes the column rules. -/
def Acceptable : (k : Kind) → Row k → Prop
  | .batch, b => ∀ e ∈ Batch.expiry b, isIsoDate e = true
  | .operation, o =>
    isIsoTimestamp (Operation.createdAt o) = true ∧
      ∀ e ∈ Operation.businessDate o, isIsoDate e = true
  | .cashMovement, m =>
    isIsoTimestamp (CashMovement.createdAt m) = true ∧
      ∀ e ∈ CashMovement.businessDate m, isIsoDate e = true
  | .warehouse, _ | .product, _ | .customer, _ | .dictionary, _ | .sale, _ => True

theorem dateFields_ledger {k : Kind} (h : k.isLedger = true) : dateFields k = ["business_date"] := by
  cases k <;> first | exact absurd h (by decide) | simp [dateFields, fields]

theorem dateFields_batch : dateFields .batch = ["expiry"] := by simp [dateFields, fields]

theorem dateFields_other {k : Kind}
    (h : k ∈ [Kind.warehouse, .product, .customer, .dictionary, .sale]) : dateFields k = [] := by
  simp only [List.mem_cons, List.not_mem_nil, or_false] at h
  rcases h with rfl | rfl | rfl | rfl | rfl <;> simp [dateFields, fields]

theorem bad_optStr (p : String → Bool) (s : Option String) :
    (!isNull (optStr s) && !isStr p (optStr s)) = false ↔ ∀ e ∈ s, p e = true := by
  cases s <;> simp [optStr, isNull, isStr]

theorem checkRecord_ok_iff {k : Kind} {r : Row k} :
    checkRecord k (toData k r) = .ok () ↔ checkLedger k (toData k r) = .ok () ∧
      ∀ f ∈ dateFields k, (!isNull (valueAt f (toData k r)) &&
        !isStr isIsoDate (valueAt f (toData k r))) = false := by
  have hmoney : checkAll (moneyFields k) (fun v => !isNull v && !isInt v) .money (toData k r) =
      .ok () := by
    refine checkAll_ok_iff.mpr fun f hf => ?_
    have := money_toData k r f hf
    rwa [← Bool.not_or, Bool.not_eq_false']
  unfold checkRecord
  rw [hmoney, Lib.Fallible.ok_bind, Lib.Fallible.bind_ok_iff]
  constructor
  · rintro ⟨_, hledger, h⟩
    exact ⟨hledger, checkAll_ok_iff.mp h⟩
  · rintro ⟨hledger, h⟩
    exact ⟨(), hledger, checkAll_ok_iff.mpr h⟩

/-- A ledger row carries its provenance; what can be wrong is the shape of `created_at`. -/
theorem checkLedger_toData {k : Kind} {r : Row k} (hk : k.isLedger = true)
    (deviceId createdAt createdBy : String) (seq : Int)
    (hdevice : ("device_id", Value.str deviceId) ∈ toData k r)
    (hseq : ("seq", Value.int seq) ∈ toData k r)
    (hcreated : ("created_at", Value.str createdAt) ∈ toData k r)
    (hby : ("created_by", Value.str createdBy) ∈ toData k r) :
    checkLedger k (toData k r) = .ok () ↔ isIsoTimestamp createdAt = true := by
  have hrequired : checkAll ledgerRequired isNull (.missingField k) (toData k r) = .ok () := by
    refine checkAll_ok_iff.mpr ?_
    simp only [ledgerRequired, List.forall_mem_cons, List.not_mem_nil, false_implies,
      implies_true, and_true, valueAt_toData hdevice, valueAt_toData hseq,
      valueAt_toData hcreated, valueAt_toData hby]
    exact ⟨rfl, rfl, rfl, rfl⟩
  have hinteger : checkAll ["seq"] (fun v => !isInt v) (fun _ => .seqNotInteger k) (toData k r) =
      .ok () := by
    refine checkAll_ok_iff.mpr ?_
    simp [valueAt_toData hseq, isInt]
  unfold checkLedger
  rw [if_pos hk, hrequired, hinteger, Lib.Fallible.ok_bind, Lib.Fallible.ok_bind]
  refine checkAll_ok_iff.trans ?_
  simp [valueAt_toData hcreated, isStr]

/-- **The column rules on a row's own record** come down to its dates. -/
theorem checkRecord_toData {k : Kind} {r : Row k} :
    checkRecord k (toData k r) = .ok () ↔ Acceptable k r := by
  rw [checkRecord_ok_iff]
  cases k with
  | warehouse | product | customer | dictionary | sale =>
    rw [dateFields_other (by decide)]
    simp [checkLedger, Kind.isLedger, Acceptable]
  | batch =>
    have hexpiry : ("expiry", optStr (Batch.expiry r)) ∈ toData .batch r := by simp [toData]
    rw [dateFields_batch]
    simp only [List.forall_mem_cons, List.not_mem_nil, false_implies, implies_true, and_true,
      valueAt_toData hexpiry, bad_optStr]
    simp [checkLedger, Kind.isLedger, Acceptable]
  | operation =>
    have hdate : ("business_date", optStr (Operation.businessDate r)) ∈ toData .operation r := by
      simp [toData]
    rw [dateFields_ledger rfl, checkLedger_toData rfl r.deviceId r.createdAt r.createdBy r.seq
      (by simp [toData]) (by simp [toData]) (by simp [toData]) (by simp [toData])]
    simp only [List.forall_mem_cons, List.not_mem_nil, false_implies, implies_true, and_true,
      valueAt_toData hdate, bad_optStr]
    rfl
  | cashMovement =>
    have hdate : ("business_date", optStr (CashMovement.businessDate r)) ∈
        toData .cashMovement r := by
      simp [toData]
    rw [dateFields_ledger rfl, checkLedger_toData rfl r.deviceId r.createdAt r.createdBy r.seq
      (by simp [toData]) (by simp [toData]) (by simp [toData]) (by simp [toData])]
    simp only [List.forall_mem_cons, List.not_mem_nil, false_implies, implies_true, and_true,
      valueAt_toData hdate, bad_optStr]
    rfl

theorem dataId_toData (k : Kind) (r : Row k) : dataId (toData k r) = rowId k r := by
  have hid : ("id", Value.str (rowId k r)) ∈ toData k r := by
    cases k <;> exact List.mem_cons_self
  rw [dataId, valueAt_toData hid]

theorem admissible_rowRecord {k : Kind} {r : Row k} :
    (rowRecord k r).Admissible ↔ rowId k r ≠ "" ∧ Acceptable k r := by
  unfold ExchangeRecord.Admissible rowRecord
  rw [dataId_toData, checkRecord_toData]

theorem key_rowRecord (k : Kind) (r : Row k) : (rowRecord k r).key = (k, rowId k r) := by
  rw [ExchangeRecord.key, rowRecord, dataId_toData]

theorem kind_notMem_rowRecord (k : Kind) (r : Row k) :
    "kind" ∉ (rowRecord k r).data.map Prod.fst := by
  rw [rowRecord, toData_keys]
  cases k <;> simp [fields]

/-! ## Rows on the wire -/

/-- A row of some kind. -/
abbrev AnyRow := (k : Kind) × Row k

/-- A row of some kind as a record. -/
def AnyRow.record (r : AnyRow) : ExchangeRecord := rowRecord r.1 r.2

/-- The kind and the id of a row. -/
def AnyRow.key (r : AnyRow) : Kind × String := (r.1, rowId r.1 r.2)

theorem keys_record (rows : List AnyRow) :
    (rows.map AnyRow.record).map ExchangeRecord.key = rows.map AnyRow.key := by
  rw [List.map_map]
  exact List.map_congr_left fun r _ => key_rowRecord r.1 r.2

theorem kind_notMem_records (rows : List AnyRow) :
    ∀ r ∈ rows.map AnyRow.record, "kind" ∉ r.data.map Prod.fst := by
  intro r hr
  obtain ⟨row, -, rfl⟩ := List.mem_map.mp hr
  exact kind_notMem_rowRecord row.1 row.2

/-- **Rows written out** are accepted exactly when each has an id and acceptable dates and no two
of a kind have the same id. -/
theorem parseExchange_rows_iff {sha256 : String → String} {envelope : Envelope}
    {rows : List AnyRow} :
    (∃ batch, parseExchange (serializeExchange sha256 envelope (rows.map AnyRow.record)) =
        .ok batch) ↔
      (∀ r ∈ rows, rowId r.1 r.2 ≠ "" ∧ Acceptable r.1 r.2) ∧ (rows.map AnyRow.key).Nodup := by
  rw [parseExchange_serialize (kind_notMem_records rows), keys_record, List.forall_mem_map]
  simp only [AnyRow.record, admissible_rowRecord]

/-- The records of accepted rows, as they are received. -/
theorem parseExchange_rows_records {sha256 : String → String} {envelope : Envelope}
    {rows : List AnyRow} {batch : ExchangeBatch}
    (h : parseExchange (serializeExchange sha256 envelope (rows.map AnyRow.record)) = .ok batch) :
    batch.records = rows.map fun r => r.record.received := by
  rw [parseExchange_serialize_records (kind_notMem_records rows) h, List.map_map]
  rfl

/-! ## Canonical texts -/

theorem isIsoDate_iff {s : String} : isIsoDate s = true ↔ ∃ d : Date, s = d.isoformat := by
  unfold isIsoDate
  rw [Option.any_eq_true]
  constructor
  · rintro ⟨d, -, h⟩
    exact ⟨d, (of_decide_eq_true h).symm⟩
  · rintro ⟨d, rfl⟩
    exact ⟨d, Date.fromIso_isoformat d, by simp⟩

theorem isIsoTimestamp_isoformat (t : Instant) : isIsoTimestamp t.isoformat = true := by
  have hday : (t.isoformat.toList.take 10) = t.date.chars := by
    rw [Instant.isoformat, String.toList_ofList, List.take_left' t.date.length_chars]
  have hrest : (t.isoformat.toList.drop 10) = 'T' :: t.timeChars := by
    rw [Instant.isoformat, String.toList_ofList, List.drop_left' t.date.length_chars]
  unfold isIsoTimestamp
  rw [hday, hrest]
  dsimp only
  rw [isTimeAndZone_instant, show isIsoDate (String.ofList t.date.chars) = true from
    isIsoDate_iff.mpr ⟨t.date, rfl⟩]
  rfl

end MyOriShop
