import Mathlib.Data.List.Dedup
import Mathlib.Data.List.Sort
import Mathlib.Data.String.Basic
import MyOriShop.Exchange

/-!
# PriceRecords: the records of the price export (`scripts/import_prices.py`)

The price history travels as a JSON array, one object for each catalog issue that a code was in.
`validate_records` refuses what is no such array, naming the record; what it accepts is a list of
`PriceRecord`s, each with the triple that identifies it and the four fields that a source may change.

* `validateRecords` is `validate_records`; `sys.exit` is an error with its text. `repr` is that of the
  source language, for the `!r` in the texts.
* `PriceRecord.toValue` is the object that a record is written as.

Results:
* `validateRecords_valid`: every accepted record keeps within its columns.
* `validateRecords_toValue`, `accepted_iff`: a list of such records is read back as it was written.
-/

namespace MyOriShop

open Lib.Json (Value valueAt)
open Lib.Fallible

/-- `MUTABLE_FIELDS`. -/
inductive MutableField where
  | name
  | consumerCents
  | consultantCents
  | points
  deriving DecidableEq

def mutableFields : List MutableField := [.name, .consumerCents, .consultantCents, .points]

theorem mem_mutableFields (f : MutableField) : f ∈ mutableFields := by
  cases f <;> decide

/-- What a field holds that is not NULL. -/
abbrev MutableField.Cell : MutableField → Type
  | .name => String
  | .consumerCents | .consultantCents | .points => Int

instance : (f : MutableField) → DecidableEq f.Cell
  | .name => inferInstanceAs (DecidableEq String)
  | .consumerCents | .consultantCents | .points => inferInstanceAs (DecidableEq Int)

/-- The four fields of a record or a row. -/
abbrev PriceFields := (f : MutableField) → Option f.Cell

def priceFields (name : Option String) (consumerCents consultantCents points : Option Int) :
    PriceFields
  | .name => name
  | .consumerCents => consumerCents
  | .consultantCents => consultantCents
  | .points => points

/-- `(year, number, code)`. -/
abbrev PriceKey := Int × Int × String

/-- One exported row. -/
structure PriceRecord where
  year : Int
  number : Int
  code : String
  fields : PriceFields

/-- `_price_key`. -/
def PriceRecord.key (r : PriceRecord) : PriceKey := (r.year, r.number, r.code)

/-! ## `validate_records` -/

/-- `EXPORT_KEYS`, sorted. -/
def exportKeys : List String :=
  ["code", "consultant_cents", "consumer_cents", "name", "number", "points", "year"]

/-- `MAX_NAME`. -/
def maxName : Nat := 200

section Validate

variable (repr : Value → String) (source : String) (i : Nat)

def checkKeys (record : Data) : Except String Unit :=
  let keys := record.map Prod.fst
  if exportKeys.all (· ∈ keys) && keys.all (· ∈ exportKeys) then .ok ()
  else
    let missing := repr (.arr ((exportKeys.filter (· ∉ keys)).map .str))
    let extra := repr (.arr
      (((keys.filter (· ∉ exportKeys)).dedup.insertionSort (· ≤ ·)).map .str))
    .error s!"{source}: record {i} has wrong keys (missing={missing}, extra={extra})"

def readCode : Value → Except String String
  | .str code => .ok code
  | v =>
    let shown := repr v
    .error s!"{source}: record {i} has a non-string code {shown}"

def readInteger (field : String) : Value → Except String Int
  | .int n => .ok n
  | v =>
    let shown := repr v
    .error s!"{source}: record {i} has a non-integer {field} {shown}"

def readName : Value → Except String (Option String)
  | .null => .ok none
  | .str name =>
    if maxName < name.length then
      let length := name.length
      let shown := repr (.str (String.ofList (name.toList.take 40)))
      .error (s!"{source}: record {i} has a name of {length} chars, " ++
        s!"longer than the {maxName}-char column: {shown}…")
    else .ok (some name)
  | v =>
    let shown := repr v
    .error s!"{source}: record {i} has a non-string name {shown}"

def readAmount (field : String) : Value → Except String (Option Int)
  | .null => .ok none
  | .int n =>
    if n < 0 then
      let shown := repr (.int n)
      .error s!"{source}: record {i} has a non-integer {field} {shown}"
    else .ok (some n)
  | v =>
    let shown := repr v
    .error s!"{source}: record {i} has a non-integer {field} {shown}"

def validateRecord : Value → Except String PriceRecord
  | .obj record => do
    checkKeys repr source i record
    let code ← readCode repr source i (valueAt "code" record)
    let year ← readInteger repr source i "year" (valueAt "year" record)
    let number ← readInteger repr source i "number" (valueAt "number" record)
    let name ← readName repr source i (valueAt "name" record)
    let consumerCents ← readAmount repr source i "consumer_cents" (valueAt "consumer_cents" record)
    let consultantCents ←
      readAmount repr source i "consultant_cents" (valueAt "consultant_cents" record)
    let points ← readAmount repr source i "points" (valueAt "points" record)
    return ⟨year, number, code, priceFields name consumerCents consultantCents points⟩
  | _ => .error s!"{source}: record {i} is not an object"

end Validate

/-- `validate_records`. -/
def validateRecords (repr : Value → String) (source : String) :
    Value → Except String (List PriceRecord)
  | .arr records => records.zipIdx.mapM fun p => validateRecord repr source p.2 p.1
  | _ => .error s!"Export file is not a JSON array: {source}"

/-! ## What is accepted -/

/-- `json.dumps(r, sort_keys=True)` of a record. -/
def PriceRecord.toData (r : PriceRecord) : Data :=
  [("code", .str r.code), ("consultant_cents", optInt (r.fields .consultantCents)),
    ("consumer_cents", optInt (r.fields .consumerCents)), ("name", optStr (r.fields .name)),
    ("number", .int r.number), ("points", optInt (r.fields .points)), ("year", .int r.year)]

def PriceRecord.toValue (r : PriceRecord) : Value := .obj r.toData

theorem optStr_injective : Function.Injective optStr := by
  intro s s' h
  cases s <;> cases s' <;> cases h <;> rfl

theorem optInt_injective : Function.Injective optInt := by
  intro n n' h
  cases n <;> cases n' <;> cases h <;> rfl

theorem PriceRecord.toValue_injective : Function.Injective PriceRecord.toValue := by
  rintro ⟨year, number, code, fields⟩ ⟨year', number', code', fields'⟩ h
  simp only [toValue, toData, Value.obj.injEq, List.cons.injEq, Prod.mk.injEq, true_and, and_true,
    Value.str.injEq, Value.int.injEq] at h
  obtain ⟨rfl, hconsultant, hconsumer, hname, rfl, hpoints, rfl⟩ := h
  have hfields : fields = fields' := by
    funext f
    cases f
    · exact optStr_injective hname
    · exact optInt_injective hconsumer
    · exact optInt_injective hconsultant
    · exact optInt_injective hpoints
  rw [hfields]

/-- A record that keeps within its columns. -/
structure PriceRecord.Valid (r : PriceRecord) : Prop where
  name : ∀ s ∈ r.fields .name, String.length s ≤ maxName
  consumerCents : ∀ n ∈ r.fields .consumerCents, (0 : Int) ≤ n
  consultantCents : ∀ n ∈ r.fields .consultantCents, (0 : Int) ≤ n
  points : ∀ n ∈ r.fields .points, (0 : Int) ≤ n

section Accepted

variable {repr : Value → String} {source : String} {i : Nat}

theorem readName_ok {v : Value} {name : Option String}
    (h : readName repr source i v = .ok name) : ∀ s ∈ name, s.length ≤ maxName := by
  intro s hs
  unfold readName at h
  split at h
  · cases h
    cases hs
  · split_ifs at h with hlong
    cases h
    cases hs
    exact Nat.le_of_not_lt hlong
  · cases h

theorem readName_optStr {name : Option String} (h : ∀ s ∈ name, s.length ≤ maxName) :
    readName repr source i (optStr name) = .ok name := by
  cases name with
  | none => rfl
  | some s => exact if_neg (Nat.not_lt_of_le (h s rfl))

theorem readAmount_ok {field : String} {v : Value} {amount : Option Int}
    (h : readAmount repr source i field v = .ok amount) : ∀ n ∈ amount, 0 ≤ n := by
  intro n hn
  unfold readAmount at h
  split at h
  · cases h
    cases hn
  · split_ifs at h with hneg
    cases h
    cases hn
    exact Int.not_lt.mp hneg
  · cases h

theorem readAmount_optInt {field : String} {amount : Option Int} (h : ∀ n ∈ amount, 0 ≤ n) :
    readAmount repr source i field (optInt amount) = .ok amount := by
  cases amount with
  | none => rfl
  | some n => exact if_neg (Int.not_lt.mpr (h n rfl))

/-- An accepted record keeps within its columns. -/
theorem validateRecord_valid {v : Value} {r : PriceRecord}
    (h : validateRecord repr source i v = .ok r) : r.Valid := by
  unfold validateRecord at h
  split at h
  · obtain ⟨_, -, h⟩ := bind_ok_iff.mp h
    obtain ⟨code, -, h⟩ := bind_ok_iff.mp h
    obtain ⟨year, -, h⟩ := bind_ok_iff.mp h
    obtain ⟨number, -, h⟩ := bind_ok_iff.mp h
    obtain ⟨name, hname, h⟩ := bind_ok_iff.mp h
    obtain ⟨consumerCents, hconsumer, h⟩ := bind_ok_iff.mp h
    obtain ⟨consultantCents, hconsultant, h⟩ := bind_ok_iff.mp h
    obtain ⟨points, hpoints, h⟩ := bind_ok_iff.mp h
    cases h
    exact ⟨readName_ok hname, readAmount_ok hconsumer, readAmount_ok hconsultant,
      readAmount_ok hpoints⟩
  · cases h

/-- A record is read back as it was written. -/
theorem validateRecord_toValue {r : PriceRecord} (h : r.Valid) :
    validateRecord repr source i r.toValue = .ok r := by
  obtain ⟨year, number, code, fields⟩ := r
  have hfields : fields = priceFields (fields .name) (fields .consumerCents)
      (fields .consultantCents) (fields .points) := by
    funext f
    cases f <;> rfl
  have hkeys : checkKeys repr source i (PriceRecord.toData ⟨year, number, code, fields⟩) = .ok () :=
    rfl
  show (checkKeys repr source i _ >>= _) = _
  rw [hkeys, ok_bind]
  show (do
    let name ← readName repr source i (optStr (fields .name))
    let consumerCents ← readAmount repr source i "consumer_cents" (optInt (fields .consumerCents))
    let consultantCents ←
      readAmount repr source i "consultant_cents" (optInt (fields .consultantCents))
    let points ← readAmount repr source i "points" (optInt (fields .points))
    return (⟨year, number, code, priceFields name consumerCents consultantCents points⟩ :
      PriceRecord)) = Except.ok _
  rw [readName_optStr h.name, ok_bind, readAmount_optInt h.consumerCents, ok_bind,
    readAmount_optInt h.consultantCents, ok_bind, readAmount_optInt h.points, ok_bind, ← hfields]
  rfl

theorem eq_of_readName {name name' : Option String}
    (h : readName repr source i (optStr name) = .ok name') : name' = name := by
  cases name with
  | none =>
    cases h
    rfl
  | some s =>
    unfold readName optStr at h
    rw [Option.elim_some] at h
    simp only at h
    split_ifs at h
    cases h
    rfl

theorem eq_of_readAmount {field : String} {amount amount' : Option Int}
    (h : readAmount repr source i field (optInt amount) = .ok amount') : amount' = amount := by
  cases amount with
  | none =>
    cases h
    rfl
  | some n =>
    unfold readAmount optInt at h
    rw [Option.elim_some] at h
    simp only at h
    split_ifs at h
    cases h
    rfl

/-- A written record is read as nothing else. -/
theorem eq_of_validateRecord {r r' : PriceRecord}
    (h : validateRecord repr source i r.toValue = .ok r') : r' = r := by
  obtain ⟨_, -, h⟩ := bind_ok_iff.mp (show (checkKeys repr source i r.toData >>= _) = _ from h)
  obtain ⟨code, hcode, h⟩ := bind_ok_iff.mp h
  obtain ⟨year, hyear, h⟩ := bind_ok_iff.mp h
  obtain ⟨number, hnumber, h⟩ := bind_ok_iff.mp h
  obtain ⟨name, hname, h⟩ := bind_ok_iff.mp h
  obtain ⟨consumerCents, hconsumer, h⟩ := bind_ok_iff.mp h
  obtain ⟨consultantCents, hconsultant, h⟩ := bind_ok_iff.mp h
  obtain ⟨points, hpoints, h⟩ := bind_ok_iff.mp h
  obtain rfl : r.code = code := Except.ok.inj hcode
  obtain rfl : r.year = year := Except.ok.inj hyear
  obtain rfl : r.number = number := Except.ok.inj hnumber
  obtain rfl : name = r.fields .name := eq_of_readName hname
  obtain rfl : consumerCents = r.fields .consumerCents := eq_of_readAmount hconsumer
  obtain rfl : consultantCents = r.fields .consultantCents := eq_of_readAmount hconsultant
  obtain rfl : points = r.fields .points := eq_of_readAmount hpoints
  cases h
  have hfields : priceFields (r.fields .name) (r.fields .consumerCents)
      (r.fields .consultantCents) (r.fields .points) = r.fields := by
    funext f
    cases f <;> rfl
  rw [hfields]

/-- **Every accepted record** keeps within its columns. -/
theorem validateRecords_valid {v : Value} {records : List PriceRecord}
    (h : validateRecords repr source v = .ok records) : ∀ r ∈ records, r.Valid := by
  intro r hr
  unfold validateRecords at h
  split at h
  · obtain ⟨p, -, hp⟩ := mem_of_mapM_ok h hr
    exact validateRecord_valid hp
  · cases h

/-- **A list of records** is read back as it was written. -/
theorem validateRecords_toValue {records : List PriceRecord} (h : ∀ r ∈ records, r.Valid) :
    validateRecords repr source (.arr (records.map PriceRecord.toValue)) = .ok records := by
  refine mapM_ok_iff.mpr ?_
  generalize 0 = start
  induction records generalizing start with
  | nil => exact .nil
  | cons r records ih =>
    rw [List.map_cons, List.zipIdx_cons]
    exact .cons (validateRecord_toValue (h r List.mem_cons_self))
      (ih (fun r hr => h r (List.mem_cons_of_mem _ hr)) (start + 1))

/-- A written list is read as nothing else. -/
theorem eq_of_validateRecords {records records' : List PriceRecord}
    (h : validateRecords repr source (.arr (records.map PriceRecord.toValue)) = .ok records') :
    records' = records := by
  replace h := mapM_ok_iff.mp h
  generalize 0 = start at h
  induction records generalizing start records' with
  | nil => exact List.forall₂_nil_left_iff.mp h
  | cons r records ih =>
    rw [List.map_cons, List.zipIdx_cons] at h
    obtain ⟨r', rest, hr, hrest, rfl⟩ := List.forall₂_cons_left_iff.mp h
    rw [eq_of_validateRecord hr, ih (start + 1) hrest]

/-- The lists that are accepted. -/
theorem accepted_iff {records : List PriceRecord} :
    (∃ v, validateRecords repr source v = .ok records) ↔ ∀ r ∈ records, r.Valid :=
  ⟨fun ⟨_, h⟩ => validateRecords_valid h, fun h => ⟨_, validateRecords_toValue h⟩⟩

end Accepted

end MyOriShop
