import MyOriShop.Columns

/-!
# TypedColumns: the integer columns of an accepted record (`app/services/merge.py`)

The parser looks at the type of the money columns, which it finds by their name, and at `seq`. The
models have other Integer columns, which the merge copies from the wire as well.

* `integerColumns` are the Integer columns of a model that the merge stores; the cached quantity is
  not one of them, it is dropped on arrival.
* `checkedColumns` are the ones whose type the parser looks at, `uncheckedColumns` the rest.

Results:
* `integerColumns_perm`: the two together are the Integer columns.
* `insertRow_typed`: where the integer columns hold integers and NULLs, no driver converts one.
* `integers_typed_iff`: the records of an accepted payload are so exactly where its lines are in the
  columns that nobody looks at.
* `not_integers_typed`: an operation whose `qty_delta` is a word is accepted.
-/

namespace MyOriShop

open Lib.Json (Value valueAt lookup)
open Lib.Text (isBlank)
open Lib.Fallible (bind_ok_iff)

/-! ## The schema -/

/-- NULL or an integer. -/
def isNumber (v : Value) : Bool := isNull v || isInt v

/-- The Integer columns of a model, without the cached quantity. -/
def integerColumns : Kind → List String
  | .product =>
    ["cost_cents", "sale_cents", "min_sale_cents", "cost_uah_cents", "sale_uah_cents",
      "min_sale_uah_cents", "cost_eur_cents", "sale_eur_cents", "min_sale_eur_cents",
      "low_stock_threshold", "stale_days"]
  | .batch => ["price_cents", "cost_cents", "is_legacy"]
  | .operation => ["qty_delta", "unit_cost_cents", "unit_price_cents", "seq"]
  | .cashMovement => ["amount_cents", "seq"]
  | .warehouse | .customer | .dictionary | .sale => []

/-- The columns that `parse_exchange` holds to the type. -/
def checkedColumns (k : Kind) : List String :=
  moneyFields k ++ if k.isLedger then ["seq"] else []

/-- The Integer columns that it does not. -/
def uncheckedColumns : Kind → List String
  | .product => ["low_stock_threshold", "stale_days"]
  | .batch => ["is_legacy"]
  | .operation => ["qty_delta"]
  | .cashMovement | .warehouse | .customer | .dictionary | .sale => []

theorem integerColumns_perm (k : Kind) :
    (integerColumns k).Perm (checkedColumns k ++ uncheckedColumns k) := by
  cases k <;> decide

theorem mem_integerColumns {k : Kind} {f : String} :
    f ∈ integerColumns k ↔ f ∈ checkedColumns k ∨ f ∈ uncheckedColumns k := by
  rw [(integerColumns_perm k).mem_iff, List.mem_append]

/-- The Integer columns are columns; none is filled by the server or names the record. -/
theorem integerColumns_wire {k : Kind} {f : String} (hf : f ∈ integerColumns k) :
    f ∈ fields k ∧ f ≠ "kind" ∧ f ≠ "synced_at" ∧ f ≠ "quantity" := by
  have hall : ∀ k, ∀ f ∈ integerColumns k,
      f ∈ fields k ∧ f ≠ "kind" ∧ f ≠ "synced_at" ∧ f ≠ "quantity" := by
    intro k
    cases k <;> decide
  exact hall k f hf

/-! ## What a typed record inserts -/

theorem isNumber_orDefault {v default : Value} (hv : isNumber v = true)
    (hdefault : isNumber default = true) : isNumber (orDefault v default) = true := by
  cases v with
  | null => exact hdefault
  | int => rfl
  | bool | float | str | arr | obj => cases hv

theorem isNumber_defaultValue {now : String} {k : Kind} {f : String}
    (hf : f ∈ integerColumns k) : isNumber (defaultValue now k f) = true := by
  have hall : ∀ k, ∀ f ∈ integerColumns k,
      f ≠ "updated_at" ∧ f ≠ "created_at" ∧ f ≠ "currency" := by
    intro k
    cases k <;> decide
  obtain ⟨hupdated, hcreated, hcurrency⟩ := hall k f hf
  unfold defaultValue
  rw [if_neg hupdated, if_neg (by simp [hcreated]), if_neg hcurrency]
  split_ifs <;> rfl

/-- The cell of a number is read by no driver. -/
theorem storeInteger_number {c c' : Cells} {f : String} (hc : isNumber (c.value f) = true)
    (hvalue : c'.value f = c.value f) : c'.optInteger f = c.optInteger f := by
  unfold Cells.optInteger
  rw [hvalue]
  cases hv : c.value f with
  | null => rfl
  | int n => rw [Cells.storeInteger_int, Cells.storeInteger_int]
  | bool | float | str | arr | obj =>
    rw [hv] at hc
    cases hc

/-- **A typed record** inserts the same row whatever the driver would make of other values in an
integer column. -/
theorem insertRow_typed {driver driver' : Driver} {now : String} {k : Kind} {data : Data}
    (htext : driver'.text = driver.text)
    (htyped : ∀ f ∈ integerColumns k, isNumber (valueAt f data) = true) :
    insertRow driver' now k data = insertRow driver now k data := by
  have hcell : ∀ f ∈ integerColumns k,
      (insertCells driver' now k data).optInteger f = (insertCells driver now k data).optInteger f := by
    intro f hf
    obtain ⟨-, -, hsynced, hquantity⟩ := integerColumns_wire hf
    refine storeInteger_number ?_ rfl
    show isNumber (orDefault (wireValue data f) _) = true
    rw [wireValue, if_neg hquantity, if_neg hsynced]
    exact isNumber_orDefault (htyped f hf) (isNumber_defaultValue hf)
  have hquantity : (insertCells driver' now k data).optInteger "quantity" =
      (insertCells driver now k data).optInteger "quantity" :=
    storeInteger_number (by rfl) rfl
  have hstored : ∀ f, (insertCells driver' now k data).optText f =
      (insertCells driver now k data).optText f := by
    intro f
    unfold Cells.optText Cells.storeText Cells.fit insertCells
    simp only [htext]
  have hvalue : (insertCells driver' now k data).value = (insertCells driver now k data).value := rfl
  unfold insertRow
  cases k <;>
    simp only [integerColumns, List.forall_mem_cons, List.not_mem_nil, false_implies, implies_true,
      and_true] at hcell <;>
    simp only [rowOf, Cells.text, Cells.integer, hstored, hquantity, hcell, hvalue]

/-! ## The records of an accepted payload -/

/-- What the parser hands on is what stands on the lines. -/
theorem parseExchange_read {lines : List String} {batch : ExchangeBatch}
    (h : parseExchange lines = .ok batch) :
    (∀ r ∈ (written lines).filterMap readRecord, r.Admissible) ∧
      batch.records = ((written lines).filterMap readRecord).map ExchangeRecord.received := by
  suffices hgen : ∀ index, parseHeader index lines = .ok batch →
      (∀ r ∈ (written lines).filterMap readRecord, r.Admissible) ∧
        batch.records = ((written lines).filterMap readRecord).map ExchangeRecord.received from
    hgen 0 h
  clear h
  induction lines with
  | nil =>
    intro index h
    cases h
  | cons raw rest ih =>
    intro index h
    cases hraw : isBlank raw with
    | true =>
      rw [parseHeader, if_pos hraw] at h
      rw [written, List.filter_cons_of_neg (by simp [hraw])]
      exact ih _ h
    | false =>
      obtain ⟨header, hobj, hok, records, hrecords, rfl⟩ := (parseHeader_cons_ok_iff hraw).mp h
      -- the header names no kind of record
      have hheader : readRecord raw = none := by
        have hkind := (Bool.and_eq_true_iff.mp hok).1
        unfold parseObject at hobj
        split at hobj
        · cases hobj
        · next hloads =>
          cases hobj
          simp only [readRecord, hloads]
          cases hv : valueAt "kind" header with
          | str s =>
            rw [hv] at hkind
            obtain rfl : s = "header" := by simpa [isStr] using hkind
            simp [recordKind]
          | null | bool | int | float | arr | obj =>
            rw [hv] at hkind
            cases hkind
        · cases hobj
      obtain ⟨raws, hread, hadm, -, -, rfl⟩ := (parseRecords_ok_iff_read _ _).mp hrecords
      have hraws : (written (raw :: rest)).filterMap readRecord = raws := by
        rw [written, List.filter_cons_of_pos (by simp [hraw]), List.filterMap_cons_none hheader]
        calc (written rest).filterMap readRecord
            = ((written rest).map readRecord).filterMap id := by rw [List.filterMap_map]; rfl
          _ = raws := by rw [hread, List.filterMap_map]; exact List.filterMap_some
      rw [hraws]
      exact ⟨hadm, rfl⟩

/-- The parser changes no column but `synced_at`. -/
theorem valueAt_received {r : ExchangeRecord} {f : String} (hf : f ≠ "synced_at") :
    valueAt f r.received.data = valueAt f r.data := by
  rw [valueAt, valueAt, ExchangeRecord.received, lookup_clearSynced hf]

/-- An admissible record holds numbers in the columns that are looked at. -/
theorem ExchangeRecord.Admissible.checked {r : ExchangeRecord} (h : r.Admissible) :
    ∀ f ∈ checkedColumns r.kind, isNumber (valueAt f r.data) = true := by
  obtain ⟨_, hledger, hrest⟩ := bind_ok_iff.mp h.2
  obtain ⟨_, hmoney, -⟩ := bind_ok_iff.mp hrest
  intro f hf
  rcases List.mem_append.mp hf with hf | hf
  · have hbad := checkAll_ok_iff.mp hmoney f hf
    cases hnull : isNull (valueAt f r.data) with
    | true => rw [isNumber, hnull, Bool.true_or]
    | false => simpa [isNumber, hnull] using hbad
  · split_ifs at hf with hkind
    · rw [List.mem_singleton.mp hf]
      rw [checkLedger, if_pos hkind] at hledger
      obtain ⟨_, -, hledger⟩ := bind_ok_iff.mp hledger
      obtain ⟨_, hseq, -⟩ := bind_ok_iff.mp hledger
      have hbad := checkAll_ok_iff.mp hseq "seq" List.mem_cons_self
      simpa [isNumber] using Or.inr (by simpa using hbad)
    · cases hf

/-- **The integer columns of an accepted payload** hold integers and NULLs exactly where those that
the parser does not look at do so on its lines. -/
theorem integers_typed_iff {lines : List String} {batch : ExchangeBatch}
    (h : parseExchange lines = .ok batch) :
    (∀ r ∈ batch.records, ∀ f ∈ integerColumns r.kind, isNumber (valueAt f r.data) = true) ↔
      ∀ raw ∈ written lines, ∀ r, readRecord raw = some r →
        ∀ f ∈ uncheckedColumns r.kind, isNumber (valueAt f r.data) = true := by
  obtain ⟨hadm, hrecords⟩ := parseExchange_read h
  rw [hrecords, List.forall_mem_map]
  have hcolumn : ∀ {r : ExchangeRecord} {f : String}, f ∈ integerColumns r.kind →
      valueAt f r.received.data = valueAt f r.data :=
    fun hf => valueAt_received (integerColumns_wire hf).2.2.1
  constructor
  · intro htyped raw hraw r hr f hf
    have hmem : f ∈ integerColumns r.kind := mem_integerColumns.mpr (.inr hf)
    rw [← hcolumn hmem]
    exact htyped r (List.mem_filterMap.mpr ⟨raw, hraw, hr⟩) f hmem
  · intro htyped r hr f hf
    obtain ⟨raw, hraw, hread⟩ := List.mem_filterMap.mp hr
    rw [hcolumn (r := r) hf]
    rcases mem_integerColumns.mp hf with hchecked | hunchecked
    · exact (hadm r hr).checked f hchecked
    · exact htyped raw hraw r hread f hunchecked

/-- An operation that moves the given quantity. -/
def operationOf (qtyDelta : Value) : ExchangeRecord where
  kind := .operation
  data := [("id", .str "x"), ("type", .str "receipt"), ("product_id", .str "p"),
    ("qty_delta", qtyDelta), ("device_id", .str "device"), ("seq", .int 1),
    ("created_at", .str "2026-01-01T12:00:00+00:00"), ("business_date", .str "2026-01-01"),
    ("created_by", .str "operator")]

/-- What the parser makes of its payload. -/
theorem parse_operationOf {qtyDelta : Value}
    (h : (checkRecord .operation (operationOf qtyDelta).data).isOk = true) :
    ∃ batch, parseExchange (serializeExchange id ⟨"", none, ""⟩ [operationOf qtyDelta]) =
      .ok batch ∧ batch.records = [operationOf qtyDelta] := by
  refine parseExchange_single id ⟨"", none, ""⟩ (r := operationOf qtyDelta) ?_
    (by show "x" ≠ ""; decide) h
  show "kind" ∉ ["id", "type", "product_id", "qty_delta", "device_id", "seq", "created_at",
    "business_date", "created_by"]
  decide

/-- The lines of an operation whose quantity is a number. -/
theorem integers_typed_five : ∃ lines batch, parseExchange lines = .ok batch ∧
    batch.records = [operationOf (.int 5)] ∧
    ∀ raw ∈ written lines, ∀ r, readRecord raw = some r →
      ∀ f ∈ uncheckedColumns r.kind, isNumber (valueAt f r.data) = true := by
  obtain ⟨batch, hbatch, hrecords⟩ := @parse_operationOf (.int 5) (by decide)
  refine ⟨_, batch, hbatch, hrecords, (integers_typed_iff hbatch).mp ?_⟩
  rw [hrecords, List.forall_mem_singleton]
  show ∀ f ∈ integerColumns .operation, isNumber (valueAt f (operationOf (.int 5)).data) = true
  decide

/-- A quantity that is a word: the record is accepted with it. -/
theorem not_integers_typed : ¬∀ lines batch, parseExchange lines = .ok batch →
    ∀ r ∈ batch.records, ∀ f ∈ integerColumns r.kind, isNumber (valueAt f r.data) = true := by
  intro h
  obtain ⟨batch, hbatch, hrecords⟩ := @parse_operationOf (.str "many") (by decide)
  have hmem : operationOf (.str "many") ∈ batch.records := by
    rw [hrecords]
    exact List.mem_singleton_self _
  have hword := h _ batch hbatch _ hmem "qty_delta" (by decide)
  cases hword

end MyOriShop
