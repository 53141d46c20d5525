import MyOriShop.Constrained
import MyOriShop.PushClosure
import MyOriShop.RoundTrip
import MyOriShop.SaleBooks

/-!
# Push gate: the exchange takes what the services write (`app/services/sync_client.py`, `merge.py`)

`parse_exchange` refuses a whole push for one row. The dates a service stores are canonical texts of
days, with one exception: `register_transfer` stores the expiry typed for the new batch as it is.

* `Sendable d`: every row of the tables is one that the exchange takes.
* `Request.TypesDay d r`: a transfer that passes its checks has no expiry typed, or one that is a
  canonical date.
* `PushTaken d`: the push of a database is taken, and its records are what the column rules ask for.

Results:
* `sendable_exec`: a request keeps the tables sendable.
* `push_taken`: so every push along a run is taken.
* `not_push_taken`: a transfer with an expiry that is no date.
-/

namespace MyOriShop

open Lib.Text Lib.IsoDate Lib.Fallible Lib.Transaction
open Lib.Json (Value valueAt)

variable {d d' : Db} {k : Kind}

/-! ## Sendable tables -/

/-- Every row has an id and dates that the exchange takes. -/
def Sendable (d : Db) : Prop := ∀ k, ∀ r ∈ d.get k, rowId k r ≠ "" ∧ Acceptable k r

theorem Kept.acceptable {r r' : Row k} (h : Kept k r r') (hr : Acceptable k r) :
    Acceptable k r' := by
  cases k with
  | batch =>
    intro e he
    rcases h.2.2.2.2 e he with hday | hold
    · exact isIsoDate_iff.mpr hday
    · exact hr e hold
  | operation | cashMovement =>
    have heq : r' = r := h
    exact heq ▸ hr
  | warehouse | product | customer | dictionary | sale => trivial

/-- A new row, where no expiry is stored unparsed. -/
theorem Appears.acceptable {r : Row k} (h : Appears (fun _ => False) d k r) (hd : Sendable d) :
    Acceptable k r := by
  have hledger : ∀ {createdAt : String} {businessDate : Option String}, ClockText createdAt →
      (∃ s, businessDate = some s ∧ CanonicalDate s) →
      isIsoTimestamp createdAt = true ∧ ∀ e ∈ businessDate, isIsoDate e = true := by
    rintro _ _ ⟨t, rfl⟩ ⟨day, rfl, hday⟩
    refine ⟨isIsoTimestamp_isoformat t, fun e he => ?_⟩
    cases he
    exact isIsoDate_iff.mpr hday
  cases k with
  | batch =>
    intro e he
    rcases h.2.1 e he with hday | hfalse | ⟨b, hb, hold⟩
    · exact isIsoDate_iff.mpr hday
    · exact hfalse.elim
    · exact (hd .batch b hb).2 e hold
  | operation => exact hledger h.created h.business
  | cashMovement => exact hledger h.created h.business
  | warehouse | product | customer | dictionary | sale => trivial

theorem sendable_write (h : Write (fun _ => False) d d') (hd : Sendable d) : Sendable d' := by
  intro k r' hr'
  rcases h.mem hr' with ⟨r, hr, hkept⟩ | ⟨hfresh, hnew⟩
  · exact ⟨hkept.id_eq ▸ (hd k r hr).1, hkept.acceptable (hd k r hr).2⟩
  · exact ⟨hfresh.1, hnew.acceptable hd⟩

/-! ## Requests -/

/-- A transfer that passes its checks has no expiry typed, or a canonical date. -/
def Request.TypesDay (d : Db) (r : Request) : Prop :=
  ∀ form parsed plan, r.call = .transfer form →
    (parseOpDate r.env form.opDate).reply d = .ok parsed →
    transferCheck r.env d form parsed = .ok plan →
    strip form.newExpiry = "" ∨ isIsoDate (strip form.newExpiry) = true

/-- A transfer that does not pass its checks changes nothing. -/
theorem registerTransfer_refused {env : Env} {form : TransferForm}
    (h : ∀ parsed plan, (parseOpDate env form.opDate).reply d = .ok parsed →
      transferCheck env d form parsed ≠ .ok plan) : (registerTransfer env form).exec d = d := by
  obtain ⟨hcommitted, hworking⟩ := still_parseOpDate env form.opDate ⟨d, d, 0, 0⟩
  rw [registerTransfer_eq]
  unfold Tx.exec
  cases hparse : parseOpDate env form.opDate ⟨d, d, 0, 0⟩ with
  | mk answer s =>
    rw [hparse] at hcommitted hworking
    cases answer with
    | error e => rw [bind_run_error hparse, hcommitted]
    | ok parsed =>
      have hreply : (parseOpDate env form.opDate).reply d = .ok parsed := congrArg Prod.fst hparse
      have hread : (Tx.read : Act Db) s = (.ok d, s) :=
        congrArg (fun w => (Except.ok w, s)) (show s.working = d from hworking)
      rw [bind_run_ok hparse, bind_run_ok hread]
      cases hcheck : transferCheck env d form parsed with
      | ok plan => exact absurd hcheck (h parsed plan hreply)
      | error answer => exact hcommitted

/-- **A request** keeps the tables sendable. -/
theorem sendable_exec {r : Request} (hr : r.TypesDay d) (hd : Sendable d) : Sendable (r.exec d) := by
  by_cases hfree : ∀ e ∈ r.call.typedExpiry, CanonicalDate e
  · exact Writes.induct (fun _ _ => sendable_write)
      (Call.writes r.env d r.call fun e he => .inl (hfree e he)) hd
  · -- the expiry that is typed is no date, so the transfer is refused
    suffices hsame : r.exec d = d by rwa [hsame]
    obtain ⟨env, call⟩ := r
    cases call with
    | transfer form =>
      refine registerTransfer_refused fun parsed plan hparsed hcheck => hfree fun e he => ?_
      have he : orNone (strip form.newExpiry) = some e := he
      unfold orNone at he
      split_ifs at he with hempty
      cases he
      exact isIsoDate_iff.mp ((hr form parsed plan rfl hparsed hcheck).resolve_left hempty)
    | _ => exact absurd (fun e he => by cases he) hfree

/-! ## Pushes -/

/-- The push of a database is taken, and its records are what the column rules ask for. -/
structure PushTaken (d : Db) : Prop where
  accepted : ∀ (sha256 : String → String) (envelope : Envelope), ∃ batch,
    parseExchange (serializeExchange sha256 envelope (collectPushRecords d).1) = .ok batch
  dates : ∀ r ∈ (collectPushRecords d).1, ∀ f ∈ dateFields r.kind,
    valueAt f r.data = .null ∨ ∃ day : Date, valueAt f r.data = .str day.isoformat
  money : ∀ r ∈ (collectPushRecords d).1, ∀ f ∈ moneyFields r.kind,
    valueAt f r.data = .null ∨ ∃ n, valueAt f r.data = .int n
  ledger : ∀ r ∈ (collectPushRecords d).1, r.kind.isLedger = true →
    (∀ f ∈ ledgerRequired, valueAt f r.data ≠ .null) ∧
      (∃ n, valueAt "seq" r.data = .int n) ∧
        ∃ s, isIsoTimestamp s = true ∧ valueAt "created_at" r.data = .str s
  once : ((collectPushRecords d).1.map ExchangeRecord.key).Nodup

/-- **Sendable tables** make pushes that are taken. -/
theorem Sendable.taken (h : Sendable d) (hok : d.Ok) : PushTaken d := by
  have hrow : ∀ r ∈ collectPushRows d, rowId r.1 r.2 ≠ "" ∧ Acceptable r.1 r.2 := fun r hr =>
    h r.1 r.2 ((pushed_sublist d r.1).subset (mem_collectPushRows.mp hr))
  have hrules : ∀ r ∈ (collectPushRecords d).1, checkRecord r.kind r.data = .ok () := by
    intro r hr
    obtain ⟨row, hmem, rfl⟩ := List.mem_map.mp hr
    exact checkRecord_toData.mpr (hrow row hmem).2
  constructor
  case accepted =>
    exact fun sha256 envelope => parseExchange_rows_iff.mpr ⟨hrow, nodup_keys_push hok⟩
  case dates => exact fun r hr => (checkRecord_ok_iff_rules.mp (hrules r hr)).2.2
  case money => exact fun r hr => (checkRecord_ok_iff_rules.mp (hrules r hr)).2.1
  case ledger =>
    exact fun r hr hk => checkLedger_ok_iff.mp (checkRecord_ok_iff_rules.mp (hrules r hr)).1 hk
  case once =>
    rw [show (collectPushRecords d).1 = (collectPushRows d).map AnyRow.record from rfl, keys_record]
    exact nodup_keys_push hok

theorem sendable_along {run : List Request} (h : Along (fun d r => r.TypesDay d) d run)
    (hd : Sendable d) : Sendable (runAll d run) := by
  induction run generalizing d with
  | nil => exact hd
  | cons r run ih => exact ih h.2 (sendable_exec h.1 hd)

theorem sendable_empty : Sendable {} := by
  intro k r hr
  cases k <;> exact absurd hr List.not_mem_nil

/-- **Whatever the services write, the exchange takes**: in every state along a run in which each
transfer that passes its checks has no expiry typed, or one that is a canonical date. -/
theorem push_taken (run post : List Request)
    (h : Along (fun d r => r.TypesDay d) {} (run ++ post)) : PushTaken (runAll {} run) :=
  (sendable_along (along_append.mp h).1 sendable_empty).taken (runAll_ok (by decide))

/-- A receipt, and a transfer of it with the expiry as it is typed here. -/
def relabelled (newExpiry : String) : List Request :=
  [atShop (.addWarehouse { name := "w", address := "" }),
    atShop (.receipt { code := "c", name := "n", qtyRaw := "1", costRaw := "", saleRaw := ""
                       warehouseId := "x", batchChoice := "new" }),
    atShop (.transfer { code := "c", batchId := "xxxx", qtyRaw := "1", destWarehouseId := "x"
                        newExpiry := newExpiry })]

theorem push_taken_relabelled : PushTaken (runAll {} (relabelled "2027-12-31")) := by
  refine push_taken (relabelled "2027-12-31") [] (along_of_forall fun r hr d => ?_)
  rintro form parsed plan hcall - -
  rw [List.append_nil] at hr
  simp only [relabelled, List.mem_cons, List.not_mem_nil, or_false] at hr
  rcases hr with rfl | rfl | rfl
  · cases hcall
  · cases hcall
  · cases hcall
    exact .inr (by decide)

/-- The batch of a transfer with another expiry stops the push. -/
theorem not_push_taken : ¬∀ run : List Request, PushTaken (runAll {} run) := by
  intro h
  have hbatch : ∃ b ∈ pushedBatches (runAll {} (relabelled "31.12.2027")),
      b.expiry = some "31.12.2027" := by
    decide
  obtain ⟨b, hb, hexpiry⟩ := hbatch
  obtain ⟨batch, hparse⟩ := (h (relabelled "31.12.2027")).accepted id ⟨"", none, ""⟩
  have hmem : (⟨.batch, b⟩ : AnyRow) ∈ collectPushRows (runAll {} (relabelled "31.12.2027")) :=
    mem_collectPushRows.mpr (pushed_eq _ .batch ▸ hb)
  have hday := ((parseExchange_rows_iff.mp ⟨batch, hparse⟩).1 _ hmem).2 "31.12.2027" hexpiry
  revert hday
  decide

end MyOriShop
