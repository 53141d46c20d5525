import MyOriShop.Readers
import MyOriShop.History

/-!
# Backfill: the business dates of the old rows (`alembic/versions/0027_….py`)

The migration that brought the business date filled it in for the rows that were there, by a copy of
its own of the rule by which the application reads a local day from `created_at`; a migration is not
to import code that keeps changing. The marker of back-dated rows compares the one with the other.

* `localBusinessDate` is `_local_business_date`, `backfill` the loop of `upgrade` over both ledgers.

Results:
* `localBusinessDate_eq`: the copy in terms of `localDayOf`, on every text.
* `localBusinessDate_unmarked`: what the copy makes of a text is not marked beside that text.
* `backfill_unmarked`: no row of a backfilled ledger is marked, and nothing else is written.
-/

namespace MyOriShop

open Lib.Json (Value)
open Lib.IsoDate Lib.Fallible

variable {zone : Zone} {str : Value → String} {s : String} {d d' : Db}

/-- The first ten characters. -/
def leadingDay (s : String) : String := String.ofList (s.toList.take 10)

/-- `_local_business_date`; `zone` is that of `_DISPLAY_TZ`. -/
def localBusinessDate (zone : Zone) (createdAt : String) : Except Overflow String :=
  match Moment.fromIso createdAt with
  | some moment => (astimezone zone moment).map fun t => t.1.isoformat
  | none => .ok (leadingDay createdAt)

/-- The business date of a row after the update: a row without one gets it if it has a timestamp. -/
def backfillDate (zone : Zone) (createdAt : String) (businessDate : Option String) :
    Except Overflow (Option String) :=
  if businessDate.isNone && createdAt != "" then (localBusinessDate zone createdAt).map some
  else .ok businessDate

/-- One of the two updates, for rows with these columns. -/
def backfillRows {α : Type} (zone : Zone) (createdAt : α → String)
    (businessDate : α → Option String) (setDate : α → Option String → α) (rows : List α) :
    Except Overflow (List α) :=
  rows.mapM fun r => (backfillDate zone (createdAt r) (businessDate r)).map (setDate r)

/-- The second step of `upgrade`. -/
def backfill (zone : Zone) (d : Db) : Except Overflow Db := do
  let operations ← backfillRows zone Operation.createdAt Operation.businessDate
    (fun o day => { o with businessDate := day }) d.operations
  let cashMovements ← backfillRows zone CashMovement.createdAt CashMovement.businessDate
    (fun m day => { m with businessDate := day }) d.cashMovements
  return { d with operations, cashMovements }

/-! ## The two copies -/

/-- **The copy of the migration** is the day that the application reads, or the first ten characters
where it reads none; it raises when the application does. -/
theorem localBusinessDate_eq (zone : Zone) (s : String) :
    localBusinessDate zone s =
      (localDayOf zone (.str s)).map fun day => (day.map Date.isoformat).getD (leadingDay s) := by
  unfold localBusinessDate localDayOf readTimestamp
  cases hm : Moment.fromIso s with
  | none =>
    simp only [hm]
    split_ifs <;> rfl
  | some m =>
    rw [if_neg (by simp [isTruthy_of_fromIso hm])]
    simp only [hm]
    cases astimezone zone m <;> rfl

theorem localBusinessDate_ok_iff :
    (∃ day, localBusinessDate zone s = .ok day) ↔ Readable zone (.str s) := by
  rw [localBusinessDate_eq, map_ok_iff]
  exact readTimestamp_ok_iff

/-- A row beside the date that the migration gives it is not marked. -/
theorem isBackdated_localBusinessDate {day : String} (h : localBusinessDate zone s = .ok day) :
    isBackdated zone str (.str day) (.str s) = .ok false := by
  rw [localBusinessDate_eq] at h
  unfold isBackdated
  rw [if_neg (by simp [isNull])]
  cases hday : localDayOf zone (.str s) with
  | error e =>
    rw [hday] at h
    cases h
  | ok read =>
    rw [hday] at h
    rw [ok_bind]
    cases read <;>
      · cases h
        simp [isStr, leadingDay, textOf]

/-- **The backfill is never marked as back-dated.** Whatever the text of `created_at`, when its
instant, if it names one, stays on the calendar in UTC and in the zone: the migration finds a day, and
the marker of a row with that day and that text is off. -/
theorem localBusinessDate_unmarked (zone : Zone) (str : Value → String) (createdAt : String)
    (h : Readable zone (.str createdAt)) :
    ∃ day, localBusinessDate zone createdAt = .ok day ∧
      isBackdated zone str (.str day) (.str createdAt) = .ok false := by
  obtain ⟨day, hday⟩ := localBusinessDate_ok_iff.mpr h
  exact ⟨day, hday, isBackdated_localBusinessDate hday⟩

/-- Half past midnight in the shop, on the first of the month. -/
theorem localBusinessDate_unmarked_straddle :
    (localBusinessDate moscow "2026-08-31T21:30:00+00:00").toOption = some "2026-09-01" ∧
      ∃ day, localBusinessDate moscow "2026-08-31T21:30:00+00:00" = .ok day ∧
        isBackdated moscow (fun _ => "") (.str day) (.str "2026-08-31T21:30:00+00:00") =
          .ok false := by
  have hread : Moment.fromIso "2026-08-31T21:30:00+00:00" =
      some ⟨⟨2026, 8, 31, by decide⟩, 77400000000, some 0⟩ := by decide
  refine ⟨by decide, localBusinessDate_unmarked _ _ _ fun s m hs hm => ?_⟩
  cases hs
  rw [hread] at hm
  cases hm
  exact inZone_isSome_iff.mp (inZone_isSome_of_year _ _ (by decide))

/-! ## The ledgers -/

theorem backfillDate_unmarked {day : Option String} (h : backfillDate zone s none = .ok day) :
    isBackdated zone str (day.elim .null .str) (.str s) = .ok false := by
  unfold backfillDate at h
  split_ifs at h
  · cases hday : localBusinessDate zone s with
    | error e =>
      rw [hday] at h
      cases h
    | ok text =>
      rw [hday] at h
      cases h
      exact isBackdated_localBusinessDate hday
  · cases h
    rfl

section Rows

variable {α : Type} {createdAt : α → String} {businessDate : α → Option String}
  {setDate : α → Option String → α} {rows out : List α}

/-- A row of a backfilled ledger is one from before, with its day. -/
theorem mem_backfillRows (h : backfillRows zone createdAt businessDate setDate rows = .ok out)
    {r' : α} (hr' : r' ∈ out) : ∃ r ∈ rows, ∃ day, setDate r day = r' ∧
      backfillDate zone (createdAt r) (businessDate r) = .ok day := by
  obtain ⟨r, hr, hrow⟩ := mem_of_mapM_ok h hr'
  cases hday : backfillDate zone (createdAt r) (businessDate r) with
  | error e =>
    rw [hday] at hrow
    cases hrow
  | ok day =>
    rw [hday] at hrow
    cases hrow
    exact ⟨r, hr, day, rfl, hday⟩

/-- The days apart, the rows are the ones from before, in their order. -/
theorem map_backfillRows (h : backfillRows zone createdAt businessDate setDate rows = .ok out)
    {clear : α → α} (hclear : ∀ r ∈ rows, ∀ day, clear (setDate r day) = r) :
    out.map clear = rows := by
  refine (map_of_mapM_ok (h := id) h fun r hr r' hrow => ?_).trans (List.map_id rows)
  cases hday : backfillDate zone (createdAt r) (businessDate r) with
  | error e =>
    rw [hday] at hrow
    cases hrow
  | ok day =>
    rw [hday] at hrow
    cases hrow
    exact hclear r hr day

end Rows

/-- **A backfilled ledger.** When the rows had no business date, none of them is marked afterwards,
the days apart the rows are what they were, and so are all other tables. -/
theorem backfill_unmarked (h : backfill zone d = .ok d')
    (hops : ∀ o ∈ d.operations, Operation.businessDate o = none)
    (hcash : ∀ m ∈ d.cashMovements, CashMovement.businessDate m = none) :
    (∀ o ∈ d'.operations, marker zone str o = .ok false) ∧
    (∀ m ∈ d'.cashMovements, isBackdated zone str
      ((CashMovement.businessDate m).elim .null .str) (.str m.createdAt) = .ok false) ∧
    d'.operations.map (fun o => { o with businessDate := none }) = d.operations ∧
    d'.cashMovements.map (fun m => { m with businessDate := none }) = d.cashMovements ∧
    d' = { d with operations := d'.operations, cashMovements := d'.cashMovements } := by
  obtain ⟨operations, hopsRun, h⟩ := bind_ok_iff.mp h
  obtain ⟨cashMovements, hcashRun, h⟩ := bind_ok_iff.mp h
  cases h
  refine ⟨fun o' ho' => ?_, fun m' hm' => ?_, map_backfillRows hopsRun fun o ho day => ?_,
    map_backfillRows hcashRun fun m hm day => ?_, rfl⟩
  · obtain ⟨o, ho, day, rfl, hday⟩ := mem_backfillRows hopsRun ho'
    rw [hops o ho] at hday
    exact backfillDate_unmarked hday
  · obtain ⟨m, hm, day, rfl, hday⟩ := mem_backfillRows hcashRun hm'
    rw [hcash m hm] at hday
    exact backfillDate_unmarked hday
  · rw [← hops o ho]
  · rw [← hcash m hm]

end MyOriShop
