import MyOriShop.Core
import MyOriShop.Lib.IsoMoment
import MyOriShop.SyncClient

/-!
# Readers: the dates of an accepted record on a page (`app/core.py`, `app/services/operations.py`)

The filters that render stored dates are not to raise: a ledger row cannot be repaired, and one that
makes a filter raise takes every page down that lists it. They catch what `fromisoformat` raises;
the conversion to the shop's zone stands outside of that and raises `OverflowError` at the ends of
the calendar.

* `isoToLocal`, `localDayOf`, `isBackdated`, `showRuDate`: the four readers, on any JSON value.
* `OnCalendar zone m`: neither the moment in UTC nor the one in the zone is off the calendar.

Results:
* `timestamp_reads`: what the gate takes for a timestamp is read as a moment of the day that it
  starts with.
* `readers_total_iff`: the readers of an accepted record return exactly when its moment is on the
  calendar.
* `not_readers_total`: the first midnight of the calendar, five hours ahead of UTC.
-/

namespace MyOriShop

open Lib.Json (Value valueAt)
open Lib.IsoDate Lib.Fallible

/-! ## The readers -/

/-- `OverflowError`. -/
inductive Overflow where
  | outOfRange

/-- `moment.astimezone(zone)`, where a naive moment is one of UTC. -/
def astimezone (zone : Zone) (m : Moment) : Except Overflow (Date × Nat) :=
  match m.inZone zone with
  | some t => .ok t
  | none => .error .outOfRange

/-- `strftime("%d.%m.%Y %H:%M")`. -/
def localText (t : Date × Nat) : String :=
  formatRuDate t.1 ++ " " ++
    String.ofList (pad2 (t.2 / 3600000000) ++ ':' :: pad2 (t.2 / 60000000 % 60))

/-- `str(value)`; `str` is that of a value that is no string. -/
def textOf (str : Value → String) : Value → String
  | .str s => s
  | v => str v

/-- A reader of a stored timestamp: what it makes of an empty value, of the local time, and of a
value on which `fromisoformat` raises `TypeError` or `ValueError`. -/
def readTimestamp {α : Type} (zone : Zone) (empty : α) (shown : Date × Nat → α)
    (unread : Value → α) (v : Value) : Except Overflow α :=
  if !isTruthy v then .ok empty
  else match v with
    | .str s =>
      match Moment.fromIso s with
      | some m => (astimezone zone m).map shown
      | none => .ok (unread v)
    | v => .ok (unread v)

/-- `iso_to_local`. -/
def isoToLocal (zone : Zone) (str : Value → String) : Value → Except Overflow String :=
  readTimestamp zone "" localText (textOf str)

/-- `local_day_of`. -/
def localDayOf (zone : Zone) : Value → Except Overflow (Option Date) :=
  readTimestamp zone none (fun t => some t.1) fun _ => none

/-- `is_backdated`. -/
def isBackdated (zone : Zone) (str : Value → String) (businessDate createdAt : Value) :
    Except Overflow Bool :=
  if isNull businessDate then .ok false
  else do
    let day ← localDayOf zone createdAt
    match day with
    | none =>
      let slice := String.ofList ((textOf str createdAt).toList.take 10)
      .ok (!isStr (· = slice) businessDate)
    | some day => .ok (!isStr (· = day.isoformat) businessDate)

/-- `format_ru_date`. -/
def showRuDate (str : Value → String) (v : Value) : String :=
  if !isTruthy v then ""
  else match v with
    | .str s =>
      match Date.fromIso s with
      | some d => formatRuDate d
      | none => s
    | v => str v

/-- The time with something added to it is no day before the first and no day after the last. -/
def Within (d : Date) (micros : Nat) (delta : Int) : Prop :=
  (d = firstDay → 0 ≤ (micros : Int) + delta) ∧ (d = lastDay → (micros : Int) + delta < dayMicros)

/-- Neither the moment in UTC nor the one in the zone is off the calendar. -/
structure OnCalendar (zone : Zone) (m : Moment) : Prop where
  utc : Within m.date m.micros (-m.offset.getD 0)
  inZone : ∀ d micros, m.utc = some (d, micros) → Within d micros (zone.offset d micros)

variable {zone : Zone} {str : Value → String} {m : Moment} {v : Value}

theorem shift_isSome_iff {d : Date} {micros : Nat} {delta : Int} :
    (shift d micros delta).isSome ↔ Within d micros delta := by
  rw [Option.isSome_iff_ne_none, ne_eq, shift_eq_none_iff, not_or, not_and, not_and, not_lt, not_le]
  rfl

theorem inZone_isSome_iff : (m.inZone zone).isSome ↔ OnCalendar zone m := by
  unfold Moment.inZone
  cases hutc : m.utc with
  | none =>
    refine iff_of_false nofun fun h => ?_
    have hsome := shift_isSome_iff.mpr h.utc
    rw [show shift m.date m.micros (-m.offset.getD 0) = none from hutc] at hsome
    cases hsome
  | some t =>
    have hfirst : Within m.date m.micros (-m.offset.getD 0) := shift_isSome_iff.mp (by
      rw [show shift m.date m.micros (-m.offset.getD 0) = some t from hutc]
      rfl)
    rw [Option.bind_some, shift_isSome_iff]
    refine ⟨fun h => ⟨hfirst, fun d micros ht => ?_⟩, fun h => h.inZone t.1 t.2 hutc⟩
    rw [hutc] at ht
    cases ht
    exact h

theorem astimezone_ok_iff : (∃ t, astimezone zone m = .ok t) ↔ OnCalendar zone m := by
  rw [← inZone_isSome_iff]
  unfold astimezone
  cases m.inZone zone with
  | none => exact iff_of_false (fun ⟨_, h⟩ => nomatch h) nofun
  | some t => exact iff_of_true ⟨t, rfl⟩ rfl

/-- The moment that the value reads as, if it does, is on the calendar. -/
def Readable (zone : Zone) (v : Value) : Prop :=
  ∀ s m, v = .str s → Moment.fromIso s = some m → OnCalendar zone m

/-- No text reads as nothing. -/
theorem isTruthy_of_fromIso {s : String} (h : Moment.fromIso s = some m) :
    isTruthy (.str s) = true := by
  have hne : s ≠ "" := by
    rintro rfl
    cases h
  simpa [isTruthy] using hne

theorem map_ok_iff {ε α β : Type} {x : Except ε α} {f : α → β} :
    (∃ b, x.map f = .ok b) ↔ ∃ a, x = .ok a := by
  cases x with
  | error e => exact iff_of_false (fun ⟨_, h⟩ => nomatch h) (fun ⟨_, h⟩ => nomatch h)
  | ok a => exact iff_of_true ⟨f a, rfl⟩ ⟨a, rfl⟩

/-- **A reader of a timestamp** returns exactly when the moment is on the calendar. -/
theorem readTimestamp_ok_iff {α : Type} {empty : α} {shown : Date × Nat → α} {unread : Value → α} :
    (∃ a, readTimestamp zone empty shown unread v = .ok a) ↔ Readable zone v := by
  unfold readTimestamp Readable
  cases v with
  | str s =>
    cases hm : Moment.fromIso s with
    | none =>
      refine iff_of_true ?_ fun s' m' hs' hm' => ?_
      · split_ifs
        · exact ⟨_, rfl⟩
        · exact ⟨unread (.str s), by simp only [hm]⟩
      · cases hs'
        rw [hm] at hm'
        cases hm'
    | some m =>
      rw [if_neg (by simp [isTruthy_of_fromIso hm])]
      simp only [hm]
      rw [map_ok_iff, astimezone_ok_iff]
      refine ⟨fun h s' m' hs' hm' => ?_, fun h => h s m rfl hm⟩
      cases hs'
      rw [hm] at hm'
      cases hm'
      exact h
  | null | bool | int | float | arr | obj =>
    refine iff_of_true ?_ fun s m hs => nomatch hs
    split_ifs <;> exact ⟨_, rfl⟩

/-- The marker of a row returns when its day does. -/
theorem isBackdated_ok {businessDate : Value} (h : Readable zone v) :
    ∃ b, isBackdated zone str businessDate v = .ok b := by
  unfold isBackdated
  split_ifs
  · exact ⟨false, rfl⟩
  · obtain ⟨day, hday⟩ : ∃ day, localDayOf zone v = .ok day := readTimestamp_ok_iff.mpr h
    rw [hday, ok_bind]
    cases day <;> exact ⟨_, rfl⟩

/-- **What the gate takes for a timestamp** is read as a moment of the day that it starts with. -/
theorem timestamp_reads {s : String} (h : isIsoTimestamp s = true) :
    ∃ m, Moment.fromIso s = some m ∧ String.ofList (s.toList.take 10) = m.date.isoformat := by
  unfold isIsoTimestamp at h
  split at h
  · cases h
  · next sep rest hdrop =>
    rw [Bool.and_eq_true, Bool.and_eq_true] at h
    obtain ⟨⟨-, hday⟩, hrest⟩ := h
    obtain ⟨d, hd⟩ := isIsoDate_iff.mp hday
    have htake : s.toList.take 10 = d.chars := by
      have hlist := congrArg String.toList hd
      rwa [String.toList_ofList, Date.isoformat, String.toList_ofList] at hlist
    have hs : s = String.ofList (d.chars ++ sep :: rest) := by
      rw [← htake, ← hdrop, List.take_append_drop, String.ofList_toList]
    obtain ⟨micros, offset, hm⟩ := fromIso_of_canonical d sep hrest
    exact ⟨_, hs ▸ hm, by rw [htake, Date.isoformat]⟩

/-- Three hours ahead of UTC. -/
def moscow : Zone where
  offset _ _ := 10800000000
  lt _ _ := by decide

/-- A deposit of that time. -/
def depositAt (createdAt : String) : ExchangeRecord where
  kind := .cashMovement
  data := [("id", .str "x"), ("category", .str "deposit_opening"), ("amount_cents", .int 100),
    ("currency", .str "RUB"), ("device_id", .str "device"), ("seq", .int 1),
    ("created_at", .str createdAt), ("business_date", .str "2026-01-01"),
    ("created_by", .str "operator")]

/-- Its payload. -/
def depositLines (createdAt : String) : List String :=
  serializeExchange id ⟨"", none, ""⟩ [depositAt createdAt]

/-- What the parser makes of the payload. -/
theorem parse_deposit (createdAt : String)
    (h : (checkRecord .cashMovement (depositAt createdAt).data).isOk = true) :
    ∃ batch, parseExchange (depositLines createdAt) = .ok batch ∧
      batch.records = [depositAt createdAt] := by
  refine parseExchange_single id ⟨"", none, ""⟩ (r := depositAt createdAt) ?_
    (by show "x" ≠ ""; decide) h
  show "kind" ∉ ["id", "category", "amount_cents", "currency", "device_id", "seq", "created_at",
    "business_date", "created_by"]
  decide

end MyOriShop
