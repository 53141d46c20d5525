import Mathlib.Data.List.Basic
import Mathlib.Data.String.Basic
import Mathlib.Tactic.IntervalCases

/-!
# IsoDate: calendar dates and timestamps as ISO-8601 text

* `Date` is a calendar day of the years 1 to 9999; a `Date` that does not exist cannot be built.
* `Date.isoformat` is `date.isoformat`, the canonical `yyyy-mm-dd`.
* `Date.fromIso` is `date.fromisoformat` as the C implementation reads a text of 7, 8 or 10 bytes:
  `YYYY-MM-DD`, `YYYYMMDD`, and the week forms `YYYY-Www[-D]` and `YYYYWww[D]`. Bytes that are left
  over after the fields have been read are not looked at, so `20260904xx` is a date.
* `Instant` is a moment of UTC time to the second, `Instant.isoformat` its text
  `yyyy-mm-ddTHH:MM:SS+00:00`.
* `isClock` and `isTimeAndZone` are the documented grammar of the part after the separator that
  `datetime.fromisoformat` reads.

Results:
* `Date.fromIso_isoformat`: the canonical text of a day is read back as that day.
* `isTimeAndZone_instant`: the time part of an instant's text is well formed.
-/

namespace MyOriShop.Lib.IsoDate

/-! ## Calendar days -/

/-- Leap years of the proleptic Gregorian calendar. -/
def isLeap (year : Nat) : Bool := year % 4 == 0 && (year % 100 != 0 || year % 400 == 0)

/-- The number of days of a month. -/
def daysInMonth (year month : Nat) : Nat :=
  if month = 2 then (if isLeap year then 29 else 28)
  else if month = 4 ∨ month = 6 ∨ month = 9 ∨ month = 11 then 30 else 31

/-- A day that exists in the years 1 to 9999. -/
structure Date where
  year : Nat
  month : Nat
  day : Nat
  valid : 1 ≤ year ∧ year ≤ 9999 ∧ 1 ≤ month ∧ month ≤ 12 ∧ 1 ≤ day ∧ day ≤ daysInMonth year month
  deriving DecidableEq

/-- The day with these numbers, if there is one. -/
def Date.ofNums (year month day : Nat) : Option Date :=
  if h : 1 ≤ year ∧ year ≤ 9999 ∧ 1 ≤ month ∧ month ≤ 12 ∧ 1 ≤ day ∧ day ≤ daysInMonth year month
  then some ⟨year, month, day, h⟩ else none

/-- `n` in two digits. -/
def pad2 (n : Nat) : List Char := [Nat.digitChar (n / 10 % 10), Nat.digitChar (n % 10)]

/-- `n` in four digits. -/
def pad4 (n : Nat) : List Char := pad2 (n / 100) ++ pad2 n

/-- The characters of `isoformat`. -/
def Date.chars (d : Date) : List Char :=
  pad4 d.year ++ '-' :: (pad2 d.month ++ '-' :: pad2 d.day)

/-- `date.isoformat()`. -/
def Date.isoformat (d : Date) : String := String.ofList d.chars

/-! ## Reading a day -/

/-- The value of an ASCII digit. -/
def digitVal (c : Char) : Option Nat := if c.isDigit then some (c.toNat - 48) else none

/-- Exactly `n` ASCII digits and what follows them. -/
def takeDigits : Nat → List Char → Option (Nat × List Char)
  | 0, cs => some (0, cs)
  | _ + 1, [] => none
  | n + 1, c :: cs => do
    let d ← digitVal c
    let (v, r) ← takeDigits n cs
    return (d * 10 ^ n + v, r)

/-- The days before 1 January of a year, counted from 1 January of year 1. -/
def daysBeforeYear (year : Nat) : Nat :=
  let y := year - 1
  y * 365 + y / 4 - y / 100 + y / 400

/-- The days before the first of a month within its year. -/
def daysBeforeMonth (year month : Nat) : Nat :=
  ((List.range (month - 1)).map fun m => daysInMonth year (m + 1)).sum

/-- `weekday()` of 1 January: Monday is 0. -/
def firstWeekday (year : Nat) : Nat := (daysBeforeYear year + 7) % 7

/-- The day number (1 January of year 1 is 1) of the Monday of ISO week 1, `iso_week1_monday`. -/
def week1Monday (year : Nat) : Nat :=
  let first := daysBeforeYear year + 1
  let monday := first - firstWeekday year
  if firstWeekday year > 3 then monday + 7 else monday

/-- The day with a given day number, `ord_to_ymd`. -/
def Date.ofOrdinal (ordinal : Nat) : Option Date :=
  let n := ordinal - 1
  let n400 := n / 146097
  let n := n % 146097
  let n100 := n / 36524
  let n := n % 36524
  let n4 := n / 1461
  let n := n % 1461
  let n1 := n / 365
  let n := n % 365
  let year := n400 * 400 + n100 * 100 + n4 * 4 + n1 + 1
  if n1 = 4 ∨ n100 = 4 then Date.ofNums (year - 1) 12 31
  else
    let guess := (n + 50) / 32
    let month := if daysBeforeMonth year guess > n then guess - 1 else guess
    Date.ofNums year month (n - daysBeforeMonth year month + 1)

/-- `iso_to_ymd`: a year, a week of it and a day of the week. -/
def Date.ofWeek (year week day : Nat) : Option Date :=
  let long := firstWeekday year = 3 ∨ (firstWeekday year = 2 ∧ isLeap year)
  if 1 ≤ year ∧ year ≤ 9999 ∧ 1 ≤ week ∧ (week ≤ 52 ∨ (week = 53 ∧ long)) ∧ 1 ≤ day ∧ day ≤ 7
  then Date.ofOrdinal (week1Monday year + (week - 1) * 7 + (day - 1)) else none

/-- The rest of a week form after the `W`; `sep` tells whether the fields have separators. -/
def readWeek (year : Nat) (sep : Bool) (cs : List Char) : Option Date := do
  let (week, r) ← takeDigits 2 cs
  match sep, r with
  | _, [] => Date.ofWeek year week 1
  | true, '-' :: r' => do
    let (day, _) ← takeDigits 1 r'
    Date.ofWeek year week day
  | true, _ => none
  | false, r' => do
    let (day, _) ← takeDigits 1 r'
    Date.ofWeek year week day

/-- The rest of a month form after the year. -/
def readMonth (year : Nat) (sep : Bool) (cs : List Char) : Option Date := do
  let (month, r) ← takeDigits 2 cs
  let r' ← match sep, r with
    | true, '-' :: r' => some r'
    | true, _ => none
    | false, r' => some r'
  let (day, _) ← takeDigits 2 r'
  Date.ofNums year month day

/-- The number of bytes of a text. -/
def byteLength (cs : List Char) : Nat := (cs.map Char.utf8Size).sum

/-- `date.fromisoformat(s)` on characters; `none` for `ValueError`. -/
def Date.fromChars (cs : List Char) : Option Date :=
  if byteLength cs = 7 ∨ byteLength cs = 8 ∨ byteLength cs = 10 then
    match takeDigits 4 cs with
    | some (year, '-' :: 'W' :: r) => readWeek year true r
    | some (year, 'W' :: r) => readWeek year false r
    | some (year, '-' :: r) => readMonth year true r
    | some (year, r) => readMonth year false r
    | none => none
  else none

/-- `date.fromisoformat(s)`. -/
def Date.fromIso (s : String) : Option Date := Date.fromChars s.toList

/-! ## The canonical text is read back -/

theorem digitVal_digitChar : ∀ n, n < 10 → digitVal (Nat.digitChar n) = some n := by decide

theorem utf8Size_digitChar : ∀ n, n < 10 → (Nat.digitChar n).utf8Size = 1 := by decide

theorem takeDigits_pad2 {n : Nat} (hn : n < 100) (cs : List Char) :
    takeDigits 2 (pad2 n ++ cs) = some (n, cs) := by
  have h1 := digitVal_digitChar (n / 10 % 10) (by omega)
  have h2 := digitVal_digitChar (n % 10) (by omega)
  have hv : n / 10 % 10 * 10 + n % 10 = n := by omega
  simp [takeDigits, pad2, h1, h2, hv]

theorem takeDigits_pad4 {n : Nat} (hn : n < 10000) (cs : List Char) :
    takeDigits 4 (pad4 n ++ cs) = some (n, cs) := by
  have h1 := digitVal_digitChar (n / 100 / 10 % 10) (by omega)
  have h2 := digitVal_digitChar (n / 100 % 10) (by omega)
  have h3 := digitVal_digitChar (n / 10 % 10) (by omega)
  have h4 := digitVal_digitChar (n % 10) (by omega)
  have hv : n / 100 / 10 % 10 * 1000 + (n / 100 % 10 * 100 + (n / 10 % 10 * 10 + n % 10)) = n := by
    omega
  simp [takeDigits, pad4, pad2, h1, h2, h3, h4, hv]

theorem Date.month_le (d : Date) : d.month ≤ 12 := d.valid.2.2.2.1

theorem Date.day_le (d : Date) : d.day ≤ 31 := by
  refine d.valid.2.2.2.2.2.trans ?_
  unfold daysInMonth
  split_ifs <;> omega

theorem Date.ofNums_self (d : Date) : Date.ofNums d.year d.month d.day = some d := by
  unfold Date.ofNums
  rw [dif_pos d.valid]

theorem Date.length_chars (d : Date) : d.chars.length = 10 := rfl

theorem Date.byteLength_chars (d : Date) : byteLength d.chars = 10 := by
  have h := utf8Size_digitChar
  have hdash : '-'.utf8Size = 1 := by decide
  simp [byteLength, Date.chars, pad4, pad2, hdash, h _ (Nat.mod_lt _ (by omega : 0 < 10))]

theorem digitChar_ne {n : Nat} (hn : n < 10) : Nat.digitChar n ≠ 'W' := by
  interval_cases n <;> decide

/-- **The canonical text of a day is read back as that day.** -/
theorem Date.fromIso_isoformat (d : Date) : Date.fromIso d.isoformat = some d := by
  have hy : d.year < 10000 := by have := d.valid; omega
  have hm : d.month < 100 := by have := d.month_le; omega
  have hd : d.day < 100 := by have := d.day_le; omega
  have hmonth : readMonth d.year true (pad2 d.month ++ '-' :: pad2 d.day) = some d := by
    have hday := takeDigits_pad2 hd []
    rw [List.append_nil] at hday
    simp [readMonth, takeDigits_pad2 hm, hday, Date.ofNums_self]
  have hyear : takeDigits 4 d.chars = some (d.year, '-' :: (pad2 d.month ++ '-' :: pad2 d.day)) :=
    takeDigits_pad4 hy _
  unfold Date.fromIso Date.isoformat Date.fromChars
  rw [String.toList_ofList, if_pos (by simp [Date.byteLength_chars]), hyear]
  split
  · next heq =>
    have hhead : Nat.digitChar (d.month / 10 % 10) = 'W' := by
      simpa [pad2] using congrArg (fun o => o.map fun p => p.2.tail.head?) heq
    exact absurd hhead (digitChar_ne (by omega))
  · next heq => simp at heq
  · next heq =>
    simp only [Option.some.injEq, Prod.mk.injEq, List.cons.injEq, true_and] at heq
    rw [← heq.1, ← heq.2]
    exact hmonth
  · next h1 h2 heq =>
    simp only [Option.some.injEq, Prod.mk.injEq] at heq
    exact absurd heq.2.symm (h2 _)
  · next heq => simp at heq

/-! ## Instants -/

/-- A moment of UTC time, to the second. -/
structure Instant where
  date : Date
  hour : Nat
  minute : Nat
  second : Nat
  valid : hour < 24 ∧ minute < 60 ∧ second < 60

/-- The time part of an instant's text. -/
def Instant.timeChars (t : Instant) : List Char :=
  pad2 t.hour ++ ':' :: (pad2 t.minute ++ ':' :: (pad2 t.second ++ "+00:00".toList))

/-- `datetime.isoformat(timespec="seconds")` of a UTC moment. -/
def Instant.isoformat (t : Instant) : String :=
  String.ofList (t.date.chars ++ 'T' :: t.timeChars)

/-- The digits after a decimal mark. -/
def isFractionPart (cs : List Char) : Bool := !cs.isEmpty && cs.all Char.isDigit

/-- The end of a clock reading after the seconds. -/
def isAfterSeconds : List Char → Bool
  | [] => true
  | c :: cs => (c == '.' || c == ',') && isFractionPart cs

/-- `HH[:MM[:SS[.f]]]` or `HH[MM[SS[.f]]]`, with the fields in range. -/
def isClock (cs : List Char) : Bool :=
  match takeDigits 2 cs with
  | some (hour, []) => decide (hour < 24)
  | some (hour, ':' :: r) =>
    decide (hour < 24) && match takeDigits 2 r with
      | some (minute, []) => decide (minute < 60)
      | some (minute, ':' :: r') =>
        decide (minute < 60) && match takeDigits 2 r' with
          | some (second, r'') => decide (second < 60) && isAfterSeconds r''
          | none => false
      | _ => false
  | some (hour, r) =>
    decide (hour < 24) && match takeDigits 2 r with
      | some (minute, []) => decide (minute < 60)
      | some (minute, r') =>
        decide (minute < 60) && match takeDigits 2 r' with
          | some (second, r'') => decide (second < 60) && isAfterSeconds r''
          | none => false
      | none => false
  | none => false

/-- The first character of a zone designator. -/
def isZoneMark (c : Char) : Bool := c == '+' || c == '-' || c == 'Z'

/-- What `datetime.fromisoformat` accepts after the separator: nothing, or a clock reading with an
optional zone, `Z` or a signed offset. -/
def isTimeAndZone (cs : List Char) : Bool :=
  let clock := cs.takeWhile fun c => !isZoneMark c
  cs.isEmpty || isClock clock &&
    match cs.dropWhile fun c => !isZoneMark c with
    | [] => true
    | 'Z' :: r => r.isEmpty
    | _ :: r => isClock r

theorem isClock_hms {h m s : Nat} (hv : h < 24 ∧ m < 60 ∧ s < 60) :
    isClock (pad2 h ++ ':' :: (pad2 m ++ ':' :: pad2 s)) = true := by
  obtain ⟨hh, hm, hs⟩ := hv
  have hsec := takeDigits_pad2 (show s < 100 by omega) []
  rw [List.append_nil] at hsec
  simp [isClock, takeDigits_pad2 (show h < 100 by omega), takeDigits_pad2 (show m < 100 by omega),
    hsec, hh, hm, hs, isAfterSeconds]

theorem not_zoneMark_digitChar : ∀ n, n < 10 → isZoneMark (Nat.digitChar n) = false := by decide

/-- The text of an instant is a well-formed timestamp after its date and separator. -/
theorem isTimeAndZone_instant (t : Instant) : isTimeAndZone t.timeChars = true := by
  have hz := not_zoneMark_digitChar
  have hmark : ∀ c ∈ pad2 t.hour ++ ':' :: (pad2 t.minute ++ ':' :: pad2 t.second),
      (!isZoneMark c) = true := by
    simp [pad2, hz _ (Nat.mod_lt _ (by omega : 0 < 10)), show isZoneMark ':' = false by decide]
  have hsplit : t.timeChars =
      (pad2 t.hour ++ ':' :: (pad2 t.minute ++ ':' :: pad2 t.second)) ++ "+00:00".toList := by
    simp [Instant.timeChars]
  have hplus : ("+00:00".toList.takeWhile fun c => !isZoneMark c) = [] := by decide
  have hdrop : ("+00:00".toList.dropWhile fun c => !isZoneMark c) = "+00:00".toList := by decide
  unfold isTimeAndZone
  rw [hsplit, List.takeWhile_append_of_pos hmark, List.dropWhile_append_of_pos hmark, hplus, hdrop,
    List.append_nil]
  have hzone : isClock "00:00".toList = true := by decide
  simp only [isClock_hms t.valid, Bool.true_and, Bool.or_eq_true]
  exact .inr hzone

end MyOriShop.Lib.IsoDate
