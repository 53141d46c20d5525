import MyOriShop.Lib.IsoDate

/-!
# IsoMoment: timestamps with an offset, and the ends of the calendar

* `Moment` is a `datetime`: a day, the microseconds of the day, and the offset from UTC if there is
  one. `readTimeAndZone` reads what `isTimeAndZone` accepts.
* `Moment.fromIso` is `datetime.fromisoformat`: the separator is one character wherever the date
  form ends, as `separatorAt` finds it.
* `shift` adds less than a day to a day and its microseconds; there is none before 1 January of
  year 1 or after 31 December 9999, where the source language raises `OverflowError`.
* `Moment.utc` is the moment in UTC, `Moment.inZone` in a zone, given as its offset at each UTC time.

Results:
* `readTimeAndZone_isSome`: the reader and the grammar agree.
* `readTimeAndZone_offset_lt`: an offset is less than a day.
* `fromIso_of_canonical`: a canonical date, a separator and what the grammar accepts are read.
* `shift_eq_none_iff`: what falls off the calendar.
* `inZone_isSome_of_year`: nothing does in the years 3 to 9997.
-/

namespace MyOriShop.Lib.IsoDate

/-! ## The time of day -/

/-- The microseconds of a day. -/
def dayMicros : Nat := 86400000000

/-- The microseconds that digits after the decimal mark mean; further ones are cut off. -/
def fractionMicros (cs : List Char) : Nat :=
  Nat.ofDigitChars 10 ((cs ++ List.replicate 6 '0').take 6) 0

/-- The end of a clock reading after the seconds. -/
def readAfterSeconds : List Char → Option Nat
  | [] => some 0
  | c :: cs =>
    if (c == '.' || c == ',') && isFractionPart cs then some (fractionMicros cs) else none

/-- The microseconds of a clock reading. -/
def clockMicros (hour minute second micros : Nat) : Nat :=
  ((hour * 60 + minute) * 60 + second) * 1000000 + micros

/-- The seconds and what follows them. -/
def readSeconds (hour minute : Nat) (cs : List Char) : Option Nat :=
  match takeDigits 2 cs with
  | some (second, r) =>
    if second < 60 then (readAfterSeconds r).map (clockMicros hour minute second) else none
  | none => none

/-- A clock reading, in microseconds. -/
def readClock (cs : List Char) : Option Nat :=
  match takeDigits 2 cs with
  | some (hour, []) => if hour < 24 then some (clockMicros hour 0 0 0) else none
  | some (hour, ':' :: r) =>
    if hour < 24 then match takeDigits 2 r with
      | some (minute, []) => if minute < 60 then some (clockMicros hour minute 0 0) else none
      | some (minute, ':' :: r') => if minute < 60 then readSeconds hour minute r' else none
      | _ => none
    else none
  | some (hour, r) =>
    if hour < 24 then match takeDigits 2 r with
      | some (minute, []) => if minute < 60 then some (clockMicros hour minute 0 0) else none
      | some (minute, r') => if minute < 60 then readSeconds hour minute r' else none
      | none => none
    else none
  | none => none

/-- The time of day and the offset, if there is one. -/
def readTimeAndZone (cs : List Char) : Option (Nat × Option Int) :=
  if cs.isEmpty then some (0, none)
  else (readClock (cs.takeWhile fun c => !isZoneMark c)).bind fun time =>
    match cs.dropWhile fun c => !isZoneMark c with
    | [] => some (time, none)
    | 'Z' :: r => if r.isEmpty then some (time, some 0) else none
    | c :: r => (readClock r).map fun offset : Nat =>
      (time, some (if c == '-' then -(offset : Int) else offset))

theorem readAfterSeconds_isSome (cs : List Char) :
    (readAfterSeconds cs).isSome = isAfterSeconds cs := by
  cases cs with
  | nil => rfl
  | cons c cs =>
    simp only [readAfterSeconds, isAfterSeconds]
    split_ifs with h
    · exact h.symm
    · exact (Bool.eq_false_iff.mpr h).symm

theorem readSeconds_isSome (hour minute : Nat) (cs : List Char) :
    (readSeconds hour minute cs).isSome =
      (takeDigits 2 cs).any fun p => decide (p.1 < 60) && isAfterSeconds p.2 := by
  unfold readSeconds
  cases takeDigits 2 cs with
  | none => rfl
  | some p =>
    by_cases h : p.1 < 60 <;> simp [h, readAfterSeconds_isSome]

theorem readClock_isSome (cs : List Char) : (readClock cs).isSome = isClock cs := by
  unfold readClock isClock
  generalize takeDigits 2 cs = hours
  rcases hours with _ | ⟨hour, _ | ⟨c, r⟩⟩
  · rfl
  · by_cases h : hour < 24 <;> simp [h]
  by_cases h : hour < 24
  · by_cases hc : c = ':'
    · subst hc
      simp only [h, if_true, decide_true, Bool.true_and]
      generalize takeDigits 2 r = minutes
      rcases minutes with _ | ⟨minute, _ | ⟨c', r'⟩⟩
      · rfl
      · by_cases hm : minute < 60 <;> simp [hm]
      · by_cases hc' : c' = ':'
        · subst hc'
          by_cases hm : minute < 60
          · simp only [hm, if_true, readSeconds_isSome]
            cases takeDigits 2 r' <;> simp
          · simp [hm]
        · simp [hc']
    · simp only [List.cons.injEq, hc, false_and, imp_self, implies_true, h, if_true, decide_true,
        Bool.true_and]
      generalize takeDigits 2 (c :: r) = minutes
      rcases minutes with _ | ⟨minute, _ | ⟨c', r'⟩⟩
      · rfl
      · by_cases hm : minute < 60 <;> simp [hm]
      · by_cases hm : minute < 60
        · simp only [hm, if_true, readSeconds_isSome]
          cases takeDigits 2 (c' :: r') <;> simp
        · simp [hm]
  · by_cases hc : c = ':'
    · subst hc
      simp [h]
    · simp [hc, h]

/-- **The reader and the grammar agree.** -/
theorem readTimeAndZone_isSome (cs : List Char) :
    (readTimeAndZone cs).isSome = isTimeAndZone cs := by
  unfold readTimeAndZone isTimeAndZone
  cases hempty : cs.isEmpty with
  | true => rfl
  | false =>
    simp only [Bool.false_eq_true, if_false, Bool.false_or]
    rw [← readClock_isSome]
    cases readClock (cs.takeWhile fun c => !isZoneMark c) with
    | none => rfl
    | some time =>
      simp only [Option.bind_some, Option.isSome_some, Bool.true_and]
      generalize cs.dropWhile (fun c => !isZoneMark c) = zone
      rcases zone with _ | ⟨c, r⟩
      · rfl
      by_cases hc : c = 'Z'
      · subst hc
        cases hr : r.isEmpty <;> simp [hr]
      · simp [← readClock_isSome r]

/-! ### Less than a day -/

theorem ofDigitChars_lt {cs : List Char} (h : ∀ c ∈ cs, c.isDigit = true) (n : Nat) :
    Nat.ofDigitChars 10 cs n < (n + 1) * 10 ^ cs.length := by
  induction cs generalizing n with
  | nil => simp [Nat.ofDigitChars]
  | cons c cs ih =>
    obtain ⟨hc, hcs⟩ := List.forall_mem_cons.mp h
    have hdigit : c.toNat - '0'.toNat < 10 := by
      simp only [Char.isDigit, Bool.and_eq_true, decide_eq_true_eq, ge_iff_le, UInt32.le_iff_toNat_le] at hc
      have hhi : c.toNat ≤ 57 := hc.2
      have hzero : '0'.toNat = 48 := rfl
      omega
    rw [Nat.ofDigitChars_cons, List.length_cons, Nat.pow_succ']
    calc Nat.ofDigitChars 10 cs (10 * n + (c.toNat - '0'.toNat))
        < (10 * n + (c.toNat - '0'.toNat) + 1) * 10 ^ cs.length := ih hcs _
      _ ≤ (10 * (n + 1)) * 10 ^ cs.length := Nat.mul_le_mul_right _ (by omega)
      _ = (n + 1) * (10 * 10 ^ cs.length) := by rw [Nat.mul_comm 10, Nat.mul_assoc]

theorem fractionMicros_lt {cs : List Char} (h : isFractionPart cs = true) :
    fractionMicros cs < 1000000 := by
  unfold isFractionPart at h
  rw [Bool.and_eq_true, List.all_eq_true] at h
  have hdigits : ∀ c ∈ (cs ++ List.replicate 6 '0').take 6, c.isDigit = true := by
    intro c hc
    rcases List.mem_append.mp (List.mem_of_mem_take hc) with hmem | hmem
    · exact h.2 c hmem
    · rw [List.eq_of_mem_replicate hmem]
      rfl
  have hlength : ((cs ++ List.replicate 6 '0').take 6).length ≤ 6 := by
    rw [List.length_take]
    exact Nat.min_le_left _ _
  unfold fractionMicros
  calc Nat.ofDigitChars 10 ((cs ++ List.replicate 6 '0').take 6) 0
      < (0 + 1) * 10 ^ ((cs ++ List.replicate 6 '0').take 6).length := ofDigitChars_lt hdigits 0
    _ ≤ 10 ^ 6 := by
      rw [Nat.zero_add, Nat.one_mul]
      exact Nat.pow_le_pow_right (by decide) hlength
    _ = 1000000 := rfl

theorem readAfterSeconds_lt {cs : List Char} {micros : Nat} (h : readAfterSeconds cs = some micros) :
    micros < 1000000 := by
  cases cs with
  | nil =>
    cases h
    decide
  | cons c cs =>
    simp only [readAfterSeconds] at h
    split_ifs at h with hfraction
    cases h
    exact fractionMicros_lt (Bool.and_eq_true_iff.mp hfraction).2

theorem readSeconds_lt {hour minute : Nat} {cs : List Char} {time : Nat} (hhour : hour < 24)
    (hminute : minute < 60) (h : readSeconds hour minute cs = some time) : time < dayMicros := by
  unfold readSeconds at h
  split at h
  · split_ifs at h with hsecond
    obtain ⟨micros, hmicros, rfl⟩ := Option.map_eq_some_iff.mp h
    have hlt := readAfterSeconds_lt hmicros
    unfold clockMicros dayMicros
    omega
  · cases h

/-- A clock reading is less than a day. -/
theorem readClock_lt {cs : List Char} {time : Nat} (h : readClock cs = some time) :
    time < dayMicros := by
  have hwhole : ∀ hour minute, hour < 24 → minute < 60 →
      clockMicros hour minute 0 0 < dayMicros := by
    intro hour minute hhour hminute
    unfold clockMicros dayMicros
    omega
  unfold readClock at h
  split at h
  · split_ifs at h with hhour
    cases h
    exact hwhole _ _ hhour (by decide)
  · split_ifs at h with hhour
    split at h
    · split_ifs at h with hminute
      cases h
      exact hwhole _ _ hhour hminute
    · split_ifs at h with hminute
      exact readSeconds_lt hhour hminute h
    · cases h
  · split_ifs at h with hhour
    split at h
    · split_ifs at h with hminute
      cases h
      exact hwhole _ _ hhour hminute
    · split_ifs at h with hminute
      exact readSeconds_lt hhour hminute h
    · cases h
  · cases h

/-- An offset is less than a day. -/
theorem readTimeAndZone_offset_lt {cs : List Char} {time : Nat} {offset : Int}
    (h : readTimeAndZone cs = some (time, some offset)) :
    -(dayMicros : Int) < offset ∧ offset < dayMicros := by
  unfold readTimeAndZone at h
  split_ifs at h
  · cases h
  obtain ⟨time', -, h⟩ := Option.bind_eq_some_iff.mp h
  split at h
  · cases h
  · split_ifs at h
    cases h
    decide
  · obtain ⟨n, hn, heq⟩ := Option.map_eq_some_iff.mp h
    have hlt := readClock_lt hn
    simp only [Prod.mk.injEq, Option.some.injEq] at heq
    obtain ⟨-, rfl⟩ := heq
    split_ifs <;> omega

/-! ## The days around a day -/

/-- 1 January of year 1. -/
def firstDay : Date := ⟨1, 1, 1, by decide⟩

/-- 31 December 9999. -/
def lastDay : Date := ⟨9999, 12, 31, by decide⟩

/-- The day before, if there is one. -/
def Date.prev (d : Date) : Option Date :=
  if 1 < d.day then Date.ofNums d.year d.month (d.day - 1)
  else if 1 < d.month then Date.ofNums d.year (d.month - 1) (daysInMonth d.year (d.month - 1))
  else Date.ofNums (d.year - 1) 12 31

/-- The day after, if there is one. -/
def Date.next (d : Date) : Option Date :=
  if d.day < daysInMonth d.year d.month then Date.ofNums d.year d.month (d.day + 1)
  else if d.month < 12 then Date.ofNums d.year (d.month + 1) 1
  else Date.ofNums (d.year + 1) 1 1

theorem ofNums_eq_none_iff {year month day : Nat} : Date.ofNums year month day = none ↔
    ¬(1 ≤ year ∧ year ≤ 9999 ∧ 1 ≤ month ∧ month ≤ 12 ∧ 1 ≤ day ∧
      day ≤ daysInMonth year month) := by
  unfold Date.ofNums
  split_ifs with h
  · exact iff_of_false nofun (not_not.mpr h)
  · exact iff_of_true rfl h

theorem ofNums_eq_some {year month day : Nat} {d : Date} (h : Date.ofNums year month day = some d) :
    d.year = year ∧ d.month = month ∧ d.day = day := by
  unfold Date.ofNums at h
  split_ifs at h
  cases h
  exact ⟨rfl, rfl, rfl⟩

theorem daysInMonth_pos (year month : Nat) : 1 ≤ daysInMonth year month := by
  unfold daysInMonth
  split_ifs <;> omega

theorem Date.prev_eq_none_iff (d : Date) : d.prev = none ↔ d = firstDay := by
  obtain ⟨year, month, day, hvalid⟩ := d
  have hmonth := daysInMonth_pos year (month - 1)
  have hdecember : ∀ y, daysInMonth y 12 = 31 := fun y => rfl
  unfold Date.prev firstDay
  simp only [Date.mk.injEq]
  split_ifs <;> rw [ofNums_eq_none_iff]
  · omega
  · omega
  · rw [hdecember]
    omega

theorem Date.next_eq_none_iff (d : Date) : d.next = none ↔ d = lastDay := by
  obtain ⟨year, month, day, hvalid⟩ := d
  have hmonth := daysInMonth_pos year (month + 1)
  have hjanuary := daysInMonth_pos (year + 1) 1
  have hdecember : ∀ y, daysInMonth y 12 = 31 := fun y => rfl
  unfold Date.next lastDay
  simp only [Date.mk.injEq]
  split_ifs with hday hlast <;> rw [ofNums_eq_none_iff]
  · refine iff_of_false (by omega) ?_
    rintro ⟨rfl, rfl, rfl⟩
    rw [hdecember] at hday
    omega
  · omega
  · obtain rfl : month = 12 := by omega
    rw [hdecember] at *
    omega

/-- A time of a day, and less than a day added to it. -/
def shift (d : Date) (micros : Nat) (delta : Int) : Option (Date × Nat) :=
  if (micros : Int) + delta < 0 then
    d.prev.map fun d' => (d', ((micros : Int) + delta + dayMicros).toNat)
  else if (micros : Int) + delta < dayMicros then some (d, ((micros : Int) + delta).toNat)
  else d.next.map fun d' => (d', ((micros : Int) + delta - dayMicros).toNat)

/-- **What falls off the calendar**: a time before its first day or after its last one. -/
theorem shift_eq_none_iff {d : Date} {micros : Nat} {delta : Int} :
    shift d micros delta = none ↔ (d = firstDay ∧ (micros : Int) + delta < 0) ∨
      (d = lastDay ∧ (dayMicros : Int) ≤ micros + delta) := by
  have hday : (0 : Int) < dayMicros := by decide
  unfold shift
  split_ifs with hneg hlt
  · rw [Option.map_eq_none_iff, Date.prev_eq_none_iff]
    constructor
    · exact fun h => .inl ⟨h, hneg⟩
    · rintro (h | h)
      · exact h.1
      · omega
  · refine iff_of_false nofun ?_
    rintro (h | h) <;> omega
  · rw [Option.map_eq_none_iff, Date.next_eq_none_iff]
    constructor
    · exact fun h => .inr ⟨h, by omega⟩
    · rintro (h | h)
      · omega
      · exact h.1

/-- A time of the day stays one. -/
theorem shift_micros_lt {d d' : Date} {micros micros' : Nat} {delta : Int}
    (hmicros : micros < dayMicros) (hdelta : -(dayMicros : Int) < delta ∧ delta < dayMicros)
    (h : shift d micros delta = some (d', micros')) : micros' < dayMicros := by
  unfold shift at h
  split_ifs at h with hneg hlt
  · obtain ⟨_, -, heq⟩ := Option.map_eq_some_iff.mp h
    cases heq
    omega
  · cases h
    omega
  · obtain ⟨_, -, heq⟩ := Option.map_eq_some_iff.mp h
    cases heq
    omega

/-! ## Moments -/

/-- A `datetime`. -/
structure Moment where
  date : Date
  micros : Nat
  offset : Option Int
  deriving DecidableEq

/-- Where the digits from position 7 on end. -/
def digitsEnd (cs : List Char) : Nat := 7 + ((cs.drop 7).takeWhile Char.isDigit).length

/-- `_find_isoformat_datetime_separator`, of at least 7 characters. -/
def separatorAt (cs : List Char) : Option Nat :=
  if cs.length = 7 then some 7
  else if cs[4]? = some '-' then
    if cs[5]? = some 'W' then
      if cs[8]? = some '-' then
        if cs.length = 9 then none
        else if cs[10]?.any Char.isDigit then some 8 else some 10
      else some 8
    else some 10
  else if cs[4]? = some 'W' then
    if digitsEnd cs < 9 then some (digitsEnd cs)
    else if digitsEnd cs % 2 = 0 then some 7 else some 8
  else some 8

/-- `datetime.fromisoformat(s)`; `none` for `ValueError`. -/
def Moment.fromIso (s : String) : Option Moment :=
  if s.toList.length < 7 then none
  else do
    let position ← separatorAt s.toList
    let date ← Date.fromChars (s.toList.take position)
    let time ← readTimeAndZone (s.toList.drop (position + 1))
    return ⟨date, time.1, time.2⟩

/-- The offset of a moment that was read. -/
theorem fromIso_offset_lt {s : String} {m : Moment} (h : Moment.fromIso s = some m) :
    -(dayMicros : Int) < m.offset.getD 0 ∧ m.offset.getD 0 < dayMicros := by
  unfold Moment.fromIso at h
  split_ifs at h
  simp only [Option.bind_eq_bind, Option.bind_eq_some_iff, Option.pure_def, Option.some_inj] at h
  obtain ⟨_, -, _, -, ⟨time, offset⟩, htime, rfl⟩ := h
  cases offset with
  | none => exact show -(dayMicros : Int) < 0 ∧ (0 : Int) < dayMicros by decide
  | some offset => exact readTimeAndZone_offset_lt htime

/-- A canonical date and a separator are read as the date, and the time after them. -/
theorem fromIso_canonical (d : Date) (sep : Char) (cs : List Char) :
    Moment.fromIso (String.ofList (d.chars ++ sep :: cs)) =
      (readTimeAndZone cs).map fun time => ⟨d, time.1, time.2⟩ := by
  have hlength : (d.chars ++ sep :: cs).length = 11 + cs.length := by
    rw [List.length_append, Date.length_chars, List.length_cons]
    omega
  have hfifth : (d.chars ++ sep :: cs)[4]? = some '-' := rfl
  have hsixth : (d.chars ++ sep :: cs)[5]? = some (Nat.digitChar (d.month / 10 % 10)) := rfl
  have hweek : ¬(d.chars ++ sep :: cs)[5]? = some 'W' := by
    rw [hsixth, Option.some_inj]
    exact digitChar_ne (by omega)
  have hposition : separatorAt (d.chars ++ sep :: cs) = some 10 := by
    unfold separatorAt
    rw [if_neg (by omega), if_pos hfifth, if_neg hweek]
  have htake : (d.chars ++ sep :: cs).take 10 = d.chars := List.take_left' (Date.length_chars d)
  have hdrop : (d.chars ++ sep :: cs).drop 11 = cs := by
    rw [← List.drop_drop (i := 1), List.drop_left' (Date.length_chars d)]
    rfl
  have hdate : Date.fromChars d.chars = some d := by
    have hiso := Date.fromIso_isoformat d
    rwa [Date.fromIso, Date.isoformat, String.toList_ofList] at hiso
  unfold Moment.fromIso
  rw [String.toList_ofList, if_neg (by omega), hposition]
  simp only [Option.bind_eq_bind, Option.bind_some, htake, hdate, hdrop]
  cases readTimeAndZone cs <;> rfl

/-- **A canonical date, a separator and what the grammar accepts are read.** -/
theorem fromIso_of_canonical (d : Date) (sep : Char) {cs : List Char}
    (h : isTimeAndZone cs = true) :
    ∃ micros offset, Moment.fromIso (String.ofList (d.chars ++ sep :: cs)) =
      some ⟨d, micros, offset⟩ := by
  rw [← readTimeAndZone_isSome] at h
  obtain ⟨time, htime⟩ := Option.isSome_iff_exists.mp h
  exact ⟨time.1, time.2, by rw [fromIso_canonical, htime, Option.map_some]⟩

/-! ## Zones -/

/-- A time zone: its offset from UTC at each time of UTC, of less than a day. -/
structure Zone where
  offset : Date → Nat → Int
  lt : ∀ d micros, -(dayMicros : Int) < offset d micros ∧ offset d micros < dayMicros

/-- `self - self.utcoffset()`; a moment without an offset is one of UTC. -/
def Moment.utc (m : Moment) : Option (Date × Nat) := shift m.date m.micros (-m.offset.getD 0)

/-- `moment.astimezone(zone)`, the time it shows there; `none` for `OverflowError`. -/
def Moment.inZone (m : Moment) (zone : Zone) : Option (Date × Nat) :=
  m.utc.bind fun t => shift t.1 t.2 (zone.offset t.1 t.2)

/-- A shift leaves the year or goes to the one beside it. -/
theorem shift_year {d d' : Date} {micros micros' : Nat} {delta : Int}
    (h : shift d micros delta = some (d', micros')) :
    d.year ≤ d'.year + 1 ∧ d'.year ≤ d.year + 1 := by
  have hnums : ∀ {y m n : Nat}, Date.ofNums y m n = some d' → d'.year = y := fun hn =>
    (ofNums_eq_some hn).1
  unfold shift at h
  split_ifs at h
  · obtain ⟨_, hprev, heq⟩ := Option.map_eq_some_iff.mp h
    cases heq
    unfold Date.prev at hprev
    split_ifs at hprev <;> have := hnums hprev <;> omega
  · cases h
    omega
  · obtain ⟨_, hnext, heq⟩ := Option.map_eq_some_iff.mp h
    cases heq
    unfold Date.next at hnext
    split_ifs at hnext <;> have := hnums hnext <;> omega

/-- **Nothing falls off the calendar** in the years 3 to 9997. -/
theorem inZone_isSome_of_year (m : Moment) (zone : Zone) (h : 3 ≤ m.date.year ∧ m.date.year ≤ 9997) :
    (m.inZone zone).isSome := by
  have hinside : ∀ {d : Date} {micros : Nat} {delta : Int}, 2 ≤ d.year → d.year ≤ 9998 →
      (shift d micros delta).isSome := by
    intro d micros delta hlo hhi
    rw [Option.isSome_iff_ne_none, ne_eq, shift_eq_none_iff]
    rintro (⟨rfl, -⟩ | ⟨rfl, -⟩)
    · exact absurd hlo (by decide)
    · exact absurd hhi (by decide)
  have hutc : m.utc.isSome := hinside (by omega) (by omega)
  obtain ⟨t, ht⟩ := Option.isSome_iff_exists.mp hutc
  have hyear : m.date.year ≤ t.1.year + 1 ∧ t.1.year ≤ m.date.year + 1 := shift_year ht
  unfold Moment.inZone
  rw [ht]
  exact hinside (by omega) (by omega)

end MyOriShop.Lib.IsoDate
