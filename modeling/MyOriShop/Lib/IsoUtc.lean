import Mathlib.Algebra.BigOperators.Group.List.Basic
import Mathlib.Data.List.TakeWhile
import MyOriShop.Lib.IsoOrder

/-!
# IsoUtc: texts of moments of UTC, in their order

A text names an instant: the microseconds since the day before the first of the calendar, a text
without an offset being one of UTC. Two texts need not compare as their instants do: an offset moves
the instant and not the text, `Z` stands after `.`, a blank before `T`, `,` before `.`, and a time in
the basic format has digits where the other has colons.

* `Date.ordinal` is `toordinal()`, `instantOf` the instant of a text.
* `UtcText s`: a day, `T`, a time in the extended format with a point before the fraction, and no
  offset or a signed one of zero. `Moment.isoformat` of UTC writes such texts.

Results:
* `ordinal_lt_iff`: the numbers of the days are in the order of the days.
* `instantOf_utcAt`: what such a text is read as.
* `utcText_mono`: such texts compare as their instants.
* `utcText_isoformat`: the text of a clock reading is one.
-/

namespace MyOriShop.Lib.IsoDate

/-! ## The number of a day -/

/-- `toordinal()`: the first day of the calendar is 1. -/
def Date.ordinal (d : Date) : Nat := daysBeforeYear d.year + daysBeforeMonth d.year d.month + d.day

theorem daysBeforeMonth_succ {year month : Nat} (h : 1 ≤ month) :
    daysBeforeMonth year (month + 1) = daysBeforeMonth year month + daysInMonth year month := by
  obtain ⟨month, rfl⟩ := Nat.exists_eq_add_of_le' h
  simp [daysBeforeMonth, List.range_succ]

theorem daysBeforeMonth_december (year : Nat) :
    daysBeforeMonth year 12 + 31 = 365 + if isLeap year then 1 else 0 := by
  simp only [daysBeforeMonth, List.range_succ, daysInMonth, Nat.add_one_sub_one]
  cases isLeap year <;> rfl

theorem daysBeforeYear_succ {year : Nat} (h : 1 ≤ year) :
    daysBeforeYear (year + 1) = daysBeforeYear year + (daysBeforeMonth year 12 + 31) := by
  obtain ⟨y, rfl⟩ := Nat.exists_eq_add_of_le' h
  rw [daysBeforeMonth_december]
  have hbound : y / 100 ≤ y := Nat.div_le_self y 100
  have hleap : isLeap (y + 1) = true ↔ 4 ∣ y + 1 ∧ (¬100 ∣ y + 1 ∨ 400 ∣ y + 1) := by
    simp [isLeap, Nat.dvd_iff_mod_eq_zero]
  have hcentury : 100 ∣ y + 1 → 4 ∣ y + 1 := fun h => (by decide : 4 ∣ 100).trans h
  have hfourth : 400 ∣ y + 1 → 100 ∣ y + 1 := fun h => (by decide : 100 ∣ 400).trans h
  simp only [daysBeforeYear, Nat.add_one_sub_one, Nat.succ_div, hleap]
  by_cases h4 : 4 ∣ y + 1
  · by_cases h100 : 100 ∣ y + 1
    · by_cases h400 : 400 ∣ y + 1 <;> simp only [h4, h100, h400, if_true, if_false] <;> simp <;> omega
    · have h400 : ¬400 ∣ y + 1 := fun h => h100 (hfourth h)
      simp only [h4, h100, h400, if_true, if_false]
      simp
      omega
  · have h100 : ¬100 ∣ y + 1 := fun h => h4 (hcentury h)
    have h400 : ¬400 ∣ y + 1 := fun h => h100 (hfourth h)
    simp only [h4, h100, h400, if_false, false_and]
    omega

/-- The next day has the next number. -/
theorem ordinal_next {d e : Date} (h : d.next = some e) : e.ordinal = d.ordinal + 1 := by
  have hvalid := d.valid
  unfold Date.next at h
  split_ifs at h with hinside hlast <;> obtain ⟨hyear, hmonth, hday⟩ := ofNums_eq_some h
  all_goals simp only [Date.ordinal, hyear, hmonth, hday]
  · omega
  · rw [daysBeforeMonth_succ (by omega)]
    omega
  · have hmonth12 : d.month = 12 := by
      have := d.month_le
      omega
    have hlast : daysInMonth d.year 12 = 31 := rfl
    have hfirst : daysBeforeMonth (d.year + 1) 1 = 0 := rfl
    have hday31 : d.day = 31 := by
      rw [hmonth12, hlast] at hinside hvalid
      omega
    rw [daysBeforeYear_succ hvalid.1, hfirst, hmonth12, hday31]
    omega

/-- **The numbers of the days** are in their order. -/
theorem ordinal_lt_iff {d d' : Date} : d.ordinal < d'.ordinal ↔ d < d' := by
  have hstep : ∀ n, ∀ d d' : Date, d'.stamp - d.stamp = n → d < d' → d.ordinal < d'.ordinal := by
    intro n
    induction n using Nat.strong_induction_on with
    | _ n ih =>
      rintro d d' rfl hlt
      obtain ⟨e, hnext, hle⟩ := exists_next hlt
      have hde : d.stamp < e.stamp := (next_covBy hnext).lt
      have hord := ordinal_next hnext
      rcases hle.eq_or_lt with rfl | hlt'
      · omega
      · have hlt'' : e.stamp < d'.stamp := hlt'
        have := ih _ (by omega) e d' rfl hlt'
        omega
  constructor
  · intro h
    by_contra hle
    rcases (not_lt.mp hle).eq_or_lt with rfl | hlt
    · omega
    · have := hstep _ d' d rfl hlt
      omega
  · exact hstep _ d d' rfl

/-! ## Instants -/

/-- The microseconds of a moment, which is one of UTC where it has no offset. -/
def Moment.instant (m : Moment) : Int :=
  (m.date.ordinal * dayMicros + m.micros : Nat) - m.offset.getD 0

/-- The instant that a text names, if it is read. -/
def instantOf (s : String) : Option Int := (Moment.fromIso s).map Moment.instant

/-! ## Texts of UTC -/

/-- No offset, or one of zero after a sign. -/
def ZeroOffset (cs : List Char) : Prop :=
  cs = [] ∨ ∃ c r, cs = c :: r ∧ (c = '+' ∨ c = '-') ∧ readClock r = some 0

/-- What follows the seconds, in microseconds. -/
def SecondsEnd (cs : List Char) (v : Nat) : Prop :=
  cs = [] ∧ v = 0 ∨ ∃ digits, cs = '.' :: digits ∧ isFractionPart digits = true ∧
    v = fractionMicros digits

/-- A further field of a time, of as many microseconds, and what follows it. -/
def FurtherField (next : List Char → Nat → Prop) (unit : Nat) (cs : List Char) (v : Nat) : Prop :=
  cs = [] ∧ v = 0 ∨ ∃ n r w, n < 60 ∧ cs = ':' :: (pad2 n ++ r) ∧ next r w ∧ v = n * unit + w

/-- What follows the minutes. -/
def MinutesEnd : List Char → Nat → Prop := FurtherField SecondsEnd 1000000

/-- What follows the hours. -/
def HoursEnd : List Char → Nat → Prop := FurtherField MinutesEnd 60000000

/-- The text of an instant of UTC. -/
def UtcAt (s : String) (i : Int) : Prop :=
  ∃ (d : Date) (hour : Nat) (rest zone : List Char) (w : Nat), hour < 24 ∧ HoursEnd rest w ∧
    ZeroOffset zone ∧ s = String.ofList (d.chars ++ 'T' :: (pad2 hour ++ rest ++ zone)) ∧
    i = (d.ordinal * dayMicros + (hour * 3600000000 + w) : Nat)

/-- A text of UTC. -/
def UtcText (s : String) : Prop := ∃ i, UtcAt s i

/-! ### Reading -/

theorem readAfterSeconds_end {cs : List Char} {v : Nat} (h : SecondsEnd cs v) :
    readAfterSeconds cs = some v := by
  rcases h with ⟨rfl, rfl⟩ | ⟨digits, rfl, hdigits, rfl⟩
  · rfl
  · simp [readAfterSeconds, hdigits]

theorem readClock_end {hour w : Nat} {rest : List Char} (hhour : hour < 24)
    (h : HoursEnd rest w) : readClock (pad2 hour ++ rest) = some (hour * 3600000000 + w) := by
  unfold readClock
  rw [takeDigits_pad2 (by omega)]
  rcases h with ⟨rfl, rfl⟩ | ⟨minute, r, w, hminute, rfl, h, rfl⟩
  · simp only [hhour, if_true, clockMicros, Option.some_inj]
    omega
  simp only [hhour, if_true, takeDigits_pad2 (show minute < 100 by omega)]
  rcases h with ⟨rfl, rfl⟩ | ⟨second, r, v, hsecond, rfl, h, rfl⟩
  · simp only [hminute, if_true, clockMicros, Option.some_inj]
    omega
  simp only [hminute, if_true, readSeconds, takeDigits_pad2 (show second < 100 by omega), hsecond,
    readAfterSeconds_end h, Option.map_some, clockMicros, Option.some_inj]
  omega

/-- The characters of a time. -/
def isClockChar (c : Char) : Bool := c.isDigit || c == ':' || c == '.'

theorem clockChar_pad2 (n : Nat) : ∀ c ∈ pad2 n, isClockChar c = true := by
  have hdigit : ∀ n < 10, isClockChar (Nat.digitChar n) = true := by decide
  simp only [pad2, List.forall_mem_cons]
  exact ⟨hdigit _ (by omega), hdigit _ (by omega), fun c hc => absurd hc List.not_mem_nil⟩

theorem clockChar_seconds {cs : List Char} {v : Nat} (h : SecondsEnd cs v) :
    ∀ c ∈ cs, isClockChar c = true := by
  rcases h with ⟨rfl, -⟩ | ⟨digits, rfl, hdigits, -⟩
  · exact fun c hc => absurd hc List.not_mem_nil
  · unfold isFractionPart at hdigits
    rw [Bool.and_eq_true, List.all_eq_true] at hdigits
    refine List.forall_mem_cons.mpr ⟨by decide, fun c hc => ?_⟩
    simp [isClockChar, hdigits.2 c hc]

theorem clockChar_field {next : List Char → Nat → Prop} {unit : Nat}
    (hnext : ∀ r w, next r w → ∀ c ∈ r, isClockChar c = true) {cs : List Char} {v : Nat}
    (h : FurtherField next unit cs v) : ∀ c ∈ cs, isClockChar c = true := by
  rcases h with ⟨rfl, -⟩ | ⟨n, r, w, -, rfl, h, -⟩
  · exact fun c hc => absurd hc List.not_mem_nil
  · refine List.forall_mem_cons.mpr ⟨by decide, List.forall_mem_append.mpr ⟨clockChar_pad2 n, ?_⟩⟩
    exact hnext r w h

/-- No character of a time begins an offset. -/
theorem not_zoneMark_end (hour : Nat) {w : Nat} {rest : List Char} (h : HoursEnd rest w) :
    ∀ c ∈ pad2 hour ++ rest, (!isZoneMark c) = true := by
  have hall : ∀ c ∈ pad2 hour ++ rest, isClockChar c = true :=
    List.forall_mem_append.mpr ⟨clockChar_pad2 hour,
      clockChar_field (fun _ _ => clockChar_field fun _ _ => clockChar_seconds) h⟩
  have hplus : isClockChar '+' = false := by decide
  have hminus : isClockChar '-' = false := by decide
  have hz : isClockChar 'Z' = false := by decide
  intro c hc
  have hclock := hall c hc
  unfold isZoneMark
  rw [Bool.not_eq_true', Bool.or_eq_false_iff, Bool.or_eq_false_iff]
  refine ⟨⟨?_, ?_⟩, ?_⟩ <;> refine beq_eq_false_iff_ne.mpr ?_ <;> rintro rfl
  · rw [hplus] at hclock
    cases hclock
  · rw [hminus] at hclock
    cases hclock
  · rw [hz] at hclock
    cases hclock

/-- **What a text of UTC is read as.** -/
theorem instantOf_utcAt {s : String} {i : Int} (h : UtcAt s i) : instantOf s = some i := by
  obtain ⟨d, hour, rest, zone, w, hhour, hrest, hzone, rfl, rfl⟩ := h
  have hmark := not_zoneMark_end hour hrest
  have hread : ∃ offset : Option Int, offset.getD 0 = 0 ∧
      readTimeAndZone (pad2 hour ++ rest ++ zone) = some (hour * 3600000000 + w, offset) := by
    unfold readTimeAndZone
    have hne : (pad2 hour ++ rest ++ zone).isEmpty = false := rfl
    rw [hne, if_neg Bool.false_ne_true]
    rcases hzone with rfl | ⟨c, r, rfl, hsign, hr⟩
    · rw [List.append_nil, List.takeWhile_eq_self_iff.mpr hmark, readClock_end hhour hrest,
        List.dropWhile_eq_nil_iff.mpr hmark]
      exact ⟨none, rfl, rfl⟩
    · rw [List.takeWhile_append_of_pos hmark, List.dropWhile_append_of_pos hmark]
      rcases hsign with rfl | rfl
      · refine ⟨some 0, rfl, ?_⟩
        rw [List.takeWhile_cons_of_neg (by decide), List.dropWhile_cons_of_neg (by decide),
          List.append_nil, readClock_end hhour hrest]
        simp [hr]
      · refine ⟨some 0, rfl, ?_⟩
        rw [List.takeWhile_cons_of_neg (by decide), List.dropWhile_cons_of_neg (by decide),
          List.append_nil, readClock_end hhour hrest]
        simp [hr]
  obtain ⟨offset, hoffset, hread⟩ := hread
  unfold instantOf
  rw [fromIso_canonical, hread]
  simp [Moment.instant, hoffset]

/-! ### Comparing -/

/-- Every character of a time comes after the signs. -/
theorem sign_lt {c sign : Char} (hc : isClockChar c = true) (hsign : sign = '+' ∨ sign = '-') :
    sign < c := by
  have hminus : '-' < c := by
    unfold isClockChar at hc
    rw [Bool.or_eq_true, Bool.or_eq_true, beq_iff_eq, beq_iff_eq] at hc
    rcases hc with (hdigit | rfl) | rfl
    · simp only [Char.isDigit, Bool.and_eq_true, decide_eq_true_eq, ge_iff_le] at hdigit
      exact lt_of_lt_of_le (by decide) hdigit.1
    · decide
    · decide
  rcases hsign with rfl | rfl
  · exact (by decide : '+' < '-').trans hminus
  · exact hminus

/-- Where one text ends and the other goes on, the other comes after. -/
theorem zone_lt {zone cs : List Char} {c : Char} (hzone : ZeroOffset zone)
    (hc : isClockChar c = true) : zone < c :: cs := by
  rcases hzone with rfl | ⟨sign, r, rfl, hsign, -⟩
  · exact List.nil_lt_cons c cs
  · exact List.cons_lt_cons_iff.mpr (.inl (sign_lt hc hsign))

/-- Behind a common character. -/
theorem tail_le {c : Char} {s t : List Char} (h : c :: s ≤ c :: t) : s ≤ t :=
  not_lt.mp fun hlt => absurd h (not_le.mpr (List.cons_lt_cons_iff.mpr (.inr ⟨rfl, hlt⟩)))

/-- The number of the first digits, filled up with zeros. -/
def firstDigits (k : Nat) (digits : List Char) : Nat :=
  Nat.ofDigitChars 10 ((digits ++ List.replicate k '0').take k) 0

theorem firstDigits_nil (k : Nat) : firstDigits k [] = 0 := by
  simp [firstDigits, Nat.ofDigitChars_replicate_zero]

theorem firstDigits_cons (k : Nat) (c : Char) (digits : List Char) :
    firstDigits (k + 1) (c :: digits) = 10 ^ k * (c.toNat - 48) + firstDigits k digits := by
  have htake : (digits ++ List.replicate (k + 1) '0').take k =
      (digits ++ List.replicate k '0').take k := by
    rw [List.replicate_succ', ← List.append_assoc, List.take_append_of_le_length (by simp)]
  have hlength : ((digits ++ List.replicate k '0').take k).length = k := by simp
  unfold firstDigits
  rw [List.cons_append, List.take_succ_cons, htake, Nat.ofDigitChars_cons,
    Nat.ofDigitChars_eq_ofDigitChars_zero, hlength, Nat.mul_zero, Nat.zero_add]
  rfl

theorem firstDigits_lt {k : Nat} {digits : List Char} (h : ∀ c ∈ digits, c.isDigit = true) :
    firstDigits k digits < 10 ^ k := by
  have hall : ∀ c ∈ (digits ++ List.replicate k '0').take k, c.isDigit = true := by
    intro c hc
    rcases List.mem_append.mp (List.mem_of_mem_take hc) with hmem | hmem
    · exact h c hmem
    · rw [List.eq_of_mem_replicate hmem]
      rfl
  have hlength : ((digits ++ List.replicate k '0').take k).length = k := by simp
  have hlt := ofDigitChars_lt hall 0
  rwa [hlength, Nat.zero_add, Nat.one_mul] at hlt

/-- Digits compare as the number of the first of them, whatever follows. -/
theorem firstDigits_mono {k : Nat} {digits digits' zone zone' : List Char}
    (h : ∀ c ∈ digits, c.isDigit = true) (h' : ∀ c ∈ digits', c.isDigit = true)
    (hzone' : ZeroOffset zone') (hle : digits ++ zone ≤ digits' ++ zone') :
    firstDigits k digits ≤ firstDigits k digits' := by
  induction k generalizing digits digits' with
  | zero => exact le_of_eq rfl
  | succ k ih =>
    cases digits with
    | nil => simp [firstDigits_nil]
    | cons c digits =>
      obtain ⟨hc, hdigits⟩ := List.forall_mem_cons.mp h
      have hclock : isClockChar c = true := by simp [isClockChar, hc]
      cases digits' with
      | nil => exact absurd hle (not_le.mpr (zone_lt hzone' hclock))
      | cons c' digits' =>
        obtain ⟨hc', hdigits'⟩ := List.forall_mem_cons.mp h'
        rw [firstDigits_cons, firstDigits_cons]
        have hlt := firstDigits_lt (k := k) hdigits
        rcases lt_trichotomy c c' with hcc | rfl | hcc
        · have hcode : c.toNat < c'.toNat := UInt32.lt_iff_toNat_lt.mp hcc
          have hzero : 48 ≤ c.toNat := by
            simp only [Char.isDigit, Bool.and_eq_true, decide_eq_true_eq, ge_iff_le] at hc
            exact UInt32.le_iff_toNat_le.mp hc.1
          calc 10 ^ k * (c.toNat - 48) + firstDigits k digits
              ≤ 10 ^ k * (c.toNat - 48) + 10 ^ k := Nat.add_le_add_left hlt.le _
            _ = 10 ^ k * (c.toNat - 48 + 1) := (Nat.mul_succ _ _).symm
            _ ≤ 10 ^ k * (c'.toNat - 48) := Nat.mul_le_mul_left _ (by omega)
            _ ≤ 10 ^ k * (c'.toNat - 48) + firstDigits k digits' := Nat.le_add_right _ _
        · exact Nat.add_le_add_left (ih hdigits hdigits' (tail_le hle)) _
        · exact absurd hle (not_le.mpr (List.cons_lt_cons_iff.mpr (.inl hcc)))

/-- What is read compares as the texts do, whatever offsets of zero follow. -/
def Mono (next : List Char → Nat → Prop) : Prop :=
  ∀ r w r' w' zone zone', next r w → next r' w' → ZeroOffset zone → ZeroOffset zone' →
    r ++ zone ≤ r' ++ zone' → w ≤ w'

theorem mono_seconds : Mono SecondsEnd := by
  rintro r w r' w' zone zone' h h' - hzone' hle
  have hall : ∀ digits, isFractionPart digits = true → ∀ c ∈ digits, c.isDigit = true := by
    intro digits hdigits
    unfold isFractionPart at hdigits
    rw [Bool.and_eq_true, List.all_eq_true] at hdigits
    exact hdigits.2
  rcases h with ⟨rfl, rfl⟩ | ⟨digits, rfl, hdigits, rfl⟩
  · exact Nat.zero_le _
  rcases h' with ⟨rfl, rfl⟩ | ⟨digits', rfl, hdigits', rfl⟩
  · exact absurd hle (not_le.mpr (zone_lt hzone' (by decide)))
  · exact firstDigits_mono (hall _ hdigits) (hall _ hdigits') hzone' (tail_le hle)

/-- Two digits less than a hundred, and what follows them. -/
theorem pad2_le {m n : Nat} (hm : m < 100) (hn : n < 100) {s t : List Char}
    (h : pad2 m ++ s ≤ pad2 n ++ t) : m < n ∨ m = n ∧ s ≤ t := by
  have hnot := mt (pad2_lt_iff t s).mpr (not_lt.mpr h)
  rw [Nat.mod_eq_of_lt hm, Nat.mod_eq_of_lt hn] at hnot
  rcases lt_trichotomy m n with hlt | rfl | hlt
  · exact .inl hlt
  · exact .inr ⟨rfl, not_lt.mp fun hts => hnot (.inr ⟨rfl, hts⟩)⟩
  · exact absurd (.inl hlt) hnot

/-- A field before another part keeps the order, where the part is less than one of its units. -/
theorem mono_field {next : List Char → Nat → Prop} {unit : Nat} (hmono : Mono next)
    (hlt : ∀ r w, next r w → w < unit) : Mono (FurtherField next unit) := by
  rintro r w r' w' zone zone' h h' hzone hzone' hle
  rcases h with ⟨rfl, rfl⟩ | ⟨n, r, w, hn, rfl, h, rfl⟩
  · exact Nat.zero_le _
  rcases h' with ⟨rfl, rfl⟩ | ⟨n', r', w', hn', rfl, h', rfl⟩
  · exact absurd hle (not_le.mpr (zone_lt hzone' (by decide)))
  · have htail : pad2 n ++ (r ++ zone) ≤ pad2 n' ++ (r' ++ zone') := by
      rw [← List.append_assoc, ← List.append_assoc]
      exact tail_le hle
    rcases pad2_le (by omega) (by omega) htail with hfield | ⟨rfl, hrest⟩
    · have hw := hlt r w h
      have hunits : (n + 1) * unit ≤ n' * unit := Nat.mul_le_mul_right _ hfield
      rw [Nat.add_mul, Nat.one_mul] at hunits
      omega
    · exact Nat.add_le_add_left (hmono r w r' w' zone zone' h h' hzone hzone' hrest) _

theorem seconds_lt {r : List Char} {w : Nat} (h : SecondsEnd r w) : w < 1000000 := by
  rcases h with ⟨-, rfl⟩ | ⟨digits, -, hdigits, rfl⟩
  · decide
  · exact fractionMicros_lt hdigits

theorem field_lt {next : List Char → Nat → Prop} {unit : Nat} (hunit : 0 < unit)
    (hlt : ∀ r w, next r w → w < unit) {r : List Char} {w : Nat} (h : FurtherField next unit r w) :
    w < 60 * unit := by
  rcases h with ⟨-, rfl⟩ | ⟨n, r, w, hn, -, h, rfl⟩
  · omega
  · have hw := hlt r w h
    have hunits : (n + 1) * unit ≤ 60 * unit := Nat.mul_le_mul_right _ hn
    rw [Nat.add_mul, Nat.one_mul] at hunits
    omega

theorem minutes_lt {r : List Char} {w : Nat} (h : MinutesEnd r w) : w < 60000000 :=
  field_lt (by decide) (fun _ _ => seconds_lt) h

theorem hours_lt {r : List Char} {w : Nat} (h : HoursEnd r w) : w < 3600000000 :=
  field_lt (by decide) (fun _ _ => minutes_lt) h

theorem mono_hours : Mono HoursEnd :=
  mono_field (mono_field mono_seconds fun _ _ => seconds_lt) fun _ _ => minutes_lt

/-- Two days, and what follows them. -/
theorem chars_append_le {d d' : Date} {s t : List Char} (h : d.chars ++ s ≤ d'.chars ++ t) :
    d < d' ∨ d = d' ∧ s ≤ t := by
  have hnot := mt (chars_append_lt_iff t s).mpr (not_lt.mpr h)
  rcases lt_trichotomy d d' with hlt | rfl | hlt
  · exact .inl hlt
  · exact .inr ⟨rfl, not_lt.mp fun hts => hnot (.inr ⟨rfl, hts⟩)⟩
  · exact absurd (.inl hlt) hnot

/-- **Texts of UTC compare as their instants.** -/
theorem utcText_mono {s s' : String} (h : UtcText s) (h' : UtcText s') (hle : s ≤ s') :
    ∃ i i', instantOf s = some i ∧ instantOf s' = some i' ∧ i ≤ i' := by
  obtain ⟨i, h⟩ := h
  obtain ⟨i', h'⟩ := h'
  refine ⟨i, i', instantOf_utcAt h, instantOf_utcAt h', ?_⟩
  obtain ⟨d, hour, rest, zone, w, hhour, hrest, hzone, rfl, rfl⟩ := h
  obtain ⟨d', hour', rest', zone', w', hhour', hrest', hzone', rfl, rfl⟩ := h'
  rw [String.le_iff_toList_le, String.toList_ofList, String.toList_ofList] at hle
  have hw := hours_lt hrest
  rcases chars_append_le hle with hday | ⟨rfl, htime⟩
  · have hord := ordinal_lt_iff.mpr hday
    have hmul : (d.ordinal + 1) * dayMicros ≤ d'.ordinal * dayMicros := Nat.mul_le_mul_right _ hord
    rw [Nat.add_mul] at hmul
    unfold dayMicros at *
    omega
  · have htime : pad2 hour ++ (rest ++ zone) ≤ pad2 hour' ++ (rest' ++ zone') := by
      rw [← List.append_assoc, ← List.append_assoc]
      exact tail_le htime
    rcases pad2_le (by omega) (by omega) htime with hlt | ⟨rfl, hend⟩
    · omega
    · have := mono_hours rest w rest' w' zone zone' hrest hrest' hzone hzone' hend
      omega

/-- The text of a clock reading is one of UTC. -/
theorem utcText_isoformat (t : Instant) : UtcText t.isoformat := by
  have hseconds : MinutesEnd (':' :: (pad2 t.second ++ [])) (t.second * 1000000 + 0) :=
    .inr ⟨t.second, [], 0, t.valid.2.2, rfl, .inl ⟨rfl, rfl⟩, rfl⟩
  have hminutes : HoursEnd (':' :: (pad2 t.minute ++ ':' :: (pad2 t.second ++ [])))
      (t.minute * 60000000 + (t.second * 1000000 + 0)) :=
    .inr ⟨t.minute, _, _, t.valid.2.1, rfl, hseconds, rfl⟩
  have hzone : ZeroOffset "+00:00".toList := .inr ⟨'+', "00:00".toList, by decide, .inl rfl, by decide⟩
  refine ⟨_, t.date, t.hour, _, _, _, t.valid.1, hminutes, hzone, ?_, rfl⟩
  simp [Instant.isoformat, Instant.timeChars]

end MyOriShop.Lib.IsoDate
