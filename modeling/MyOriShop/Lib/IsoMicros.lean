import MyOriShop.Lib.IsoUtc

/-!
# IsoMicros: readings of a clock of UTC with microseconds

`datetime.isoformat()` leaves the fraction of a second out where it is zero, so the texts of two
readings may differ in length.

* `Reading` is a moment of UTC to the microsecond, `Reading.isoformat` its text.
* `Reading.plus` is `+ timedelta(microseconds=k)`, none after 31 December 9999.

Results:
* `Reading.utcAt`: the text names the instant.
* `Reading.isoformat_lt`: later readings have greater texts.
-/

namespace MyOriShop.Lib.IsoDate

/-- A moment of UTC. -/
structure Reading where
  date : Date
  micros : Nat
  valid : micros < dayMicros

/-- `n` in six digits. -/
def pad6 (n : Nat) : List Char := pad2 (n / 10000) ++ (pad2 (n / 100) ++ pad2 n)

/-- The fraction of a second, which is left out where there is none. -/
def fractionChars (micros : Nat) : List Char := if micros = 0 then [] else '.' :: pad6 micros

/-- `datetime.isoformat()`. -/
def Reading.isoformat (t : Reading) : String :=
  let second := t.micros / 1000000
  String.ofList (t.date.chars ++ 'T' :: (pad2 (second / 3600) ++ ':' :: (pad2 (second / 60 % 60) ++
    ':' :: (pad2 (second % 60) ++ fractionChars (t.micros % 1000000))) ++ "+00:00".toList))

/-- As many days later. -/
def daysAfter (d : Date) : Nat → Option Date
  | 0 => some d
  | n + 1 => (daysAfter d n).bind Date.next

/-- `+ timedelta(microseconds=k)`; `none` for `OverflowError`. -/
def Reading.plus (t : Reading) (k : Nat) : Option Reading :=
  (daysAfter t.date ((t.micros + k) / dayMicros)).map fun date =>
    ⟨date, (t.micros + k) % dayMicros, Nat.mod_lt _ (by decide)⟩

/-- The microseconds since the day before the first of the calendar. -/
def Reading.instant (t : Reading) : Nat := t.date.ordinal * dayMicros + t.micros

/-! ## Adding -/

theorem ordinal_daysAfter {d e : Date} {n : Nat} (h : daysAfter d n = some e) :
    e.ordinal = d.ordinal + n := by
  induction n generalizing e with
  | zero =>
    cases h
    rfl
  | succ n ih =>
    obtain ⟨d', hbefore, hnext⟩ := Option.bind_eq_some_iff.mp h
    rw [ordinal_next hnext, ih hbefore, Nat.add_assoc]

theorem Reading.instant_plus {t u : Reading} {k : Nat} (h : t.plus k = some u) :
    u.instant = t.instant + k := by
  obtain ⟨date, hdate, rfl⟩ := Option.map_eq_some_iff.mp h
  have hsplit := Nat.div_add_mod (t.micros + k) dayMicros
  simp only [Reading.instant, ordinal_daysAfter hdate, Nat.add_mul]
  rw [Nat.mul_comm] at hsplit
  omega

/-! ## Texts -/

theorem isDigit_pad2 (n : Nat) : ∀ c ∈ pad2 n, c.isDigit = true := by
  have hdigit : ∀ n < 10, (Nat.digitChar n).isDigit = true := by decide
  simp only [pad2, List.forall_mem_cons]
  exact ⟨hdigit _ (by omega), hdigit _ (by omega), fun c hc => absurd hc List.not_mem_nil⟩

theorem isDigit_pad6 (n : Nat) : ∀ c ∈ pad6 n, c.isDigit = true :=
  List.forall_mem_append.mpr ⟨isDigit_pad2 _,
    List.forall_mem_append.mpr ⟨isDigit_pad2 _, isDigit_pad2 _⟩⟩

theorem ofDigitChars_pad2 (n init : Nat) :
    Nat.ofDigitChars 10 (pad2 n) init = init * 100 + n % 100 := by
  have hdigit : ∀ n < 10, (Nat.digitChar n).toNat - '0'.toNat = n := by decide
  simp only [pad2, Nat.ofDigitChars_cons, Nat.ofDigitChars_nil]
  rw [hdigit _ (by omega), hdigit _ (by omega)]
  omega

theorem fractionMicros_pad6 {n : Nat} (h : n < 1000000) : fractionMicros (pad6 n) = n := by
  have htake : (pad6 n ++ List.replicate 6 '0').take 6 = pad6 n :=
    List.take_append_of_le_length (le_of_eq rfl)
  unfold fractionMicros
  rw [htake, pad6, Nat.ofDigitChars_append, Nat.ofDigitChars_append, ofDigitChars_pad2,
    ofDigitChars_pad2, ofDigitChars_pad2]
  omega

theorem secondsEnd_fraction {n : Nat} (h : n < 1000000) : SecondsEnd (fractionChars n) n := by
  unfold fractionChars
  split_ifs with hzero
  · exact .inl ⟨rfl, hzero⟩
  · refine .inr ⟨pad6 n, rfl, ?_, (fractionMicros_pad6 h).symm⟩
    unfold isFractionPart
    rw [Bool.and_eq_true, List.all_eq_true]
    exact ⟨rfl, isDigit_pad6 n⟩

/-- **The text of a reading** names its instant. -/
theorem Reading.utcAt (t : Reading) : UtcAt t.isoformat t.instant := by
  have hvalid := t.valid
  unfold dayMicros at hvalid
  have hseconds : MinutesEnd (':' :: (pad2 (t.micros / 1000000 % 60) ++
        fractionChars (t.micros % 1000000)))
      (t.micros / 1000000 % 60 * 1000000 + t.micros % 1000000) :=
    .inr ⟨_, _, _, Nat.mod_lt _ (by decide), rfl,
      secondsEnd_fraction (Nat.mod_lt _ (by decide)), rfl⟩
  have hminutes : HoursEnd (':' :: (pad2 (t.micros / 1000000 / 60 % 60) ++
        ':' :: (pad2 (t.micros / 1000000 % 60) ++ fractionChars (t.micros % 1000000))))
      (t.micros / 1000000 / 60 % 60 * 60000000 +
        (t.micros / 1000000 % 60 * 1000000 + t.micros % 1000000)) :=
    .inr ⟨_, _, _, Nat.mod_lt _ (by decide), rfl, hseconds, rfl⟩
  have hzone : ZeroOffset "+00:00".toList := .inr ⟨'+', "00:00".toList, by decide, .inl rfl, by decide⟩
  refine ⟨t.date, t.micros / 1000000 / 3600, _, _, _, by omega, hminutes, hzone, ?_, ?_⟩
  · simp [Reading.isoformat]
  · unfold Reading.instant
    congr 1
    omega

/-- **Later readings have greater texts**, with a fraction or without. -/
theorem Reading.isoformat_lt {t u : Reading} (h : t.instant < u.instant) :
    t.isoformat < u.isoformat := by
  by_contra hle
  obtain ⟨i, j, hi, hj, hij⟩ := utcText_mono ⟨_, u.utcAt⟩ ⟨_, t.utcAt⟩ (not_lt.mp hle)
  rw [instantOf_utcAt u.utcAt, Option.some_inj] at hi
  rw [instantOf_utcAt t.utcAt, Option.some_inj] at hj
  omega

end MyOriShop.Lib.IsoDate
