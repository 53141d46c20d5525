import Mathlib.Data.String.Basic
import Mathlib.Order.Cover
import MyOriShop.Lib.IsoMoment

/-!
# IsoOrder: the order of days is that of their texts

Canonical texts have ten characters, the larger fields first and every field in full width, so that
two texts compare as the days do.

* `Date.stamp` is the number `yyyymmdd` of a day; days are ordered by it.

Results:
* `isoformat_le_iff`: texts compare as days.
* `next_covBy`: nothing lies between a day and the next.
* `exists_next`: a day before another has a next one.
* `shift_shift_day_iff`: a time shifted twice is on its day again when the sum of the shifts leaves
  it there.
-/

namespace MyOriShop.Lib.IsoDate

/-- The number `yyyymmdd` of a day. -/
def Date.stamp (d : Date) : Nat := (d.year * 100 + d.month) * 100 + d.day

theorem Date.stamp_injective : Function.Injective Date.stamp := by
  intro d d' h
  have hmonth := d.month_le
  have hmonth' := d'.month_le
  have hday := d.day_le
  have hday' := d'.day_le
  unfold stamp at h
  have hyears : d.year = d'.year := by omega
  have hmonths : d.month = d'.month := by omega
  have hdays : d.day = d'.day := by omega
  obtain ⟨year, month, day, hvalid⟩ := d
  obtain ⟨year', month', day', hvalid'⟩ := d'
  cases hyears
  cases hmonths
  cases hdays
  rfl

instance : LinearOrder Date where
  le d d' := d.stamp ≤ d'.stamp
  lt d d' := d.stamp < d'.stamp
  le_refl d := Nat.le_refl d.stamp
  le_trans _ _ _ := Nat.le_trans
  lt_iff_le_not_ge _ _ := Nat.lt_iff_le_and_not_ge
  le_antisymm _ _ h h' := Date.stamp_injective (Nat.le_antisymm h h')
  le_total d d' := Nat.le_total d.stamp d'.stamp
  toDecidableLE d d' := inferInstanceAs (Decidable (d.stamp ≤ d'.stamp))
  toDecidableEq := inferInstance

theorem Date.le_iff {d d' : Date} : d ≤ d' ↔ d.stamp ≤ d'.stamp := Iff.rfl

theorem Date.lt_iff {d d' : Date} : d < d' ↔ d.stamp < d'.stamp := Iff.rfl

/-! ## Texts -/

theorem digitChar_lt_iff : ∀ m < 10, ∀ n < 10, Nat.digitChar m < Nat.digitChar n ↔ m < n := by
  decide

theorem digitChar_inj : ∀ m < 10, ∀ n < 10, Nat.digitChar m = Nat.digitChar n ↔ m = n := by
  decide

/-- Two digits, and then what follows them. -/
theorem pad2_lt_iff {m n : Nat} (s t : List Char) :
    pad2 m ++ s < pad2 n ++ t ↔ m % 100 < n % 100 ∨ m % 100 = n % 100 ∧ s < t := by
  have htens := digitChar_lt_iff (m / 10 % 10) (by omega) (n / 10 % 10) (by omega)
  have hones := digitChar_lt_iff (m % 10) (by omega) (n % 10) (by omega)
  have htens' := digitChar_inj (m / 10 % 10) (by omega) (n / 10 % 10) (by omega)
  have hones' := digitChar_inj (m % 10) (by omega) (n % 10) (by omega)
  simp only [pad2, List.cons_append, List.nil_append, List.cons_lt_cons_iff, htens, hones, htens',
    hones']
  by_cases hst : s < t
  · simp only [hst, and_true]
    omega
  · simp only [hst, and_false, or_false]
    omega

/-- The text of a day, and then what follows it. -/
theorem chars_append_lt_iff {d d' : Date} (s t : List Char) :
    d.chars ++ s < d'.chars ++ t ↔ d.stamp < d'.stamp ∨ d.stamp = d'.stamp ∧ s < t := by
  have hmonth := d.month_le
  have hmonth' := d'.month_le
  have hday := d.day_le
  have hday' := d'.day_le
  obtain ⟨year, month, day, hvalid⟩ := d
  obtain ⟨year', month', day', hvalid'⟩ := d'
  simp only [Date.chars, Date.stamp, pad4, List.append_assoc, List.cons_append, pad2_lt_iff,
    List.cons_lt_cons_iff, lt_irrefl, false_or, true_and] at *
  by_cases hst : s < t
  · simp only [hst, and_true]
    omega
  · simp only [hst, and_false, or_false]
    omega

theorem chars_lt_iff {d d' : Date} : d.chars < d'.chars ↔ d.stamp < d'.stamp := by
  have h := @chars_append_lt_iff d d' [] []
  rwa [List.append_nil, List.append_nil, or_iff_left (by simp)] at h

/-- **Texts compare as days.** -/
theorem isoformat_le_iff {d d' : Date} : d.isoformat ≤ d'.isoformat ↔ d ≤ d' := by
  rw [String.le_iff_toList_le, Date.isoformat, Date.isoformat, String.toList_ofList,
    String.toList_ofList, ← not_lt, chars_lt_iff, not_lt, Date.le_iff]

theorem isoformat_inj {d d' : Date} : d.isoformat = d'.isoformat ↔ d = d' := by
  rw [le_antisymm_iff, isoformat_le_iff, isoformat_le_iff, ← le_antisymm_iff]

/-! ## The next day -/

/-- **Nothing lies between a day and the next.** -/
theorem next_covBy {d e : Date} (h : d.next = some e) : d ⋖ e := by
  have hdays : ∀ x : Date, x.year = d.year → x.month = d.month →
      x.day ≤ daysInMonth d.year d.month := by
    rintro x hyear hmonth
    rw [← hyear, ← hmonth]
    exact x.valid.2.2.2.2.2
  have hdecember : ∀ y, daysInMonth y 12 = 31 := fun _ => rfl
  have hday := d.valid
  unfold Date.next at h
  have hbounds : ∀ x : Date, 1 ≤ x.month ∧ x.month ≤ 12 ∧ 1 ≤ x.day ∧ x.day ≤ 31 := fun x =>
    ⟨x.valid.2.2.1, x.month_le, x.valid.2.2.2.2.1, x.day_le⟩
  have hd := hbounds d
  split_ifs at h with hinside hlast <;> obtain ⟨hyear, hmonth, hfirst⟩ := ofNums_eq_some h
  · refine ⟨?_, fun x hdx hxe => ?_⟩
    all_goals simp only [Date.lt_iff, Date.stamp, hyear, hmonth, hfirst] at *
    · omega
    · omega
  · refine ⟨?_, fun x hdx hxe => ?_⟩
    all_goals simp only [Date.lt_iff, Date.stamp, hyear, hmonth, hfirst] at *
    · omega
    · have hx := hbounds x
      have hxday := hdays x (by omega) (by omega)
      omega
  · have hmonth12 : d.month = 12 := by omega
    refine ⟨?_, fun x hdx hxe => ?_⟩
    all_goals simp only [Date.lt_iff, Date.stamp, hyear, hmonth, hfirst] at *
    · omega
    · have hx := hbounds x
      have hxday := hdays x (by omega) (by omega)
      rw [hmonth12, hdecember] at hxday
      rw [hmonth12, hdecember] at hinside
      omega

/-- A day before another has a next one, no later than the other. -/
theorem exists_next {d d' : Date} (h : d < d') : ∃ e, d.next = some e ∧ e ≤ d' := by
  cases hnext : d.next with
  | none =>
    rw [Date.next_eq_none_iff] at hnext
    have hmonth := d'.month_le
    have hday := d'.day_le
    have hyear := d'.valid.2.1
    rw [hnext, Date.lt_iff, show lastDay.stamp = 99991231 from rfl, Date.stamp] at h
    omega
  | some e => exact ⟨e, rfl, (next_covBy hnext).ge_of_gt h⟩

/-! ## The day of a shifted time -/

/-- The day after the day before. -/
theorem next_of_prev {d p : Date} (h : d.prev = some p) : p.next = some d := by
  have hd := d.valid
  have hdecember : ∀ y, daysInMonth y 12 = 31 := fun _ => rfl
  unfold Date.prev at h
  unfold Date.next
  split_ifs at h with hday hmonth <;> obtain ⟨hyear, hlast, hfirst⟩ := ofNums_eq_some h
  · rw [hyear, hlast, hfirst, if_pos (by omega), show d.day - 1 + 1 = d.day by omega]
    exact Date.ofNums_self d
  · rw [hyear, hlast, hfirst, if_neg (by omega), if_pos (by omega),
      show d.month - 1 + 1 = d.month by omega]
    have hone : d.day = 1 := by omega
    exact hone ▸ Date.ofNums_self d
  · have hvalid := p.valid
    rw [hyear, hlast, hfirst, hdecember, if_neg (by omega), if_neg (by omega),
      show d.year - 1 + 1 = d.year by omega]
    have hday1 : d.day = 1 := by omega
    have hmonth1 : d.month = 1 := by omega
    have hself := Date.ofNums_self d
    rwa [hday1, hmonth1] at hself

/-- The day before the day after. -/
theorem prev_of_next {d n : Date} (h : d.next = some n) : n.prev = some d := by
  have hd := d.valid
  have hdecember : ∀ y, daysInMonth y 12 = 31 := fun _ => rfl
  have hself := Date.ofNums_self d
  unfold Date.next at h
  unfold Date.prev
  split_ifs at h with hday hmonth <;> obtain ⟨hyear, hfirst, hn⟩ := ofNums_eq_some h
  · rw [hyear, hfirst, hn, if_pos (by omega), show d.day + 1 - 1 = d.day by omega]
    exact hself
  · rw [hyear, hfirst, hn, if_neg (by omega), if_pos (by omega),
      show d.month + 1 - 1 = d.month by omega]
    have hlast : d.day = daysInMonth d.year d.month := by omega
    rwa [← hlast]
  · rw [hyear, hfirst, hn, if_neg (by omega), if_neg (by omega),
      show d.year + 1 - 1 = d.year by omega]
    have hmonth12 : d.month = 12 := by omega
    rw [hmonth12, hdecember] at hday hd
    have hday31 : d.day = 31 := by omega
    rwa [hmonth12, hday31] at hself

/-- **What a shift does**: the day before, the same day or the day after. -/
theorem shift_cases {d d' : Date} {micros micros' : Nat} {delta : Int}
    (h : shift d micros delta = some (d', micros')) :
    (d.prev = some d' ∧ (micros : Int) + delta < 0 ∧
      micros' = ((micros : Int) + delta + dayMicros).toNat) ∨
    (d' = d ∧ 0 ≤ (micros : Int) + delta ∧ (micros : Int) + delta < dayMicros ∧
      micros' = ((micros : Int) + delta).toNat) ∨
    (d.next = some d' ∧ (dayMicros : Int) ≤ micros + delta ∧
      micros' = ((micros : Int) + delta - dayMicros).toNat) := by
  unfold shift at h
  split_ifs at h with hneg hlt
  · obtain ⟨p, hprev, heq⟩ := Option.map_eq_some_iff.mp h
    cases heq
    exact .inl ⟨hprev, hneg, rfl⟩
  · cases h
    exact .inr (.inl ⟨rfl, by omega, hlt, rfl⟩)
  · obtain ⟨n, hnext, heq⟩ := Option.map_eq_some_iff.mp h
    cases heq
    exact .inr (.inr ⟨hnext, by omega, rfl⟩)

/-- **A time shifted twice** is on its day again exactly when the sum of the shifts leaves it
there. -/
theorem shift_shift_day_iff {d d₁ d₂ : Date} {micros micros₁ micros₂ : Nat} {delta₁ delta₂ : Int}
    (hlt₁ : -(dayMicros : Int) < delta₁) (hlt₂ : -(dayMicros : Int) < delta₂ ∧ delta₂ < dayMicros)
    (h₁ : shift d micros delta₁ = some (d₁, micros₁))
    (h₂ : shift d₁ micros₁ delta₂ = some (d₂, micros₂)) :
    d₂ = d ↔ 0 ≤ (micros : Int) + delta₁ + delta₂ ∧ (micros : Int) + delta₁ + delta₂ < dayMicros := by
  obtain ⟨hd₁, hneg₁, rfl⟩ | ⟨rfl, hlo₁, hhi₁, rfl⟩ | ⟨hd₁, hle₁, rfl⟩ := shift_cases h₁
  · have hback := (next_covBy (next_of_prev hd₁)).lt
    obtain ⟨hd₂, hneg₂, rfl⟩ | ⟨rfl, hlo₂, hhi₂, rfl⟩ | ⟨hd₂, hle₂, rfl⟩ := shift_cases h₂
    · have hback₂ := (next_covBy (next_of_prev hd₂)).lt
      exact iff_of_false (hback₂.trans hback).ne (by omega)
    · exact iff_of_false hback.ne (by omega)
    · rw [next_of_prev hd₁, Option.some_inj] at hd₂
      exact iff_of_true hd₂.symm (by omega)
  · obtain ⟨hd₂, hneg₂, rfl⟩ | ⟨rfl, hlo₂, hhi₂, rfl⟩ | ⟨hd₂, hle₂, rfl⟩ := shift_cases h₂
    · exact iff_of_false (next_covBy (next_of_prev hd₂)).lt.ne (by omega)
    · exact iff_of_true rfl (by omega)
    · exact iff_of_false (next_covBy hd₂).lt.ne' (by omega)
  · have hahead := (next_covBy hd₁).lt
    obtain ⟨hd₂, hneg₂, rfl⟩ | ⟨rfl, hlo₂, hhi₂, rfl⟩ | ⟨hd₂, hle₂, rfl⟩ := shift_cases h₂
    · rw [prev_of_next hd₁, Option.some_inj] at hd₂
      exact iff_of_true hd₂.symm (by omega)
    · exact iff_of_false hahead.ne' (by omega)
    · exact iff_of_false (hahead.trans (next_covBy hd₂).lt).ne' (by omega)

end MyOriShop.Lib.IsoDate
