import Marginalia.Proofs.Time.Instant
import Mathlib.Data.String.Basic

/-!
# Texts in the order of time

Texts that write moments in UTC to the millisecond stand in the order of these moments. Every part
of them has a fixed width and the greater parts stand in front, so two of them differ first where
the moments differ first. All years have four digits, as the calendar ends with year 9999.
-/

namespace Marginalia.Time

-- ---------------------------------------------------------------------------
-- Digits
-- ---------------------------------------------------------------------------

theorem digitChar_lt : ∀ k < 10, ∀ k' < 10, k.digitChar < k'.digitChar ↔ k < k' := by decide

theorem digitChar_inj : ∀ k < 10, ∀ k' < 10, k.digitChar = k'.digitChar ↔ k = k' := by decide

/-- Behind numbers of one width, texts are compared only if the numbers are equal. -/
theorem lastDigits_append_lt (hn : n < 10 ^ width) (hn' : n' < 10 ^ width)
    {rest rest' : List Char} :
    lastDigits width n ++ rest < lastDigits width n' ++ rest' ↔
      n < n' ∨ n = n' ∧ rest < rest' := by
  induction width generalizing n n' rest rest' with
  | zero =>
    have hzero : n = 0 := by simpa using hn
    have hzero' : n' = 0 := by simpa using hn'
    simp [lastDigits, hzero, hzero']
  | succ width ih =>
    have hmod := Nat.mod_lt n (show 10 > 0 by decide)
    have hmod' := Nat.mod_lt n' (show 10 > 0 by decide)
    have hdiv : n / 10 < 10 ^ width := by
      rw [Nat.pow_succ] at hn
      omega
    have hdiv' : n' / 10 < 10 ^ width := by
      rw [Nat.pow_succ] at hn'
      omega
    rw [lastDigits, lastDigits, List.append_assoc, List.append_assoc, ih hdiv hdiv',
      List.singleton_append, List.singleton_append, List.cons_lt_cons_iff,
      digitChar_lt _ hmod _ hmod', digitChar_inj _ hmod _ hmod']
    by_cases hrest : rest < rest' <;> simp only [hrest, and_true, and_false, or_false] <;> omega

theorem cons_lt_cons_self {c : Char} {rest rest' : List Char} :
    c :: rest < c :: rest' ↔ rest < rest' := by simp

-- ---------------------------------------------------------------------------
-- Dates
-- ---------------------------------------------------------------------------

namespace Date

variable {date date' : Date} {year year' month month' : Nat}

theorem daysBeforeMonth_thirteenth (year : Nat) :
    daysBeforeMonth year 13 = if isLeap year then 366 else 365 := by
  cases h : isLeap year <;> simp [daysBeforeMonth, List.range_succ, daysInMonth, h]

theorem daysBeforeYear_succ (h : 1 ≤ year) :
    daysBeforeYear (year + 1) = daysBeforeYear year + daysBeforeMonth year 13 := by
  obtain ⟨n, rfl⟩ := Nat.exists_eq_add_of_le' h
  simp only [daysBeforeMonth_thirteenth, isLeap_iff, daysBeforeYear, Nat.add_sub_cancel,
    Nat.succ_div, Nat.dvd_iff_mod_eq_zero]
  split_ifs <;> omega

theorem daysBeforeYear_mono (h : year ≤ year') : daysBeforeYear year ≤ daysBeforeYear year' := by
  induction year', h using Nat.le_induction with
  | base => exact Nat.le_refl _
  | succ year' _ ih =>
    rcases Nat.eq_zero_or_pos year' with rfl | hpos
    · exact ih
    · rw [daysBeforeYear_succ hpos]
      omega

theorem daysBeforeMonth_mono (hmonth : 1 ≤ month) (h : month ≤ month') :
    daysBeforeMonth year month ≤ daysBeforeMonth year month' := by
  induction month', h using Nat.le_induction with
  | base => exact Nat.le_refl _
  | succ month' hle ih =>
    rw [daysBeforeMonth_succ year month' (by omega)]
    omega

/-- The days of a month come before the next one. -/
theorem number_lt_next_month (h : date.valid = true) (hmonth : date.month < month) :
    date.number < daysBeforeYear date.year + daysBeforeMonth date.year month := by
  obtain ⟨-, -, hfirst, -, hday, hday'⟩ := valid_iff.mp h
  have hnext := daysBeforeMonth_succ date.year date.month hfirst
  have hmono : daysBeforeMonth date.year (date.month + 1) ≤ daysBeforeMonth date.year month :=
    daysBeforeMonth_mono (by omega) hmonth
  unfold number
  omega

theorem number_lt_next_year (h : date.valid = true) (hyear : date.year < year) :
    date.number < daysBeforeYear year := by
  obtain ⟨hfirst, -, -, hmonth, -⟩ := valid_iff.mp h
  have hdecember := number_lt_next_month h (show date.month < 13 by omega)
  have hmono : daysBeforeYear (date.year + 1) ≤ daysBeforeYear year := daysBeforeYear_mono hyear
  rw [daysBeforeYear_succ hfirst] at hmono
  omega

/-- The order of dates by year, month and day. -/
def before (date date' : Date) : Prop :=
  date.year < date'.year ∨ date.year = date'.year ∧
    (date.month < date'.month ∨ date.month = date'.month ∧ date.day < date'.day)

theorem number_lt (h : date.valid = true) (h' : 1 ≤ date'.day)
    (hbefore : date.before date') : date.number < date'.number := by
  obtain ⟨-, -, -, -, hday, -⟩ := valid_iff.mp h
  rcases hbefore with hyear | ⟨hyear, hmonth | ⟨hmonth, hless⟩⟩
  · have hnext := number_lt_next_year h hyear
    unfold number at hnext ⊢
    omega
  · have hnext := number_lt_next_month h hmonth
    rw [hyear] at hnext
    unfold number at hnext ⊢
    omega
  · unfold number
    rw [hyear, hmonth]
    omega

theorem before_or_eq_or_after (date date' : Date) :
    date.before date' ∨ date = date' ∨ date'.before date := by
  obtain ⟨year, month, day⟩ := date
  obtain ⟨year', month', day'⟩ := date'
  simp only [before, Date.mk.injEq]
  omega

theorem before_iff (h : date.valid = true) (h' : Date.valid date' = true) :
    date.before date' ↔ date.number < date'.number := by
  obtain ⟨-, -, -, -, hday, -⟩ := valid_iff.mp h
  obtain ⟨-, -, -, -, hday', -⟩ := valid_iff.mp h'
  refine ⟨number_lt h hday', fun hlt => ?_⟩
  rcases before_or_eq_or_after date date' with hbefore | rfl | hafter
  · exact hbefore
  · omega
  · have := number_lt h' hday hafter
    omega

theorem number_inj (h : date.valid = true) (h' : date'.valid = true)
    (heq : date.number = date'.number) : date = date' := by
  rcases before_or_eq_or_after date date' with hbefore | rfl | hafter
  · exact absurd ((before_iff h h').mp hbefore) (by omega)
  · rfl
  · exact absurd ((before_iff h' h).mp hafter) (by omega)

theorem number_lt_dayCount (h : date.valid = true) : date.number < dayCount := by
  obtain ⟨-, hlast, -⟩ := valid_iff.mp h
  exact number_lt_next_year h (Nat.lt_succ_of_le hlast)

theorem ofNumber_number (h : date.valid = true) : ofNumber date.number = date :=
  number_inj (valid_ofNumber (number_lt_dayCount h)) h (number_ofNumber _)

theorem text_append_lt (h : date.valid = true) (h' : Date.valid date' = true)
    {rest rest' : List Char} :
    date.text.toList ++ rest < date'.text.toList ++ rest' ↔
      date.number < date'.number ∨ date = date' ∧ rest < rest' := by
  obtain ⟨-, hyear, -, hmonth, -, hday⟩ := valid_iff.mp h
  obtain ⟨-, hyear', -, hmonth', -, hday'⟩ := valid_iff.mp h'
  have hlast := daysInMonth_le date.year date.month
  have hlast' := daysInMonth_le date'.year date'.month
  rw [lastYear] at hyear hyear'
  rw [← before_iff h h', toList_dateText h, toList_dateText h']
  simp only [List.append_assoc, List.cons_append]
  rw [lastDigits_append_lt (by omega) (by omega), cons_lt_cons_self,
    lastDigits_append_lt (by omega) (by omega), cons_lt_cons_self,
    lastDigits_append_lt (by omega) (by omega)]
  obtain ⟨year, month, day⟩ := date
  obtain ⟨year', month', day'⟩ := date'
  simp only [before, Date.mk.injEq]
  tauto

end Date

-- ---------------------------------------------------------------------------
-- Moments
-- ---------------------------------------------------------------------------

theorem Clock.millisText_append_lt (h : Clock.valid clock = true) (h' : Clock.valid clock' = true)
    {rest rest' : List Char} :
    clock.millisText.toList ++ rest < clock'.millisText.toList ++ rest' ↔
      clock.micros / 1000 < clock'.micros / 1000 ∨
        clock.micros / 1000 = clock'.micros / 1000 ∧ rest < rest' := by
  obtain ⟨hhour, hminute, hsecond, hmicros⟩ := valid_iff.mp h
  obtain ⟨hhour', hminute', hsecond', hmicros'⟩ := valid_iff.mp h'
  rw [microsPerSecond] at hmicros hmicros'
  rw [toList_millisText h, toList_millisText h']
  simp only [List.append_assoc, List.cons_append]
  rw [lastDigits_append_lt (by omega) (by omega), cons_lt_cons_self,
    lastDigits_append_lt (by omega) (by omega), cons_lt_cons_self,
    lastDigits_append_lt (by omega) (by omega), cons_lt_cons_self,
    lastDigits_append_lt (by omega) (by omega)]
  have hmillis (c : Clock) : c.micros / 1000 =
      ((c.hour * 60 + c.minute) * 60 + c.second) * 1000 + c.microsecond / 1000 := by
    rw [Clock.micros, microsPerSecond]
    omega
  rw [hmillis, hmillis]
  by_cases hrest : rest < rest' <;> simp only [hrest, and_true, and_false, or_false] <;> omega

theorem Clock.micros_lt (h : Clock.valid clock = true) : clock.micros < microsPerDay := by
  obtain ⟨hhour, hminute, hsecond, hmicros⟩ := valid_iff.mp h
  simp only [micros, microsPerDay, microsPerSecond] at hmicros ⊢
  omega

theorem Clock.ofMicros_micros (h : Clock.valid clock = true) : ofMicros clock.micros = clock := by
  obtain ⟨hhour, hminute, hsecond, hmicros⟩ := valid_iff.mp h
  obtain ⟨hour, minute, second, microsecond⟩ := clock
  simp only [microsPerSecond] at hhour hminute hsecond hmicros
  simp only [ofMicros, micros, microsPerSecond, Clock.mk.injEq]
  omega

namespace Moment

variable {moment moment' utc utc' : Moment} {stamp stamp' : String}

/-- A moment as it is written in UTC. Only moments in years 1 to 9999 of UTC can be. -/
structure IsUtcOf (utc moment : Moment) : Prop where
  date : utc.date.valid = true
  clock : utc.clock.valid = true
  offset : utc.offset = some 0
  instant : utc.instant = moment.instant

theorem instant_of_utc (h : utc.offset = some 0) :
    utc.instant = (utc.date.number * microsPerDay + utc.clock.micros : Nat) := by
  rw [instant, h, Option.getD_some, Int.sub_zero]

theorem ofInstant_instant (hdate : utc.date.valid = true) (hclock : utc.clock.valid = true)
    (hoffset : utc.offset = some 0) : ofInstant? utc.instant = some utc := by
  have hnumber := Date.number_lt_dayCount hdate
  have hmicros := Clock.micros_lt hclock
  have hpos : 0 < microsPerDay := by decide
  have hrange : utc.date.number * microsPerDay + utc.clock.micros < dayCount * microsPerDay := by
    have hnext := Nat.mul_le_mul_right microsPerDay (Nat.succ_le_of_lt hnumber)
    rw [Nat.succ_mul] at hnext
    omega
  have hdiv : (utc.date.number * microsPerDay + utc.clock.micros) / microsPerDay =
      utc.date.number := by
    rw [Nat.mul_comm, Nat.mul_add_div hpos, Nat.div_eq_of_lt hmicros, Nat.add_zero]
  have hmod : (utc.date.number * microsPerDay + utc.clock.micros) % microsPerDay =
      utc.clock.micros := by
    rw [Nat.mul_comm, Nat.mul_add_mod, Nat.mod_eq_of_lt hmicros]
  have hinside : (0 ≤ ((utc.date.number * microsPerDay + utc.clock.micros : Nat) : Int) &&
      ((utc.date.number * microsPerDay + utc.clock.micros : Nat) : Int) <
        (dayCount * microsPerDay : Nat)) = true := by
    rw [Bool.and_eq_true, decide_eq_true_eq, decide_eq_true_eq]
    exact ⟨Int.natCast_nonneg _, Int.ofNat_lt.mpr hrange⟩
  rw [instant_of_utc hoffset, ofInstant?, if_pos hinside]
  simp only [Int.toNat_natCast, hdiv, hmod, Date.ofNumber_number hdate,
    Clock.ofMicros_micros hclock, ← hoffset]

theorem utc?_eq_some_iff : moment.utc? = some utc ↔ utc.IsUtcOf moment := by
  constructor
  · intro h
    obtain ⟨hdate, hclock, hoffset⟩ := utc?_ok h
    exact ⟨hdate, hclock, hoffset, instant_utc h⟩
  · intro h
    rw [utc?, ← h.instant, ofInstant_instant h.date h.clock h.offset]

/-- The whole milliseconds up to a moment. -/
def millis (moment : Moment) : Int := moment.instant / 1000

theorem millis_utc (hutc : moment.utc? = some utc) :
    moment.millis = utc.date.number * 86400000 + utc.clock.micros / 1000 := by
  obtain ⟨-, -, hoffset⟩ := utc?_ok hutc
  rw [millis, ← instant_utc hutc, instant_of_utc hoffset]
  simp only [microsPerDay, microsPerSecond]
  omega

theorem stamp_lt_iff (h : moment.stamp? = some stamp) (h' : moment'.stamp? = some stamp') :
    stamp < stamp' ↔ moment.millis < moment'.millis := by
  obtain ⟨utc, hutc, rfl⟩ := Option.map_eq_some_iff.mp h
  obtain ⟨utc', hutc', rfl⟩ := Option.map_eq_some_iff.mp h'
  obtain ⟨hdate, hclock, hoffset⟩ := utc?_ok hutc
  obtain ⟨hdate', hclock', hoffset'⟩ := utc?_ok hutc'
  have hday := Clock.micros_lt hclock
  have hday' := Clock.micros_lt hclock'
  have hseparator : "T".toList = ['T'] := rfl
  rw [String.lt_iff_toList_lt, millis_utc hutc, millis_utc hutc']
  simp only [millisText, offsetSuffix, hoffset, hoffset', String.toList_append, List.append_assoc,
    hseparator, List.cons_append, List.nil_append]
  rw [Date.text_append_lt hdate hdate', cons_lt_cons_self,
    Clock.millisText_append_lt hclock hclock']
  simp only [microsPerDay, microsPerSecond] at hday hday'
  simp only [lt_irrefl, and_false, or_false]
  constructor
  · rintro (hless | ⟨heq, hless⟩)
    · omega
    · rw [heq]
      omega
  · intro hless
    rcases Nat.lt_trichotomy utc.date.number utc'.date.number with hnumber | hnumber | hnumber
    · exact .inl hnumber
    · refine .inr ⟨Date.number_inj hdate hdate' hnumber, by omega⟩
    · omega

theorem stamp_le_iff (h : moment.stamp? = some stamp) (h' : moment'.stamp? = some stamp') :
    stamp ≤ stamp' ↔ moment.millis ≤ moment'.millis := by
  rw [← not_lt, stamp_lt_iff h' h, not_lt]

theorem stamp_inj (h : moment.stamp? = some stamp) (h' : moment'.stamp? = some stamp') :
    stamp = stamp' ↔ moment.millis = moment'.millis := by
  rw [le_antisymm_iff, stamp_le_iff h h', stamp_le_iff h' h, ← le_antisymm_iff]

/-- A moment in UTC is its own stamp. -/
theorem stamp_ofInstant {n : Int} (h : ofInstant? n = some moment) :
    moment.stamp? = some moment.millisText := by
  rw [stamp?, utc?, instant_ofInstant h, h, Option.map_some]

theorem stamp_of_isUtcOf (h : utc.IsUtcOf moment) : moment.stamp? = some utc.millisText := by
  rw [stamp?, utc?_eq_some_iff.mpr h, Option.map_some]

/-- The texts of moments in UTC stand in the order of their instants, up to the millisecond. -/
theorem texts_in_order (h : utc.IsUtcOf moment) (h' : utc'.IsUtcOf moment') :
    moment.stamp? = some utc.millisText ∧ moment'.stamp? = some utc'.millisText ∧
      (utc.millisText ≤ utc'.millisText ↔ moment.millis ≤ moment'.millis) ∧
      (utc.millisText = utc'.millisText ↔ moment.millis = moment'.millis) :=
  have hstamp := stamp_of_isUtcOf h
  have hstamp' := stamp_of_isUtcOf h'
  ⟨hstamp, hstamp', stamp_le_iff hstamp hstamp', stamp_inj hstamp hstamp'⟩

/-- The last moment of a year half an hour behind UTC, and how UTC has it. -/
def yearEnd : Moment := ⟨⟨999, 12, 31⟩, ⟨23, 59, 59, 999999⟩, some (-1800000000)⟩

def yearEndUtc : Moment := ⟨⟨1000, 1, 1⟩, ⟨0, 29, 59, 999999⟩, some 0⟩

/-- A moment of the next year five and a half hours ahead of UTC, and how UTC has it. -/
def yearStart : Moment := ⟨⟨1000, 1, 1⟩, ⟨5, 59, 59, 999000⟩, some 19800000000⟩

def yearStartUtc : Moment := ⟨⟨1000, 1, 1⟩, ⟨0, 29, 59, 999000⟩, some 0⟩

theorem texts_in_order_newYear :
    yearEndUtc.IsUtcOf yearEnd ∧ yearStartUtc.IsUtcOf yearStart ∧
      yearStart.instant < yearEnd.instant ∧ yearEnd.stamp? = some yearEndUtc.millisText ∧
      yearStart.stamp? = some yearStartUtc.millisText ∧
      yearEndUtc.millisText = yearStartUtc.millisText := by
  have hend : yearEndUtc.IsUtcOf yearEnd :=
    ⟨by decide +kernel, by decide, rfl, by decide +kernel⟩
  have hstart : yearStartUtc.IsUtcOf yearStart :=
    ⟨by decide +kernel, by decide, rfl, by decide +kernel⟩
  obtain ⟨hstamp, hstamp', -, hequal⟩ := texts_in_order hend hstart
  exact ⟨hend, hstart, by decide +kernel, hstamp, hstamp', hequal.mpr (by decide +kernel)⟩

end Moment

end Marginalia.Time
