import Marginalia.Time.Moment
import Mathlib.Tactic.NormNum

/-!
# Days and times in range

Every day number below the end of year 9999 has a date that exists, and every number of
microseconds has a time of day.
-/

namespace Marginalia.Time

namespace Date

/-- The days of a year from the month on that has `months` months after it. -/
def daysFrom (year : Nat) : (months : Nat) → Nat
  | 0 => 31
  | months + 1 => daysInMonth year (12 - (months + 1)) + daysFrom year months

theorem ofDayOfYear_range {year : Nat} (hmonths : months ≤ 11) (h : offset < daysFrom year months) :
    (ofDayOfYear year months offset).year = year ∧
      1 ≤ (ofDayOfYear year months offset).month ∧
      (ofDayOfYear year months offset).month ≤ 12 ∧
      1 ≤ (ofDayOfYear year months offset).day ∧
      (ofDayOfYear year months offset).day ≤
        daysInMonth year (ofDayOfYear year months offset).month := by
  induction months generalizing offset with
  | zero =>
    simp only [daysFrom] at h
    refine ⟨rfl, ?_, ?_, ?_, ?_⟩ <;> simp [ofDayOfYear, daysInMonth]
    omega
  | succ months ih =>
    simp only [daysFrom] at h
    unfold ofDayOfYear
    dsimp only
    split
    · refine ⟨rfl, ?_, ?_, ?_, ?_⟩ <;> dsimp only <;> omega
    · exact ih (by omega) (by omega)

theorem daysFrom_january (year : Nat) :
    daysFrom year 11 = if isLeap year then 366 else 365 := by
  cases h : isLeap year <;> simp [daysFrom, daysInMonth, h]

theorem isLeap_iff (year : Nat) :
    isLeap year = true ↔ year % 4 = 0 ∧ (year % 100 ≠ 0 ∨ year % 400 = 0) := by
  simp [isLeap]

/-- Only the last year of a leap cycle has a 366th day, and it is a leap year: the last year of a
century is the last one of an era too, or its cycle is cut short. -/
theorem isLeap_of_long_year (era : Nat) (hera : inEra < 146097)
    (hcentury : century = min (inEra / 36524) 3)
    (hinCentury : inCentury = inEra - century * 36524)
    (hlong : 365 ≤ inCentury % 1461 - min (inCentury % 1461 / 365) 3 * 365) :
    isLeap (era * 400 + century * 100 + inCentury / 1461 * 4 +
      min (inCentury % 1461 / 365) 3 + 1) = true := by
  have hlast : inCentury % 1461 = 1460 := by omega
  have hyear : min (inCentury % 1461 / 365) 3 = 3 := by omega
  rw [isLeap_iff, hyear]
  generalize hcycle : inCentury / 1461 = cycle
  have hsplit : inCentury = 1461 * cycle + 1460 := by omega
  refine ⟨by omega, ?_⟩
  by_cases hfull : cycle = 24
  · exact .inr (by omega)
  · exact .inl (by omega)

theorem year_ofNumber_le (h : n < dayCount) (hcentury : century = min (n % 146097 / 36524) 3)
    (hinCentury : inCentury = n % 146097 - century * 36524) :
    n / 146097 * 400 + century * 100 + inCentury / 1461 * 4 +
      min (inCentury % 1461 / 365) 3 + 1 ≤ lastYear := by
  have hcount : n < 3652059 := h
  unfold lastYear
  omega

theorem valid_ofNumber (h : n < dayCount) : (ofNumber n).valid = true := by
  simp only [ofNumber]
  generalize hcentury : min (n % 146097 / 36524) 3 = century
  generalize hinCentury : n % 146097 - century * 36524 = inCentury
  have hlast := year_ofNumber_le h hcentury.symm hinCentury.symm
  have hleap := isLeap_of_long_year (n / 146097) (Nat.mod_lt n (by decide)) hcentury.symm
    hinCentury.symm
  have hshort : inCentury % 1461 - min (inCentury % 1461 / 365) 3 * 365 ≤ 365 := by omega
  generalize hyear : n / 146097 * 400 + century * 100 + inCentury / 1461 * 4 +
    min (inCentury % 1461 / 365) 3 + 1 = year at hlast hleap ⊢
  generalize inCentury % 1461 - min (inCentury % 1461 / 365) 3 * 365 = offset at hleap hshort ⊢
  have hroom : offset < daysFrom year 11 := by
    rw [daysFrom_january]
    split
    · omega
    · rename_i hnot
      by_contra hlong
      exact hnot (hleap (by omega))
  obtain ⟨hsame, hmonth, hmonth', hday, hday'⟩ := ofDayOfYear_range (Nat.le_refl 11) hroom
  simp only [valid, hsame, Bool.and_eq_true, decide_eq_true_eq]
  exact ⟨⟨⟨⟨⟨by omega, hlast⟩, hmonth⟩, hmonth'⟩, hday⟩, hday'⟩

end Date

theorem Clock.valid_ofMicros (h : n < microsPerDay) : (Clock.ofMicros n).valid = true := by
  simp only [microsPerDay, microsPerSecond] at h
  simp only [Clock.valid, Bool.and_eq_true, decide_eq_true_eq]
  simp only [Clock.ofMicros, microsPerSecond]
  omega

/-- A moment in UTC has a date that exists, a time of day, and no offset. -/
theorem Moment.utc?_ok (h : Moment.utc? moment = some utc) :
    utc.date.valid = true ∧ utc.clock.valid = true ∧ utc.offset = some 0 := by
  unfold utc? ofInstant? at h
  split at h
  · rename_i hrange
    cases h
    simp only [Bool.and_eq_true, decide_eq_true_eq] at hrange
    have hmicros : 0 < microsPerDay := by decide
    have hday : moment.instant.toNat / microsPerDay < dayCount := by
      rw [Nat.div_lt_iff_lt_mul hmicros]
      omega
    exact ⟨Date.valid_ofNumber hday, Clock.valid_ofMicros (Nat.mod_lt _ hmicros), rfl⟩
  · cases h

end Marginalia.Time
