import Marginalia.Proofs.Time.Stamp

/-!
# Instants

The date of a day number has that number again, so that the same moment in UTC is the same instant.
What the journal writes as the present time is read back as that instant, cut to the millisecond:
reading never turns the order of two moments round.
-/

namespace Marginalia.Time

namespace Date

theorem daysBeforeMonth_succ (year month : Nat) (h : 1 ≤ month) :
    daysBeforeMonth year (month + 1) = daysBeforeMonth year month + daysInMonth year month := by
  obtain ⟨month, rfl⟩ := Nat.exists_eq_add_of_le' h
  simp [daysBeforeMonth, List.range_succ]

theorem number_ofDayOfYear (year : Nat) (hmonths : months ≤ 11) (offset : Nat) :
    (ofDayOfYear year months offset).number =
      daysBeforeYear year + daysBeforeMonth year (12 - months) + offset := by
  induction months generalizing offset with
  | zero => rfl
  | succ months ih =>
    have hnext := daysBeforeMonth_succ year (12 - (months + 1)) (by omega)
    have hmonth : 12 - (months + 1) + 1 = 12 - months := by omega
    rw [hmonth] at hnext
    unfold ofDayOfYear
    dsimp only
    split
    · rfl
    · rw [ih (by omega), hnext]
      omega

/-- The days before a year, by the parts of its number. -/
theorem daysBeforeYear_parts {era century cycle rest : Nat} (hcentury : century ≤ 3)
    (hcycle : cycle ≤ 24) (hrest : rest ≤ 3) :
    daysBeforeYear (era * 400 + century * 100 + cycle * 4 + rest + 1) =
      era * 146097 + century * 36524 + cycle * 1461 + rest * 365 := by
  unfold daysBeforeYear
  omega

theorem number_ofNumber (n : Nat) : (ofNumber n).number = n := by
  have hjanuary (year : Nat) : daysBeforeMonth year (12 - 11) = 0 := rfl
  simp only [ofNumber]
  rw [number_ofDayOfYear _ (Nat.le_refl 11), hjanuary,
    daysBeforeYear_parts (by omega) (by omega) (by omega)]
  omega

end Date

theorem Clock.micros_ofMicros (n : Nat) : (Clock.ofMicros n).micros = n := by
  simp only [Clock.ofMicros, Clock.micros, microsPerSecond]
  omega

theorem Clock.micros_cut (clock : Clock) : clock.cut.micros = clock.micros / 1000 * 1000 := by
  simp only [Clock.cut, Clock.micros, microsPerSecond]
  omega

theorem Moment.instant_ofInstant {n : Int} (h : ofInstant? n = some moment) :
    moment.instant = n := by
  unfold ofInstant? at h
  split at h
  · rename_i hrange
    cases h
    simp only [Bool.and_eq_true, decide_eq_true_eq] at hrange
    simp only [instant, Date.number_ofNumber, Clock.micros_ofMicros, Option.getD_some,
      Nat.div_add_mod']
    exact (Int.sub_zero _).trans (Int.toNat_of_nonneg hrange.1)
  · cases h

/-- The same moment in UTC is the same instant. -/
theorem Moment.instant_utc (h : Moment.utc? moment = some utc) : utc.instant = moment.instant :=
  instant_ofInstant h

theorem Moment.instant_cut (h : Moment.offset moment = some 0) :
    Moment.instant { moment with clock := moment.clock.cut } = moment.instant / 1000 * 1000 := by
  simp only [instant, h, Clock.micros_cut, Option.getD_some, microsPerDay, microsPerSecond]
  omega

namespace Iso

/-- What the journal writes as the present time is read back, cut to the millisecond. -/
theorem read_stamp_instant (h : Moment.stamp? now = some stamp) :
    ∃ moment, read stamp = .ok moment ∧ moment.instant = now.instant / 1000 * 1000 := by
  obtain ⟨utc, hutc, hoffset, hread⟩ := read_stamp_utc h
  exact ⟨_, hread, by rw [Moment.instant_cut hoffset, Moment.instant_utc hutc]⟩

/-- Reading keeps the order of the moments that were written. -/
theorem read_stamp_le (h : Moment.stamp? earlier = some stamp)
    (h' : Moment.stamp? later = some stamp') (hle : earlier.instant ≤ later.instant) :
    ∃ moment moment', read stamp = .ok moment ∧ read stamp' = .ok moment' ∧
      moment.instant ≤ moment'.instant := by
  obtain ⟨moment, hread, hinstant⟩ := read_stamp_instant h
  obtain ⟨moment', hread', hinstant'⟩ := read_stamp_instant h'
  exact ⟨moment, moment', hread, hread', by omega⟩

end Iso

end Marginalia.Time
