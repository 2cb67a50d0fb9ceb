import Marginalia.Proofs.Time.Calendar
import Marginalia.Proofs.Time.Digits

/-!
# Reading what was written

The text of a moment to the millisecond reads as that moment, less what the text cuts off. Offsets
are whole minutes; a moment without offset has none in its text.
-/

namespace Marginalia.Time

open Text (isAsciiDigit)

-- ---------------------------------------------------------------------------
-- Texts
-- ---------------------------------------------------------------------------

theorem Date.valid_iff : Date.valid date = true ↔
    1 ≤ date.year ∧ date.year ≤ lastYear ∧ 1 ≤ date.month ∧ date.month ≤ 12 ∧ 1 ≤ date.day ∧
      date.day ≤ daysInMonth date.year date.month := by
  simp [valid, and_assoc]

theorem Clock.valid_iff : Clock.valid clock = true ↔
    clock.hour < 24 ∧ clock.minute < 60 ∧ clock.second < 60 ∧
      clock.microsecond < microsPerSecond := by
  simp [valid, and_assoc]

theorem daysInMonth_le (year month : Nat) : daysInMonth year month ≤ 31 := by
  unfold daysInMonth
  repeat' split
  all_goals decide

theorem toList_dateText (h : Date.valid date = true) :
    date.text.toList = lastDigits 4 date.year ++ '-' :: (lastDigits 2 date.month ++ '-' ::
      lastDigits 2 date.day) := by
  obtain ⟨-, hyear, -, hmonth, -, hday⟩ := Date.valid_iff.mp h
  have hlast := daysInMonth_le date.year date.month
  have hdash : "-".toList = ['-'] := rfl
  rw [lastYear] at hyear
  rw [Date.text, String.toList_append, String.toList_append, String.toList_append,
    String.toList_append, toList_padded 3 _ (by omega), toList_padded 1 _ (by omega),
    toList_padded 1 _ (by omega), hdash]
  simp

theorem toList_secondsText (h : Clock.valid clock = true) :
    clock.secondsText.toList = lastDigits 2 clock.hour ++ ':' :: (lastDigits 2 clock.minute ++
      ':' :: lastDigits 2 clock.second) := by
  obtain ⟨hhour, hminute, hsecond, -⟩ := Clock.valid_iff.mp h
  have hcolon : ":".toList = [':'] := rfl
  rw [Clock.secondsText, String.toList_append, String.toList_append, String.toList_append,
    String.toList_append, toList_padded 1 _ (by omega), toList_padded 1 _ (by omega),
    toList_padded 1 _ (by omega), hcolon]
  simp

theorem toList_millisText (h : Clock.valid clock = true) :
    clock.millisText.toList = lastDigits 2 clock.hour ++ ':' :: (lastDigits 2 clock.minute ++
      ':' :: (lastDigits 2 clock.second ++ '.' :: lastDigits 3 (clock.microsecond / 1000))) := by
  obtain ⟨-, -, -, hmicros⟩ := Clock.valid_iff.mp h
  have hpoint : ".".toList = ['.'] := rfl
  rw [microsPerSecond] at hmicros
  rw [Clock.millisText, String.toList_append, String.toList_append, toList_secondsText h,
    toList_padded 2 _ (by omega), hpoint]
  simp

/-- The time of day that a text to the millisecond keeps. -/
def Clock.cut (clock : Clock) : Clock :=
  { clock with microsecond := clock.microsecond / 1000 * 1000 }

namespace Iso

-- ---------------------------------------------------------------------------
-- Bytes
-- ---------------------------------------------------------------------------

theorem utf8EncodeChar_ascii (h : Char.toNat c < 0x80) :
    String.utf8EncodeChar c = [UInt8.ofNat c.toNat] := by
  have hval : c.val ≤ 127 := by
    rw [UInt32.le_iff_toNat_le]
    have : c.val.toNat = c.toNat := rfl
    have : (127 : UInt32).toNat = 127 := rfl
    omega
  exact String.utf8EncodeChar_eq_singleton (Char.utf8Size_eq_one_iff.mpr hval)

theorem bytes_of_ascii {text : List Char} (h : ∀ c ∈ text, c.toNat < 0x80) :
    (Marginalia.Text.encodeChars text).map (fun b => Char.ofNat b.toNat) = text := by
  induction text with
  | nil => rfl
  | cons c rest ih =>
    obtain ⟨hc, hrest⟩ := List.forall_mem_cons.mp h
    have hbyte : (UInt8.ofNat c.toNat).toNat = c.toNat := by
      rw [UInt8.toNat_ofNat']
      omega
    have hencode : Marginalia.Text.encodeChars (c :: rest) =
        UInt8.ofNat c.toNat :: Marginalia.Text.encodeChars rest := by
      simp [Marginalia.Text.encodeChars, utf8EncodeChar_ascii hc]
    rw [hencode, List.map_cons, ih hrest, hbyte, Char.ofNat_toNat]

-- ---------------------------------------------------------------------------
-- Times
-- ---------------------------------------------------------------------------

theorem dropWhile_digits {rest : List Char} (h : isAsciiDigit (peek rest) = false) :
    rest.dropWhile isAsciiDigit = rest := by
  cases rest with
  | nil => rfl
  | cons c rest => exact List.dropWhile_cons_of_neg (by simpa [peek] using h)

theorem clock?_millis (h : Clock.valid clock = true) (hrest : isAsciiDigit (peek rest) = false) :
    clock? 12 (clock.millisText.toList ++ rest) = some ⟨clock.cut, peek rest == '\x00'⟩ := by
  obtain ⟨hhour, hminute, hsecond, hmicros⟩ := Clock.valid_iff.mp h
  have hmillis : clock.microsecond / 1000 < 10 ^ 3 := by
    rw [microsPerSecond] at hmicros
    omega
  rw [toList_millisText h]
  simp [clock?, parts?, pair?_lastDigits (show clock.hour < 100 by omega),
    pair?_lastDigits (show clock.minute < 100 by omega),
    pair?_lastDigits (show clock.second < 100 by omega), peek, fraction?,
    digits?_lastDigits hmillis, dropWhile_digits hrest, Clock.cut]

theorem clock?_minutes (hhour : hour < 24) (hminute : minute < 60) :
    clock? 5 (lastDigits 2 hour ++ ':' :: lastDigits 2 minute) =
      some ⟨⟨hour, minute, 0, 0⟩, true⟩ := by
  have hread := pair?_lastDigits (show minute < 100 by omega) []
  rw [List.append_nil] at hread
  simp [clock?, parts?, pair?_lastDigits (show hour < 100 by omega), hread, peek]

-- ---------------------------------------------------------------------------
-- Offsets
-- ---------------------------------------------------------------------------

def microsPerMinute : Nat := 60 * microsPerSecond

/-- An offset that its text gives in full. -/
def WholeMinutes (offset : Int) : Prop :=
  offset.natAbs < microsPerDay ∧ microsPerMinute ∣ offset.natAbs

theorem ofMicros_wholeMinutes (h : microsPerMinute ∣ n) :
    Clock.ofMicros n = ⟨n / microsPerMinute / 60, n / microsPerMinute % 60, 0, 0⟩ := by
  obtain ⟨k, rfl⟩ := h
  simp only [Clock.ofMicros, microsPerMinute, microsPerSecond, Clock.mk.injEq]
  omega

theorem toList_offsetText (h : WholeMinutes offset) :
    (offsetText offset).toList = (if offset < 0 then '-' else '+') ::
      (lastDigits 2 (offset.natAbs / microsPerMinute / 60) ++ ':' ::
        lastDigits 2 (offset.natAbs / microsPerMinute % 60)) := by
  obtain ⟨hday, hminutes⟩ := h
  have hcolon : ":".toList = [':'] := rfl
  have hsign : (if offset < 0 then "-" else "+").toList = [if offset < 0 then '-' else '+'] := by
    split <;> rfl
  have hhour : offset.natAbs / microsPerMinute / 60 < 24 := by
    simp only [microsPerDay, microsPerMinute, microsPerSecond] at hday ⊢
    omega
  have hhourText := toList_padded 1 (offset.natAbs / microsPerMinute / 60) (by omega)
  have hminuteText := toList_padded 1 (offset.natAbs / microsPerMinute % 60) (by omega)
  simp only [offsetText, ofMicros_wholeMinutes hminutes, bne_self_eq_false, Bool.false_eq_true,
    if_false, String.toList_append, hsign, hcolon, hhourText, hminuteText]
  simp

/-- The text behind the time: nothing, or an offset that reads as what it is. -/
theorem toList_offsetSuffix (h : ∀ offset ∈ Moment.offset moment, WholeMinutes offset) :
    moment.offsetSuffix.toList = [] ∧ moment.offset = none ∨
      ∃ offset, WholeMinutes offset ∧ moment.offset = some offset ∧
        moment.offsetSuffix.toList = (offsetText offset).toList := by
  unfold Moment.offsetSuffix
  cases hoffset : moment.offset with
  | none => exact .inl ⟨rfl, rfl⟩
  | some offset => exact .inr ⟨offset, h offset hoffset, rfl, rfl⟩

/-- The characters of a time are none that an offset begins with. -/
theorem not_isOffsetMark_millisText (h : Clock.valid clock = true) :
    ∀ c ∈ clock.millisText.toList, isOffsetMark c = false := by
  have hdigit {c : Char} (hc : isAsciiDigit c = true) : isOffsetMark c = false := by
    by_contra hmark
    simp only [isOffsetMark, Bool.not_eq_false, Bool.or_eq_true, beq_iff_eq] at hmark
    rcases hmark with (rfl | rfl) | rfl <;> exact absurd hc (by decide)
  intro c hc
  simp only [toList_millisText h, List.mem_append, List.mem_cons] at hc
  rcases hc with hc | rfl | hc | rfl | hc | rfl | hc
  · exact hdigit (isAsciiDigit_of_mem_lastDigits hc)
  · decide
  · exact hdigit (isAsciiDigit_of_mem_lastDigits hc)
  · decide
  · exact hdigit (isAsciiDigit_of_mem_lastDigits hc)
  · decide
  · exact hdigit (isAsciiDigit_of_mem_lastDigits hc)

theorem takeWhile_time {time rest : List Char} (htime : ∀ c ∈ time, isOffsetMark c = false)
    (hrest : rest = [] ∨ isOffsetMark (peek rest) = true) :
    (time ++ rest).takeWhile (fun c => !isOffsetMark c) = time := by
  have hnone : rest.takeWhile (fun c => !isOffsetMark c) = [] := by
    cases rest with
    | nil => rfl
    | cons c rest =>
      have hmark : isOffsetMark c = true := by simpa [peek] using hrest
      simp [hmark]
  rw [List.takeWhile_append_of_pos (fun c hc => by simp [htime c hc]), hnone, List.append_nil]

theorem length_millisText (h : Clock.valid clock = true) : clock.millisText.toList.length = 12 := by
  simp [toList_millisText h]

theorem clock?_offset (h : WholeMinutes offset) :
    clock? 5 (lastDigits 2 (offset.natAbs / microsPerMinute / 60) ++ ':' ::
        lastDigits 2 (offset.natAbs / microsPerMinute % 60)) =
      some ⟨Clock.ofMicros offset.natAbs, true⟩ ∧
    (Clock.ofMicros offset.natAbs).micros = offset.natAbs ∧
    (offset.natAbs < microsPerSecond → offset = 0) := by
  obtain ⟨hday, hminutes⟩ := h
  have hhour : offset.natAbs / microsPerMinute / 60 < 24 := by
    simp only [microsPerDay, microsPerMinute, microsPerSecond] at hday ⊢
    omega
  rw [ofMicros_wholeMinutes hminutes]
  refine ⟨clock?_minutes hhour (Nat.mod_lt _ (by decide)), ?_, ?_⟩
  · obtain ⟨k, hk⟩ := hminutes
    simp only [Clock.micros, hk, microsPerMinute, microsPerSecond]
    omega
  · obtain ⟨k, hk⟩ := hminutes
    simp only [microsPerMinute, microsPerSecond] at hk ⊢
    omega

theorem clockAndOffset?_signed (h : Clock.valid clock = true) (hsign : sign = '-' ∨ sign = '+')
    (hlength : digits.length = 5) (hread : clock? 5 digits = some ⟨offset, true⟩) :
    clockAndOffset? (clock.millisText.toList ++ sign :: digits) =
      let micros : Int := if offset.micros < microsPerSecond then 0 else offset.micros
      some (clock.cut, some (if sign == '-' then -micros else micros)) := by
  have hmark : isOffsetMark (peek (sign :: digits)) = true := by
    rcases hsign with rfl | rfl <;> rfl
  have hstop : isAsciiDigit (peek (sign :: digits)) = false := by
    rcases hsign with rfl | rfl <;> rfl
  have hbefore := takeWhile_time (not_isOffsetMark_millisText h) (.inr hmark)
  have hclock := clock?_millis h hstop
  rw [clockAndOffset?, hbefore, length_millisText h, hclock, ← length_millisText h, List.drop_left]
  rcases hsign with rfl | rfl <;> simp [hlength, hread]

theorem clockAndOffset?_text (h : Clock.valid moment.clock = true)
    (hoffset : ∀ offset ∈ Moment.offset moment, WholeMinutes offset) :
    clockAndOffset? (moment.clock.millisText.toList ++ moment.offsetSuffix.toList) =
      some (moment.clock.cut, moment.offset) := by
  rcases toList_offsetSuffix hoffset with ⟨hsuffix, hnone⟩ | ⟨offset, hwhole, hsome, hsuffix⟩
  · have hlength := length_millisText h
    have hread : clock? 12 (moment.clock.millisText.toList ++ []) = some ⟨moment.clock.cut, true⟩ :=
      clock?_millis h rfl
    have hbefore := takeWhile_time (not_isOffsetMark_millisText h) (.inl (Eq.refl []))
    rw [clockAndOffset?, hsuffix, hbefore, hlength, hread]
    simp [← hlength, hnone]
  · obtain ⟨hminutes, hmicros, hzero⟩ := clock?_offset hwhole
    have hsign : (if offset < 0 then '-' else '+') = '-' ∨
        (if offset < 0 then '-' else '+') = '+' := by
      split <;> simp
    rw [hsuffix, toList_offsetText hwhole, hsome,
      clockAndOffset?_signed h hsign (by simp) hminutes, hmicros]
    have hbeq : ((if offset < 0 then '-' else '+') == '-') = decide (offset < 0) := by
      split <;> simp_all
    simp only [hbeq, decide_eq_true_eq, Option.some.injEq, Prod.mk.injEq, true_and]
    split <;> split <;> omega

-- ---------------------------------------------------------------------------
-- Moments
-- ---------------------------------------------------------------------------

theorem length_dateText (h : Date.valid date = true) : date.text.toList.length = 10 := by
  simp [toList_dateText h]

theorem peek_lastDigits_ne (h : isAsciiDigit c = false) (width n : Nat) (rest : List Char) :
    peek (lastDigits (width + 1) n ++ rest) ≠ c := by
  rintro rfl
  rw [isAsciiDigit_peek] at h
  cases h

theorem dateLength?_text (h : Date.valid date = true) (time : List Char) :
    dateLength? (date.text.toList ++ 'T' :: time) = some 10 := by
  have hlength : (date.text.toList ++ 'T' :: time).length ≠ 7 := by
    rw [List.length_append, length_dateText h, List.length_cons]
    omega
  have hhyphen : (date.text.toList ++ 'T' :: time)[4]? = some '-' := by
    simp [toList_dateText h]
  have hmonth : (date.text.toList ++ 'T' :: time)[5]? ≠ some 'W' := by
    simp [toList_dateText h, lastDigits]
  simp only [dateLength?, beq_iff_eq, hlength, if_false, hhyphen, hmonth, if_true]

theorem date?_text (h : Date.valid date = true) (rest : List Char) :
    date? 10 (date.text.toList ++ rest) = some date := by
  obtain ⟨-, hyear, -, hmonth, -, hday⟩ := Date.valid_iff.mp h
  have hlast := daysInMonth_le date.year date.month
  have hread := digits?_lastDigits (show date.year < 10 ^ 4 by rw [lastYear] at hyear; omega) 0
  have hweek := peek_lastDigits_ne (show isAsciiDigit 'W' = false by decide) 1 date.month
  simp [toList_dateText h, date?, hread, hweek,
    pair?_lastDigits (show date.month < 100 by omega),
    pair?_lastDigits (show date.day < 100 by omega)]

theorem fields?_text (hdate : Date.valid moment.date = true)
    (hclock : Clock.valid moment.clock = true)
    (hoffset : ∀ offset ∈ Moment.offset moment, WholeMinutes offset) :
    fields? (moment.date.text.toList ++ 'T' ::
        (moment.clock.millisText.toList ++ moment.offsetSuffix.toList)) =
      some { moment with clock := moment.clock.cut } := by
  have hlength : ¬ (moment.date.text.toList ++ 'T' ::
      (moment.clock.millisText.toList ++ moment.offsetSuffix.toList)).length < 7 := by
    rw [List.length_append, length_dateText hdate]
    omega
  have hseparator (rest : List Char) :
      rest.dropWhile (fun c => 0x80 ≤ 'T'.toNat && 0x80 ≤ c.toNat && c.toNat < 0xC0) = rest := by
    cases rest <;> rfl
  rw [fields?, if_neg hlength, dateLength?_text hdate]
  simp only [Option.bind_eq_bind, Option.bind_some, date?_text hdate]
  rw [← length_dateText hdate, List.drop_left]
  simp only [hseparator, clockAndOffset?_text hclock hoffset, Option.bind_some]

theorem checked_ok (hdate : Date.valid moment.date = true)
    (hclock : Clock.valid moment.clock = true)
    (hoffset : ∀ offset ∈ Moment.offset moment, WholeMinutes offset) :
    checked moment = .ok moment := by
  obtain ⟨hyear, hyear', hmonth, hmonth', hday, hday'⟩ := Date.valid_iff.mp hdate
  obtain ⟨hhour, hminute, hsecond, -⟩ := Clock.valid_iff.mp hclock
  have hmicros : (moment.offset.getD 0).natAbs < microsPerDay := by
    cases hsome : moment.offset with
    | none => decide
    | some offset => exact (hoffset offset hsome).1
  simp only [checked]
  rw [if_neg (by omega), if_neg (by simp; omega), if_neg (by simp; omega), if_neg (by simp; omega),
    if_neg (by omega), if_neg (by omega), if_neg (by omega)]

theorem valid_cut (h : Clock.valid clock = true) : clock.cut.valid = true := by
  obtain ⟨hhour, hminute, hsecond, hmicros⟩ := Clock.valid_iff.mp h
  exact Clock.valid_iff.mpr ⟨hhour, hminute, hsecond,
    Nat.lt_of_le_of_lt (Nat.div_mul_le_self _ _) hmicros⟩

/-- Moments are written with digits, hyphens, colons, a point, a `T` and signs. -/
theorem ascii_millisText (hdate : Date.valid moment.date = true)
    (hclock : Clock.valid moment.clock = true)
    (hoffset : ∀ offset ∈ Moment.offset moment, WholeMinutes offset) :
    ∀ c ∈ moment.date.text.toList ++ 'T' ::
      (moment.clock.millisText.toList ++ moment.offsetSuffix.toList), c.toNat < 0x80 := by
  have hdigits (width n : Nat) : ∀ c ∈ lastDigits width n, c.toNat < 0x80 := by
    intro c hc
    have hdigit := isAsciiDigit_of_mem_lastDigits hc
    simp only [isAsciiDigit, Bool.and_eq_true, decide_eq_true_eq] at hdigit
    have hle : c.toNat ≤ '9'.toNat := hdigit.2
    exact Nat.lt_of_le_of_lt hle (by decide)
  have hsuffix : ∀ c ∈ moment.offsetSuffix.toList, c.toNat < 0x80 := by
    rcases toList_offsetSuffix hoffset with ⟨hnone, -⟩ | ⟨offset, hwhole, -, hsome⟩
    · simp [hnone]
    · rw [hsome, toList_offsetText hwhole]
      simp only [List.forall_mem_cons, List.forall_mem_append]
      exact ⟨by split <;> decide, hdigits _ _, by decide, hdigits _ _⟩
  simp only [toList_dateText hdate, toList_millisText hclock, List.forall_mem_append,
    List.forall_mem_cons]
  exact ⟨⟨hdigits _ _, by decide, hdigits _ _, by decide, hdigits _ _⟩, by decide,
    ⟨hdigits _ _, by decide, hdigits _ _, by decide, hdigits _ _, by decide, hdigits _ _⟩, hsuffix⟩

/-- A moment is read back from its text, cut to the millisecond. -/
theorem read_millisText (hdate : Date.valid moment.date = true)
    (hclock : Clock.valid moment.clock = true)
    (hoffset : ∀ offset ∈ Moment.offset moment, WholeMinutes offset) :
    read moment.millisText = .ok { moment with clock := moment.clock.cut } := by
  have htext : moment.millisText.toList = moment.date.text.toList ++ 'T' ::
      (moment.clock.millisText.toList ++ moment.offsetSuffix.toList) := by
    have hseparator : "T".toList = ['T'] := rfl
    simp only [Moment.millisText, String.toList_append, hseparator, List.append_assoc,
      List.cons_append, List.nil_append]
  have hbytes := bytes_of_ascii (ascii_millisText hdate hclock hoffset)
  rw [read, Marginalia.Text.encode, htext, hbytes, fields?_text hdate hclock hoffset]
  exact checked_ok hdate (valid_cut hclock) hoffset

/-- What the journal writes as the present time is read as this time in UTC, cut to the
millisecond. -/
theorem read_stamp_utc (h : Moment.stamp? now = some stamp) : ∃ utc, now.utc? = some utc ∧
    utc.offset = some 0 ∧ read stamp = .ok { utc with clock := utc.clock.cut } := by
  obtain ⟨utc, hutc, rfl⟩ := Option.map_eq_some_iff.mp h
  obtain ⟨hdate, hclock, hoffset⟩ := Moment.utc?_ok hutc
  refine ⟨utc, hutc, hoffset, read_millisText hdate hclock ?_⟩
  rw [hoffset]
  rintro _ ⟨⟩
  exact ⟨by decide, by decide⟩

/-- The text of a moment has nothing that is cut off. -/
theorem millisText_cut (moment : Moment) :
    Moment.millisText { moment with clock := moment.clock.cut } = moment.millisText := by
  have hmillis : moment.clock.microsecond / 1000 * 1000 / 1000 =
      moment.clock.microsecond / 1000 := Nat.mul_div_cancel _ (by decide)
  simp only [Moment.millisText, Clock.millisText, Clock.secondsText, Clock.cut, hmillis,
    Moment.offsetSuffix]

/-- What is read of a time that the journal writes is written as that time again. -/
theorem read_stamp (h : Moment.stamp? now = some stamp) :
    ∃ moment, read stamp = .ok moment ∧ moment.millisText = stamp := by
  obtain ⟨utc, hutc, -, hread⟩ := read_stamp_utc h
  have htext : utc.millisText = stamp := by
    rw [Moment.stamp?, hutc] at h
    exact Option.some.inj h
  exact ⟨_, hread, (millisText_cut utc).trans htext⟩

end Iso

end Marginalia.Time
