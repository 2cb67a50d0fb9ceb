import Marginalia.Proofs.Snapshot.Columns
import Marginalia.Proofs.Text.Numeral
import Marginalia.Proofs.Text.Parts
import Marginalia.Proofs.Time.Stamp
import Marginalia.Snapshot.Reader

/-!
# The time of a snapshot

The time stamp that a snapshot writes fills a column, and the title gives it back. The title asks
for a year of four digits, so that the years before 1000 are not found there.
-/

namespace Marginalia.Snapshot

open Text (isBlank isAsciiDigit dropPart? dropPart?_eq_some trim trimEnd)
open Time (Moment lastDigits)

-- ---------------------------------------------------------------------------
-- Stamps
-- ---------------------------------------------------------------------------

/-- The date in a stamp. The year has no leading zeros. -/
def dayText (utc : Moment) : List Char :=
  Nat.toDigits 10 utc.date.year ++ '-' :: (lastDigits 2 utc.date.month ++ '-' ::
    lastDigits 2 utc.date.day)

def timeText (utc : Moment) : List Char :=
  lastDigits 2 utc.clock.hour ++ ':' :: (lastDigits 2 utc.clock.minute ++ ':' ::
    lastDigits 2 utc.clock.second)

variable {now utc : Moment} {stamp : String}

theorem toList_snapshotStamp (h : now.utc? = some utc) (hstamp : now.snapshotStamp? = some stamp) :
    stamp.toList = dayText utc ++ ' ' :: timeText utc := by
  obtain ⟨hdate, hclock, -⟩ := Moment.utc?_ok h
  obtain ⟨-, -, -, hmonth, -, hday⟩ := Time.Date.valid_iff.mp hdate
  have hlast := Time.daysInMonth_le utc.date.year utc.date.month
  have hdash : "-".toList = ['-'] := rfl
  have hspace : " ".toList = [' '] := rfl
  have hmonth := Time.toList_padded 1 utc.date.month (by omega)
  have hday := Time.toList_padded 1 utc.date.day (by omega)
  rw [Moment.snapshotStamp?, h, Option.map_some, Option.some.injEq] at hstamp
  rw [← hstamp]
  simp [dayText, timeText, hmonth, hday, Time.toList_secondsText hclock, hdash, hspace]

theorem mem_dayText (h : c ∈ dayText utc) : isAsciiDigit c = true ∨ c = '-' := by
  simp only [dayText, List.mem_append, List.mem_cons] at h
  rcases h with h | rfl | h | rfl | h
  · exact .inl (Text.isAsciiDigit_toDigits _ c h)
  · exact .inr rfl
  · exact .inl (Time.isAsciiDigit_of_mem_lastDigits h)
  · exact .inr rfl
  · exact .inl (Time.isAsciiDigit_of_mem_lastDigits h)

theorem mem_timeText (h : c ∈ timeText utc) : isAsciiDigit c = true ∨ c = ':' := by
  simp only [timeText, List.mem_append, List.mem_cons] at h
  rcases h with h | rfl | h | rfl | h
  · exact .inl (Time.isAsciiDigit_of_mem_lastDigits h)
  · exact .inr rfl
  · exact .inl (Time.isAsciiDigit_of_mem_lastDigits h)
  · exact .inr rfl
  · exact .inl (Time.isAsciiDigit_of_mem_lastDigits h)

theorem isBlank_dayText : ∀ c ∈ dayText utc, isBlank c = false := by
  intro c hc
  rcases mem_dayText hc with h | rfl
  · exact Text.isBlank_digit h
  · decide

theorem isBlank_timeText : ∀ c ∈ timeText utc, isBlank c = false := by
  intro c hc
  rcases mem_timeText hc with h | rfl
  · exact Text.isBlank_digit h
  · decide

/-- The only blank in a stamp is a space. -/
theorem notMem_stamp (h : now.utc? = some utc) (hstamp : now.snapshotStamp? = some stamp)
    (hblank : isBlank c = true) (hspace : c ≠ ' ') : c ∉ stamp.toList := by
  rw [toList_snapshotStamp h hstamp]
  exact List.not_mem_append (blank_notMem hblank isBlank_dayText)
    (List.not_mem_cons_of_ne_of_not_mem hspace (blank_notMem hblank isBlank_timeText))

/-- Two words with a blank between them fill a column. -/
theorem fills_words {first second : List Char} (hfirst : first ≠ []) (hsecond : second ≠ [])
    (h : ∀ c ∈ first, isBlank c = false) (h' : ∀ c ∈ second, isBlank c = false) :
    Fills (first ++ ' ' :: second) := by
  have hstart : startsBlank (first ++ [' ']) = false := by
    rw [startsBlank_append hfirst, startsBlank_of_not_blank h]
  have hnarrow : wideGaps (first ++ [' ']) = [] := by
    rw [wideGaps_append_of_not_blank h]
    decide
  rw [List.append_cons]
  exact fills_append (by simp) hstart hnarrow hsecond h'

/-- A stamp begins a row that is neither a comment nor broken into lines. -/
structure BeginsRow (stamp : List Char) : Prop extends Fills stamp where
  oneLine : '\n' ∉ stamp
  head : stamp.head? ≠ some '#'

theorem beginsRow_stamp (h : now.utc? = some utc) (hstamp : now.snapshotStamp? = some stamp) :
    BeginsRow stamp.toList := by
  have hday : dayText utc ≠ [] := by simp [dayText]
  have htime : timeText utc ≠ [] := by simp [timeText]
  rw [toList_snapshotStamp h hstamp]
  refine ⟨fills_words hday htime isBlank_dayText isBlank_timeText, ?_, ?_⟩
  · rw [← toList_snapshotStamp h hstamp]
    exact notMem_stamp h hstamp (by decide) (by decide)
  · rw [List.head?_append_of_ne_nil _ hday]
    intro hhead
    rcases mem_dayText (List.mem_of_mem_head? hhead) with hdigit | hdash
    · exact absurd hdigit (by decide)
    · exact absurd hdash (by decide)

-- ---------------------------------------------------------------------------
-- Titles
-- ---------------------------------------------------------------------------

theorem takeGap?_space (h : startsBlank text = false) :
    takeGap? (' ' :: text) = some ([' '], text) := by
  have hspace : isBlank ' ' = true := by decide
  cases text with
  | nil => simp [takeGap?, hspace]
  | cons c text =>
    have hc : isBlank c = false := h
    simp [takeGap?, hspace, hc]

theorem takePattern?_digits {digits pattern text : List Char} (hlength : digits.length = n)
    (h : ∀ c ∈ digits, isAsciiDigit c = true) :
    takePattern? (List.replicate n '0' ++ pattern) (digits ++ text) =
      (takePattern? pattern text).map (digits ++ ·) := by
  induction digits generalizing n with
  | nil =>
    subst hlength
    simp
  | cons c digits ih =>
    obtain ⟨hc, hdigits⟩ := List.forall_mem_cons.mp h
    subst hlength
    simp [List.replicate_succ, takePattern?, Text.isDecimal_digit hc, ih rfl hdigits,
      Function.comp_def]

theorem takePattern?_mark (hspace : mark ≠ ' ') (hdigit : mark ≠ '0') :
    takePattern? (mark :: pattern) (mark :: text) =
      (takePattern? pattern text).map (mark :: ·) := by
  simp [takePattern?, hspace, hdigit]

theorem takePattern?_space (h : startsBlank text = false) :
    takePattern? (' ' :: pattern) (' ' :: text) =
      (takePattern? pattern text).map (' ' :: ·) := by
  simp [takePattern?, takeGap?_space h]

theorem length_yearText {year : Nat} (h : 1000 ≤ year) (hlast : year ≤ Time.lastYear) :
    (Nat.toDigits 10 year).length = 4 := by
  have hle : (Nat.toDigits 10 year).length ≤ 4 ↔ year < 10 ^ 4 :=
    Nat.length_toDigits_le_iff (by decide) (by decide)
  have hlt : (Nat.toDigits 10 year).length ≤ 3 ↔ year < 10 ^ 3 :=
    Nat.length_toDigits_le_iff (by decide) (by decide)
  rw [Time.lastYear] at hlast
  omega

theorem takePattern?_two (n : Nat) (pattern text : List Char) :
    takePattern? (List.replicate 2 '0' ++ pattern) (lastDigits 2 n ++ text) =
      (takePattern? pattern text).map (lastDigits 2 n ++ ·) :=
  takePattern?_digits (Time.length_lastDigits 2 n) fun _ => Time.isAsciiDigit_of_mem_lastDigits

theorem takePattern?_stamp (h : now.utc? = some utc) (hstamp : now.snapshotStamp? = some stamp)
    (hyear : 1000 ≤ utc.date.year) (rest : List Char) :
    takePattern? "0000-00-00 00:00:00".toList (stamp.toList ++ rest) = some stamp.toList := by
  obtain ⟨hdate, -, -⟩ := Moment.utc?_ok h
  obtain ⟨-, hlast, -⟩ := Time.Date.valid_iff.mp hdate
  have hpattern : "0000-00-00 00:00:00".toList = List.replicate 4 '0' ++ '-' ::
      (List.replicate 2 '0' ++ '-' :: (List.replicate 2 '0' ++ ' ' :: (List.replicate 2 '0' ++
        ':' :: (List.replicate 2 '0' ++ ':' :: (List.replicate 2 '0' ++ []))))) := rfl
  have hlength := length_yearText hyear hlast
  have hdigits := Text.isAsciiDigit_toDigits utc.date.year
  have htime : startsBlank (timeText utc ++ rest) = false := by
    have hne : timeText utc ≠ [] := by simp [timeText]
    rw [startsBlank_append hne, startsBlank_of_not_blank isBlank_timeText]
  have hdash : '-' ≠ ' ' ∧ '-' ≠ '0' := by decide
  have hcolon : ':' ≠ ' ' ∧ ':' ≠ '0' := by decide
  rw [toList_snapshotStamp h hstamp, hpattern, dayText]
  simp only [List.append_assoc, List.cons_append]
  rw [takePattern?_digits hlength hdigits, takePattern?_mark hdash.1 hdash.2, takePattern?_two,
    takePattern?_mark hdash.1 hdash.2, takePattern?_two, takePattern?_space htime, timeText]
  simp only [List.append_assoc, List.cons_append]
  rw [takePattern?_two, takePattern?_mark hcolon.1 hcolon.2, takePattern?_two,
    takePattern?_mark hcolon.1 hcolon.2, takePattern?_two]
  simp [takePattern?]

/-- What stands behind the words of the title is asked for a time. -/
theorem titleTime?_words (h : startsBlank text = false) :
    titleTime? (' ' :: ("Inline-issue".toList ++ ' ' :: ("snapshot".toList ++ ' ' :: text))) =
      takePattern? "0000-00-00 00:00:00".toList text := by
  have hdrop (part text : List Char) : dropPart? part (part ++ text) = some text :=
    dropPart?_eq_some.mpr rfl
  have hspace : isBlank ' ' = true := by decide
  have hfirst (tail : List Char) :
      ("Inline-issue".toList ++ tail).dropWhile isBlank = "Inline-issue".toList ++ tail := by
    have hword : "Inline-issue".toList ≠ [] ∧ startsBlank "Inline-issue".toList = false := by
      decide
    refine Text.trimStart_eq_self (startsBlank_eq_false.mp ?_)
    rw [startsBlank_append hword.1, hword.2]
  have hsecond : startsBlank ("snapshot".toList ++ ' ' :: text) = false := by
    have hword : "snapshot".toList ≠ [] ∧ startsBlank "snapshot".toList = false := by decide
    rw [startsBlank_append hword.1, hword.2]
  rw [titleTime?, List.dropWhile_cons_of_pos hspace, hfirst]
  simp only [hdrop, takeGap?_space hsecond, takeGap?_space h, Option.bind_eq_bind,
    Option.bind_some]

theorem header_eq (stamp : String) (rest : List Char) : ∃ tail, header stamp ++ rest =
    '#' :: ' ' :: ("Inline-issue".toList ++ ' ' :: ("snapshot".toList ++
      ' ' :: (stamp.toList ++ tail))) := by
  have htitle : title.toList = "Inline-issue".toList ++ ' ' :: "snapshot".toList := by decide
  simp [header, htitle]

theorem findTime?_header (h : now.utc? = some utc) (hstamp : now.snapshotStamp? = some stamp)
    (hyear : 1000 ≤ utc.date.year) (rest : List Char) :
    findTime? (header stamp ++ rest) = some stamp.toList := by
  obtain ⟨tail, hheader⟩ := header_eq stamp rest
  obtain ⟨hne, htrim, -⟩ := (beginsRow_stamp h hstamp).toFills
  have hstart : startsBlank (stamp.toList ++ tail) = false := by
    rw [startsBlank_append hne, startsBlank_of_trim_eq htrim]
  rw [hheader, findTime?, if_pos (beq_self_eq_true '#'), titleTime?_words hstart,
    takePattern?_stamp h hstamp hyear]

end Marginalia.Snapshot
