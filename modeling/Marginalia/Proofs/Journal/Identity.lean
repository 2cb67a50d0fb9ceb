import Marginalia.Proofs.Journal.Program
import Marginalia.Proofs.Journal.Rescan
import Mathlib.Data.Finset.Card
import Mathlib.Data.Finset.Dedup

/-!
# Remarks that share a record

A new journal gets one record for each fingerprint. Fingerprints join a tag, a file name and a
message with bars, and do not mark bars in the parts. So different remarks have one record if they
are cut differently from one text: then one tag, or one file name, goes on behind a bar where the
other one ends.
-/

namespace Marginalia

namespace Remark

/-- What a fingerprint is made of. -/
def parts (a : Remark) : String × String × String := (a.tag, a.file, a.message)

/-- A text that goes on behind a bar where another one ends. -/
def GoesOn (x y : String) : Prop := x.toList ++ ['|'] <+: y.toList

/-- Two remarks, one with a tag or a file name that goes on where that of the other one ends. -/
inductive CutApart (a b : Remark) : Prop
  | tag (h : GoesOn a.tag b.tag ∨ GoesOn b.tag a.tag)
  | file (same : a.tag = b.tag) (h : GoesOn a.file b.file ∨ GoesOn b.file a.file)

theorem goesOn_of_joined {x x' : String} {y y' : List Char}
    (h : x.toList ++ '|' :: y = x'.toList ++ '|' :: y') :
    x = x' ∧ y = y' ∨ GoesOn x x' ∨ GoesOn x' x := by
  rcases List.append_eq_append_iff.mp h with ⟨more, hx, hy⟩ | ⟨more, hx, hy⟩
  · cases more with
    | nil => exact .inl ⟨String.toList_inj.mp (by simpa using hx.symm), by simpa using hy⟩
    | cons c more =>
      obtain ⟨rfl, -⟩ := List.cons_eq_cons.mp hy
      exact .inr (.inl ⟨more, by simp [hx]⟩)
  · cases more with
    | nil => exact .inl ⟨String.toList_inj.mp (by simpa using hx), by simpa using hy.symm⟩
    | cons c more =>
      obtain ⟨rfl, -⟩ := List.cons_eq_cons.mp hy
      exact .inr (.inr ⟨more, by simp [hx]⟩)

theorem toList_fingerprint (a : Remark) : a.fingerprint.toList =
    a.tag.toList ++ '|' :: (a.file.toList ++ '|' :: a.message.toList) := by
  simp [fingerprint, fingerprintOf]

theorem cutApart_of_fingerprint {a b : Remark} (h : a.fingerprint = b.fingerprint)
    (hparts : a.parts ≠ b.parts) : CutApart a b := by
  have hjoined := congrArg String.toList h
  rw [toList_fingerprint, toList_fingerprint] at hjoined
  rcases goesOn_of_joined hjoined with ⟨htag, hrest⟩ | htag
  · rcases goesOn_of_joined hrest with ⟨hfile, hmessage⟩ | hfile
    · refine absurd ?_ hparts
      rw [parts, parts, htag, hfile, String.toList_inj.mp hmessage]
    · exact .file htag hfile
  · exact .tag htag

end Remark

namespace Journal

theorem length_distinct [DecidableEq α] (l : List α) : (distinct l).length = l.toFinset.card := by
  rw [← List.toFinset_card_of_nodup (nodup_distinct l)]
  congr 1
  ext a
  simp [mem_distinct]

/-- A new journal has one record for each fingerprint. -/
theorem sourceKeys_of_fresh (h : (sync items).run (.fresh tags now) = .ok counts t) :
    t.store.records.map Record.sourceKey =
      distinct ((journaled tags items).map (·.fingerprint)) := by
  obtain ⟨stamp, kept, added, -, hscan, -⟩ := sync_ok Store.wellFormed_fresh h
  have hkeys : t.store.known = Store.fresh.known ++ added.map Record.sourceKey := hscan.known
  rw [hscan.keys] at hkeys
  simpa [Store.known, Session.fresh, Store.fresh] using hkeys

variable {remarks : List Remark}

/-- The remarks of a new journal, all of them journaled: there are as many records as fingerprints,
and so as many as different remarks, unless two of these are cut from one text. -/
theorem records_of_remarks (hall : ∀ a ∈ remarks, a.observe.isJournaled tags = true)
    (h : (sync (remarks.map Remark.observe)).run (.fresh tags now) = .ok counts t) :
    t.store.records.length = (remarks.map Remark.fingerprint).toFinset.card ∧
      (t.store.records.length = (remarks.map Remark.parts).toFinset.card ↔
        ∀ a ∈ remarks, ∀ b ∈ remarks, a.fingerprint = b.fingerprint → a.parts = b.parts) ∧
      ∀ a ∈ remarks, ∀ b ∈ remarks, a.fingerprint = b.fingerprint → a.parts ≠ b.parts →
        a.CutApart b := by
  have hjournaled : journaled tags (remarks.map Remark.observe) = remarks.map Remark.observe :=
    List.filter_eq_self.mpr (by simpa using hall)
  have hcount : t.store.records.length = (remarks.map Remark.fingerprint).toFinset.card := by
    have hkeys := congrArg List.length (sourceKeys_of_fresh h)
    rw [hjournaled, length_distinct, List.length_map, List.map_map] at hkeys
    exact hkeys
  have himage : (remarks.map Remark.fingerprint).toFinset =
      (remarks.map Remark.parts).toFinset.image
        fun (tag, file, message) => fingerprintOf tag file message := by
    ext key
    simp [Remark.parts, Remark.fingerprint]
  refine ⟨hcount, ?_, fun a _ b _ => Remark.cutApart_of_fingerprint⟩
  rw [hcount, himage, Finset.card_image_iff]
  simp [Set.InjOn, Remark.parts, Remark.fingerprint]

-- ---------------------------------------------------------------------------
-- Remarks with bars
-- ---------------------------------------------------------------------------

def plainRemarks : List Remark := [
  { file := "main.c", line := 1, tag := "TODO", message := "a|b" },
  { file := "main.c", line := 2, tag := "TODO", message := "a" },
  { file := "main.c", line := 3, tag := "TODO", message := "a|b" },
  { file := "main.c", line := 4, tag := "BUG", message := "a" }]

theorem records_of_plainRemarks :
    ∃ counts t, (sync (plainRemarks.map Remark.observe)).run (.fresh ["TODO", "BUG"] laterTime) =
        .ok counts t ∧
      t.store.records.length = (plainRemarks.map Remark.parts).toFinset.card := by
  have hsucceeds : succeeds (sync (plainRemarks.map Remark.observe))
      (.fresh ["TODO", "BUG"] laterTime) = true := by decide +kernel
  obtain ⟨counts, t, h⟩ := succeeds_iff.mp hsucceeds
  have hrecords := records_of_remarks (by decide +kernel) h
  exact ⟨counts, t, h, hrecords.2.1.mpr (by decide +kernel)⟩

def barredFiles : List SourceText := [⟨"a|b", "TODO: c"⟩, ⟨"a", "TODO: b|c"⟩]

/-- Two files with one remark each, and one record for both. -/
theorem records_of_barredFiles :
    ¬ ∀ (scanner : Scanner) (files : List SourceText) (tags : List String) (now : Time.Moment)
        (counts : SyncCounts) (t : Session),
      (∀ o ∈ found scanner files, o.isJournaled tags = true) →
      (sync (found scanner files)).run (.fresh tags now) = .ok counts t →
      t.store.records.length = ((scanner.scanTexts files).map Remark.parts).toFinset.card := by
  intro h
  have hsucceeds : succeeds (sync (found (.ofTags ["TODO"] []) barredFiles))
      (.fresh ["TODO"] laterTime) = true := by decide +kernel
  obtain ⟨counts, t, hrun⟩ := succeeds_iff.mp hsucceeds
  have hcount := h _ barredFiles ["TODO"] laterTime counts t (by decide +kernel) hrun
  have hkeys := congrArg List.length (sourceKeys_of_fresh hrun)
  rw [List.length_map, hcount] at hkeys
  exact absurd hkeys (by decide +kernel)

end Journal

end Marginalia
