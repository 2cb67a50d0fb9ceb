import Marginalia.Scan
import Mathlib.Data.List.Forall2

/-!
# Edits that a scan does not notice

Files may be put in another order, and their lines too; lines without a remark may come and go.
The remarks that a scan finds are then the same ones, each as often as before, in another order and
with other line numbers. Edits are taken one after the other: the induction is on them, and a
single one is looked at on the lines alone, with no line numbers.
-/

namespace Marginalia

open Text (lines)

/-- A line without a remark, whatever file it is in. -/
def IsQuiet (tags : List String) (line : List Char) : Prop :=
  ∀ file number, Remark.ofLine? tags file number (String.ofList line) = none

/-- The lines of a file before and after edits that neither add a remark nor take one away. -/
inductive LinesEdited (tags : List String) : List (List Char) → List (List Char) → Prop
  | permute (h : before.Perm after) : LinesEdited tags before after
  | insert (h : IsQuiet tags line) (front back : List (List Char)) :
      LinesEdited tags (front ++ back) (front ++ line :: back)
  | delete (h : IsQuiet tags line) (front back : List (List Char)) :
      LinesEdited tags (front ++ line :: back) (front ++ back)
  | trans (h : LinesEdited tags before between) (h' : LinesEdited tags between after) :
      LinesEdited tags before after

/-- A file before and after edits of its lines. -/
structure SourceText.Edited (tags : List String) (source source' : SourceText) : Prop where
  path : source'.path = source.path
  lines : LinesEdited tags (lines source.text.toList) (lines source'.text.toList)

/-- Files in another order, and each one edited. -/
def FilesEdited (tags : List String) (files files' : List SourceText) : Prop :=
  ∃ order, files.Perm order ∧ List.Forall₂ (SourceText.Edited tags) order files'

/-- A remark with its line left out. -/
def Remark.unplaced (a : Remark) : Remark := { a with line := 0 }

variable {tags : List String}

theorem isQuiet_of_ofLine? (h : Tagged.ofLine? tags (String.ofList line) = none) :
    IsQuiet tags line := by
  intro file number
  rw [Remark.ofLine?, h, Option.map_none]

theorem map_unplaced_ofLine? (tags : List String) (file : String) (number : Int) (line : String) :
    (Remark.ofLine? tags file number line).map Remark.unplaced =
      Remark.ofLine? tags file 0 line := by
  simp only [Remark.ofLine?, Option.map_map]
  rfl

theorem map_unplaced_scanLines (tags : List String) (file : String) (number : Nat)
    (l : List (List Char)) :
    (Scanner.scanLines tags file number l).map Remark.unplaced =
      l.filterMap fun line => Remark.ofLine? tags file 0 (String.ofList line) := by
  induction l generalizing number with
  | nil => rfl
  | cons line rest ih =>
    rw [Scanner.scanLines, List.map_append, ih, List.filterMap_cons,
      ← map_unplaced_ofLine? tags file number]
    cases Remark.ofLine? tags file number (String.ofList line) <;> rfl

theorem LinesEdited.perm_filterMap {find : List Char → Option α}
    (hquiet : ∀ line, IsQuiet tags line → find line = none) (h : LinesEdited tags before after) :
    (before.filterMap find).Perm (after.filterMap find) := by
  induction h with
  | permute h => exact h.filterMap find
  | insert h front back => simp [List.filterMap_append, hquiet _ h]
  | delete h front back => simp [List.filterMap_append, hquiet _ h]
  | trans _ _ ih ih' => exact ih.trans ih'

theorem SourceText.Edited.perm_scanText {source source' : SourceText} {scanner : Scanner}
    (h : source.Edited scanner.tags source') :
    ((scanner.scanText source).map Remark.unplaced).Perm
      ((scanner.scanText source').map Remark.unplaced) := by
  simp only [Scanner.scanText, map_unplaced_scanLines, h.path]
  exact h.lines.perm_filterMap fun line hline => hline source.path 0

theorem FilesEdited.perm_scanTexts {scanner : Scanner} {files files' : List SourceText}
    (h : FilesEdited scanner.tags files files') :
    ((scanner.scanTexts files).map Remark.unplaced).Perm
      ((scanner.scanTexts files').map Remark.unplaced) := by
  obtain ⟨order, hperm, hedited⟩ := h
  have horder : (scanner.scanTexts files).Perm (scanner.scanTexts order) :=
    (hperm.filter _).flatMap_right _
  refine (horder.map _).trans ?_
  clear hperm horder
  induction hedited with
  | nil => rfl
  | @cons source source' order files' hsource hrest ih =>
    cases hignored : ignored scanner.ignore source.path with
    | true => simpa [Scanner.scanTexts, hsource.path, hignored] using ih
    | false =>
      simp only [Scanner.scanTexts, List.filter_cons, hsource.path, hignored, Bool.not_false,
        if_true, List.flatMap_cons, List.map_append] at ih ⊢
      exact hsource.perm_scanText.append ih

end Marginalia
