import Marginalia.Proofs.Scan.Lines
import Marginalia.Proofs.Text.Damage
import Mathlib.Data.Bool.AllAny

/-!
# Scans of damaged files

What is on a line of a file is found whatever bytes the other lines have, and it is found on the
line that the line ends before it count up to. A run of plain bytes is such a line if it stands
between line ends. An empty run between a carriage return and a line feed does not, as these two are
one line end.
-/

namespace Marginalia

open Files (checkPath)
open Text (Bytes byteLines endsLine lineEnds repairBytes)

/-- A run of plain bytes that is a line of its own in a file. -/
structure Text.StandsAlone (before line after : Bytes) : Prop where
  plain : ∀ b ∈ line, b.toNat < 0x80 ∧ endsLine b = false
  opened : ∀ b ∈ before.getLast?, endsLine b = true
  closed : ∀ b ∈ after.head?, endsLine b = true
  apart : line = [] → before.getLast? = some 0x0D → after.head? ≠ some 0x0A

/-- The text that plain bytes are. -/
def Text.plainText (bytes : Bytes) : String :=
  String.ofList (bytes.map fun b => Char.ofNat b.toNat)

variable {before line after : Bytes} {files : Files} {root : Path} {name : String}

/-- Damage before and behind a line changes neither the line nor its number. -/
theorem Text.StandsAlone.lines_textOf (h : Text.StandsAlone before line after) :
    (Text.lines (Source.textOf (before ++ (line ++ after))).toList)[lineEnds before]? =
      some (Text.plainText line).toList := by
  obtain ⟨front, back, hlines, hlength⟩ := Text.byteLines_append h.opened
    (fun b hb => (h.plain b hb).2) h.closed h.apart
  have hplain := Text.repairBytes_ascii fun b hb => (h.plain b hb).1
  simp only [Source.textOf, Text.plainText, String.toList_ofList, Text.lines_repairBytes, hlines,
    ← hlength, ← hplain]
  simp

namespace Scanner

/-- A scan of a file finds on a line of plain bytes just what is on that line, with the number that
the line ends before it count up to, whatever the other bytes of the file are. -/
theorem scanText_plain_line (scanner : Scanner) (hpath : checkPath (root.child name) = .ok ())
    (hbytes : Source.bytes? files root name = some (before ++ (line ++ after)))
    (halone : Text.StandsAlone before line after) : ∃ text,
      (Source.read root name).run files = .ok text files ∧
      (scanner.scanText ⟨name, text⟩).filter
          (fun a => a.line == ((1 + lineEnds before : Nat) : Int)) =
        (Remark.ofLine? scanner.tags name ((1 + lineEnds before : Nat) : Int)
          (Text.plainText line)).toList := by
  refine ⟨_, Source.run_read_ok hpath hbytes, ?_⟩
  rw [scanText, filter_scanLines, halone.lines_textOf, Option.bind_some, String.ofList_toList]

/-- A file with a broken character at its end, before a line and behind it. -/
def damagedFiles (bytes : Bytes) : Files where
  nodes := [(["project"], .directory), (["project", "a.py"], .file 0 (.bytes bytes))]
  current := []
  next := 1

theorem scanText_plain_line_damaged :
    let before : Bytes := [0xE2, 0x82, 0x0D, 0x0A, 0xF0, 0x9F, 0x0D]
    let line := Text.encode "# TODO: x"
    let after : Bytes := [0x0A, 0xC3]
    ∃ text, (Source.read ⟨.root, ["project"]⟩ "a.py").run
        (damagedFiles (before ++ (line ++ after))) =
          .ok text (damagedFiles (before ++ (line ++ after))) ∧
      ((Scanner.mk ["TODO"] []).scanText ⟨"a.py", text⟩).filter (fun a => a.line == 3) =
        (Remark.ofLine? ["TODO"] "a.py" 3 "# TODO: x").toList := by
  intro before line after
  have halone : Text.StandsAlone before line after :=
    ⟨List.all_iff_forall_prop.mp (by decide +kernel), by rintro _ ⟨⟩; rfl, by rintro _ ⟨⟩; rfl,
      by decide⟩
  exact scanText_plain_line ⟨["TODO"], []⟩ (Files.checkPath_iff.mpr (by decide)) rfl halone

/-- Nothing keeps the line feed behind a carriage return on a line of its own. -/
theorem scanText_empty_line_joined : ∃ (before line after : Bytes) (text : String),
    (∀ b ∈ line, b.toNat < 0x80 ∧ endsLine b = false) ∧
      (∀ b ∈ before.getLast?, endsLine b = true) ∧ (∀ b ∈ after.head?, endsLine b = true) ∧
      (Source.read ⟨.root, ["project"]⟩ "a.py").run
        (damagedFiles (before ++ (line ++ after))) =
          .ok text (damagedFiles (before ++ (line ++ after))) ∧
      ((Scanner.mk ["TODO"] []).scanText ⟨"a.py", text⟩).filter
          (fun a => a.line == ((1 + lineEnds before : Nat) : Int)) ≠
        (Remark.ofLine? ["TODO"] "a.py" ((1 + lineEnds before : Nat) : Int)
          (Text.plainText line)).toList := by
  refine ⟨[0x0D], [], 0x0A :: Text.encode "TODO: x", _, List.forall_mem_nil _,
    by rintro _ ⟨⟩; rfl, by rintro _ ⟨⟩; rfl,
    Source.run_read_ok (Files.checkPath_iff.mpr (by decide)) rfl, by decide +kernel⟩

end Scanner

end Marginalia
