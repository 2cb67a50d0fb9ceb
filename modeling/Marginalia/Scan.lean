import Marginalia.Remark.Metadata
import Marginalia.Ignore

/-!
# Scanning texts

A scanner looks for a set of tags in the lines of files, and passes ignored files over.
-/

namespace Marginalia

open Text (lines)

/-- A file with its text. -/
structure SourceText where
  path : String
  text : String
  deriving DecidableEq, Repr

structure Scanner where
  tags : List String
  ignore : List String
  deriving DecidableEq, Repr

namespace Scanner

/-- A scanner with the tags in capitals. -/
def ofTags (tags ignore : List String) : Scanner :=
  ⟨tags.map Text.upper, ignore⟩

/-- The remarks of lines that are numbered from a given number on. -/
def scanLines (tags : List String) (path : String) : (number : Nat) → List (List Char) →
    List Remark
  | _, [] => []
  | number, line :: rest =>
    let found := (Remark.ofLine? tags path number (String.ofList line)).toList
    found ++ scanLines tags path (number + 1) rest

/-- The remarks of one file, in the order of its lines. -/
def scanText (scanner : Scanner) (source : SourceText) : List Remark :=
  scanLines scanner.tags source.path 1 (lines source.text.toList)

/-- The remarks of the files that are not ignored. -/
def scanTexts (scanner : Scanner) (sources : List SourceText) : List Remark :=
  (sources.filter fun source => !ignored scanner.ignore source.path).flatMap scanner.scanText

end Scanner

end Marginalia
