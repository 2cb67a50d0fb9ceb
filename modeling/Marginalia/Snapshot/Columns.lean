import Marginalia.Text.Blank

/-!
# Columns

A line is cut into columns at its wide gaps: runs of two or more blanks. Single blanks belong to
the columns.
-/

namespace Marginalia.Snapshot

open Text (isBlank)

/-- Whether a text starts with a blank. -/
def startsBlank : List Char → Bool
  | [] => false
  | c :: _ => isBlank c

/-- A character in front of the first part. -/
def pushFront (c : Char) : List (List Char) → List (List Char)
  | [] => [[c]]
  | part :: parts => (c :: part) :: parts

/-- The parts between the wide gaps; a part beside a gap at an end of the line is empty. -/
def splitWide : List Char → List (List Char)
  | [] => [[]]
  | [c] => [[c]]
  | c :: d :: rest =>
    if isBlank c && isBlank d then
      if startsBlank rest then splitWide (d :: rest) else [] :: splitWide rest
    else pushFront c (splitWide (d :: rest))

/-- The columns of a line, none of them empty. -/
def columns (line : List Char) : List (List Char) :=
  (splitWide line).filter fun part => !part.isEmpty

/-- The gap between columns that are written. -/
def gap : List Char := [' ', ' ']

def joinColumns (parts : List (List Char)) : List Char :=
  gap.intercalate parts

end Marginalia.Snapshot
