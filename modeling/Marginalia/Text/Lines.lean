import Marginalia.Text.Parts

/-!
# Lines

The three ways in which texts are cut into lines: text files that are read give one line feed
for every kind of line end; scans and snapshots split at line feeds alone; settings files split
at every line boundary of Unicode.
-/

namespace Marginalia.Text

/-- A text with each carriage return, and each carriage return with its line feed, replaced by
one line feed. -/
def unifyNewlines : List Char → List Char
  | [] => []
  | '\r' :: '\n' :: rest => '\n' :: unifyNewlines rest
  | c :: rest => (if c == '\r' then '\n' else c) :: unifyNewlines rest

/-- The lines of a text, without their line feeds. -/
def lines (cs : List Char) : List (List Char) :=
  splitOn '\n' cs

/-- Characters that end a line in Unicode. -/
def isLineBreak (c : Char) : Bool :=
  c == '\n' || c == '\r' || c == '\x0b' || c == '\x0c' || c == '\x1c' || c == '\x1d' ||
    c == '\x1e' || c == '\x85' || c == '\u2028' || c == '\u2029'

/-- The lines of a text under every line boundary. A break ends a line, so none follows the
last break unless it has characters. -/
def brokenLines : List Char → List (List Char)
  | [] => []
  | '\r' :: '\n' :: rest => [] :: brokenLines rest
  | c :: rest =>
    if isLineBreak c then [] :: brokenLines rest
    else
      match brokenLines rest with
      | [] => [[c]]
      | line :: more => (c :: line) :: more

end Marginalia.Text
