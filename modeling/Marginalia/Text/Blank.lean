import Marginalia.Text.Ranges

/-!
# Blank characters and trimming

The characters that count as white space anywhere in the Unicode standard, and cutting them
off the ends of a text.
-/

namespace Marginalia.Text

/-- White space: the Unicode `White_Space` characters and the four separators 0x1C to 0x1F. -/
def blanks : Ranges := [
  (0x9, 0xD), (0x1C, 0x20), (0x85, 0x85), (0xA0, 0xA0), (0x1680, 0x1680), (0x2000, 0x200A),
  (0x2028, 0x2029), (0x202F, 0x202F), (0x205F, 0x205F), (0x3000, 0x3000)]

def isBlank (c : Char) : Bool :=
  blanks.holds c.toNat

/-- The characters after the leading blanks. -/
def trimStart (cs : List Char) : List Char :=
  cs.dropWhile isBlank

/-- The characters before the trailing blanks. -/
def trimEnd : List Char → List Char
  | [] => []
  | c :: rest =>
    match trimEnd rest with
    | [] => if isBlank c then [] else [c]
    | kept => c :: kept

/-- The characters between the leading and the trailing blanks. -/
def trim (cs : List Char) : List Char :=
  trimEnd (trimStart cs)

end Marginalia.Text
