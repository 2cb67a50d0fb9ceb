/-!
# Parts of texts

Cutting a text at characters, and finding one text in another.
-/

namespace Marginalia.Text

/-- The parts between the occurrences of a separator; there is always at least one. -/
def splitOn (separator : Char) : List Char → List (List Char)
  | [] => [[]]
  | c :: rest =>
    if c == separator then [] :: splitOn separator rest
    else
      match splitOn separator rest with
      | [] => [[c]]
      | part :: parts => (c :: part) :: parts

/-- The text before and the text after the first occurrence of a character. -/
def splitFirst? (separator : Char) : List Char → Option (List Char × List Char)
  | [] => none
  | c :: rest =>
    if c == separator then some ([], rest)
    else (splitFirst? separator rest).map fun (before, after) => (c :: before, after)

/-- The text before and the text after the last occurrence of a character. -/
def splitLast? (separator : Char) : List Char → Option (List Char × List Char)
  | [] => none
  | c :: rest =>
    match splitLast? separator rest with
    | some (before, after) => some (c :: before, after)
    | none => if c == separator then some ([], rest) else none

/-- What remains of a text after a part it starts with. -/
def dropPart? : (part text : List Char) → Option (List Char)
  | [], text => some text
  | _ :: _, [] => none
  | p :: part, c :: text => if p == c then dropPart? part text else none

/-- Whether a text occurs in another one. -/
def occursIn (part : List Char) : List Char → Bool
  | [] => part.isEmpty
  | c :: rest => part.isPrefixOf (c :: rest) || occursIn part rest

end Marginalia.Text
