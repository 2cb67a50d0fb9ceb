import Marginalia.Config
import Marginalia.Text.Lines

/-!
# Plain settings

The oldest form of settings: lines `key = value` for the tags, the ignore patterns and the switch
for settled remarks. Blank lines, comments, lines without `=` and other keys mean nothing.
-/

namespace Marginalia.Config

open Text (brokenLines lowerChars splitFirst? trim)

/-- The key and the value of a line. -/
def legacyPair? (line : List Char) : Option (List Char × List Char) :=
  let text := trim line
  if text.head? == some '#' then none
  else (splitFirst? '=' text).map fun (key, value) => (trim key, trim value)

/-- The setting that a key and its value make. -/
def legacySetting? (key value : List Char) : Option (String × Data) :=
  if key == "tags".toList then some ("tags", .list ((splitList value).map .text))
  else if key == "ignore".toList then some ("ignore", .list ((splitList value).map .text))
  else if key == "include_resolved".toList then
    some ("include_resolved", .bool (lowerChars value == "true".toList))
  else none

/-- The settings of the lines, the last one of each key. -/
def legacyEntries (lines : List (List Char)) : List (String × Data) :=
  lines.foldl (fun entries line =>
    match (legacyPair? line).bind fun (key, value) => legacySetting? key value with
    | some (key, value) => setEntry entries key value
    | none => entries) []

/-- The settings that a text writes. -/
def readLegacy (text : List Char) : Data :=
  .object [("scan", .object (legacyEntries (brokenLines text)))]

end Marginalia.Config
