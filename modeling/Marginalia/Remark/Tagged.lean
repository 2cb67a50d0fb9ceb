import Marginalia.Remark
import Marginalia.Remark.Tags
import Marginalia.Text.Parts
import Marginalia.Text.Word

/-!
# Tagged lines

Finding the tag, the priority and the message in one line of text. A line is tagged at a place
where no word character comes before, the longest tag that fits stands, then at most one marker,
then a colon, then something that is not blank. The first such place counts, and the line has no
other remark.
-/

namespace Marginalia

open Text (isWord trim upperChar dropPart?)

/-- A text that may follow a tag and sets the priority. -/
structure Marker where
  text : String
  priority : Priority
  deriving DecidableEq, Repr

/-- The markers, in the order they are tried: `!!` is never read as `!`. -/
def markers : List Marker := [⟨"!!", .critical⟩, ⟨"!", .high⟩, ⟨"?", .low⟩]

/-- The tag, the priority and the whole message of a tagged line. -/
structure Tagged where
  tag : String
  priority : Priority
  message : String
  deriving DecidableEq, Repr

namespace Tagged

/-- The character between a tag with its marker and the message. -/
def separator : Char := ':'

/-- The priority of the first marker that the text starts with, and the rest of the text.
Without a marker the priority is normal. -/
def takeMarker (table : List Marker) (text : List Char) : Priority × List Char :=
  match table with
  | [] => (.normal, text)
  | marker :: rest =>
    match dropPart? marker.text.toList text with
    | some after => (marker.priority, after)
    | none => takeMarker rest text

/-- The message behind the separator; a blank message is none. -/
def takeMessage? : List Char → Option String
  | [] => none
  | c :: rest =>
    if c == separator then
      match trim rest with
      | [] => none
      | message => some (String.ofList message)
    else none

/-- The remark that starts exactly here, for tags in the order they are tried. -/
def here? (ordered : List (List Char)) (table : List Marker) (text : List Char) : Option Tagged :=
  match ordered.find? (startsWithTag text) with
  | none => none
  | some tag =>
    let (priority, after) := takeMarker table (text.drop tag.length)
    (takeMessage? after).map fun message => ⟨String.ofList tag, priority, message⟩

/-- Whether a tag can start with this character: its capital form is the first character of one.
This spares the comparison with every tag at nearly every place. -/
def mayStart (ordered : List (List Char)) (c : Char) : Bool :=
  match upperChar c with
  | [u] => ordered.any fun tag => tag.head? == some u
  | _ => false

/-- Whether a tag may follow this character, or start the line. -/
def opensTag : Option Char → Bool
  | none => true
  | some c => !isWord c

/-- The first remark of a text that comes after a given character. -/
def scan? (ordered : List (List Char)) (table : List Marker) :
    (previous : Option Char) → List Char → Option Tagged
  | _, [] => none
  | previous, c :: rest =>
    match if mayStart ordered c && opensTag previous then here? ordered table (c :: rest)
      else none with
    | some found => some found
    | none => scan? ordered table (some c) rest

/-- The remark of a line, for a table of markers in the order they are tried. -/
def ofLineWith? (table : List Marker) (tags : List String) (line : String) : Option Tagged :=
  scan? (orderedTags tags) table none line.toList

/-- The remark of a line. -/
def ofLine? (tags : List String) (line : String) : Option Tagged :=
  ofLineWith? markers tags line

end Tagged

end Marginalia
