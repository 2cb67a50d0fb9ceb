import Marginalia.Remark.Tagged
import Marginalia.Text.Digit
import Marginalia.Text.Lines

/-!
# Metadata of a message

A message may open with an owner (`@alice`), then a bracket that holds a date or a category
(`[2024-01-05]`, `[backend]`), then a ticket id (`(#42)`, `[ABC-12]`). Each one is cut off
together with the blanks, the one colon and the blanks behind it. What does not fit stays in the
message.
-/

namespace Marginalia

open Text (isWord isDigit isAsciiDigit isAsciiUpper trim splitFirst?)

/-- A message and the metadata cut off its front. -/
structure Metadata where
  message : String
  owner : Option String := none
  date : Option String := none
  category : Option String := none
  id : Option String := none
  deriving DecidableEq, Repr

namespace Metadata

def isHorizontalBlank (c : Char) : Bool :=
  c == ' ' || c == '\t'

def skipBlanks (text : List Char) : List Char :=
  text.dropWhile isHorizontalBlank

/-- The text after blanks, at most one colon, and the blanks behind it. -/
def skipSeparator (text : List Char) : List Char :=
  match skipBlanks text with
  | ':' :: rest => skipBlanks rest
  | rest => rest

def isOwnerChar (c : Char) : Bool :=
  isWord c || c == '-'

/-- The owner in front of a text, and what follows it. -/
def takeOwner (text : List Char) : Option (List Char) × List Char :=
  match text with
  | '@' :: rest =>
    match rest.takeWhile isOwnerChar with
    | [] => (none, text)
    | owner => (some owner, skipSeparator (rest.dropWhile isOwnerChar))
  | _ => (none, text)

/-- The content of a bracket in front of a text, if it is not empty, and what follows it. -/
def takeBracket (text : List Char) : Option (List Char) × List Char :=
  match text with
  | '[' :: rest =>
    match splitFirst? ']' rest with
    | some (c :: content, after) => (some (c :: content), skipSeparator after)
    | _ => (none, text)
  | _ => (none, text)

/-- Whether the content of a bracket is a date: it has a digit or a hyphen. -/
def isDate (content : List Char) : Bool :=
  content.any fun c => isDigit c || c == '-'

/-- Whether a text is a ticket id: `#` and digits, or capitals, a hyphen and digits. -/
def isTicket (content : List Char) : Bool :=
  match content with
  | '#' :: digits => !digits.isEmpty && digits.all isAsciiDigit
  | _ =>
    match splitFirst? '-' content with
    | some (letters, digits) =>
      !letters.isEmpty && letters.all isAsciiUpper && !digits.isEmpty && digits.all isAsciiDigit
    | none => false

/-- The character that closes a ticket id. -/
def ticketCloser? (opener : Char) : Option Char :=
  if opener == '(' then some ')' else if opener == '[' then some ']' else none

/-- The ticket id in front of a text, and what follows it. -/
def takeTicket (text : List Char) : Option (List Char) × List Char :=
  match text with
  | [] => (none, text)
  | opener :: rest =>
    match ticketCloser? opener with
    | none => (none, text)
    | some closer =>
      match splitFirst? closer rest with
      | some (content, after) =>
        if isTicket content then (some content, skipSeparator after) else (none, text)
      | none => (none, text)

/-- The metadata in front of a message, and the message without it. -/
def ofMessage (message : String) : Metadata :=
  let (owner, afterOwner) := takeOwner (trim message.toList)
  let (bracket, afterBracket) := takeBracket afterOwner
  let (ticket, rest) := takeTicket afterBracket
  { message := String.ofList (trim rest)
    owner := owner.map String.ofList
    date := (bracket.filter isDate).map String.ofList
    category := (bracket.filter fun content => !isDate content).map String.ofList
    id := ticket.map String.ofList }

end Metadata

namespace Remark

/-- The remark on one line of a file. -/
def ofLine? (tags : List String) (file : String) (number : Int) (line : String) :
    Option Remark :=
  (Tagged.ofLine? tags line).map fun tagged =>
    let metadata := Metadata.ofMessage tagged.message
    { file := file
      line := number
      tag := tagged.tag
      message := metadata.message
      priority := tagged.priority
      owner := metadata.owner
      date := metadata.date
      category := metadata.category
      id := metadata.id }

end Remark

end Marginalia
