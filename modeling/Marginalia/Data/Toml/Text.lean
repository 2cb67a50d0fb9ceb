import Marginalia.Data.Json.Token

/-!
# TOML texts and keys

The four kinds of quoted text, and keys: bare names or quoted texts with dots between them. Each
reader returns what it read and the rest of the text, and nothing where the text has no such
form.
-/

namespace Marginalia.Toml

open Json (hexValue?)

def isSpace (c : Char) : Bool := c == ' ' || c == '\t'

def isSpaceOrBreak (c : Char) : Bool := isSpace c || c == '\n'

def skipSpace (cs : List Char) : List Char := cs.dropWhile isSpace

/-- Control characters other than the tabulator, which no comment and no text on one line may
hold. -/
def isForbidden (c : Char) : Bool := (c.toNat < 0x20 && c != '\t') || c == '\x7f'

/-- Control characters that no text of several lines may hold. -/
def isForbiddenInLines (c : Char) : Bool := isForbidden c && c != '\n'

/-- The text behind a comment, or the same text if there is none. -/
def skipComment? (cs : List Char) : Option (List Char) :=
  match cs with
  | '#' :: rest =>
    if (rest.takeWhile (· != '\n')).any isForbidden then none
    else some (rest.dropWhile (· != '\n'))
  | _ => some cs

/-- The number that hexadecimal digits write. -/
def hexNumber? (cs : List Char) : Option Nat :=
  cs.foldlM (fun n c => (hexValue? c).map (n * 16 + ·)) 0

/-- The character with a code of `width` hexadecimal digits; a surrogate is none. -/
def codeChar? (width : Nat) (cs : List Char) : Option (Char × List Char) := do
  if cs.length < width then none
  else
    let n ← hexNumber? (cs.take width)
    if h : n.isValidChar then some (Char.ofNatAux n h, cs.drop width) else none

def escapeChar? (c : Char) : Option Char :=
  if c == 'b' then some '\x08'
  else if c == 't' then some '\t'
  else if c == 'n' then some '\n'
  else if c == 'f' then some '\x0c'
  else if c == 'r' then some '\r'
  else if c == '"' then some '"'
  else if c == '\\' then some '\\'
  else none

/-- The escape behind a backslash: a character, or nothing for a line that is continued. -/
def escape? (inLines : Bool) (cs : List Char) : Option (Option Char × List Char) :=
  match cs with
  | [] => none
  | c :: rest =>
    if inLines && isSpaceOrBreak c then
      match if c == '\n' then cs else skipSpace rest with
      | [] => some (none, [])
      | '\n' :: after => some (none, after.dropWhile isSpaceOrBreak)
      | _ => none
    else if c == 'u' then (codeChar? 4 rest).map fun (char, after) => (some char, after)
    else if c == 'U' then (codeChar? 8 rest).map fun (char, after) => (some char, after)
    else (escapeChar? c).map fun char => (some char, rest)

/-- The characters up to the closing quotes of a text with escapes. Every step takes at least one
character, so the length of the text bounds the steps. -/
def escapedBody (inLines : Bool) : (steps : Nat) → List Char → Option (List Char × List Char)
  | 0, _ => none
  | _ + 1, [] => none
  | steps + 1, c :: rest =>
    if c == '"' then
      if !inLines then some ([], rest)
      else
        match rest with
        | '"' :: '"' :: after => some ([], after)
        | _ => (escapedBody inLines steps rest).map fun (body, after) => ('"' :: body, after)
    else if c == '\\' then do
      let (char, after) ← escape? inLines rest
      (escapedBody inLines steps after).map fun (body, last) => (char.toList ++ body, last)
    else if (if inLines then isForbiddenInLines c else isForbidden c) then none
    else (escapedBody inLines steps rest).map fun (body, after) => (c :: body, after)

/-- The characters up to three single quotes. -/
def literalLines : List Char → Option (List Char × List Char)
  | [] => none
  | '\'' :: '\'' :: '\'' :: rest => some ([], rest)
  | c :: rest =>
    if isForbiddenInLines c then none
    else (literalLines rest).map fun (body, after) => (c :: body, after)

/-- At most two more quotes belong to a text of several lines. -/
def takeQuotes (quote : Char) (body cs : List Char) : List Char × List Char :=
  let extra := min 2 (cs.takeWhile (· == quote)).length
  (body ++ List.replicate extra quote, cs.drop extra)

/-- A line break right behind the opening quotes does not belong to the text. -/
def dropBreak : List Char → List Char
  | '\n' :: rest => rest
  | cs => cs

/-- A text on one line, behind its opening quote. -/
def lineText? (quote : Char) (cs : List Char) : Option (List Char × List Char) :=
  if quote == '"' then escapedBody false (cs.length + 1) cs
  else
    let body := cs.takeWhile (· != '\'')
    match cs.dropWhile (· != '\'') with
    | [] => none
    | _ :: rest => if body.any isForbidden then none else some (body, rest)

/-- A quoted text. -/
def quotedText? : List Char → Option (List Char × List Char)
  | '"' :: '"' :: '"' :: rest => do
    let start := dropBreak rest
    let (body, after) ← escapedBody true (start.length + 1) start
    some (takeQuotes '"' body after)
  | '\'' :: '\'' :: '\'' :: rest => do
    let (body, after) ← literalLines (dropBreak rest)
    some (takeQuotes '\'' body after)
  | c :: rest => if c == '"' || c == '\'' then lineText? c rest else none
  | [] => none

def isBare (c : Char) : Bool :=
  c.isAlphanum || c == '-' || c == '_'

/-- One part of a key. -/
def keyPart? (cs : List Char) : Option (String × List Char) :=
  match cs with
  | [] => none
  | c :: rest =>
    if isBare c then some (String.ofList (cs.takeWhile isBare), cs.dropWhile isBare)
    else if c == '"' || c == '\'' then
      (lineText? c rest).map fun (body, after) => (String.ofList body, after)
    else none

/-- The parts of a key, and the text behind the blanks that follow it. -/
def keyParts : (steps : Nat) → List Char → Option (List String × List Char)
  | 0, _ => none
  | steps + 1, cs => do
    let (part, rest) ← keyPart? cs
    match skipSpace rest with
    | '.' :: after =>
      let (parts, last) ← keyParts steps (skipSpace after)
      some (part :: parts, last)
    | after => some ([part], after)

def key? (cs : List Char) : Option (List String × List Char) :=
  keyParts (cs.length + 1) cs

end Marginalia.Toml
