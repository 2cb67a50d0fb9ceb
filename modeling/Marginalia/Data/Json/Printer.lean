import Marginalia.Data.Value

/-!
# Printing JSON

One entry a line with two blanks for each level, or all on one line. Every character beyond ASCII
is written as an escape. Dates and times are written as texts.
-/

namespace Marginalia.Json

open Text (hexDigits)
open Decimal (Binary64)

/-- One character between quotes. -/
def escaped (c : Char) : List Char :=
  let n := c.toNat
  if c == '"' || c == '\\' then ['\\', c]
  else if c == '\n' then ['\\', 'n']
  else if c == '\r' then ['\\', 'r']
  else if c == '\t' then ['\\', 't']
  else if c == '\x08' then ['\\', 'b']
  else if c == '\x0c' then ['\\', 'f']
  else if 0x20 ≤ n && n < 0x7F then [c]
  else if n < 0x10000 then '\\' :: 'u' :: hexDigits 4 n
  else
    let high := 0xD800 + (n - 0x10000) / 0x400
    let low := 0xDC00 + (n - 0x10000) % 0x400
    '\\' :: 'u' :: hexDigits 4 high ++ '\\' :: 'u' :: hexDigits 4 low

def textLiteral (s : String) : String :=
  "\"" ++ String.ofList (s.toList.flatMap escaped) ++ "\""

def numberText : Binary64 → String
  | .nan => "NaN"
  | .infinite negative => if negative then "-Infinity" else "Infinity"
  | x => x.text

/-- A line end and the indentation of a level, two blanks each; nothing without levels. -/
def lineBreak : (level : Option Nat) → String
  | none => ""
  | some n => "\n" ++ String.ofList (List.replicate (2 * n) ' ')

def separatorText : (level : Option Nat) → String
  | none => ", "
  | some n => "," ++ lineBreak (some n)

mutual

/-- The text of a value: on one line, or at a level of indentation. -/
def render (level : Option Nat) : Data → String
  | .null => "null"
  | .bool b => if b then "true" else "false"
  | .int n => toString n
  | .float x => numberText x
  | .text s => textLiteral s
  | .list [] => "[]"
  | .list (item :: rest) =>
    let inner := level.map (· + 1)
    "[" ++ lineBreak inner ++ renderItems inner (item :: rest) ++ lineBreak level ++ "]"
  | .object [] => "\x7b\x7d"
  | .object (entry :: rest) =>
    let inner := level.map (· + 1)
    "\x7b" ++ lineBreak inner ++ renderEntries inner (entry :: rest) ++ lineBreak level ++ "\x7d"
  | .date d => textLiteral d.text
  | .time clock => textLiteral clock.text
  | .moment m => textLiteral m.text

def renderItems (level : Option Nat) : List Data → String
  | [] => ""
  | [item] => render level item
  | item :: rest => render level item ++ separatorText level ++ renderItems level rest

def renderEntries (level : Option Nat) : List (String × Data) → String
  | [] => ""
  | [(key, item)] => textLiteral key ++ ": " ++ render level item
  | (key, item) :: rest =>
    textLiteral key ++ ": " ++ render level item ++ separatorText level ++ renderEntries level rest

end

/-- The text of a value with one entry a line. -/
def print (data : Data) : String := render (some 0) data

/-- The text of a value on one line. -/
def compact (data : Data) : String := render none data

end Marginalia.Json
