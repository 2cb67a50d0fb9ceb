import Marginalia.Text.Printable

/-!
# Quoted text

A text between quotes, as error messages show it: on one line, with every character that does
not print written as an escape. The quote is `'`, or `"` for a text that holds a `'` and no `"`.
-/

namespace Marginalia.Text

/-- One hexadecimal digit, in small letters. -/
def hexDigit (n : Nat) : Char :=
  if n < 10 then Char.ofNat (0x30 + n) else Char.ofNat (0x57 + n)

/-- The last `width` hexadecimal digits of a number. -/
def hexDigits : (width : Nat) → Nat → List Char
  | 0, _ => []
  | width + 1, n => hexDigits width (n / 16) ++ [hexDigit (n % 16)]

/-- The shortest numeric escape of a code point: two, four or eight digits. -/
def numericEscape (n : Nat) : List Char :=
  if n ≤ 0xFF then '\\' :: 'x' :: hexDigits 2 n
  else if n ≤ 0xFFFF then '\\' :: 'u' :: hexDigits 4 n
  else '\\' :: 'U' :: hexDigits 8 n

/-- One character inside a given quote. -/
def escapeChar (quote c : Char) : List Char :=
  if c == quote || c == '\\' then ['\\', c]
  else if c == '\t' then ['\\', 't']
  else if c == '\n' then ['\\', 'n']
  else if c == '\r' then ['\\', 'r']
  else if isPrintable c then [c]
  else numericEscape c.toNat

def quoteFor (cs : List Char) : Char :=
  if cs.contains '\'' && !cs.contains '"' then '"' else '\''

/-- The text between its quotes. -/
def quoted (text : String) : String :=
  let cs := text.toList
  let quote := quoteFor cs
  String.ofList (quote :: cs.flatMap (escapeChar quote) ++ [quote])

end Marginalia.Text
