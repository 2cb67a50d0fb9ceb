import Marginalia.Text.Case.Tables

/-!
# Capital and small letters

The full case mappings: a character may turn into several, so a text can change its length.
Turning into capitals looks at one character at a time. Turning into small letters looks at
the neighbours of a capital sigma, which has a form of its own at the end of a word.
-/

namespace Marginalia.Text

/-- The capital form of a character. -/
def upperChar (c : Char) : List Char :=
  if c.toNat < 0x80 then
    [if 'a' ≤ c && c ≤ 'z' then Char.ofNat (c.toNat - 0x20) else c]
  else
    match upperExpansions.lookup c.toNat with
    | some codes => codes.map Char.ofNat
    | none => [Char.ofNat (CaseRun.apply upperRuns c.toNat)]

def upperChars (cs : List Char) : List Char :=
  cs.flatMap upperChar

def upper (text : String) : String :=
  String.ofList (upperChars text.toList)

/-- The small form of a character outside any word. -/
def lowerChar (c : Char) : List Char :=
  if c.toNat < 0x80 then
    [if 'A' ≤ c && c ≤ 'Z' then Char.ofNat (c.toNat + 0x20) else c]
  else if c == 'İ' then ['i', Char.ofNat 0x307]
  else [Char.ofNat (CaseRun.apply lowerRuns c.toNat)]

def isCased (c : Char) : Bool :=
  casedRanges.holds c.toNat

def isCaseIgnorable (c : Char) : Bool :=
  caseIgnorableRanges.holds c.toNat

/-- Whether the text goes on with a letter, ignorable characters passed over. -/
def letterFollows : List Char → Bool
  | [] => false
  | c :: rest => if isCaseIgnorable c then letterFollows rest else isCased c

/-- The small form of a text that comes after a letter or not. A sigma after a letter and
before none is the final one. -/
def lowerAfter (afterLetter : Bool) : List Char → List Char
  | [] => []
  | c :: rest =>
    let small :=
      if c == 'Σ' then [if afterLetter && !letterFollows rest then 'ς' else 'σ']
      else lowerChar c
    small ++ lowerAfter (if isCaseIgnorable c then afterLetter else isCased c) rest

def lowerChars (cs : List Char) : List Char :=
  lowerAfter false cs

def lower (text : String) : String :=
  String.ofList (lowerChars text.toList)

theorem upperChars_append (cs ds : List Char) :
    upperChars (cs ++ ds) = upperChars cs ++ upperChars ds :=
  List.flatMap_append

end Marginalia.Text
