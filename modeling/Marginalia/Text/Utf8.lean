/-!
# UTF-8

Bytes are read one at a time. Between characters the reader is at the start; inside one it
knows how many bytes are owed and which values the next may have. A byte that does not fit
ends the broken sequence before it, and is then read again as the first byte of the next
character, so that damage never reaches beyond the sequence it happens in.
-/

namespace Marginalia.Text

abbrev Bytes := List UInt8

/-- The bytes of a text. -/
def encodeChars (cs : List Char) : Bytes :=
  cs.flatMap String.utf8EncodeChar

def encode (text : String) : Bytes :=
  encodeChars text.toList

/-- A character of which the first bytes are read. -/
structure Pending where
  /-- The bytes read so far, the first one in front. -/
  taken : Bytes
  /-- How many bytes are still to come. -/
  owed : Nat
  /-- The least and the greatest value of the next byte. -/
  low : Nat
  high : Nat
  /-- The number that the payload bits read so far make. -/
  value : Nat

inductive Step
  | complete (c : Char)
  | more (pending : Pending)
  | refused

/-- The first byte of a character. The ranges of the second byte leave out longer forms of
shorter characters, surrogates, and code points beyond the last. -/
def firstByte (b : UInt8) : Step :=
  let n := b.toNat
  if n < 0x80 then .complete (Char.ofNat n)
  else if n < 0xC2 then .refused
  else if n < 0xE0 then .more ⟨[b], 1, 0x80, 0xBF, n - 0xC0⟩
  else if n < 0xF0 then
    .more ⟨[b], 2, if n == 0xE0 then 0xA0 else 0x80, if n == 0xED then 0x9F else 0xBF, n - 0xE0⟩
  else if n < 0xF5 then
    .more ⟨[b], 3, if n == 0xF0 then 0x90 else 0x80, if n == 0xF4 then 0x8F else 0xBF, n - 0xF0⟩
  else .refused

/-- A further byte of a character. -/
def Pending.nextByte (pending : Pending) (b : UInt8) : Step :=
  let n := b.toNat
  if n < pending.low || pending.high < n then .refused
  else
    let value := pending.value * 0x40 + (n - 0x80)
    if pending.owed ≤ 1 then .complete (Char.ofNat value)
    else .more ⟨pending.taken ++ [b], pending.owed - 1, 0x80, 0xBF, value⟩

/-- What is wrong with a broken sequence. -/
inductive Defect
  | startByte
  | continuationByte
  | endOfData
  deriving DecidableEq, Repr

def Defect.text : Defect → String
  | startByte => "invalid start byte"
  | continuationByte => "invalid continuation byte"
  | endOfData => "unexpected end of data"

/-- A broken sequence: where it starts, its bytes, and what is wrong with it. -/
structure Malformed where
  position : Nat
  bytes : Bytes
  defect : Defect
  deriving DecidableEq, Repr

/-- Characters and broken sequences in the order of the bytes, from a position on. -/
def piecesFrom (position : Nat) (state : Option Pending) : Bytes → List (Except Malformed Char)
  | [] =>
    match state with
    | none => []
    | some pending => [.error ⟨position - pending.taken.length, pending.taken, .endOfData⟩]
  | b :: rest =>
    let atStart : List (Except Malformed Char) :=
      match firstByte b with
      | .complete c => .ok c :: piecesFrom (position + 1) none rest
      | .more pending => piecesFrom (position + 1) (some pending) rest
      | .refused => .error ⟨position, [b], .startByte⟩ :: piecesFrom (position + 1) none rest
    match state with
    | none => atStart
    | some pending =>
      match pending.nextByte b with
      | .complete c => .ok c :: piecesFrom (position + 1) none rest
      | .more pending => piecesFrom (position + 1) (some pending) rest
      | .refused =>
        .error ⟨position - pending.taken.length, pending.taken, .continuationByte⟩ :: atStart

/-- The characters of a sequence of bytes, with each broken sequence as one U+FFFD. -/
def repairBytes (bytes : Bytes) : List Char :=
  (piecesFrom 0 none bytes).map fun piece =>
    match piece with
    | .ok c => c
    | .error _ => Char.ofNat 0xFFFD

/-- The characters of a sequence of bytes, or its first broken sequence. -/
def decodeBytes (bytes : Bytes) : Except Malformed (List Char) :=
  (piecesFrom 0 none bytes).mapM id

end Marginalia.Text
