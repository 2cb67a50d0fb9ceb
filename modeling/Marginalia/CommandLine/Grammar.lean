import Marginalia.Data.Value
import Marginalia.Text.Digit
import Marginalia.Text.Parts
import Marginalia.Text.Quoted

/-!
# Grammar of a command line

Which flags a program knows and what it takes besides them. A word that starts with a dash is a
flag if it is spelled out, if it is the only possible completion of a long name, or if it starts
with a short one; the value of a flag may be attached to it. Negative numbers, words with a blank,
and all words behind a double dash are no flags.
-/

namespace Marginalia.CommandLine

open Text (quoted isDecimal splitFirst?)

/-- What the value of a flag has to be. -/
inductive ValueKind
  | text
  | path
  | whole
  | oneOf (names : List String)
  deriving DecidableEq, Repr

inductive FlagKind
  /-- Asks for help, and for nothing else. -/
  | help
  /-- Takes no value. -/
  | switch
  | value (kind : ValueKind)
  deriving DecidableEq, Repr

structure Flag where
  /-- The spellings. -/
  names : List String
  /-- The option that the flag sets. -/
  field : String
  kind : FlagKind
  default : Data := .null
  deriving BEq, Repr

/-- The name of a flag in complaints. -/
def Flag.label (flag : Flag) : String :=
  String.intercalate "/" flag.names

/-- What a program takes besides flags. -/
inductive Operand
  | none
  /-- A whole number, which has to be there. -/
  | whole (field : String)
  /-- One of some commands, with all words behind it. -/
  | command (field : String) (names : List String)
  deriving DecidableEq, Repr

structure Grammar where
  program : String
  flags : List Flag
  operand : Operand := .none
  deriving BEq, Repr

/-- What is wrong with a command line. -/
inductive Complaint
  | ambiguous (word : String) (candidates : List String)
  | noValue (label : String)
  | strayValue (label value : String)
  | notWhole (label value : String)
  | notAmong (label value : String) (choices : List String)
  | noOperand (label : String)
  | unrecognized (words : List String)
  deriving DecidableEq, Repr

def Complaint.message : Complaint → String
  | ambiguous word candidates =>
    s!"ambiguous option: {word} could match " ++ String.intercalate ", " candidates
  | noValue label => s!"argument {label}: expected one argument"
  | strayValue label value => s!"argument {label}: ignored explicit argument {quoted value}"
  | notWhole label value => s!"argument {label}: invalid int value: {quoted value}"
  | notAmong label value choices =>
    s!"argument {label}: invalid choice: {quoted value} (choose from " ++
      String.intercalate ", " (choices.map quoted) ++ ")"
  | noOperand label => s!"the following arguments are required: {label}"
  | unrecognized words => "unrecognized arguments: " ++ String.intercalate " " words

/-- A flag as it is used: its spelling, and the text attached to it. -/
structure FlagUse where
  flag : Flag
  spelling : String
  attached : Option (List Char) := none
  deriving BEq, Repr

/-- A word of a command line. -/
inductive Word
  | plain (text : String)
  /-- The double dash behind which there are no flags. -/
  | dashes
  /-- A flag, or a word that looks like one. -/
  | flag (text : String) (known : Option FlagUse)
  deriving BEq, Repr

namespace Word

def text : Word → String
  | plain text => text
  | dashes => "--"
  | flag text _ => text

def isFlag : Word → Bool
  | flag .. => true
  | _ => false

end Word

/-- A minus sign and a number with digits only or with a point and digits behind it. A line end
may follow. -/
def looksNegative : List Char → Bool
  | '-' :: rest =>
    let number := if rest.getLast? == some '\n' then rest.dropLast else rest
    match splitFirst? '.' number with
    | none => !number.isEmpty && number.all isDecimal
    | some (before, after) =>
      before.all isDecimal && !after.isEmpty && after.all isDecimal
  | _ => false

namespace Grammar

/-- All spellings, in the order of the flags. -/
def spellings (g : Grammar) : List (String × Flag) :=
  g.flags.flatMap fun flag => flag.names.map fun name => (name, flag)

def flagNamed? (g : Grammar) (name : String) : Option Flag :=
  g.spellings.lookup name

/-- The flag that is spelled out in front of an equals sign. -/
def assigned? (g : Grammar) (cs : List Char) : Option FlagUse := do
  let (name, value) ← splitFirst? '=' cs
  let flag ← g.flagNamed? (String.ofList name)
  some ⟨flag, String.ofList name, some value⟩

/-- The flags that a word may mean whose spelling it does not give in full. -/
def candidates (g : Grammar) (cs : List Char) : List FlagUse :=
  match cs with
  | '-' :: '-' :: _ =>
    let (stem, attached) :=
      match splitFirst? '=' cs with
      | some (stem, value) => (stem, some value)
      | none => (cs, none)
    g.spellings.filterMap fun (name, flag) =>
      if stem.isPrefixOf name.toList then some ⟨flag, name, attached⟩ else none
  | '-' :: c :: value =>
    g.spellings.filterMap fun (name, flag) =>
      if name.toList == ['-', c] then some ⟨flag, name, some value⟩
      else if cs.isPrefixOf name.toList then some ⟨flag, name, none⟩
      else none
  | _ => []

/-- What a word is that starts with a dash and is no flag spelled out. -/
def readDashed (g : Grammar) (text : String) : Except Complaint Word :=
  let cs := text.toList
  match g.assigned? cs with
  | some use => .ok (.flag text (some use))
  | none =>
    match g.candidates cs with
    | [use] => .ok (.flag text (some use))
    | [] => .ok (if looksNegative cs || cs.contains ' ' then .plain text else .flag text none)
    | uses => .error (.ambiguous text (uses.map (·.spelling)))

def readWord (g : Grammar) (text : String) : Except Complaint Word :=
  match g.flagNamed? text with
  | some flag => .ok (.flag text (some { flag, spelling := text }))
  | none =>
    match text.toList with
    | '-' :: _ :: _ => g.readDashed text
    | _ => .ok (.plain text)

/-- The words of a command line. -/
def readWords (g : Grammar) : List String → Except Complaint (List Word)
  | [] => .ok []
  | text :: rest =>
    if text == "--" then .ok (.dashes :: rest.map .plain)
    else do
      let word ← g.readWord text
      .ok (word :: (← g.readWords rest))

end Grammar

end Marginalia.CommandLine
