import Marginalia.CommandLine.Grammar
import Marginalia.Files.Path
import Marginalia.Text.Numeral

/-!
# Reading command lines

The words of a command line are taken from the front: a flag with its value, or the operand once
there is one. Words that have no place are collected. The options that come out are named values.
-/

namespace Marginalia.CommandLine

open Text (readInt)

abbrev Options := List (String × Data)

/-- Why a command line is not run: it asks for help, or something is wrong with it. -/
inductive Refusal
  | help (program : String)
  | complaint (program : String) (complaint : Complaint)
  deriving DecidableEq, Repr

/-- How far a command line has been read. -/
structure Progress where
  options : Options
  /-- What the program still takes besides flags. -/
  operand : Operand
  /-- Words that have no place. -/
  extras : List String := []
  /-- The command and the words behind it. -/
  command : Option (String × List String) := none
  deriving BEq, Repr

namespace Progress

def set (p : Progress) (field : String) (value : Data) : Progress :=
  { p with options := setEntry p.options field value }

def addExtras (p : Progress) (words : List String) : Progress :=
  { p with extras := p.extras ++ words }

end Progress

def readWhole (label text : String) : Except Complaint Data :=
  match readInt text with
  | .ok n => .ok (.int n)
  | .error _ => .error (.notWhole label text)

/-- The value of a flag. A double dash stands for no value: it gives an empty list, whatever the
flag takes. -/
def readValue (label text : String) (kind : ValueKind) : Except Complaint Data :=
  if text == "--" then .ok (.list [])
  else
    match kind with
    | .text => .ok (.text text)
    | .path => .ok (.text (Path.ofText text).text)
    | .whole => readWhole label text
    | .oneOf names =>
      if names.contains text then .ok (.text text) else .error (.notAmong label text names)

/-- Flags that are used in one word, the last one of them perhaps without its value. -/
structure Cluster where
  uses : List (Flag × Option String) := []
  last : Option Flag := none

/-- The flags in a word, from one with text attached on: one that takes a value takes the text, and
behind a short one that takes none each character has to be a short flag. -/
def Grammar.cluster (g : Grammar) (flag : Flag) (isShort : Bool) :
    List Char → Except Complaint Cluster
  | [] =>
    match flag.kind with
    | .value _ => .ok { uses := [(flag, some "")] }
    | _ => .error (.strayValue flag.label "")
  | c :: rest =>
    match flag.kind, isShort, g.flagNamed? (String.ofList ['-', c]), rest with
    | .value _, _, _, _ => .ok { uses := [(flag, some (String.ofList (c :: rest)))] }
    | _, true, some next, [] => .ok { uses := [(flag, none)], last := some next }
    | _, true, some next, d :: more => do
      let cluster ← g.cluster next true (d :: more)
      .ok { cluster with uses := (flag, none) :: cluster.uses }
    | _, _, _, _ => .error (.strayValue flag.label (String.ofList (c :: rest)))

/-- The flags of a word that is a flag. -/
def Grammar.clusterOf (g : Grammar) (use : FlagUse) : Except Complaint Cluster :=
  match use.attached with
  | none => .ok { last := some use.flag }
  | some text => g.cluster use.flag (use.spelling.toList[1]? != some '-') text

/-- What becomes of a word that is a flag: the flags with their values, and the number of words
behind it that are taken. -/
def Cluster.complete (cluster : Cluster) (rest : List Word) :
    Except Complaint (List (Flag × Option String) × Nat) :=
  match cluster.last with
  | none => .ok (cluster.uses, 0)
  | some flag =>
    match flag.kind, rest with
    | .value _, .plain text :: _ => .ok (cluster.uses ++ [(flag, some text)], 1)
    | .value _, _ => .error (.noValue flag.label)
    | _, _ => .ok (cluster.uses ++ [(flag, none)], 0)

/-- Applies the flags of a word one after the other. -/
def Grammar.apply (g : Grammar) (p : Progress) :
    List (Flag × Option String) → Except Refusal Progress
  | [] => .ok p
  | (flag, value) :: rest =>
    match flag.kind with
    | .help => .error (.help g.program)
    | .switch => g.apply (p.set flag.field (.bool true)) rest
    | .value kind =>
      match readValue flag.label (value.getD "") kind with
      | .ok data => g.apply (p.set flag.field data) rest
      | .error complaint => .error (.complaint g.program complaint)

/-- Takes a flag, and says how many words behind it belong to it. -/
def Grammar.takeFlag (g : Grammar) (text : String) (known : Option FlagUse) (rest : List Word)
    (p : Progress) : Except Refusal (Nat × Progress) :=
  match known with
  | none => .ok (0, p.addExtras [text])
  | some use =>
    match g.clusterOf use with
    | .error complaint => .error (.complaint g.program complaint)
    | .ok cluster =>
      match cluster.complete rest with
      | .error complaint => .error (.complaint g.program complaint)
      | .ok (uses, taken) => do
        let p ← g.apply p uses
        .ok (taken, p)

/-- The words from the first plain one on, if only double dashes are in front of it. -/
def plainFront? : List Word → Option (String × List Word)
  | .plain text :: rest => some (text, rest)
  | .dashes :: rest => plainFront? rest
  | _ => none

/-- Takes the operand if it is there, and says how many words it takes up. -/
def Grammar.takeOperand (g : Grammar) (words : List Word) (p : Progress) :
    Except Refusal (Nat × Progress) :=
  match p.operand, plainFront? words with
  | .whole field, some (text, rest) =>
    match readWhole field text with
    | .error complaint => .error (.complaint g.program complaint)
    | .ok value =>
      let taken := words.length - rest.length + (rest.takeWhile (· == .dashes)).length
      .ok (taken, { p.set field value with operand := .none })
  | .command field names, some _ =>
    match words.map Word.text with
    | [] => .ok (0, p)
    | name :: rest =>
      if names.contains name then
        .ok (words.length,
          { p.set field (.text name) with operand := .none, command := some (name, rest) })
      else .error (.complaint g.program (.notAmong field name names))
  | _, _ => .ok (0, p)

/-- Takes words from the front until none is left. -/
def Grammar.takeWords (g : Grammar) (words : List Word) (p : Progress) :
    Except Refusal Progress :=
  match words with
  | [] => .ok p
  | word :: rest =>
    if !(word :: rest).any Word.isFlag then do
      let (taken, p) ← g.takeOperand (word :: rest) p
      .ok (p.addExtras (((word :: rest).drop taken).map Word.text))
    else
      match word with
      | .flag text known => do
        let (taken, p) ← g.takeFlag text known rest p
        g.takeWords (rest.drop taken) p
      | word => do
        let (taken, p) ← g.takeOperand (word :: rest) p
        if taken == 0 then
          g.takeWords (rest.dropWhile fun w => !w.isFlag)
            (p.addExtras (word.text :: (rest.takeWhile fun w => !w.isFlag).map Word.text))
        else g.takeWords (rest.drop (taken - 1)) p
termination_by words.length
decreasing_by
  · simp only [List.length_cons, List.length_drop]; omega
  · have : (rest.dropWhile fun w => !w.isFlag).length ≤ rest.length :=
      (List.dropWhile_suffix _).length_le
    simp only [List.length_cons]; omega
  · simp only [List.length_cons, List.length_drop]; omega

/-- The options before anything is read. -/
def Grammar.defaults (g : Grammar) : Options :=
  (g.flags.filterMap fun flag =>
    if flag.kind == .help then none else some (flag.field, flag.default)) ++
  match g.operand with
  | .none => []
  | .whole field | .command field _ => [(field, .null)]

/-- Reads the words of one program. -/
def Grammar.parse (g : Grammar) (words : List String) : Except Refusal Progress := do
  let words ← (g.readWords words).mapError (.complaint g.program)
  let p ← g.takeWords words ⟨g.defaults, g.operand, [], none⟩
  match p.operand with
  | .whole field => .error (.complaint g.program (.noOperand field))
  | _ => .ok p

/-- Reads the words of a program that has commands with grammars of their own. -/
def parse (main : Grammar) (command : String → Grammar) (words : List String) :
    Except Refusal Options := do
  let p ← main.parse words
  let (options, extras) ← match p.command with
    | none => .ok (p.options, p.extras)
    | some (name, rest) => do
      let q ← (command name).parse rest
      .ok (q.options.foldl (fun options (field, value) => setEntry options field value) p.options,
        p.extras ++ q.extras)
  if extras.isEmpty then .ok options
  else .error (.complaint main.program (.unrecognized extras))

end Marginalia.CommandLine
