import Marginalia.Fault
import Marginalia.Text.Parts

/-!
# Paths

A path is relative, or starts at the root, or at the second root that exactly two slashes name.
Empty parts and single dots mean nothing and are dropped; double dots stay, since what they mean
depends on the files.
-/

namespace Marginalia

open Text (splitOn)

/-- Where a path starts. -/
inductive Anchor
  | relative
  | root
  | doubleRoot
  deriving DecidableEq, Repr

def Anchor.text : Anchor → String
  | relative => ""
  | root => "/"
  | doubleRoot => "//"

structure Path where
  anchor : Anchor
  parts : List String
  deriving DecidableEq, Repr

namespace Path

/-- The anchor that a text starts with: exactly two slashes are told apart. -/
def anchorOf : List Char → Anchor
  | '/' :: '/' :: '/' :: _ => .root
  | '/' :: '/' :: _ => .doubleRoot
  | '/' :: _ => .root
  | _ => .relative

def isPart (part : List Char) : Bool :=
  !part.isEmpty && part != ['.']

/-- The path that a text names. -/
def ofText (text : String) : Path :=
  let cs := text.toList
  ⟨anchorOf cs, ((splitOn '/' cs).filter isPart).map String.ofList⟩

def text (path : Path) : String :=
  match path.anchor, path.parts with
  | .relative, [] => "."
  | anchor, parts => anchor.text ++ String.intercalate "/" parts

/-- The second path as seen from the first one. -/
def join (base path : Path) : Path :=
  if path.anchor == .relative then { base with parts := base.parts ++ path.parts } else path

/-- A path below this one. -/
def child (base : Path) (text : String) : Path := base.join (ofText text)

/-- A path below this one, given by a value of any kind. -/
def childOf (base : Path) : Data → Except Fault Path
  | .text s => .ok (base.child s)
  | value => .error (.noPathPart value.kind)

/-- The last part; empty if there is none. -/
def name (path : Path) : String :=
  path.parts.getLast?.getD ""

def parent (path : Path) : Path :=
  { path with parts := path.parts.dropLast }

/-- The text from the last dot on, and the text before. -/
def splitDot? (cs : List Char) : Option (List Char × List Char) :=
  (Text.splitLast? '.' cs).map fun (before, after) => (before, '.' :: after)

/-- The end of a name from its last dot on. A dot at the start or at the end of a name sets
nothing off. -/
def suffixOf (name : List Char) : List Char :=
  match splitDot? name with
  | some (before, after) => if before.isEmpty || after.length < 2 then [] else after
  | none => []

def suffix (path : Path) : String :=
  String.ofList (suffixOf path.name.toList)

/-- The path with another end of its name. -/
def withSuffix (path : Path) (suffix : String) : Except Fault Path :=
  let name := path.name.toList
  if name.isEmpty then .error (.emptyName path.text)
  else
    let stem := name.take (name.length - (suffixOf name).length)
    .ok { path with parts := path.parts.dropLast ++ [String.ofList stem ++ suffix] }

/-- The path that adds to the end of the name. -/
def addSuffix (path : Path) (more : String) : Except Fault Path :=
  path.withSuffix (path.suffix ++ more)

/-- The lock file that guards a file. -/
def lock (path : Path) : Except Fault Path := path.addSuffix ".lock"

/-- The file that is written before it takes the place of another one. -/
def draft (path : Path) : Except Fault Path := path.addSuffix ".tmp"

/-- The path from a directory on. -/
def relativeTo (path root : Path) : Except Fault Path :=
  if path.anchor == root.anchor && root.parts.isPrefixOf path.parts then
    .ok ⟨.relative, path.parts.drop root.parts.length⟩
  else .error (.notBelow path.text root.text)

end Path

end Marginalia
