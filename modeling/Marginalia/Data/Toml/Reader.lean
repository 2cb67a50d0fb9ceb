import Marginalia.Data.Toml.Scalar

/-!
# TOML documents

A document is a list of entries and table headings. A table may be opened once; tables that
dotted keys make, lists and inline tables are closed to later headings; a list of tables grows
with each of its headings.
-/

namespace Marginalia.Toml

abbrev Key := List String

abbrev Entries := List (String × Data)

/-- Changes the table at a key. Tables that are missing are made; where the key leads to a list
of tables its last table is meant, if lists may be entered. -/
def updateAt? (enterLists : Bool) (change : Entries → Option Entries) : Key → Entries →
    Option Entries
  | [], entries => change entries
  | name :: key, entries =>
    match valueOf? entries name with
    | none => (updateAt? enterLists change key []).map fun inner =>
        setEntry entries name (.object inner)
    | some (.object inner) => (updateAt? enterLists change key inner).map fun inner =>
        setEntry entries name (.object inner)
    | some (.list items) =>
      match enterLists, items.getLast? with
      | true, some (.object inner) => (updateAt? enterLists change key inner).map fun inner =>
          setEntry entries name (.list (items.dropLast ++ [.object inner]))
      | _, _ => none
    | some _ => none

/-- Adds an entry to a table that has none of this name. -/
def insertNew? (name : String) (value : Data) (entries : Entries) : Option Entries :=
  if (valueOf? entries name).isSome then none else some (entries ++ [(name, value)])

/-- Adds a table to the list of a name. -/
def addTable? (name : String) (entries : Entries) : Option Entries :=
  match valueOf? entries name with
  | none => some (entries ++ [(name, .list [.object []])])
  | some (.list items) => some (setEntry entries name (.list (items ++ [.object []])))
  | some _ => none

/-- The parent and the last part of a key. -/
def splitKey (key : Key) : Key × String := (key.dropLast, key.getLast?.getD "")

def hasParts : Data → Bool
  | .object _ | .list _ => true
  | _ => false

/-- Blanks, line breaks and comments between the items of a list. -/
def skipBetween : (steps : Nat) → List Char → Option (List Char)
  | 0, cs => some cs
  | steps + 1, cs =>
    match cs.dropWhile isSpaceOrBreak with
    | '#' :: rest => do skipBetween steps (← skipComment? ('#' :: rest))
    | rest => some rest

def skipItemSpace (cs : List Char) : Option (List Char) :=
  skipBetween (cs.length + 1) cs

def orForm (reading : Option α) : Except Fault α :=
  match reading with
  | some a => .ok a
  | none => .error .form

/-- How deep values may lie in others: two levels for each list and three for each inline table. -/
def depthLimit : Nat := 988

/-- The levels that are left inside a list. -/
def belowList (levels : Nat) : Except Fault Nat :=
  if levels < 3 then .error .tooDeep else .ok (levels - 2)

/-- The levels that are left inside an inline table. -/
def belowTable (levels : Nat) : Except Fault Nat :=
  if levels < 5 then .error .tooDeep else .ok (levels - 3)

mutual

/-- A value, with so many levels left; every step takes at least one character. -/
def value (levels steps : Nat) (cs : List Char) : Except Fault (Data × List Char) :=
  match steps with
  | 0 => .error .form
  | steps + 1 =>
    match cs with
    | '[' :: rest => do
      let levels ← belowList levels
      match ← orForm (skipItemSpace rest) with
      | ']' :: after => .ok (.list [], after)
      | start => do
        let (items, after) ← listItems levels steps start
        .ok (.list items, after)
    | '\x7b' :: rest => do
      let levels ← belowTable levels
      match skipSpace rest with
      | '\x7d' :: after => .ok (.object [], after)
      | start => do
        let (entries, after) ← tableEntries levels steps [] [] start
        .ok (.object entries, after)
    | _ =>
      match quotedText? cs with
      | some (body, rest) => .ok (.text (String.ofList body), rest)
      | none => do
        let (data, rest) ← orForm (scalar? cs)
        .ok (← data, rest)

/-- The items of a list up to its end. A comma may follow the last item. -/
def listItems (levels steps : Nat) (cs : List Char) : Except Fault (List Data × List Char) :=
  match steps with
  | 0 => .error .form
  | steps + 1 => do
    let (item, rest) ← value levels steps cs
    match ← orForm (skipItemSpace rest) with
    | ']' :: after => .ok ([item], after)
    | ',' :: after =>
      match ← orForm (skipItemSpace after) with
      | ']' :: last => .ok ([item], last)
      | next => do
        let (items, last) ← listItems levels steps next
        .ok (item :: items, last)
    | _ => .error .form

/-- The entries of an inline table up to its end, behind those read so far. Values with parts
that come earlier are closed. -/
def tableEntries (levels steps : Nat) (closed : List Key) (entries : Entries)
    (cs : List Char) : Except Fault (Entries × List Char) :=
  match steps with
  | 0 => .error .form
  | steps + 1 => do
    let (key, rest) ← orForm (key? cs)
    let rest ← orForm (char? '=' rest)
    let (data, rest) ← value levels steps (skipSpace rest)
    if closed.any (·.isPrefixOf key) then .error .form
    let (parent, name) := splitKey key
    let entries ← orForm (updateAt? false (insertNew? name data) parent entries)
    match skipSpace rest with
    | '\x7d' :: after => .ok (entries, after)
    | ',' :: after =>
      tableEntries levels steps (if hasParts data then key :: closed else closed) entries
        (skipSpace after)
    | _ => .error .form

end

/-- A document as far as it is read. -/
structure Document where
  entries : Entries
  /-- The table that entries go into. -/
  heading : Key
  /-- Tables that may not be opened again. -/
  opened : List Key
  /-- Tables made by dotted keys since the last heading, which will count as opened. -/
  pending : List Key
  /-- Values with parts; nothing may be added at or below them. -/
  closed : List Key

def Document.empty : Document := ⟨[], [], [], [], []⟩

namespace Document

def isClosed (doc : Document) (key : Key) : Bool :=
  doc.closed.any (·.isPrefixOf key)

/-- Tables made by dotted keys count as opened from the next heading on. -/
def settle (doc : Document) : Document :=
  { doc with opened := doc.pending ++ doc.opened, pending := [] }

/-- The document with a table opened. -/
def openTable? (doc : Document) (key : Key) : Option Document :=
  let doc := doc.settle
  if doc.opened.contains key || doc.isClosed key then none
  else do
    let entries ← updateAt? true some key doc.entries
    some { doc with entries, heading := key, opened := key :: doc.opened }

/-- The document with a table added to a list of tables. What was opened or closed below the
list concerned the table before. -/
def openItem? (doc : Document) (key : Key) : Option Document :=
  let doc := doc.settle
  if doc.isClosed key then none
  else do
    let (parent, name) := splitKey key
    let entries ← updateAt? true (addTable? name) parent doc.entries
    some { doc with
      entries, heading := key
      opened := key :: doc.opened.filter fun other => !key.isPrefixOf other
      closed := doc.closed.filter fun other => !key.isPrefixOf other }

/-- The document with an entry added to its current table. -/
def add? (doc : Document) (key : Key) (data : Data) : Option Document :=
  let (parent, name) := splitKey key
  let between := (List.range (key.length - 1)).map fun i => doc.heading ++ key.take (i + 1)
  if between.any doc.opened.contains || doc.isClosed (doc.heading ++ parent) then none
  else do
    let entries ← updateAt? true (insertNew? name data) (doc.heading ++ parent) doc.entries
    some { doc with
      entries
      pending := between ++ doc.pending
      closed := if hasParts data then (doc.heading ++ key) :: doc.closed else doc.closed }

end Document

/-- A table heading behind its first bracket. -/
def heading (doc : Document) (cs : List Char) : Except Fault (Document × List Char) := do
  match cs with
  | '[' :: rest =>
    let (key, after) ← orForm (key? (skipSpace rest))
    match after with
    | ']' :: ']' :: last => .ok (← orForm (doc.openItem? key), last)
    | _ => .error .form
  | _ =>
    let (key, after) ← orForm (key? (skipSpace cs))
    match after with
    | ']' :: last => .ok (← orForm (doc.openTable? key), last)
    | _ => .error .form

/-- An entry or heading, if the line has one. -/
def statement (doc : Document) (cs : List Char) : Except Fault (Document × List Char) :=
  match cs with
  | [] => .ok (doc, [])
  | c :: rest =>
    if c == '\n' || c == '#' then .ok (doc, cs)
    else if c == '[' then heading doc rest
    else do
      let (key, after) ← orForm (key? cs)
      let after ← orForm (char? '=' after)
      let (data, after) ← value depthLimit (after.length + 1) (skipSpace after)
      .ok (← orForm (doc.add? key data), after)

/-- The statements of a document, one a line; every step takes at least one character. -/
def statements : (steps : Nat) → Document → List Char → Except Fault Document
  | 0, _, _ => .error .form
  | steps + 1, doc, cs => do
    let (doc, rest) ← statement doc (skipSpace cs)
    match ← orForm (skipComment? (skipSpace rest)) with
    | [] => .ok doc
    | '\n' :: after => statements steps doc after
    | _ => .error .form

/-- A text with each carriage return in front of a line feed left out. -/
def dropReturns : List Char → List Char
  | [] => []
  | '\r' :: '\n' :: rest => '\n' :: dropReturns rest
  | c :: rest => c :: dropReturns rest

/-- The table that a document writes. -/
def read (cs : List Char) : Except Fault Data := do
  let text := dropReturns cs
  let doc ← statements (text.length + 1) .empty text
  .ok (.object doc.entries)

end Marginalia.Toml
