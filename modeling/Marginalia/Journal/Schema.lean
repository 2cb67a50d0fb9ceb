import Marginalia.Journal.Store

/-!
# The layout of a journal

The statements that make the tables of a journal and record the version of their layout, and when
they are run. The indices of the tables hold nothing of their own, and are left out.
-/

namespace Marginalia.Journal

/-- The tables of a database, each of which may be missing. -/
structure Schema where
  /-- The recorded versions in ascending order. -/
  versions : Option (List Int)
  /-- The records, with the greatest number handed out so far. -/
  issues : Option (List Record × Int)
  deriving DecidableEq, Repr

namespace Schema

def versionTable : String := "schema_version"

/-- The tables of an empty file. -/
def empty : Schema := ⟨none, none⟩

inductive Statement
  /-- Makes the table of versions unless it is there. -/
  | createVersions
  | deleteVersions
  | insertVersion (version : Int)
  /-- Makes the table of records, and the counter with it, unless it is there. -/
  | createIssues
  deriving DecidableEq, Repr

/-- What a statement does to the tables. -/
def run (schema : Schema) : Statement → Except Fault Schema
  | .createVersions => .ok { schema with versions := some (schema.versions.getD []) }
  | .deleteVersions =>
    match schema.versions with
    | none => .error (.noTable versionTable)
    | some _ => .ok { schema with versions := some [] }
  | .insertVersion version =>
    match schema.versions with
    | none => .error (.noTable versionTable)
    | some rows =>
      if rows.contains version then .error (.notUnique versionTable "version")
      else
        let (smaller, greater) := rows.span (· < version)
        .ok { schema with versions := some (smaller ++ version :: greater) }
  | .createIssues => .ok { schema with issues := some (schema.issues.getD ([], 0)) }

/-- Runs statements one after the other. -/
def runAll (schema : Schema) (statements : List Statement) : Except Fault Schema :=
  statements.foldlM run schema

/-- The statements that bring the tables of any known layout to the current one. -/
def setUp : List Statement :=
  [.createVersions, .deleteVersions, .insertVersion layoutVersion, .createIssues]

/-- The recorded version, the least one if there are several. -/
def version? (schema : Schema) : Option Int := (schema.versions.getD []).head?

/-- Makes sure of the current layout. Without a version the layout counts as older than any; a newer
one is refused. -/
def ensure (schema : Schema) : Except Fault Schema :=
  match schema.versions with
  | none => schema.runAll setUp
  | some _ =>
    let version := schema.version?.getD 0
    if layoutVersion < version then .error (.newerSchema version layoutVersion)
    else if version < layoutVersion then schema.runAll setUp
    else .ok schema

/-- The journal that the tables hold. -/
def store (schema : Schema) : Store :=
  let (records, counter) := schema.issues.getD ([], 0)
  ⟨records, counter, schema.version?⟩

end Schema

namespace Store

/-- The tables of a journal as the statements find them. -/
def schema (store : Store) : Schema :=
  ⟨some store.version.toList, some (store.records, store.counter)⟩

/-- The tables as a journal that is opened on them finds them, or why they are refused. -/
def opened (store : Store) : Except Fault Store :=
  store.schema.ensure.map Schema.store

end Store

end Marginalia.Journal
