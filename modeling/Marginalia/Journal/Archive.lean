import Marginalia.Data.Json.Printer
import Marginalia.Data.Json.Reader
import Marginalia.Files
import Marginalia.Journal.Seed

/-!
# Archives

How a journal rests on a disk: a line that tells it from other files, and its tables as data. What
is read back is put in row by row, so that an archive cannot bring in what the tables refuse.
-/

namespace Marginalia

namespace Journal

namespace Store

def toData (store : Store) : Data :=
  .object [("version", (store.version.map Data.int).getD .null), ("counter", .int store.counter),
    ("records", .list (store.records.map fun record => .object record.row))]

/-- The tables with a row put in that is given as an object. -/
def addRow? (store : Store) : Data → Option Store
  | .object row => (store.seed row).toOption
  | _ => none

/-- The tables that data describe. The counter is at least the greatest number in use. -/
def ofData? (data : Data) : Option Store := do
  let .object entries := data | none
  let .list rows ← valueOf? entries "records" | none
  let .int counter ← valueOf? entries "counter" | none
  let version ← valueOf? entries "version"
  let empty : Store := ⟨[], counter, none⟩
  let store ← rows.foldlM addRow? empty
  (store.setVersion version).toOption

end Store

/-- How an archive starts. -/
def archiveMark : String := "inline-issues journal\n"

/-- The bytes of an archive. -/
def archive (store : Store) : Text.Bytes :=
  Text.encode (archiveMark ++ Json.print store.toData)

/-- The tables in an archive. -/
def unarchive? (bytes : Text.Bytes) : Option Store := do
  let cs ← (Text.decodeBytes bytes).toOption
  let body ← Text.dropPart? archiveMark.toList cs
  Store.ofData? (← (Json.read body).toOption)

end Journal

/-- The bytes that a file has on a disk. -/
def Content.onDisk : Content → Text.Bytes
  | .bytes data | .script data _ => data
  | .journal store _ => Journal.archive store

/-- What a file holds that has given bytes on a disk. -/
def Content.ofDisk (bytes : Text.Bytes) : Content :=
  match Journal.unarchive? bytes with
  | some store => .journal store true
  | none => .bytes bytes

end Marginalia
