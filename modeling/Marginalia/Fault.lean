import Marginalia.Data.Value
import Marginalia.Fault.System
import Marginalia.Text.Numeral
import Marginalia.Text.Utf8
import Marginalia.Time.Iso

/-!
# Faults

Everything that can go wrong, each with its cause. Faults fall into classes; what handles a fault
looks at its class, and what shows it prints its message. Departures from the program take the way
of faults, and pass wherever all that goes wrong is dealt with.
-/

namespace Marginalia

open Text (quoted)

/-- The classes of faults. -/
inductive FaultClass
  /-- A configuration that cannot be loaded. -/
  | config
  /-- Files that cannot be listed or read by a scan. -/
  | scan
  /-- A journal that cannot be used. -/
  | journal
  /-- A record that the journal does not have. -/
  | recordNotFound
  /-- A change of status that a record does not allow. -/
  | transition
  /-- A lock that another writer holds. -/
  | lock
  /-- A value of the right kind that is not acceptable. -/
  | value
  /-- Bytes that are no text. -/
  | decoding
  /-- An entry that is missing. -/
  | key
  /-- A value of the wrong kind. -/
  | kind
  /-- A value of a kind that lacks an operation. -/
  | member
  /-- A number or time out of range. -/
  | range
  /-- The file system refuses, with an error number. -/
  | system (code : Int)
  /-- A rule of a table is broken. -/
  | integrity
  /-- The database is used wrongly. -/
  | usage
  /-- The database cannot do what is asked. -/
  | operation
  /-- The file is no database. -/
  | database
  /-- A value lies too deep in others. -/
  | depth
  /-- A block or the program was left on purpose. -/
  | abort
  /-- A package is not installed. -/
  | package
  deriving DecidableEq, Repr

/-- The classes that the program raises on its own account; the command line reports them. -/
def FaultClass.isOwn : FaultClass → Bool
  | config | scan | journal | recordNotFound | transition | lock => true
  | _ => false

/-- The classes of faults that the database itself finds. -/
def FaultClass.isOfDatabase : FaultClass → Bool
  | integrity | operation | database => true
  | _ => false

/-- How a program is left before its end. -/
inductive Departure
  /-- It exits. The status is null, a number, or a value that is told. -/
  | exit (status : Data)
  /-- Its user interrupts it. -/
  | interrupt
  /-- Who runs it closes it. -/
  | closing
  deriving BEq, Repr

inductive Fault
  -- Values of the wrong kind.
  | noMember (kind member : String)
  | notIterable (kind : String)
  | noMembership (kind : String)
  | textIndexed
  | listIndexed
  | noEntries (kind : String)
  | noLength (kind : String)
  | notCallable (kind : String)
  | incomparable (left right : String)
  | joinedItem (index : Nat) (kind : String)
  | noWhole (kind : String)
  | noReal (kind : String)
  | noPathPart (kind : String)
  | notWritable (kind : String)
  | notStamp
  | noColumnWidth (kind : String)
  | unhashable (kind : String)
  -- Values that are not acceptable.
  | notPriority (value : Data)
  | notStatus (value : Data)
  | numeral (fault : Text.NumeralFault)
  | notReal (text : String)
  | notWhole (value : Decimal.Binary64)
  | moment (fault : Time.Iso.Fault)
  | decoding (fault : Text.Malformed)
  | malformedSettings
  /-- Values lie too deep in others for what is done with them. -/
  | nested (activity : String)
  | nullByte
  | emptyName (path : String)
  | notBelow (path root : String)
  | custom (text : String)
  | missingEntry (key : String)
  -- Numbers and times out of range.
  | dateRange
  | realRange
  | storedRange
  -- Files.
  | system (fault : SystemFault)
  -- Tables.
  | notNull (column : String)
  | notUnique (table column : String)
  | check (condition : String)
  | datatype
  | parameter (index : Nat) (kind : String)
  | noTable (table : String)
  | noColumn (table column : String)
  | misplaced (sign : String)
  | full
  | noTransaction
  | noDatabaseFile
  | notDatabase
  | malformedDatabase
  | closed
  -- The program's own.
  | notStringList (group key : String)
  | notSwitch (group key : String)
  | notNumber (group key : String) (cause : Fault)
  | configFile (path : String) (cause : Fault)
  | configUnreadable (path : String) (cause : Fault)
  | configKind (name : String)
  | scriptUnloadable (path : String)
  | listingUnavailable (root : String) (cause : SystemFault)
  | listingFailed (code : Int) (detail : String)
  | sourceUnreadable (path : String) (cause : SystemFault)
  | newerSchema (version supported : Int)
  | noRecord (id : Data)
  | alreadyCancelled (id : Data)
  | locked (path : String)
  | packageMissing
  | aborted (reason : String)
  -- Departures.
  | departure (departure : Departure)
  deriving Repr

namespace Fault

def faultClass : Fault → FaultClass
  | noMember .. => .member
  | notIterable _ | noMembership _ | textIndexed | listIndexed | noEntries _ | noLength _
  | notCallable _ | incomparable .. | joinedItem .. | noWhole _ | noReal _ | noPathPart _
  | notWritable _ | notStamp | noColumnWidth _ | unhashable _ => .kind
  | notPriority _ | notStatus _ | numeral _ | notReal _ | moment _ | nullByte | emptyName _
  | notBelow .. | custom _ => .value
  | notWhole x => if x == .nan then .value else .range
  | decoding _ | malformedSettings => .decoding
  | nested _ => .depth
  | missingEntry _ => .key
  | dateRange | realRange | storedRange => .range
  | system fault => .system fault.code
  | notNull _ | notUnique .. | check _ | datatype => .integrity
  | parameter .. | closed => .usage
  | noTable _ | noColumn .. | misplaced _ | full | noTransaction | noDatabaseFile => .operation
  | notDatabase | malformedDatabase => .database
  | notStringList .. | notSwitch .. | notNumber .. | configFile .. | configUnreadable ..
  | configKind _ => .config
  | scriptUnloadable _ => .package
  | listingUnavailable .. | listingFailed .. | sourceUnreadable .. => .scan
  | newerSchema .. => .journal
  | noRecord _ => .recordNotFound
  | alreadyCancelled _ => .transition
  | locked _ => .lock
  | packageMissing => .package
  | aborted _ | departure _ => .abort

/-- Whether a fault is no departure. -/
def isOrdinary : Fault → Bool
  | departure _ => false
  | _ => true

/-- What is wrong with a sequence of bytes, and where. -/
def decodingText (fault : Text.Malformed) : String :=
  let place :=
    match fault.bytes with
    | [b] =>
      "byte 0x" ++ String.ofList (Text.hexDigits 2 b.toNat) ++ s!" in position {fault.position}"
    | bytes => s!"bytes in position {fault.position}-{fault.position + bytes.length - 1}"
  "'utf-8' codec can't decode " ++ place ++ ": " ++ fault.defect.text

def message : Fault → String
  | noMember kind member => s!"'{kind}' object has no attribute '{member}'"
  | notIterable kind => s!"'{kind}' object is not iterable"
  | noMembership kind => s!"argument of type '{kind}' is not iterable"
  | textIndexed => "string indices must be integers, not 'str'"
  | listIndexed => "list indices must be integers or slices, not str"
  | noEntries kind => s!"'{kind}' object is not subscriptable"
  | noLength kind => s!"object of type '{kind}' has no len()"
  | notCallable kind => s!"'{kind}' object is not callable"
  | incomparable left right =>
    s!"'<' not supported between instances of '{left}' and '{right}'"
  | joinedItem index kind => s!"sequence item {index}: expected str instance, {kind} found"
  | noWhole kind =>
    "int() argument must be a string, a bytes-like object or a real number, not " ++ s!"'{kind}'"
  | noReal kind => s!"float() argument must be a string or a real number, not '{kind}'"
  | noPathPart kind => s!"unsupported operand type(s) for /: 'PosixPath' and '{kind}'"
  | notWritable kind => s!"write() argument must be str, not {kind}"
  | notStamp => "fromisoformat: argument must be str"
  | noColumnWidth kind => s!"unsupported format string passed to {kind}.__format__"
  | unhashable kind => s!"unhashable type: '{kind}'"
  | notPriority value => value.detail ++ " is not a valid Priority"
  | notStatus value => value.detail ++ " is not a valid RecordStatus"
  | numeral fault => fault.message
  | notReal text => "could not convert string to float: " ++ quoted text
  | notWhole x =>
    if x == .nan then "cannot convert float NaN to integer"
    else "cannot convert float infinity to integer"
  | moment fault => fault.message
  | decoding fault => decodingText fault
  | malformedSettings => "<decode error>"
  | nested activity => "maximum recursion depth exceeded" ++ activity
  | nullByte => "embedded null byte"
  | emptyName path => s!"PosixPath({quoted path}) has an empty name"
  | notBelow path root =>
    s!"{quoted path} is not in the subpath of {quoted root}" ++
      " OR one path is relative and the other is absolute."
  | custom text => text
  | missingEntry key => quoted key
  | dateRange => "date value out of range"
  | realRange => "int too large to convert to float"
  | storedRange => "Python int too large to convert to SQLite INTEGER"
  | system fault => fault.message
  | notNull column => s!"NOT NULL constraint failed: issues.{column}"
  | notUnique table column => s!"UNIQUE constraint failed: {table}.{column}"
  | check condition => s!"CHECK constraint failed: {condition}"
  | datatype => "datatype mismatch"
  | parameter index kind => s!"Error binding parameter {index}: type '{kind}' is not supported"
  | noTable table => s!"no such table: {table}"
  | noColumn table column => s!"table {table} has no column named {column}"
  | misplaced sign => s!"near \"{sign}\": syntax error"
  | full => "database or disk is full"
  | noTransaction => "cannot commit - no transaction is active"
  | noDatabaseFile => "unable to open database file"
  | notDatabase => "file is not a database"
  | malformedDatabase => "database disk image is malformed"
  | closed => "Cannot operate on a closed database."
  | notStringList group key => s!"[{group}] {key} must be a list of strings"
  | notSwitch group key => s!"[{group}] {key} must be true or false"
  | notNumber group key cause => s!"[{group}] {key} must be a number: " ++ cause.message
  | configFile path cause => s!"{path}: " ++ cause.message
  | configUnreadable path cause => s!"Cannot load config {path}: " ++ cause.message
  | configKind name => s!"Unsupported config file type: {name}"
  | scriptUnloadable path => s!"Cannot load Python config from {path}"
  | listingUnavailable root cause => s!"Cannot run git ls-files in {root}: " ++ cause.message
  | listingFailed code detail => s!"git ls-files failed with code {code}: {detail}"
  | sourceUnreadable path cause => s!"Cannot read {path}: " ++ cause.message
  | newerSchema version supported =>
    s!"Journal schema version {version} is newer than supported version {supported}"
  | noRecord id => s!"No journal record with id {id.shown}"
  | alreadyCancelled id => s!"Record {id.shown} is already cancelled"
  | locked path => s!"{path} is locked by another writer"
  | packageMissing => "MCP package not installed. Install with: pip install inline-issues[mcp]"
  | aborted reason => reason
  | departure (.exit status) => if status matches .null then "" else status.shown
  | departure .interrupt | departure .closing => ""

end Fault

end Marginalia
