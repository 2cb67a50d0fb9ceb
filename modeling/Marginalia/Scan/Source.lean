import Marginalia.Files
import Marginalia.Scan

/-!
# Sources

The files that the version control system lists, and their texts. A listing is a run of another
program that can fail in its own ways; all of them, and files that cannot be read, are faults of
the scan.
-/

namespace Marginalia

/-- How a run of the version control system ended. -/
inductive ListingOutcome
  /-- What is to be listed is no text that names it. -/
  | refused (fault : Fault)
  /-- The program could not be started. -/
  | failed (code : Int)
  | ended (code : Int) (output errors : Text.Bytes)
  deriving Repr

namespace Source

/-- The name of the program in messages. -/
def program : String := "git"

/-- The arguments of the run that lists the files below a directory. -/
def listingArguments (root : Path) (directory : Data) : List String :=
  [program, "-C", root.text, "ls-files", "-z", "--cached", "--others", "--exclude-standard", "--",
    directory.shown]

/-- The names in a listing, each one once. -/
def namesOf (output : List Char) : List String :=
  distinct (((Text.splitOn '\x00' output).filter fun name => !name.isEmpty).map String.ofList)

/-- The files that a run listed. -/
def listed (root : Path) (outcome : ListingOutcome) : Except Fault (List String) :=
  match outcome with
  | .refused fault => .error fault
  | .failed code => .error (.listingUnavailable root.text ⟨code, program, none⟩)
  | .ended code output errors =>
    if code != 0 then
      .error (.listingFailed code (String.ofList (Text.trim (Text.repairBytes errors))))
    else
      match Text.decodeBytes output with
      | .ok cs => .ok (namesOf cs)
      | .error fault => .error (.decoding fault)

/-- The text of a file below the root, with damaged bytes replaced and newlines unified. -/
def read (root : Path) (name : String) : FilesM String := fun files =>
  match Files.readBytes (root.child name) files with
  | .ok bytes files => .ok (String.ofList (Text.unifyNewlines (Text.repairBytes bytes))) files
  | .error (.system fault) files => .error (.sourceUnreadable name fault) files
  | .error fault files => .error fault files

end Source

namespace Scanner

/-- The scanner of a project: the data directory is ignored along with the configured patterns. -/
def ofConfig (config : Config) (override : Option Data) : Except Fault Scanner := do
  let directory ← config.dataDir.textFor "strip"
  let tags ← Config.overrideTags override
  let bare := ((directory.toList.dropWhile (· == '/')).reverse.dropWhile (· == '/')).reverse
  let ignore :=
    if bare.isEmpty then config.ignore else config.ignore ++ [String.ofList (bare ++ ['/'])]
  .ok (ofTags (config.effectiveTags tags) ignore)

/-- The remarks of files that are read one after the other. -/
def scanFiles (scanner : Scanner) (root : Path) : List String → FilesM (List Remark)
  | [] => return []
  | name :: rest => do
    let text ← Source.read root name
    let remarks := scanner.scanText ⟨name, text⟩
    return remarks ++ (← scanFiles scanner root rest)

end Scanner

end Marginalia
