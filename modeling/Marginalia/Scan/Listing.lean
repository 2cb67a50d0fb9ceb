import Marginalia.Scan.Source

/-!
# Listings at hand

A listing that was made beforehand, with each name followed by a zero byte, and the parts of it
that are asked for.
-/

namespace Marginalia.Source

/-- Whether a name is a directory or lies below it. Slashes at the end of the directory do not
count, and a dot is the whole tree. -/
def isBelow (directory name : String) : Bool :=
  if directory == "." then true
  else
    let bare := (directory.toList.reverse.dropWhile (· == '/')).reverse
    name.toList == bare || (bare ++ ['/']).isPrefixOf name.toList

/-- Names as a listing gives them. -/
def listingBytes (names : List String) : Text.Bytes :=
  names.flatMap fun name => Text.encode name ++ [0]

/-- The outcome of a listing of a directory, given the names in the whole tree. -/
def narrowed (names : List String) (directory : Data) : ListingOutcome :=
  match directory.textFor "rstrip" with
  | .ok directory => .ended 0 (listingBytes (names.filter (isBelow directory))) []
  | .error fault => .refused fault

end Marginalia.Source
