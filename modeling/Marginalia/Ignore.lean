import Marginalia.Text.Parts

/-!
# Ignore patterns

A pattern that ends with `/` excludes what lies under a directory, one that starts with `*.`
excludes by the end of the name, and any other excludes every path that it occurs in. An empty
pattern excludes nothing.
-/

namespace Marginalia

open Text (occursIn)

/-- Whether one pattern excludes a path. -/
def excludes (path pattern : List Char) : Bool :=
  match pattern with
  | [] => false
  | c :: rest =>
    if pattern.getLast? == some '/' then pattern.isPrefixOf path
    else if c == '*' && rest.head? == some '.' then rest.isSuffixOf path
    else occursIn pattern path

/-- Whether some pattern excludes a path. -/
def ignored (patterns : List String) (path : String) : Bool :=
  patterns.any fun pattern => excludes path.toList pattern.toList

end Marginalia
