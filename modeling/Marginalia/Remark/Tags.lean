import Marginalia.Text.Blank
import Marginalia.Text.Case

/-!
# Tags

A tag counts in its normal form: without blanks around it and in capitals. Where several tags
fit, the longest one is meant, so tags are tried longest first.
-/

namespace Marginalia

open Text (trim upperChars)

/-- The normal form of a tag. -/
def normalTag (tag : String) : List Char :=
  upperChars (trim tag.toList)

/-- The members of a list without later repetitions. -/
def distinct [BEq α] : List α → List α
  | [] => []
  | a :: rest => a :: (distinct rest).filter fun b => !(b == a)

/-- The normal forms of the tags, each one once, blank ones left out, longest first. Tags of one
length keep their order. -/
def orderedTags (tags : List String) : List (List Char) :=
  (distinct ((tags.map normalTag).filter fun tag => !tag.isEmpty)).mergeSort
    fun a b => b.length ≤ a.length

/-- Whether a line starts with some spelling of a tag, as many characters as the tag has. -/
def startsWithTag (line tag : List Char) : Bool :=
  (line.take tag.length).length == tag.length && upperChars (line.take tag.length) == tag

end Marginalia
