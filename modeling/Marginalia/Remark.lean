import Marginalia.Priority

/-!
# Remarks

One tagged comment found by a scan. Its fingerprint leaves the line out, so that a remark
that moves within its file stays the same one.
-/

namespace Marginalia

structure Remark where
  file : String
  line : Int
  tag : String
  message : String
  priority : Priority := .normal
  owner : Option String := none
  date : Option String := none
  category : Option String := none
  id : Option String := none
  deriving DecidableEq, Repr

/-- The identity of a remark with a tag, in a file, with a message. -/
def fingerprintOf (tag file message : String) : String :=
  tag ++ "|" ++ file ++ "|" ++ message

namespace Remark

def fingerprint (a : Remark) : String :=
  fingerprintOf a.tag a.file a.message

/-- The file and the line. A snapshot refuses lines whose numbers are too long to be written. -/
def location (a : Remark) : String :=
  a.file ++ ":" ++ toString a.line

end Remark

end Marginalia
