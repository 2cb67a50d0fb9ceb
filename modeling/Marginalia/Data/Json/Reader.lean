import Marginalia.Data.Json.Token

/-!
# Reading JSON

A machine that takes one token at a time. Lists and objects that are open wait on a stack of
limited depth, and the state says what may come next. Of entries with one key the place of the
first counts and the value of the last. Of several faults the first one counts.
-/

namespace Marginalia.Json

/-- The values with parts. -/
inductive Nest
  | array
  | object
  deriving DecidableEq, Repr

def Nest.name : Nest → String
  | array => "array"
  | object => "object"

/-- Why a text is no JSON value. -/
inductive Fault
  | form
  /-- A whole number is beyond the limit of digits. -/
  | tooLong (digits : Nat)
  /-- A value lies too deep in others. -/
  | tooDeep (nest : Nest)
  deriving DecidableEq, Repr

/-- How many lists and objects may be open at once. -/
def depthLimit : Nat := 988

/-- A list or object that waits for one of its values. -/
inductive Frame
  /-- A list with the items before, the last one in front. -/
  | items (done : List Data)
  /-- An object with the entries before, and the key of the value. -/
  | entry (done : List (String × Data)) (key : String)

inductive State
  /-- A value is due. -/
  | value (stack : List Frame)
  /-- A list is open: its first item or its end is due. -/
  | firstItem (stack : List Frame)
  /-- A comma or the end of the list is due. -/
  | afterItem (stack : List Frame) (done : List Data)
  /-- An object is open: its first key or its end is due. -/
  | firstKey (stack : List Frame)
  /-- A key is due. -/
  | key (stack : List Frame) (done : List (String × Data))
  /-- The colon behind a key is due. -/
  | colon (stack : List Frame) (done : List (String × Data)) (key : String)
  /-- A comma or the end of the object is due. -/
  | afterEntry (stack : List Frame) (done : List (String × Data))
  /-- Nothing more is due. -/
  | finished (data : Data)

namespace State

/-- The state after a value that the stack waits for. -/
def place (data : Data) : List Frame → State
  | [] => finished data
  | .items done :: stack => afterItem stack (data :: done)
  | .entry done name :: stack => afterEntry stack (setEntry done name data)

/-- Refuses a list or object inside too many others. -/
def enter (nest : Nest) (stack : List Frame) (state : State) : Except Fault State :=
  if stack.length < depthLimit then .ok state else .error (.tooDeep nest)

/-- The state after the first token of a value. -/
def start (stack : List Frame) : Token → Except Fault State
  | .value data => .ok (place data stack)
  | .oversized digits => .error (.tooLong digits)
  | .openList => enter .array stack (firstItem stack)
  | .openObject => enter .object stack (firstKey stack)
  | _ => .error .form

def step : State → Token → Except Fault State
  | value stack, token => start stack token
  | firstItem stack, .closeList => .ok (place (.list []) stack)
  | firstItem stack, token => start (.items [] :: stack) token
  | afterItem stack done, .comma => .ok (value (.items done :: stack))
  | afterItem stack done, .closeList => .ok (place (.list done.reverse) stack)
  | firstKey stack, .closeObject => .ok (place (.object []) stack)
  | firstKey stack, .value (.text name) => .ok (colon stack [] name)
  | key stack done, .value (.text name) => .ok (colon stack done name)
  | colon stack done name, .colon => .ok (value (.entry done name :: stack))
  | afterEntry stack done, .comma => .ok (key stack done)
  | afterEntry stack done, .closeObject => .ok (place (.object done) stack)
  | _, _ => .error .form

end State

/-- The value that a text writes. A byte order mark is no blank. -/
def read (cs : List Char) : Except Fault Data := do
  match ← (tokens cs).foldlM State.step (.value []) with
  | .finished data => .ok data
  | _ => .error .form

end Marginalia.Json
