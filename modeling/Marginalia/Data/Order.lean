import Marginalia.Fault

/-!
# Comparing data

Equality and order of values of any kind. Numbers of all kinds compare by value, texts by code
points, lists item by item; other values have no order.
-/

namespace Marginalia

namespace Data

/-- The order of two numbers, if both are numbers. -/
def compareNumbers? (a b : Sum Int Decimal.Binary64) : Option Ordering :=
  match a, b with
  | .inl m, .inl n => some (compare m n)
  | .inl m, .inr y => (y.compareInt? m).map Ordering.swap
  | .inr x, .inl n => x.compareInt? n
  | .inr x, .inr y => x.compare? y

mutual

/-- Whether two values are equal. Objects are equal whatever the order of their entries, and what is
not a number equals itself. -/
def same : Data → Data → Bool
  | null, null => true
  | float .nan, float .nan => true
  | text s, text t => s == t
  | list xs, list ys => sameItems xs ys
  | object xs, object ys => xs.length == ys.length && sameEntries xs ys
  | date d, date e => d == e
  | time c, time d => c == d
  | moment m, moment n => m == n
  | a, b =>
    match a.number?, b.number? with
    | some x, some y => compareNumbers? x y == some .eq
    | _, _ => false

def sameItems : List Data → List Data → Bool
  | [], [] => true
  | x :: xs, y :: ys => same x y && sameItems xs ys
  | _, _ => false

/-- Whether every entry of the first list is in the second one. -/
def sameEntries : List (String × Data) → List (String × Data) → Bool
  | [], _ => true
  | (key, value) :: rest, others =>
    (match valueOf? others key with
     | some other => same value other
     | none => false) && sameEntries rest others

end

mutual

/-- Whether one value comes before another one. -/
def before : Data → Data → Except Fault Bool
  | text s, text t => .ok (s < t)
  | list xs, list ys => itemsBefore xs ys
  | a, b =>
    match a.number?, b.number? with
    | some x, some y => .ok (compareNumbers? x y == some .lt)
    | _, _ => .error (.incomparable a.kind b.kind)

/-- The first items that differ decide; a list comes after the lists it continues. -/
def itemsBefore : List Data → List Data → Except Fault Bool
  | _, [] => .ok false
  | [], _ :: _ => .ok true
  | x :: xs, y :: ys => if same x y then itemsBefore xs ys else before x y

end

end Data

end Marginalia
