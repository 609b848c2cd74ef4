import Provisioner.Value.Basic

/-!
# Equality of values

Values are compared by what they say and not by how they are held. Numbers are equal across the
kinds if they are exactly the same number, with `true` and `false` counting as one and zero, so
that `1`, `1.0` and `true` are equal; `nan` is equal to nothing, not even to itself. Lists and
tuples are compared item by item, and only with their own kind. Documents are equal if they have
the same names with equal values, in whatever order.

## Implementation notes

Documents are compared by their length and by looking up every entry of the first in the second.
That is equality of documents in which no name is repeated, which is what documents are; the
functions below do not assume it.

## Main definitions

* `Value.number?` — the number that a value is, if it is one
* `Value.eqv` — equality of values
* `Value.eqvList`, `eqvEntries` — item by item, and entry by looked-up entry
-/

namespace Provisioner

namespace Value

/-- The exact number that a value is; none for `nan` and for what is not a number. -/
def number? : Value → Option Number
  | .bool b => some (.whole (if b then 1 else 0))
  | .int n => some (.whole n)
  | .float d => d.number?
  | _ => none

/-- Whether two values are the same number. -/
def sameNumber (v w : Value) : Bool :=
  match v.number?, w.number? with
  | some a, some b => a == b
  | _, _ => false

mutual

/-- Equality of values. -/
def eqv : Value → Value → Bool
  | .null, .null => true
  | .text s, .text t => s == t
  | .list xs, .list ys => eqvList xs ys
  | .tuple xs, .tuple ys => eqvList xs ys
  | .doc xs, .doc ys => xs.length == ys.length && eqvEntries xs ys
  | v, w => sameNumber v w
termination_by structural v => v

/-- Equality item by item. -/
def eqvList : List Value → List Value → Bool
  | [], [] => true
  | x :: xs, y :: ys => eqv x y && eqvList xs ys
  | _, _ => false
termination_by structural xs => xs

/-- Every entry of the first document has an equal value under the same name in the second. -/
def eqvEntries : List (String × Value) → Document → Bool
  | [], _ => true
  | (name, v) :: rest, ys =>
    (match Assoc.get? ys name with
      | some w => eqv v w
      | none => false) && eqvEntries rest ys
termination_by structural xs => xs

end

/-- Only null is equal to null. -/
@[simp] theorem eqv_null_right {v : Value} : eqv v .null = v.isNull := by
  cases v with
  | float d => cases d <;> rfl
  | _ => rfl

end Value

end Provisioner
