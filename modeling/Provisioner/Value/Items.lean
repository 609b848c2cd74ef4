import Provisioner.Error

/-!
# Items of a value

Keys of an index come as a list of pairs, but nothing guarantees it: the value in their place may
be anything. Whatever has items can be gone through, lists and tuples by their items, texts by
their characters, documents by their names; and whatever has exactly two items can be taken for a
pair. Everything else is an error that tells the kind of value or the number of items found.

## Main definitions

* `Value.items` — the items of a value
* `Value.unpack` — the two items of a pair
* `Value.pairs` — the items of a value, each taken for a pair
* `Value.texts` — items that all have to be texts

## Main results

* `Value.unpack_pair`, `pairs_ofPairs` — a list of pairs is read back
-/

namespace Provisioner

namespace Value

/-- The items of a value, if it is of a kind that has items. -/
def items? : Value → Option (List Value)
  | .list items => some items
  | .tuple items => some items
  | .text s => some (s.toList.map fun c => .text c.toString)
  | .doc entries => some (entries.map fun e => .text e.1)
  | _ => none

/-- The items of a value. -/
def items (v : Value) : Except Error (List Value) :=
  match v.items? with
  | some items => .ok items
  | none => .error (.notIterable v.kind)

/-- The two items of a pair. -/
def unpack (v : Value) : Except Error (Value × Value) :=
  match v.items? with
  | some [first, second] => .ok (first, second)
  | some items => .error (if items.length < 2 then .tooFewItems items.length else .tooManyItems)
  | none => .error (.notUnpackable v.kind)

/-- Every item taken for a pair, up to the first that is none. -/
def unpackAll : List Value → Except Error (List (Value × Value))
  | [] => .ok []
  | v :: rest => do
    let p ← v.unpack
    let ps ← unpackAll rest
    return p :: ps

/-- The items of a value, each taken for a pair. -/
def pairs (v : Value) : Except Error (List (Value × Value)) := v.items >>= unpackAll

/-- Items that all have to be texts; the first that is not is reported with its position, counted
from `position`. -/
def textsFrom (position : Nat) : List Value → Except Error (List String)
  | [] => .ok []
  | .text s :: rest => do
    let ss ← textsFrom (position + 1) rest
    return s :: ss
  | v :: _ => .error (.notText position v.kind)

/-- Items that all have to be texts. -/
def texts (vs : List Value) : Except Error (List String) := textsFrom 0 vs

/-- A list of pairs as a value. -/
def ofPairs (ps : List (Value × Value)) : Value := .list (ps.map fun p => pair p.1 p.2)

@[simp] theorem unpack_pair (first second : Value) :
    (pair first second).unpack = .ok (first, second) := rfl

theorem unpackAll_map_pair (ps : List (Value × Value)) :
    unpackAll (ps.map fun p => pair p.1 p.2) = .ok ps := by
  induction ps with
  | nil => rfl
  | cons p ps ih => simp [unpackAll, ih]; rfl

/-- A list of pairs is read back. -/
@[simp] theorem pairs_ofPairs (ps : List (Value × Value)) : (ofPairs ps).pairs = .ok ps :=
  unpackAll_map_pair ps

end Value

end Provisioner
