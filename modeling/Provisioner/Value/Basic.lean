import Provisioner.Assoc
import Provisioner.Double.Basic

/-!
# Values

What stands in a document of the store, in an option of an index, or in an argument whose type
nobody has checked yet. Such values are the business of this library: an existing index is
described by a document that someone else wrote, and it has to be compared with a declaration
whatever it contains.

A `doc` keeps the order of its entries, which is shown but does not count when two documents are
compared. A `tuple` is a row of fixed length, such as a field with its direction, and is never
equal to a `list`.

## Main definitions

* `Value`, `Document` — values, and the entries of a document
* `Value.Kind`, `Value.kind`, `Kind.name` — the kinds of value and the names they have in messages
* `Value.truth` — whether a value counts as set where a yes or no is asked for
* `Document.field` — the value of an entry, `null` if there is none
-/

namespace Provisioner

/-- A value of a document. -/
inductive Value
  | null
  | bool (b : Bool)
  | int (n : Int)
  | float (d : Double)
  | text (s : String)
  | list (items : List Value)
  | tuple (items : List Value)
  | doc (entries : List (String × Value))

instance : Inhabited Value := ⟨.null⟩

/-- The entries of a document, in order. -/
abbrev Document : Type := Assoc Value

namespace Value

/-- The kinds of value. -/
inductive Kind
  | null
  | bool
  | int
  | float
  | text
  | list
  | tuple
  | doc
deriving DecidableEq

/-- The name of a kind in messages. -/
def Kind.name : Kind → String
  | .null => "NoneType"
  | .bool => "bool"
  | .int => "int"
  | .float => "float"
  | .text => "str"
  | .list => "list"
  | .tuple => "tuple"
  | .doc => "dict"

/-- The kind of a value. -/
def kind : Value → Kind
  | .null => .null
  | .bool _ => .bool
  | .int _ => .int
  | .float _ => .float
  | .text _ => .text
  | .list _ => .list
  | .tuple _ => .tuple
  | .doc _ => .doc

/-- Whether a value counts as set. Null, zeros and everything empty do not; `nan` does. -/
def truth : Value → Bool
  | .null => false
  | .bool b => b
  | .int n => n != 0
  | .float d => !d.isZero
  | .text s => s != ""
  | .list items => !items.isEmpty
  | .tuple items => !items.isEmpty
  | .doc entries => !entries.isEmpty

/-- Whether a value is null. -/
def isNull : Value → Bool
  | .null => true
  | _ => false

@[simp] theorem isNull_eq_true_iff {v : Value} : v.isNull = true ↔ v = .null := by
  cases v <;> simp [isNull]

/-- A pair, as it stands in a list of keys. -/
def pair (first second : Value) : Value := .tuple [first, second]

end Value

namespace Document

/-- The value of an entry; an absent entry counts as null. -/
def field (d : Document) (name : String) : Value := (Assoc.get? d name).getD .null

end Document

end Provisioner
