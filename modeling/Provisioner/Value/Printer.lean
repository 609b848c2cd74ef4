import Provisioner.Double.Decimal
import Provisioner.Text.Quoted
import Provisioner.Value.Basic

/-!
# Text of values

Values appear in the names of indexes, in descriptions and in messages. A text that stands alone
is inserted as it is; inside another value it is quoted, and everything else has one form
wherever it stands.

## Main definitions

* `Value.render` — a value as it stands inside another one
* `Value.shown` — a value as it is inserted into a line
-/

namespace Provisioner

namespace Value

/-- Items separated by commas. -/
def commas (items : List String) : String := ", ".intercalate items

mutual

/-- A value as it stands inside another one. -/
def render : Value → String
  | .null => "None"
  | .bool b => if b then "True" else "False"
  | .int n => toString n
  | .float d => d.render
  | .text s => Text.quoted s
  | .list items => "[" ++ commas (renderItems items) ++ "]"
  | .tuple items =>
    match renderItems items with
    | [item] => "(" ++ item ++ ",)"
    | rendered => "(" ++ commas rendered ++ ")"
  | .doc entries => "\x7b" ++ commas (renderEntries entries) ++ "\x7d"
termination_by structural v => v

/-- The items of a list or tuple. -/
def renderItems : List Value → List String
  | [] => []
  | v :: rest => render v :: renderItems rest
termination_by structural items => items

/-- The entries of a document, each a quoted name, a colon and a value. -/
def renderEntries : List (String × Value) → List String
  | [] => []
  | (name, v) :: rest => (Text.quoted name ++ ": " ++ render v) :: renderEntries rest
termination_by structural entries => entries

end

/-- A value as it is inserted into a line: a text as it is, anything else as inside a value. -/
def shown : Value → String
  | .text s => s
  | v => v.render

@[simp] theorem shown_text (s : String) : shown (.text s) = s := rfl

end Value

end Provisioner
