/-!
# Excerpts

A text that is quoted in a message is shortened if its UTF-8 form is longer than fifty bytes: its
first 25 bytes, three dots, and its last 24 bytes are shown. A character that the cut would
divide is left out on either side.

## Main definitions

* `Text.takeBytes` — the characters that fit whole into so many bytes
* `Text.excerpt` — a text, shortened if it is long
-/

namespace Provisioner

namespace Text

/-- The longest beginning whose characters fit into `budget` bytes. -/
def takeBytes : Nat → List Char → List Char
  | _, [] => []
  | budget, c :: rest =>
    if c.utf8Size ≤ budget then c :: takeBytes (budget - c.utf8Size) rest else []

/-- The longest end whose characters fit into `budget` bytes. -/
def takeBytesRight (budget : Nat) (cs : List Char) : List Char :=
  (takeBytes budget cs.reverse).reverse

/-- A text, shortened in the middle if it is longer than fifty bytes. -/
def excerpt (s : String) : String :=
  if s.utf8ByteSize ≤ 50 then s
  else String.ofList (takeBytes 25 s.toList ++ ['.', '.', '.'] ++ takeBytesRight 24 s.toList)

end Text

end Provisioner
