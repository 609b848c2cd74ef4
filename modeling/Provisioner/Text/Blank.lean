/-!
# Blank characters

The characters that separate words and lines in an environment file: the ASCII controls for
tabulation, line and page ends and for file, group, record and unit ends, the space, and the
spaces and line ends of Unicode.

## Main definitions

* `Text.blanks`, `isBlank` — the blank characters
* `Text.dropBlanksRight` — a text without the blanks at its end
-/

namespace Provisioner

namespace Text

/-- The blank code points, as closed ranges in increasing order. -/
def blanks : List (Nat × Nat) := [
  (9, 13), (28, 32), (133, 133), (160, 160), (5760, 5760), (8192, 8202), (8232, 8233),
  (8239, 8239), (8287, 8287), (12288, 12288)]

/-- Whether a character is blank. -/
def isBlank (c : Char) : Bool :=
  blanks.any fun range => range.1 ≤ c.toNat && c.toNat ≤ range.2

/-- A text without the blanks at its end. -/
def dropBlanksRight (cs : List Char) : List Char := (cs.reverse.dropWhile isBlank).reverse

end Text

end Provisioner
