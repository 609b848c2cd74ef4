import Provisioner.Text.Printable

/-!
# Quoted text

Inside a value, a text is shown between quotes. Single quotes are used unless the text contains
one and no double quote. The quote in use and the backslash are preceded by a backslash, line
feed, carriage return and tab are written `\n`, `\r` and `\t`, and any other character that is not
printable by its number: `\x` with two, `\u` with four or `\U` with eight hexadecimal digits in
lower case, whichever is the first to hold it.

Bytes are shown in the same way, as if they were characters, but only those of ASCII stand for
themselves.

## Main definitions

* `Text.hex` — a number in hexadecimal, with leading zeros
* `Text.quote` — the quote that a text is shown in
* `Text.escape` — how a character is shown between quotes
* `Text.quoted`, `quotedBytes` — a text, and bytes, between quotes
-/

namespace Provisioner

namespace Text

/-- The last `width` hexadecimal digits of a number. -/
def hex : Nat → Nat → List Char
  | 0, _ => []
  | width + 1, n => hex width (n / 16) ++ [Nat.digitChar (n % 16)]

/-- The quote that a text is shown in. -/
def quote (cs : List Char) : Char :=
  if '\'' ∈ cs ∧ '"' ∉ cs then '"' else '\''

/-- A character shown by its number. -/
def numbered (n : Nat) : List Char :=
  if n < 0x100 then '\\' :: 'x' :: hex 2 n
  else if n < 0x10000 then '\\' :: 'u' :: hex 4 n
  else '\\' :: 'U' :: hex 8 n

/-- How a character is shown between quotes. -/
def escape (quote c : Char) : List Char :=
  if c = quote ∨ c = '\\' then ['\\', c]
  else if c = '\n' then ['\\', 'n']
  else if c = '\r' then ['\\', 'r']
  else if c = '\t' then ['\\', 't']
  else if isPrintable c then [c]
  else numbered c.toNat

/-- A text between quotes. -/
def quoted (s : String) : String :=
  let cs := s.toList
  let q := quote cs
  String.ofList (q :: cs.flatMap (escape q) ++ [q])

/-- How a byte is shown between quotes. -/
def escapeByte (quote : Char) (b : UInt8) : List Char :=
  if b < 0x7F then escape quote (Char.ofNat b.toNat) else numbered b.toNat

/-- Bytes between quotes. -/
def quotedBytes (bs : List UInt8) : String :=
  let q := quote (bs.map fun b => Char.ofNat b.toNat)
  String.ofList (q :: bs.flatMap (escapeByte q) ++ [q])

end Text

end Provisioner
