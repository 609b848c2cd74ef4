/-!
# Spelling without regard to case

The names of variables may be spelled in any case. They are only ever compared with names in
lower-case ASCII letters and underscores, so of the lower-case mapping of Unicode only what ends
in ASCII matters: the capital letters of ASCII and the Kelvin sign. (The only other character
outside ASCII with an ASCII letter in its lower case is the dotted capital I, whose lower case has
a second character that is not ASCII, so that it spells no such name.)

## Main definitions

* `Text.lowerLetter` — a character in lower case, as far as ASCII words are concerned
* `Text.spells` — whether a text spells a word
-/

namespace Provisioner

namespace Text

/-- A character in lower case, as far as ASCII words are concerned. -/
def lowerLetter (c : Char) : Char := if c = '\u212a' then 'k' else c.toLower

/-- Whether a text is the given lower-case ASCII word in some mixture of cases. -/
def spells (s word : String) : Bool := s.toList.map lowerLetter == word.toList

end Text

end Provisioner
