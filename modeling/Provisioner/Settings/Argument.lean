import Provisioner.Value.Printer

/-!
# What a caller gives for a setting

A caller can give anything for a setting: a value of the kinds that documents have, bytes, or an
object of some type that is known to the caller only. Where a text is asked for, a text is taken as
it is, whatever the subtype of texts to which it belongs, and bytes are taken for the text of which
they are the UTF-8 form, if there is one. Numbers are not taken for their digits. An object may
stand for a text, as the members of an enumeration stand for their values; besides this nothing is
known of it but what a message shows.

## Main definitions

* `Settings.Argument` — what is given
* `Settings.Argument.text?` — the text that it is taken for
* `Settings.Argument.render`, `typeName` — how it is shown
-/

namespace Provisioner

namespace Settings

/-- Whether bytes can be changed in their place. -/
inductive ByteKind
  | fixed
  | mutable
deriving DecidableEq

/-- What a caller gives for a setting. Of an object the name of its type is given, its text in
messages, and the text that it stands for, if it stands for one. -/
inductive Argument
  | value (v : Value)
  | bytes (kind : ByteKind) (data : ByteArray)
  | object (type shown : String) (text? : Option String)

namespace Argument

/-- A text as it is given. -/
@[match_pattern]
abbrev text (s : String) : Argument := .value (.text s)

/-- The text that an argument is taken for where a text is asked for. -/
def text? : Argument → Option String
  | .text s => some s
  | .value _ => none
  | .bytes _ data => String.fromUTF8? data
  | .object _ _ text? => text?

/-- The name of the type in messages. -/
def typeName : Argument → String
  | .value v => v.kind.name
  | .bytes .fixed _ => "bytes"
  | .bytes .mutable _ => "bytearray"
  | .object type _ _ => type

/-- An argument as messages show it. -/
def render : Argument → String
  | .value v => v.render
  | .bytes .fixed data => "b" ++ Text.quotedBytes data.data.toList
  | .bytes .mutable data => "bytearray(b" ++ Text.quotedBytes data.data.toList ++ ")"
  | .object _ shown _ => shown

end Argument

end Settings

end Provisioner
