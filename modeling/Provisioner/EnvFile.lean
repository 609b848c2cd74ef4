import Provisioner.Assoc
import Provisioner.Text.Blank

/-!
# Environment files

A text that assigns values to names, one statement after the other:

* a statement may begin with the word `export`;
* a name stands between single quotes, or reaches to the next blank, equals sign or number sign;
* a value follows an equals sign. Between quotes of either kind, which may span lines, a backslash
  protects the character after it from being taken for the closing quote. Without quotes the value
  is the rest of the line, up to a number sign after a blank, and without the blanks around it;
* a number sign begins a comment to the end of the line.

A protected backslash or single quote stands for itself, and between double quotes so does a
double quote, while some letters stand for control characters. Before any other character the
backslash is part of the value.

A name without an equals sign is entered without a value. It hides what an earlier statement
assigned to the name. A statement that cannot be read is skipped from where the reading got stuck
to the end of that line.

In every value, a name in braces after a dollar sign refers to an earlier statement or else to the
environment. It may be followed by a colon, a hyphen and a text that stands in for a name that is
in neither.

## Implementation notes

All line ends become line feeds before anything is read, and a byte order mark at the beginning of
a text is left out. The blanks before an unquoted value are read together with it, because a value
that is missing may be followed by a comment like any other.

## Main definitions

* `EnvFile.statements` — the assignments of a text as they stand
* `EnvFile.expand` — a value with its references replaced
* `EnvFile.read` — the values that a text assigns
-/

namespace Provisioner

namespace EnvFile

/-- Where a reading got stuck: the characters that were still to be read. A reading that does
not get stuck yields something with the characters that follow it. -/
abbrev Stuck : Type := List Char

/-- A text without the byte order mark that it may begin with. -/
def afterMark : List Char → List Char
  | '\ufeff' :: rest => rest
  | cs => cs

/-- All line ends as line feeds. -/
def unifyLines : List Char → List Char
  | [] => []
  | '\r' :: rest =>
    match rest with
    | '\n' :: _ => unifyLines rest
    | _ => '\n' :: unifyLines rest
  | c :: rest => c :: unifyLines rest

/-- A blank inside a line. -/
def isGap (c : Char) : Bool := Text.isBlank c && c ≠ '\n'

/-- The characters after the end of this line. -/
def nextLine (cs : List Char) : List Char := (cs.dropWhile (· ≠ '\n')).drop 1

/-! ### Values -/

/-- What stands before the closing quote, and what follows it. The flag tells that a backslash
protects the next character. -/
def closing (quote : Char) : Bool → List Char → Option (List Char × List Char)
  | _, [] => none
  | true, c :: rest => (closing quote false rest).map fun found => (c :: found.1, found.2)
  | false, c :: rest =>
    if c = quote then some ([], rest)
    else (closing quote (c == '\\') rest).map fun found => (c :: found.1, found.2)

/-- What a protected character means between single quotes. -/
def singleMeaning? (c : Char) : Option Char := if c = '\\' ∨ c = '\'' then some c else none

/-- What a protected character means between double quotes. -/
def doubleMeaning? : Char → Option Char
  | '\\' => some '\\'
  | '\'' => some '\''
  | '"' => some '"'
  | 'a' => some '\x07'
  | 'b' => some '\x08'
  | 'f' => some '\x0c'
  | 'n' => some '\n'
  | 'r' => some '\r'
  | 't' => some '\t'
  | 'v' => some '\x0b'
  | _ => none

/-- A quoted value without its backslashes; a backslash before a character that has no meaning
stays. The flag tells that a backslash has been read and waits for the character after it. Every
backslash has a meaning after a backslash. -/
def unescape (meaning? : Char → Option Char) : Bool → List Char → List Char
  | false, [] => []
  | true, [] => ['\\']
  | false, c :: rest =>
    if c = '\\' then unescape meaning? true rest else c :: unescape meaning? false rest
  | true, c :: rest =>
    match meaning? c with
    | some d => d :: unescape meaning? false rest
    | none => '\\' :: c :: unescape meaning? false rest

/-- A line without the comment that a blank and a number sign begin. -/
def beforeComment : List Char → List Char
  | [] => []
  | c :: rest =>
    match Text.isBlank c, rest.dropWhile Text.isBlank with
    | true, '#' :: _ => []
    | _, _ => c :: beforeComment rest

/-- A value after the equals sign. -/
def value (cs : List Char) : Except Stuck (List Char × List Char) :=
  let start := cs.dropWhile isGap
  let quoted (quote : Char) (meaning? : Char → Option Char) (rest : List Char) :=
    match closing quote false rest with
    | some (v, after) => .ok (unescape meaning? false v, after)
    | none => .error start
  match start with
  | '\'' :: rest => quoted '\'' singleMeaning? rest
  | '"' :: rest => quoted '"' doubleMeaning? rest
  | _ =>
    let line := beforeComment (cs.takeWhile (· ≠ '\n'))
    .ok (Text.dropBlanksRight (line.dropWhile Text.isBlank), cs.dropWhile (· ≠ '\n'))

/-! ### Statements -/

/-- The characters after a leading `export`. -/
def afterExport (cs : List Char) : List Char :=
  let word := "export".toList
  let rest := cs.drop word.length
  if cs.take word.length = word ∧ rest.head?.any isGap then rest.dropWhile isGap else cs

/-- A name. -/
def name (cs : List Char) : Except Stuck (List Char × List Char) :=
  let found (inside : Char → Bool) (cs : List Char) := (cs.takeWhile inside, cs.dropWhile inside)
  match cs with
  | '\'' :: rest =>
    match found (· ≠ '\'') rest with
    | (c :: n, _ :: after) => .ok (c :: n, after)
    | _ => .error cs
  | _ =>
    match found (fun c => c ≠ '=' && c ≠ '#' && !Text.isBlank c) cs with
    | (c :: n, after) => .ok (c :: n, after)
    | _ => .error cs

/-- The end of a statement: blanks, perhaps a comment, and the end of the line. -/
def ending (cs : List Char) : Except Stuck (Unit × List Char) :=
  match cs.dropWhile isGap with
  | [] => .ok ((), [])
  | '\n' :: rest => .ok ((), rest)
  | '#' :: rest => .ok ((), nextLine rest)
  | _ => .error cs

/-- A name, perhaps with an equals sign and a value. -/
def assignment (cs : List Char) : Except Stuck ((String × Option String) × List Char) := do
  let (n, rest) ← name cs
  match rest.dropWhile isGap with
  | '=' :: rest =>
    let (v, rest) ← value rest
    let (_, rest) ← ending rest
    return ((String.ofList n, some (String.ofList v)), rest)
  | rest =>
    let (_, rest) ← ending rest
    return ((String.ofList n, none), rest)

/-- A statement that begins with the given characters, none if it is a comment or cannot be
read, and what follows it. -/
def statement (cs : List Char) : Option (String × Option String) × List Char :=
  let cs := afterExport cs
  match cs with
  | '#' :: rest => (none, nextLine rest)
  | _ =>
    match assignment cs with
    | .ok (a, rest) => (some a, rest)
    | .error rest => (none, nextLine rest)

/-- At most `fuel` statements. -/
def statementsWithin : Nat → List Char → List (String × Option String)
  | 0, _ => []
  | fuel + 1, cs =>
    match cs.dropWhile Text.isBlank with
    | [] => []
    | c :: rest =>
      let (found, rest) := statement (c :: rest)
      found.toList ++ statementsWithin fuel rest

/-- The assignments of a text as they stand. Every statement takes at least one character. -/
def statements (text : String) : List (String × Option String) :=
  let cs := unifyLines (afterMark text.toList)
  statementsWithin cs.length cs

/-! ### References -/

/-- The name and the stand-in of a reference after its opening brace, and what follows the
closing one. -/
def reference? (cs : List Char) : Option (String × String × List Char) :=
  let n := String.ofList (cs.takeWhile fun c => c ≠ '\x7d' && c ≠ ':')
  match cs.dropWhile fun c => c ≠ '\x7d' && c ≠ ':' with
  | '\x7d' :: after => some (n, "", after)
  | ':' :: '-' :: rest =>
    match rest.dropWhile (· ≠ '\x7d') with
    | _ :: after => some (n, String.ofList (rest.takeWhile (· ≠ '\x7d')), after)
    | [] => none
  | _ => none

/-- Replace references, the first `fuel` characters and references considered. -/
def expandWithin (meaning : String → String → String) : Nat → List Char → List Char
  | 0, cs => cs
  | _, [] => []
  | fuel + 1, c :: rest =>
    match c, rest with
    | '$', '\x7b' :: inside =>
      match reference? inside with
      | some (n, standIn, after) => (meaning n standIn).toList ++ expandWithin meaning fuel after
      | none => c :: expandWithin meaning fuel rest
    | _, _ => c :: expandWithin meaning fuel rest

/-- A value with its references replaced by what they mean. -/
def expand (meaning : String → String → String) (value : String) : String :=
  String.ofList (expandWithin meaning value.toList.length value.toList)

/-- What a reference means: the value of an earlier statement, nothing if that has none, the
value of the environment, or the stand-in. -/
def meaning (earlier : Assoc (Option String)) (environment : Assoc String)
    (name standIn : String) : String :=
  match Assoc.get? earlier name with
  | some value => value.getD ""
  | none => (Assoc.get? environment name).getD standIn

/-- Enter assignments after those that have been entered earlier. -/
def enter (environment : Assoc String) :
    List (String × Option String) → Assoc (Option String) → Assoc (Option String)
  | [], earlier => earlier
  | (name, value) :: rest, earlier =>
    enter environment rest
      (Assoc.set earlier name (value.map (expand (meaning earlier environment))))

/-- The values that a text assigns, in the order in which the names first occur. -/
def read (environment : Assoc String) (text : String) : Assoc (Option String) :=
  enter environment (statements text) []

end EnvFile

end Provisioner
