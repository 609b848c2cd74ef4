import Provisioner.Error
import Provisioner.Level
import Provisioner.EnvFile
import Provisioner.Text.Spelling
import Provisioner.Text.Uppercase

/-!
# Settings

Which store to reach, which of its databases to bring up to the schema, and from which level on to
show records. Each setting takes its value from the first of four sources that has it: values given
by the caller, the environment, the environment file, and a default. In every source a name may be
spelled in any case. Of several spellings the caller's first one counts, and the last one of the
environment and of the file. An empty text is a value.

What comes out of the sources may be of any kind, since callers can give anything. Address and
database have to be texts, or to be taken for texts; the level has to be a text whose upper case
names one. All settings are judged, and all that fail are reported together.

## Main definitions

* `Settings` — the settings
* `Settings.Sources`, `Sources.value` — the sources, and the value that wins
* `Settings.spellings` — the values that a source has for a setting
* `Settings.ofValues` — settings from values, or what is wrong with them
* `Settings.load`, `read` — settings from their sources, or an error

## Main results

* `Settings.Sources.value_given`, `value_environment` — a higher source hides the lower ones
-/

namespace Provisioner

/-- Where the store is, which database is meant, and what is shown. -/
structure Settings where
  uri : String
  database : String
  level : Level
deriving DecidableEq

namespace Settings

/-- The value of a setting that no source has. -/
def Field.default : Field → String
  | .uri => "mongodb://mongodb:27017"
  | .database => "appdb"
  | .level => "INFO"

/-! ### Sources -/

/-- What the caller gives, the environment, and what the environment file assigns. -/
structure Sources where
  given : Assoc Argument
  environment : Assoc String
  file : Assoc (Option String)

/-- The values of the entries whose names spell the name of a setting, in their order. -/
def spellings {α : Type} (entries : Assoc α) (f : Field) : List α :=
  (entries.filter fun e => Text.spells e.1 f.name).map Prod.snd

/-- The text that the environment, the file or the default has for a setting. -/
def Sources.text (s : Sources) (f : Field) : String :=
  match (spellings s.environment f).getLast? with
  | some text => text
  | none => (spellings s.file f).getLast?.join.getD f.default

/-- The value of a setting from the first source that has it. -/
def Sources.value (s : Sources) (f : Field) : Argument :=
  match (spellings s.given f).head? with
  | some v => v
  | none => .text (s.text f)

/-- The sources: what the caller gives, the environment, and what the environment file assigns, if
there is one. -/
def Sources.of (given : Assoc Argument) (environment : Assoc String) (envFile : Option String) :
    Sources :=
  { given, environment
    file := match envFile with
      | some text => EnvFile.read environment text
      | none => [] }

theorem Sources.value_given {s : Sources} {f : Field} {v : Argument}
    (h : (spellings s.given f).head? = some v) : s.value f = v := by
  simp [value, h]

theorem Sources.value_environment {s : Sources} {f : Field} {text : String}
    (hg : (spellings s.given f).head? = none)
    (h : (spellings s.environment f).getLast? = some text) : s.value f = .text text := by
  simp [value, hg, Sources.text, h]

/-! ### Judging values -/

/-- A value that has to be a text, or to be taken for one. -/
def readText (f : Field) (value : Argument) : Except Problem String :=
  match value.text? with
  | some s => .ok s
  | none => .error { field := f, value }

/-- A value in the form in which it is judged as a level: a text in upper case. -/
def normalizeLevel : Argument → Argument
  | .text s => .text (Text.upper s)
  | value => value

/-- A value that has to name a level. -/
def readLevel (value : Argument) : Except Problem Level :=
  let value := normalizeLevel value
  let level? := match value with
    | .text s => Level.ofName? s
    | _ => none
  match level? with
  | some level => .ok level
  | none => .error { field := .level, value }

/-- The problem of a reading, if it has one. -/
def problemOf {α : Type} : Except Problem α → List Problem
  | .ok _ => []
  | .error p => [p]

/-- Settings from values; all problems are reported, in the order of the fields. -/
def ofValues (uri database level : Argument) : Except (List Problem) Settings :=
  match readText .uri uri, readText .database database, readLevel level with
  | .ok uri, .ok database, .ok level => .ok { uri, database, level }
  | uri, database, level =>
    .error (problemOf uri ++ problemOf database ++ problemOf level)

/-- Settings from their sources. -/
def ofSources (s : Sources) : Except (List Problem) Settings :=
  ofValues (s.value .uri) (s.value .database) (s.value .level)

/-- Settings from their sources, or an error with all problems. -/
def load (s : Sources) : Except Error Settings :=
  match ofSources s with
  | .ok settings => .ok settings
  | .error problems => .error (.invalidSettings problems)

/-- Settings from values that the caller gives, the environment and the environment file. -/
def read (given : Assoc Value) (environment : Assoc String) (envFile : Option String) :
    Except Error Settings :=
  load (Sources.of (given.map fun e => (e.1, .value e.2)) environment envFile)

end Settings

end Provisioner
