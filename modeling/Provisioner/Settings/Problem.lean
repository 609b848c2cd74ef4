import Provisioner.Settings.Argument
import Provisioner.Text.Excerpt

/-!
# Fields of the settings, and what can be wrong with them

There are three settings, and each has a rule for its value. A value that breaks its rule is
reported together with the field and the rule, so that whoever wrote it can find it. Bytes break a
rule of their own: they are no text only if they are not the UTF-8 form of one.

## Main definitions

* `Settings.Field`, `Field.name` — the settings and their names
* `Settings.Rule`, `Field.rule` — what a value has to be
* `Settings.Problem`, `Problem.rule` — a field with a value that is not valid, and the rule that the
  value breaks
* `Settings.report` — the text that lists all problems
-/

namespace Provisioner

namespace Settings

/-- The settings. -/
inductive Field
  | uri
  | database
  | level
deriving DecidableEq

/-- All settings, in the order in which they are read and reported. -/
def Field.all : List Field := [.uri, .database, .level]

/-- The name of a setting. -/
def Field.name : Field → String
  | .uri => "mongodb_uri"
  | .database => "auth_db_name"
  | .level => "log_level"

/-- What a value has to be. -/
inductive Rule
  | text
  | encoding
  | level
deriving DecidableEq

/-- The rule of a setting. -/
def Field.rule : Field → Rule
  | .uri => .text
  | .database => .text
  | .level => .level

/-- The short name of a rule. -/
def Rule.name : Rule → String
  | .text => "string_type"
  | .encoding => "string_unicode"
  | .level => "literal_error"

/-- The rule as a demand. -/
def Rule.demand : Rule → String
  | .text => "Input should be a valid string"
  | .encoding => "Input should be a valid string, unable to parse raw data as a unicode string"
  | .level => "Input should be 'DEBUG', 'INFO', 'WARNING', 'ERROR' or 'CRITICAL'"

/-- A setting with a value that breaks its rule. -/
structure Problem where
  field : Field
  value : Argument

/-- The rule that is broken. -/
def Problem.rule (p : Problem) : Rule :=
  match p.field.rule, p.value with
  | .text, .bytes _ _ => .encoding
  | rule, _ => rule

/-- A problem in two lines: the field, and below it the demand and the value. -/
def Problem.report (p : Problem) : String :=
  p.field.name ++ "\n  " ++ p.rule.demand ++ " [type=" ++ p.rule.name
    ++ ", input_value=" ++ Text.excerpt p.value.render
    ++ ", input_type=" ++ p.value.typeName ++ "]"

/-- All problems of one reading, preceded by their number. -/
def report (problems : List Problem) : String :=
  "\n".intercalate
    ((toString problems.length ++ " validation error" ++ (if problems.length = 1 then "" else "s")
      ++ " for Settings") :: problems.map Problem.report)

end Settings

end Provisioner
