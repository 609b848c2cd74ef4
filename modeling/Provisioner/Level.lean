/-!
# Levels

How grave a record is, and from which gravity on records are shown. A record has one of five
levels; what is shown is decided by a threshold, a number with which the number of the level is
compared. Thresholds have the names of the levels, two of them a second name, and there is one
below all levels.

## Main definitions

* `Level`, `Level.name`, `Level.ofName?` — the levels and their names
* `Level.rank` — the number of a level
* `Level.threshold?` — the threshold of a name

## Main results

* `Level.ofName?_eq_some_iff` — a name belongs to at most one level
* `Level.threshold?_name` — every level is a threshold under its own name
-/

namespace Provisioner

/-- How grave a record is. -/
inductive Level
  | debug
  | info
  | warning
  | error
  | critical
deriving DecidableEq

namespace Level

/-- The name of a level, in records and in settings. -/
def name : Level → String
  | .debug => "DEBUG"
  | .info => "INFO"
  | .warning => "WARNING"
  | .error => "ERROR"
  | .critical => "CRITICAL"

/-- The level of a name. -/
def ofName? (s : String) : Option Level :=
  if s = "DEBUG" then some .debug
  else if s = "INFO" then some .info
  else if s = "WARNING" then some .warning
  else if s = "ERROR" then some .error
  else if s = "CRITICAL" then some .critical
  else none

theorem ofName?_eq_some_iff {s : String} {l : Level} : ofName? s = some l ↔ s = l.name := by
  constructor
  · intro h
    unfold ofName? at h
    repeat' split at h
    all_goals first
      | (cases h; assumption)
      | exact absurd h (by simp)
  · rintro rfl
    cases l <;> decide

/-- The number of a level. -/
def rank : Level → Nat
  | .debug => 10
  | .info => 20
  | .warning => 30
  | .error => 40
  | .critical => 50

/-- The threshold of a name: that of a level, of one of the two other names, or the one below all
levels. -/
def threshold? (s : String) : Option Nat :=
  if s = "NOTSET" then some 0
  else if s = "WARN" then some warning.rank
  else if s = "FATAL" then some critical.rank
  else (ofName? s).map rank

theorem threshold?_name (l : Level) : threshold? l.name = some l.rank := by
  cases l <;> decide

end Level

end Provisioner
