import Provisioner.Session.Basic

/-!
# Records on the screen

Once logging has been set up, a record is shown if its level reaches the threshold, with the
time, the level and the message in columns. Before that, warnings and graver records are shown
by their message alone. The first set-up decides; later ones change nothing.

## Main definitions

* `Log.shown` — the records that are shown, as one text
* `Session.configureLogging` — set up logging by the name of a threshold
-/

namespace Provisioner

namespace Log

/-- A record in columns. -/
def columns (time : String) (level : Level) (message : String) : String :=
  time ++ " | " ++ level.name ++ " | " ++ message ++ "\n"

/-- A record as it is shown, if it is. -/
def line (threshold : Option Nat) (time : String) (level : Level) (message : String) : String :=
  match threshold with
  | some t => if t ≤ level.rank then columns time level message else ""
  | none => if Level.warning.rank ≤ level.rank then message ++ "\n" else ""

/-- The records that are shown, as one text. -/
def shown (threshold : Option Nat) (time : String) (records : List (Level × String)) : String :=
  String.join (records.map fun r => line threshold time r.1 r.2)

end Log

namespace Session

open Activity

/-- The threshold of a name. -/
def findThreshold (name : String) : Except Error Nat :=
  match Level.threshold? name with
  | some t => .ok t
  | none => .error (.unknownThreshold name)

/-- Set up logging unless it has been set up. -/
def setThreshold (t : Nat) (s : Session) : Session :=
  { s with threshold := some (s.threshold.getD t) }

/-- Set up logging by the name of a threshold. An unknown name is an error in any case. -/
def configureLogging (name : String) : Activity Unit := do
  let t ← require (findThreshold name)
  update (setThreshold t)

theorem findThreshold_name (l : Level) : findThreshold l.name = .ok l.rank := by
  simp [findThreshold, Level.threshold?_name]

end Session

end Provisioner
