import Provisioner.Procedure
import Provisioner.Settings.Basic

/-!
# Sessions

One run of a program, with what it remembers from step to step: settings are read once and then
stay in force until they are forgotten, and a client is opened once and then used until it has
been closed. Beside that a session sees its environment and its environment file, which may
change under its feet, and knows from which level on records are shown.

An action is a step of a session: a procedure that may also read and write what the session
remembers. What an action has changed in the session stays even if the action then fails.

## Main definitions

* `Session` — what is remembered
* `Activity` — steps of a session, with `Activity.attempt`, `perform`, `require`, `log`
* `Session.settingsInForce`, `forgetSettings` — the settings of a session

## Main results

* `Session.settingsInForce_of_some` — settings that have been read are not read again
-/

namespace Provisioner

/-- What a program remembers from step to step. -/
structure Session where
  environment : Assoc String
  envFile : Option String
  settings : Option Settings
  client : Option Nat
  /-- The threshold for records, once it has been set up. -/
  threshold : Option Nat

/-- Steps of a session: they make calls, leave notices, remember things, and may fail. -/
abbrev Activity (α : Type) : Type := ExceptT Error (StateT Session Procedure) α

namespace Activity

variable {α β : Type}

/-- An action from what it does in a given session. -/
def ofRun (f : Session → Procedure (Except Error α × Session)) : Activity α := ExceptT.mk f

/-- What an action does in a given session. -/
def runIn (a : Activity α) (s : Session) : Procedure (Except Error α × Session) := a s

/-- Go on with a value, or end with the error in its place. -/
def require (e : Except Error α) : Activity α := ofRun fun s => .done (e, s)

/-- An attempt that knows nothing of the session. -/
def perform (a : Attempt α) : Activity α :=
  ofRun fun s => Procedure.bind a fun outcome => .done (outcome, s)

/-- Make a call and wait for its answer. -/
def call (c : Call) : Activity c.Answer := perform (Attempt.call c)

/-- Leave a record. -/
def log (level : Level) (message : String) : Activity Unit := perform (Attempt.log level message)

/-- The session as it is. -/
def session : Activity Session := ofRun fun s => .done (.ok s, s)

/-- Change the session. -/
def update (f : Session → Session) : Activity Unit := ofRun fun s => .done (.ok (), f s)

/-- An action whose error is an outcome and does not end the work. -/
def attempt (a : Activity α) : Activity (Except Error α) :=
  ofRun fun s => Procedure.bind (a.runIn s) fun r => .done (.ok r.1, r.2)

end Activity

namespace Session

open Activity

/-- A session that remembers nothing yet. -/
def start (environment : Assoc String) (envFile : Option String) : Session :=
  { environment, envFile, settings := none, client := none, threshold := none }

/-- The settings as the environment and the file have them now. -/
def readSettings (s : Session) : Except Error Settings :=
  Settings.read [] s.environment s.envFile

/-- The settings in force: those that have been read, or else those that are read now. A reading
that fails is not remembered. -/
def settingsInForce : Activity Settings := ofRun fun s =>
  match s.settings with
  | some settings => .done (.ok settings, s)
  | none =>
    match s.readSettings with
    | .ok settings => .done (.ok settings, { s with settings := some settings })
    | .error e => .done (.error e, s)

/-- Read the settings anew when they are needed next. -/
def forgetSettings (s : Session) : Session := { s with settings := none }

theorem settingsInForce_of_some {s : Session} {settings : Settings}
    (h : s.settings = some settings) :
    settingsInForce.runIn s = .done (.ok settings, s) := by
  simp only [settingsInForce, runIn, ofRun, ExceptT.mk, h]

end Session

end Provisioner
