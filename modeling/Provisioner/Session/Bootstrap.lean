import Provisioner.Schema.Apply
import Provisioner.Session.Connection
import Provisioner.Session.Log

/-!
# The bootstrap

The whole run: read the settings, set up logging, connect, apply the schema, disconnect, and end
with a status. The client is closed whatever happens after the settings have been read, and an
error of the closing takes the place of an error before it. Errors are recorded and end the run
with a status of failure; only a cancellation is passed on, since it is not for this program to
handle.

## Main definitions

* `Session.applySchema` — connect, apply the schema, disconnect
* `Session.bootstrap` — the whole run, with its status
-/

namespace Provisioner

namespace Session

open Activity

/-- Connect to the store, see whether it answers, and apply the schema to a database. -/
def connectAndApply (target : String) : Activity Unit := do
  ping
  log .info "Connected to MongoDB"
  let opened ← database (some target)
  perform (Schema.apply opened)

/-- Connect, apply the schema to the database of the settings, and disconnect in any case. -/
def applySchema : Activity Unit := do
  let settings ← settingsInForce
  let outcome ← attempt (connectAndApply settings.database)
  closeClient
  log .info "Disconnected"
  require outcome

/-- The line above and below the heading. -/
def rule : String := String.ofList (List.replicate 60 '=')

/-- The records that open a run. -/
def announce (settings : Settings) : Activity Unit := do
  log .info rule
  log .info "Auth Schema Bootstrap"
  log .info ("Database: " ++ settings.database)
  log .info rule

/-- The status of a run that has ended normally. -/
def success : Nat := 0

/-- The status of a run that has failed. -/
def failure : Nat := 1

/-- The run with valid settings. -/
def bootstrapWith (settings : Settings) : Activity Nat := do
  configureLogging settings.level.name
  announce settings
  match ← attempt applySchema with
  | .ok () => return success
  | .error e =>
    if e.isCancellation then require (.error e)
    else
      log .error ("Schema bootstrap failed: " ++ e.message)
      return failure

/-- The whole run. Settings that cannot be read are recorded, and nothing else is done. -/
def bootstrap : Activity Nat := do
  match ← attempt settingsInForce with
  | .ok settings => bootstrapWith settings
  | .error e =>
    log .error ("Invalid configuration: " ++ e.message)
    return failure

end Session

end Provisioner
