import Provisioner.Session.Basic

/-!
# The connection

A session has at most one client at a time. It is opened when it is first needed, with the address
of the settings in force, and closed at the end. A client that could not be opened is not
remembered, so that the next step tries again; one that could not be closed stays, and can be
closed again.

## Main definitions

* `Session.openedClient` — the client of the session, opened if there is none
* `Session.ping`, `database`, `closeClient` — what is done with it
-/

namespace Provisioner

namespace Session

open Activity

/-- The client of the session, opened if there is none. -/
def openedClient : Activity Nat := do
  let s ← session
  match s.client with
  | some client => return client
  | none =>
    let settings ← settingsInForce
    let client ← call (.openClient settings.uri)
    update fun s => { s with client := some client }
    return client

/-- See whether the store answers. -/
def ping : Activity Unit := do
  let client ← openedClient
  call (.ping client)

/-- A database by its name, or the database of the settings if no name is given. -/
def database (name : Option String) : Activity String := do
  let client ← openedClient
  let name ← match name.getD "" with
    | "" => Settings.database <$> settingsInForce
    | given => pure given
  call (.openDatabase client name)
  return name

/-- Close the client, if there is one, and forget it. -/
def closeClient : Activity Unit := do
  let s ← session
  match s.client with
  | some client =>
    call (.close client)
    update fun s => { s with client := none }
  | none => return ()

end Session

end Provisioner
