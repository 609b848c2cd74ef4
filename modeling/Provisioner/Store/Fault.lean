import Provisioner.Store.Server

/-!
# Faults

A server need not do what it is asked. A fault says which calls it concerns, how many of them it
lets pass first, how many it then strikes, and with which error. A fault without an error
silently drops the effect of a call that changes something and has no power over other calls.

The faults are gone through in order for every call, and the first that strikes decides. A fault
that still lets calls pass counts this one, a spent one is passed over.

## Main definitions

* `Fault`, `Fault.concerns` — a fault, and the calls it concerns
* `Fault.strike` — what the faults do to a call, and what is left of them
* `FaultyServer.answer` — the answers of a server with faults
-/

namespace Provisioner

/-- A disturbance of some calls. -/
structure Fault where
  call : Call.Kind
  database : Option String
  collection : Option String
  name : Option String
  /-- How many calls are let pass first. -/
  skip : Nat
  /-- How many calls are struck after that, all of them if nothing is said. -/
  times : Option Nat
  /-- What a struck call fails with, if it fails. -/
  error : Option Error

namespace Fault

/-- A condition on what a call addresses; it holds of a call that addresses no such thing. -/
def admits (wanted actual : Option String) : Bool :=
  match wanted, actual with
  | some w, some a => w == a
  | _, _ => true

/-- The calls that a fault concerns. -/
def concerns (f : Fault) (c : Call) : Bool :=
  f.call == c.kind && admits f.database c.database? && admits f.collection c.collection?
    && admits f.name c.name?

/-- What the faults do to a call: nothing, or the error, if any, of the one that strikes it. -/
def strike (c : Call) : List Fault → Option (Option Error) × List Fault
  | [] => (none, [])
  | f :: rest =>
    let pass (f : Fault) :=
      let (outcome, rest) := strike c rest
      (outcome, f :: rest)
    if f.concerns c then
      if 0 < f.skip then pass { f with skip := f.skip - 1 }
      else if f.times = some 0 then pass f
      else (some f.error, { f with times := f.times.map (· - 1) } :: rest)
    else pass f

@[simp] theorem strike_nil (c : Call) : strike c [] = (none, []) := rfl

end Fault

/-- A server with the faults that are still to come. -/
structure FaultyServer where
  server : Server
  faults : List Fault

namespace FaultyServer

/-- Let the server answer. -/
def forward (c : Call) (s : FaultyServer) : Except Error c.Answer × FaultyServer :=
  let (result, server) := s.server.answer c
  (result, { s with server })

/-- The answers of a server with faults. -/
def answer : Handler FaultyServer := fun c s =>
  let (outcome, faults) := Fault.strike c s.faults
  let s := { s with faults }
  match outcome with
  | none => forward c s
  | some (some error) => (.error error, s)
  | some none =>
    match c.effectless? with
    | some result => (.ok result, s)
    | none => forward c s

end FaultyServer

end Provisioner
