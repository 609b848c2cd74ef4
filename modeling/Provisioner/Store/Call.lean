import Provisioner.Store.Basic

/-!
# Calls to the store

The store is reached through calls, one at a time and each with its own kind of answer. Four of
them concern the connection, the other five a database. A call is data: it can be recorded,
compared with what was expected, and refused.

## Main definitions

* `Call`, `Call.Answer` — the calls, and what each is answered with
* `Call.Kind`, `Call.kind` — the calls without their arguments
* `Call.database?`, `collection?`, `name?` — what a call addresses
* `Call.effectless?` — the answer of a call that may be passed over without effect
* `Call.mutates` — whether a call may change the contents of the store
-/

namespace Provisioner

/-- A call to the store. -/
inductive Call
  | openClient (uri : String)
  | ping (client : Nat)
  | close (client : Nat)
  | openDatabase (client : Nat) (name : String)
  | listCollections (database : String)
  | createCollection (database name : String)
  | listIndexes (database collection : String)
  | createIndex (database collection : String) (keys : Value) (options : Document)
  | expireIndex (database collection index : String) (seconds : Value)

namespace Call

/-- What a call is answered with, if it is not refused. -/
@[reducible] def Answer : Call → Type
  | .openClient _ => Nat
  | .ping _ => Unit
  | .close _ => Unit
  | .openDatabase _ _ => Unit
  | .listCollections _ => List String
  | .createCollection _ _ => Unit
  | .listIndexes _ _ => Indexes
  | .createIndex _ _ _ _ => Unit
  | .expireIndex _ _ _ _ => Unit

/-- The calls without their arguments. -/
inductive Kind
  | openClient
  | ping
  | close
  | openDatabase
  | listCollections
  | createCollection
  | listIndexes
  | createIndex
  | expireIndex
deriving DecidableEq

/-- What kind of call it is. -/
def kind : Call → Kind
  | .openClient _ => .openClient
  | .ping _ => .ping
  | .close _ => .close
  | .openDatabase _ _ => .openDatabase
  | .listCollections _ => .listCollections
  | .createCollection _ _ => .createCollection
  | .listIndexes _ _ => .listIndexes
  | .createIndex _ _ _ _ => .createIndex
  | .expireIndex _ _ _ _ => .expireIndex

/-- The database that a call addresses. -/
def database? : Call → Option String
  | .openDatabase _ name => some name
  | .listCollections database => some database
  | .createCollection database _ => some database
  | .listIndexes database _ => some database
  | .createIndex database _ _ _ => some database
  | .expireIndex database _ _ _ => some database
  | _ => none

/-- The collection that a call addresses. -/
def collection? : Call → Option String
  | .createCollection _ name => some name
  | .listIndexes _ collection => some collection
  | .createIndex _ collection _ _ => some collection
  | .expireIndex _ collection _ _ => some collection
  | _ => none

/-- The name that a call gives or asks for. -/
def name? : Call → Option String
  | .createCollection _ name => some name
  | .createIndex _ _ keys options => (Indexes.requestedName keys options).toOption
  | .expireIndex _ _ index _ => some index
  | _ => none

/-- The answer of a call that is passed over without effect; calls that are made for their answer
cannot be passed over. -/
def effectless? : (c : Call) → Option c.Answer
  | .createCollection _ _ => some ()
  | .createIndex _ _ _ _ => some ()
  | .expireIndex _ _ _ _ => some ()
  | _ => none

/-- Whether a call may change the contents of the store. -/
def mutates : Call → Bool
  | .createCollection _ _ => true
  | .createIndex _ _ _ _ => true
  | .expireIndex _ _ _ _ => true
  | _ => false

end Call

end Provisioner
