import Provisioner.Store.Call

/-!
# The server

A server holds a store and answers calls. It counts the clients that have been opened and numbers
them by that count; all of them see the same databases, and a closed one goes on working. Opening a
database only checks its name; the database becomes known with the first call that reads or writes
in it.

## Main definitions

* `Handler` — whatever answers calls and keeps a state of its own
* `Server`, `Server.answer` — the server, and its answers
* `Server.checkName` — the names that databases cannot have

## Main results

* `Server.answer_store_of_not_mutates`, `occupied_answer_of_not_mutates` — a call that only asks
  leaves the contents alone
-/

namespace Provisioner

/-- Whatever answers calls: each with its answer or an error, and with a new state either way. -/
abbrev Handler (σ : Type) : Type := (c : Call) → σ → Except Error c.Answer × σ

/-- The contents of a store, and the number of clients that have been opened. -/
structure Server where
  store : Store
  clients : Nat

namespace Server

/-- The server after somebody has turned to a database. -/
def reach (server : Server) (database : String) : Server :=
  { server with store := server.store.enter database }

/-- The characters that database names cannot contain, in the order in which they are looked
for. -/
def forbidden : List Char := [' ', '.', '$', '/', '\\', '\x00', '"']

/-- Refuse the names that databases cannot have. -/
def checkName (name : String) : Except Error Unit :=
  if name = "" then .error .emptyDatabaseName
  else match forbidden.find? fun c => c ∈ name.toList with
    | some c => .error (.databaseNameCharacter c)
    | none => .ok ()

/-- The contents after a collection has been created, which must not exist. -/
def createCollection (s : Store) (database name : String) : Except Error Store :=
  match s.indexes? database name with
  | some _ => .error (.collectionExists name)
  | none => .ok (s.putIndexes database name Indexes.fresh)

/-- The contents after an index has been asked for, which creates the collection in any case. -/
def createIndex (s : Store) (database collection : String) (keys : Value) (options : Document) :
    Except Error Unit × Store :=
  let indexes := s.indexesOrFresh database collection
  match indexes.create keys options with
  | .ok indexes => (.ok (), s.putIndexes database collection indexes)
  | .error e => (.error e, s.putIndexes database collection indexes)

/-- The contents after an index has got a time to live. -/
def expireIndex (s : Store) (database collection index : String) (seconds : Value) :
    Except Error Store :=
  match s.indexes? database collection with
  | none => .error (.rejected .noCollection)
  | some indexes =>
    (indexes.expire index seconds).map fun indexes => s.putIndexes database collection indexes

/-- Keep the old contents if there are no new ones. -/
def settle (server : Server) : Except Error Store → Except Error Unit × Server
  | .ok store => (.ok (), { server with store })
  | .error e => (.error e, server)

/-- The answers of the server. -/
def answer : Handler Server
  | .openClient _, server =>
    (.ok (server.clients + 1), { server with clients := server.clients + 1 })
  | .ping _, server => (.ok (), server)
  | .close _, server => (.ok (), server)
  | .openDatabase _ name, server => (checkName name, server)
  | .listCollections database, server =>
    (.ok (Assoc.keys (server.store.collections database)), server.reach database)
  | .createCollection database name, server =>
    settle (server.reach database) (createCollection server.store database name)
  | .listIndexes database collection, server =>
    (.ok (server.store.indexes database collection), server.reach database)
  | .createIndex database collection keys options, server =>
    let (result, store) := createIndex server.store database collection keys options
    (result, { server with store })
  | .expireIndex database collection index seconds, server =>
    settle (server.reach database) (expireIndex server.store database collection index seconds)

/-- A call that only asks leaves the store alone, or makes the database known that it asks
about. -/
theorem answer_store_of_not_mutates {c : Call} (h : c.mutates = false) (server : Server) :
    (answer c server).2.store = server.store
      ∨ ∃ database, c.database? = some database
        ∧ (answer c server).2.store = server.store.enter database := by
  cases c with
  | openClient | ping | close | openDatabase => exact .inl rfl
  | listCollections database | listIndexes database => exact .inr ⟨database, rfl, rfl⟩
  | createCollection | createIndex | expireIndex => simp [Call.mutates] at h

theorem occupied_answer_of_not_mutates {c : Call} (h : c.mutates = false) (server : Server) :
    (answer c server).2.store.occupied = server.store.occupied := by
  obtain hs | ⟨reached, -, hs⟩ := answer_store_of_not_mutates h server <;> simp [hs]

end Server

end Provisioner
