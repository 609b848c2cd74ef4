import Provisioner.Index.Compare

/-!
# The contents of the store

A store holds databases, a database collections, and a collection indexes, each level by name and
in the order in which they came to be known. Of the documents in the collections nothing is said:
this library never looks at them. Every collection has an index on `_id` from its creation.

A collection comes to be known when it is created. A database needs no creation: it is known, and
has its place among the others, from the first time that somebody turns to it, if only to read. As
long as it has no collections nobody can tell it from an unknown one but by the place that it keeps.

## The rules of index creation

An index is created under the name that is asked for, or else under the default name of its keys.
If the name is taken, the request has to repeat the existing index, keys and options alike; if
another index has the same keys, the request is rejected, because a collection keeps one index
per pattern. Asking for an index creates its collection, even if the request is then rejected.

## Main definitions

* `Database`, `Store` — the levels
* `Store.enter`, `occupied` — making a database known, and the databases that have collections
* `Store.indexes?`, `putIndexes`, `dropIndex`, `dropCollection` — reading and writing them
* `Indexes.fresh`, `create`, `expire` — the indexes of a new collection, with another one, and
  with another time to live

## Main results

* `Store.collections_enter`, `occupied_enter` — making a database known changes no contents
* `Store.indexes?_putIndexes_self` — read after write
-/

namespace Provisioner

/-- The collections of a database. -/
abbrev Database : Type := Assoc Indexes

/-- The databases of a store. -/
abbrev Store : Type := Assoc Database

namespace Indexes

/-- The version in which indexes are recorded. -/
def version : Value := .int 2

/-- How an index with the given keys and options is recorded. -/
def record (ps : List (Value × Value)) (options : Document) : Info :=
  Assoc.ofList (("v", version) :: ("key", Value.ofPairs ps) :: options)

/-- The indexes of a new collection. -/
def fresh : Indexes := [("_id_", record [(.text "_id", .int 1)] [])]

/-- The name under which an index is asked for. -/
def requestedName (keys : Value) (options : Document) : Except Error String :=
  let given := Document.field options "name"
  if given.isNull then Index.defaultName keys else .ok given.shown

/-- Whether an existing index has exactly these keys. -/
def hasPattern (ps : List (Value × Value)) (info : Info) : Bool :=
  match Info.pattern info with
  | .ok existing => Info.samePattern existing (ps.map fun p => .pair p.1 p.2)
  | .error _ => false

/-- The options of an existing index. -/
def recordedOptions (info : Info) : Document := Assoc.erase (Assoc.erase info "v") "key"

/-- The indexes after another one has been asked for. -/
def create (indexes : Indexes) (keys : Value) (options : Document) : Except Error Indexes := do
  let name ← requestedName keys options
  let ps ← Index.pattern keys
  let options := Assoc.erase options "name"
  match Assoc.get? indexes name with
  | some info =>
    if !hasPattern ps info then throw (.rejected (.nameTaken name))
    else if !(Value.doc (recordedOptions info)).eqv (.doc options) then
      throw (.rejected (.optionsDiffer name))
    else return indexes
  | none =>
    match List.find? (fun e => hasPattern ps e.2) indexes with
    | some other => throw (.rejected (.namedOtherwise other.1))
    | none => return indexes ++ [(name, record ps options)]

/-- The indexes after one of them has got another time to live. -/
def expire (indexes : Indexes) (name : String) (seconds : Value) : Except Error Indexes :=
  match Assoc.get? indexes name with
  | some info => .ok (Assoc.set indexes name (Assoc.set info Index.ttl seconds))
  | none => .error (.rejected (.noIndex name))

end Indexes

namespace Store

/-- The collections of a database; a database that nobody has written to has none. -/
def collections (s : Store) (database : String) : Database := (Assoc.get? s database).getD []

/-- A store in which a database is known. -/
def enter (s : Store) (database : String) : Store :=
  Assoc.set s database (collections s database)

/-- The databases that have collections. -/
def occupied (s : Store) : Store := s.filter fun e => !e.2.isEmpty

/-- The indexes of a collection, if it exists. -/
def indexes? (s : Store) (database collection : String) : Option Indexes :=
  Assoc.get? (collections s database) collection

/-- The indexes of a collection; a collection that does not exist has none. -/
def indexes (s : Store) (database collection : String) : Indexes :=
  (indexes? s database collection).getD []

/-- Write the indexes of a collection, which is created if it does not exist. -/
def putIndexes (s : Store) (database collection : String) (indexes : Indexes) : Store :=
  Assoc.set s database (Assoc.set (collections s database) collection indexes)

/-- The indexes that a collection has at the least. -/
def indexesOrFresh (s : Store) (database collection : String) : Indexes :=
  (indexes? s database collection).getD Indexes.fresh

/-- Put an index into a collection behind everybody's back; an existing one keeps its place. -/
def putIndex (s : Store) (database collection name : String) (info : Info) : Store :=
  putIndexes s database collection (Assoc.set (indexesOrFresh s database collection) name info)

/-- Remove an index, if it is there. -/
def dropIndex (s : Store) (database collection name : String) : Store :=
  match indexes? s database collection with
  | some indexes => putIndexes s database collection (Assoc.erase indexes name)
  | none => enter s database

/-- Remove a collection, if it is there. -/
def dropCollection (s : Store) (database collection : String) : Store :=
  Assoc.set s database (Assoc.erase (collections s database) collection)

/-! ### Read after write -/

@[simp] theorem collections_set_self (s : Store) (database : String) (d : Database) :
    collections (Assoc.set s database d) database = d := by
  simp [collections]

theorem collections_set_of_ne {s : Store} {database other : String} (d : Database)
    (h : other ≠ database) : collections (Assoc.set s database d) other = collections s other := by
  simp [collections, Assoc.get?_set_of_ne d h]

@[simp] theorem indexes?_putIndexes_self (s : Store) (database collection : String)
    (indexes : Indexes) :
    indexes? (putIndexes s database collection indexes) database collection = some indexes := by
  simp [indexes?, putIndexes]

theorem indexes?_putIndexes_of_ne {s : Store} {database collection other : String}
    (indexes : Indexes) (h : other ≠ collection) :
    indexes? (putIndexes s database collection indexes) database other
      = indexes? s database other := by
  simp [indexes?, putIndexes, Assoc.get?_set_of_ne indexes h]

theorem collections_putIndexes_of_ne {s : Store} {database other : String} (collection : String)
    (indexes : Indexes) (h : other ≠ database) :
    collections (putIndexes s database collection indexes) other = collections s other :=
  collections_set_of_ne _ h

/-! ### Known databases -/

@[simp] theorem collections_enter (s : Store) (database other : String) :
    collections (enter s database) other = collections s other := by
  by_cases h : other = database
  · simp [enter, h]
  · simp [enter, collections_set_of_ne _ h]

@[simp] theorem indexes?_enter (s : Store) (database other collection : String) :
    indexes? (enter s database) other collection = indexes? s other collection := by
  simp [indexes?]

theorem enter_of_mem {s : Store} {database : String} (h : database ∈ Assoc.keys s) :
    enter s database = s := by
  cases hd : Assoc.get? s database with
  | none => exact absurd h (Assoc.get?_eq_none_iff.1 hd)
  | some d => exact Assoc.set_of_get? (by simp [collections, hd])

theorem enter_of_notMem {s : Store} {database : String} (h : database ∉ Assoc.keys s) :
    enter s database = s ++ [(database, [])] := by
  rw [enter, Assoc.set_of_notMem _ h, collections, Assoc.get?_eq_none_iff.2 h]
  rfl

/-- A database that has only just come to be known shows nothing. -/
@[simp] theorem occupied_enter (s : Store) (database : String) :
    occupied (enter s database) = occupied s := by
  by_cases h : database ∈ Assoc.keys s
  · rw [enter_of_mem h]
  · simp [enter_of_notMem h, occupied]

/-- Writing makes the database known anyway. -/
@[simp] theorem putIndexes_enter (s : Store) (database collection : String) (indexes : Indexes) :
    putIndexes (enter s database) database collection indexes
      = putIndexes s database collection indexes := by
  simp [putIndexes, enter]

end Store

end Provisioner
