import Provisioner.Schema.Declared
import Provisioner.Schema.Ensure

/-!
# Applying the schema

The collections are brought into being one after the other, each followed by its indexes in the
order of declaration. Then the declared indexes are compared with those that the collections
have by now, and only if none is missing the success is announced. The first error ends the work
and is passed on as it is; what has been done until then remains, and applying the schema again
takes it up from there.

## Main definitions

* `Schema.Tally`, `summary` — how often each outcome occurred, and a line that says so
* `Schema.createCollection` — one collection with its indexes
* `Schema.verify`, `verificationError` — the declared indexes that are missing, and the error
  about them
* `Schema.apply` — the whole schema
-/

namespace Provisioner

namespace Schema

open Attempt

/-! ### Counting -/

/-- How often each outcome occurred. -/
structure Tally where
  collections : Nat
  created : Nat
  found : Nat
  attached : Nat
deriving DecidableEq

namespace Tally

/-- Nothing was done. -/
def zero : Tally := { collections := 0, created := 0, found := 0, attached := 0 }

/-- The collection was created, or not. -/
def ofCollection (created : Bool) : Tally :=
  { zero with collections := if created then 1 else 0 }

/-- One outcome more. -/
def count (t : Tally) : Outcome → Tally
  | .created => { t with created := t.created + 1 }
  | .found => { t with found := t.found + 1 }
  | .attached => { t with attached := t.attached + 1 }

/-- Two tallies together. -/
def add (s t : Tally) : Tally :=
  { collections := s.collections + t.collections
    created := s.created + t.created
    found := s.found + t.found
    attached := s.attached + t.attached }

/-- The name under which created collections are counted. -/
def collectionCreated : String := "collection_created"

/-- The counts by name, without those that are zero. -/
def entries (t : Tally) : Assoc Nat :=
  [(collectionCreated, t.collections), (Outcome.created.name, t.created),
    (Outcome.found.name, t.found), (Outcome.attached.name, t.attached)].filter fun e => e.2 ≠ 0

end Tally

/-- A line that tells the counts; what is not counted counts as zero. -/
def summary (counts : Assoc Value) : String :=
  let shown (name : String) := ((Assoc.get? counts name).getD (.int 0)).shown
  shown Tally.collectionCreated ++ " collections created, "
    ++ shown Outcome.created.name ++ " indexes created, "
    ++ shown Outcome.found.name ++ " already present, "
    ++ shown Outcome.attached.name ++ " TTL attached"

/-- A tally as a line. -/
def Tally.summary (t : Tally) : String :=
  Schema.summary (t.entries.map fun e => (e.1, .int e.2))

/-! ### Creating -/

/-- Bring declared indexes into being, one after the other. -/
def ensureIndexes (database collection : String) : List Definition → Tally → Attempt Tally
  | [], tally => return tally
  | d :: rest, tally => do
    let outcome ← ensureIndex database collection d
    ensureIndexes database collection rest (tally.count outcome)

/-- The declared indexes of a collection; a collection without declaration is an error. -/
def definitions (collection : String) : Except Error (List Definition) :=
  match definitions? collection with
  | some ds => .ok ds
  | none => .error (.missingEntry collection)

/-- Bring a collection and then its indexes into being. -/
def createCollection (database collection : String) : Attempt Tally := do
  let created ← ensureCollection database collection
  let ds ← require (definitions collection)
  ensureIndexes database collection ds (Tally.ofCollection created)

/-! ### Verifying -/

/-- The given declarations that are missing in a collection. -/
def missingIndexes (database collection : String) (ds : List Definition) :
    Attempt (List String) := do
  let indexes ← call (.listIndexes database collection)
  require (Indexes.missing collection indexes ds)

/-- The declarations that are missing in the given collections. -/
def missingIn (database : String) : List (String × List Definition) → Attempt (List String)
  | [] => return []
  | (collection, ds) :: rest => do
    let first ← missingIndexes database collection ds
    let others ← missingIn database rest
    return first ++ others

/-- The declared indexes that are missing. -/
def verify (database : String) : Attempt (List String) := missingIn database collections

/-- The error about missing declarations. Their names have to be texts; one that is not is the
error instead. -/
def verificationError (names : List Value) : Error :=
  match Value.texts names with
  | .ok names => .missingIndexes names
  | .error e => e

/-! ### Applying -/

/-- Bring the schema into being, verify it, and announce the success. -/
def apply (database : String) : Attempt Unit := do
  log .info ("Applying: " ++ description)
  let first ← createCollection database credentials
  let second ← createCollection database sessions
  let missing ← verify database
  if missing ≠ [] then require (.error (.missingIndexes missing))
  log .info "Schema verified: all declared indexes present"
  log .info ("Schema summary: " ++ (first.add second).summary)
  print confirmation

end Schema

end Provisioner
