import Provisioner.Index.Compare
import Provisioner.Procedure

/-!
# Bringing a collection and an index into being

Both steps look first and act only if something is missing, so that repeating them changes
nothing. What to do about an index is decided on the indexes that the collection has at that
moment, by the first of them that has the declared keys:

* it serves as declared, and nothing is done;
* it lacks nothing but the time to live, and gets it;
* it conflicts with the declaration, which is recorded as a warning; the index is left as it is,
  and the store is asked for the declared one all the same, so that its refusal reaches the caller;
* there is none, and the declared index is created.

The decision is a function of the indexes and the declaration alone. Every case issues at most
one call that changes the store.

## Main definitions

* `Decision`, `Decision.of` — what to do about a declared index
* `Schema.Outcome` — what was done
* `Schema.ensureIndex`, `ensureCollection`, `findIndex`, `expireIndex` — the steps

## Main results

* `Decision.of_eq_keep_iff`, `of_eq_attach_iff` — when nothing is done, and when a time to live is
  attached
-/

namespace Provisioner

/-- What to do about a declared index. -/
inductive Decision
  /-- An index serves as declared. -/
  | keep
  /-- The index of this name is to get this time to live. -/
  | attach (index : String) (seconds : Value)
  /-- The index is to be created, perhaps against an existing one. -/
  | create (conflict : Option (String × Info))

namespace Decision

/-- What to do, given the first index with the declared keys. -/
def of (found : Option (String × Info)) (d : Definition) : Decision :=
  match found with
  | none => .create none
  | some (name, info) =>
    let ttl := Document.field d Index.ttl
    if info.compatible d then
      if info.expiresAs ttl then .keep
      else if (Document.field info Index.ttl).isNull then .attach name ttl
      else .create found
    else .create found

theorem of_eq_keep_iff {found : Option (String × Info)} {d : Definition} :
    of found d = .keep ↔ ∃ name info, found = some (name, info) ∧ Info.compatible info d = true
      ∧ Info.expiresAs info (Document.field d Index.ttl) = true := by
  cases found with
  | none => simp [of]
  | some e =>
    obtain ⟨name, info⟩ := e
    by_cases hc : Info.compatible info d = true
    · by_cases he : Info.expiresAs info (Document.field d Index.ttl) = true
      · exact ⟨fun _ => ⟨name, info, rfl, hc, he⟩, fun _ => by simp [of, hc, he]⟩
      · by_cases hn : (Document.field info Index.ttl) = .null <;> simp [of, hc, he, hn]
    · simp [of, hc]

theorem of_eq_attach_iff {found : Option (String × Info)} {d : Definition} {index : String}
    {seconds : Value} :
    of found d = .attach index seconds ↔ ∃ info, found = some (index, info)
      ∧ Info.compatible info d = true ∧ Document.field info Index.ttl = .null
      ∧ seconds = Document.field d Index.ttl ∧ seconds ≠ .null := by
  cases found with
  | none => simp [of]
  | some e =>
    obtain ⟨name, info⟩ := e
    by_cases hc : Info.compatible info d = true
    · by_cases hd : Document.field d Index.ttl = .null
      · simp +contextual [of, hc, Info.expiresAs, hd]
      · by_cases hn : Document.field info Index.ttl = .null
        · have he : Info.expiresAs info (Document.field d Index.ttl) = false := by
            cases h : Document.field d Index.ttl <;>
              simp_all [Info.expiresAs, Value.isNull, Value.eqv, Value.sameNumber, Value.number?]
          simp only [of, hc, he, hn]
          constructor
          · intro h
            simp at h
            obtain ⟨rfl, rfl⟩ := h
            exact ⟨info, rfl, hc, hn, rfl, hd⟩
          · rintro ⟨_, h, _, _, rfl, _⟩
            simp at h
            simp [h.1]
        · by_cases he : Info.expiresAs info (Document.field d Index.ttl) = true
          · simp +contextual [of, hc, he, hn]
          · simp +contextual [of, hc, he, hn]
    · simp +contextual [of, hc]

end Decision

namespace Schema

open Attempt

/-- What was done about a declared index. -/
inductive Outcome
  | created
  | found
  | attached
deriving DecidableEq

/-- The name of an outcome. -/
def Outcome.name : Outcome → String
  | .created => "created"
  | .found => "exists"
  | .attached => "ttl_attached"

/-- All outcomes. -/
def Outcome.all : List Outcome := [.created, .found, .attached]

/-- Create a collection unless it exists, and tell whether it was created. -/
def ensureCollection (database name : String) : Attempt Bool := do
  let existing ← call (.listCollections database)
  if name ∈ existing then
    log .info ("Collection " ++ name ++ " already exists")
    return false
  call (.createCollection database name)
  log .info ("Created collection: " ++ name)
  return true

/-- The first index of a collection with the given keys. -/
def findIndex (database collection : String) (keys : Value) : Attempt (Option (String × Info)) := do
  let indexes ← call (.listIndexes database collection)
  require (Indexes.find? keys indexes)

/-- Give an existing index a time to live. -/
def expireIndex (database collection index : String) (seconds : Value) : Attempt Unit :=
  call (.expireIndex database collection index seconds)

/-- Leave a record that ends in the description of a declaration. -/
def logDefinition (message collection : String) (d : Definition) : Attempt Unit := do
  let description ← require (Definition.describe collection d)
  log .info (message ++ ": " ++ description)

/-- Leave a warning about an index that is in the way. -/
def warnConflict (collection : String) : Option (String × Info) → Attempt Unit
  | none => pure ()
  | some (name, info) =>
    log .warning ("Index " ++ name ++ " on " ++ collection ++ " has conflicting options: "
      ++ (Value.doc info).render)

/-- Do what has been decided. -/
def enact (database collection : String) (d : Definition) (keys : Value) :
    Decision → Attempt Outcome
  | .keep => do
    logDefinition "Index already exists" collection d
    return .found
  | .attach index seconds => do
    expireIndex database collection index seconds
    logDefinition ("Attached TTL to index " ++ index) collection d
    return .attached
  | .create conflict => do
    warnConflict collection conflict
    call (.createIndex database collection keys (Definition.options d))
    logDefinition "Created index" collection d
    return .created

/-- Bring a declared index into being. -/
def ensureIndex (database collection : String) (d : Definition) : Attempt Outcome := do
  let keys ← require (Definition.keys d)
  let found ← findIndex database collection keys
  enact database collection d keys (Decision.of found d)

end Schema

end Provisioner
