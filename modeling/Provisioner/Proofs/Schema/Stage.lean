import Provisioner.Proofs.Schema.EnsureStep

/-!
# Applying the schema as one list of stages

Applying the schema goes through the declared collections, and through the indexes of each of them,
and counts as it goes: one tally for each collection, the two of them added up at the end. Seen from
outside this is a single list of stages, in which a collection stands before its indexes, and a
single count of what the stages have done. That it is the same is shown here once, as an equation
between the two ways of doing it, so that what is said of the work can be said stage by stage.

## Main definitions

* `Schema.Stage`, `Stage.all` — the stages of the work, in their order
* `Schema.Deed` — what a stage has done
* `Schema.attempts` — stages one after the other
* `Schema.Tally.of` — how often each deed has been done

## Main results

* `Schema.createCollection_eq` — a collection with its indexes is a list of stages
* `Schema.apply_eq` — applying the schema is going through all stages, and counting afterwards
* `Schema.Tally.summary_eq` — the line that tells the counts, with the zeros
-/

namespace Provisioner

namespace Schema

open Attempt

/-- A stage of the work: a collection, or a declared index of a collection. -/
inductive Stage
  | collection (name : String)
  | index (collection : String) (d : Definition)

namespace Stage

/-- The stages of a collection: the collection itself, and then its indexes. -/
def ofEntry (e : String × List Definition) : List Stage :=
  .collection e.1 :: e.2.map (.index e.1)

/-- All stages, in their order. -/
def all : List Stage := collections.flatMap ofEntry

theorem all_eq : all = ofEntry (credentials, credentialIndexes)
    ++ ofEntry (sessions, sessionIndexes) := rfl

/-- Whether a stage is one for an index. -/
def isIndex : Stage → Bool
  | .collection _ => false
  | .index _ _ => true

end Stage

/-- What a stage has done: the collection was there or has been created; the index was there, or it
has been created or been given its time to live. -/
inductive Deed
  | present
  | opened
  | found
  | created
  | attached
deriving DecidableEq

namespace Deed

/-- What has been done about a collection. -/
def ofCollection (created : Bool) : Deed := if created then .opened else .present

/-- What has been done about an index. -/
def ofOutcome : Outcome → Deed
  | .created => .created
  | .found => .found
  | .attached => .attached

end Deed

/-- Go through a stage. -/
def Stage.attempt (database : String) : Stage → Attempt Deed
  | .collection name => Deed.ofCollection <$> ensureCollection database name
  | .index name d => Deed.ofOutcome <$> ensureIndex database name d

/-- Go through some stages, one after the other. -/
def attempts (database : String) : List Stage → Attempt (List Deed)
  | [] => return []
  | stage :: rest => do
    let deed ← stage.attempt database
    let deeds ← attempts database rest
    return deed :: deeds

theorem attempts_append (database : String) (first second : List Stage) :
    attempts database (first ++ second) = do
      let deeds ← attempts database first
      let others ← attempts database second
      return deeds ++ others := by
  induction first with
  | nil => simp [attempts]
  | cons stage first ih => simp [attempts, ih]

/-! ### Counting -/

namespace Tally

/-- How often each deed has been done. That a collection was there is not counted. -/
def of (deeds : List Deed) : Tally where
  collections := deeds.count .opened
  created := deeds.count .created
  found := deeds.count .found
  attached := deeds.count .attached

theorem of_append (first second : List Deed) :
    of (first ++ second) = (of first).add (of second) := by
  simp [of, add]

theorem ofCollection_eq (created : Bool) :
    ofCollection created = of [Deed.ofCollection created] := by
  cases created <;> rfl

/-- Counting an outcome first is adding it to those that come after. -/
theorem count_add (t : Tally) (o : Outcome) (deeds : List Deed) :
    (t.count o).add (of deeds) = t.add (of (Deed.ofOutcome o :: deeds)) := by
  cases o <;> simp [count, add, of, Deed.ofOutcome] <;> omega

theorem add_of_nil (t : Tally) : t.add (of []) = t := rfl

/-- What is not entered because it is zero counts as zero all the same. -/
theorem getD_entered {m : Assoc Nat} (hm : Assoc.NodupKeys m) (name : String) :
    (Assoc.get? ((m.filter fun e => e.2 ≠ 0).map fun e => (e.1, Value.int e.2)) name).getD (.int 0)
      = .int ((Assoc.get? m name).getD 0) := by
  induction m with
  | nil => rfl
  | cons e m ih =>
    obtain ⟨k, n⟩ := e
    obtain ⟨hk, hm⟩ := List.nodup_cons.1 hm
    have hrest := ih hm
    by_cases hn : n = 0
    · rw [List.filter_cons_of_neg (by simp [hn]), hrest]
      by_cases hname : k = name
      · have hnone : Assoc.get? m name = none := Assoc.get?_eq_none_iff.2 (hname ▸ hk)
        simp [Assoc.get?_cons, hname, hnone, hn]
      · simp [Assoc.get?_cons, hname]
    · rw [List.filter_cons_of_pos (by simp [hn]), List.map_cons, Assoc.get?_cons, Assoc.get?_cons]
      by_cases hname : k = name
      · simp [hname]
      · simpa [hname] using hrest

/-- The line tells every count, be it zero or not. -/
theorem summary_eq (t : Tally) : t.summary
    = toString t.collections ++ " collections created, "
      ++ toString t.created ++ " indexes created, "
      ++ toString t.found ++ " already present, "
      ++ toString t.attached ++ " TTL attached" := by
  have hnodup : Assoc.NodupKeys [(collectionCreated, t.collections),
      (Outcome.created.name, t.created), (Outcome.found.name, t.found),
      (Outcome.attached.name, t.attached)] := by
    show List.Nodup [collectionCreated, Outcome.created.name, Outcome.found.name,
      Outcome.attached.name]
    decide
  simp only [Tally.summary, Schema.summary, entries, getD_entered hnodup]
  rfl

end Tally

/-! ### The loops -/

section Loops

variable {database collection : String} {ds : List Definition}

/-- The indexes of a collection, and what is counted of them. -/
theorem ensureIndexes_eq (database collection : String) (ds : List Definition) (tally : Tally) :
    ensureIndexes database collection ds tally
      = (fun deeds => tally.add (.of deeds))
        <$> attempts database (ds.map (.index collection)) := by
  induction ds generalizing tally with
  | nil => simp [ensureIndexes, attempts, Tally.add_of_nil]
  | cons d ds ih => simp [ensureIndexes, attempts, Stage.attempt, ih, Tally.count_add]

/-- A collection with its indexes. -/
theorem createCollection_eq (database : String) (hds : definitions collection = .ok ds) :
    createCollection database collection
      = Tally.of <$> attempts database (Stage.ofEntry (collection, ds)) := by
  have hreq : (require (definitions collection) : Attempt (List Definition)) = pure ds :=
    congrArg require hds
  simp [createCollection, hreq, ensureIndexes_eq, Tally.ofCollection_eq, ← Tally.of_append,
    Stage.ofEntry, attempts, Stage.attempt]

/-- Applying the schema is going through all stages, and counting what has been done. -/
theorem apply_eq (database : String) : apply database = (do
    log .info ("Applying: " ++ description)
    let deeds ← attempts database Stage.all
    let missing ← verify database
    if missing ≠ [] then require (.error (.missingIndexes missing))
    log .info "Schema verified: all declared indexes present"
    log .info ("Schema summary: " ++ (Tally.of deeds).summary)
    print confirmation) := by
  have hfirst := createCollection_eq database definitions_credentials
  have hsecond := createCollection_eq database definitions_sessions
  simp [apply, hfirst, hsecond, Stage.all_eq, attempts_append, Tally.of_append]

end Loops

end Schema

end Provisioner
