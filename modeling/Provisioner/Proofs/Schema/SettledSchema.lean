import Provisioner.Proofs.Schema.SettledDeclaration
import Provisioner.Proofs.Schema.SuccessfulRun
import Provisioner.Proofs.Schema.ServedDeclaration

/-!
# The schema in place

The schema is in place if both collections exist, every declaration is settled in its collection,
and none is found missing. A success leaves the schema in place: each declaration is settled when
it is ensured and remains so while the others are, and that nothing is missing has been verified.
And where the schema is in place, all of its steps succeed and change nothing.

## Main definitions

* `Schema.SettledIn` — a collection in which some declarations are settled
* `Schema.Settling` — what is settled remains settled
* `Schema.InPlace` — every declaration is settled, and nothing is missing

## Main results

* `Schema.ensureIndex_settled`, `createCollection_settled` — settled steps change nothing
* `Schema.settledIn_createCollection` — declarations are settled by being ensured
* `Schema.inPlace_apply` — the schema is in place when it has been applied
-/

namespace Provisioner

open Store

namespace Schema

open Attempt Procedure

variable {σ : Type} {answer : Handler σ} {store : σ → Store} {Asked : Definition → Prop}
  {database collection field : String} {d : Definition} {done ds : List Definition} {xs : Indexes}
  {a b : σ}

/-! ### One index -/

/-- Ensuring a settled declaration succeeds and changes nothing. -/
theorem ensureIndex_settled (h : answer.Repeatable store Asked) (hs : (store a).Distinct)
    (hasked : Asked d) (hd : Regular d field)
    (hx : (store a).indexes? database collection = some xs) (hset : Settled xs d field) :
    (∃ o, result answer (ensureIndex database collection d) a = .ok o)
      ∧ Reached database (store a)
          (store (final answer (ensureIndex database collection d) a)) := by
  obtain ⟨text, htext⟩ := hd.describe collection
  have hlisted := h.distinct (.listIndexes database collection) a hs
  have hreach := reached_listed h.toCareful database collection a
  have hx' := (hreach.indexes? database collection).trans hx
  have hl := h.listed_of_indexes? hx
  cases hset with
  | @served e first compatible expires =>
    have hdec : Decision.of (some e) d = .keep :=
      Decision.of_eq_keep_iff.2 ⟨e.1, e.2, rfl, compatible, expires⟩
    rw [result_ensureIndex hd.keys hl first, final_ensureIndex_of_found hd.keys hl first, hdec]
    exact ⟨⟨.found, result_enact_keep htext _⟩, hreach⟩
  | @repeated e first conflict again =>
    have hdec : Decision.of (some e) d = .create (some e) :=
      Decision.of_eq_create_iff.2 ⟨rfl, conflict⟩
    obtain ⟨hgranted, hr⟩ :=
      h.repeated _ _ _ d _ _ _ _ hlisted hasked hd.request hx' again
    rw [result_ensureIndex hd.keys hl first, final_ensureIndex_of_found hd.keys hl first, hdec]
    exact ⟨⟨.created, result_enact_create htext hgranted⟩, hreach.trans hr⟩

/-! ### All indexes -/

/-- A collection in which declarations are settled. -/
def SettledIn (s : Store) (database collection : String) (ds : List Definition) : Prop :=
  ∃ xs, s.indexes? database collection = some xs
    ∧ ∀ d ∈ ds, ∃ field, Regular d field ∧ Settled xs d field

theorem SettledIn.reached {s t : Store} (h : SettledIn s database collection ds)
    (hr : Reached database s t) : SettledIn t database collection ds := by
  obtain ⟨xs, hx, hds⟩ := h
  exact ⟨xs, (hr.indexes? database collection).trans hx, hds⟩

theorem ensureIndexes_settled (h : answer.Repeatable store Asked) (hs : (store a).Distinct)
    (hasked : ∀ d ∈ ds, Asked d) (hset : SettledIn (store a) database collection ds)
    (tally : Tally) :
    (∃ tally', result answer (ensureIndexes database collection ds tally) a = .ok tally')
      ∧ Reached database (store a)
          (store (final answer (ensureIndexes database collection ds tally) a)) := by
  induction ds generalizing a tally with
  | nil => exact ⟨⟨tally, rfl⟩, .refl database _⟩
  | cons d ds ih =>
    obtain ⟨hd, hds⟩ := List.forall_mem_cons.1 hasked
    obtain ⟨xs, hx, hall⟩ := hset
    obtain ⟨⟨field, hregular, hsettled⟩, hrest⟩ := List.forall_mem_cons.1 hall
    obtain ⟨⟨o, ho⟩, hr⟩ := ensureIndex_settled h hs hd hregular hx hsettled
    obtain ⟨hok, hr'⟩ := ih (hs.reached hr) hds
      ⟨xs, (hr.indexes? database collection).trans hx, hrest⟩ (tally.count o)
    rw [ensureIndexes, result_bind_of_ok ho, final_bind_of_ok ho]
    exact ⟨hok, hr.trans hr'⟩

/-- A collection that exists is found. -/
theorem ensureCollection_present (h : answer.Repeatable store Asked)
    (hx : (store a).indexes? database collection = some xs) :
    result answer (ensureCollection database collection) a = .ok false
      ∧ Reached database (store a)
          (store (final answer (ensureCollection database collection) a)) := by
  have hl : result answer (call (.listCollections database)) a
      = .ok (Assoc.keys ((store a).collections database)) := h.listedCollections database a
  have hm : collection ∈ Assoc.keys ((store a).collections database) := Assoc.mem_keys_of_get? hx
  rw [ensureCollection, result_bind_of_ok hl, final_bind_of_ok hl, if_pos hm]
  exact ⟨rfl, reached_listedCollections h.toCareful database a⟩

theorem createCollection_settled (h : answer.Repeatable store Asked) (hs : (store a).Distinct)
    (hds : definitions collection = .ok ds) (hasked : ∀ d ∈ ds, Asked d)
    (hset : SettledIn (store a) database collection ds) :
    (∃ tally, result answer (createCollection database collection) a = .ok tally)
      ∧ Reached database (store a)
          (store (final answer (createCollection database collection) a)) := by
  obtain ⟨xs, hx, -⟩ := id hset
  obtain ⟨hc, hr⟩ := ensureCollection_present h hx
  obtain ⟨hok, hr'⟩ := ensureIndexes_settled h (hs.reached hr) hasked (hset.reached hr)
    (Tally.ofCollection false)
  rw [createCollection, result_bind_of_ok hc, final_bind_of_ok hc, hds,
    result_bind_of_ok (result_require _), final_bind_of_ok (result_require _), final_require]
  exact ⟨hok, hr.trans hr'⟩

/-! ### In place -/

/-- The schema is in place: every declaration is settled, and none is found missing. -/
structure InPlace (database : String) (s : Store) : Prop where
  settled : ∀ e ∈ collections, SettledIn s database e.1 e.2
  complete : ∀ e ∈ collections, Indexes.missing e.1 (s.indexes database e.1) e.2 = .ok []

theorem InPlace.reached {s t : Store} (h : InPlace database s) (hr : Reached database s t) :
    InPlace database t where
  settled e he := (h.settled e he).reached hr
  complete e he := by
    rw [hr.indexes]
    exact h.complete e he

theorem asked_of_mem_collections (hasked : ∀ d ∈ credentialIndexes ++ sessionIndexes, Asked d) :
    ∀ e ∈ collections, definitions e.1 = .ok e.2 ∧ ∀ d ∈ e.2, Asked d := by
  simp only [collections, List.forall_mem_cons]
  exact ⟨⟨rfl, fun d hd => hasked d (List.mem_append_left _ hd)⟩,
    ⟨rfl, fun d hd => hasked d (List.mem_append_right _ hd)⟩, by simp⟩

theorem mem_collections_credentials : (credentials, credentialIndexes) ∈ collections := by
  simp [collections]

theorem mem_collections_sessions : (sessions, sessionIndexes) ∈ collections := by
  simp [collections]

/-! ### The first run -/

/-- What exists still exists, and what is settled in it is still settled. -/
def Settling (database : String) (s t : Store) : Prop :=
  ∀ collection xs, s.indexes? database collection = some xs →
    ∃ ys, t.indexes? database collection = some ys
      ∧ ∀ d field, Regular d field → Settled xs d field → Settled ys d field

theorem Settling.refl (database : String) (s : Store) : Settling database s s :=
  fun _ xs hx => ⟨xs, hx, fun _ _ _ h => h⟩

theorem Settling.trans {s t u : Store} (h : Settling database s t) (h' : Settling database t u) :
    Settling database s u := by
  intro collection xs hx
  obtain ⟨ys, hy, hxy⟩ := h collection xs hx
  obtain ⟨zs, hz, hyz⟩ := h' collection ys hy
  exact ⟨zs, hz, fun d field hd hset => hyz d field hd (hxy d field hd hset)⟩

theorem Settling.settledIn {s t : Store} (h : Settling database s t)
    (hset : SettledIn s database collection ds) : SettledIn t database collection ds := by
  obtain ⟨xs, hx, hall⟩ := hset
  obtain ⟨ys, hy, hxy⟩ := h collection xs hx
  refine ⟨ys, hy, fun d hd => ?_⟩
  obtain ⟨field, hregular, hsettled⟩ := hall d hd
  exact ⟨field, hregular, hxy d field hregular hsettled⟩

theorem settling_of_collectionStep {s t : Store} (h : CollectionStep database collection s t) :
    Settling database s t := fun _ xs hx => ⟨xs, h.indexes? hx, fun _ _ _ hset => hset⟩

theorem settling_of_indexStep {s t : Store} (hd : Regular d field) (hs : s.Distinct)
    (h : IndexStep database collection d s t) : Settling database s t := by
  intro other xs hx
  by_cases ho : other = collection
  · subst ho
    cases h with
    | same hr => exact ⟨xs, (hr.indexes? database other).trans hx, fun _ _ _ hset => hset⟩
    | grown added =>
      refine ⟨_, indexes?_putIndexes_self .., fun e other' _ hset => ?_⟩
      rw [Store.indexesOrFresh, hx]
      exact hset.append added
    | expired hx' hg hi hf =>
      obtain rfl := Option.some.inj (hx'.symm.trans hx)
      exact ⟨_, indexes?_putIndexes_self .., fun e other' he hset =>
        hset.expired (hs.indexes? hx) he hd hg hi hf⟩
  · exact ⟨xs, (h.indexes?_of_ne ho).trans hx, fun _ _ _ hset => hset⟩

theorem settling_ensureIndexes (h : answer.Careful store) (database collection : String)
    (hds : ∀ d ∈ ds, ∃ field, Regular d field) (tally : Tally) (a : σ) :
    Along store (Settling database) a
      (final answer (ensureIndexes database collection ds tally) a) := by
  refine along_ensureIndexes (Settling.refl database) Settling.trans h (fun d hd => ?_) tally a
  obtain ⟨field, hregular⟩ := hds d hd
  exact settling_of_indexStep hregular

theorem settling_createCollection (h : answer.Careful store) (database : String)
    (hds : definitions collection = .ok ds) (hreg : ∀ d ∈ ds, ∃ field, Regular d field) (a : σ) :
    Along store (Settling database) a
      (final answer (createCollection database collection) a) := by
  refine along_createCollection (Settling.refl database) Settling.trans h hds
    settling_of_collectionStep (fun d hd => ?_) a
  obtain ⟨field, hregular⟩ := hreg d hd
  exact settling_of_indexStep hregular

/-- A declaration that has been ensured is settled beside those that have been settled before. -/
theorem settledIn_ensureIndex (h : answer.Repeatable store Asked) (hs : (store a).Distinct)
    (hd : Asked d ∧ d.Comparable ∧ ∃ field, Regular d field)
    (hset : SettledIn (store a) database collection done) {o : Outcome}
    (hr : result answer (ensureIndex database collection d) a = .ok o) :
    SettledIn (store (final answer (ensureIndex database collection d) a)) database collection
      (done ++ [d]) := by
  obtain ⟨hasked, hcomp, field, hregular⟩ := hd
  have ⟨xs, hx, _⟩ := hset
  obtain ⟨ys, hy, hyset⟩ := settled_ensureIndex h hs hasked hregular hcomp hx hr
  obtain ⟨-, hsettling⟩ := along_ensureIndex h.toCareful
    (fun hs hstep => settling_of_indexStep hregular hs hstep) a hs
  obtain ⟨zs, hz, hzset⟩ := hsettling.settledIn hset
  obtain rfl := Option.some.inj (hz.symm.trans hy)
  exact ⟨zs, hz, List.forall_mem_append.2
    ⟨hzset, List.forall_mem_singleton.2 ⟨field, hregular, hyset⟩⟩⟩

/-- So are declarations that have been ensured one after the other. -/
theorem settledIn_ensureIndexes (h : answer.Repeatable store Asked) (hs : (store a).Distinct)
    (hds : ∀ d ∈ ds, Asked d ∧ d.Comparable ∧ ∃ field, Regular d field)
    (hset : SettledIn (store a) database collection done) {tally tally' : Tally}
    (hr : result answer (ensureIndexes database collection ds tally) a = .ok tally') :
    SettledIn (store (final answer (ensureIndexes database collection ds tally) a)) database
      collection (done ++ ds) := by
  induction ds generalizing tally a done with
  | nil =>
    rw [List.append_nil]
    exact hset
  | cons d ds ih =>
    obtain ⟨hd, hrest⟩ := List.forall_mem_cons.1 hds
    obtain ⟨o, ho, hr⟩ := result_bind_eq_ok_iff.1 hr
    have hs' := distinct_ensureIndex h.toCareful database collection d hs
    have hset' := settledIn_ensureIndex h hs hd hset ho
    rw [ensureIndexes, final_bind_of_ok ho, List.append_cons]
    exact ih hs' hrest hset' hr

/-- A collection exists once it has been ensured. -/
theorem exists_indexes?_ensureCollection (h : answer.Repeatable store Asked) {created : Bool}
    (hr : result answer (ensureCollection database collection) a = .ok created) :
    ∃ xs, (store (final answer (ensureCollection database collection) a)).indexes? database
      collection = some xs := by
  have hl : result answer (call (.listCollections database)) a
      = .ok (Assoc.keys ((store a).collections database)) := h.listedCollections database a
  have hreach := reached_listedCollections h.toCareful database a
  by_cases hm : collection ∈ Assoc.keys ((store a).collections database)
  · cases hx : (store a).indexes? database collection with
    | none => exact absurd hm (Assoc.get?_eq_none_iff.1 hx)
    | some xs =>
      have hx' := (ensureCollection_present h hx).2.indexes? database collection
      exact ⟨xs, hx'.trans hx⟩
  · rw [ensureCollection, result_bind_of_ok hl, if_neg hm] at hr
    obtain ⟨u, hu, -⟩ := result_bind_eq_ok_iff.1 hr
    rw [ensureCollection, final_bind_of_ok hl, if_neg hm, final_bind_of_ok hu]
    exact h.opened database collection _ hu

theorem settledIn_createCollection (h : answer.Repeatable store Asked) (hs : (store a).Distinct)
    (hdef : definitions collection = .ok ds)
    (hds : ∀ d ∈ ds, Asked d ∧ d.Comparable ∧ ∃ field, Regular d field) {tally : Tally}
    (hr : result answer (createCollection database collection) a = .ok tally) :
    SettledIn (store (final answer (createCollection database collection) a)) database collection
      ds := by
  obtain ⟨created, hc, hr⟩ := result_bind_eq_ok_iff.1 hr
  obtain ⟨xs, hx⟩ := exists_indexes?_ensureCollection h hc
  have hs' := distinct_ensureCollection h.toCareful database collection hs
  rw [hdef, result_bind_of_ok (result_require _), final_require] at hr
  rw [createCollection, final_bind_of_ok hc, hdef, final_bind_of_ok (result_require _),
    final_require]
  have hnone : SettledIn (store (final answer (ensureCollection database collection) a)) database
      collection [] := ⟨xs, hx, by simp⟩
  exact settledIn_ensureIndexes h hs' hds hnone hr

/-- The declarations are asked for, and each of them can be settled. -/
theorem regular_of_asked (hasked : ∀ d ∈ credentialIndexes ++ sessionIndexes, Asked d) :
    (∀ d ∈ credentialIndexes, Asked d ∧ d.Comparable ∧ ∃ field, Regular d field)
      ∧ ∀ d ∈ sessionIndexes, Asked d ∧ d.Comparable ∧ ∃ field, Regular d field :=
  List.forall_mem_append.1 fun d hd =>
    ⟨hasked d hd, comparable_declared d hd, regular_declared d hd⟩

/-- Once both collections have been created, the declarations of both are settled: those of the
first one remain so while the second one is created. -/
theorem settledIn_afterSessions (h : answer.Repeatable store Asked)
    (hasked : ∀ d ∈ credentialIndexes ++ sessionIndexes, Asked d) (hs : (store a).Distinct)
    {first second : Tally} (hsucc : Succeeds answer database a first second) :
    (store (afterSessions answer database a)).Distinct
      ∧ SettledIn (store (afterSessions answer database a)) database credentials credentialIndexes
      ∧ SettledIn (store (afterSessions answer database a)) database sessions sessionIndexes := by
  obtain ⟨hcred, hsess⟩ := regular_of_asked hasked
  have hs' := distinct_createCollection h.toCareful database credentials hs
  obtain ⟨hs'', hsettling⟩ := settling_createCollection h.toCareful database
    definitions_sessions (fun d hd => (hsess d hd).2.2) _ hs'
  exact ⟨hs'', hsettling.settledIn
      (settledIn_createCollection h hs definitions_credentials hcred hsucc.credentials),
    settledIn_createCollection h hs' definitions_sessions hsess hsucc.sessions⟩

/-- The schema is in place once it has been applied with success. -/
theorem inPlace_apply (h : answer.Repeatable store Asked)
    (hasked : ∀ d ∈ credentialIndexes ++ sessionIndexes, Asked d) (hs : (store a).Distinct)
    (hr : result answer (apply database) a = .ok ()) :
    (store (final answer (apply database) a)).Distinct
      ∧ InPlace database (store (final answer (apply database) a)) := by
  obtain ⟨first, second, hsucc⟩ := succeeds_of_apply hr
  obtain ⟨hs', hcred, hsess⟩ := settledIn_afterSessions h hasked hs hsucc
  have hreach := reached_missingIn h.toCareful database collections hs'
  have hplace : InPlace database (store (afterSessions answer database a)) := by
    refine ⟨?_, (result_missingIn_eq_nil_iff h.toFaithful).1 hsucc.verified⟩
    simp only [collections, List.forall_mem_cons]
    exact ⟨hcred, hsess, by simp⟩
  rw [hsucc.final_apply]
  exact ⟨hs'.reached hreach, hplace.reached hreach⟩

end Schema

end Provisioner
