import Mathlib.Logic.Function.Iterate
import Provisioner.Proofs.Schema.SettledSchema

/-!
# Applying the schema again

Once the schema has been applied with success, it is in place, and that is all that a further
application depends on. It finds both collections, leaves every index alone, and announces the
success again; the contents are exactly as they were. This repeats itself as often as one likes.

Without two indexes on the same keys there is no declaration that is asked for in vain, and a
further application does nothing but list collections and indexes.

## Main definitions

* `Schema.RunsIdle` — a run that succeeds and changes nothing
* `Schema.Reading` — a run that only lists collections and indexes, and finds them all

## Main results

* `Schema.runsIdle_of_inPlace` — where the schema is in place, applying it changes nothing
* `Schema.reading_of_inPlace` — and only reads, if no two indexes have the same keys
* `Schema.rerun_apply` — all further runs
-/

namespace Provisioner

open Store

/-- A call that lists collections or indexes. -/
def Call.Reads (c : Call) : Prop := c.kind = .listCollections ∨ c.kind = .listIndexes

namespace Schema

open Attempt Procedure

variable {σ : Type} {answer : Handler σ} {store : σ → Store} {Asked : Definition → Prop}
  {database collection field : String} {d : Definition} {ds : List Definition} {xs : Indexes}
  {a b : σ}

/-! ### Further runs -/

/-- A run that succeeds, announces the success, and leaves the contents exactly as they are. -/
structure RunsIdle (answer : Handler σ) (store : σ → Store) (database : String) (a : σ) : Prop where
  succeeds : result answer (apply database) a = .ok ()
  confirmed : Event.lines (trace answer (apply database) a) = [confirmation]
  unchanged : store (final answer (apply database) a) = store a

/-- Where the schema is in place, applying it changes nothing. -/
theorem runsIdle_of_inPlace (h : answer.Repeatable store Asked)
    (hasked : ∀ d ∈ credentialIndexes ++ sessionIndexes, Asked d) (hs : (store a).Distinct)
    (hp : InPlace database (store a)) : RunsIdle answer store database a := by
  obtain ⟨hdc, hac⟩ := asked_of_mem_collections hasked _ mem_collections_credentials
  obtain ⟨hds, has⟩ := asked_of_mem_collections hasked _ mem_collections_sessions
  obtain ⟨⟨first, hfirst⟩, hr⟩ := createCollection_settled h hs hdc hac
    (hp.settled _ mem_collections_credentials)
  obtain ⟨⟨second, hsecond⟩, hr'⟩ := createCollection_settled h (hs.reached hr) hds has
    ((hp.reached hr).settled _ mem_collections_sessions)
  have hr'' := hr.trans hr'
  have hverified : result answer (verify database) (afterSessions answer database a) = .ok [] :=
    (result_missingIn_eq_nil_iff h.toFaithful).2 (hp.reached hr'').complete
  have hsucc : Succeeds answer database a first second := ⟨hfirst, hsecond, hverified⟩
  obtain ⟨xs, hx, -⟩ := hp.settled _ mem_collections_credentials
  refine ⟨hsucc.result_apply, hsucc.lines_apply, ?_⟩
  rw [hsucc.final_apply]
  have hv := reached_missingIn h.toCareful database collections (hs.reached hr'')
  exact (hr''.trans hv).eq_of_indexes? hx

/-! ### Only reading -/

/-- What happens is reading, or leaves a notice. -/
def Listing : Event → Prop
  | .call c _ => c.Reads
  | .notice _ => True

theorem reads_of_listing {events : List Event} (h : ∀ e ∈ events, Listing e) :
    ∀ c ∈ Event.calls events, c.Reads := by
  intro c hc
  obtain ⟨e, he, hec⟩ := List.mem_filterMap.1 hc
  have hl := h e he
  match e with
  | .call c' error =>
    obtain rfl := Option.some.inj hec
    exact hl
  | .notice n => exact nomatch hec

theorem listing_listIndexes (collection : String) (error : Option Error) :
    Listing (.call (.listIndexes database collection) error) := .inr rfl

/-- Where no two indexes have the same keys, a settled declaration is served by the only index with
its keys. -/
theorem Settled.keep (hx : xs.Distinct) (hsingle : xs.Single) (hd : Regular d field)
    (h : Settled xs d field) :
    ∃ e, Indexes.find? (Value.ofPairs (fieldKeys field)) xs = .ok (some e)
      ∧ Decision.of (some e) d = .keep := by
  cases h with
  | @served e first compatible expires =>
    exact ⟨e, first, Decision.of_eq_keep_iff.2 ⟨e.1, e.2, rfl, compatible, expires⟩⟩
  | @repeated e first conflict again =>
    obtain ⟨info, hg, hfits⟩ := again.fits hx hd.keys
    obtain ⟨hkeys, compatible, expires⟩ := Info.fits_eq_true_iff.1 hfits
    rw [hd.keys, hasKeys_fieldKeys_iff] at hkeys
    obtain rfl := hsingle.eq (Indexes.mem_of_find? first) (Assoc.mem_of_get? hg)
      (hasKeys_fieldKeys_iff.1 (Indexes.hasKeys_of_find? first)) hkeys
    exact absurd expires (by simp [(conflict compatible).1])

/-- The declaration is then found, and nothing is done but to list the indexes. -/
theorem ensureIndex_kept (h : answer.Faithful store Asked) (hs : (store a).Distinct)
    (hd : Regular d field) (hx : (store a).indexes? database collection = some xs)
    (hsingle : xs.Single) (hset : Settled xs d field) :
    result answer (ensureIndex database collection d) a = .ok .found
      ∧ ∀ e ∈ trace answer (ensureIndex database collection d) a, Listing e := by
  obtain ⟨text, htext⟩ := hd.describe collection
  obtain ⟨e, hfirst, hdec⟩ := hset.keep (hs.indexes? hx) hsingle hd
  have hl := h.listed_of_indexes? hx
  rw [result_ensureIndex hd.keys hl hfirst, trace_ensureIndex hd.keys hl hfirst, hdec]
  refine ⟨result_enact_keep htext _, List.forall_mem_cons.2 ⟨.inr rfl, ?_⟩⟩
  exact (leaves_logDefinition (fun _ _ => trivial) _ collection d).bind (fun _ => leaves_pure _) _

/-- A tally of declarations that have all been found. -/
def allFound (n : Nat) : Tally := { Tally.zero with found := n }

theorem ensureIndexes_kept (h : answer.Repeatable store Asked) (hs : (store a).Distinct)
    (hasked : ∀ d ∈ ds, Asked d) (hset : SettledIn (store a) database collection ds)
    (hsingle : ((store a).indexes database collection).Single) (n : Nat) :
    result answer (ensureIndexes database collection ds (allFound n)) a
        = .ok (allFound (n + ds.length))
      ∧ ∀ e ∈ trace answer (ensureIndexes database collection ds (allFound n)) a, Listing e := by
  induction ds generalizing a n with
  | nil => exact ⟨rfl, by simp [ensureIndexes]⟩
  | cons d ds ih =>
    obtain ⟨hd, hds⟩ := List.forall_mem_cons.1 hasked
    obtain ⟨xs, hx, hall⟩ := hset
    obtain ⟨⟨field, hregular, hsettled⟩, hrest⟩ := List.forall_mem_cons.1 hall
    have hxs : xs.Single := indexes_of_indexes? hx ▸ hsingle
    obtain ⟨hok, hlisting⟩ := ensureIndex_kept h.toFaithful hs hregular hx hxs hsettled
    obtain ⟨-, hr⟩ := ensureIndex_settled h hs hd hregular hx hsettled
    have hsingle' : ((store (final answer (ensureIndex database collection d) a)).indexes database
        collection).Single := by rwa [hr.indexes]
    obtain ⟨hok', hlisting'⟩ := ih (hs.reached hr) hds
      ⟨xs, (hr.indexes? database collection).trans hx, hrest⟩ hsingle' (n + 1)
    refine ⟨?_, forall_mem_trace_bind hok hlisting hlisting'⟩
    have hlength : n + (d :: ds).length = n + 1 + ds.length := by simp; omega
    rw [ensureIndexes, result_bind_of_ok hok, hlength]
    exact hok'

/-- A collection that exists is listed and nothing else. -/
theorem ensureCollection_kept (h : answer.Repeatable store Asked)
    (hx : (store a).indexes? database collection = some xs) :
    ∀ e ∈ trace answer (ensureCollection database collection) a, Listing e := by
  have hl : result answer (call (.listCollections database)) a
      = .ok (Assoc.keys ((store a).collections database)) := h.listedCollections database a
  have hm : collection ∈ Assoc.keys ((store a).collections database) := Assoc.mem_keys_of_get? hx
  refine forall_mem_trace_bind hl (leaves_call (fun _ => .inl rfl) a) ?_
  rw [if_pos hm]
  exact forall_mem_trace_bind (result_log _ _) (leaves_log trivial _) (by simp)

theorem createCollection_kept (h : answer.Repeatable store Asked) (hs : (store a).Distinct)
    (hds : definitions collection = .ok ds) (hasked : ∀ d ∈ ds, Asked d)
    (hset : SettledIn (store a) database collection ds)
    (hsingle : ((store a).indexes database collection).Single) :
    result answer (createCollection database collection) a = .ok (allFound ds.length)
      ∧ ∀ e ∈ trace answer (createCollection database collection) a, Listing e := by
  obtain ⟨xs, hx, -⟩ := id hset
  obtain ⟨hc, hr⟩ := ensureCollection_present h hx
  have hsingle' : ((store (final answer (ensureCollection database collection) a)).indexes database
      collection).Single := by rwa [hr.indexes]
  obtain ⟨hok, hlisting⟩ := ensureIndexes_kept h (hs.reached hr) hasked (hset.reached hr) hsingle' 0
  have hreq : result answer (require (definitions collection))
      (final answer (ensureCollection database collection) a) = .ok ds := hds
  refine ⟨?_, forall_mem_trace_bind hc (ensureCollection_kept h hx)
    (forall_mem_trace_bind hreq (by simp) hlisting)⟩
  rw [createCollection, result_bind_of_ok hc, result_bind_of_ok hreq, ← Nat.zero_add ds.length]
  exact hok

/-- The record that ends a run in which everything has been found. -/
def foundSummary : Level × String :=
  (.info, "Schema summary: 0 collections created, 0 indexes created, 7 already present, "
    ++ "0 TTL attached")

/-- A run that makes no calls but listings, and tells in the end that it has found everything. -/
structure Reading (answer : Handler σ) (database : String) (a : σ) : Prop where
  reads : ∀ c ∈ Event.calls (trace answer (apply database) a), c.Reads
  summary : (Event.records (trace answer (apply database) a)).getLast? = some foundSummary

/-- Where the schema is in place and no two indexes of a collection have the same keys, applying it
only reads. -/
theorem reading_of_inPlace (h : answer.Repeatable store Asked)
    (hasked : ∀ d ∈ credentialIndexes ++ sessionIndexes, Asked d) (hs : (store a).Distinct)
    (hp : InPlace database (store a))
    (hsingle : ∀ collection ∈ declaredNames, ((store a).indexes database collection).Single) :
    Reading answer database a := by
  obtain ⟨hdc, hac⟩ := asked_of_mem_collections hasked _ mem_collections_credentials
  obtain ⟨hds, has⟩ := asked_of_mem_collections hasked _ mem_collections_sessions
  have hpc := hp.settled _ mem_collections_credentials
  obtain ⟨-, hr⟩ := createCollection_settled h hs hdc hac hpc
  have hps := (hp.reached hr).settled _ mem_collections_sessions
  have hs' := hs.reached hr
  obtain ⟨-, hr'⟩ := createCollection_settled h hs' hds has hps
  have hverified : result answer (verify database) (afterSessions answer database a) = .ok [] :=
    (result_missingIn_eq_nil_iff h.toFaithful).2 (hp.reached (hr.trans hr')).complete
  obtain ⟨hfirst, hlisting⟩ := createCollection_kept h hs hdc hac hpc
    (hsingle _ (by simp [declaredNames]))
  have hsingle' :
      ((store (afterCredentials answer database a)).indexes database sessions).Single := by
    rw [hr.indexes]
    exact hsingle _ (by simp [declaredNames])
  obtain ⟨hsecond, hlisting'⟩ := createCollection_kept h hs' hds has hps hsingle'
  have hsucc : Succeeds answer database a (allFound 3) (allFound 4) :=
    ⟨hfirst, hsecond, hverified⟩
  constructor
  · refine reads_of_listing ?_
    rw [hsucc.trace_apply]
    refine List.forall_mem_cons.2 ⟨trivial, List.forall_mem_append.2 ⟨hlisting,
      List.forall_mem_append.2 ⟨hlisting', List.forall_mem_append.2 ⟨?_, ?_⟩⟩⟩⟩
    · exact leaves_missingIn listing_listIndexes _
    · simp [closingEvents, Listing]
  · rw [hsucc.trace_apply, ← List.singleton_append]
    simp only [Event.records_append, List.getLast?_append]
    rfl

/-- **Applying the schema again.** If applying the schema to a repeatable server has succeeded,
whatever its contents were, then every further run succeeds as well, announces the success, and
leaves the contents as the first run has left them. If moreover no two indexes of a declared
collection have the same keys then, all further runs only read. -/
theorem rerun_apply (h : answer.Repeatable store Asked)
    (hasked : ∀ d ∈ credentialIndexes ++ sessionIndexes, Asked d) {target : String} {a : σ}
    (hs : (store a).Distinct) (hr : result answer (apply target) a = .ok ()) (n : ℕ) :
    store ((final answer (apply target))^[n + 1] a) = store (final answer (apply target) a)
      ∧ RunsIdle answer store target ((final answer (apply target))^[n + 1] a)
      ∧ ((∀ collection ∈ declaredNames,
            ((store (final answer (apply target) a)).indexes target collection).Single) →
          Reading answer target ((final answer (apply target))^[n + 1] a)) := by
  obtain ⟨hs', hp⟩ := inPlace_apply h hasked hs hr
  have hstore : store ((final answer (apply target))^[n + 1] a)
      = store (final answer (apply target) a) := by
    induction n with
    | zero => rfl
    | succ n ih =>
      rw [Function.iterate_succ_apply',
        (runsIdle_of_inPlace h hasked (ih ▸ hs') (ih ▸ hp)).unchanged]
      exact ih
  rw [← hstore] at hs' hp
  refine ⟨hstore, runsIdle_of_inPlace h hasked hs' hp, fun hsingle => ?_⟩
  rw [← hstore] at hsingle
  exact reading_of_inPlace h hasked hs' hp hsingle

/-- A server whose sessions are indexed by the time of expiry, under a name of its own and without
a time to live. -/
def untimedServer : Server where
  store := [("appdb", [(sessions, [
    ("by_expiry", [("key", .doc [("expires_at", .int 1)])])])])]
  clients := 0

theorem rerun_apply_untimed :
    result Server.answer (apply "appdb") untimedServer = .ok ()
      ∧ ∀ n, RunsIdle Server.answer Server.store "appdb"
          ((final Server.answer (apply "appdb"))^[n + 1] untimedServer)
        ∧ Reading Server.answer "appdb"
          ((final Server.answer (apply "appdb"))^[n + 1] untimedServer) := by
  have hs : untimedServer.store.Distinct := by decide
  have hr : result Server.answer (apply "appdb") untimedServer = .ok () := rfl
  have hsingle : ∀ collection ∈ declaredNames,
      ((final Server.answer (apply "appdb") untimedServer).store.indexes "appdb"
        collection).Single := by
    decide +kernel
  refine ⟨hr, fun n => ?_⟩
  obtain ⟨-, hidle, hreading⟩ := rerun_apply Server.repeatable plain_declared hs hr n
  exact ⟨hidle, hreading hsingle⟩

end Schema

end Provisioner
