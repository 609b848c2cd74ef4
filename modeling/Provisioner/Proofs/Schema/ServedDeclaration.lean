import Provisioner.Proofs.Schema.StepwiseAttempt
import Provisioner.Proofs.Store.FaithfulServer

/-!
# Nothing is missing after it has been ensured

Ensuring a declaration looks at the first index that has its keys; verifying looks at all indexes,
and asks of each of them whether it serves. That the second finds what the first has left is due to
an invariant: a declaration that is served by some index of a collection goes on being served,
whatever is ensured afterwards, be it for the same keys with another time to live. For indexes
are only added, and a time to live is only given to an index that has none, which then goes on to
serve all declarations that it has served before.

## Main definitions

* `Schema.Serving` — what has been served is still served
* `Schema.Ensured` — the state that ensuring some declarations leads to

## Main results

* `Schema.fit_ensureIndex` — a declaration is served once it has been ensured
* `Schema.serving_ensureIndexes` — and goes on being served
* `Schema.ensured_declarations` — what has been ensured is not missing, and applying the schema
  never finds anything missing
-/

namespace Provisioner

open Store

namespace Schema

open Attempt Procedure

variable {σ : Type} {answer : Handler σ} {store : σ → Store} {Asked : Definition → Prop}
  {database collection : String} {d : Definition} {ds : List Definition} {a b c : σ}

/-! ### What is served goes on being served -/

/-- Whatever has been served in a collection of the database is still served. -/
def Serving (database : String) (s t : Store) : Prop :=
  ∀ collection d, (s.indexes database collection).Fit d → (t.indexes database collection).Fit d

theorem Serving.refl (database : String) (s : Store) : Serving database s s := fun _ _ hf => hf

theorem Serving.trans {s t u : Store} (h : Serving database s t) (h' : Serving database t u) :
    Serving database s u := fun collection d hf => h' collection d (h collection d hf)

theorem serving_of_reached {s t : Store} (h : Reached database s t) : Serving database s t := by
  intro collection d hf
  rw [h.indexes]
  exact hf

theorem serving_of_indexStep {s t : Store} (hs : s.Distinct)
    (h : IndexStep database collection d s t) : Serving database s t := by
  intro other e hf
  by_cases ho : other = collection
  · subst ho
    exact h.fit hs hf
  · rw [h.indexes_of_ne ho]
    exact hf

theorem serving_ensureIndexes (h : answer.Careful store) (database collection : String)
    (ds : List Definition) (tally : Tally) (a : σ) :
    Along store (Serving database) a
      (final answer (ensureIndexes database collection ds tally) a) :=
  along_ensureIndexes (Serving.refl database) Serving.trans h
    (fun _ _ => serving_of_indexStep) tally a

theorem serving_createCollection (h : answer.Careful store) (hds : definitions collection = .ok ds)
    (database : String) (a : σ) :
    Along store (Serving database) a
      (final answer (createCollection database collection) a) :=
  along_createCollection (Serving.refl database) Serving.trans h hds
    (fun hstep _ _ => hstep.fit) (fun _ _ => serving_of_indexStep) a

/-! ### What has been ensured is served -/

/-- A declaration is served once it has been ensured. -/
theorem fit_ensureIndex (h : answer.Faithful store Asked) (hs : (store a).Distinct)
    (hd : Asked d) (hc : d.Comparable) {o : Outcome}
    (hr : result answer (ensureIndex database collection d) a = .ok o) :
    ((store (final answer (ensureIndex database collection d) a)).indexes database
      collection).Fit d := by
  obtain ⟨keys, xs, found, hseen, hcalled, hfinal⟩ := ensureIndex_eq_ok hr
  have hreach := reached_listed h.toCareful database collection a
  have hlisted := h.distinct (.listIndexes database collection) a hs
  have hk := hseen.declared
  have hxs := hseen.eq_indexes h.toCareful
  subst hxs
  rw [hfinal]
  cases hdec : Decision.of found d with
  | keep =>
    obtain ⟨name, info, rfl, hcompat, hexp⟩ := Decision.of_eq_keep_iff.1 hdec
    have hkeys := Indexes.hasKeys_of_find? hseen.first
    refine ⟨(name, info), ?_, Info.fits_eq_true_iff.2 ⟨hk ▸ hkeys, hcompat, hexp⟩⟩
    rw [acted, hreach.indexes]
    exact Indexes.mem_of_find? hseen.first
  | attach index seconds =>
    obtain ⟨info, hfirst, hi, rfl⟩ := expirable_of_attach hk hseen.first hdec
    have hm := hfirst.mem
    rw [hdec] at hcalled
    obtain ⟨ys, info', hy, hg, ht⟩ := h.expired _ _ _ _ _ hcalled
    rw [hreach.indexes?, indexes?_of_mem_indexes hm] at hy
    obtain rfl := Option.some.inj hy
    have hg' := Assoc.get?_of_mem (hs.indexes database collection).nodup hm
    obtain rfl := Option.some.inj (hg.symm.trans hg')
    rw [acted, ht, indexes_putIndexes_self]
    refine ⟨_, Assoc.mem_of_get? (Assoc.get?_set_self _ index _),
      Info.fits_eq_true_iff.2 ⟨?_, ?_, ?_⟩⟩
    · rw [Info.hasKeys_set _ _ _ (by decide)]
      exact hi.hasKeys
    · rw [Info.compatible_set_ttl]
      exact hi.compatible
    · rw [Info.expiresAs, Info.field_set_self, hc, Bool.or_true]
  | create conflict =>
    rw [hdec] at hcalled
    obtain ⟨e, he, hgranted⟩ := h.created _ _ _ d _ hlisted hd hk hcalled
    exact ⟨e, he, hgranted.fits hk⟩

/-- Declarations are served once they have all been ensured, since each of them goes on being
served while the others are ensured. -/
theorem fit_ensureIndexes (h : answer.Faithful store Asked) (hs : (store a).Distinct)
    (hd : ∀ d ∈ ds, Asked d ∧ d.Comparable) {tally tally' : Tally}
    (hr : result answer (ensureIndexes database collection ds tally) a = .ok tally') :
    ∀ d ∈ ds, ((store (final answer (ensureIndexes database collection ds tally) a)).indexes
      database collection).Fit d := by
  induction ds generalizing tally a with
  | nil => simp
  | cons d ds ih =>
    obtain ⟨⟨hasked, hcomp⟩, hds⟩ := List.forall_mem_cons.1 hd
    obtain ⟨o, ho, hr⟩ := result_bind_eq_ok_iff.1 hr
    have hb := distinct_ensureIndex h.toCareful database collection d hs
    have hfit := fit_ensureIndex h hs hasked hcomp ho
    rw [ensureIndexes, final_bind_of_ok ho]
    refine List.forall_mem_cons.2 ⟨?_, ih hb hds hr⟩
    exact (serving_ensureIndexes h.toCareful database collection ds _ _ hb).2 collection d hfit

/-! ### Collections -/

/-- The declared indexes of a collection are served once it has been created. -/
theorem fit_createCollection (h : answer.Faithful store Asked) (hs : (store a).Distinct)
    (hds : definitions collection = .ok ds) (hd : ∀ d ∈ ds, Asked d ∧ d.Comparable) {tally : Tally}
    (hr : result answer (createCollection database collection) a = .ok tally) :
    ∀ d ∈ ds, ((store (final answer (createCollection database collection) a)).indexes database
      collection).Fit d := by
  obtain ⟨created, hc, hr⟩ := result_bind_eq_ok_iff.1 hr
  have hb := distinct_ensureCollection h.toCareful database collection hs
  have hreq : result answer (require (definitions collection))
      (final answer (ensureCollection database collection) a) = .ok ds := hds
  rw [result_bind_of_ok hreq] at hr
  rw [createCollection, final_bind_of_ok hc, final_bind_of_ok hreq]
  exact fit_ensureIndexes h hb hd hr

/-! ### Verifying -/

theorem result_missingIndexes (h : answer.Faithful store Asked) (database collection : String)
    (ds : List Definition) (a : σ) :
    result answer (missingIndexes database collection ds) a
      = Indexes.missing collection ((store a).indexes database collection) ds := by
  have hl : result answer (call (.listIndexes database collection)) a
      = .ok ((store a).indexes database collection) := h.listed database collection a
  rw [missingIndexes, result_bind_of_ok hl, result_require]

/-- What is served is not reported missing. -/
theorem missingIn_eq_nil (h : answer.Faithful store Asked) (hs : (store a).Distinct)
    {entries : List (String × List Definition)}
    (hf : ∀ e ∈ entries, ∀ d ∈ e.2, ((store a).indexes database e.1).Fit d) {names : List String}
    (hr : result answer (missingIn database entries) a = .ok names) : names = [] := by
  induction entries generalizing a names with
  | nil => exact (Except.ok.inj hr).symm
  | cons e entries ih =>
    obtain ⟨he, hentries⟩ := List.forall_mem_cons.1 hf
    obtain ⟨first, hfirst, hr⟩ := result_bind_eq_ok_iff.1 hr
    obtain ⟨others, hothers, hr⟩ := result_bind_eq_ok_iff.1 hr
    rw [result_missingIndexes h] at hfirst
    obtain rfl := Indexes.missing_eq_nil_of_ok he hfirst
    rw [final_missingIndexes] at hothers
    have hserving := serving_of_reached (reached_listed h.toCareful database e.1 a)
    have hs' := h.distinct (.listIndexes database e.1) a hs
    obtain rfl := ih hs' (fun e' he' d hd => hserving _ _ (hentries e' he' d hd)) hothers
    exact (Except.ok.inj hr).symm

theorem reached_missingIn (h : answer.Careful store) (database : String)
    (entries : List (String × List Definition)) (hs : (store a).Distinct) :
    Reached database (store a) (store (final answer (missingIn database entries) a)) :=
  (along_missingIn (Reached.refl database) Reached.trans h (fun hr => hr) entries a hs).2

/-- Verifying finds nothing missing if nothing is missing in any of the collections. -/
theorem result_missingIn_eq_nil_iff (h : answer.Faithful store Asked)
    {entries : List (String × List Definition)} :
    result answer (missingIn database entries) a = .ok []
      ↔ ∀ e ∈ entries, Indexes.missing e.1 ((store a).indexes database e.1) e.2 = .ok [] := by
  induction entries generalizing a with
  | nil => exact ⟨fun _ => by simp, fun _ => rfl⟩
  | cons e entries ih =>
    have hr := reached_listed h.toCareful database e.1 a
    rw [missingIn, result_bind_eq_ok_iff, List.forall_mem_cons]
    constructor
    · rintro ⟨first, hfirst, hrest⟩
      obtain ⟨others, hothers, hnil⟩ := result_bind_eq_ok_iff.1 hrest
      obtain ⟨rfl, rfl⟩ := List.append_eq_nil_iff.1 (Except.ok.inj hnil)
      rw [result_missingIndexes h] at hfirst
      rw [final_missingIndexes, ih] at hothers
      refine ⟨hfirst, fun e' he' => ?_⟩
      rw [← hr.indexes]
      exact hothers e' he'
    · rintro ⟨hfirst, hothers⟩
      refine ⟨[], (result_missingIndexes h ..).trans hfirst, ?_⟩
      rw [final_missingIndexes]
      have hrest : result answer (missingIn database entries) (listed answer database e.1 a)
          = .ok [] := by
        refine ih.2 fun e' he' => ?_
        rw [hr.indexes]
        exact hothers e' he'
      rw [result_bind_of_ok hrest]
      rfl

/-! ### Other errors -/

/-- What fails on the way to the verification fails at a value or at a call. -/
theorem stepwise_fails {P : Error → Prop} (hP : ∀ e, Error.AboutValue e → P e)
    (h : ∀ (c : Call) a, Provisioner.Fails P (answer c a).1) :
    Stepwise database fun _ x => Attempt.Fails answer P x where
  pure := fails_pure
  bind := Attempt.Fails.bind
  read hx := fails_require (hx.imp hP)
  record _ _ _ := fails_log _ _
  call c _ := fails_call (h c)

theorem stepwise_foreign (h : answer.Faithful store Asked) (database : String) :
    Stepwise database fun _ x => Attempt.Fails answer Error.Foreign x :=
  stepwise_fails (fun _ => (·.foreign)) h.foreign

/-! ### Applying the schema -/

theorem comparable_declared : ∀ d ∈ credentialIndexes ++ sessionIndexes, d.Comparable := by
  intro d hd
  exact (plain_declared d hd).eqv_field Index.ttl

/-- All declared indexes are served once both collections have been created. -/
theorem fit_collections (h : answer.Faithful store Asked)
    (hasked : ∀ d ∈ credentialIndexes ++ sessionIndexes, Asked d) {target : String}
    (hs : (store a).Distinct) {first second : Tally}
    (hfirst : result answer (createCollection target credentials) a = .ok first)
    (hsecond : result answer (createCollection target sessions)
      (final answer (createCollection target credentials) a) = .ok second) :
    ∀ e ∈ collections, ∀ d ∈ e.2,
      ((store (final answer (createCollection target sessions)
        (final answer (createCollection target credentials) a))).indexes target e.1).Fit d := by
  have hd : ∀ d ∈ credentialIndexes ++ sessionIndexes, Asked d ∧ d.Comparable :=
    fun d hd => ⟨hasked d hd, comparable_declared d hd⟩
  have hs' := distinct_createCollection h.toCareful target credentials hs
  have hserving := (serving_createCollection h.toCareful definitions_sessions target _ hs').2
  have hcred := fit_createCollection h hs definitions_credentials
    (fun d hd' => hd d (List.mem_append_left _ hd')) hfirst
  have hsess := fit_createCollection h hs' definitions_sessions
    (fun d hd' => hd d (List.mem_append_right _ hd')) hsecond
  simp only [collections, List.forall_mem_cons]
  exact ⟨fun d hd => hserving _ _ (hcred d hd), hsess, by simp⟩

/-- Where both collections have been created nothing is missing; what fails, fails otherwise. -/
theorem foreign_apply (h : answer.Faithful store Asked)
    (hasked : ∀ d ∈ credentialIndexes ++ sessionIndexes, Asked d) (target : String)
    (hs : (store a).Distinct) :
    Provisioner.Fails Error.Foreign (result answer (apply target) a) := by
  intro e he
  rw [apply, result_bind_of_ok (result_log _ _), final_log] at he
  cases hc : result answer (createCollection target credentials) a with
  | error e' =>
    rw [result_bind_of_error hc] at he
    obtain rfl := Except.error.inj he
    exact (stepwise_foreign h target).createCollection credentials a _ hc
  | ok first =>
    rw [result_bind_of_ok hc] at he
    cases hc' : result answer (createCollection target sessions)
        (final answer (createCollection target credentials) a) with
    | error e' =>
      rw [result_bind_of_error hc'] at he
      obtain rfl := Except.error.inj he
      exact (stepwise_foreign h target).createCollection sessions _ _ hc'
    | ok second =>
      rw [result_bind_of_ok hc'] at he
      cases hv : result answer (verify target) (final answer (createCollection target sessions)
          (final answer (createCollection target credentials) a)) with
      | error e' =>
        rw [result_bind_of_error hv] at he
        obtain rfl := Except.error.inj he
        exact (stepwise_foreign h target).verify _ _ hv
      | ok missing =>
        have hs' := distinct_createCollection h.toCareful target credentials hs
        have hs'' := distinct_createCollection h.toCareful target sessions hs'
        obtain rfl := missingIn_eq_nil h hs'' (fit_collections h hasked hs hc hc') hv
        rw [result_bind_of_ok hv] at he
        exact nomatch he

/-- What ensuring declarations one after the other has led to, from a state `a` to a state `b`:
each of them is served; whatever was served when some of them had been ensured still is; and
nothing is missing, if all indexes can be read. -/
structure Ensured (answer : Handler σ) (store : σ → Store) (database collection : String)
    (ds : List Definition) (tally : Tally) (a b : σ) : Prop where
  served : ∀ d ∈ ds, ((store b).indexes database collection).Fit d
  kept : ∀ before after, ds = before ++ after → ∀ d,
    ((store (final answer (ensureIndexes database collection before tally) a)).indexes database
      collection).Fit d → ((store b).indexes database collection).Fit d
  complete : (∀ e ∈ (store b).indexes database collection, Info.WellFormed e.2) →
    result answer (missingIndexes database collection ds) b = .ok []

/-- **What has been ensured is not missing.** Against a faithful server, declarations that have all
been ensured, one after the other, are all served in the end, none of them having been undone by a
later one, and none is reported missing. Hence applying the schema, from whatever contents, never
ends with the error about missing declarations. -/
theorem ensured_declarations (h : answer.Faithful store Asked) :
    (∀ database collection ds tally tally' a, (store a).Distinct →
      (∀ d ∈ ds, Asked d ∧ d.Comparable) →
      result answer (ensureIndexes database collection ds tally) a = .ok tally' →
      Ensured answer store database collection ds tally a
        (final answer (ensureIndexes database collection ds tally) a))
      ∧ ((∀ d ∈ credentialIndexes ++ sessionIndexes, Asked d) → ∀ target a, (store a).Distinct →
        ∀ names, result answer (apply target) a ≠ .error (.missingIndexes names)) := by
  refine ⟨fun database collection ds tally tally' a hs hd hr => ?_,
    fun hasked target a hs names he => foreign_apply h hasked target hs _ he names rfl⟩
  have hfit := fit_ensureIndexes h hs hd hr
  refine ⟨hfit, ?_, fun hw => ?_⟩
  · rintro before after rfl d hf
    rw [ensureIndexes_append] at hr ⊢
    obtain ⟨t, ht, -⟩ := result_bind_eq_ok_iff.1 hr
    rw [final_bind_of_ok ht]
    have hb := distinct_ensureIndexes h.toCareful database collection before tally hs
    exact (serving_ensureIndexes h.toCareful database collection after t _ hb).2 collection d hf
  · rw [result_missingIndexes h]
    exact Indexes.missing_eq_nil fun d hd => Indexes.satisfy_of_fit hw (hfit d hd)

/-- A server with two indexes on the time of expiry, one of them without a time to live, the other
with two minutes and under the name that the keys have by default. -/
def crowdedServer : Server where
  store := [("appdb", [("tokens", [
    ("by_expiry", [("key", Value.ofPairs [(.text "expires_at", .int 1)])]),
    ("expires_at_1", [("key", Value.ofPairs [(.text "expires_at", .int 1)]),
      (Index.ttl, .int 120)])])])]
  clients := 0

/-- One minute is attached to the first of these indexes, and two minutes are served by the
second. -/
theorem ensured_declarations_crowded :
    result Server.answer (ensureIndexes "appdb" "tokens"
        [ascending "expires_at" [expiring 60], plainExpiry, ascending "expires_at" [expiring 120]]
        Tally.zero) crowdedServer = .ok { Tally.zero with created := 1, found := 1, attached := 1 }
      ∧ Ensured Server.answer Server.store "appdb" "tokens"
        [ascending "expires_at" [expiring 60], plainExpiry, ascending "expires_at" [expiring 120]]
        Tally.zero crowdedServer (final Server.answer (ensureIndexes "appdb" "tokens"
          [ascending "expires_at" [expiring 60], plainExpiry, ascending "expires_at" [expiring 120]]
          Tally.zero) crowdedServer)
      ∧ ∀ names, result Server.answer (apply "appdb") crowdedServer
          ≠ .error (.missingIndexes names) := by
  have hs : crowdedServer.store.Distinct := by decide
  have hd : ∀ d ∈ [ascending "expires_at" [expiring 60], plainExpiry,
      ascending "expires_at" [expiring 120]], d.Plain ∧ d.Comparable := by
    simp only [plainExpiry, List.forall_mem_cons]
    refine ⟨⟨plain_ascending ?_ ?_ ?_, rfl⟩, ⟨plain_ascending ?_ ?_ ?_, rfl⟩,
      ⟨plain_ascending ?_ ?_ ?_, rfl⟩, by simp⟩
    all_goals decide
  have h := ensured_declarations Server.faithful
  have hr : result Server.answer (ensureIndexes "appdb" "tokens"
      [ascending "expires_at" [expiring 60], plainExpiry, ascending "expires_at" [expiring 120]]
      Tally.zero) crowdedServer
        = .ok { Tally.zero with created := 1, found := 1, attached := 1 } := rfl
  exact ⟨hr, h.1 _ _ _ _ _ _ hs hd hr, h.2 plain_declared "appdb" _ hs⟩

end Schema

end Provisioner
