import Provisioner.Proofs.Schema.AdmittedSchema
import Provisioner.Proofs.Schema.ChangeOccasion

/-!
# Timely work on a server with faults

A server with faults strikes a call with an error, or it passes the call over: it acknowledges it
and does nothing. Only the latter can mislead the work. As long as no creation is passed over, every
index is asked for in a collection that exists. And as long as the plain index on the time of expiry
is not passed over, the last stage creates no index, because a collection keeps one index per
pattern: it finds one that expires as declared or gives it the time to live, and if neither can be
done, its request is rejected.

What carries the latter through the stages is that the indexes of the sessions remain tidy, whatever
strikes. Bringing an index into being appends the declared one if there is none on its field, or
attaches a time to live, or leaves the indexes alone.

## Main definitions

* `FaultyServer.PassesOver` — a call is struck by a fault without an error
* `Schema.Requested`, `RegularStep` — what a request for a declared index comes to, and what
  bringing it into being does
* `Schema.TidySessions` — a server whose sessions have tidy indexes
* `Schema.ExpiryShared`, `Timely` — what is seen of the last stage, and of the whole

## Main results

* `Schema.requested`, `regularStep_ensureIndex` — they come to nothing else
* `Schema.tidySessions_attempts` — the indexes of the sessions remain tidy
* `Schema.onField_of_ensureIndex` — an index that has been brought into being is there
* `Schema.expiryShared_of_onField` — the last stage creates no index
* `Schema.timely_apply` — the whole of the work
-/

namespace Provisioner

open Store

/-! ### Calls that are passed over -/

namespace FaultyServer

/-- A call is struck by a fault that has no error. -/
def PassesOver (s : FaultyServer) (c : Call) : Prop := (Fault.strike c s.faults).1 = some none

/-- A call fails without effect, is passed over, or is carried out. -/
theorem answer_cases (c : Call) (s : FaultyServer) :
    (∃ e, (answer c s).1 = .error e ∧ (answer c s).2.server = s.server)
      ∨ (s.PassesOver c ∧ (∃ a, (answer c s).1 = .ok a) ∧ (answer c s).2.server = s.server)
      ∨ ((answer c s).1 = (s.server.answer c).1
        ∧ (answer c s).2.server = (s.server.answer c).2) := by
  cases ho : (Fault.strike c s.faults).1 with
  | none =>
    refine .inr (.inr ?_)
    simp only [answer, ho]
    exact ⟨rfl, rfl⟩
  | some o =>
    cases o with
    | some e => exact .inl ⟨e, by simp only [answer, ho], by simp only [answer, ho]⟩
    | none =>
      cases ha : c.effectless? with
      | some a =>
        refine .inr (.inl ⟨ho, ⟨a, ?_⟩, ?_⟩) <;> simp only [answer, ho, ha]
      | none =>
        refine .inr (.inr ?_)
        simp only [answer, ho, ha]
        exact ⟨rfl, rfl⟩

open Procedure in
/-- If every fault raises an error, then no call is passed over. -/
theorem not_passesOver_of_mem_acts {α : Type} (p : Procedure α) {s : FaultyServer}
    (h : ∀ f ∈ s.faults, f.error ≠ none) : ∀ act ∈ acts answer p s, ¬ act.2.PassesOver act.1 := by
  have hstays : ∀ (c : Call) (s : FaultyServer), (∀ f ∈ s.faults, f.error ≠ none) →
      ∀ f ∈ (answer c s).2.faults, f.error ≠ none := by
    intro c s hs
    obtain ⟨-, hleft⟩ := Fault.forall_strike (P := (· ≠ none)) c hs
    simp only [answer]
    split
    · exact hleft
    · exact hleft
    · split <;> exact hleft
  intro act hact hpass
  have hfaults := forall_moments_of_stays hstays p h act (List.mem_filter.1 hact).1
  exact (Fault.forall_strike (P := (· ≠ none)) act.1 hfaults).1 none hpass rfl

end FaultyServer

namespace Schema

open Attempt Procedure

variable {target collection field : String} {d : Definition} {s m : FaultyServer}

/-- A call is passed over in the course of some acts. -/
def PassedOver (acts : List (Call × FaultyServer)) (c : Call) : Prop :=
  ∃ m, (c, m) ∈ acts ∧ m.PassesOver c

/-- A creation that is acknowledged without taking place is passed over. -/
theorem passesOver_of_unmade {name : String}
    (h : Unmade FaultyServer.answer (fun s => s.server.store) target name m) :
    m.PassesOver (.createCollection target name) := by
  obtain ⟨hok, hnone⟩ := h
  rcases FaultyServer.answer_cases (.createCollection target name) m with
    ⟨e, he, -⟩ | ⟨hpass, -⟩ | ⟨hr, hm⟩
  · exact nomatch he.symm.trans hok
  · exact hpass
  · obtain ⟨xs, hx⟩ := Server.repeatable.opened target name m.server (hr.symm.trans hok)
    have hx' : (FaultyServer.answer (.createCollection target name) m).2.server.store.indexes?
        target name = some xs := hm ▸ hx
    exact nomatch hx'.symm.trans hnone

/-! ### Requests for an index -/

/-- The request for a declared index. -/
def fieldRequest (target collection : String) (d : Definition) (field : String) : Call :=
  .createIndex target collection (Value.ofPairs (fieldKeys field)) (Definition.options d)

/-- What a request for a declared index comes to, and which contents there are then. -/
inductive Requested (target collection : String) (d : Definition) (field : String)
    (m : FaultyServer) : Except Error Unit → Store → Prop
  /-- It is struck by an error. -/
  | struck (e : Error) : Requested target collection d field m (.error e) m.server.store
  /-- It is passed over. -/
  | ignored (h : m.PassesOver (fieldRequest target collection d field)) :
      Requested target collection d field m (.ok ()) m.server.store
  /-- It is rejected. -/
  | rejected (e : Error) : Requested target collection d field m (.error e)
      (opened target m.server.store collection)
  /-- An index exists as it is asked for. -/
  | repeated (h : Indexes.Repeated (m.server.store.indexesOrFresh target collection)
        (indexName field) (fieldKeys field) d.recorded) :
      Requested target collection d field m (.ok ()) (opened target m.server.store collection)
  /-- The index is added. -/
  | added (h : Indexes.Unclaimed (m.server.store.indexesOrFresh target collection)
        (indexName field) (fieldKeys field)) :
      Requested target collection d field m (.ok ()) (m.server.store.putIndexes target collection
        (m.server.store.indexesOrFresh target collection ++ [entry d]))

/-- A request comes to nothing else. -/
theorem requested (target collection : String) (hd : Regular d field) (m : FaultyServer) :
    Requested target collection d field m
      (FaultyServer.answer (fieldRequest target collection d field) m).1
      (FaultyServer.answer (fieldRequest target collection d field) m).2.server.store := by
  rcases FaultyServer.answer_cases (fieldRequest target collection d field) m with
    ⟨e, he, hm⟩ | ⟨hpass, ⟨a, ha⟩, hm⟩ | ⟨hr, hm⟩
  · rw [he, hm]
    exact .struck e
  · rw [ha, hm]
    exact .ignored hpass
  · rw [hr, hm]
    cases hc : (m.server.store.indexesOrFresh target collection).create
        (Value.ofPairs (fieldKeys field)) (Definition.options d) with
    | error e =>
      simp only [fieldRequest, Server.answer, Server.createIndex_of_error hc]
      exact .rejected e
    | ok ys =>
      simp only [fieldRequest, Server.answer, Server.createIndex_of_ok hc]
      rcases (Indexes.create_eq_ok_iff hd.requestedName (pattern_fieldKeys field)).1 hc with
        ⟨hrep, rfl⟩ | ⟨hu, rfl⟩
      · exact .repeated hrep
      · have hentry : entry d = (indexName field, Indexes.record (fieldKeys field) d.recorded) := by
          rw [entry, hd.defaultName, hd.pattern]
        have hadded := Requested.added (d := d) hu
        rw [hentry] at hadded
        exact hadded

/-- An index that is not in the way of any other provides for its declaration. -/
theorem provide_of_unclaimed {xs : Indexes} (hd : Regular d field)
    (h : Indexes.Unclaimed xs (indexName field) (fieldKeys field)) :
    provide xs d = xs ++ [entry d] := by
  rw [provide, if_neg]
  rintro ⟨e, he, hk⟩
  rw [hd.pattern, h.pattern e he] at hk
  contradiction

/-- Tidy indexes remain tidy, whatever a request comes to. -/
theorem Requested.tidy {outcome : Except Error Unit} {t : Store}
    (h : Requested target collection d field m outcome t) (hp : d.Plain) (hd : Regular d field)
    (ht : Tidy (m.server.store.indexesOrFresh target collection)) :
    Tidy (t.indexesOrFresh target collection) := by
  cases h with
  | struck | ignored => exact ht
  | rejected | repeated => rwa [opened, indexesOrFresh_putIndexes_self]
  | added hu =>
    rw [indexesOrFresh_putIndexes_self, ← provide_of_unclaimed hd hu]
    exact ht.provide hp hd

/-- Some index of a collection is on a field. -/
def OnField (s : Store) (target collection field : String) : Prop :=
  ∃ e ∈ s.indexes target collection, Indexes.hasPattern (fieldKeys field) e.2 = true

/-- Where a request is granted there is an index on the field, unless it has been passed over. -/
theorem Requested.onField {t : Store} (h : Requested target collection d field m (.ok ()) t)
    (hp : d.Plain) (hd : Regular d field) :
    OnField t target collection field ∨ m.PassesOver (fieldRequest target collection d field) := by
  cases h with
  | ignored hpass => exact .inr hpass
  | repeated hrep =>
    obtain ⟨info, hg, hk, -⟩ := hrep
    refine .inl ⟨(indexName field, info), ?_, hk⟩
    rw [opened, indexes_putIndexes_self]
    exact Assoc.mem_of_get? hg
  | added hu =>
    refine .inl ⟨entry d, ?_, hd.pattern ▸ (hasPattern_entry_iff hp hd hd).2 rfl⟩
    rw [indexes_putIndexes_self]
    exact List.mem_append_right _ (List.mem_singleton_self _)

/-- Where an index is on the field, a request for another one changes nothing, and it is not
granted unless it is passed over or repeats one that has the declared keys and options. -/
theorem Requested.of_onField {outcome : Except Error Unit} {t : Store} {xs : Indexes}
    (h : Requested target collection d field m outcome t)
    (hx : m.server.store.indexes? target collection = some xs)
    (hon : OnField m.server.store target collection field) :
    t.indexes target collection = m.server.store.indexes target collection
      ∧ (outcome = .ok () → m.PassesOver (fieldRequest target collection d field)
        ∨ Indexes.Repeated xs (indexName field) (fieldKeys field) d.recorded) := by
  have hopened : (opened target m.server.store collection).indexes target collection
      = m.server.store.indexes target collection := by
    rw [opened, indexes_putIndexes_self, indexesOrFresh_of_indexes? hx, indexes_of_indexes? hx]
  cases h with
  | struck => exact ⟨rfl, by simp⟩
  | ignored hpass => exact ⟨rfl, fun _ => .inl hpass⟩
  | rejected => exact ⟨hopened, by simp⟩
  | repeated hrep => exact ⟨hopened, fun _ => .inr (indexesOrFresh_of_indexes? hx ▸ hrep)⟩
  | added hu =>
    obtain ⟨e, he, hk⟩ := hon
    rw [indexes_of_indexes? hx, ← indexesOrFresh_of_indexes? hx] at he
    exact absurd hk (by simp [hu.pattern e he])

/-! ### One declaration -/

/-- What bringing a declared index into being can do to the contents of a server with faults. -/
inductive RegularStep (target collection : String) (d : Definition) (field : String)
    (s : FaultyServer) : Store → Prop
  | same {t : Store} (h : Reached target s.server.store t) :
      RegularStep target collection d field s t
  | requested {m : FaultyServer} {outcome : Except Error Unit} {t : Store}
      (hm : Reached target s.server.store m.server.store)
      (h : Requested target collection d field m outcome t) :
      RegularStep target collection d field s t
  | expired {xs : Indexes} {name : String} {info : Info}
      (hx : s.server.store.indexes? target collection = some xs)
      (hg : Assoc.get? xs name = some info) (hi : info.Expirable d) :
      RegularStep target collection d field s
        (s.server.store.putIndexes target collection (expired xs name info d))

/-- It does nothing else, however it ends. -/
theorem regularStep_ensureIndex (hs : s.server.store.Distinct) (hd : Regular d field) :
    RegularStep target collection d field s
      (final FaultyServer.answer (ensureIndex target collection d) s).server.store := by
  have hr := reached_listed FaultyServer.careful target collection s
  rcases final_ensureIndex FaultyServer.answer target collection d s with
    he | he | ⟨keys, xs, found, hseen, he⟩
  · rw [he]
    exact .same (.refl target _)
  · rw [he]
    exact .same hr
  · rw [he]
    cases hdec : Decision.of found d with
    | keep => exact .same hr
    | create conflict =>
      obtain rfl := Except.ok.inj (hseen.declared.symm.trans hd.keys)
      exact .requested hr (requested target collection hd _)
    | attach index seconds =>
      rcases acted_attach FaultyServer.careful hs hseen hdec with
        hreach | ⟨info, hx, hg, hi, -, hput⟩
      · exact .same hreach
      · rw [hput]
        exact .expired hx hg hi

theorem indexesOrFresh_of_reached {s t : Store} (h : Reached target s t) (collection : String) :
    t.indexesOrFresh target collection = s.indexesOrFresh target collection := by
  rw [Store.indexesOrFresh, h.indexes?, Store.indexesOrFresh]

/-- An index to which a time to live is to be attached does not expire as declared. -/
theorem expiresAs_of_expirable {info : Info} (h : info.Expirable d) :
    info.expiresAs (Document.field d Index.ttl) = false :=
  Bool.eq_false_iff.2 fun he => h.limited (Info.ttl_eq_null_of_expiresAs h.unlimited he)

/-- Tidy indexes remain tidy when a declaration is brought into being. -/
theorem RegularStep.tidy {t : Store} (h : RegularStep target collection d field s t)
    (hs : s.server.store.Distinct) (hp : d.Plain) (hd : Regular d field)
    (ht : Tidy (s.server.store.indexesOrFresh target collection)) :
    Tidy (t.indexesOrFresh target collection) := by
  cases h with
  | same hr => exact indexesOrFresh_of_reached hr collection ▸ ht
  | requested hm h => exact h.tidy hp hd (indexesOrFresh_of_reached hm collection ▸ ht)
  | expired hx hg hi =>
    have hk := hi.hasKeys
    rw [hd.keys, hasKeys_fieldKeys_iff] at hk
    rw [indexesOrFresh_of_indexes? hx] at ht
    rw [indexesOrFresh_putIndexes_self, ← provide_of_expired (hs.indexes? hx) ht hd
      (Assoc.mem_of_get? hg) hk (expiresAs_of_expirable hi)]
    exact ht.provide hp hd

/-- Where an index is on the field of a declaration, none is created. -/
theorem RegularStep.keys {t : Store} {xs : Indexes}
    (h : RegularStep target collection d field s t)
    (hx : s.server.store.indexes? target collection = some xs)
    (hon : OnField s.server.store target collection field) :
    Assoc.keys (t.indexes target collection)
      = Assoc.keys (s.server.store.indexes target collection) := by
  cases h with
  | same hr => exact congrArg Assoc.keys (hr.indexes target collection)
  | requested hm h =>
    have hsame := hm.indexes target collection
    have hreq := h.of_onField ((hm.indexes? target collection).trans hx) (by rwa [OnField, hsame])
    exact congrArg Assoc.keys (hreq.1.trans hsame)
  | expired hx' hg =>
    rw [indexes_putIndexes_self, indexes_of_indexes? hx']
    exact Assoc.keys_set_of_mem _ (Assoc.mem_keys_of_get? hg)

/-- A declared index without a time to live that has been brought into being is there, unless the
request for it has been passed over. -/
theorem onField_of_ensureIndex {o : Outcome} (hp : d.Plain) (hd : Regular d field)
    (hn : Document.field d Index.ttl = .null)
    (hok : result FaultyServer.answer (ensureIndex target collection d) s = .ok o) :
    OnField (final FaultyServer.answer (ensureIndex target collection d) s).server.store target
        collection field
      ∨ PassedOver (acts FaultyServer.answer (ensureIndex target collection d) s)
          (fieldRequest target collection d field) := by
  obtain ⟨keys, xs, found, hseen, hcalled, he⟩ := ensureIndex_eq_ok hok
  obtain rfl := Except.ok.inj (hseen.declared.symm.trans hd.keys)
  rw [he, acts_ensureIndex_of_seen hseen]
  cases hdec : Decision.of found d with
  | keep =>
    obtain ⟨name, info, rfl, -, -⟩ := Decision.of_eq_keep_iff.1 hdec
    have hr := reached_listed FaultyServer.careful target collection s
    refine .inl ⟨(name, info), ?_,
      hasKeys_fieldKeys_iff.1 (Indexes.hasKeys_of_find? hseen.first)⟩
    rw [acted, hr.indexes, ← hseen.eq_indexes FaultyServer.careful]
    exact Indexes.mem_of_find? hseen.first
  | attach index seconds =>
    obtain ⟨-, -, -, -, rfl, hlimit⟩ := Decision.of_eq_attach_iff.1 hdec
    exact absurd hn hlimit
  | create conflict =>
    rw [hdec] at hcalled
    have hreq := requested target collection hd (listed FaultyServer.answer target collection s)
    have hgranted : (FaultyServer.answer (fieldRequest target collection d field)
        (listed FaultyServer.answer target collection s)).1 = .ok () := hcalled
    rw [hgranted] at hreq
    exact (hreq.onField hp hd).imp_right fun hpass => ⟨_, List.mem_singleton_self _, hpass⟩

/-- What has been done about an index when a decision has been acted on. -/
def outcomeOf : Decision → Outcome
  | .keep => .found
  | .attach _ _ => .attached
  | .create _ => .created

theorem outcome_of_enact {σ : Type} {answer : Handler σ} {a : σ} {keys : Value}
    {decision : Decision} {o : Outcome}
    (h : result answer (enact target collection d keys decision) a = .ok o) :
    o = outcomeOf decision := by
  cases decision with
  | keep =>
    obtain ⟨u, -, h⟩ := result_bind_eq_ok_iff.1 h
    exact (Except.ok.inj h).symm
  | attach index seconds =>
    obtain ⟨u, -, h⟩ := result_bind_eq_ok_iff.1 h
    obtain ⟨v, -, h⟩ := result_bind_eq_ok_iff.1 h
    exact (Except.ok.inj h).symm
  | create conflict =>
    obtain ⟨u, -, h⟩ := result_bind_eq_ok_iff.1 h
    obtain ⟨v, -, h⟩ := result_bind_eq_ok_iff.1 h
    obtain ⟨w, -, h⟩ := result_bind_eq_ok_iff.1 h
    exact (Except.ok.inj h).symm

/-- If it succeeds there, then what is declared has been found, or the time to live has been
attached, or the request for another index has been passed over. -/
theorem outcome_ensureIndex {xs : Indexes} {o : Outcome}
    (hx : s.server.store.indexes? target collection = some xs) (hs : s.server.store.Distinct)
    (ht : Tidy xs) (hd : Regular d field) (hon : OnField s.server.store target collection field)
    (hok : result FaultyServer.answer (ensureIndex target collection d) s = .ok o) :
    o = .attached ∨ o = .found
      ∨ PassedOver (acts FaultyServer.answer (ensureIndex target collection d) s)
          (fieldRequest target collection d field) := by
  have hr := reached_listed FaultyServer.careful target collection s
  obtain ⟨keys, xs', found, hseen, hcalled, -⟩ := ensureIndex_eq_ok hok
  obtain rfl := Except.ok.inj (hseen.declared.symm.trans hd.keys)
  have hxs := hseen.eq_indexes FaultyServer.careful
  rw [indexes_of_indexes? hx] at hxs
  subst hxs
  rw [result_ensureIndex hd.keys hseen.listing hseen.first] at hok
  have ho := outcome_of_enact hok
  rw [acts_ensureIndex_of_seen hseen]
  cases hdec : Decision.of found d with
  | keep => exact .inr (.inl (by rw [ho, hdec, outcomeOf]))
  | attach index seconds => exact .inl (by rw [ho, hdec, outcomeOf])
  | create conflict =>
    rw [hdec] at hcalled
    have hreq := (requested target collection hd (listed FaultyServer.answer target collection
      s)).of_onField ((hr.indexes? target collection).trans hx)
        (by rwa [OnField, hr.indexes target collection])
    rcases hreq.2 hcalled with hpass | hrep
    · exact .inr (.inr ⟨_, List.mem_singleton_self _, hpass⟩)
    · -- The index that has been found is in conflict, so that the declared one does not exist.
      rcases ht.find? field with ⟨e, he, hk, hf⟩ | ⟨hnone, -⟩
      · obtain rfl := Except.ok.inj (hf.symm.trans hseen.first)
        have hconflict := (Decision.of_eq_create_iff.1 hdec).2
        exact absurd hrep (not_repeated_of_conflicts (hs.indexes? hx) ht hd he hk hconflict)
      · obtain ⟨e, he, hk⟩ := hon
        rw [indexes_of_indexes? hx] at he
        exact absurd hk (by simp [hnone e he])

/-! ### Tidy sessions -/

/-- A server whose sessions have tidy indexes. -/
structure TidySessions (target : String) (s : FaultyServer) : Prop where
  distinct : s.server.store.Distinct
  tidy : Tidy (s.server.store.indexesOrFresh target sessions)

/-- Bringing a collection into being gives it no other indexes than it has from its creation. -/
theorem CollectionStep.indexesOrFresh {s t : Store} {name : String}
    (h : CollectionStep target name s t) (collection : String) :
    t.indexesOrFresh target collection = s.indexesOrFresh target collection := by
  cases h with
  | same hr => exact indexesOrFresh_of_reached hr collection
  | created hn =>
    by_cases hc : collection = name
    · rw [hc, indexesOrFresh_putIndexes_self, Store.indexesOrFresh, hn]
      rfl
    · exact indexesOrFresh_putIndexes_of_ne _ hc

/-- Every stage leaves the indexes of the sessions tidy. -/
theorem tidySessions_attempt {stage : Stage} (hm : stage ∈ Stage.all) (h : TidySessions target s) :
    TidySessions target (final FaultyServer.answer (stage.attempt target) s) := by
  refine ⟨distinct_final FaultyServer.careful _ h.distinct, ?_⟩
  cases stage with
  | collection name =>
    have hstep := collectionStep_ensureCollection FaultyServer.careful target name s
    rw [Stage.attempt, final_map, hstep.indexesOrFresh]
    exact h.tidy
  | index collection d =>
    rw [Stage.attempt, final_map]
    by_cases hc : collection = sessions
    · subst hc
      obtain ⟨field, hd⟩ := regular_of_mem_all hm
      exact (regularStep_ensureIndex h.distinct hd).tidy h.distinct
        (plain_declared d (mem_declared_of_mem_all hm)) hd h.tidy
    · have hstep := indexStep_ensureIndex FaultyServer.careful target collection d h.distinct
      rw [Store.indexesOrFresh, hstep.indexes?_of_ne (Ne.symm hc)]
      exact h.tidy

/-- Several stages do so too. -/
theorem tidySessions_attempts {stages : List Stage} (hm : ∀ stage ∈ stages, stage ∈ Stage.all)
    (h : TidySessions target s) :
    TidySessions target (final FaultyServer.answer (attempts target stages) s) := by
  induction stages generalizing s with
  | nil => exact h
  | cons stage stages ih =>
    obtain ⟨hstage, hstages⟩ := List.forall_mem_cons.1 hm
    have hnext := tidySessions_attempt hstage h
    rw [attempts]
    refine final_bind_either hnext fun deed _ => ?_
    rw [bind_pure_comp, final_map]
    exact ih hstages hnext

/-! ### The last stage -/

/-- What is seen of the last stage. The names of the indexes are those that they have been, so none
has been created; and if the stage succeeds, then it has found what is declared or has attached the
time to live, unless the request for an index has been passed over. -/
structure ExpiryShared (target : String) (s : FaultyServer) : Prop where
  names : Assoc.keys ((final FaultyServer.answer (ensureIndex target sessions expiry)
      s).server.store.indexes target sessions)
    = Assoc.keys (s.server.store.indexes target sessions)
  outcome : ∀ o, result FaultyServer.answer (ensureIndex target sessions expiry) s = .ok o →
    o = .attached ∨ o = .found
      ∨ PassedOver (acts FaultyServer.answer (ensureIndex target sessions expiry) s)
          (fieldRequest target sessions expiry "expires_at")

/-- With tidy indexes, one of which is on the time of expiry, the last stage creates none. -/
theorem expiryShared_of_onField (h : TidySessions target s)
    (hon : OnField s.server.store target sessions "expires_at") : ExpiryShared target s := by
  have hd : Regular expiry "expires_at" := ⟨rfl, rfl⟩
  obtain ⟨e, he, hk⟩ := id hon
  have hx := indexes?_of_mem_indexes he
  have ht := h.tidy
  rw [indexesOrFresh_of_indexes? hx] at ht
  exact ⟨(regularStep_ensureIndex h.distinct hd).keys hx hon,
    fun o => outcome_ensureIndex hx h.distinct ht hd hon⟩

/-! ### The whole of the work -/

/-- One stage after some others. -/
theorem attempts_concat (database : String) (stages : List Stage) (stage : Stage) :
    attempts database (stages ++ [stage]) = do
      let deeds ← attempts database stages
      let deed ← stage.attempt database
      return deeds ++ [deed] := by
  simp [attempts_append, attempts]

theorem mem_acts_concat {stages : List Stage} {stage : Stage} {act : Call × FaultyServer}
    (h : act ∈ acts FaultyServer.answer (attempts target stages) s) :
    act ∈ acts FaultyServer.answer (attempts target (stages ++ [stage])) s := by
  rw [attempts_concat]
  exact mem_acts_bind h

/-- Once the stages before the last one have been gone through, the last one creates no index,
unless the request for the plain index on the time of expiry has been passed over. -/
theorem expiryShared_or_passedOver {deeds : List Deed} (h : TidySessions target s)
    (hok : result FaultyServer.answer (attempts target Stage.all.dropLast) s = .ok deeds) :
    ExpiryShared target (final FaultyServer.answer (attempts target Stage.all.dropLast) s)
      ∨ PassedOver (acts FaultyServer.answer (apply target) s)
          (fieldRequest target sessions plainExpiry "expires_at") := by
  have hall : Stage.all = Stage.all.dropLast ++ [.index sessions expiry] := rfl
  have hsplit : Stage.all.dropLast
      = Stage.all.dropLast.dropLast ++ [.index sessions plainExpiry] := rfl
  have htidy : TidySessions target
      (final FaultyServer.answer (attempts target Stage.all.dropLast) s) :=
    tidySessions_attempts (fun stage hm => List.dropLast_subset _ hm) h
  have hplain : plainExpiry.Plain := plain_declared plainExpiry (by simp [sessionIndexes])
  rw [hsplit, attempts_concat] at hok
  obtain ⟨earlier, hearlier, hok⟩ := result_bind_eq_ok_iff.1 hok
  obtain ⟨deed, hdeed, -⟩ := result_bind_eq_ok_iff.1 hok
  obtain ⟨o, ho, -⟩ := result_map_eq_ok_iff.1 hdeed
  have hfinal : final FaultyServer.answer (attempts target Stage.all.dropLast) s
      = final FaultyServer.answer (ensureIndex target sessions plainExpiry)
          (final FaultyServer.answer (attempts target Stage.all.dropLast.dropLast) s) := by
    rw [hsplit, attempts_concat, final_bind_of_ok hearlier, final_bind_of_ok hdeed, Stage.attempt,
      final_map]
    rfl
  rcases onField_of_ensureIndex hplain ⟨rfl, rfl⟩ rfl ho with hon | ⟨m, hm, hpass⟩
  · rw [← hfinal] at hon
    exact .inl (expiryShared_of_onField htidy hon)
  · refine .inr ⟨m, ?_, hpass⟩
    rw [acts_apply, hall]
    refine mem_acts_concat ?_
    rw [hsplit, attempts_concat, acts_bind_of_ok hearlier]
    refine List.mem_append_right _ (mem_acts_bind ?_)
    rwa [Stage.attempt, acts_map]

/-- What is seen of applying the schema on a server with faults. -/
structure Timely (target : String) (s : FaultyServer) : Prop where
  /-- The acts follow the stages, each on its occasion. A collection is missed only if its creation
  is passed over. -/
  acts : InOrder (fun s : FaultyServer => s.server.store) target
    (fun name => PassedOver (acts FaultyServer.answer (apply target) s)
      (.createCollection target name))
    Stage.all (acts FaultyServer.answer (apply target) s)
  /-- If no two indexes of the sessions have the same keys, then the last stage creates none, unless
  the request for the plain index on the time of expiry is passed over. -/
  last : (s.server.store.indexes target sessions).Single → ∀ deeds,
    result FaultyServer.answer (attempts target Stage.all.dropLast) s = .ok deeds →
      ExpiryShared target (final FaultyServer.answer (attempts target Stage.all.dropLast) s)
        ∨ PassedOver (Procedure.acts FaultyServer.answer (apply target) s)
            (fieldRequest target sessions plainExpiry "expires_at")
  /-- Nothing is passed over if every fault raises an error. -/
  raised : (∀ f ∈ s.faults, f.error ≠ none) → ∀ c,
    ¬ PassedOver (Procedure.acts FaultyServer.answer (apply target) s) c

/-- **Timely work.** Whatever a server contains, as long as the indexes of its sessions can be read,
and whichever of its calls are struck. -/
theorem timely_apply (target : String) (hs : s.server.store.Distinct)
    (hw : ∀ e ∈ s.server.store.indexes target sessions, Info.WellFormed e.2) :
    Timely target s where
  acts := by
    refine inOrder_apply FaultyServer.careful hs fun name b hb hunmade => ?_
    exact ⟨b, hb, passesOver_of_unmade hunmade⟩
  raised h c := by
    rintro ⟨m, hm, hpass⟩
    exact FaultyServer.not_passesOver_of_mem_acts _ h _ hm hpass
  last hsingle deeds hok := by
    have htidy : TidySessions target s := ⟨hs, tidy_indexesOrFresh hw hsingle⟩
    exact expiryShared_or_passedOver htidy hok

/-- On the server whose sessions have an index on the time of expiry under a name of its own the
last stage is reached, and gives it the time to live, before the work is called off. -/
theorem timely_interrupted :
    interruptedServer.server.store.Distinct
      ∧ (∀ e ∈ interruptedServer.server.store.indexes "appdb" sessions, Info.WellFormed e.2)
      ∧ Timely "appdb" interruptedServer
      ∧ (acts FaultyServer.answer (apply "appdb") interruptedServer).map (fun act => act.1.kind)
        = .createCollection :: List.replicate 5 .createIndex ++ [.expireIndex] := by
  have hs : interruptedServer.server.store.Distinct := by decide
  have hw : ∀ e ∈ interruptedServer.server.store.indexes "appdb" sessions,
      Info.WellFormed e.2 := by decide
  exact ⟨hs, hw, timely_apply "appdb" hs hw, by decide +kernel⟩

/-- A server without contents that acknowledges the creation of the credentials and the request for
the plain index on the time of expiry, once each, and does nothing. -/
def forgetfulServer : FaultyServer where
  server := { store := [], clients := 0 }
  faults := [
    { call := .createCollection, database := none, collection := some credentials, name := none
      skip := 0, times := some 1, error := none },
    { call := .createIndex, database := none, collection := none, name := some "expires_at_1"
      skip := 0, times := some 1, error := none }]

/-- There an index is asked for in a collection that does not exist, and the last stage creates
one. -/
theorem untimely_forgetful :
    forgetfulServer.server.store.Distinct
      ∧ (forgetfulServer.server.store.indexes "appdb" sessions).Single
      ∧ ¬ InOrder (fun s : FaultyServer => s.server.store) "appdb" (fun _ => False) Stage.all
          (acts FaultyServer.answer (apply "appdb") forgetfulServer)
      ∧ result FaultyServer.answer (attempts "appdb" Stage.all) forgetfulServer
        = .ok (.opened :: List.replicate 3 .created ++ .opened :: List.replicate 4 .created) := by
  refine ⟨by decide, by decide, fun h => ?_, by rfl⟩
  -- The second act asks for an index of the credentials, whose creation was the first one.
  obtain ⟨⟨c, m⟩, hm, hc, hx⟩ : ∃ act ∈ acts FaultyServer.answer (apply "appdb") forgetfulServer,
      (∃ keys options, act.1 = .createIndex "appdb" credentials keys options)
        ∧ act.2.server.store.indexes? "appdb" credentials = none :=
    ⟨_, List.mem_cons_of_mem _ List.mem_cons_self, ⟨_, _, rfl⟩, rfl⟩
  obtain ⟨keys, options, rfl⟩ := hc
  obtain ⟨stage, -, ho⟩ := h.exists_occasion hm
  cases ho with
  | declared hk hex => exact hex.elim (absurd hx) id

end Schema

end Provisioner
