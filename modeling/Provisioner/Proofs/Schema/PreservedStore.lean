import Provisioner.Proofs.Schema.GrownStore

/-!
# What applying the schema leaves alone

Applying the schema to a database never touches anything but its two declared collections, and in
these it never touches what somebody else has put there, with one exception: an ordinary index on
the time of expiry, neither unique nor partial and without a time to live, may be given the
declared one. Everything else is as it was, entry for entry and in its place.

This holds however the work ends. A server may refuse any call, fail at it or pass it over, indexes
may be unreadable, and the work may be called off in between. All that is relied on is that the
server is careful.

## Main definitions

* `Info.Unlimited` — an ordinary index on the time of expiry that expires nothing
* `Schema.Preserved` — nothing has been touched that was there, but for such an index

## Main results

* `Schema.alteration_apply` — applying the schema is growth with at most one time to live
* `Schema.preserved_apply` — the contents before applying the schema are preserved
-/

namespace Provisioner

open Store

/-- The keys of the index on the time of expiry. -/
def Schema.expiryKeys : Value := Value.ofPairs [(.text "expires_at", .int 1)]

/-- An ordinary index on the time of expiry: not unique, not partial, without a time to live. -/
structure Info.Unlimited (info : Info) : Prop where
  hasKeys : info.hasKeys (.ok Schema.expiryKeys) = .ok true
  ordinary : (Document.field info Index.uniqueness).truth = false
  whole : Document.field info Index.filter = .null
  unlimited : Document.field info Index.ttl = .null

namespace Schema

open Attempt Procedure

variable {σ : Type} {answer : Handler σ} {store : σ → Store} {target collection : String}

/-! ### Applying the schema -/

/-- The declaration with the time to live comes last. -/
theorem alteration_ensureIndexes (h : answer.Careful store) {ds : List Definition}
    (hd : ∀ d ∈ ds, Document.field d Index.ttl = .null) (tally : Tally) (a : σ) :
    Alteration store target a
      (final answer (ensureIndexes target sessions (ds ++ [expiry]) tally) a) := by
  have hc : sessions ∈ declaredNames := by simp [declaredNames]
  have hg : Growth store target a (final answer (ensureIndexes target sessions ds tally) a) :=
    growth_ensureIndexes h hc hd tally a
  have he : ∀ b, Alteration store target b (final answer (ensureIndex target sessions expiry) b) :=
    along_ensureIndex h fun _ => altered_of_indexStep
  rw [ensureIndexes_append]
  refine final_bind_either hg.toAlteration fun t _ => hg.alteration ?_
  exact final_bind_either (he _) fun o _ => (he _).growth (.refl (Grown.refl target) _)

theorem growth_createCredentials (h : answer.Careful store) (target : String) (a : σ) :
    Growth store target a (final answer (createCollection target credentials) a) := by
  have hc : credentials ∈ declaredNames := by simp [declaredNames]
  exact along_createCollection (Grown.refl target) Grown.trans h rfl (grown_of_collectionStep hc)
    (fun d hm => fun _ hstep => grown_of_indexStep hc (ttl_credentialIndexes d hm) hstep) a

theorem alteration_createSessions (h : answer.Careful store) (target : String) (a : σ) :
    Alteration store target a (final answer (createCollection target sessions) a) := by
  have hg : Growth store target a (final answer (ensureCollection target sessions) a) :=
    growth_ensureCollection h (by simp [declaredNames]) a
  refine final_bind_either hg.toAlteration fun created _ => hg.alteration ?_
  exact alteration_ensureIndexes h ttl_sessionIndexes _ _

/-- Applying the schema is growth, in the course of which one time to live may be given. -/
theorem alteration_apply (h : answer.Careful store) (target : String) (a : σ) :
    Alteration store target a (final answer (apply target) a) := by
  have hc := growth_createCredentials h target a
  have hs := alteration_createSessions h target
    (final answer (createCollection target credentials) a)
  rw [apply, final_bind_of_ok (result_log _ _), final_log]
  refine final_bind_either hc.toAlteration fun first _ => hc.alteration ?_
  refine final_bind_either hs fun second _ => hs.growth ?_
  refine final_bind_rel (Along.trans Grown.trans) (growth_missingIn h collections _)
    fun missing _ => ?_
  split
  · exact .refl (Grown.refl target) _
  · exact .refl (Grown.refl target) _

/-! ### What is preserved -/

/-- Indexes of the sessions are as they were, or one of them, an ordinary one on the time of
expiry, has got the declared time to live and nothing else. -/
def Spared (xs ys : Indexes) : Prop :=
  ys = xs ∨ ∃ name info, Assoc.get? xs name = some info ∧ info.Unlimited
    ∧ ys = Assoc.set xs name (Assoc.set info Index.ttl (.int sessionLifetime))

/-- Nothing has been touched that was there. In one database, the indexes that the declared
collections had stand unchanged before those that have been added, but for one time to live. -/
structure Preserved (target : String) (s t : Store) : Prop where
  elsewhere : Assoc.without t [target] = Assoc.without s [target]
  databases : Assoc.keys s <+: Assoc.keys t
  others : Assoc.without (t.collections target) declaredNames
    = Assoc.without (s.collections target) declaredNames
  collections : Assoc.keys (s.collections target) <+: Assoc.keys (t.collections target)
  credentials : ∀ xs, s.indexes? target credentials = some xs →
    ∃ added, t.indexes? target credentials = some (xs ++ added)
  sessions : ∀ xs, s.indexes? target sessions = some xs →
    ∃ ys added, t.indexes? target sessions = some (ys ++ added) ∧ Spared xs ys

variable {s t u v : Store}

/-- What lacks nothing but the declared time to live is such an ordinary index. -/
theorem unlimited_of_expirable {info : Info} (h : info.Expirable expiry) : info.Unlimited where
  hasKeys := h.hasKeys
  ordinary := by
    have hc := h.compatible
    simp only [Info.compatible, Bool.and_eq_true, beq_iff_eq] at hc
    exact hc.1
  whole := by
    have hc := h.compatible
    simp only [Info.compatible, Bool.and_eq_true] at hc
    exact Value.isNull_eq_true_iff.1 (Value.eqv_null_right ▸ hc.2)
  unlimited := h.unlimited

/-- An index that gets a time to live is one of the old indexes or one of the added ones. -/
theorem spared_expired {xs added : Indexes} {name : String} {info : Info}
    (hg : Assoc.get? (xs ++ added) name = some info) (hi : info.Expirable expiry) :
    ∃ ys added', expired (xs ++ added) name info expiry = ys ++ added' ∧ Spared xs ys := by
  by_cases hn : name ∈ Assoc.keys xs
  · rw [Assoc.get?_append_of_mem added hn] at hg
    exact ⟨_, added, Assoc.set_append_of_mem added _ hn,
      .inr ⟨name, info, hg, unlimited_of_expirable hi, rfl⟩⟩
  · exact ⟨xs, _, Assoc.set_append_of_notMem added _ hn, .inl rfl⟩

theorem Grown.preserved (h : Grown target s t) : Preserved target s t where
  elsewhere := h.elsewhere
  databases := h.databases
  others := h.others
  collections := h.collections
  credentials := h.indexes Schema.credentials
  sessions xs hx := by
    obtain ⟨added, ha⟩ := h.indexes Schema.sessions xs hx
    exact ⟨xs, added, ha, .inl rfl⟩

/-- Giving a time to live moves nothing and touches no other collection. -/
theorem Expired.preserved (h : Expired target s t) : Preserved target s t := by
  obtain ⟨hx, hg, hi⟩ := h
  rename_i xs name info
  have hw : Within target declaredNames s (s.putIndexes target Schema.sessions
      (expired xs name info expiry)) := within_putIndexes (by simp [declaredNames]) s _
  refine ⟨hw.elsewhere, hw.databases, hw.others, hw.collections, fun ys hy => ⟨[], ?_⟩,
    fun ys hy => ?_⟩
  · rw [indexes?_putIndexes_of_ne _ (by decide), List.append_nil]
    exact hy
  · obtain rfl := Option.some.inj (hx.symm.trans hy)
    refine ⟨_, [], (indexes?_putIndexes_self s target _ _).trans (by rw [List.append_nil]), ?_⟩
    exact .inr ⟨name, info, hg, unlimited_of_expirable hi, rfl⟩

/-- Growth before and after leaves it at one time to live. -/
theorem Altered.preserved (h : Altered target s t) : Preserved target s t := by
  rcases h with hg | ⟨u, v, hu, he, hv⟩
  · exact hg.preserved
  · have hp := he.preserved
    refine ⟨hv.elsewhere.trans (hp.elsewhere.trans hu.elsewhere),
      hu.databases.trans (hp.databases.trans hv.databases),
      hv.others.trans (hp.others.trans hu.others),
      hu.collections.trans (hp.collections.trans hv.collections), fun xs hx => ?_, fun xs hx => ?_⟩
    · obtain ⟨added, ha⟩ := hu.indexes Schema.credentials xs hx
      obtain ⟨added', ha'⟩ := hp.credentials _ ha
      obtain ⟨added'', ha''⟩ := hv.indexes Schema.credentials _ ha'
      exact ⟨added ++ (added' ++ added''), by simpa using ha''⟩
    · obtain ⟨added, ha⟩ := hu.indexes Schema.sessions xs hx
      obtain ⟨hy, hg, hi⟩ := he
      obtain rfl := Option.some.inj (ha.symm.trans hy)
      obtain ⟨ys, added', hys, hsp⟩ := spared_expired hg hi
      obtain ⟨added'', ha''⟩ := hv.indexes Schema.sessions _ (indexes?_putIndexes_self ..)
      refine ⟨ys, added' ++ added'', ?_, hsp⟩
      rw [ha'', hys, List.append_assoc]

/-- In one database, every index keeps its uniqueness and its filter, and a time to live if it has
one. -/
def OptionsKept (target : String) (s t : Store) : Prop :=
  ∀ collection xs name info, s.indexes? target collection = some xs →
    Assoc.get? xs name = some info → ∃ ys info', t.indexes? target collection = some ys
      ∧ Assoc.get? ys name = some info'
      ∧ Document.field info' Index.uniqueness = Document.field info Index.uniqueness
      ∧ Document.field info' Index.filter = Document.field info Index.filter
      ∧ (Document.field info Index.ttl ≠ .null →
          Document.field info' Index.ttl = Document.field info Index.ttl)

/-- Sparing indexes keeps their options. -/
theorem get?_of_spared {xs ys : Indexes} {name : String} {info : Info} (h : Spared xs ys)
    (hg : Assoc.get? xs name = some info) :
    ∃ info', Assoc.get? ys name = some info'
      ∧ Document.field info' Index.uniqueness = Document.field info Index.uniqueness
      ∧ Document.field info' Index.filter = Document.field info Index.filter
      ∧ (Document.field info Index.ttl ≠ .null →
          Document.field info' Index.ttl = Document.field info Index.ttl) := by
  rcases h with rfl | ⟨other, info', ho, hu, rfl⟩
  · exact ⟨info, hg, rfl, rfl, fun _ => rfl⟩
  · by_cases hn : name = other
    · subst hn
      obtain rfl := Option.some.inj (hg.symm.trans ho)
      refine ⟨_, Assoc.get?_set_self _ name _, ?_, ?_, fun ht => absurd hu.unlimited ht⟩
      · exact Info.field_set_of_ne info _ (by decide)
      · exact Info.field_set_of_ne info _ (by decide)
    · exact ⟨info, (Assoc.get?_set_of_ne _ hn).trans hg, rfl, rfl, fun _ => rfl⟩

theorem Preserved.optionsKept (h : Preserved target s t) : OptionsKept target s t := by
  intro collection xs name info hx hg
  by_cases hs : collection = Schema.sessions
  · subst hs
    obtain ⟨ys, added, ht, hsp⟩ := h.sessions xs hx
    obtain ⟨info', hg', hkept⟩ := get?_of_spared hsp hg
    refine ⟨ys ++ added, info', ht, ?_, hkept⟩
    rw [Assoc.get?_append_of_mem added (Assoc.mem_keys_of_get? hg'), hg']
  by_cases hc : collection = Schema.credentials
  · subst hc
    obtain ⟨added, ht⟩ := h.credentials xs hx
    refine ⟨xs ++ added, info, ht, ?_, rfl, rfl, fun _ => rfl⟩
    rw [Assoc.get?_append_of_mem added (Assoc.mem_keys_of_get? hg), hg]
  · have hd : collection ∉ declaredNames := by simp [declaredNames, hs, hc]
    have ht : t.indexes? target collection = some xs := by
      rw [← hx, Store.indexes?, Store.indexes?, ← Assoc.get?_without _ hd, h.others,
        Assoc.get?_without _ hd]
    exact ⟨xs, info, ht, hg, rfl, rfl, fun _ => rfl⟩

/-- **Applying the schema preserves what is there.** Against any careful server, and however the
work ends, nothing is touched but one ordinary index on the time of expiry, which gets the declared
time to live; no other option of any index is changed. -/
theorem preserved_apply (h : answer.Careful store) (target : String) {a : σ}
    (hs : (store a).Distinct) :
    Preserved target (store a) (store (final answer (apply target) a))
      ∧ OptionsKept target (store a) (store (final answer (apply target) a)) := by
  have hp := (alteration_apply h target a hs).2.preserved
  exact ⟨hp, hp.optionsKept⟩

/-- A server whose sessions have an index on the time of expiry under a name of its own, and which
calls the work off when the sessions are listed for the last time. -/
def interruptedServer : FaultyServer where
  server := {
    store := [("appdb", [
      (Schema.sessions, [("by_expiry", [("key", expiryKeys), (Index.ttl, .null)])]),
      ("audit", [("broken", [("key", .int 1)])])])]
    clients := 0 }
  faults := [{
    call := .listIndexes, database := none, collection := some Schema.sessions, name := none
    skip := 4, times := none, error := some (.cancelled "called off") }]

theorem preserved_apply_interrupted :
    interruptedServer.server.store.Distinct
      ∧ Preserved "appdb" interruptedServer.server.store
          (final FaultyServer.answer (apply "appdb") interruptedServer).server.store
      ∧ OptionsKept "appdb" interruptedServer.server.store
          (final FaultyServer.answer (apply "appdb") interruptedServer).server.store := by
  have hs : interruptedServer.server.store.Distinct := by decide
  exact ⟨hs, preserved_apply FaultyServer.careful "appdb" hs⟩

end Schema

end Provisioner
