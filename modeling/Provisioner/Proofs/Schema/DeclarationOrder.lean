import Provisioner.Proofs.Schema.SharedKeys
import Provisioner.Proofs.Schema.ExpiryIndex

/-!
# The order of declaration

Bringing a list of declarations into being may take different ways. A plain declaration before one
with a time to live is created first and gets the time to live afterwards; in the other order the
second one is found. Where several such groups are mixed, any number of these steps may come in
between. What the indexes are in the end does not depend on any of this. At every moment the
collection holds what it has held before, and next to it what the declarations so far come to; and
that does not depend on their order.

The names are an exception. Directions that are the same without being written in the same way,
such as `1` and `true`, lead to different default names, and the index gets the name of the
declaration that comes first. Where the same keys go with the same name, the names do not depend on
the order either.

## Main definitions

* `Schema.Progress` — a collection holds what the declarations so far come to

## Main results

* `Schema.exists_first_of_find?` — what is found for a declaration has been added for another one
* `Schema.progress_ensureIndex`, `progress_ensureIndexes` — the declarations are brought into being
  one after the other
* `Schema.sameIndexes_of_perm` — the order of declaration does not matter
* `Schema.named_by_order` — but the first of the same keys gives the name
-/

namespace Provisioner

open Store

namespace Schema

open Definition

variable {ds before : List Definition} {c d : Definition} {t : Option Value} {xs : Indexes}
  {e : String × Info}

/-! ### What is found -/

/-- An index that has been recorded for a declaration with the same keys has the same options. -/
theorem compatible_realized (h : Reconcilable ds) (hc : c ∈ ds) (hd : d ∈ ds) (hk : c.SameKeys d)
    (ht : t = none → Assoc.get? c Index.ttl = none) : (c.realized t).compatible d = true := by
  have hx : Assoc.NodupKeys c.shared := (h.plain c hc).nodup.erase.erase
  have hfield : ∀ option, option ∉ Info.reserved → option ≠ Index.ttl → option ≠ "keys" →
      (Document.field (c.realized t) option).eqv (Document.field d option) = true := by
    intro option ho hl hkeys
    rw [field_realized (h.plain c hc) ht ho hl, ← field_shared d hkeys hl]
    exact Value.field_eqv_of_doc_eqv hx (h.shared c hc d hd hk) option
  have hunique := hfield Index.uniqueness (by decide) (by decide) (by decide)
  have hfilter := hfield Index.filter (by decide) (by decide) (by decide)
  simp [Info.compatible, Value.truth_eq_of_eqv hunique, hfilter]

/-- What is found has been added for a declaration with the same keys. It has the same options, and
the time to live that has been asked for so far. -/
theorem exists_first_of_find? (h : Reconcilable (before ++ [d])) (hn : ¬ Indexed xs d)
    (hf : Indexes.find? (Value.ofPairs d.pattern) (xs ++ realization before) = .ok (some e)) :
    ∃ c ∈ firsts before, c.SameKeys d ∧ e = (c.name, c.realized (lifetime before c))
      ∧ e.2.compatible d = true
      ∧ Document.field e.2 Index.ttl = (lifetime before c).getD .null := by
  have hk := Indexes.hasKeys_ofPairs_iff.1 (Indexes.hasKeys_of_find? hf)
  rcases List.mem_append.1 (Indexes.mem_of_find? hf) with hx | hm
  · exact absurd ⟨e, hx, hk⟩ hn
  · obtain ⟨c, hc, rfl⟩ := List.mem_map.1 hm
    have hbefore := h.of_subset (List.subset_append_left before [d])
    have hcm := firsts_subset before hc
    have hcd : c ∈ before ++ [d] := List.mem_append_left _ hcm
    have hsame : c.SameKeys d := (hasPattern_realized (h.plain c hcd) _ d).1 hk
    have ht := get?_ttl_of_lifetime hbefore hcm
    exact ⟨c, hc, hsame, rfl,
      compatible_realized h hcd List.mem_concat_self hsame ht,
      ttl_realized (h.plain c hcd) ht⟩

/-- Where nothing is found, no declaration has had the keys. -/
theorem not_sameKeys_of_find? (h : Reconcilable (before ++ [d]))
    (hf : Indexes.find? (Value.ofPairs d.pattern) (xs ++ realization before) = .ok none) :
    ∀ c ∈ firsts before, ¬ c.SameKeys d := by
  intro c hc hk
  have hp := h.plain c (List.mem_append_left _ (firsts_subset before hc))
  have hno := Indexes.find?_eq_none_iff.1 hf _ (List.mem_append_right xs (mem_realization hc))
  rw [Indexes.hasKeys_ofPairs_iff.2 ((hasPattern_realized hp _ d).2 hk)] at hno
  exact nomatch hno

/-! ### What is decided -/

section Decided

variable {found : Option (String × Info)} (h : Reconcilable (before ++ [d])) (hn : ¬ Indexed xs d)
  (hf : Indexes.find? (Value.ofPairs d.pattern) (xs ++ realization before) = .ok found)

include h hn hf

/-- A declaration is only found if it asks for no time to live where there is none. -/
theorem realization_of_keep (hdec : Decision.of found d = .keep) :
    (∃ c ∈ firsts before, c.SameKeys d) ∧ realization (before ++ [d]) = realization before := by
  obtain ⟨name, info, rfl, -, hexp⟩ := Decision.of_eq_keep_iff.1 hdec
  obtain ⟨c, hc, hk, -, -, httl⟩ := exists_first_of_find? h hn hf
  refine ⟨⟨c, hc, hk⟩, realization_of_found h hc hk fun hnone => ?_⟩
  rw [hnone] at httl
  exact h.get?_ttl_eq_none List.mem_concat_self
    (Info.ttl_eq_null_of_expiresAs httl hexp)

/-- A time to live is only attached to an index that has been added, and that has none. -/
theorem realization_of_attach {index : String} {seconds : Value}
    (hnodup : Assoc.NodupKeys (realization before))
    (hdec : Decision.of found d = .attach index seconds) :
    (∃ c ∈ firsts before, c.SameKeys d)
      ∧ ∃ info, Assoc.get? (realization before) index = some info
        ∧ realization (before ++ [d])
          = Assoc.set (realization before) index (Assoc.set info Index.ttl seconds) := by
  obtain ⟨info, rfl, -, hnull, rfl, hlimit⟩ := Decision.of_eq_attach_iff.1 hdec
  obtain ⟨c, hc, hk, he, -, httl⟩ := exists_first_of_find? h hn hf
  obtain ⟨rfl, rfl⟩ := Prod.mk.inj he
  have hnone : lifetime before c = none := by
    cases hl : lifetime before c with
    | none => rfl
    | some v =>
      obtain ⟨x, hx, -, hv⟩ := exists_of_lifetime_eq_some hl
      rw [hl] at httl hnull
      obtain rfl : v = .null := httl.symm.trans hnull
      exact absurd hv (h.limited x (List.mem_append_left _ hx))
  refine ⟨⟨c, hc, hk⟩, _, Assoc.get?_of_mem hnodup (mem_realization hc), ?_⟩
  cases hv : Assoc.get? d Index.ttl with
  | none => simp [Document.field, hv] at hlimit
  | some v =>
    rw [hnone, Document.field, hv]
    exact realization_of_attached h hnodup hc hk hnone hv

/-- No index that has been added is in conflict, so that an index is only asked for if none is
found. -/
theorem eq_none_of_create {conflict : Option (String × Info)}
    (hdec : Decision.of found d = .create conflict) : found = none := by
  cases hfound : found with
  | none => rfl
  | some e =>
    exfalso
    subst hfound
    obtain ⟨c, hc, hk, -, hcompat, httl⟩ := exists_first_of_find? h hn hf
    obtain ⟨hexp, hlimited⟩ := (Decision.of_eq_create_iff.1 hdec).2 hcompat
    rw [httl] at hlimited
    rw [Info.expiresAs, httl, Bool.or_eq_false_iff] at hexp
    -- Both have a time to live, and these are the same.
    cases hl : lifetime before c with
    | none => exact hlimited (by rw [hl]; rfl)
    | some v =>
      obtain ⟨x, hx, hxc, hv⟩ := exists_of_lifetime_eq_some hl
      cases hv' : Assoc.get? d Index.ttl with
      | none => simp [Document.field, hv', Value.isNull] at hexp
      | some v' =>
        have hxm : x ∈ before ++ [d] := List.mem_append_left _ hx
        have hcm : c ∈ before ++ [d] := List.mem_append_left _ (firsts_subset before hc)
        have hd : d ∈ before ++ [d] := List.mem_concat_self
        have heqv := h.lifetime x hxm d hd (h.trans hxm hcm hd hxc hk) v v' hv hv'
        simp [Document.field, hl, hv', heqv] at hexp

end Decided

end Schema

/-- A request that the server grants repeats an index, or adds the declared one. The collection is
there afterwards in either case. -/
theorem Server.createIndex_eq_ok {server : Server} {database collection : String} {d : Definition}
    {keys : Value} {ps : List (Value × Value)} {name : String} {xs : Indexes}
    (hx : server.store.indexesOrFresh database collection = xs)
    (hr : Definition.Request d keys ps name)
    (h : (answer (.createIndex database collection keys (Definition.options d)) server).1
      = .ok ()) :
    Indexes.Repeated xs name ps d.recorded
        ∧ (answer (.createIndex database collection keys
            (Definition.options d)) server).2.store.indexes? database collection = some xs
      ∨ Indexes.Unclaimed xs name ps
        ∧ (answer (.createIndex database collection keys
            (Definition.options d)) server).2.store.indexes? database collection
          = some (xs ++ [(name, Indexes.record ps d.recorded)]) := by
  cases hc : (server.store.indexesOrFresh database collection).create keys
      (Definition.options d) with
  | error e => simp [answer, createIndex_of_error hc] at h
  | ok ys =>
    have hys : (answer (.createIndex database collection keys
        (Definition.options d)) server).2.store.indexes? database collection = some ys := by
      simp [answer, createIndex_of_ok hc]
    rw [hx] at hc
    rcases (Indexes.create_eq_ok_iff hr.named hr.pattern).1 hc with ⟨hrep, rfl⟩ | ⟨hu, rfl⟩
    · exact .inl ⟨hrep, hys⟩
    · exact .inr ⟨hu, hys⟩

namespace Schema

open Attempt Procedure Definition

variable {ds es before : List Definition} {d : Definition} {xs : Indexes}
  {database collection : String} {s : Server}

/-! ### One step -/

/-- A collection holds what it has held, and what the declarations so far come to. -/
structure Progress (database collection : String) (xs : Indexes) (before : List Definition)
    (s : Server) : Prop where
  distinct : s.store.Distinct
  indexes : s.store.indexes? database collection = some (xs ++ realization before)

/-- What has been added has other names than what has been there. -/
theorem Progress.names (hs : Progress database collection xs before s) :
    (Assoc.keys xs ++ Assoc.keys (realization before)).Nodup :=
  Assoc.keys_append xs _ ▸ (hs.distinct.indexes? hs.indexes).nodup

/-- One more declaration is brought into being, and it is reported as created if it is the first one
with its keys. -/
theorem progress_ensureIndex (h : Reconcilable (before ++ [d])) (hn : ¬ Indexed xs d)
    (hs : Progress database collection xs before s) {o : Outcome}
    (hr : result Server.answer (ensureIndex database collection d) s = .ok o) :
    Progress database collection xs (before ++ [d])
        (final Server.answer (ensureIndex database collection d) s)
      ∧ (o = .created ↔ ¬ ∃ c ∈ firsts before, c.SameKeys d) := by
  have hp := h.plain d List.mem_concat_self
  have hdistinct := distinct_ensureIndex Server.careful database collection d hs.distinct
  obtain ⟨keys, ys, found, hseen, hcalled, hfinal⟩ := ensureIndex_eq_ok hr
  obtain rfl := Except.ok.inj (hp.keys_eq.symm.trans hseen.declared)
  obtain rfl : ys = xs ++ realization before :=
    (hseen.eq_indexes Server.careful).trans (indexes_of_indexes? hs.indexes)
  have hreach := reached_listed Server.careful database collection s
  have hlisted := (hreach.indexes? database collection).trans hs.indexes
  rw [result_ensureIndex hseen.declared hseen.listing hseen.first] at hr
  have ho := outcome_of_enact hr
  cases hdec : Decision.of found d with
  | keep =>
    rw [hdec] at ho hfinal
    obtain ⟨hfirst, hsame⟩ := realization_of_keep h hn hseen.first hdec
    refine ⟨⟨hdistinct, ?_⟩, by simp [ho, outcomeOf, hfirst]⟩
    rw [hfinal, hsame]
    exact hlisted
  | attach index seconds =>
    rw [hdec] at ho hfinal hcalled
    obtain ⟨-, hnodup, hapart⟩ := List.nodup_append.1 hs.names
    obtain ⟨hfirst, info, hg, hset⟩ := realization_of_attach h hn hseen.first hnodup hdec
    have hnew : index ∉ Assoc.keys xs := fun hx =>
      hapart index hx index (Assoc.mem_keys_of_get? hg) rfl
    obtain ⟨ys, info', hy, hg', hstore⟩ := Server.faithful.expired _ _ _ _ _ hcalled
    obtain rfl := Option.some.inj (hlisted.symm.trans hy)
    rw [Assoc.get?_append_of_notMem _ hnew, hg] at hg'
    obtain rfl := Option.some.inj hg'
    refine ⟨⟨hdistinct, ?_⟩, by simp [ho, outcomeOf, hfirst]⟩
    rw [hfinal, acted, hstore, indexes?_putIndexes_self, Assoc.set_append_of_notMem _ _ hnew, hset]
  | create conflict =>
    rw [hdec] at ho hfinal hcalled
    obtain rfl := eq_none_of_create h hn hseen.first hdec
    have hfirst := not_sameKeys_of_find? h hseen.first
    rcases Server.createIndex_eq_ok (indexesOrFresh_of_indexes? hlisted) hp.request hcalled with
      ⟨hrep, -⟩ | ⟨-, hx⟩
    · obtain ⟨info, hg, hpattern, -⟩ := hrep
      have hno := Indexes.find?_eq_none_iff.1 hseen.first _ (Assoc.mem_of_get? hg)
      exact absurd (Indexes.hasKeys_ofPairs_iff.2 hpattern) (by simp [hno])
    · refine ⟨⟨hdistinct, ?_⟩, by simpa [ho, outcomeOf] using hfirst⟩
      rw [hfinal, acted, hx, realization_of_created h hfirst, List.append_assoc]

/-! ### All of them -/

/-- All declarations are brought into being, and as many are reported as created as there are new
key patterns among them. -/
theorem progress_ensureIndexes (h : Reconcilable (before ++ ds)) (hn : ∀ d ∈ ds, ¬ Indexed xs d)
    (hs : Progress database collection xs before s) {tally tally' : Tally}
    (hr : result Server.answer (ensureIndexes database collection ds tally) s = .ok tally') :
    Progress database collection xs (before ++ ds)
        (final Server.answer (ensureIndexes database collection ds tally) s)
      ∧ tally'.created + (firsts before).length
        = tally.created + (firsts (before ++ ds)).length := by
  induction ds generalizing before s tally with
  | nil =>
    obtain rfl : tally = tally' := Except.ok.inj hr
    rw [List.append_nil]
    exact ⟨hs, rfl⟩
  | cons d ds ih =>
    obtain ⟨hnd, hn⟩ := List.forall_mem_cons.1 hn
    obtain ⟨o, ho, hr⟩ := result_bind_eq_ok_iff.1 hr
    rw [ensureIndexes, final_bind_of_ok ho]
    rw [List.append_cons] at h ⊢
    have hd : Reconcilable (before ++ [d]) := h.of_subset (List.subset_append_left _ ds)
    obtain ⟨hs₁, hcreated⟩ := progress_ensureIndex hd hnd hs ho
    obtain ⟨hs', hcount⟩ := ih h hn hs₁ hr
    refine ⟨hs', ?_⟩
    rw [firsts_concat] at hcount
    by_cases hfirst : ∃ c ∈ firsts before, c.SameKeys d
    · have hkept : o ≠ .created := fun hc => hcreated.1 hc hfirst
      rw [if_pos hfirst] at hcount
      cases o <;> simp_all [Tally.count]
    · obtain rfl := hcreated.2 hfirst
      rw [if_neg hfirst, List.length_append, List.length_singleton] at hcount
      simp only [Tally.count] at hcount
      omega

/-- Once all declarations have been brought into being, what they come to has been added to what has
been there, and as many are reported as created as there are key patterns among them. -/
theorem indexes_ensureIndexes (hs : s.store.Distinct)
    (hx : s.store.indexes? database collection = some xs) (h : Reconcilable ds)
    (hn : ∀ d ∈ ds, ¬ Indexed xs d) {tally : Tally}
    (hr : result Server.answer (ensureIndexes database collection ds .zero) s = .ok tally) :
    (final Server.answer (ensureIndexes database collection ds .zero) s).store.indexes?
        database collection = some (xs ++ realization ds)
      ∧ tally.created = (firsts ds).length := by
  have hstart : Progress database collection xs [] s :=
    ⟨hs, hx.trans (congrArg some (List.append_nil xs).symm)⟩
  have hall : Reconcilable ([] ++ ds) := h
  obtain ⟨hprogress, hcount⟩ := progress_ensureIndexes hall hn hstart hr
  exact ⟨hprogress.indexes, by simpa [Tally.zero, firsts] using hcount⟩

/-- The order of declaration does not matter. If declarations that do not have their keys in a
collection yet can all be brought into being in one order as well as in another one, then what has
been there stays as it is, the indexes that are added have equal entries up to their order, and the
same names as well if those of declarations with the same keys are the same. There are as many
outcomes of a creation as there are key patterns. -/
theorem sameIndexes_of_perm (hs : s.store.Distinct)
    (hx : s.store.indexes? database collection = some xs) (h : Reconcilable ds)
    (hn : ∀ d ∈ ds, ¬ Indexed xs d) (hp : ds.Perm es) {tally tally' : Tally}
    (hr : result Server.answer (ensureIndexes database collection ds .zero) s = .ok tally)
    (hr' : result Server.answer (ensureIndexes database collection es .zero) s = .ok tally') :
    ∃ added added',
      (final Server.answer (ensureIndexes database collection ds .zero) s).store.indexes?
        database collection = some (xs ++ added)
      ∧ (final Server.answer (ensureIndexes database collection es .zero) s).store.indexes?
        database collection = some (xs ++ added')
      ∧ UpToOrder EqualInfo added added'
      ∧ ((∀ d ∈ ds, ∀ d' ∈ ds, d.SameKeys d' → d.name = d'.name) →
        UpToOrder EqualIndex added added')
      ∧ tally.created = (firsts ds).length ∧ tally'.created = (firsts ds).length := by
  have hes : Reconcilable es := h.of_subset hp.symm.subset
  have hnes : ∀ d ∈ es, ¬ Indexed xs d := fun d hd => hn d (hp.symm.subset hd)
  obtain ⟨hadded, hcreated⟩ := indexes_ensureIndexes hs hx h hn hr
  obtain ⟨hadded', hcreated'⟩ := indexes_ensureIndexes hs hx hes hnes hr'
  exact ⟨realization ds, realization es, hadded, hadded', realization_perm h hp,
    realization_perm_of_named h hp, hcreated, hcreated'.trans (length_firsts_perm h hp).symm⟩

/-! ### The declared indexes of the sessions -/

/-- The keys of an ascending index hold no documents. -/
theorem distinct_ascending (field : String) (options : Document) :
    (Value.ofPairs (ascending field options).pattern).Distinct :=
  Value.distinct_ofPairs (List.forall_mem_singleton.2 ⟨.text field, .int 1⟩)

/-- Where an index of the sessions has a time to live, it is the declared one. -/
theorem get?_ttl_sessionIndexes : ∀ d ∈ sessionIndexes, ∀ v, Assoc.get? d Index.ttl = some v →
    v = .int sessionLifetime := by
  simp only [sessionIndexes, List.forall_mem_cons]
  refine ⟨?_, ?_, ?_, ?_, by simp⟩
  all_goals rintro v ⟨⟩
  rfl

/-- The declared indexes of the sessions differ in their keys, or else in the time to live only. -/
theorem reconcilable_sessionIndexes : Reconcilable sessionIndexes where
  plain d hd := plain_declared d (List.mem_append_right _ hd)
  distinct := by
    simp only [sessionIndexes, plainExpiry, expiry, List.forall_mem_cons]
    exact ⟨distinct_ascending .., distinct_ascending .., distinct_ascending ..,
      distinct_ascending .., by simp⟩
  shared := by decide
  lifetime d hd d' hd' _ v v' hv hv' := by
    rw [get?_ttl_sessionIndexes d hd v hv, get?_ttl_sessionIndexes d' hd' v' hv']
    rfl
  limited d hd hnull := nomatch get?_ttl_sessionIndexes d hd _ hnull

/-- A server with sessions that have no indexes of their own. -/
def bareSessions : Server where
  store := [("appdb", [(sessions, Indexes.fresh)])]
  clients := 0

/-- In the reverse order the index on the time of expiry is created with its time to live, and the
plain one is found. -/
theorem sameIndexes_sessionIndexes :
    bareSessions.store.Distinct ∧ (∀ d ∈ sessionIndexes, ¬ Indexed Indexes.fresh d)
      ∧ result Server.answer (ensureIndexes "appdb" sessions sessionIndexes .zero) bareSessions
        = .ok { collections := 0, created := 3, found := 0, attached := 1 }
      ∧ result Server.answer (ensureIndexes "appdb" sessions sessionIndexes.reverse .zero)
          bareSessions
        = .ok { collections := 0, created := 3, found := 1, attached := 0 }
      ∧ ∃ added added', UpToOrder EqualIndex added added'
        ∧ Assoc.keys added = ["token_1", "user_id_1", "expires_at_1"]
        ∧ Assoc.keys added' = ["expires_at_1", "user_id_1", "token_1"]
        ∧ (firsts sessionIndexes).length = 3 := by
  have hs : bareSessions.store.Distinct := by decide
  have hn : ∀ d ∈ sessionIndexes, ¬ Indexed Indexes.fresh d := by decide
  have hr : result Server.answer (ensureIndexes "appdb" sessions sessionIndexes .zero) bareSessions
      = .ok { collections := 0, created := 3, found := 0, attached := 1 } := rfl
  have hr' : result Server.answer (ensureIndexes "appdb" sessions sessionIndexes.reverse .zero)
      bareSessions = .ok { collections := 0, created := 3, found := 1, attached := 0 } := rfl
  obtain ⟨added, added', hadded, hadded', -, hsame, hcreated, -⟩ := sameIndexes_of_perm hs rfl
    reconcilable_sessionIndexes hn sessionIndexes.reverse_perm.symm hr hr'
  refine ⟨hs, hn, hr, hr', added, added', hsame (by decide), ?_, ?_, hcreated.symm⟩
  · obtain rfl := List.append_cancel_left (Option.some.inj hadded.symm)
    rfl
  · obtain rfl := List.append_cancel_left (Option.some.inj hadded'.symm)
    rfl

/-! ### Names -/

/-- An index whose direction is written as a number. -/
def byNumber : Definition := ascending "a" []

/-- An index with the same keys, the direction being written as a truth value. -/
def byFlag : Definition := [("keys", Value.ofPairs [(.text "a", .bool true)])]

/-- A server with a collection that has no indexes of its own. -/
def bareLogs : Server where
  store := [("appdb", [("logs", Indexes.fresh)])]
  clients := 0

/-- Whichever of two declarations with the same keys comes first gives the index its name, so that
the order does matter where their default names differ. -/
theorem named_by_order :
    Reconcilable [byNumber, byFlag]
      ∧ (∀ d ∈ [byNumber, byFlag], ∀ d' ∈ [byNumber, byFlag], ¬ d.SameKeys d' → d.name ≠ d'.name)
      ∧ bareLogs.store.Distinct
      ∧ bareLogs.store.indexes? "appdb" "logs" = some Indexes.fresh
      ∧ (∀ d ∈ [byNumber, byFlag], ¬ Indexed Indexes.fresh d)
      ∧ result Server.answer (ensureIndexes "appdb" "logs" [byNumber, byFlag] .zero) bareLogs
        = .ok { collections := 0, created := 1, found := 1, attached := 0 }
      ∧ result Server.answer (ensureIndexes "appdb" "logs" [byFlag, byNumber] .zero) bareLogs
        = .ok { collections := 0, created := 1, found := 1, attached := 0 }
      ∧ ∃ xs ys,
        (final Server.answer (ensureIndexes "appdb" "logs" [byNumber, byFlag] .zero)
          bareLogs).store.indexes? "appdb" "logs" = some xs
        ∧ (final Server.answer (ensureIndexes "appdb" "logs" [byFlag, byNumber] .zero)
          bareLogs).store.indexes? "appdb" "logs" = some ys
        ∧ Assoc.keys xs = ["_id_", "a_1"] ∧ Assoc.keys ys = ["_id_", "a_True"]
        ∧ ¬ UpToOrder EqualIndex xs ys := by
  have hplain : ∀ d ∈ [byNumber, byFlag], d.Plain := by
    simp only [List.forall_mem_cons]
    exact ⟨plain_ascending (by decide) (by decide) (by decide),
      ⟨by decide, ⟨_, rfl⟩, by decide, by decide⟩, by simp⟩
  have hdistinct : ∀ d ∈ [byNumber, byFlag], (Value.ofPairs d.pattern).Distinct := by
    simp only [List.forall_mem_cons]
    exact ⟨distinct_ascending .., Value.distinct_ofPairs
      (List.forall_mem_singleton.2 ⟨.text "a", .bool true⟩), by simp⟩
  have htimeless : ∀ d ∈ [byNumber, byFlag], Assoc.get? d Index.ttl = none := by
    simp only [List.forall_mem_cons]
    exact ⟨rfl, rfl, by simp⟩
  refine ⟨⟨hplain, hdistinct, by decide, ?_, ?_⟩, by decide, by decide, rfl, by decide, rfl, rfl,
    _, _, rfl, rfl, rfl, rfl, ?_⟩
  · intro d hd d' _ _ v v' hv
    exact nomatch (htimeless d hd).symm.trans hv
  · intro d hd hnull
    exact nomatch (htimeless d hd).symm.trans hnull
  · intro hsame
    exact absurd (UpToOrder.perm_keys hsame) (by decide)

end Schema

end Provisioner
