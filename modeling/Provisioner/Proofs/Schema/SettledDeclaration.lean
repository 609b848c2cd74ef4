import Provisioner.Proofs.Schema.FieldIndex

/-!
# Settled declarations

A declaration is settled in a collection if ensuring it would change nothing. There are two ways
for that: the first index with its keys serves it, or that index is in conflict with it, and the
declared index exists all the same under its default name, so that asking for it again has no
effect. Ensuring a declaration settles it, and it remains settled while others are ensured.

The second way deserves attention. An index that is repeated must not get a time to live later on,
for it would then differ from the declaration. It cannot: a time to live is only given to the first
index with certain keys, and the first index with these keys is another one.

## Main definitions

* `Handler.Repeatable` — a faithful handler under which repeating a request has no effect
* `Schema.Settled` — ensuring a declaration would change nothing

## Main results

* `Server.repeatable` — the server is repeatable for plain declarations
* `Schema.Settled.append`, `Settled.expired` — what is settled remains settled
* `Schema.settled_ensureIndex` — a declaration is settled once it has been ensured
-/

namespace Provisioner

open Store

/-! ### Repeating requests -/

/-- A faithful handler under which collections are always told, an index that is granted exists
under its name, with nothing else added, and asking for an index that exists as it is asked for is
granted without effect. -/
structure Handler.Repeatable {σ : Type} (answer : Handler σ) (store : σ → Store)
    (Asked : Definition → Prop) : Prop extends Handler.Faithful answer store Asked where
  listedCollections : ∀ database a, (answer (.listCollections database) a).1
    = .ok (Assoc.keys ((store a).collections database))
  opened : ∀ database name a, (answer (.createCollection database name) a).1 = .ok () →
    ∃ xs, (store (answer (.createCollection database name) a).2).indexes? database name = some xs
  appended : ∀ database collection a d keys ps name xs, (store a).Distinct → Asked d →
    Definition.Request d keys ps name → (store a).indexes? database collection = some xs →
    (answer (.createIndex database collection keys (Definition.options d)) a).1 = .ok () →
    ∃ added, (added = [] ∨ ∃ info, added = [(name, info)])
      ∧ (store (answer (.createIndex database collection keys (Definition.options d)) a).2).indexes?
          database collection = some (xs ++ added)
      ∧ Indexes.Repeated (xs ++ added) name ps (Definition.recorded d)
  repeated : ∀ database collection a d keys ps name xs, (store a).Distinct → Asked d →
    Definition.Request d keys ps name → (store a).indexes? database collection = some xs →
    Indexes.Repeated xs name ps (Definition.recorded d) →
    (answer (.createIndex database collection keys (Definition.options d)) a).1 = .ok ()
      ∧ Reached database (store a)
          (store (answer (.createIndex database collection keys (Definition.options d)) a).2)

namespace Indexes

variable {xs : Indexes} {name : String} {ps : List (Value × Value)} {options : Document}
  {keys : Value} {e : String × Info}

theorem Repeated.append (h : Repeated xs name ps options) (added : Indexes) :
    Repeated (xs ++ added) name ps options := by
  obtain ⟨info, hg, hp, ho⟩ := h
  refine ⟨info, ?_, hp, ho⟩
  rw [Assoc.get?_append_of_mem added (Assoc.mem_keys_of_get? hg), hg]

/-- An index that has been recorded as asked for repeats the request. -/
theorem repeated_append_record {d : Definition} (hd : d.Plain)
    (hk : Definition.keys d = .ok (Value.ofPairs ps)) (hn : name ∉ Assoc.keys xs) :
    Repeated (xs ++ [(name, record ps (Definition.recorded d))]) name ps
      (Definition.recorded d) := by
  refine ⟨_, ?_, hasKeys_ofPairs_iff.1 (hd.granted_record hk).hasKeys, ?_⟩
  · rw [Assoc.get?_append_of_notMem _ hn]
    simp [Assoc.get?]
  · rw [hd.recordedOptions_record ps]
    exact hd.eqv_recorded

end Indexes

namespace Server

/-- Repeating a request has no effect on the server. -/
theorem repeatable : Handler.Repeatable answer Server.store Definition.Plain where
  toFaithful := faithful
  listedCollections _ _ := rfl
  opened database name server h := by
    cases ht : createCollection server.store database name with
    | error e => simp [answer, ht, settle] at h
    | ok t =>
      obtain ⟨-, rfl⟩ := createCollection_eq_ok ht
      exact ⟨Indexes.fresh, by simp [answer, ht, settle]⟩
  appended database collection server d keys ps name xs hs hd hr hx h := by
    obtain ⟨qs, hqs⟩ := hd.keys
    obtain rfl : Value.ofPairs qs = keys := Except.ok.inj (hqs.symm.trans hr.declared)
    obtain rfl : qs = ps := Except.ok.inj ((Value.pairs_ofPairs qs).symm.trans hr.pattern)
    cases hc : (server.store.indexesOrFresh database collection).create (Value.ofPairs qs)
        (Definition.options d) with
    | error e => simp [answer, createIndex_of_error hc] at h
    | ok ys =>
      have hys : (answer (.createIndex database collection (Value.ofPairs qs)
          (Definition.options d)) server).2.store.indexes? database collection = some ys := by
        simp [answer, createIndex_of_ok hc]
      rw [indexesOrFresh_of_indexes? hx] at hc
      rw [hys]
      rcases (Indexes.create_eq_ok_iff hr.named hr.pattern).1 hc with ⟨hrep, rfl⟩ | ⟨hu, rfl⟩
      · exact ⟨[], .inl rfl, by rw [List.append_nil], by rw [List.append_nil]; exact hrep⟩
      · exact ⟨_, .inr ⟨_, rfl⟩, rfl, Indexes.repeated_append_record hd hqs hu.name⟩
  repeated database collection server d keys ps name xs hs hd hr hx h := by
    have hc := Indexes.create_of_repeated hr.named hr.pattern h
    rw [← indexesOrFresh_of_indexes? hx] at hc
    refine ⟨by simp [answer, createIndex_of_ok hc], .inl ?_⟩
    simp only [answer, createIndex_of_ok hc]
    rw [indexesOrFresh_of_indexes? hx]
    exact putIndexes_of_indexes? hx

end Server

/-! ### What settles a declaration -/

/-- An index is in conflict with a declaration that has its keys: other options, or another time to
live. -/
def Info.Conflicts (info : Info) (d : Definition) : Prop :=
  info.compatible d = true → info.expiresAs (Document.field d Index.ttl) = false
    ∧ Document.field info Index.ttl ≠ .null

theorem Decision.of_eq_create_iff {e : String × Info} {d : Definition}
    {conflict : Option (String × Info)} :
    of (some e) d = .create conflict ↔ conflict = some e ∧ e.2.Conflicts d := by
  obtain ⟨name, info⟩ := e
  by_cases hc : info.compatible d = true
  · by_cases he : info.expiresAs (Document.field d Index.ttl) = true
    · simp [of, Info.Conflicts, hc, he]
    · by_cases hn : Document.field info Index.ttl = .null
      · simp [of, Info.Conflicts, hc, he, hn]
      · simp [of, Info.Conflicts, hc, he, hn, eq_comm (a := conflict)]
  · simp [of, Info.Conflicts, hc, eq_comm (a := conflict)]

namespace Schema

open Attempt Procedure

/-- Ensuring a declaration of an index on a field would change nothing: the first index on this
field serves it, or is in conflict with it while the declared index exists under its own name. -/
inductive Settled (xs : Indexes) (d : Definition) (field : String) : Prop
  | served {e : String × Info}
      (first : Indexes.find? (Value.ofPairs (fieldKeys field)) xs = .ok (some e))
      (compatible : e.2.compatible d = true)
      (expires : e.2.expiresAs (Document.field d Index.ttl) = true)
  | repeated {e : String × Info}
      (first : Indexes.find? (Value.ofPairs (fieldKeys field)) xs = .ok (some e))
      (conflict : e.2.Conflicts d)
      (again : Indexes.Repeated xs (indexName field) (fieldKeys field) (Definition.recorded d))

variable {σ : Type} {answer : Handler σ} {store : σ → Store} {Asked : Definition → Prop}
  {database collection field other name : String} {d d' : Definition} {xs : Indexes} {info : Info}
  {s t : Store} {a : σ}

theorem Regular.request (h : Regular d field) :
    Definition.Request d (Value.ofPairs (fieldKeys field)) (fieldKeys field) (indexName field) :=
  ⟨h.keys, pattern_fieldKeys field, h.requestedName⟩

/-- Further indexes leave settled what is settled. -/
theorem Settled.append (h : Settled xs d field) (added : Indexes) :
    Settled (xs ++ added) d field := by
  cases h with
  | served first compatible expires =>
    exact .served (Indexes.find?_append_of_some first added) compatible expires
  | repeated first conflict again =>
    exact .repeated (Indexes.find?_append_of_some first added) conflict (again.append added)

/-- An index that is repeated, while the first one with its keys is in conflict, is not the first
one on any field, as it would have to be to get a time to live. -/
theorem name_ne_of_repeated {e : String × Info} (hx : xs.Distinct) (hd : Regular d field)
    (hd' : Regular d' other)
    (first : Indexes.find? (Value.ofPairs (fieldKeys field)) xs = .ok (some e))
    (conflict : e.2.Conflicts d)
    (again : Indexes.Repeated xs (indexName field) (fieldKeys field) (Definition.recorded d))
    (hg : Assoc.get? xs name = some info) (hi : info.Expirable d')
    (hf : First xs d' (name, info)) : indexName field ≠ name := by
  rintro rfl
  obtain ⟨info', hg', hp, -⟩ := id again
  obtain rfl := Option.some.inj (hg'.symm.trans hg)
  -- It would be on both fields, which are thus the same, and hence the first one on this field.
  have hk := hi.hasKeys
  rw [hd'.keys, hasKeys_fieldKeys_iff] at hk
  obtain rfl := field_eq_of_hasPattern hp hk
  obtain ⟨keys, hkeys, hf⟩ := hf
  obtain rfl := Except.ok.inj (hd'.keys.symm.trans hkeys)
  obtain rfl := Option.some.inj (Except.ok.inj (first.symm.trans hf))
  obtain ⟨info'', hg'', hfits⟩ := again.fits hx hd.keys
  obtain rfl := Option.some.inj (hg''.symm.trans hg)
  exact (conflict (Info.fits_eq_true_iff.1 hfits).2.1).2 hi.unlimited

/-- Nor does a time to live unsettle anything that is given to the first index on some field. -/
theorem Settled.expired (hx : xs.Distinct) (hd : Regular d field) (hd' : Regular d' other)
    (h : Settled xs d field) (hg : Assoc.get? xs name = some info) (hi : info.Expirable d')
    (hf : First xs d' (name, info)) : Settled (expired xs name info d') d field := by
  have hfound : ∀ {e : String × Info}, e ∈ xs → e.1 = name → e.2 = info := fun hm hn =>
    Option.some.inj ((Assoc.get?_of_mem hx.nodup hm).symm.trans (hn ▸ hg))
  cases h with
  | @served e first compatible expires =>
    have hfirst := Indexes.find?_set_ttl hx.nodup hg first (Document.field d' Index.ttl)
    by_cases hn : e.1 = name
    · obtain rfl := hfound (Indexes.mem_of_find? first) hn
      rw [if_pos hn] at hfirst
      refine .served hfirst ?_ ?_
      · exact (Info.compatible_set_ttl ..).trans compatible
      · rw [Info.ttl_eq_null_of_expiresAs hi.unlimited expires]
        rfl
    · rw [if_neg hn] at hfirst
      exact .served hfirst compatible expires
  | @repeated e first conflict again =>
    have hfirst := Indexes.find?_set_ttl hx.nodup hg first (Document.field d' Index.ttl)
    obtain ⟨info', hg', hp, ho⟩ := id again
    have hne := name_ne_of_repeated hx hd hd' first conflict again hg hi hf
    have hagain : Indexes.Repeated (Schema.expired xs name info d') (indexName field)
        (fieldKeys field) (Definition.recorded d) :=
      ⟨info', (Assoc.get?_set_of_ne _ hne).trans hg', hp, ho⟩
    by_cases hn : e.1 = name
    · obtain rfl := hfound (Indexes.mem_of_find? first) hn
      rw [if_pos hn] at hfirst
      refine .repeated hfirst (fun hc => ?_) hagain
      have hc' := (Info.compatible_set_ttl ..).symm.trans hc
      exact absurd hi.unlimited (conflict hc').2
    · rw [if_neg hn] at hfirst
      exact .repeated hfirst conflict hagain

/-- An index that is created for a declaration settles it. If there has been an index with its keys,
that one is in conflict with it; if not, the created one is the first. -/
theorem settled_of_created {found conflict : Option (String × Info)} {added : Indexes}
    (hx : (xs ++ added).Distinct) (hd : Regular d field)
    (hf : Indexes.find? (Value.ofPairs (fieldKeys field)) xs = .ok found)
    (hdec : Decision.of found d = .create conflict)
    (hadded : added = [] ∨ ∃ info, added = [(indexName field, info)])
    (hagain : Indexes.Repeated (xs ++ added) (indexName field) (fieldKeys field)
      (Definition.recorded d)) : Settled (xs ++ added) d field := by
  cases found with
  | some e =>
    obtain ⟨-, hconflict⟩ := Decision.of_eq_create_iff.1 hdec
    exact .repeated (Indexes.find?_append_of_some hf added) hconflict hagain
  | none =>
    obtain ⟨info, hg, hp, ho⟩ := id hagain
    have hkeys := hasKeys_fieldKeys_iff.2 hp
    rcases List.mem_append.1 (Assoc.mem_of_get? hg) with hm | hm
    · have hno := Indexes.find?_eq_none_iff.1 hf _ hm
      exact absurd hkeys (by simp [hno])
    · rcases hadded with rfl | ⟨info', rfl⟩
      · simp at hm
      · obtain rfl : info = info' := by simpa using hm
        obtain ⟨info'', hg'', hfits⟩ := hagain.fits hx hd.keys
        obtain rfl := Option.some.inj (hg''.symm.trans hg)
        obtain ⟨-, compatible, expires⟩ := Info.fits_eq_true_iff.1 hfits
        exact .served (Indexes.find?_append_of_none hf hkeys) compatible expires

/-- A declaration is settled once it has been ensured. -/
theorem settled_ensureIndex (h : answer.Repeatable store Asked) (hs : (store a).Distinct)
    (hasked : Asked d) (hd : Regular d field) (hc : d.Comparable)
    (hx : (store a).indexes? database collection = some xs) {o : Outcome}
    (hr : result answer (ensureIndex database collection d) a = .ok o) :
    ∃ ys, (store (final answer (ensureIndex database collection d) a)).indexes? database collection
      = some ys ∧ Settled ys d field := by
  obtain ⟨keys, xs', found, hseen, hcalled, hfinal⟩ := ensureIndex_eq_ok hr
  obtain rfl := Except.ok.inj (hd.keys.symm.trans hseen.declared)
  have hfirst := hseen.first
  have hxs : xs' = xs := (hseen.eq_indexes h.toCareful).trans (indexes_of_indexes? hx)
  subst hxs
  have hlisted := h.distinct (.listIndexes database collection) a hs
  have hx' : (store (listed answer database collection a)).indexes? database collection
      = some xs' := ((reached_listed h.toCareful database collection a).indexes? ..).trans hx
  rw [hfinal]
  cases hdec : Decision.of found d with
  | keep =>
    obtain ⟨name, info, rfl, compatible, expires⟩ := Decision.of_eq_keep_iff.1 hdec
    exact ⟨xs', hx', .served hfirst compatible expires⟩
  | attach index seconds =>
    obtain ⟨info, rfl, compatible, -, rfl, -⟩ := Decision.of_eq_attach_iff.1 hdec
    rw [hdec] at hcalled
    obtain ⟨ys, info', hy, hg, ht⟩ := h.expired _ _ _ _ _ hcalled
    obtain rfl := Option.some.inj (hy.symm.trans hx')
    have hg' := Assoc.get?_of_mem (hs.indexes? hx).nodup (Indexes.mem_of_find? hfirst)
    obtain rfl := Option.some.inj (hg.symm.trans hg')
    have hset := Indexes.find?_set_ttl (hs.indexes? hx).nodup hg hfirst (Document.field d Index.ttl)
    rw [if_pos rfl] at hset
    rw [acted, ht]
    refine ⟨_, indexes?_putIndexes_self .., .served hset ?_ ?_⟩
    · exact (Info.compatible_set_ttl ..).trans compatible
    · rw [Info.expiresAs, Info.field_set_self, hc, Bool.or_true]
  | create conflict =>
    rw [hdec] at hcalled
    obtain ⟨added, hadded, hys, hagain⟩ :=
      h.appended _ _ _ d _ _ _ _ hlisted hasked hd.request hx' hcalled
    have hdistinct := (h.distinct _ _ hlisted).indexes? hys
    exact ⟨_, hys, settled_of_created hdistinct hd hfirst hdec hadded hagain⟩

end Schema

end Provisioner
