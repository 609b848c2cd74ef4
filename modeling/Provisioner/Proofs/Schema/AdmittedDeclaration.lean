import Provisioner.Proofs.Schema.TidyIndexes
import Provisioner.Proofs.Schema.SettledDeclaration
import Provisioner.Proofs.Schema.SuccessfulRun

/-!
# Declarations that are admitted

The server rejects a request for an index if its name or its keys are taken. Whether it comes to
that can be told beforehand, from the indexes that a collection has: a declaration that they admit
is provided for, and one that they do not admit is refused and has no effect. Of several
declarations that do not affect each other, those before the first one that is not admitted are
provided for.

## Main definitions

* `Schema.Refused` — an attempt that ends with the rejection of a request for an index

## Main results

* `Schema.ensureIndex_of_admits`, `ensureIndex_of_not_admits` — one declaration
* `Schema.ensureIndexes_of_admits`, `ensureIndexes_of_not_admits` — several of them
-/

namespace Provisioner

open Store

namespace Schema

open Attempt Procedure

variable {d : Definition} {field target collection : String} {xs : Indexes} {server : Server}

/-! ### What is found -/

/-- Among readable indexes the search comes to its end. -/
theorem exists_find? (hw : ∀ e ∈ xs, Info.WellFormed e.2) (ps : List (Value × Value)) :
    ∃ found, Indexes.find? (Value.ofPairs ps) xs = .ok found := by
  induction xs with
  | nil => exact ⟨none, rfl⟩
  | cons x xs ih =>
    obtain ⟨hx, hw⟩ := List.forall_mem_cons.1 hw
    rw [Indexes.find?, Indexes.hasKeys_ofPairs_of_wellFormed hx]
    cases Indexes.hasPattern ps x.2 with
    | true => exact ⟨some x, rfl⟩
    | false => exact ih hw

/-- Among tidy indexes the search finds the one on the field, or there is none. -/
theorem Tidy.find? (hx : Tidy xs) (field : String) :
    (∃ e ∈ xs, Indexes.hasPattern (fieldKeys field) e.2 = true
        ∧ Indexes.find? (Value.ofPairs (fieldKeys field)) xs = .ok (some e))
      ∨ (∀ e ∈ xs, Indexes.hasPattern (fieldKeys field) e.2 = false)
        ∧ Indexes.find? (Value.ofPairs (fieldKeys field)) xs = .ok none := by
  obtain ⟨found, hf⟩ := exists_find? hx.wellFormed (fieldKeys field)
  cases found with
  | some e =>
    have hk := hasKeys_fieldKeys_iff.1 (Indexes.hasKeys_of_find? hf)
    exact .inl ⟨e, Indexes.mem_of_find? hf, hk, hf⟩
  | none =>
    refine .inr ⟨fun e he => ?_, hf⟩
    have hk := Indexes.find?_eq_none_iff.1 hf e he
    rw [Indexes.hasKeys_ofPairs_of_wellFormed (hx.wellFormed e he)] at hk
    exact Except.ok.inj hk

/-! ### Refusals -/

/-- An attempt that ends with the rejection of the request for a declared index: the server answers
that an index has other options or another name, or that the name is taken, and nothing happens
after that. -/
def Refused {α : Type} (target collection : String) (d : Definition) (x : Attempt α)
    (server : Server) : Prop :=
  ∃ r : Rejection, (r.code? = some 85 ∨ r.code? = some 86)
    ∧ result Server.answer x server = .error (.rejected r)
    ∧ (trace Server.answer x server).getLast? = some (.call
        (.createIndex target collection (Value.ofPairs d.pattern) (Definition.options d))
        (some (.rejected r)))

section Refused

variable {α β : Type} {x : Attempt α} {f : α → Attempt β} {v : α}

/-- After a refusal nothing else happens. -/
theorem Refused.bind (h : Refused target collection d x server) :
    Refused target collection d (x >>= f : Attempt β) server := by
  obtain ⟨r, hc, hr, ht⟩ := h
  refine ⟨r, hc, result_bind_of_error hr, ?_⟩
  rw [trace_bind_of_error hr]
  exact ht

theorem Refused.final_bind (h : Refused target collection d x server) :
    final Server.answer (x >>= f : Attempt β) server = final Server.answer x server := by
  obtain ⟨r, -, hr, -⟩ := h
  exact final_bind_of_error hr

/-- What comes before does not matter. -/
theorem Refused.after (hx : result Server.answer x server = .ok v)
    (h : Refused target collection d (f v) (final Server.answer x server)) :
    Refused target collection d (x >>= f : Attempt β) server := by
  obtain ⟨r, hc, hr, ht⟩ := h
  refine ⟨r, hc, (result_bind_of_ok hx).trans hr, ?_⟩
  rw [trace_bind_of_ok hx, List.getLast?_append, ht]
  rfl

end Refused

/-! ### One declaration -/

theorem store_listed (hx : server.store.indexes? target collection = some xs) :
    (listed Server.answer target collection server).store = server.store :=
  enter_of_indexes? hx

/-- A request that neither repeats an index nor is free of them is refused, and changes nothing. -/
theorem ensureIndex_of_rejected (hd : Regular d field)
    (hx : server.store.indexes? target collection = some xs)
    {found conflict : Option (String × Info)}
    (hf : Indexes.find? (Value.ofPairs (fieldKeys field)) xs = .ok found)
    (hdec : Decision.of found d = .create conflict)
    (hr : ¬ Indexes.Repeated xs (indexName field) (fieldKeys field) d.recorded)
    (hu : ¬ Indexes.Unclaimed xs (indexName field) (fieldKeys field)) :
    Refused target collection d (ensureIndex target collection d) server
      ∧ (final Server.answer (ensureIndex target collection d) server).store = server.store := by
  have hl := Server.faithful.listed_of_indexes? hx
  obtain ⟨r, hc, hcode⟩ := Indexes.create_rejected hd.requestedName (pattern_fieldKeys field) hr hu
  have hx' : (listed Server.answer target collection server).store.indexes? target collection
      = some xs := by rw [store_listed hx, hx]
  rw [← indexesOrFresh_of_indexes? hx'] at hc
  have hanswer : Server.answer (.createIndex target collection (Value.ofPairs (fieldKeys field))
        (Definition.options d)) (listed Server.answer target collection server)
      = (.error (.rejected r), { listed Server.answer target collection server with
          store := server.store }) := by
    simp only [Server.answer, Server.createIndex_of_error hc]
    rw [indexesOrFresh_of_indexes? hx', store_listed hx, putIndexes_of_indexes? hx]
  have hrejected := congrArg Prod.fst hanswer
  refine ⟨⟨r, hcode, ?_, ?_⟩, ?_⟩
  · rw [result_ensureIndex hd.keys hl hf, hdec, (enact_create_of_error hrejected).1]
  · rw [trace_ensureIndex hd.keys hl hf, hdec, ← List.singleton_append, List.getLast?_append,
      (enact_create_of_error hrejected).2, hd.pattern]
    rfl
  · rw [final_ensureIndex_of_found hd.keys hl hf, hdec, acted, hanswer]

/-- Where an index is in conflict with a declaration, the declared one does not exist: it would be
another one with the same keys. -/
theorem not_repeated_of_conflicts {e : String × Info} (hs : xs.Distinct) (ht : Tidy xs)
    (hd : Regular d field) (he : e ∈ xs)
    (hk : Indexes.hasPattern (fieldKeys field) e.2 = true) (hconflict : e.2.Conflicts d) :
    ¬ Indexes.Repeated xs (indexName field) (fieldKeys field) d.recorded := by
  intro hrepeated
  obtain ⟨info, hg, hfits⟩ := hrepeated.fits hs hd.keys
  obtain ⟨hkeys, compatible, expires⟩ := Info.fits_eq_true_iff.1 hfits
  rw [hd.keys, hasKeys_fieldKeys_iff] at hkeys
  obtain rfl := ht.single field _ (Assoc.mem_of_get? hg) e he hkeys hk
  exact absurd expires (by simp [(hconflict compatible).1])

/-- A declaration that is not admitted is refused, and changes nothing. -/
theorem ensureIndex_of_not_admits (hs : server.store.Distinct)
    (hx : server.store.indexes? target collection = some xs) (ht : Tidy xs) (hd : Regular d field)
    (ha : ¬ Admits xs d) :
    Refused target collection d (ensureIndex target collection d) server
      ∧ (final Server.answer (ensureIndex target collection d) server).store = server.store := by
  rcases ht.find? field with ⟨e, he, hk, hf⟩ | ⟨hnone, hf⟩
  · have honly : ∀ e' ∈ xs, Indexes.hasPattern d.pattern e'.2 = true → e' = e :=
      fun e' he' hk' => ht.single field e' he' e he (hd.pattern ▸ hk') hk
    have hconflict : e.2.Conflicts d := by
      -- Were it not in conflict, it would be the one index that has to be admitted.
      intro hcompatible
      by_contra hno
      refine ha ⟨fun e' he' hk' => honly e' he' hk' ▸ hcompatible, fun e' he' hk' => ?_,
        fun hn => absurd ⟨e, he, hd.pattern ▸ hk⟩ hn⟩
      rw [honly e' he' hk']
      by_contra hnot
      rw [not_or, Bool.not_eq_true] at hnot
      exact hno ⟨hnot.2, hnot.1⟩
    refine ensureIndex_of_rejected hd hx hf (Decision.of_eq_create_iff.2 ⟨rfl, hconflict⟩)
      (not_repeated_of_conflicts (hs.indexes? hx) ht hd he hk hconflict) ?_
    intro hunclaimed
    exact absurd hk (by simp [hunclaimed.pattern e he])
  · refine ensureIndex_of_rejected hd hx hf rfl ?_ ?_
    · rintro ⟨info, hg, hp, -⟩
      exact absurd hp (by simp [hnone _ (Assoc.mem_of_get? hg)])
    · intro hunclaimed
      have hno : ∀ e ∈ xs, Indexes.hasPattern d.pattern e.2 ≠ true := fun e he hk => by
        rw [hd.pattern, hnone e he] at hk
        contradiction
      refine ha ⟨fun e he hk => absurd hk (hno e he), fun e he hk => absurd hk (hno e he),
        fun _ => ?_⟩
      rw [hd.defaultName]
      exact hunclaimed.name

/-- Where the only index on a field has the time to live, or none is declared, it is left alone. -/
theorem provide_of_expiresAs {e : String × Info} (ht : Tidy xs) (hd : Regular d field)
    (he : e ∈ xs) (hk : Indexes.hasPattern (fieldKeys field) e.2 = true)
    (hexp : e.2.expiresAs (Document.field d Index.ttl) = true) : provide xs d = xs := by
  have hsame : ∀ e' ∈ xs, limited d e' = e' := by
    intro e' he'
    rw [limited, if_neg]
    rintro ⟨hk', hexp'⟩
    obtain rfl := ht.single field e' he' e he (hd.pattern ▸ hk') hk
    exact absurd hexp' (by simp [hexp])
  rw [provide, if_pos ⟨e, he, hd.pattern ▸ hk⟩, List.map_congr_left hsame]
  exact List.map_id xs

/-- Where it has none, the declared one is attached to it. -/
theorem provide_of_expired {e : String × Info} (hs : xs.Distinct) (ht : Tidy xs)
    (hd : Regular d field) (he : e ∈ xs)
    (hk : Indexes.hasPattern (fieldKeys field) e.2 = true)
    (hexp : e.2.expiresAs (Document.field d Index.ttl) = false) :
    provide xs d = expired xs e.1 e.2 d := by
  rw [provide, if_pos ⟨e, he, hd.pattern ▸ hk⟩, expired,
    Assoc.set_eq_map hs.nodup (Assoc.mem_keys_of_mem he)]
  refine List.map_congr_left fun e' he' => ?_
  by_cases hn : e'.1 = e.1
  · have hinfo : e'.2 = e.2 := Option.some.inj
      ((Assoc.get?_of_mem hs.nodup he').symm.trans (hn ▸ Assoc.get?_of_mem hs.nodup he))
    obtain rfl : e' = e := Prod.ext hn hinfo
    rw [limited, if_pos ⟨hd.pattern ▸ hk, hexp⟩, if_pos rfl]
  · rw [limited, if_neg, if_neg hn]
    rintro ⟨hk', -⟩
    exact hn (congrArg Prod.fst (ht.single field e' he' e he (hd.pattern ▸ hk') hk))

section Provided

variable {e : String × Info} (hx : server.store.indexes? target collection = some xs)
  (hd : Regular d field)

include hx hd

/-- An index on the field that expires as declared is found and left alone. -/
theorem ensureIndex_of_expiresAs (ht : Tidy xs) (he : e ∈ xs)
    (hk : Indexes.hasPattern (fieldKeys field) e.2 = true)
    (hf : Indexes.find? (Value.ofPairs (fieldKeys field)) xs = .ok (some e))
    (hcompatible : e.2.compatible d = true)
    (hexp : e.2.expiresAs (Document.field d Index.ttl) = true) :
    result Server.answer (ensureIndex target collection d) server = .ok .found
      ∧ (final Server.answer (ensureIndex target collection d) server).store
        = server.store.putIndexes target collection (provide xs d) := by
  obtain ⟨text, htext⟩ := hd.describe collection
  have hl := Server.faithful.listed_of_indexes? hx
  have hdec : Decision.of (some e) d = .keep :=
    Decision.of_eq_keep_iff.2 ⟨e.1, e.2, rfl, hcompatible, hexp⟩
  rw [result_ensureIndex hd.keys hl hf, final_ensureIndex_of_found hd.keys hl hf, hdec,
    provide_of_expiresAs ht hd he hk hexp, putIndexes_of_indexes? hx]
  exact ⟨result_enact_keep htext _, store_listed hx⟩

/-- An index on the field that does not expire gets the declared time to live. -/
theorem ensureIndex_of_expired (hs : xs.Distinct) (ht : Tidy xs) (he : e ∈ xs)
    (hk : Indexes.hasPattern (fieldKeys field) e.2 = true)
    (hf : Indexes.find? (Value.ofPairs (fieldKeys field)) xs = .ok (some e))
    (hcompatible : e.2.compatible d = true) (hn : Document.field e.2 Index.ttl = .null)
    (hexp : e.2.expiresAs (Document.field d Index.ttl) = false) :
    result Server.answer (ensureIndex target collection d) server = .ok .attached
      ∧ (final Server.answer (ensureIndex target collection d) server).store
        = server.store.putIndexes target collection (provide xs d) := by
  obtain ⟨text, htext⟩ := hd.describe collection
  have hl := Server.faithful.listed_of_indexes? hx
  have hlimit : Document.field d Index.ttl ≠ .null := by
    intro hnull
    rw [hnull] at hexp
    contradiction
  have hdec : Decision.of (some e) d = .attach e.1 (Document.field d Index.ttl) :=
    Decision.of_eq_attach_iff.2 ⟨e.2, rfl, hcompatible, hn, rfl, hlimit⟩
  have hg := Assoc.get?_of_mem hs.nodup he
  have hanswer : Server.answer (.expireIndex target collection e.1 (Document.field d Index.ttl))
        (listed Server.answer target collection server)
      = (.ok (), { listed Server.answer target collection server with
          store := server.store.putIndexes target collection (expired xs e.1 e.2 d) }) := by
    simp only [Server.answer, store_listed hx, Server.expireIndex_of_get? hx hg]
    rfl
  rw [result_ensureIndex hd.keys hl hf, final_ensureIndex_of_found hd.keys hl hf, hdec,
    provide_of_expired hs ht hd he hk hexp]
  refine ⟨result_enact_attach htext (congrArg Prod.fst hanswer), ?_⟩
  rw [acted, hanswer]

/-- Where no index is on the field and none has the default name, the declared one is added. -/
theorem ensureIndex_of_unclaimed
    (hnone : ∀ e ∈ xs, Indexes.hasPattern (fieldKeys field) e.2 = false)
    (hname : indexName field ∉ Assoc.keys xs)
    (hf : Indexes.find? (Value.ofPairs (fieldKeys field)) xs = .ok none) :
    result Server.answer (ensureIndex target collection d) server = .ok .created
      ∧ (final Server.answer (ensureIndex target collection d) server).store
        = server.store.putIndexes target collection (xs ++ [entry d]) := by
  obtain ⟨text, htext⟩ := hd.describe collection
  have hl := Server.faithful.listed_of_indexes? hx
  have hx' : (listed Server.answer target collection server).store.indexes? target collection
      = some xs := by rw [store_listed hx, hx]
  have hc : xs.create (Value.ofPairs (fieldKeys field)) (Definition.options d)
      = .ok (xs ++ [entry d]) := by
    rw [entry, hd.defaultName, hd.pattern]
    exact Indexes.create_of_unclaimed hd.requestedName (pattern_fieldKeys field) ⟨hname, hnone⟩
  rw [← indexesOrFresh_of_indexes? hx'] at hc
  have hanswer : Server.answer (.createIndex target collection (Value.ofPairs (fieldKeys field))
        (Definition.options d)) (listed Server.answer target collection server)
      = (.ok (), { listed Server.answer target collection server with
          store := server.store.putIndexes target collection (xs ++ [entry d]) }) := by
    simp only [Server.answer, Server.createIndex_of_ok hc]
    rw [store_listed hx, indexesOrFresh_of_indexes? hx]
  rw [result_ensureIndex hd.keys hl hf, final_ensureIndex_of_found hd.keys hl hf]
  refine ⟨result_enact_create htext (congrArg Prod.fst hanswer), ?_⟩
  rw [Decision.of, acted, hanswer]

end Provided

/-- A declaration that is admitted is provided for. -/
theorem ensureIndex_of_admits (hs : server.store.Distinct)
    (hx : server.store.indexes? target collection = some xs) (ht : Tidy xs) (hd : Regular d field)
    (ha : Admits xs d) :
    (∃ o, result Server.answer (ensureIndex target collection d) server = .ok o)
      ∧ (final Server.answer (ensureIndex target collection d) server).store
        = server.store.putIndexes target collection (provide xs d) := by
  rcases ht.find? field with ⟨e, he, hk, hf⟩ | ⟨hnone, hf⟩
  · have hcompatible := ha.options e he (hd.pattern ▸ hk)
    cases hexp : e.2.expiresAs (Document.field d Index.ttl) with
    | true =>
      obtain ⟨hr, hstore⟩ := ensureIndex_of_expiresAs hx hd ht he hk hf hcompatible hexp
      exact ⟨⟨_, hr⟩, hstore⟩
    | false =>
      have hn : Document.field e.2 Index.ttl = .null :=
        (ha.lifetime e he (hd.pattern ▸ hk)).resolve_right (by simp [hexp])
      obtain ⟨hr, hstore⟩ :=
        ensureIndex_of_expired hx hd (hs.indexes? hx) ht he hk hf hcompatible hn hexp
      exact ⟨⟨_, hr⟩, hstore⟩
  · have hindexed : ¬ Indexed xs d := by
      rintro ⟨e, he, hk⟩
      rw [hd.pattern, hnone e he] at hk
      contradiction
    have hname : indexName field ∉ Assoc.keys xs := hd.defaultName ▸ ha.name hindexed
    obtain ⟨hr, hstore⟩ := ensureIndex_of_unclaimed hx hd hnone hname hf
    rw [provide, if_neg hindexed]
    exact ⟨⟨_, hr⟩, hstore⟩

/-! ### Several declarations -/

/-- Declarations that are all admitted are all provided for. -/
theorem ensureIndexes_of_admits {ds : List Definition} (hs : server.store.Distinct)
    (hx : server.store.indexes? target collection = some xs) (ht : Tidy xs)
    (hds : Noninterfering ds)
    (ha : ∀ d ∈ ds, Admits xs d) (tally : Tally) :
    (∃ tally', result Server.answer (ensureIndexes target collection ds tally) server = .ok tally')
      ∧ (final Server.answer (ensureIndexes target collection ds tally) server).store
        = server.store.putIndexes target collection (ds.foldl provide xs) := by
  induction ds generalizing server xs tally with
  | nil => exact ⟨⟨tally, rfl⟩, (putIndexes_of_indexes? hx).symm⟩
  | cons d ds ih =>
    obtain ⟨hd, hrest⟩ := List.forall_mem_cons.1 ha
    obtain ⟨field, hregular⟩ := hds.regular d List.mem_cons_self
    obtain ⟨hprecedes, -⟩ := List.pairwise_cons.1 hds.precedes
    have hp := hds.plain d List.mem_cons_self
    obtain ⟨⟨o, ho⟩, hstore⟩ := ensureIndex_of_admits hs hx ht hregular hd
    have hs' := distinct_ensureIndex Server.careful target collection d hs
    have hx' : (final Server.answer (ensureIndex target collection d) server).store.indexes?
        target collection = some (provide xs d) := by
      rw [hstore, indexes?_putIndexes_self]
    have hlater : ∀ d' ∈ ds, Admits (provide xs d) d' := fun d' hd' =>
      (admits_provide_iff hp (hprecedes d' hd') hd).2 (hrest d' hd')
    obtain ⟨hok, hfinal⟩ := ih hs' hx' (ht.provide hp hregular)
      (hds.sublist (List.sublist_cons_self _ _)) hlater (tally.count o)
    rw [ensureIndexes, result_bind_of_ok ho, final_bind_of_ok ho]
    refine ⟨hok, hfinal.trans ?_⟩
    rw [hstore, putIndexes_putIndexes_self, List.foldl_cons]

/-- The first declaration that is not admitted is refused, and those before it are provided for. -/
theorem ensureIndexes_of_not_admits {before after : List Definition} (hs : server.store.Distinct)
    (hx : server.store.indexes? target collection = some xs) (ht : Tidy xs)
    (hds : Noninterfering (before ++ d :: after)) (ha : ∀ d' ∈ before, Admits xs d')
    (hd : ¬ Admits xs d) (tally : Tally) :
    Refused target collection d (ensureIndexes target collection (before ++ d :: after) tally)
        server
      ∧ (final Server.answer (ensureIndexes target collection (before ++ d :: after) tally)
          server).store
        = server.store.putIndexes target collection (before.foldl provide xs) := by
  have hbefore : Noninterfering before := hds.sublist (List.sublist_append_left _ _)
  have hupto : Noninterfering (before ++ [d]) :=
    hds.sublist (List.Sublist.append_left (List.singleton_sublist.2 List.mem_cons_self) _)
  obtain ⟨field, hregular⟩ := hds.regular d (by simp)
  obtain ⟨⟨tally', hok⟩, hstore⟩ := ensureIndexes_of_admits hs hx ht hbefore ha tally
  have hs' := distinct_ensureIndexes Server.careful target collection before tally hs
  have hx' : (final Server.answer (ensureIndexes target collection before tally)
      server).store.indexes? target collection = some (before.foldl provide xs) := by
    rw [hstore, indexes?_putIndexes_self]
  obtain ⟨hrefused, hsame⟩ := ensureIndex_of_not_admits hs' hx' (ht.foldl_provide hbefore) hregular
    ((admits_foldl_provide_iff hupto ha).not.2 hd)
  rw [ensureIndexes_append]
  refine ⟨Refused.after hok hrefused.bind, ?_⟩
  rw [final_bind_of_ok hok, ensureIndexes, hrefused.final_bind, hsame, hstore]

end Schema

end Provisioner
