import Provisioner.Proofs.Store.CarefulServer
import Provisioner.Proofs.Index.Search
import Provisioner.Proofs.Schema.EnsureStep

/-!
# What a step can do to the contents

Against a careful server, bringing an index into being leaves the contents alone, appends to the
collection, or gives a time to live to one index, and to no other index than one that has the
declared keys and options and expires nothing so far. Bringing a collection into being creates it
empty or does nothing. This holds however the step ends, and everything that is said later about
the contents is derived from it.

## Main definitions

* `Info.Expirable` — an index lacks nothing but the time to live of a declaration
* `Schema.IndexStep`, `CollectionStep` — what the two steps can do to the contents

## Main results

* `Schema.indexStep_ensureIndex`, `collectionStep_ensureCollection` — they do nothing else
* `Schema.IndexStep.fit` — what served a declaration still does
-/

namespace Provisioner

open Store

/-- An index has the keys and options of a declaration, which has a time to live, and the index
has none. -/
structure Info.Expirable (info : Info) (d : Definition) : Prop where
  hasKeys : info.hasKeys (Definition.keys d) = .ok true
  compatible : info.compatible d = true
  unlimited : Document.field info Index.ttl = .null
  limited : Document.field d Index.ttl ≠ .null

namespace Schema

open Attempt Procedure

/-- An index that gets the time to live of a declaration. -/
def expired (xs : Indexes) (name : String) (info : Info) (d : Definition) : Indexes :=
  Assoc.set xs name (Assoc.set info Index.ttl (Document.field d Index.ttl))

/-- The first index that has the keys of a declaration. -/
def First (xs : Indexes) (d : Definition) (e : String × Info) : Prop :=
  ∃ keys, Definition.keys d = .ok keys ∧ Indexes.find? keys xs = .ok (some e)

/-- What bringing an index into being can do to the contents. -/
inductive IndexStep (database collection : String) (d : Definition) (s : Store) : Store → Prop
  | same {t : Store} (h : Reached database s t) : IndexStep database collection d s t
  | grown (added : Indexes) : IndexStep database collection d s
      (s.putIndexes database collection (s.indexesOrFresh database collection ++ added))
  | expired {xs : Indexes} {name : String} {info : Info}
      (hx : s.indexes? database collection = some xs) (hg : Assoc.get? xs name = some info)
      (hi : info.Expirable d) (hf : First xs d (name, info)) : IndexStep database collection d s
      (s.putIndexes database collection (expired xs name info d))

/-- What bringing a collection into being can do to the contents. -/
inductive CollectionStep (database name : String) (s : Store) : Store → Prop
  | same {t : Store} (h : Reached database s t) : CollectionStep database name s t
  | created (hn : s.indexes? database name = none) :
      CollectionStep database name s (s.putIndexes database name Indexes.fresh)

variable {σ : Type} {answer : Handler σ} {store : σ → Store} {database collection name : String}
  {d : Definition} {s t : Store}

/-! ### Listing -/

theorem reached_listed (h : answer.Careful store) (database collection : String) (a : σ) :
    Reached database (store a) (store (listed answer database collection a)) :=
  (h.allowed (.listIndexes database collection) a).1

theorem reached_listedCollections (h : answer.Careful store) (database : String) (a : σ) :
    Reached database (store a) (store (listedCollections answer database a)) :=
  (h.allowed (.listCollections database) a).1

/-- The indexes that a step has seen are those of the collection. -/
theorem Seen.eq_indexes (h : answer.Careful store) {a : σ} {keys : Value} {xs : Indexes}
    {found : Option (String × Info)} (hs : Seen answer database collection d a keys xs found) :
    xs = (store a).indexes database collection :=
  (h.allowed (.listIndexes database collection) a).2 xs hs.listing

theorem indexes?_of_mem_indexes {e : String × Info} (he : e ∈ s.indexes database collection) :
    s.indexes? database collection = some (s.indexes database collection) := by
  rw [Store.indexes] at he ⊢
  cases hx : s.indexes? database collection with
  | none => simp [hx] at he
  | some xs => rfl

/-- An index to which a time to live is to be attached lacks nothing else. -/
theorem expirable_of_attach {keys : Value} {xs : Indexes} {found : Option (String × Info)}
    {seconds : Value} (hk : Definition.keys d = .ok keys) (hf : Indexes.find? keys xs = .ok found)
    (hd : Decision.of found d = .attach name seconds) :
    ∃ info, First xs d (name, info) ∧ info.Expirable d ∧ seconds = Document.field d Index.ttl := by
  obtain ⟨info, rfl, hc, hn, rfl, hl⟩ := Decision.of_eq_attach_iff.1 hd
  refine ⟨info, ⟨keys, hk, hf⟩, ⟨?_, hc, hn, hl⟩, rfl⟩
  rw [hk]
  exact Indexes.hasKeys_of_find? hf

theorem First.mem {xs : Indexes} {e : String × Info} (h : First xs d e) : e ∈ xs := by
  obtain ⟨keys, -, hf⟩ := h
  exact Indexes.mem_of_find? hf

theorem First.eq {xs : Indexes} {e e' : String × Info} (h : First xs d e) (h' : First xs d e') :
    e = e' := by
  obtain ⟨keys, hk, hf⟩ := h
  obtain ⟨keys', hk', hf'⟩ := h'
  obtain rfl := Except.ok.inj (hk.symm.trans hk')
  exact Option.some.inj (Except.ok.inj (hf.symm.trans hf'))

/-! ### The steps -/

/-- Attaching a time to live gives it to the index that has been seen, or does nothing. -/
theorem acted_attach (h : answer.Careful store) {a : σ} (hs : (store a).Distinct)
    {keys : Value} {xs : Indexes} {found : Option (String × Info)} {index : String}
    {seconds : Value} (hseen : Seen answer database collection d a keys xs found)
    (hd : Decision.of found d = .attach index seconds) :
    Reached database (store a) (store (acted answer database collection d keys
        (listed answer database collection a) (.attach index seconds)))
      ∨ ∃ info, (store a).indexes? database collection = some xs ∧ Assoc.get? xs index = some info
        ∧ info.Expirable d ∧ First xs d (index, info)
        ∧ store (acted answer database collection d keys
            (listed answer database collection a) (.attach index seconds))
          = (store a).putIndexes database collection (expired xs index info d) := by
  have hr := reached_listed h database collection a
  obtain ⟨info, hfirst, hi, rfl⟩ := expirable_of_attach hseen.declared hseen.first hd
  have hm := hfirst.mem
  rcases h.allowed
    (.expireIndex database collection index (Document.field d Index.ttl))
    (listed answer database collection a) with ht | ⟨ys, info', hy, hg', ht⟩
  · exact .inl (hr.trans ht)
  · have hxs := hseen.eq_indexes h
    subst hxs
    have hx := indexes?_of_mem_indexes hm
    rw [hr.indexes?, hx] at hy
    obtain rfl := Option.some.inj hy
    have hg := Assoc.get?_of_mem (hs.indexes? hx).nodup hm
    obtain rfl := Option.some.inj (hg'.symm.trans hg)
    rw [hr.putIndexes] at ht
    exact .inr ⟨info', hx, hg, hi, hfirst, ht⟩

/-- Acting on what has been seen is such a step. -/
theorem indexStep_acted (h : answer.Careful store) {a : σ} (hs : (store a).Distinct)
    {keys : Value} {xs : Indexes} {found : Option (String × Info)}
    (hseen : Seen answer database collection d a keys xs found) :
    IndexStep database collection d (store a)
      (store (acted answer database collection d keys (listed answer database collection a)
        (Decision.of found d))) := by
  have hr := reached_listed h database collection a
  cases hd : Decision.of found d with
  | keep => exact .same hr
  | create conflict =>
    rcases h.allowed
      (.createIndex database collection keys (Definition.options d))
      (listed answer database collection a) with ht | ⟨added, ht⟩
    · exact .same (hr.trans ht)
    · rw [hr.putIndexes, Store.indexesOrFresh, hr.indexes?] at ht
      rw [acted, ht]
      exact .grown added
  | attach index seconds =>
    rcases acted_attach h hs hseen hd with ht | ⟨info, hx, hg, hi, hfirst, ht⟩
    · exact .same ht
    · rw [ht]
      exact .expired hx hg hi hfirst

/-- Bringing an index into being does nothing else to the contents, however it ends. -/
theorem indexStep_ensureIndex (h : answer.Careful store) (database collection : String)
    (d : Definition) {a : σ} (hs : (store a).Distinct) :
    IndexStep database collection d (store a)
      (store (final answer (ensureIndex database collection d) a)) := by
  rcases final_ensureIndex answer database collection d a with
    he | he | ⟨keys, xs, found, hseen, he⟩
  · rw [he]
    exact .same (.refl database _)
  · rw [he]
    exact .same (reached_listed h database collection a)
  · rw [he]
    exact indexStep_acted h hs hseen

/-- Bringing a collection into being does nothing else to the contents, however it ends. -/
theorem collectionStep_ensureCollection (h : answer.Careful store) (database name : String)
    (a : σ) :
    CollectionStep database name (store a)
      (store (final answer (ensureCollection database name) a)) := by
  have hr := reached_listedCollections h database a
  rcases final_ensureCollection answer database name a with he | ⟨names, -, -, he⟩
  · rw [he]
    exact .same hr
  · rw [he]
    rcases h.allowed (.createCollection database name)
      (listedCollections answer database a) with ht | ⟨hn, ht⟩
    · exact .same (hr.trans ht)
    · rw [hr.indexes?] at hn
      rw [ht, hr.putIndexes]
      exact .created hn

/-! ### Distinct names -/

/-- No name comes to be repeated, whatever is carried out. -/
theorem distinct_final {α : Type} (h : answer.Careful store) (p : Procedure α) {a : σ}
    (hs : (store a).Distinct) : (store (final answer p a)).Distinct :=
  final_of_stays (P := fun b => (store b).Distinct) h.distinct p hs

theorem distinct_ensureIndex (h : answer.Careful store) (database collection : String)
    (d : Definition) {a : σ} (hs : (store a).Distinct) :
    (store (final answer (ensureIndex database collection d) a)).Distinct :=
  distinct_final h _ hs

theorem distinct_ensureCollection (h : answer.Careful store) (database name : String) {a : σ}
    (hs : (store a).Distinct) :
    (store (final answer (ensureCollection database name) a)).Distinct :=
  distinct_final h _ hs

/-! ### Runs -/

/-- From one state to another names remain distinct, and the contents are related. -/
def Along (store : σ → Store) (R : Store → Store → Prop) (a b : σ) : Prop :=
  (store a).Distinct → (store b).Distinct ∧ R (store a) (store b)

section Along

variable {R : Store → Store → Prop} {a b c : σ}

theorem Along.refl (hR : ∀ s, R s s) (a : σ) : Along store R a a := fun hs => ⟨hs, hR _⟩

theorem Along.trans (hR : ∀ {s t u}, R s t → R t u → R s u) (h : Along store R a b)
    (h' : Along store R b c) : Along store R a c := fun hs =>
  have ⟨hb, hab⟩ := h hs
  have ⟨hc, hbc⟩ := h' hb
  ⟨hc, hR hab hbc⟩

theorem along_ensureIndex (h : answer.Careful store)
    (hR : ∀ {s t}, s.Distinct → IndexStep database collection d s t → R s t) (a : σ) :
    Along store R a (final answer (ensureIndex database collection d) a) := fun hs =>
  ⟨distinct_ensureIndex h database collection d hs,
    hR hs (indexStep_ensureIndex h database collection d hs)⟩

theorem along_ensureCollection (h : answer.Careful store)
    (hR : ∀ {s t}, CollectionStep database name s t → R s t) (a : σ) :
    Along store R a (final answer (ensureCollection database name) a) := fun hs =>
  ⟨distinct_ensureCollection h database name hs,
    hR (collectionStep_ensureCollection h database name a)⟩

variable (hrefl : ∀ s, R s s) (htrans : ∀ {s t u}, R s t → R t u → R s u)

include hrefl htrans

/-- What every step for one of the declarations respects is respected by all of them in a row. -/
theorem along_ensureIndexes (h : answer.Careful store) {ds : List Definition}
    (hR : ∀ d ∈ ds, ∀ {s t}, s.Distinct → IndexStep database collection d s t → R s t)
    (tally : Tally) (a : σ) :
    Along store R a (final answer (ensureIndexes database collection ds tally) a) := by
  induction ds generalizing tally a with
  | nil => exact .refl hrefl a
  | cons d ds ih =>
    obtain ⟨hd, hds⟩ := List.forall_mem_cons.1 hR
    exact final_bind_rel (Along.trans htrans) (along_ensureIndex h hd a) fun o _ => ih hds _ _

/-- The same for a collection with its declarations. -/
theorem along_createCollection (h : answer.Careful store) {ds : List Definition}
    (hds : definitions collection = .ok ds)
    (hC : ∀ {s t}, CollectionStep database collection s t → R s t)
    (hR : ∀ d ∈ ds, ∀ {s t}, s.Distinct → IndexStep database collection d s t → R s t) (a : σ) :
    Along store R a (final answer (createCollection database collection) a) := by
  refine final_bind_rel (Along.trans htrans) (along_ensureCollection h hC a) fun created _ => ?_
  rw [hds, final_bind_of_ok (result_require _)]
  exact along_ensureIndexes hrefl htrans h hR _ _

/-- Verifying only lists. -/
theorem along_missingIn (h : answer.Careful store)
    (hR : ∀ {s t}, Reached database s t → R s t) (entries : List (String × List Definition))
    (a : σ) : Along store R a (final answer (missingIn database entries) a) := by
  induction entries generalizing a with
  | nil => exact .refl hrefl a
  | cons e entries ih =>
    refine final_bind_rel (Along.trans htrans) (final_bind_rel (Along.trans htrans) ?_ ?_) ?_
    · exact fun hs => ⟨h.distinct (.listIndexes database e.1) a hs,
        hR (reached_listed h database e.1 a)⟩
    · exact fun xs _ => .refl hrefl _
    · exact fun first _ => final_bind_rel (Along.trans htrans) (ih _) fun others _ => .refl hrefl _

omit hrefl htrans

theorem distinct_ensureIndexes (h : answer.Careful store) (database collection : String)
    (ds : List Definition) (tally : Tally) (hs : (store a).Distinct) :
    (store (final answer (ensureIndexes database collection ds tally) a)).Distinct :=
  distinct_final h _ hs

theorem distinct_createCollection (h : answer.Careful store) (database collection : String)
    (hs : (store a).Distinct) :
    (store (final answer (createCollection database collection) a)).Distinct :=
  distinct_final h _ hs

end Along

/-! ### What serves a declaration -/

/-- What served any declaration before a step serves it afterwards: an index is only ever given a
time to live if it had none, and then it served no declaration that asks for one. -/
theorem IndexStep.fit (hs : s.Distinct) (h : IndexStep database collection d s t)
    {e : Definition} (hf : (s.indexes database collection).Fit e) :
    (t.indexes database collection).Fit e := by
  obtain ⟨x, hx, hfit⟩ := hf
  have hsome := indexes?_of_mem_indexes hx
  cases h with
  | same hr => exact ⟨x, hr.indexes database collection ▸ hx, hfit⟩
  | grown added =>
    refine ⟨x, ?_, hfit⟩
    rw [indexes_putIndexes_self, Store.indexesOrFresh, hsome]
    exact List.mem_append_left _ hx
  | @expired xs name info hxs hg hi hf =>
    obtain rfl := Option.some.inj (hxs.symm.trans hsome)
    rw [indexes_putIndexes_self]
    by_cases hn : x.1 = name
    · obtain rfl : info = x.2 :=
        Option.some.inj (hg.symm.trans (hn ▸ Assoc.get?_of_mem (hs.indexes? hxs).nodup hx))
      exact ⟨_, Assoc.mem_of_get? (Assoc.get?_set_self _ name _),
        Info.fits_set_ttl hi.unlimited hfit⟩
    · exact ⟨x, Assoc.mem_set_of_ne hx hn, hfit⟩

/-- The other collections are not concerned. -/
theorem IndexStep.indexes?_of_ne (h : IndexStep database collection d s t) {other : String}
    (hn : other ≠ collection) : t.indexes? database other = s.indexes? database other := by
  cases h with
  | same hr => exact hr.indexes? database other
  | grown added => exact indexes?_putIndexes_of_ne _ hn
  | expired hx hg hi hf => exact indexes?_putIndexes_of_ne _ hn

theorem IndexStep.indexes_of_ne (h : IndexStep database collection d s t) {other : String}
    (hn : other ≠ collection) : t.indexes database other = s.indexes database other := by
  rw [Store.indexes, h.indexes?_of_ne hn, Store.indexes]

/-- What exists is not concerned by the creation of a collection. -/
theorem CollectionStep.indexes? (h : CollectionStep database name s t) {xs : Indexes}
    (hx : s.indexes? database collection = some xs) :
    t.indexes? database collection = some xs := by
  cases h with
  | same hr => exact (hr.indexes? database collection).trans hx
  | created hn =>
    have hne : collection ≠ name := by
      rintro rfl
      exact nomatch hn.symm.trans hx
    exact (indexes?_putIndexes_of_ne _ hne).trans hx

theorem CollectionStep.fit (h : CollectionStep database name s t) {e : Definition}
    (hf : (s.indexes database collection).Fit e) : (t.indexes database collection).Fit e := by
  obtain ⟨x, hx, hfit⟩ := hf
  have ht := h.indexes? (indexes?_of_mem_indexes hx)
  refine ⟨x, ?_, hfit⟩
  rw [Store.indexes, ht, Option.getD_some]
  exact hx

end Schema

end Provisioner
