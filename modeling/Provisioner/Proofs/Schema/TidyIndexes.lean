import Provisioner.Proofs.Schema.FieldIndex

/-!
# What a collection admits

Whether a declared index can be brought into being depends on the indexes that the collection has.
An index with the declared keys has to have the declared options, and if the declaration has a time
to live, that time or none. If there is no index with these keys, then no other one may have the
default name. Where this is so, the declaration is provided for by attaching the time to live to
the one index, or by adding the declared one.

The conditions of several declarations can all be told from the indexes that are there at first,
because providing for one declaration does not affect what is admitted of another: they have
different keys, or the second one is the first one with a time to live.

## Main definitions

* `Schema.Tidy` — readable indexes of which no two are on the same field
* `Schema.Admits` — the indexes of a collection are not in the way of a declaration
* `Schema.provide` — the indexes that provide for a declaration
* `Schema.Precedes` — declarations that do not affect each other

## Main results

* `Schema.Tidy.provide` — tidy indexes remain tidy
* `Schema.admits_provide_iff` — what is admitted does not change
-/

namespace Provisioner

/-- The keys of a declaration as pairs, none if they cannot be read. -/
def Definition.pattern (d : Definition) : List (Value × Value) :=
  match Definition.keys d >>= Index.pattern with
  | .ok ps => ps
  | .error _ => []

/-- The name of the declared index if it is not given another one. -/
def Definition.defaultName (d : Definition) : String := Index.joinName d.pattern

theorem Indexes.hasPattern_set_ttl (ps : List (Value × Value)) (info : Info) (seconds : Value) :
    hasPattern ps (Assoc.set info Index.ttl seconds) = hasPattern ps info := by
  have hne : "key" ≠ Index.ttl := by decide
  simp only [hasPattern, Info.pattern, Assoc.get?_set_of_ne seconds hne]

namespace Schema

variable {d d' : Definition} {field other : String} {xs : Indexes} {e : String × Info}

theorem Regular.pattern (h : Regular d field) : d.pattern = fieldKeys field := by
  rw [Definition.pattern, h.keys]
  rfl

theorem Regular.defaultName (h : Regular d field) : d.defaultName = indexName field := by
  rw [Definition.defaultName, h.pattern, indexName]

/-! ### Conditions -/

/-- Some index has the keys of a declaration. -/
def Indexed (xs : Indexes) (d : Definition) : Prop :=
  ∃ e ∈ xs, Indexes.hasPattern d.pattern e.2 = true

instance (xs : Indexes) (d : Definition) : Decidable (Indexed xs d) :=
  inferInstanceAs (Decidable (∃ e ∈ xs, _))

/-- Indexes that are not in the way of a declaration. -/
structure Admits (xs : Indexes) (d : Definition) : Prop where
  /-- An index with these keys has the declared uniqueness and the declared filter. -/
  options : ∀ e ∈ xs, Indexes.hasPattern d.pattern e.2 = true → e.2.compatible d = true
  /-- It has no time to live, or the declared one, if one is declared. -/
  lifetime : ∀ e ∈ xs, Indexes.hasPattern d.pattern e.2 = true →
    Document.field e.2 Index.ttl = .null ∨ e.2.expiresAs (Document.field d Index.ttl) = true
  /-- If there is no such index, then no other one has the default name. -/
  name : ¬ Indexed xs d → d.defaultName ∉ Assoc.keys xs

/-! ### Providing -/

/-- The declared index under its default name. -/
def entry (d : Definition) : String × Info :=
  (d.defaultName, Indexes.record d.pattern d.recorded)

/-- An index with the keys of a declaration and without its time to live gets it. -/
def limited (d : Definition) (e : String × Info) : String × Info :=
  if Indexes.hasPattern d.pattern e.2 = true
      ∧ e.2.expiresAs (Document.field d Index.ttl) = false then
    (e.1, Assoc.set e.2 Index.ttl (Document.field d Index.ttl))
  else e

/-- The indexes that provide for a declaration: the time to live is attached to those with its keys,
or the declared index is added. -/
def provide (xs : Indexes) (d : Definition) : Indexes :=
  if Indexed xs d then xs.map (limited d) else xs ++ [entry d]

@[simp] theorem limited_fst (d : Definition) (e : String × Info) : (limited d e).1 = e.1 := by
  rw [limited]
  split <;> rfl

@[simp] theorem hasPattern_limited (ps : List (Value × Value)) (d : Definition)
    (e : String × Info) : Indexes.hasPattern ps (limited d e).2 = Indexes.hasPattern ps e.2 := by
  rw [limited]
  split
  · exact Indexes.hasPattern_set_ttl ps e.2 _
  · rfl

theorem limited_of_not_hasPattern (h : Indexes.hasPattern d.pattern e.2 = false) :
    limited d e = e := by
  simp [limited, h]

theorem limited_of_ttl_eq_null (h : Document.field d Index.ttl = .null) (e : String × Info) :
    limited d e = e := by
  simp [limited, h, Info.expiresAs, Value.isNull]

theorem map_limited_of_ttl_eq_null (h : Document.field d Index.ttl = .null) (xs : Indexes) :
    xs.map (limited d) = xs := by
  rw [List.map_congr_left fun e _ => limited_of_ttl_eq_null h e]
  exact List.map_id xs

theorem map_limited_of_not_indexed (h : ¬ Indexed xs d) : xs.map (limited d) = xs := by
  have hnone : ∀ e ∈ xs, limited d e = e := fun e he =>
    limited_of_not_hasPattern (Bool.eq_false_iff.2 fun hk => h ⟨e, he, hk⟩)
  rw [List.map_congr_left hnone]
  exact List.map_id xs

theorem provide_of_ttl_eq_null (h : Document.field d Index.ttl = .null) (hi : Indexed xs d) :
    provide xs d = xs := by
  rw [provide, if_pos hi, map_limited_of_ttl_eq_null h]

theorem keys_map_limited (d : Definition) (xs : Indexes) :
    Assoc.keys (xs.map (limited d)) = Assoc.keys xs := by
  simp [Assoc.keys, Function.comp_def]

theorem pattern_entry (hd : d.Plain) : Info.pattern (entry d).2 = .ok d.pattern :=
  hd.pattern_record _

/-- The declared index is on the field of the declaration and on no other. -/
theorem hasPattern_entry_iff (hp : d.Plain) (hd : Regular d field) (hd' : Regular d' other) :
    Indexes.hasPattern d'.pattern (entry d).2 = true ↔ other = field := by
  have hself : Indexes.hasPattern (fieldKeys field) (entry d).2 = true := by
    refine hasPattern_fieldKeys_iff.2 ⟨.int 1, ?_, rfl⟩
    rw [pattern_entry hp, hd.pattern]
    rfl
  rw [hd'.pattern]
  exact ⟨fun h => field_eq_of_hasPattern h hself, fun h => h ▸ hself⟩

/-! ### Tidy indexes -/

/-- Readable indexes, of which no two are on the same field. -/
structure Tidy (xs : Indexes) : Prop where
  wellFormed : ∀ e ∈ xs, e.2.WellFormed
  single : ∀ field, ∀ e ∈ xs, ∀ e' ∈ xs, Indexes.hasPattern (fieldKeys field) e.2 = true →
    Indexes.hasPattern (fieldKeys field) e'.2 = true → e = e'

theorem tidy_of_single (hw : ∀ e ∈ xs, e.2.WellFormed) (h : xs.Single) : Tidy xs :=
  ⟨hw, fun _ _ he _ he' hk hk' => h.eq he he' hk hk'⟩

theorem wellFormed_limited (h : e.2.WellFormed) (d : Definition) :
    (limited d e).2.WellFormed := by
  rw [limited]
  split
  · obtain ⟨ps, hp⟩ := h
    have hne : "key" ≠ Index.ttl := by decide
    exact ⟨ps, by simpa only [Info.pattern, Assoc.get?_set_of_ne _ hne] using hp⟩
  · exact h

/-- Tidy indexes remain tidy when a declaration is provided for. -/
theorem Tidy.provide (hx : Tidy xs) (hp : d.Plain) (hd : Regular d field) :
    Tidy (provide xs d) := by
  rw [Schema.provide]
  split
  · refine ⟨List.forall_mem_map.2 fun e he => wellFormed_limited (hx.wellFormed e he) d,
      fun field => List.forall_mem_map.2 fun e he => List.forall_mem_map.2 fun e' he' hk hk' => ?_⟩
    rw [hasPattern_limited] at hk hk'
    rw [hx.single field e he e' he' hk hk']
  · rename_i hn
    have hne : ∀ e ∈ xs, Indexes.hasPattern (fieldKeys field) e.2 ≠ true := fun e he hk =>
      hn ⟨e, he, hd.pattern ▸ hk⟩
    have hentry : ∀ other, Indexes.hasPattern (fieldKeys other) (entry d).2 = true →
        other = field := fun other hk => by
      have hself : Indexes.hasPattern (fieldKeys field) (entry d).2 = true :=
        hd.pattern ▸ (hasPattern_entry_iff hp hd hd).2 rfl
      exact field_eq_of_hasPattern hk hself
    constructor
    · refine List.forall_mem_append.2 ⟨hx.wellFormed, ?_⟩
      simp only [List.mem_singleton, forall_eq]
      exact ⟨_, pattern_entry hp⟩
    · intro other e he e' he' hk hk'
      rcases List.mem_append.1 he with he | he
      · rcases List.mem_append.1 he' with he' | he'
        · exact hx.single other e he e' he' hk hk'
        · obtain rfl := List.mem_singleton.1 he'
          obtain rfl := hentry other hk'
          exact absurd hk (hne e he)
      · obtain rfl := List.mem_singleton.1 he
        obtain rfl := hentry other hk
        rcases List.mem_append.1 he' with he' | he'
        · exact absurd hk' (hne e' he')
        · exact (List.mem_singleton.1 he').symm

/-! ### Several declarations -/

/-- Declarations that do not affect each other: indexes on different fields, or indexes on the same
field, of which the first one has no time to live and otherwise serves as the second one. -/
inductive Precedes (d d' : Definition) : Prop
  | apart {field other : String} (hd : Regular d field) (hd' : Regular d' other)
      (hne : field ≠ other)
  | refined {field : String} (hd : Regular d field) (hd' : Regular d' field)
      (hn : Document.field d Index.ttl = .null)
      (hc : (entry d).2.compatible d' = true)
      (hl : Document.field (entry d).2 Index.ttl = .null)

/-- An index is on one field only, so it cannot have the keys of two such declarations. -/
theorem not_hasPattern_of_ne (hd : Regular d field) (hd' : Regular d' other) (hne : field ≠ other)
    {info : Info} (h : Indexes.hasPattern d'.pattern info = true) :
    Indexes.hasPattern d.pattern info = false := by
  rw [hd.pattern, Bool.eq_false_iff]
  exact fun hk => hne (field_eq_of_hasPattern hk (hd'.pattern ▸ h))

/-- Providing for a declaration does not touch the indexes on another field. -/
theorem mem_provide_iff_of_ne (hp : d.Plain) (hd : Regular d field) (hd' : Regular d' other)
    (hne : field ≠ other) (hk : Indexes.hasPattern d'.pattern e.2 = true) :
    e ∈ provide xs d ↔ e ∈ xs := by
  rw [provide]
  split
  · constructor
    · intro he
      obtain ⟨x, hx, rfl⟩ := List.mem_map.1 he
      rw [hasPattern_limited] at hk
      rw [limited_of_not_hasPattern (not_hasPattern_of_ne hd hd' hne hk)]
      exact hx
    · intro he
      have hl := limited_of_not_hasPattern (not_hasPattern_of_ne hd hd' hne hk)
      exact List.mem_map.2 ⟨e, he, hl⟩
  · constructor
    · intro he
      rcases List.mem_append.1 he with he | he
      · exact he
      · obtain rfl := List.mem_singleton.1 he
        exact absurd ((hasPattern_entry_iff hp hd hd').1 hk).symm hne
    · exact List.mem_append_left _

theorem indexed_provide_iff_of_ne (hp : d.Plain) (hd : Regular d field) (hd' : Regular d' other)
    (hne : field ≠ other) : Indexed (provide xs d) d' ↔ Indexed xs d' := by
  constructor
  · rintro ⟨e, he, hk⟩
    exact ⟨e, (mem_provide_iff_of_ne hp hd hd' hne hk).1 he, hk⟩
  · rintro ⟨e, he, hk⟩
    exact ⟨e, (mem_provide_iff_of_ne hp hd hd' hne hk).2 he, hk⟩

theorem mem_keys_provide_iff_of_ne (hd : Regular d field) (hd' : Regular d' other)
    (hne : field ≠ other) :
    d'.defaultName ∈ Assoc.keys (provide xs d) ↔ d'.defaultName ∈ Assoc.keys xs := by
  rw [provide]
  split
  · rw [keys_map_limited]
  · have hname : d'.defaultName ≠ d.defaultName := by
      rw [hd.defaultName, hd'.defaultName]
      exact fun h => hne (indexName_injective h).symm
    simp [Assoc.keys_append, entry, hname]

theorem admits_provide_iff_of_ne (hp : d.Plain) (hd : Regular d field) (hd' : Regular d' other)
    (hne : field ≠ other) : Admits (provide xs d) d' ↔ Admits xs d' := by
  have hmem : ∀ {e : String × Info}, Indexes.hasPattern d'.pattern e.2 = true →
      (e ∈ provide xs d ↔ e ∈ xs) := mem_provide_iff_of_ne hp hd hd' hne
  have hindexed : Indexed (provide xs d) d' ↔ Indexed xs d' :=
    indexed_provide_iff_of_ne hp hd hd' hne
  have hkeys : d'.defaultName ∈ Assoc.keys (provide xs d) ↔ d'.defaultName ∈ Assoc.keys xs :=
    mem_keys_provide_iff_of_ne hd hd' hne
  constructor
  · intro h
    exact ⟨fun e he hk => h.options e ((hmem hk).2 he) hk,
      fun e he hk => h.lifetime e ((hmem hk).2 he) hk,
      fun hn hm => h.name (hindexed.not.2 hn) (hkeys.2 hm)⟩
  · intro h
    exact ⟨fun e he hk => h.options e ((hmem hk).1 he) hk,
      fun e he hk => h.lifetime e ((hmem hk).1 he) hk,
      fun hn hm => h.name (hindexed.not.1 hn) (hkeys.1 hm)⟩

/-- What is admitted of a declaration does not change when one that precedes it is provided for. -/
theorem admits_provide_iff (hp : d.Plain) (h : Precedes d d') (hadmits : Admits xs d) :
    Admits (provide xs d) d' ↔ Admits xs d' := by
  cases h with
  | apart hd hd' hne => exact admits_provide_iff_of_ne hp hd hd' hne
  | @refined field hd hd' hn hc hl =>
    have hpattern : d'.pattern = d.pattern := hd'.pattern.trans hd.pattern.symm
    by_cases hi : Indexed xs d
    · rw [provide_of_ttl_eq_null hn hi]
    · have hnone : ∀ e ∈ xs, Indexes.hasPattern d'.pattern e.2 ≠ true := fun e he hk =>
        hi ⟨e, he, hpattern ▸ hk⟩
      have hentry : Indexes.hasPattern d'.pattern (entry d).2 = true :=
        (hasPattern_entry_iff hp hd hd').2 rfl
      have hfirst : Admits (xs ++ [entry d]) d' := by
        refine ⟨fun e he hk => ?_, fun e he hk => ?_, fun hn => ?_⟩
        · rcases List.mem_append.1 he with he | he
          · exact absurd hk (hnone e he)
          · exact List.mem_singleton.1 he ▸ hc
        · rcases List.mem_append.1 he with he | he
          · exact absurd hk (hnone e he)
          · exact .inl (List.mem_singleton.1 he ▸ hl)
        · exact absurd ⟨entry d, by simp, hentry⟩ hn
      have hsecond : Admits xs d' := by
        refine ⟨fun e he hk => absurd hk (hnone e he), fun e he hk => absurd hk (hnone e he),
          fun _ => ?_⟩
        rw [Definition.defaultName, hpattern]
        exact hadmits.name hi
      rw [provide, if_neg hi]
      exact ⟨fun _ => hsecond, fun _ => hfirst⟩

/-! ### The declared collections -/

/-- The indexes of the sessions, once those on the time of expiry are taken for one. -/
def sessionPatterns : List Definition := sessionIndexes.take 2 ++ [expiry]

/-- The declared indexes of which the keys are not there yet, in the order of declaration. -/
def added (ds : List Definition) (xs : Indexes) : Indexes :=
  (ds.filter fun d => ¬ Indexed xs d).map entry

/-- What providing for all declared indexes of the credentials makes of those that are there. -/
def withCredentials (xs : Indexes) : Indexes := xs ++ added credentialIndexes xs

/-- The same for the sessions: those on the time of expiry get the time to live. -/
def withSessions (xs : Indexes) : Indexes := xs.map (limited expiry) ++ added sessionPatterns xs

/-- Declarations of indexes on different fields. -/
def Apart (d d' : Definition) : Prop :=
  ∃ field other, Regular d field ∧ Regular d' other ∧ field ≠ other

theorem added_append (ds es : List Definition) (xs : Indexes) :
    added (ds ++ es) xs = added ds xs ++ added es xs := by
  simp [added]

/-- What is added for some declarations does not depend on whether another one is provided for. -/
theorem added_provide {ds : List Definition} (hp : d.Plain) (hds : ∀ d' ∈ ds, Apart d d') :
    added ds (provide xs d) = added ds xs := by
  rw [added, added]
  congr 1
  refine List.filter_congr fun d' hd' => ?_
  obtain ⟨field, other, hd, hother, hne⟩ := hds d' hd'
  simp [indexed_provide_iff_of_ne hp hd hother hne]

/-- Providing for declarations without a time to live is adding the missing indexes. -/
theorem foldl_provide {ds : List Definition}
    (hds : ∀ d ∈ ds, d.Plain ∧ Document.field d Index.ttl = .null) (hpair : ds.Pairwise Apart) :
    ds.foldl provide xs = xs ++ added ds xs := by
  induction ds generalizing xs with
  | nil => simp [added]
  | cons d ds ih =>
    obtain ⟨⟨hp, hn⟩, hrest⟩ := List.forall_mem_cons.1 hds
    obtain ⟨hapart, hpair⟩ := List.pairwise_cons.1 hpair
    rw [List.foldl_cons, ih hrest hpair, added_provide hp hapart]
    by_cases hi : Indexed xs d
    · rw [provide_of_ttl_eq_null hn hi]
      simp [added, hi]
    · rw [provide, if_neg hi]
      simp [added, hi]

/-- Providing for a declaration whose keys no further index has. -/
theorem provide_append {rest : Indexes} (hr : ¬ Indexed rest d) :
    provide (xs ++ rest) d = xs.map (limited d) ++ (rest ++ added [d] xs) := by
  have hiff : Indexed (xs ++ rest) d ↔ Indexed xs d := by
    constructor
    · rintro ⟨e, he, hk⟩
      exact (List.mem_append.1 he).elim (fun he => ⟨e, he, hk⟩) fun he => absurd ⟨e, he, hk⟩ hr
    · rintro ⟨e, he, hk⟩
      exact ⟨e, List.mem_append_left _ he, hk⟩
  by_cases hi : Indexed xs d
  · simp [provide, hiff.2 hi, added, hi, map_limited_of_not_indexed hr]
  · simp [provide, hiff.not.2 hi, added, hi, map_limited_of_not_indexed hi]

/-- Providing for a declaration and then for the same with a time to live is providing for the
second one. -/
theorem provide_provide (hp : d.Plain) (hd : Regular d field) (hd' : Regular d' field)
    (hn : Document.field d Index.ttl = .null) (he : limited d' (entry d) = entry d') :
    provide (provide xs d) d' = provide xs d' := by
  have hpattern : d'.pattern = d.pattern := hd'.pattern.trans hd.pattern.symm
  have hindexed : Indexed xs d' ↔ Indexed xs d := by rw [Indexed, hpattern, Indexed]
  have hentry : Indexes.hasPattern d'.pattern (entry d).2 = true :=
    (hasPattern_entry_iff hp hd hd').2 rfl
  by_cases hi : Indexed xs d
  · rw [provide_of_ttl_eq_null hn hi]
  · have hi' : Indexed (xs ++ [entry d]) d' := ⟨entry d, by simp, hentry⟩
    rw [provide, provide, if_neg hi, if_pos hi', provide, if_neg (hindexed.not.2 hi),
      List.map_append, map_limited_of_not_indexed (hindexed.not.2 hi), List.map_singleton, he]

theorem Apart.precedes (h : Apart d d') : Precedes d d' := by
  obtain ⟨field, other, hd, hd', hne⟩ := h
  exact .apart hd hd' hne

theorem pairwise_apart_credentialIndexes : credentialIndexes.Pairwise Apart := by
  simp only [credentialIndexes, List.pairwise_cons, List.forall_mem_cons]
  exact ⟨⟨⟨"username", "email", ⟨rfl, rfl⟩, ⟨rfl, rfl⟩, by decide⟩,
      ⟨"username", "user_id", ⟨rfl, rfl⟩, ⟨rfl, rfl⟩, by decide⟩, by simp⟩,
    ⟨⟨"email", "user_id", ⟨rfl, rfl⟩, ⟨rfl, rfl⟩, by decide⟩, by simp⟩, by simp, .nil⟩

theorem pairwise_apart_sessionPatterns : sessionPatterns.Pairwise Apart := by
  simp only [sessionPatterns, sessionIndexes, List.take, List.cons_append, List.nil_append,
    List.pairwise_cons, List.forall_mem_cons]
  exact ⟨⟨⟨"token", "user_id", ⟨rfl, rfl⟩, ⟨rfl, rfl⟩, by decide⟩,
      ⟨"token", "expires_at", ⟨rfl, rfl⟩, ⟨rfl, rfl⟩, by decide⟩, by simp⟩,
    ⟨⟨"user_id", "expires_at", ⟨rfl, rfl⟩, ⟨rfl, rfl⟩, by decide⟩, by simp⟩, by simp, .nil⟩

theorem foldl_provide_credentialIndexes (xs : Indexes) :
    credentialIndexes.foldl provide xs = withCredentials xs :=
  foldl_provide (fun d hd => ⟨plain_declared d (List.mem_append_left _ hd),
    ttl_credentialIndexes d hd⟩) pairwise_apart_credentialIndexes

theorem not_indexed_added {ds : List Definition} (hds : ∀ d' ∈ ds, d'.Plain ∧ Apart d' d)
    (xs : Indexes) : ¬ Indexed (added ds xs) d := by
  rintro ⟨e, he, hk⟩
  obtain ⟨d', hd', rfl⟩ := List.mem_map.1 he
  obtain ⟨hp, field, other, hfield, hother, hne⟩ := hds d' (List.mem_of_mem_filter hd')
  exact hne ((hasPattern_entry_iff hp hfield hother).1 hk).symm

/-- The two declarations for the time of expiry come to the same as the second one. -/
theorem provide_plainExpiry_expiry (xs : Indexes) :
    provide (provide xs plainExpiry) expiry = provide xs expiry :=
  provide_provide (plain_declared _ (by simp [sessionIndexes])) ⟨rfl, rfl⟩ ⟨rfl, rfl⟩ rfl rfl

theorem foldl_provide_sessionIndexes (xs : Indexes) :
    sessionIndexes.foldl provide xs = withSessions xs := by
  have hplain : ∀ d ∈ sessionIndexes, d.Plain := fun d hd =>
    plain_declared d (List.mem_append_right credentialIndexes hd)
  obtain ⟨hpair, -, hapart⟩ := List.pairwise_append.1 pairwise_apart_sessionPatterns
  have hfirst : (sessionIndexes.take 2).foldl provide xs
      = xs ++ added (sessionIndexes.take 2) xs := by
    refine foldl_provide (fun d hd => ⟨hplain d (List.mem_of_mem_take hd), ?_⟩) hpair
    exact ttl_sessionIndexes d (List.mem_append_left [plainExpiry] hd)
  have hrest : ¬ Indexed (added (sessionIndexes.take 2) xs) expiry :=
    not_indexed_added (fun d hd => ⟨hplain d (List.mem_of_mem_take hd),
      hapart d hd expiry (List.mem_singleton_self _)⟩) xs
  have hsplit : sessionIndexes = sessionIndexes.take 2 ++ [plainExpiry, expiry] := rfl
  rw [hsplit, List.foldl_append, hfirst, List.foldl_cons, List.foldl_cons, List.foldl_nil,
    provide_plainExpiry_expiry, provide_append hrest, withSessions, sessionPatterns, added_append]

theorem pairwise_precedes_credentialIndexes : credentialIndexes.Pairwise Precedes :=
  pairwise_apart_credentialIndexes.imp Apart.precedes

theorem pairwise_precedes_sessionIndexes : sessionIndexes.Pairwise Precedes := by
  have hsplit : sessionIndexes = sessionIndexes.take 2 ++ [plainExpiry, expiry] := rfl
  obtain ⟨hpair, -, hapart⟩ := List.pairwise_append.1 pairwise_apart_sessionPatterns
  have hrefined : Precedes plainExpiry expiry := .refined ⟨rfl, rfl⟩ ⟨rfl, rfl⟩ rfl rfl rfl
  rw [hsplit, List.pairwise_append]
  refine ⟨hpair.imp Apart.precedes, by simp [hrefined], fun d hd d' hd' => ?_⟩
  have he := hapart d hd expiry (List.mem_singleton_self _)
  obtain ⟨field, other, hfield, hother, hne⟩ := id he
  have hfields : other = "expires_at" := hother.field_eq ⟨rfl, rfl⟩
  simp only [List.mem_cons, List.not_mem_nil, or_false] at hd'
  rcases hd' with rfl | rfl
  · exact .apart hfield ⟨rfl, rfl⟩ (hfields ▸ hne)
  · exact he.precedes

/-! ### Lists of declarations -/

/-- Plain declarations of indexes on fields, of which none affects a later one. -/
structure Noninterfering (ds : List Definition) : Prop where
  plain : ∀ d ∈ ds, d.Plain
  regular : ∀ d ∈ ds, ∃ field, Regular d field
  precedes : ds.Pairwise Precedes

theorem Noninterfering.sublist {ds es : List Definition} (h : Noninterfering es)
    (hs : ds.Sublist es) : Noninterfering ds where
  plain d hd := h.plain d (hs.subset hd)
  regular d hd := h.regular d (hs.subset hd)
  precedes := h.precedes.sublist hs

theorem noninterfering_credentialIndexes : Noninterfering credentialIndexes where
  plain d hd := plain_declared d (List.mem_append_left _ hd)
  regular d hd := regular_declared d (List.mem_append_left _ hd)
  precedes := pairwise_precedes_credentialIndexes

theorem noninterfering_sessionIndexes : Noninterfering sessionIndexes where
  plain d hd := plain_declared d (List.mem_append_right _ hd)
  regular d hd := regular_declared d (List.mem_append_right _ hd)
  precedes := pairwise_precedes_sessionIndexes

/-- Tidy indexes remain tidy when several declarations are provided for. -/
theorem Tidy.foldl_provide {ds : List Definition} (hx : Tidy xs) (hds : Noninterfering ds) :
    Tidy (ds.foldl Schema.provide xs) := by
  induction ds generalizing xs with
  | nil => exact hx
  | cons d ds ih =>
    obtain ⟨field, hd⟩ := hds.regular d List.mem_cons_self
    have hy := hx.provide (hds.plain d List.mem_cons_self) hd
    exact ih hy (hds.sublist (List.sublist_cons_self _ _))

/-- What is admitted does not change when the declarations before are provided for. -/
theorem admits_foldl_provide_iff {ds : List Definition} (hds : Noninterfering (ds ++ [d]))
    (ha : ∀ d' ∈ ds, Admits xs d') : Admits (ds.foldl provide xs) d ↔ Admits xs d := by
  induction ds generalizing xs with
  | nil => rfl
  | cons e ds ih =>
    obtain ⟨hprecedes, -⟩ := List.pairwise_cons.1 hds.precedes
    obtain ⟨he, hrest⟩ := List.forall_mem_cons.1 ha
    have hp : e.Plain := hds.plain e List.mem_cons_self
    have hlater : ∀ d' ∈ ds, Admits (provide xs e) d' := fun d' hd' =>
      (admits_provide_iff hp (hprecedes d' (List.mem_append_left _ hd')) he).2 (hrest d' hd')
    rw [List.foldl_cons, ih (hds.sublist (List.sublist_cons_self _ _)) hlater]
    exact admits_provide_iff hp (hprecedes d (by simp)) he

end Schema

end Provisioner
