import Provisioner.Proofs.Schema.ShadowedIndex
import Provisioner.Proofs.Value.Equivalence

/-!
# Unreadable indexes

An index is described by a document that someone else wrote, and its keys may be missing, or be
anything but pairs. Both searches read the keys of an index only when they come to it, and they stop
at the first index that they look for. So an unreadable index may go unnoticed behind one that fits,
and on one and the same collection the one search may fail where the other one does not.

What a search does is said here without mention of its course: an index is in the way of a search if
it cannot be read and stands before everything that is looked for. A search fails if and only if
some index is in its way, and what it fails with is always the error of the first unreadable index.
That holds of all searches whose test of an index depends on its keys being readable, and of nothing
else.

Declarations have keys as well, and these may be no pairs either. No index can serve such a
declaration, so that its name is always asked for in the end, if the search has not failed before.

## Main definitions

* `Info.HasPairs`, `Serves` — an index has given keys, and is as declared
* `Info.Decides` — a test of indexes that fails at the unreadable ones only
* `Indexes.FirstUnreadable`, `Obstructed` — the error of the first unreadable index, and that some
  unreadable index stands before all that have a property

## Main results

* `Indexes.first?_eq_error_iff` — when a search fails, and with which error
* `Indexes.find?_eq_error_iff`, `missing_eq_error_iff` — the same for keys and for declarations
* `Schema.searches_of_listed` — what both searches come to, wherever some indexes are listed
-/

namespace Provisioner

/-! ### Keys -/

/-- Two pairs have equal fields and equal directions. -/
def Value.EqualPairs (p q : Value × Value) : Prop := p.1.eqv q.1 = true ∧ p.2.eqv q.2 = true

theorem Value.pair_eqv_pair_iff {p q : Value × Value} :
    (pair p.1 p.2).eqv (pair q.1 q.2) = true ↔ EqualPairs p q := by
  simp [pair, eqv, eqvList, EqualPairs]

/-- Only a pair is equal to a pair. -/
theorem Value.exists_eq_pair {first second v : Value} (h : (pair first second).eqv v = true) :
    ∃ p : Value × Value, v = pair p.1 p.2 := by
  obtain ⟨items, rfl, hitems⟩ := tuple_eqv_iff.1 h
  cases eqvList_iff.1 hitems with
  | cons _ hrest =>
    cases hrest with
    | cons _ hnil =>
      cases hnil
      exact ⟨(_, _), rfl⟩

namespace Info

variable {info : Info} {d : Definition} {ps qs : List (Value × Value)} {items : List Value}

/-- Pairs are compared one by one, in their order. -/
theorem samePattern_map_pair_iff :
    samePattern qs (ps.map fun p => .pair p.1 p.2) = true
      ↔ List.Forall₂ Value.EqualPairs qs ps := by
  rw [samePattern, Value.eqvList_iff, List.forall₂_map_left_iff, List.forall₂_map_right_iff]
  simp only [Value.pair_eqv_pair_iff]

/-- Items that are the same as some pairs are pairs themselves. -/
theorem exists_eq_map_pair (h : samePattern qs items = true) :
    ∃ ps : List (Value × Value), items = ps.map fun p => .pair p.1 p.2 := by
  rw [samePattern, Value.eqvList_iff, List.forall₂_map_left_iff] at h
  induction h with
  | nil => exact ⟨[], rfl⟩
  | cons hq _ ih =>
    obtain ⟨p, rfl⟩ := Value.exists_eq_pair hq
    obtain ⟨ps, rfl⟩ := ih
    exact ⟨p :: ps, rfl⟩

/-- The keys of an index are the given pairs, in this order. -/
def HasPairs (info : Info) (ps : List (Value × Value)) : Prop :=
  ∃ qs, info.pattern = .ok qs ∧ List.Forall₂ Value.EqualPairs qs ps

theorem samePattern_of_pattern (hq : info.pattern = .ok qs) :
    samePattern qs (ps.map fun p => .pair p.1 p.2) = true ↔ info.HasPairs ps := by
  rw [samePattern_map_pair_iff, HasPairs, hq]
  exact ⟨fun h => ⟨qs, rfl, h⟩, fun ⟨_, heq, h⟩ => Except.ok.inj heq ▸ h⟩

end Info

/-! ### Declarations -/

namespace Definition

variable {d : Definition} {ps : List (Value × Value)}

/-- The keys of a declaration can be taken for pairs, so that it can be named. -/
def Nameable (d : Definition) : Prop :=
  ∃ keys ps, Definition.keys d = .ok keys ∧ keys.pairs = .ok ps

/-- The keys of a declaration are the given pairs, in this order. -/
def AsksFor (d : Definition) (ps : List (Value × Value)) : Prop :=
  ∃ keys, Definition.keys d = .ok keys ∧ keys.items = .ok (ps.map fun p => .pair p.1 p.2)

theorem AsksFor.nameable (h : d.AsksFor ps) : d.Nameable := by
  obtain ⟨keys, hk, hi⟩ := h
  refine ⟨keys, ps, hk, ?_⟩
  rw [Value.pairs, hi]
  exact Value.unpackAll_map_pair ps

/-- A declaration that can be named has a label, and no other one has. -/
theorem nameable_iff (collection : String) :
    d.Nameable ↔ ∃ l, Indexes.label collection d = .ok l := by
  constructor
  · rintro ⟨keys, ps, hk, hp⟩
    have hname : Index.defaultName keys = .ok (Index.joinName ps) := by
      rw [Index.defaultName, hp]
      rfl
    exact ⟨_, bind_eq_ok_iff.2 ⟨keys, hk, bind_eq_ok_iff.2 ⟨_, hname, rfl⟩⟩⟩
  · rintro ⟨l, h⟩
    obtain ⟨keys, hk, h⟩ := bind_eq_ok_iff.1 h
    obtain ⟨name, hn, -⟩ := bind_eq_ok_iff.1 h
    rw [Index.defaultName] at hn
    cases hp : keys.pairs with
    | error e =>
      rw [hp] at hn
      contradiction
    | ok ps => exact ⟨keys, ps, hk, hp⟩

end Definition

/-- An index is as declared: it has the declared keys and the same uniqueness, its filter is equal
to the declared one, and so is its time to live, if one is declared. -/
structure Info.Serves (info : Info) (d : Definition) : Prop where
  keys : ∃ ps, d.AsksFor ps ∧ info.HasPairs ps
  uniqueness : (Document.field info Index.uniqueness).truth
    = (Document.field d Index.uniqueness).truth
  filter : (Document.field info Index.filter).eqv (Document.field d Index.filter) = true
  lifetime : Document.field d Index.ttl = .null
    ∨ (Document.field info Index.ttl).eqv (Document.field d Index.ttl) = true

namespace Info

variable {info : Info} {d : Definition} {ps : List (Value × Value)} {error : Error}

theorem hasKeys_eq_true_iff : info.hasKeys (Definition.keys d) = .ok true
    ↔ ∃ ps, d.AsksFor ps ∧ info.HasPairs ps := by
  rw [hasKeys, bind_eq_ok_iff]
  constructor
  · rintro ⟨qs, hq, h⟩
    obtain ⟨keys, hk, h⟩ := bind_eq_ok_iff.1 h
    obtain ⟨items, hi, h⟩ := bind_eq_ok_iff.1 h
    have hsame : samePattern qs items = true := Except.ok.inj h
    obtain ⟨ps, rfl⟩ := exists_eq_map_pair hsame
    exact ⟨ps, ⟨keys, hk, hi⟩, (samePattern_of_pattern hq).1 hsame⟩
  · rintro ⟨ps, ⟨keys, hk, hi⟩, hp⟩
    obtain ⟨qs, hq, -⟩ := id hp
    have hsame := (samePattern_of_pattern hq).2 hp
    refine ⟨qs, hq, bind_eq_ok_iff.2 ⟨keys, hk, bind_eq_ok_iff.2 ⟨_, hi, ?_⟩⟩⟩
    rw [hsame]
    rfl

/-- The test of an index against a declaration asks for what is declared. -/
theorem fits_iff_serves : info.fits d = .ok true ↔ info.Serves d := by
  rw [fits_eq_true_iff, hasKeys_eq_true_iff]
  simp only [compatible, expiresAs, Bool.and_eq_true, beq_iff_eq, Bool.or_eq_true,
    Value.isNull_eq_true_iff]
  constructor
  · rintro ⟨hk, ⟨hu, hf⟩, hl⟩
    exact ⟨hk, hu, hf, hl⟩
  · rintro ⟨hk, hu, hf, hl⟩
    exact ⟨hk, ⟨hu, hf⟩, hl⟩

/-! ### Tests of an index -/

/-- A test of indexes that fails at those whose keys cannot be read, with the same error, and at no
other, and that is passed by those that have a property. -/
structure Decides (test : Info → Except Error Bool) (P : Info → Prop) : Prop where
  failing : ∀ info error, test info = .error error ↔ info.pattern = .error error
  passing : ∀ info, test info = .ok true ↔ P info

/-- An index that cannot be read has an error to show for it. -/
theorem not_wellFormed_iff : ¬ info.WellFormed ↔ ∃ error, info.pattern = .error error := by
  rw [WellFormed]
  cases info.pattern <;> simp

theorem Decides.eq_false_iff {test : Info → Except Error Bool} {P : Info → Prop}
    (h : Decides test P) : test info = .ok false ↔ info.WellFormed ∧ ¬ P info := by
  rw [← h.passing info, ← not_not (a := info.WellFormed), not_wellFormed_iff]
  simp only [← h.failing info]
  cases test info with
  | error e => simp
  | ok pass => cases pass <;> simp

/-- Where the keys that are asked for can be gone through, only an unreadable index is an error. -/
theorem hasKeys_eq_error_iff {keys : Value} {items : List Value} (hi : keys.items = .ok items) :
    info.hasKeys (.ok keys) = .error error ↔ info.pattern = .error error := by
  rw [hasKeys]
  cases info.pattern with
  | error e => simp [bind, Except.bind]
  | ok qs => simp [hi, bind, Except.bind, pure, Except.pure]

theorem decides_hasKeys (ps : List (Value × Value)) :
    Decides (hasKeys · (.ok (Value.ofPairs ps))) (HasPairs · ps) where
  failing _ _ := hasKeys_eq_error_iff rfl
  passing info := by
    rw [Indexes.hasKeys_ofPairs_iff, Indexes.hasPattern]
    cases hq : info.pattern with
    | error e => simp [HasPairs, hq]
    | ok qs => exact samePattern_of_pattern hq

theorem decides_fits (hd : d.Nameable) : Decides (fits · d) (Serves · d) where
  failing info error := by
    obtain ⟨keys, ps, hk, hp⟩ := hd
    obtain ⟨items, hi, -⟩ := bind_eq_ok_iff.1 hp
    have hkeys : info.hasKeys (.ok keys) = .error error ↔ info.pattern = .error error :=
      hasKeys_eq_error_iff hi
    rw [← hkeys, fits, hk]
    cases info.hasKeys (.ok keys) <;> simp [bind, Except.bind, pure, Except.pure]
  passing _ := fits_iff_serves

end Info

namespace Indexes

variable {xs : Indexes} {x e : String × Info} {d : Definition} {ds : List Definition}
  {collection : String} {error other : Error} {P Q : Info → Prop}
  {test : Info → Except Error Bool}

/-! ### In the way -/

/-- Some index has the second property, and all that stand before it have the first one. -/
def Reaches (xs : Indexes) (P Q : Info → Prop) : Prop :=
  ∃ before e after, xs = before ++ e :: after ∧ Q e.2 ∧ ∀ x ∈ before, P x.2

/-- The first index that cannot be read is one with this error. -/
def FirstUnreadable (xs : Indexes) (error : Error) : Prop :=
  xs.Reaches Info.WellFormed fun info => info.pattern = .error error

/-- An index that cannot be read stands before all that have a property. -/
def Obstructed (xs : Indexes) (P : Info → Prop) : Prop :=
  xs.Reaches (fun info => ¬ P info) fun info => ¬ info.WellFormed

theorem not_reaches_nil : ¬ Reaches [] P Q := by
  rintro ⟨before, e, after, hxs, -⟩
  simp at hxs

theorem reaches_cons_iff : Reaches (x :: xs) P Q ↔ Q x.2 ∨ P x.2 ∧ Reaches xs P Q := by
  constructor
  · rintro ⟨before, e, after, hxs, he, hb⟩
    cases before with
    | nil =>
      obtain ⟨rfl, rfl⟩ := List.cons.inj hxs
      exact .inl he
    | cons y before =>
      obtain ⟨rfl, rfl⟩ := List.cons.inj hxs
      obtain ⟨hx, hb⟩ := List.forall_mem_cons.1 hb
      exact .inr ⟨hx, before, e, after, rfl, he, hb⟩
  · rintro (hx | ⟨hx, before, e, after, rfl, he, hb⟩)
    · exact ⟨[], x, xs, rfl, hx, by simp⟩
    · exact ⟨x :: before, e, after, rfl, he, List.forall_mem_cons.2 ⟨hx, hb⟩⟩

/-- There is one first unreadable index at most. -/
theorem FirstUnreadable.unique (h : xs.FirstUnreadable error) (h' : xs.FirstUnreadable other) :
    error = other := by
  induction xs with
  | nil => exact absurd h not_reaches_nil
  | cons x xs ih =>
    rcases reaches_cons_iff.1 h with he | ⟨⟨ps, hp⟩, hxs⟩
    · rcases reaches_cons_iff.1 h' with he' | ⟨⟨ps, hp⟩, -⟩
      · exact Except.error.inj (he.symm.trans he')
      · rw [he] at hp
        contradiction
    · rcases reaches_cons_iff.1 h' with he' | ⟨-, hxs'⟩
      · rw [he'] at hp
        contradiction
      · exact ih hxs hxs'

/-- An index that is in the way of something cannot be read, so that there is a first such one. -/
theorem Obstructed.exists_firstUnreadable (h : xs.Obstructed P) :
    ∃ error, xs.FirstUnreadable error := by
  induction xs with
  | nil => exact absurd h not_reaches_nil
  | cons x xs ih =>
    by_cases hx : x.2.WellFormed
    · rcases reaches_cons_iff.1 h with hn | ⟨-, hxs⟩
      · exact absurd hx hn
      · obtain ⟨error, he⟩ := ih hxs
        exact ⟨error, reaches_cons_iff.2 (.inr ⟨hx, he⟩)⟩
    · obtain ⟨error, he⟩ := Info.not_wellFormed_iff.1 hx
      exact ⟨error, reaches_cons_iff.2 (.inl he)⟩

/-! ### Searches -/

/-- The first index that passes a test, unless the test of an earlier one fails. -/
def first? (test : Info → Except Error Bool) : Indexes → Except Error (Option (String × Info))
  | [] => .ok none
  | e :: rest => do
    let pass ← test e.2
    if pass then return some e else first? test rest

theorem find?_eq_first? (keys : Value) (xs : Indexes) :
    find? keys xs = first? (Info.hasKeys · (.ok keys)) xs := by
  induction xs with
  | nil => rfl
  | cons x xs ih => rw [find?, first?, ih]

theorem satisfy_eq_first? (d : Definition) (xs : Indexes) :
    satisfy d xs = Option.isSome <$> first? (Info.fits · d) xs := by
  induction xs with
  | nil => rfl
  | cons x xs ih =>
    rw [satisfy, first?, ih]
    cases Info.fits x.2 d with
    | error e => rfl
    | ok fit => cases fit <;> rfl

/-- A search fails if and only if an unreadable index stands before all that it looks for, and it
fails with the error of the first unreadable index. -/
theorem first?_eq_error_iff (h : Info.Decides test P) :
    first? test xs = .error error ↔ xs.FirstUnreadable error ∧ xs.Obstructed P := by
  induction xs with
  | nil => exact ⟨nofun, fun hxs => absurd hxs.1 not_reaches_nil⟩
  | cons x xs ih =>
    rw [first?, FirstUnreadable, Obstructed, reaches_cons_iff, reaches_cons_iff]
    cases ht : test x.2 with
    | error e =>
      have hx : x.2.pattern = .error e := (h.failing x.2 e).1 ht
      have hn : ¬ x.2.WellFormed := Info.not_wellFormed_iff.2 ⟨e, hx⟩
      simp [hx, hn, bind, Except.bind]
    | ok pass =>
      have hw : x.2.WellFormed := by
        by_contra hn
        obtain ⟨e, he⟩ := Info.not_wellFormed_iff.1 hn
        exact nomatch ((h.failing x.2 e).2 he).symm.trans ht
      have hx : ¬ x.2.pattern = .error error := fun he =>
        Info.not_wellFormed_iff.2 ⟨error, he⟩ hw
      cases pass with
      | true =>
        have hp : P x.2 := (h.passing x.2).1 ht
        exact ⟨nofun, fun ⟨_, ho⟩ => ho.elim (absurd hw) fun ho => absurd hp ho.1⟩
      | false =>
        have hp : ¬ P x.2 := (h.eq_false_iff.1 ht).2
        simp only [hw, hx, hp, false_or, true_and, not_true_eq_false, not_false_eq_true]
        exact ih

/-- What the search for keys fails with. -/
theorem find?_eq_error_iff (ps : List (Value × Value)) :
    find? (Value.ofPairs ps) xs = .error error
      ↔ xs.FirstUnreadable error ∧ xs.Obstructed (Info.HasPairs · ps) := by
  rw [find?_eq_first?]
  exact first?_eq_error_iff (Info.decides_hasKeys ps)

/-- What the search for an index that serves fails with. -/
theorem satisfy_eq_error_iff (hd : d.Nameable) :
    satisfy d xs = .error error ↔ xs.FirstUnreadable error ∧ xs.Obstructed (Info.Serves · d) := by
  rw [← first?_eq_error_iff (Info.decides_fits hd), satisfy_eq_first?]
  cases first? (Info.fits · d) xs <;> simp [Functor.map, Except.map]

/-! ### What is missing -/

/-- The report on a declaration that can be named fails if and only if the search does. -/
theorem absent_eq_error_iff (hd : d.Nameable) :
    absent collection xs d = .error error
      ↔ xs.FirstUnreadable error ∧ xs.Obstructed (Info.Serves · d) := by
  obtain ⟨l, hl⟩ := (Definition.nameable_iff collection).1 hd
  rw [← satisfy_eq_error_iff hd, absent, hl]
  cases satisfy d xs with
  | error e => simp [bind, Except.bind]
  | ok fit => cases fit <;> simp [bind, Except.bind, pure, Except.pure]

/-- No index serves a declaration that cannot be named, so there is no report on it. -/
theorem absent_of_not_nameable (hd : ¬ d.Nameable) :
    ∃ error, absent collection xs d = .error error := by
  cases hs : satisfy d xs with
  | error e => exact ⟨e, by rw [absent, hs]; rfl⟩
  | ok fit =>
    cases fit with
    | true =>
      obtain ⟨e, -, hf⟩ := fit_of_satisfy hs
      obtain ⟨ps, hps, -⟩ := (Info.fits_iff_serves.1 hf).keys
      exact absurd hps.nameable hd
    | false =>
      cases hl : label collection d with
      | error e => exact ⟨e, by rw [absent, hs, hl]; rfl⟩
      | ok l => exact absurd ((Definition.nameable_iff collection).2 ⟨l, hl⟩) hd

/-- There is no report on a declaration that cannot be named, or that an unreadable index hides. -/
theorem absent_fails_iff (collection : String) : (∃ error, absent collection xs d = .error error)
    ↔ ¬ d.Nameable ∨ xs.Obstructed (Info.Serves · d) := by
  by_cases hd : d.Nameable
  · simp only [absent_eq_error_iff hd, hd, not_true_eq_false, false_or]
    constructor
    · rintro ⟨error, -, hobstructed⟩
      exact hobstructed
    · intro hobstructed
      obtain ⟨error, hfirst⟩ := hobstructed.exists_firstUnreadable
      exact ⟨error, hfirst, hobstructed⟩
  · exact ⟨fun _ => .inl hd, fun _ => absent_of_not_nameable hd⟩

theorem missing_cons_eq_error_iff : missing collection xs (d :: ds) = .error error
    ↔ absent collection xs d = .error error
      ∨ (∃ first, absent collection xs d = .ok first)
        ∧ missing collection xs ds = .error error := by
  rw [missing]
  cases absent collection xs d with
  | error e => simp [bind, Except.bind]
  | ok first => cases missing collection xs ds <;> simp [bind, Except.bind, pure, Except.pure]

/-- Verifying fails if and only if one of the declarations cannot be named, or some unreadable index
stands before all indexes that serve it. -/
theorem missing_fails_iff : (∃ error, missing collection xs ds = .error error)
    ↔ ∃ d ∈ ds, ¬ d.Nameable ∨ xs.Obstructed (Info.Serves · d) := by
  induction ds with
  | nil => simp [missing]
  | cons d ds ih =>
    rw [List.exists_mem_cons_iff, ← absent_fails_iff collection, ← ih]
    simp only [missing_cons_eq_error_iff, exists_or, exists_and_left]
    cases absent collection xs d <;> simp

/-- Verifying declarations that can all be named fails if and only if some unreadable index stands
before all indexes that serve one of them, and then with the error of the first unreadable one. -/
theorem missing_eq_error_iff (hds : ∀ d ∈ ds, d.Nameable) :
    missing collection xs ds = .error error
      ↔ xs.FirstUnreadable error ∧ ∃ d ∈ ds, xs.Obstructed (Info.Serves · d) := by
  induction ds with
  | nil => simp [missing]
  | cons d ds ih =>
    obtain ⟨hd, hds⟩ := List.forall_mem_cons.1 hds
    rw [missing_cons_eq_error_iff, ih hds, List.exists_mem_cons_iff]
    cases ha : absent collection xs d with
    | error e =>
      -- The report on this declaration decides, and its error is the only one that there can be.
      obtain ⟨hfirst, hobstructed⟩ := (absent_eq_error_iff hd).1 ha
      constructor
      · rintro (he | ⟨⟨_, h⟩, -⟩)
        · exact ⟨Except.error.inj he ▸ hfirst, .inl hobstructed⟩
        · contradiction
      · rintro ⟨hfirst', -⟩
        exact .inl (congrArg _ (hfirst.unique hfirst'))
    | ok first =>
      have hclear : ∀ error, ¬ (xs.FirstUnreadable error ∧ xs.Obstructed (Info.Serves · d)) := by
        intro error h
        rw [(absent_eq_error_iff hd).2 h] at ha
        contradiction
      constructor
      · rintro (he | ⟨-, hfirst, hrest⟩)
        · contradiction
        · exact ⟨hfirst, .inr hrest⟩
      · rintro ⟨hfirst, hobstructed | hrest⟩
        · exact absurd ⟨hfirst, hobstructed⟩ (hclear error)
        · exact .inr ⟨⟨first, rfl⟩, hfirst, hrest⟩

end Indexes

namespace Schema

open Attempt Procedure

variable {σ : Type} {answer : Handler σ} {xs : Indexes} {a : σ}

/-- **What both searches come to.** Wherever some indexes are listed, readable or not: the search
for an index with given keys finds the first one that has them, if all before it can be read; it
finds nothing if all can be read and none has the keys; and if an unreadable index stands before all
that have them, then it fails with the error of the first unreadable one. Verifying fails, with the
same error, if and only if an unreadable index stands before all indexes that serve some
declaration; only a declaration that cannot be named makes it fail otherwise. In all this keys that
are held as a document count as the pairs of its entries. -/
theorem searches_of_listed (answer : Handler σ) (database collection : String)
    (hl : (answer (.listIndexes database collection) a).1 = .ok xs) :
    (∀ ps : List (Value × Value),
      (∀ e, result answer (findIndex database collection (Value.ofPairs ps)) a = .ok (some e)
        ↔ ∃ before after, xs = before ++ e :: after ∧ e.2.HasPairs ps
          ∧ ∀ x ∈ before, x.2.WellFormed ∧ ¬ x.2.HasPairs ps)
      ∧ (result answer (findIndex database collection (Value.ofPairs ps)) a = .ok none
        ↔ ∀ x ∈ xs, x.2.WellFormed ∧ ¬ x.2.HasPairs ps)
      ∧ ∀ error, result answer (findIndex database collection (Value.ofPairs ps)) a = .error error
        ↔ xs.FirstUnreadable error ∧ xs.Obstructed (Info.HasPairs · ps))
    ∧ (∀ ds : List Definition,
      ((∃ error, result answer (missingIndexes database collection ds) a = .error error)
        ↔ ∃ d ∈ ds, ¬ d.Nameable ∨ xs.Obstructed (Info.Serves · d))
      ∧ ((∀ d ∈ ds, d.Nameable) →
        ∀ error, result answer (missingIndexes database collection ds) a = .error error
          ↔ xs.FirstUnreadable error ∧ ∃ d ∈ ds, xs.Obstructed (Info.Serves · d)))
    ∧ ∀ (info : Info) (entries : List (String × Value)),
      Info.pattern (Assoc.set info "key" (.doc entries))
        = Info.pattern (Assoc.set info "key" (Index.directed entries)) := by
  have hlisted : result answer (call (.listIndexes database collection)) a = .ok xs := hl
  have hfind : ∀ keys, result answer (findIndex database collection keys) a
      = Indexes.find? keys xs := fun keys => by
    rw [findIndex, result_bind_of_ok hlisted, result_require]
  have hmissing : ∀ ds, result answer (missingIndexes database collection ds) a
      = Indexes.missing collection xs ds := fun ds => by
    rw [missingIndexes, result_bind_of_ok hlisted, result_require]
  refine ⟨fun ps => ⟨fun e => ?_, ?_, fun error => ?_⟩, fun ds => ⟨?_, fun hds error => ?_⟩,
    fun info entries => ?_⟩
  · rw [hfind, Indexes.find?_eq_some_iff]
    simp only [(Info.decides_hasKeys ps).eq_false_iff, (Info.decides_hasKeys ps).passing]
  · rw [hfind, Indexes.find?_eq_none_iff]
    simp only [(Info.decides_hasKeys ps).eq_false_iff]
  · rw [hfind]
    exact Indexes.find?_eq_error_iff ps
  · rw [hmissing]
    exact Indexes.missing_fails_iff
  · rw [hmissing]
    exact Indexes.missing_eq_error_iff hds
  · have hpairs := Assoc.get?_set_self info "key" (Index.directed entries)
    exact (Info.pattern_of_doc (Assoc.get?_set_self ..)).trans (Info.pattern_of_pairs hpairs).symm

/-- Two unreadable indexes between two others, of which the first holds its keys as a document. -/
def damagedIndexes : Indexes :=
  [("username_1", [("v", Indexes.version), ("key", .doc [("username", .int 1)])]),
    ("keyless", [("v", Indexes.version)]),
    ("numbered", [("key", .int 5)]),
    ("email_1", Indexes.record (fieldKeys "email") [])]

/-- A server on which the users have these indexes. -/
def damagedServer : Server where
  store := [("appdb", [("users", damagedIndexes)])]
  clients := 0

/-- What stands before the unreadable indexes is found, and what stands behind them is not: for its
keys the search fails with the error of the first one, and so does verifying it, together with
something that is served or without. -/
theorem searches_damagedServer :
    (Server.answer (.listIndexes "appdb" "users") damagedServer).1 = .ok damagedIndexes
      ∧ result Server.answer (missingIndexes "appdb" "users" [ascending "username" []])
          damagedServer = .ok []
      ∧ result Server.answer (findIndex "appdb" "users" (Value.ofPairs (fieldKeys "email")))
          damagedServer = .error (.missingEntry "key")
      ∧ damagedIndexes.FirstUnreadable (.missingEntry "key")
      ∧ damagedIndexes.Obstructed (Info.HasPairs · (fieldKeys "email"))
      ∧ result Server.answer
          (missingIndexes "appdb" "users" [ascending "username" [], ascending "email" []])
          damagedServer = .error (.missingEntry "key")
      ∧ ∃ d ∈ [ascending "username" [], ascending "email" []],
          damagedIndexes.Obstructed (Info.Serves · d) := by
  have hl : (Server.answer (.listIndexes "appdb" "users") damagedServer).1
      = .ok damagedIndexes := rfl
  have hkeys : result Server.answer
      (findIndex "appdb" "users" (Value.ofPairs (fieldKeys "email"))) damagedServer
        = .error (.missingEntry "key") := rfl
  have hboth : result Server.answer
      (missingIndexes "appdb" "users" [ascending "username" [], ascending "email" []])
      damagedServer = .error (.missingEntry "key") := rfl
  have hds : ∀ d ∈ [ascending "username" [], ascending "email" []], d.Nameable := by
    simp only [List.forall_mem_cons]
    exact ⟨⟨_, _, rfl, rfl⟩, ⟨_, _, rfl, rfl⟩, by simp⟩
  obtain ⟨hfind, hmissing, -⟩ := searches_of_listed Server.answer "appdb" "users" hl
  obtain ⟨hfirst, hobstructed⟩ := ((hfind (fieldKeys "email")).2.2 _).1 hkeys
  exact ⟨hl, rfl, hkeys, hfirst, hobstructed, hboth, (((hmissing _).2 hds _).1 hboth).2⟩

end Schema

end Provisioner
