import Provisioner.Proofs.Schema.IndexStep

/-!
# Growth

Nearly everything that applying the schema does to a store is growth: one of the two declared
collections of one database is created, or gets further indexes behind those that it has. All
other databases and collections are as they were, and nothing changes its place. Growth composes,
so it has to be shown of single steps only.

The exception is the time to live that an index may get. It is only ever given to one index, which
is why it is kept apart from growth: a step that gives it stands between two periods of growth.

## Main definitions

* `Schema.Grown` — nothing but growth in the declared collections of a database
* `Schema.Growth` — the same between two states of a server, names remaining distinct
* `Schema.Expired`, `Altered` — one time to live given, before and after which there is growth

## Main results

* `Schema.Grown.trans`, `grown_putIndexes` — growth composes; appending is growth
* `Schema.growth_ensureCollection`, `growth_ensureIndexes`, `growth_missingIn` — the steps that do
  nothing but let grow
-/

namespace Provisioner

namespace Schema

open Store Attempt Procedure

/-- In one database the declared collections may have been created or have got further indexes,
and everything else is as it was and where it was. -/
structure Grown (target : String) (s t : Store) : Prop where
  elsewhere : Assoc.without t [target] = Assoc.without s [target]
  databases : Assoc.keys s <+: Assoc.keys t
  others : Assoc.without (t.collections target) declaredNames
    = Assoc.without (s.collections target) declaredNames
  collections : Assoc.keys (s.collections target) <+: Assoc.keys (t.collections target)
  indexes : ∀ collection xs, s.indexes? target collection = some xs →
    ∃ added, t.indexes? target collection = some (xs ++ added)

variable {target collection : String} {s t u : Store}

theorem Grown.refl (target : String) (s : Store) : Grown target s s where
  elsewhere := rfl
  databases := List.prefix_rfl
  others := rfl
  collections := List.prefix_rfl
  indexes _ xs h := ⟨[], by rw [List.append_nil]; exact h⟩

theorem Grown.trans (h : Grown target s t) (h' : Grown target t u) : Grown target s u where
  elsewhere := h'.elsewhere.trans h.elsewhere
  databases := h.databases.trans h'.databases
  others := h'.others.trans h.others
  collections := h.collections.trans h'.collections
  indexes collection xs hx := by
    obtain ⟨added, ha⟩ := h.indexes collection xs hx
    obtain ⟨added', ha'⟩ := h'.indexes collection _ ha
    exact ⟨added ++ added', by rw [ha', List.append_assoc]⟩

/-- Work within the declared collections is growth if it only appends to their indexes. -/
theorem grown_of_within (h : Within target declaredNames s t)
    (hx : ∀ collection xs, s.indexes? target collection = some xs →
      ∃ added, t.indexes? target collection = some (xs ++ added)) : Grown target s t :=
  ⟨h.elsewhere, h.databases, h.others, h.collections, hx⟩

/-- Turning to the database is growth. -/
theorem grown_of_reached (h : Reached target s t) : Grown target s t :=
  grown_of_within (within_of_reached h) fun collection xs hx =>
    ⟨[], by rw [h.indexes?, List.append_nil]; exact hx⟩

/-- Writing a declared collection moves and touches nothing else. -/
theorem grown_putIndexes {ys : Indexes} (hc : collection ∈ declaredNames)
    (hy : ∀ xs, s.indexes? target collection = some xs → ∃ added, ys = xs ++ added) :
    Grown target s (s.putIndexes target collection ys) := by
  refine grown_of_within (within_putIndexes hc s ys) fun other xs hx => ?_
  by_cases ho : other = collection
  · subst ho
    obtain ⟨added, rfl⟩ := hy xs hx
    exact ⟨added, indexes?_putIndexes_self s target other _⟩
  · exact ⟨[], by rw [indexes?_putIndexes_of_ne ys ho, List.append_nil]; exact hx⟩

theorem grown_of_collectionStep (hc : collection ∈ declaredNames)
    (h : CollectionStep target collection s t) : Grown target s t := by
  cases h with
  | same hr => exact grown_of_reached hr
  | created hn => exact grown_putIndexes hc fun xs hx => nomatch hn.symm.trans hx

/-! ### One time to live -/

/-- One index of the sessions has got the declared time to live. -/
inductive Expired (target : String) (s : Store) : Store → Prop
  | intro {xs : Indexes} {name : String} {info : Info}
      (hx : s.indexes? target sessions = some xs) (hg : Assoc.get? xs name = some info)
      (hi : info.Expirable expiry) :
      Expired target s (s.putIndexes target sessions (expired xs name info expiry))

/-- Growth, in the course of which one time to live may have been given. -/
def Altered (target : String) (s t : Store) : Prop :=
  Grown target s t ∨ ∃ u v, Grown target s u ∧ Expired target u v ∧ Grown target v t

theorem Grown.altered (h : Grown target s t) (h' : Altered target t u) : Altered target s u := by
  rcases h' with hg | ⟨v, w, hv, he, hw⟩
  · exact .inl (h.trans hg)
  · exact .inr ⟨v, w, h.trans hv, he, hw⟩

theorem Altered.grown (h : Altered target s t) (h' : Grown target t u) : Altered target s u := by
  rcases h with hg | ⟨v, w, hv, he, hw⟩
  · exact .inl (hg.trans h')
  · exact .inr ⟨v, w, hv, he, hw.trans h'⟩

/-- A step of a declaration without a time to live gives none. -/
theorem grown_of_indexStep {d : Definition} (hc : collection ∈ declaredNames)
    (hd : Document.field d Index.ttl = .null) (h : IndexStep target collection d s t) :
    Grown target s t := by
  cases h with
  | same hr => exact grown_of_reached hr
  | grown added =>
    refine grown_putIndexes hc fun xs hx => ⟨added, ?_⟩
    rw [indexesOrFresh_of_indexes? hx]
  | expired hx hg hi hf => exact absurd hd hi.limited

theorem altered_of_indexStep (h : IndexStep target sessions expiry s t) : Altered target s t := by
  have hc : sessions ∈ declaredNames := by simp [declaredNames]
  cases h with
  | same hr => exact .inl (grown_of_reached hr)
  | grown added =>
    refine .inl (grown_putIndexes hc fun xs hx => ⟨added, ?_⟩)
    rw [indexesOrFresh_of_indexes? hx]
  | expired hx hg hi hf => exact .inr ⟨s, _, .refl target s, .intro hx hg hi, .refl target _⟩

/-! ### Between two states of a server -/

variable {σ : Type} {answer : Handler σ} {store : σ → Store} {a b c : σ}

/-- From one state to another names remain distinct, and there is nothing but growth. -/
abbrev Growth (store : σ → Store) (target : String) : σ → σ → Prop := Along store (Grown target)

/-- From one state to another names remain distinct, and there is growth with perhaps one time to
live. -/
abbrev Alteration (store : σ → Store) (target : String) : σ → σ → Prop :=
  Along store (Altered target)

theorem Growth.alteration (h : Growth store target a b) (h' : Alteration store target b c) :
    Alteration store target a c := fun hs =>
  have ⟨hb, hab⟩ := h hs
  have ⟨hc, hbc⟩ := h' hb
  ⟨hc, hab.altered hbc⟩

theorem Alteration.growth (h : Alteration store target a b) (h' : Growth store target b c) :
    Alteration store target a c := fun hs =>
  have ⟨hb, hab⟩ := h hs
  have ⟨hc, hbc⟩ := h' hb
  ⟨hc, hab.grown hbc⟩

theorem Growth.toAlteration (h : Growth store target a b) : Alteration store target a b :=
  fun hs => ⟨(h hs).1, .inl (h hs).2⟩

/-- Declarations without a time to live make a collection grow. -/
theorem growth_ensureIndexes (h : answer.Careful store) (hc : collection ∈ declaredNames)
    {ds : List Definition} (hd : ∀ d ∈ ds, Document.field d Index.ttl = .null) (tally : Tally)
    (a : σ) : Growth store target a (final answer (ensureIndexes target collection ds tally) a) :=
  along_ensureIndexes (Grown.refl target) Grown.trans h
    (fun d hm => fun _ hstep => grown_of_indexStep hc (hd d hm) hstep) tally a

theorem growth_ensureCollection (h : answer.Careful store) (hc : collection ∈ declaredNames)
    (a : σ) : Growth store target a (final answer (ensureCollection target collection) a) :=
  along_ensureCollection h (grown_of_collectionStep hc) a

theorem growth_missingIn (h : answer.Careful store) (entries : List (String × List Definition))
    (a : σ) : Growth store target a (final answer (missingIn target entries) a) :=
  along_missingIn (Grown.refl target) Grown.trans h grown_of_reached entries a

end Schema

end Provisioner
