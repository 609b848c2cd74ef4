import Provisioner.Proofs.Schema.SettledSchema
import Provisioner.Proofs.Schema.CallMoment
import Provisioner.Proofs.Schema.PreservedStore

/-!
# The occasions on which something is changed

Applying the schema changes something only where a stage calls for it, and only if the contents are
such, at the very moment of the call, as the stage has found them: a collection is created that does
not exist, an index is asked for in a collection that does, and a time to live is given to an index
that lacks nothing else. The stages are gone through in their order, and each of them makes one such
call at most.

The one thing that a step cannot know is whether the server has done what it has acknowledged. If it
has acknowledged the creation of a collection and not carried it out, then the indexes are asked for
all the same. Nothing else about the server matters, as long as it is careful.

## Main definitions

* `Schema.Occasion` — what is true of the contents at the moment when a stage changes them
* `Schema.InOrder` — acts that follow some of the stages, each on its occasion
* `Schema.Unmade` — the creation of a collection is acknowledged, but does not take place

## Main results

* `Schema.inOrder_ensureIndex`, `inOrder_ensureCollection` — one stage
* `Schema.inOrder_ofEntry` — a collection with its indexes
* `Schema.inOrder_apply` — the whole of the work
-/

namespace Provisioner

open Store

/-- A collection that exists still does after any call. -/
theorem Call.Allows.indexes?_ne_none {c : Call} {outcome : Except Error c.Answer} {s t : Store}
    (h : c.Allows s outcome t) {target collection : String}
    (hx : s.indexes? target collection ≠ none) : t.indexes? target collection ≠ none := by
  have hreached : ∀ {database}, Reached database s t → t.indexes? target collection ≠ none :=
    fun hr => hr.indexes? target collection ▸ hx
  have hput : ∀ {database other : String} {ys : Indexes},
      t = s.putIndexes database other ys → t.indexes? target collection ≠ none := by
    rintro database other ys rfl
    by_cases hd : target = database
    · subst hd
      by_cases hc : collection = other
      · subst hc
        simp
      · rwa [indexes?_putIndexes_of_ne ys hc]
    · rwa [Store.indexes?, collections_putIndexes_of_ne other ys hd]
  cases c with
  | openClient | ping | close | openDatabase => exact h ▸ hx
  | listCollections | listIndexes => exact hreached h.1
  | createCollection | createIndex =>
    rcases h with hr | ⟨_, ht⟩
    · exact hreached hr
    · exact hput ht
  | expireIndex =>
    rcases h with hr | ⟨xs, info, -, -, ht⟩
    · exact hreached hr
    · exact hput ht

namespace Schema

open Attempt Procedure

/-- What is true of the contents at the moment when a stage changes them. A collection is missed if
its creation has been acknowledged without taking place. -/
inductive Occasion (target : String) (missed : String → Prop) (s : Store) : Stage → Call → Prop
  /-- A collection is created that does not exist. -/
  | absent {name : String} (hn : s.indexes? target name = none) :
      Occasion target missed s (.collection name) (.createCollection target name)
  /-- An index is asked for with the declared keys and options, in a collection that exists. -/
  | declared {collection : String} {d : Definition} {keys : Value}
      (hk : Definition.keys d = .ok keys)
      (hx : s.indexes? target collection ≠ none ∨ missed collection) :
      Occasion target missed s (.index collection d)
        (.createIndex target collection keys (Definition.options d))
  /-- The declared time to live is given to an ordinary index of the sessions that expires
  nothing. -/
  | unlimited {xs : Indexes} {name : String} {info : Info}
      (hx : s.indexes? target sessions = some xs) (hg : Assoc.get? xs name = some info)
      (hu : info.Unlimited) : Occasion target missed s (.index sessions expiry)
        (.expireIndex target sessions name (.int sessionLifetime))

variable {σ : Type} {answer : Handler σ} {store : σ → Store} {target collection name : String}
  {missed : String → Prop} {d : Definition} {stage : Stage} {stages first second : List Stage}
  {a b : σ}

/-- Acts that follow some of the stages, in their order, each on its occasion. -/
def InOrder (store : σ → Store) (target : String) (missed : String → Prop) (stages : List Stage)
    (acts : List (Call × σ)) : Prop :=
  ∃ taken : List Stage, taken.Sublist stages
    ∧ List.Forall₂ (fun stage act => Occasion target missed (store act.2) stage act.1) taken acts

/-- The creation of a collection is acknowledged, and yet it does not exist afterwards. -/
def Unmade (answer : Handler σ) (store : σ → Store) (target name : String) (a : σ) : Prop :=
  (answer (.createCollection target name) a).1 = .ok ()
    ∧ (store (answer (.createCollection target name) a).2).indexes? target name = none

/-! ### Stages in a row -/

theorem inOrder_nil : InOrder store target missed stages ([] : List (Call × σ)) :=
  ⟨[], List.nil_sublist _, .nil⟩

theorem inOrder_singleton {c : Call} (h : Occasion target missed (store b) stage c) :
    InOrder store target missed [stage] [(c, b)] :=
  ⟨[stage], List.Sublist.refl _, .cons h .nil⟩

theorem InOrder.append {acts acts' : List (Call × σ)} (h : InOrder store target missed first acts)
    (h' : InOrder store target missed second acts') :
    InOrder store target missed (first ++ second) (acts ++ acts') := by
  obtain ⟨taken, hsub, hacts⟩ := h
  obtain ⟨taken', hsub', hacts'⟩ := h'
  exact ⟨taken ++ taken', hsub.append hsub', List.rel_append hacts hacts'⟩

/-- Acts that follow some stages follow them also if there are others to come. -/
theorem InOrder.append_right {acts : List (Call × σ)}
    (h : InOrder store target missed first acts) (second : List Stage) :
    InOrder store target missed (first ++ second) acts :=
  List.append_nil acts ▸ h.append inOrder_nil

/-- What stands on the right of a relation between lists has its counterpart on the left. -/
theorem exists_counterpart {α β : Type} {R : α → β → Prop} {xs : List α} {ys : List β} {y : β}
    (h : List.Forall₂ R xs ys) (hy : y ∈ ys) : ∃ x ∈ xs, R x y := by
  induction h with
  | nil => exact nomatch hy
  | cons hr _ ih =>
    rcases List.mem_cons.1 hy with rfl | hy
    · exact ⟨_, List.mem_cons_self, hr⟩
    · obtain ⟨x, hx, hr⟩ := ih hy
      exact ⟨x, List.mem_cons_of_mem _ hx, hr⟩

/-- Every act is made on the occasion of some stage. -/
theorem InOrder.exists_occasion {acts : List (Call × σ)} {act : Call × σ}
    (h : InOrder store target missed stages acts) (hm : act ∈ acts) :
    ∃ stage ∈ stages, Occasion target missed (store act.2) stage act.1 := by
  obtain ⟨taken, hsub, hacts⟩ := h
  obtain ⟨stage, hstage, ho⟩ := exists_counterpart hacts hm
  exact ⟨stage, hsub.subset hstage, ho⟩

/-- Two attempts in a row follow the stages of both of them. -/
theorem inOrder_bind {α β : Type} {x : Attempt α} {f : α → Attempt β}
    (hx : InOrder store target missed first (acts answer x a))
    (hf : ∀ v, result answer x a = .ok v →
      InOrder store target missed second (acts answer (f v) (final answer x a))) :
    InOrder store target missed (first ++ second) (acts answer (x >>= f : Attempt β) a) := by
  cases h : result answer x a with
  | ok v =>
    rw [acts_bind_of_ok h]
    exact hx.append (hf v h)
  | error e =>
    rw [acts_bind_of_error h]
    exact hx.append_right second

/-- The first stage, and then the others. -/
theorem inOrder_attempts_cons
    (hstage : InOrder store target missed [stage] (acts answer (stage.attempt target) a))
    (hrest : ∀ deed, result answer (stage.attempt target) a = .ok deed →
      InOrder store target missed stages
        (acts answer (attempts target stages) (final answer (stage.attempt target) a))) :
    InOrder store target missed (stage :: stages)
      (acts answer (attempts target (stage :: stages)) a) := by
  refine inOrder_bind hstage fun deed hok => ?_
  rw [bind_pure_comp, acts_map]
  exact hrest deed hok

/-! ### One stage -/

/-- Only one declaration has a time to live. -/
theorem eq_expiry_of_mem_all (hm : Stage.index collection d ∈ Stage.all)
    (hd : Document.field d Index.ttl ≠ .null) : collection = sessions ∧ d = expiry := by
  have hsplit : sessionIndexes = sessionIndexes.dropLast ++ [expiry] := rfl
  simp only [Stage.all_eq, Stage.ofEntry, List.mem_append, List.mem_cons, List.mem_map,
    reduceCtorEq, false_or, Stage.index.injEq] at hm
  rcases hm with ⟨d, hm, rfl, rfl⟩ | ⟨d, hm, rfl, rfl⟩
  · exact absurd (ttl_credentialIndexes d hm) hd
  · rw [hsplit, List.mem_append, List.mem_singleton] at hm
    exact ⟨rfl, hm.resolve_left fun hm => hd (ttl_sessionIndexes d hm)⟩

section Careful

variable (h : answer.Careful store)

include h

/-- What a decision on the listed indexes asks for is asked for on its occasion. -/
theorem occasion_of_request (hs : (store a).Distinct) (hm : Stage.index collection d ∈ Stage.all)
    (hx : (store a).indexes? target collection ≠ none ∨ missed collection) {keys : Value}
    {xs : Indexes} {found : Option (String × Info)} {c : Call}
    (hseen : Seen answer target collection d a keys xs found)
    (hc : (Decision.of found d).request target collection d keys = some c) :
    Occasion target missed (store (listed answer target collection a)) (.index collection d) c := by
  have hr := reached_listed h target collection a
  cases hd : Decision.of found d with
  | keep => simp [hd, Decision.request] at hc
  | create conflict =>
    rw [hd] at hc
    obtain rfl := Option.some.inj hc
    exact .declared hseen.declared (hr.indexes? target collection ▸ hx)
  | attach index seconds =>
    rw [hd] at hc
    obtain rfl := Option.some.inj hc
    obtain ⟨info, hfirst, hi, rfl⟩ := expirable_of_attach hseen.declared hseen.first hd
    obtain ⟨rfl, rfl⟩ := eq_expiry_of_mem_all hm hi.limited
    have hxs := hseen.eq_indexes h
    subst hxs
    have hsome := indexes?_of_mem_indexes hfirst.mem
    have hg := Assoc.get?_of_mem (hs.indexes? hsome).nodup hfirst.mem
    exact .unlimited ((hr.indexes? target sessions).trans hsome) hg (unlimited_of_expirable hi)

/-- A stage for an index makes one act at most, and makes it on its occasion. -/
theorem inOrder_ensureIndex (hs : (store a).Distinct)
    (hm : Stage.index collection d ∈ Stage.all)
    (hx : (store a).indexes? target collection ≠ none ∨ missed collection) :
    InOrder store target missed [.index collection d]
      (acts answer (ensureIndex target collection d) a) := by
  rcases acts_ensureIndex answer target collection d a with
    he | ⟨keys, xs, found, c, hseen, hc, he⟩
  · rw [he]
    exact inOrder_nil
  · rw [he]
    exact inOrder_singleton (occasion_of_request h hs hm hx hseen hc)

/-- A stage for a collection does so too. -/
theorem inOrder_ensureCollection (target name : String) (a : σ) :
    InOrder store target missed [.collection name]
      (acts answer (ensureCollection target name) a) := by
  rcases acts_ensureCollection answer target name a with he | ⟨names, hl, hn, he⟩
  · rw [he]
    exact inOrder_nil
  · rw [he]
    have hnames := (h.allowed (.listCollections target) a).2 names hl
    rw [hnames] at hn
    refine inOrder_singleton (.absent ?_)
    rw [(reached_listedCollections h target a).indexes?]
    exact Assoc.get?_eq_none_iff.2 hn

/-- After a collection has been brought into being it exists, unless its creation has been
acknowledged without taking place. -/
theorem exists_of_ensureCollection {created : Bool}
    (hmissed : ∀ b, (.createCollection target name, b)
        ∈ acts answer (ensureCollection target name) a → Unmade answer store target name b →
      missed name)
    (hok : result answer (ensureCollection target name) a = .ok created) :
    (store (final answer (ensureCollection target name) a)).indexes? target name ≠ none
      ∨ missed name := by
  obtain ⟨names, hl, hrest⟩ := result_bind_eq_ok_iff.1 hok
  have hnames := (h.allowed (.listCollections target) a).2 names hl
  rw [ensureCollection, final_bind_of_ok hl]
  rw [ensureCollection, acts_bind_of_ok hl] at hmissed
  by_cases hn : name ∈ names
  · simp only [hn, if_true]
    refine .inl ?_
    show (store (listedCollections answer target a)).indexes? target name ≠ none
    rw [(reached_listedCollections h target a).indexes?]
    exact fun hnone => Assoc.get?_eq_none_iff.1 hnone (hnames ▸ hn)
  · simp only [hn, if_false] at hrest hmissed ⊢
    obtain ⟨u, hc, -⟩ := result_bind_eq_ok_iff.1 hrest
    rw [final_bind_of_ok hc]
    -- The creation has been granted, and it remains whether it has taken place.
    by_cases hx : (store (answer (.createCollection target name)
        (listedCollections answer target a)).2).indexes? target name = none
    · refine .inr (hmissed (listedCollections answer target a) ?_ ⟨hc, hx⟩)
      refine List.mem_append_right _ (mem_acts_bind ?_)
      rw [acts_call_of_mutates rfl]
      exact List.mem_singleton_self _
    · exact .inl hx

/-! ### Several stages -/

/-- The indexes of a collection that exists, or that has been missed. -/
theorem inOrder_indexes {ds : List Definition} (hs : (store a).Distinct)
    (hm : ∀ d ∈ ds, Stage.index collection d ∈ Stage.all)
    (hx : (store a).indexes? target collection ≠ none ∨ missed collection) :
    InOrder store target missed (ds.map (.index collection))
      (acts answer (attempts target (ds.map (.index collection))) a) := by
  induction ds generalizing a with
  | nil => exact inOrder_nil
  | cons d ds ih =>
    obtain ⟨hd, hds⟩ := List.forall_mem_cons.1 hm
    refine inOrder_attempts_cons ?_ fun deed _ => ?_
    · rw [Stage.attempt, acts_map]
      exact inOrder_ensureIndex h hs hd hx
    · refine ih (distinct_final h _ hs) hds (hx.imp_left fun hx => ?_)
      exact final_of_stays (P := fun b => (store b).indexes? target collection ≠ none)
        (fun c b hb => (h.allowed c b).indexes?_ne_none hb) _ hx

/-- A collection with its indexes. -/
theorem inOrder_ofEntry {e : String × List Definition} (hs : (store a).Distinct)
    (hm : ∀ stage ∈ Stage.ofEntry e, stage ∈ Stage.all)
    (hmissed : ∀ b, (.createCollection target e.1, b)
        ∈ acts answer (attempts target (Stage.ofEntry e)) a → Unmade answer store target e.1 b →
      missed e.1) :
    InOrder store target missed (Stage.ofEntry e)
      (acts answer (attempts target (Stage.ofEntry e)) a) := by
  refine inOrder_attempts_cons ?_ fun deed hok => ?_
  · rw [Stage.attempt, acts_map]
    exact inOrder_ensureCollection h target e.1 a
  · obtain ⟨created, hcreated, -⟩ := result_map_eq_ok_iff.1 hok
    refine inOrder_indexes h (distinct_final h _ hs)
      (fun d hd => hm _ (List.mem_cons_of_mem _ (List.mem_map_of_mem hd))) ?_
    rw [Stage.attempt, final_map]
    refine exists_of_ensureCollection h (fun b hb => hmissed b ?_) hcreated
    rw [← acts_map Deed.ofCollection] at hb
    exact mem_acts_bind hb

/-- All stages. -/
theorem inOrder_all (hs : (store a).Distinct)
    (hmissed : ∀ name b, (.createCollection target name, b)
        ∈ acts answer (attempts target Stage.all) a → Unmade answer store target name b →
      missed name) :
    InOrder store target missed Stage.all (acts answer (attempts target Stage.all) a) := by
  have hentry : ∀ e ∈ collections, ∀ stage ∈ Stage.ofEntry e, stage ∈ Stage.all :=
    fun e he stage hstage => List.mem_flatMap.2 ⟨e, he, hstage⟩
  rw [Stage.all_eq, attempts_append] at hmissed ⊢
  refine inOrder_bind ?_ fun deeds hok => ?_
  · exact inOrder_ofEntry h hs (hentry _ mem_collections_credentials)
      fun b hb => hmissed _ b (mem_acts_bind hb)
  · rw [bind_pure_comp, acts_map]
    refine inOrder_ofEntry h (distinct_final h _ hs) (hentry _ mem_collections_sessions)
      fun b hb => hmissed _ b ?_
    rw [acts_bind_of_ok hok, bind_pure_comp, acts_map]
    exact List.mem_append_right _ hb

omit h in
/-- After the stages nothing is changed. -/
theorem acts_apply (answer : Handler σ) (target : String) (a : σ) :
    acts answer (apply target) a = acts answer (attempts target Stage.all) a := by
  rw [apply_eq, acts_bind_of_ok (result_log _ _), acts_log, final_log, List.nil_append]
  cases hok : result answer (attempts target Stage.all) a with
  | error e => exact acts_bind_of_error hok
  | ok deeds =>
    rw [acts_bind_of_ok hok, List.append_right_eq_self]
    refine sequential_acts_eq_nil.bind (acts_verify answer target) (fun missing => ?_) _
    split
    · exact fun _ => rfl
    · exact fun _ => rfl

/-- **Acts on their occasions.** Against any careful server, and however the work ends, what it does
to the contents follows the stages in their order, each act on the occasion that its stage calls
for. -/
theorem inOrder_apply (hs : (store a).Distinct)
    (hmissed : ∀ name b, (.createCollection target name, b) ∈ acts answer (apply target) a →
      Unmade answer store target name b → missed name) :
    InOrder store target missed Stage.all (acts answer (apply target) a) := by
  rw [acts_apply] at hmissed ⊢
  exact inOrder_all h hs hmissed

end Careful

end Schema

end Provisioner
