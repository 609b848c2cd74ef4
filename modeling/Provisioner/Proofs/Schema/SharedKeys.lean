import Mathlib.Data.List.Induction
import Mathlib.Data.List.Nodup
import Mathlib.Data.List.Perm.Basic
import Provisioner.Proofs.Value.Equivalence
import Provisioner.Proofs.Schema.TidyIndexes

/-!
# Declarations that share an index

A collection keeps one index per pattern, so declarations with the same keys share one. If they
differ in nothing but the time to live, and agree on that as far as they have one, then it does not
matter which of them the index has been created for. It has the options that they have in common,
and the time to live as soon as one of them has asked for it. What some declarations come to can
thus be said outright: an index for each key pattern, recorded for the first declaration that has
it, with the first time to live that is asked for.

That declarations have the same keys does not mean that their keys are written in the same way: a
direction may be held as a number or as a truth value, for instance. The default name of an index is
made from its keys as they are written, and hence may differ for the same keys. The index has the
name of the first declaration.

## Main definitions

* `Definition.SameKeys`, `name`, `shared` — what declarations may have in common
* `Definition.realized` — the index that is recorded for a declaration, with some time to live
* `Schema.Reconcilable` — declarations of which those with the same keys differ in the time to live
  at most
* `Schema.firsts`, `lifetime`, `realization` — the first declaration of each key pattern, its time
  to live, and the indexes that some declarations come to
* `Schema.UpToOrder` — indexes that go together one by one, in whatever order they stand
* `Schema.EqualInfo`, `EqualIndex` — the entries are equal, and the names as well

## Main results

* `Definition.get?_realized` — the entries of a recorded index
* `Schema.realization_of_found`, `realization_of_attached`, `realization_of_created` — what one more
  declaration adds to the indexes
* `Schema.realization_perm`, `realization_perm_of_named` — the order of the declarations does not
  matter for what they come to
-/

namespace Provisioner

/-! ### What declarations have in common -/

namespace Definition

variable {d : Definition} {option : String} {t : Option Value}

/-- The keys of two declarations are the same pairs. -/
def SameKeys (d d' : Definition) : Prop :=
  (Value.ofPairs d.pattern).eqv (Value.ofPairs d'.pattern) = true

instance (d d' : Definition) : Decidable (SameKeys d d') :=
  inferInstanceAs (Decidable (_ = true))

/-- The name of the declared index: the one that it is given, or else the default name. -/
def name (d : Definition) : String :=
  let given := Document.field (options d) "name"
  if given.isNull then d.defaultName else given.shown

/-- The options of a declaration other than the time to live. -/
def shared (d : Definition) : Document := Assoc.erase (options d) Index.ttl

/-- The index that is recorded for a declaration, with some time to live. -/
def realized (d : Definition) : Option Value → Info
  | none => Indexes.record d.pattern d.recorded
  | some seconds => Assoc.set (Indexes.record d.pattern d.recorded) Index.ttl seconds

/-- Keys that are pairs are read as these pairs. -/
theorem pattern_of_keys {ps : List (Value × Value)}
    (hk : Definition.keys d = .ok (Value.ofPairs ps)) : d.pattern = ps := by
  have hr : Definition.keys d >>= Index.pattern = .ok ps := by
    rw [hk]
    exact Value.pairs_ofPairs ps
  rw [pattern, hr]

/-- How the request for a declaration is read of which the keys are pairs. -/
theorem request_of_keys {ps : List (Value × Value)}
    (hk : Definition.keys d = .ok (Value.ofPairs ps)) :
    Definition.Request d (Value.ofPairs ps) ps d.name where
  declared := hk
  pattern := Value.pairs_ofPairs ps
  named := by
    rw [Indexes.requestedName, name, defaultName, pattern_of_keys hk, Index.defaultName,
      Value.pairs_ofPairs]
    by_cases hn : (Document.field (options d) "name").isNull = true
    · simp only [hn, if_true]
      rfl
    · simp only [hn]
      rfl

theorem Plain.keys_eq (h : d.Plain) : Definition.keys d = .ok (Value.ofPairs d.pattern) := by
  obtain ⟨ps, hk⟩ := h.keys
  rw [pattern_of_keys hk, hk]

/-- How the request for a plain declaration is read. -/
theorem Plain.request (h : d.Plain) :
    Definition.Request d (Value.ofPairs d.pattern) d.pattern d.name :=
  request_of_keys h.keys_eq

/-- Every option but the time to live is shared. -/
theorem field_shared (d : Definition) (hk : option ≠ "keys") (ht : option ≠ Index.ttl) :
    Document.field d.shared option = Document.field d option := by
  rw [← field_options d hk, Document.field, Document.field, shared, Assoc.get?_erase_of_ne ht]

/-! ### Recorded indexes -/

/-- The entries of the index that is recorded for a declaration. -/
theorem get?_record (h : d.Plain) (option : String) :
    Assoc.get? (Indexes.record d.pattern d.recorded) option
      = if option = "v" then some Indexes.version
        else if option = "key" then some (Value.ofPairs d.pattern)
        else if option = "name" then none
        else Assoc.get? (options d) option := by
  rw [h.record]
  by_cases hv : option = "v"
  · simp [hv, Assoc.get?]
  · by_cases hkey : option = "key"
    · simp [hkey, Assoc.get?]
    · rw [Assoc.get?_cons, if_neg (Ne.symm hv), Assoc.get?_cons, if_neg (Ne.symm hkey), if_neg hv,
        if_neg hkey, recorded]
      by_cases hn : option = "name"
      · rw [if_pos hn, hn, Assoc.get?_eq_none_iff]
        simp [Assoc.keys, Assoc.erase]
      · rw [if_neg hn, Assoc.get?_erase_of_ne hn]

/-- The entries of the index that is recorded for a declaration, with some time to live. -/
theorem get?_realized (h : d.Plain) (ht : t = none → Assoc.get? d Index.ttl = none)
    (option : String) :
    Assoc.get? (d.realized t) option
      = if option = "v" then some Indexes.version
        else if option = "key" then some (Value.ofPairs d.pattern)
        else if option = "name" then none
        else if option = Index.ttl then t
        else Assoc.get? d.shared option := by
  by_cases ho : option = Index.ttl
  · subst ho
    cases t with
    | some seconds => exact Assoc.get?_set_self ..
    | none =>
      rw [realized, get?_record h]
      exact (Assoc.get?_erase_of_ne (by decide)).trans (ht rfl)
  · have hsame : Assoc.get? (d.realized t) option
        = Assoc.get? (Indexes.record d.pattern d.recorded) option := by
      cases t with
      | none => rfl
      | some seconds => exact Assoc.get?_set_of_ne seconds ho
    rw [hsame, get?_record h, if_neg ho, shared, Assoc.get?_erase_of_ne ho]

/-- The index that is recorded for a declaration has the time to live that is declared. -/
theorem realized_get? (h : d.Plain) :
    d.realized (Assoc.get? d Index.ttl) = Indexes.record d.pattern d.recorded := by
  cases hg : Assoc.get? d Index.ttl with
  | none => rfl
  | some seconds =>
    refine Assoc.set_of_get? ?_
    rw [get?_record h]
    exact (Assoc.get?_erase_of_ne (by decide)).trans hg

theorem nodupKeys_realized (d : Definition) (t : Option Value) :
    Assoc.NodupKeys (d.realized t) := by
  cases t with
  | none => exact Indexes.nodupKeys_record _ _
  | some seconds => exact (Indexes.nodupKeys_record _ _).set

/-- An index that is recorded for a declaration has the keys of another one if that has the same. -/
theorem hasPattern_realized (h : d.Plain) (t : Option Value) (d' : Definition) :
    Indexes.hasPattern d'.pattern (d.realized t) = true ↔ d.SameKeys d' := by
  have hrecord : Indexes.hasPattern d'.pattern (d.realized t)
      = Indexes.hasPattern d'.pattern (Indexes.record d.pattern d.recorded) := by
    cases t with
    | none => rfl
    | some seconds => exact Indexes.hasPattern_set_ttl _ _ seconds
  rw [hrecord, Indexes.hasPattern, h.pattern_record]
  rfl

/-- Other entries than the time to live are those that are shared. -/
theorem field_realized (h : d.Plain) (ht : t = none → Assoc.get? d Index.ttl = none)
    (ho : option ∉ Info.reserved) (hl : option ≠ Index.ttl) :
    Document.field (d.realized t) option = Document.field d.shared option := by
  simp only [Info.reserved, List.mem_cons, List.not_mem_nil, or_false, not_or] at ho
  obtain ⟨hv, hkey, hn⟩ := ho
  rw [Document.field, get?_realized h ht, if_neg hv, if_neg hkey, if_neg hn, if_neg hl,
    Document.field]

theorem ttl_realized (h : d.Plain) (ht : t = none → Assoc.get? d Index.ttl = none) :
    Document.field (d.realized t) Index.ttl = t.getD .null := by
  rw [Document.field, get?_realized h ht]
  rfl

end Definition

namespace Schema

open Definition

variable {ds es : List Definition} {c c' d d' : Definition} {v : Value}

/-! ### Declarations that can be reconciled -/

/-- Plain declarations of which those with the same keys differ in the time to live at most, and
agree on it as far as they have one. A plain declaration has no entry for the time to live, not even
a null, and no document among the keys repeats a name. -/
structure Reconcilable (ds : List Definition) : Prop where
  plain : ∀ d ∈ ds, d.Plain
  distinct : ∀ d ∈ ds, (Value.ofPairs d.pattern).Distinct
  shared : ∀ d ∈ ds, ∀ d' ∈ ds, d.SameKeys d' →
    (Value.doc d.shared).eqv (.doc d'.shared) = true
  lifetime : ∀ d ∈ ds, ∀ d' ∈ ds, d.SameKeys d' → ∀ v v', Assoc.get? d Index.ttl = some v →
    Assoc.get? d' Index.ttl = some v' → v.eqv v' = true
  limited : ∀ d ∈ ds, Assoc.get? d Index.ttl ≠ some .null

namespace Reconcilable

theorem of_subset (h : Reconcilable ds) (hsub : es ⊆ ds) : Reconcilable es where
  plain d hd := h.plain d (hsub hd)
  distinct d hd := h.distinct d (hsub hd)
  shared d hd d' hd' := h.shared d (hsub hd) d' (hsub hd')
  lifetime d hd d' hd' := h.lifetime d (hsub hd) d' (hsub hd')
  limited d hd := h.limited d (hsub hd)

theorem refl (h : Reconcilable ds) (hd : d ∈ ds) : d.SameKeys d :=
  (h.plain d hd).samePattern (h.plain d hd).keys_eq

theorem symm (h : Reconcilable ds) (hd : d ∈ ds) (hd' : d' ∈ ds) (hk : d.SameKeys d') :
    d'.SameKeys d :=
  (h.distinct d hd).eqv_symm (h.distinct d' hd') hk

theorem trans (h : Reconcilable ds) (hc : c ∈ ds) (hd : d ∈ ds) (hd' : d' ∈ ds)
    (hk : c.SameKeys d) (hk' : d.SameKeys d') : c.SameKeys d' :=
  (h.distinct c hc).eqv_trans (h.distinct d hd) (h.distinct d' hd') hk hk'

/-- A declaration without a time to live has no entry for it. -/
theorem get?_ttl_eq_none (h : Reconcilable ds) (hd : d ∈ ds)
    (hn : Document.field d Index.ttl = .null) : Assoc.get? d Index.ttl = none := by
  cases hg : Assoc.get? d Index.ttl with
  | none => rfl
  | some v =>
    obtain rfl : v = .null := by simpa [Document.field, hg] using hn
    exact absurd hg (h.limited d hd)

end Reconcilable

/-! ### The first declaration of each key pattern -/

/-- The first declaration of each key pattern. -/
def firsts (ds : List Definition) : List Definition :=
  ds.foldl (fun cs d => if ∃ c ∈ cs, c.SameKeys d then cs else cs ++ [d]) []

theorem firsts_concat (ds : List Definition) (d : Definition) :
    firsts (ds ++ [d]) = if ∃ c ∈ firsts ds, c.SameKeys d then firsts ds else firsts ds ++ [d] := by
  rw [firsts, List.foldl_append]
  rfl

theorem firsts_subset (ds : List Definition) : firsts ds ⊆ ds := by
  induction ds using List.reverseRecOn with
  | nil => simp [firsts]
  | append_singleton ds d ih =>
    have hsub : firsts ds ⊆ ds ++ [d] := fun c hc => List.mem_append_left [d] (ih hc)
    rw [firsts_concat]
    split
    · exact hsub
    · exact List.append_subset.2 ⟨hsub, List.subset_append_right ds [d]⟩

theorem pairwise_firsts (ds : List Definition) :
    (firsts ds).Pairwise fun c c' => ¬ c.SameKeys c' := by
  induction ds using List.reverseRecOn with
  | nil => exact .nil
  | append_singleton ds d ih =>
    rw [firsts_concat]
    split
    · exact ih
    · rename_i hnone
      refine List.pairwise_append.2 ⟨ih, List.pairwise_singleton .., fun c hc d' hd' hk => ?_⟩
      obtain rfl := List.mem_singleton.1 hd'
      exact hnone ⟨c, hc, hk⟩

/-- Each key pattern occurs once among them. -/
theorem eq_of_sameKeys (h : Reconcilable ds) (hc : c ∈ firsts ds) (hc' : c' ∈ firsts ds)
    (hk : c.SameKeys c') : c = c' := by
  have hforward : (firsts ds).Pairwise fun x y => x.SameKeys y → x = y :=
    (pairwise_firsts ds).imp fun hn hxy => absurd hxy hn
  have hbackward : (firsts ds).Pairwise fun x y => y.SameKeys x → y = x :=
    (pairwise_firsts ds).imp_of_mem fun hx hy hn hyx =>
      absurd (h.symm (firsts_subset ds hy) (firsts_subset ds hx) hyx) hn
  exact hforward.forall_of_forall_of_flip (fun _ _ _ => rfl) hbackward hc hc' hk

/-- Every declaration has the keys of one of them. -/
theorem exists_first (h : Reconcilable ds) (hd : d ∈ ds) : ∃ c ∈ firsts ds, c.SameKeys d := by
  induction ds using List.reverseRecOn with
  | nil => simp at hd
  | append_singleton ds d' ih =>
    rw [firsts_concat]
    rcases List.mem_append.1 hd with hm | hm
    · obtain ⟨c, hc, hk⟩ := ih (h.of_subset (List.subset_append_left ds [d'])) hm
      split
      · exact ⟨c, hc, hk⟩
      · exact ⟨c, List.mem_append_left _ hc, hk⟩
    · obtain rfl := List.mem_singleton.1 hm
      split
      · assumption
      · exact ⟨d, List.mem_append_right _ hm, h.refl hd⟩

/-! ### The time to live -/

/-- The first time to live that a declaration with given keys has. -/
def lifetime (ds : List Definition) (c : Definition) : Option Value :=
  ds.findSome? fun d => if d.SameKeys c then Assoc.get? d Index.ttl else none

theorem lifetime_concat (ds : List Definition) (d c : Definition) :
    lifetime (ds ++ [d]) c
      = (lifetime ds c).or (if d.SameKeys c then Assoc.get? d Index.ttl else none) := by
  rw [lifetime, List.findSome?_append, List.findSome?_singleton]
  rfl

theorem lifetime_eq_none_iff :
    lifetime ds c = none ↔ ∀ d ∈ ds, d.SameKeys c → Assoc.get? d Index.ttl = none := by
  simp [lifetime, List.findSome?_eq_none_iff]

theorem exists_of_lifetime_eq_some (h : lifetime ds c = some v) :
    ∃ d ∈ ds, d.SameKeys c ∧ Assoc.get? d Index.ttl = some v := by
  obtain ⟨d, hd, hv⟩ := List.exists_of_findSome?_eq_some h
  by_cases hk : d.SameKeys c
  · exact ⟨d, hd, hk, by simpa [hk] using hv⟩
  · simp [hk] at hv

/-! ### What declarations come to -/

/-- The indexes that some declarations come to: one for each key pattern, recorded for the first
declaration that has it, with the first time to live that is asked for. -/
def realization (ds : List Definition) : Indexes :=
  (firsts ds).map fun c => (c.name, c.realized (lifetime ds c))

theorem mem_realization (hc : c ∈ firsts ds) :
    (c.name, c.realized (lifetime ds c)) ∈ realization ds :=
  List.mem_map.2 ⟨c, hc, rfl⟩

/-- The time to live of an index is not affected by a declaration with other keys, nor by one that
does not ask for one where there has been none. -/
theorem lifetime_concat_of_imp
    (h : d.SameKeys c → lifetime ds c = none → Assoc.get? d Index.ttl = none) :
    lifetime (ds ++ [d]) c = lifetime ds c := by
  rw [lifetime_concat]
  cases hc : lifetime ds c with
  | some v => rfl
  | none =>
    by_cases hk : d.SameKeys c
    · rw [if_pos hk, h hk hc]
      rfl
    · rw [if_neg hk]
      rfl

section Concat

variable (h : Reconcilable (ds ++ [d]))

include h

/-- A declaration that is found, and asks for no time to live where there is none, adds nothing. -/
theorem realization_of_found (hc : c ∈ firsts ds) (hk : c.SameKeys d)
    (ht : lifetime ds c = none → Assoc.get? d Index.ttl = none) :
    realization (ds ++ [d]) = realization ds := by
  have hmem : ∀ x ∈ ds, x ∈ ds ++ [d] := fun x => List.mem_append_left [d]
  have hd : d ∈ ds ++ [d] := List.mem_concat_self
  have hcm := hmem c (firsts_subset ds hc)
  rw [realization, firsts_concat, if_pos ⟨c, hc, hk⟩, realization]
  refine List.map_congr_left fun c' hc' => ?_
  have hcm' := hmem c' (firsts_subset ds hc')
  rw [lifetime_concat_of_imp fun hk' hnone => ?_]
  -- What has the keys of the one has those of the other.
  refine ht (lifetime_eq_none_iff.2 fun x hx hxc => lifetime_eq_none_iff.1 hnone x hx ?_)
  exact h.trans (hmem x hx) hd hcm' (h.trans (hmem x hx) hcm hd hxc hk) hk'

/-- Where an index has no time to live, it gets the one that is asked for. -/
theorem realization_of_attached (hn : Assoc.NodupKeys (realization ds)) (hc : c ∈ firsts ds)
    (hk : c.SameKeys d) (hnone : lifetime ds c = none) (hv : Assoc.get? d Index.ttl = some v) :
    realization (ds ++ [d])
      = Assoc.set (realization ds) c.name (Assoc.set (c.realized none) Index.ttl v) := by
  have hmem : ∀ x ∈ firsts ds, x ∈ ds ++ [d] := fun x hx =>
    List.mem_append_left _ (firsts_subset ds hx)
  have hds : Reconcilable ds := h.of_subset (List.subset_append_left ds [d])
  have hd : d ∈ ds ++ [d] := List.mem_concat_self
  have hkeys : c.name ∈ Assoc.keys (realization ds) :=
    Assoc.mem_keys_of_mem (mem_realization hc)
  rw [Assoc.set_eq_map hn hkeys, realization, firsts_concat, if_pos ⟨c, hc, hk⟩, realization,
    List.map_map]
  refine List.map_congr_left fun c' hc' => ?_
  by_cases hname : c'.name = c.name
  · have hnodup : ((firsts ds).map Definition.name).Nodup := by
      simpa [Assoc.NodupKeys, Assoc.keys, realization, Function.comp_def] using hn
    obtain rfl := List.inj_on_of_nodup_map hnodup hc' hc hname
    rw [lifetime_concat, hnone, if_pos (h.symm (hmem c' hc') hd hk), hv]
    simp [realized]
  · have hother : ¬ d.SameKeys c' := fun hk' => by
      have hsame := h.trans (hmem c hc) hd (hmem c' hc') hk hk'
      exact hname (congrArg Definition.name (eq_of_sameKeys hds hc hc' hsame)).symm
    rw [lifetime_concat_of_imp fun hk' => absurd hk' hother]
    simp [hname]

/-- Where no declaration has had its keys, the declared index is added. -/
theorem realization_of_created (hn : ∀ c ∈ firsts ds, ¬ c.SameKeys d) :
    realization (ds ++ [d])
      = realization ds ++ [(d.name, Indexes.record d.pattern d.recorded)] := by
  have hmem : ∀ x ∈ ds, x ∈ ds ++ [d] := fun x => List.mem_append_left [d]
  have hd : d ∈ ds ++ [d] := List.mem_concat_self
  have hfirst : ¬ ∃ c ∈ firsts ds, c.SameKeys d := fun ⟨c, hc, hk⟩ => hn c hc hk
  have hnone : lifetime ds d = none := by
    refine lifetime_eq_none_iff.2 fun x hx hk => ?_
    obtain ⟨c, hc, hkc⟩ := exists_first (h.of_subset (List.subset_append_left ds [d])) hx
    exact absurd (h.trans (hmem c (firsts_subset ds hc)) (hmem x hx) hd hkc hk) (hn c hc)
  rw [realization, firsts_concat, if_neg hfirst, List.map_append, realization, List.map_singleton]
  congr 1
  · refine List.map_congr_left fun c hc => ?_
    rw [lifetime_concat_of_imp fun hk => ?_]
    exact absurd (h.symm hd (hmem c (firsts_subset ds hc)) hk) (hn c hc)
  · rw [lifetime_concat, hnone, if_pos (h.refl hd), Option.none_or, realized_get? (h.plain d hd)]

end Concat

/-! ### The order of the declarations -/

/-- Indexes that are related one by one, in whatever order they stand. -/
def UpToOrder (R : String × Info → String × Info → Prop) (xs ys : Indexes) : Prop :=
  ∃ zs, List.Forall₂ R xs zs ∧ zs.Perm ys

/-- Indexes with equal entries, whatever their names. -/
def EqualInfo (e e' : String × Info) : Prop := (Value.doc e.2).eqv (.doc e'.2) = true

/-- Indexes with the same name and equal entries. -/
def EqualIndex (e e' : String × Info) : Prop := e.1 = e'.1 ∧ EqualInfo e e'

/-- Of two lists, each of which holds one item of every kind that occurs in the other one, the items
of a kind can be put side by side. -/
theorem exists_matching {α : Type} {R : α → α → Prop} (symm : ∀ {a b}, R a b → R b a)
    (trans : ∀ {a b c}, R a b → R b c → R a c) {as bs : List α}
    (ha : as.Pairwise fun a a' => ¬ R a a') (hb : bs.Pairwise fun b b' => ¬ R b b')
    (hab : ∀ a ∈ as, ∃ b ∈ bs, R a b) (hba : ∀ b ∈ bs, ∃ a ∈ as, R b a) :
    ∃ zs, List.Forall₂ R as zs ∧ zs.Perm bs := by
  induction as generalizing bs with
  | nil =>
    have hbs : bs = [] := List.eq_nil_iff_forall_not_mem.2 fun b hb => by simpa using hba b hb
    exact ⟨[], .nil, hbs ▸ .nil⟩
  | cons a as ih =>
    obtain ⟨hfirst, has⟩ := List.pairwise_cons.1 ha
    obtain ⟨⟨b, hb', hr⟩, hrest⟩ := List.forall_mem_cons.1 hab
    obtain ⟨ls, rs, rfl⟩ := List.append_of_mem hb'
    have hperm : (b :: (ls ++ rs)).Perm (ls ++ b :: rs) := List.perm_middle.symm
    obtain ⟨hbfirst, hbs⟩ := List.pairwise_cons.1
      ((hperm.pairwise_iff fun hn hxy => hn (symm hxy)).2 hb)
    have hforth : ∀ x ∈ as, ∃ y ∈ ls ++ rs, R x y := by
      intro x hx
      obtain ⟨y, hy, hxy⟩ := hrest x hx
      rcases List.mem_cons.1 (hperm.symm.subset hy) with rfl | hy
      · exact absurd (trans hr (symm hxy)) (hfirst x hx)
      · exact ⟨y, hy, hxy⟩
    have hback : ∀ y ∈ ls ++ rs, ∃ x ∈ as, R y x := by
      intro y hy
      obtain ⟨x, hx, hyx⟩ := hba y (hperm.subset (List.mem_cons_of_mem _ hy))
      rcases List.mem_cons.1 hx with rfl | hx
      · exact absurd (trans (symm hr) (symm hyx)) (hbfirst y hy)
      · exact ⟨x, hx, hyx⟩
    obtain ⟨zs, hzs, hp⟩ := ih has hbs hforth hback
    exact ⟨b :: zs, .cons hr hzs, (hp.cons b).trans hperm⟩

/-- Two declarations with the same keys get the same time to live, whatever the order. -/
theorem rel_lifetime (h : Reconcilable ds) (hp : ds.Perm es) (hc : c ∈ ds) (hc' : c' ∈ ds)
    (hk : c.SameKeys c') :
    Option.Rel (fun v w => Value.eqv v w = true) (lifetime ds c) (lifetime es c') := by
  cases hl : lifetime ds c with
  | none =>
    have hl' : lifetime es c' = none := lifetime_eq_none_iff.2 fun x hx hxc =>
      lifetime_eq_none_iff.1 hl x (hp.symm.subset hx)
        (h.trans (hp.symm.subset hx) hc' hc hxc (h.symm hc hc' hk))
    rw [hl']
    exact .none
  | some v =>
    obtain ⟨x, hx, hxc, hv⟩ := exists_of_lifetime_eq_some hl
    have hxc' := h.trans hx hc hc' hxc hk
    cases hl' : lifetime es c' with
    | none => exact nomatch (lifetime_eq_none_iff.1 hl' x (hp.subset hx) hxc').symm.trans hv
    | some v' =>
      obtain ⟨x', hx', hxc'', hv'⟩ := exists_of_lifetime_eq_some hl'
      have hx' := hp.symm.subset hx'
      have hxx' := h.trans hx hc' hx' hxc' (h.symm hx' hc' hxc'')
      exact .some (h.lifetime x hx x' hx' hxx' v v' hv hv')

/-- What has no time to live has not been asked for one. -/
theorem get?_ttl_of_lifetime (h : Reconcilable ds) (hc : c ∈ ds) (hn : lifetime ds c = none) :
    Assoc.get? c Index.ttl = none :=
  lifetime_eq_none_iff.1 hn c hc (h.refl hc)

/-- Whichever of the declarations with the same keys an index is recorded for, it is the same. -/
theorem realized_eqv (h : Reconcilable ds) (hp : ds.Perm es) (hc : c ∈ ds) (hc' : c' ∈ ds)
    (hk : c.SameKeys c') :
    (Value.doc (c.realized (lifetime ds c))).eqv (.doc (c'.realized (lifetime es c'))) = true := by
  have hes : Reconcilable es := h.of_subset hp.symm.subset
  have hx : Assoc.NodupKeys c.shared := (h.plain c hc).nodup.erase.erase
  have hy : Assoc.NodupKeys c'.shared := (h.plain c' hc').nodup.erase.erase
  refine (Value.doc_eqv_iff (nodupKeys_realized c _) (nodupKeys_realized c' _)).2 fun option => ?_
  rw [Value.AgreeAt, get?_realized (h.plain c hc) (get?_ttl_of_lifetime h hc),
    get?_realized (h.plain c' hc') (get?_ttl_of_lifetime hes (hp.subset hc'))]
  split
  · exact .some rfl
  split
  · exact .some hk
  split
  · exact .none
  split
  · exact rel_lifetime h hp hc hc' hk
  · exact (Value.doc_eqv_iff hx hy).1 (h.shared c hc c' hc' hk) option

/-- The first declarations of each key pattern go together one by one, whatever the order. -/
theorem firsts_matching (h : Reconcilable ds) (hp : ds.Perm es) :
    ∃ cs, List.Forall₂ (fun c c' => c ∈ ds ∧ c' ∈ ds ∧ c.SameKeys c') (firsts ds) cs
      ∧ cs.Perm (firsts es) := by
  have hes : Reconcilable es := h.of_subset hp.symm.subset
  have hmem : firsts es ⊆ ds := fun c hc => hp.symm.subset (firsts_subset es hc)
  refine exists_matching ?_ ?_ ?_ ?_ ?_ ?_
  · rintro c c' ⟨hc, hc', hk⟩
    exact ⟨hc', hc, h.symm hc hc' hk⟩
  · rintro c d c' ⟨hc, hd, hk⟩ ⟨-, hc', hk'⟩
    exact ⟨hc, hc', h.trans hc hd hc' hk hk'⟩
  · exact (pairwise_firsts ds).imp fun hn hk => hn hk.2.2
  · exact (pairwise_firsts es).imp fun hn hk => hn hk.2.2
  · intro c hc
    have hc := firsts_subset ds hc
    obtain ⟨c', hc', hk⟩ := exists_first hes (hp.subset hc)
    exact ⟨c', hc', hc, hmem hc', h.symm (hmem hc') hc hk⟩
  · intro c hc
    obtain ⟨c', hc', hk⟩ := exists_first h (hmem hc)
    have hc'' := firsts_subset ds hc'
    exact ⟨c', hc', hmem hc, hc'', h.symm hc'' (hmem hc) hk⟩

theorem UpToOrder.length_eq {R : String × Info → String × Info → Prop} {xs ys : Indexes}
    (h : UpToOrder R xs ys) : xs.length = ys.length := by
  obtain ⟨zs, hr, hp⟩ := h
  exact hr.length_eq.trans hp.length_eq

/-- Indexes that go together by their names have the same names. -/
theorem UpToOrder.perm_keys {xs ys : Indexes} (h : UpToOrder EqualIndex xs ys) :
    (Assoc.keys xs).Perm (Assoc.keys ys) := by
  obtain ⟨zs, hr, hp⟩ := h
  have hkeys : Assoc.keys xs = Assoc.keys zs :=
    List.forall₂_eq_eq_eq ▸ List.forall₂_map_left_iff.2
      (List.forall₂_map_right_iff.2 (hr.imp fun _ _ he => he.1))
  exact hkeys ▸ hp.map _

/-- Declarations come to indexes that go together if those of declarations with the same keys do. -/
theorem upToOrder_realization {R : String × Info → String × Info → Prop} (h : Reconcilable ds)
    (hp : ds.Perm es)
    (hr : ∀ c ∈ ds, ∀ c' ∈ ds, c.SameKeys c' →
      R (c.name, c.realized (lifetime ds c)) (c'.name, c'.realized (lifetime es c'))) :
    UpToOrder R (realization ds) (realization es) := by
  obtain ⟨cs, hmatch, hperm⟩ := firsts_matching h hp
  refine ⟨cs.map fun c => (c.name, c.realized (lifetime es c)), ?_, hperm.map _⟩
  rw [realization, List.forall₂_map_left_iff, List.forall₂_map_right_iff]
  exact hmatch.imp fun c c' ⟨hc, hc', hk⟩ => hr c hc c' hc' hk

/-- The order of the declarations does not matter for the entries of the indexes, -/
theorem realization_perm (h : Reconcilable ds) (hp : ds.Perm es) :
    UpToOrder EqualInfo (realization ds) (realization es) :=
  upToOrder_realization h hp fun _ hc _ hc' hk => realized_eqv h hp hc hc' hk

/-- nor for the names, where the same keys have the same name. -/
theorem realization_perm_of_named (h : Reconcilable ds) (hp : ds.Perm es)
    (hn : ∀ c ∈ ds, ∀ c' ∈ ds, c.SameKeys c' → c.name = c'.name) :
    UpToOrder EqualIndex (realization ds) (realization es) :=
  upToOrder_realization h hp fun c hc c' hc' hk =>
    ⟨hn c hc c' hc' hk, realized_eqv h hp hc hc' hk⟩

/-- There are as many key patterns, whatever the order. -/
theorem length_firsts_perm (h : Reconcilable ds) (hp : ds.Perm es) :
    (firsts ds).length = (firsts es).length := by
  simpa [realization] using (realization_perm h hp).length_eq

end Schema

end Provisioner
