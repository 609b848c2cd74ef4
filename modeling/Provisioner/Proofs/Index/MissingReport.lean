import Provisioner.Proofs.Schema.ShadowedIndex

/-!
# What is reported missing

Verifying asks of every declaration whether some index serves it, and reports those that none does.
Ensuring goes by the first index with the declared keys, so that it depends on the order in which
the indexes are listed; verifying looks at all of them, and must not. Where the keys of all indexes
can be read, what it reports is the list of declarations without those that are served: their order
and their repetitions are those of the declarations, and neither the order nor the names of the
indexes play a part.

More indexes then serve more declarations, and so does an index that gets a time to live where it
had none: it goes on serving what does not ask for one. In both cases some entries may vanish from
the report, and those that remain stay in their order. That is why a report is compared with another
one as a sublist.

## Main definitions

* `Definition.Paired` — the keys of a declaration are pairs
* `Indexes.unserved` — the declarations that no index serves
* `Schema.ReportedMissing` — what is reported wherever some indexes are listed

## Main results

* `Indexes.missing_eq_unserved` — what is missing is what is not served, in its order
* `Schema.ReportedMissing.append` — a report on declarations is put together from its parts
* `Schema.reported_missingIndexes` — how the report depends on the indexes and the declarations
-/

namespace Provisioner

namespace Definition

/-- The keys of a declaration are a list of pairs. -/
def Paired (d : Definition) : Prop := ∃ ps, Definition.keys d = .ok (Value.ofPairs ps)

end Definition

namespace Indexes

variable {xs ys : Indexes} {d : Definition} {ds : List Definition} {collection : String}

/-! ### A single declaration -/

/-- Whether the search for an index that serves a declaration comes to its end in vain. -/
def lacks (xs : Indexes) (d : Definition) : Bool :=
  match satisfy d xs with
  | .ok fit => !fit
  | .error _ => false

/-- A declaration in a report. -/
def title (collection : String) (d : Definition) : String :=
  match label collection d with
  | .ok l => l
  | .error _ => ""

/-- Where the keys of all indexes can be read, the search fails in vain if none serves. -/
theorem satisfy_eq (hd : d.Paired) (hw : ∀ e ∈ xs, Info.WellFormed e.2) :
    satisfy d xs = .ok !xs.lacks d := by
  obtain ⟨ps, hk⟩ := hd
  obtain ⟨fit, hfit⟩ := satisfy_of_wellFormed hk rfl hw
  simp [lacks, hfit]

/-- A declaration is reported under the default name of its keys. -/
theorem label_of_keys {ps : List (Value × Value)}
    (hk : Definition.keys d = .ok (Value.ofPairs ps)) (collection : String) :
    label collection d = .ok (collection ++ "." ++ Index.joinName ps) := by
  rw [label, hk]
  refine bind_eq_ok_iff.2 ⟨_, rfl, bind_eq_ok_iff.2 ⟨Index.joinName ps, ?_, rfl⟩⟩
  rw [Index.defaultName, Value.pairs_ofPairs]
  rfl

theorem label_eq (hd : d.Paired) (collection : String) :
    label collection d = .ok (title collection d) := by
  obtain ⟨ps, hk⟩ := hd
  rw [title, label_of_keys hk]

/-- A declaration is lacking if no index serves it. -/
theorem lacks_eq_false_iff (hd : d.Paired) (hw : ∀ e ∈ xs, Info.WellFormed e.2) :
    xs.lacks d = false ↔ xs.Fit d := by
  constructor
  · intro h
    have hserved := satisfy_eq hd hw
    rw [h] at hserved
    exact fit_of_satisfy hserved
  · intro h
    have hserved := (satisfy_eq hd hw).symm.trans (satisfy_of_fit hw h)
    simpa using Except.ok.inj hserved

/-- Where more is served, less is lacking. -/
theorem lacks_of_imp (hd : d.Paired) (hw : ∀ e ∈ xs, Info.WellFormed e.2)
    (hw' : ∀ e ∈ ys, Info.WellFormed e.2) (h : xs.Fit d → ys.Fit d) :
    ys.lacks d = true → xs.lacks d = true := by
  intro hlacks
  refine Decidable.by_contra fun hserved => ?_
  have hfit := h ((lacks_eq_false_iff hd hw).1 (Bool.eq_false_iff.2 hserved))
  rw [(lacks_eq_false_iff hd hw').2 hfit] at hlacks
  contradiction

/-! ### Several declarations -/

/-- The declarations that no index serves. -/
def unserved (xs : Indexes) (ds : List Definition) : List Definition := ds.filter xs.lacks

/-- What is missing is what is not served, in its order. -/
theorem missing_eq_unserved (hds : ∀ d ∈ ds, d.Paired) (hw : ∀ e ∈ xs, Info.WellFormed e.2) :
    missing collection xs ds = .ok ((xs.unserved ds).map (title collection)) := by
  induction ds with
  | nil => rfl
  | cons d ds ih =>
    obtain ⟨hd, hds⟩ := List.forall_mem_cons.1 hds
    have habsent : absent collection xs d
        = .ok (if xs.lacks d then [title collection d] else []) := by
      rw [absent, satisfy_eq hd hw, label_eq hd]
      cases xs.lacks d <;> rfl
    rw [missing, habsent, ih hds]
    cases h : xs.lacks d <;> simp [unserved, h, bind, Except.bind, pure, Except.pure]

/-- Where more is served, what remains lacking stays in its order. -/
theorem unserved_sublist (hds : ∀ d ∈ ds, d.Paired) (hw : ∀ e ∈ xs, Info.WellFormed e.2)
    (hw' : ∀ e ∈ ys, Info.WellFormed e.2) (h : ∀ d, xs.Fit d → ys.Fit d) :
    (ys.unserved ds).Sublist (xs.unserved ds) := by
  have hboth : ys.unserved ds = (xs.unserved ds).filter ys.lacks := by
    rw [unserved, unserved, List.filter_filter]
    refine List.filter_congr fun d hd => ?_
    have himp := lacks_of_imp (hds d hd) hw hw' (h d)
    revert himp
    cases ys.lacks d <;> simp
  exact hboth ▸ List.filter_sublist

/-- All that counts of the indexes is what they are, and not where they stand or what they are
called. -/
theorem Fit.of_subset (h : xs.map Prod.snd ⊆ ys.map Prod.snd) (hf : xs.Fit d) : ys.Fit d := by
  obtain ⟨e, he, hfits⟩ := hf
  obtain ⟨e', he', hinfo⟩ := List.mem_map.1 (h (List.mem_map_of_mem he))
  exact ⟨e', he', hinfo ▸ hfits⟩

theorem wellFormed_of_subset (h : xs.map Prod.snd ⊆ ys.map Prod.snd)
    (hw : ∀ e ∈ ys, Info.WellFormed e.2) : ∀ e ∈ xs, Info.WellFormed e.2 := by
  intro e he
  obtain ⟨e', he', hinfo⟩ := List.mem_map.1 (h (List.mem_map_of_mem he))
  exact hinfo ▸ hw e' he'

/-- Indexes that are the same, in another order and by other names, lack the same. -/
theorem unserved_perm (hds : ∀ d ∈ ds, d.Paired) (hw : ∀ e ∈ xs, Info.WellFormed e.2)
    (h : (ys.map Prod.snd).Perm (xs.map Prod.snd)) : ys.unserved ds = xs.unserved ds := by
  have hw' : ∀ e ∈ ys, Info.WellFormed e.2 := wellFormed_of_subset h.subset hw
  refine List.filter_congr fun d hd => Bool.eq_iff_iff.2 ⟨?_, ?_⟩
  · exact lacks_of_imp (hds d hd) hw hw' (Fit.of_subset h.symm.subset)
  · exact lacks_of_imp (hds d hd) hw' hw (Fit.of_subset h.subset)

section Expiring

variable {before after : Indexes} {e : String × Info} {seconds : Value}

/-- An index that gets a time to live where it had none goes on serving what it has served. -/
theorem Fit.set_ttl (hn : Document.field e.2 Index.ttl = .null)
    (hf : Fit (before ++ e :: after) d) :
    Fit (before ++ (e.1, Assoc.set e.2 Index.ttl seconds) :: after) d := by
  obtain ⟨x, hx, hfits⟩ := hf
  rcases List.mem_append.1 hx with hx | hx
  · exact ⟨x, List.mem_append_left _ hx, hfits⟩
  · rcases List.mem_cons.1 hx with rfl | hx
    · exact ⟨_, List.mem_append_right _ List.mem_cons_self, Info.fits_set_ttl hn hfits⟩
    · exact ⟨x, List.mem_append_right _ (List.mem_cons_of_mem _ hx), hfits⟩

/-- A time to live has no part in the keys. -/
theorem wellFormed_set_ttl (seconds : Value)
    (hw : ∀ x ∈ before ++ e :: after, Info.WellFormed x.2) :
    ∀ x ∈ before ++ (e.1, Assoc.set e.2 Index.ttl seconds) :: after, Info.WellFormed x.2 := by
  intro x hx
  rcases List.mem_append.1 hx with hx | hx
  · exact hw x (List.mem_append_left _ hx)
  · rcases List.mem_cons.1 hx with rfl | hx
    · obtain ⟨ps, hp⟩ := hw e (List.mem_append_right _ List.mem_cons_self)
      refine ⟨ps, ?_⟩
      rw [Info.pattern, Assoc.get?_set_of_ne _ (by decide)]
      exact hp
    · exact hw x (List.mem_append_right _ (List.mem_cons_of_mem _ hx))

end Expiring

end Indexes

namespace Schema

open Attempt Procedure

variable {σ : Type} {answer : Handler σ} {database collection : String} {xs ys : Indexes}
  {ds : List Definition}

/-- What is reported of some declarations in every state in which these indexes are listed. -/
def ReportedMissing (answer : Handler σ) (database collection : String) (xs : Indexes)
    (ds : List Definition) (names : List String) : Prop :=
  ∀ a, (answer (.listIndexes database collection) a).1 = .ok xs →
    result answer (missingIndexes database collection ds) a = .ok names

/-- What is reported is what is not served. -/
theorem reported_unserved (hds : ∀ d ∈ ds, d.Paired) (hw : ∀ e ∈ xs, Info.WellFormed e.2) :
    ReportedMissing answer database collection xs ds
      ((xs.unserved ds).map (Indexes.title collection)) := by
  intro a hl
  have hlisted : result answer (call (.listIndexes database collection)) a = .ok xs := hl
  rw [missingIndexes, result_bind_of_ok hlisted, result_require]
  exact Indexes.missing_eq_unserved hds hw

/-- The reports on two lists of declarations, one after the other, make up that on both. -/
theorem ReportedMissing.append {es : List Definition} {names names' : List String}
    (h : ReportedMissing answer database collection xs ds names)
    (h' : ReportedMissing answer database collection xs es names') :
    ReportedMissing answer database collection xs (ds ++ es) (names ++ names') := by
  intro a hl
  have hlisted : result answer (call (.listIndexes database collection)) a = .ok xs := hl
  have hfirst := h a hl
  have hsecond := h' a hl
  rw [missingIndexes, result_bind_of_ok hlisted, result_require] at hfirst hsecond ⊢
  rw [Indexes.missing_append, hfirst, hsecond]
  rfl

/-- Where more is served, the report is a part of what it was, in the same order. -/
theorem reported_sublist (hds : ∀ d ∈ ds, d.Paired) (hw : ∀ e ∈ xs, Info.WellFormed e.2)
    (hw' : ∀ e ∈ ys, Info.WellFormed e.2) (h : ∀ d, xs.Fit d → ys.Fit d) :
    ∃ names, ReportedMissing answer database collection ys ds names
      ∧ names.Sublist ((xs.unserved ds).map (Indexes.title collection)) :=
  ⟨_, reported_unserved hds hw', (Indexes.unserved_sublist hds hw hw' h).map _⟩

/-- Where the keys of all indexes can be read, declarations whose keys are pairs have a report. It
is the same for the same indexes in another order and by other names; with more indexes, or when an
index gets a time to live where it had none, it only loses entries; and the reports of two lists of
declarations make up that of the two in a row. -/
theorem reported_missingIndexes (answer : Handler σ) (database collection : String)
    (hds : ∀ d ∈ ds, d.Paired) (hw : ∀ e ∈ xs, Info.WellFormed e.2) :
    ∃ names, ReportedMissing answer database collection xs ds names
      ∧ (∀ ys : Indexes, (ys.map Prod.snd).Perm (xs.map Prod.snd) →
        ReportedMissing answer database collection ys ds names)
      ∧ (∀ ys : Indexes, (∀ e ∈ ys, Info.WellFormed e.2) →
        xs.map Prod.snd ⊆ ys.map Prod.snd →
        ∃ names', ReportedMissing answer database collection ys ds names' ∧ names'.Sublist names)
      ∧ (∀ before e after seconds, xs = before ++ e :: after →
        Document.field e.2 Index.ttl = .null →
        ∃ names', ReportedMissing answer database collection
            (before ++ (e.1, Assoc.set e.2 Index.ttl seconds) :: after) ds names'
          ∧ names'.Sublist names)
      ∧ ∀ es : List Definition, (∀ d ∈ es, d.Paired) →
        ∃ names', ReportedMissing answer database collection xs es names'
          ∧ ReportedMissing answer database collection xs (ds ++ es) (names ++ names') := by
  refine ⟨_, reported_unserved hds hw, ?_, ?_, ?_, ?_⟩
  · intro ys hperm
    rw [← Indexes.unserved_perm hds hw hperm]
    exact reported_unserved hds (Indexes.wellFormed_of_subset hperm.subset hw)
  · intro ys hw' hsub
    exact reported_sublist hds hw hw' fun _ => Indexes.Fit.of_subset hsub
  · rintro before e after seconds rfl hn
    exact reported_sublist hds hw (Indexes.wellFormed_set_ttl seconds hw) fun _ =>
      Indexes.Fit.set_ttl hn
  · intro es hes
    have hrest : ReportedMissing answer database collection xs es _ := reported_unserved hes hw
    exact ⟨_, hrest, (reported_unserved hds hw).append hrest⟩

/-- Three declarations, of which the first and the last are the same. -/
def repeatedEmails : List Definition :=
  [ascending "email" [unique], uniqueNames, ascending "email" [unique]]

/-- What is missing is reported as often as it is declared, and in whatever order the two indexes on
the user names stand. -/
theorem reported_repeatedEmails :
    (∀ d ∈ repeatedEmails, d.Paired)
      ∧ (∀ e ∈ Indexes.fresh ++ [archivedNames, liveNames], Info.WellFormed e.2)
      ∧ result Server.answer (missingIndexes "appdb" credentials repeatedEmails) shadowedServer
        = .ok ["auth_credentials.email_1", "auth_credentials.email_1"]
      ∧ result Server.answer (missingIndexes "appdb" credentials repeatedEmails) unshadowedServer
        = .ok ["auth_credentials.email_1", "auth_credentials.email_1"] := by
  have hds : ∀ d ∈ repeatedEmails, d.Paired := by
    simp only [repeatedEmails, List.forall_mem_cons]
    exact ⟨⟨_, rfl⟩, ⟨_, rfl⟩, ⟨_, rfl⟩, by simp⟩
  have hw : ∀ e ∈ Indexes.fresh ++ [archivedNames, liveNames], Info.WellFormed e.2 := by decide
  have hr : result Server.answer (missingIndexes "appdb" credentials repeatedEmails) shadowedServer
      = .ok ["auth_credentials.email_1", "auth_credentials.email_1"] := rfl
  obtain ⟨names, hnames, hperm, -⟩ :=
    reported_missingIndexes Server.answer "appdb" credentials hds hw
  obtain rfl := Except.ok.inj (hr.symm.trans (hnames shadowedServer rfl))
  have hswap : ((Indexes.fresh ++ [liveNames, archivedNames]).map Prod.snd).Perm
      ((Indexes.fresh ++ [archivedNames, liveNames]).map Prod.snd) :=
    ((List.Perm.swap archivedNames liveNames []).append_left _).map _
  exact ⟨hds, hw, hr, hperm _ hswap unshadowedServer rfl⟩

end Schema

end Provisioner
