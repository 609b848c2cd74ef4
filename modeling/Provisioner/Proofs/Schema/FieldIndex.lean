import Provisioner.Proofs.Store.FaithfulServer

/-!
# Indexes on one field

All declared indexes are ascending indexes on one field, and none of them is given a name. What
keys they have and under which name they are asked for therefore depends on the field alone, and
whether two of them have the same keys does so too: an index cannot be on two fields at once.

## Main definitions

* `Schema.fieldKeys`, `indexName` — the keys of an index on a field, and its default name
* `Schema.Regular` — a declaration of an index on a field, without a name
* `Indexes.Single` — no two indexes have the same keys

## Main results

* `Schema.hasPattern_fieldKeys_iff` — the indexes on a field
* `Schema.field_eq_of_hasPattern` — an index is on one field only
* `Indexes.Single.eq` — there is one index on a field at most
* `Schema.regular_declared` — the declared indexes are regular
-/

namespace Provisioner

namespace Schema

/-- The keys of an ascending index on one field. -/
def fieldKeys (field : String) : List (Value × Value) := [(.text field, .int 1)]

/-- The name of such an index, if it is not given another one. -/
def indexName (field : String) : String := Index.joinName (fieldKeys field)

/-- A declaration of an ascending index on one field, to which no name is given. -/
structure Regular (d : Definition) (field : String) : Prop where
  keys : Definition.keys d = .ok (Value.ofPairs (fieldKeys field))
  unnamed : Document.field (Definition.options d) "name" = .null

variable {d : Definition} {field other : String} {info : Info}

theorem Regular.requestedName (h : Regular d field) :
    Indexes.requestedName (Value.ofPairs (fieldKeys field)) (Definition.options d)
      = .ok (indexName field) := by
  rw [Indexes.requestedName, h.unnamed, Index.defaultName, Value.pairs_ofPairs]
  rfl

/-- A declaration is for one field only. -/
theorem Regular.field_eq (h : Regular d field) (h' : Regular d other) : field = other := by
  have he := Except.ok.inj (h.keys.symm.trans h'.keys)
  simpa [Value.ofPairs, fieldKeys, Value.pair] using he

theorem pattern_fieldKeys (field : String) :
    Index.pattern (Value.ofPairs (fieldKeys field)) = .ok (fieldKeys field) :=
  Value.pairs_ofPairs _

/-- A regular declaration can be described. -/
theorem Regular.describe (h : Regular d field) (collection : String) :
    ∃ text, d.describe collection = .ok text := by
  rw [Definition.describe, h.keys]
  exact ⟨_, rfl⟩

/-- Indexes on different fields have different default names. -/
theorem indexName_injective : Function.Injective indexName := by
  intro field other h
  simpa [indexName, Index.joinName, fieldKeys, Index.namePart] using h

theorem regular_declared : ∀ d ∈ credentialIndexes ++ sessionIndexes, ∃ field, Regular d field := by
  simp only [credentialIndexes, sessionIndexes, List.cons_append, List.nil_append,
    List.forall_mem_cons]
  exact ⟨⟨"username", rfl, rfl⟩, ⟨"email", rfl, rfl⟩, ⟨"user_id", rfl, rfl⟩, ⟨"token", rfl, rfl⟩,
    ⟨"user_id", rfl, rfl⟩, ⟨"expires_at", rfl, rfl⟩, ⟨"expires_at", rfl, rfl⟩, by simp⟩

/-! ### On one field only -/

/-- An index is on a field if its keys are this field and the number one. -/
theorem hasPattern_fieldKeys_iff : Indexes.hasPattern (fieldKeys field) info = true ↔
    ∃ v, info.pattern = .ok [(.text field, v)] ∧ v.number? = some (.whole 1) := by
  rw [Indexes.hasPattern]
  constructor
  · intro h
    cases hp : info.pattern with
    | error e => simp [hp] at h
    | ok qs =>
      simp only [hp, Info.samePattern, fieldKeys] at h
      cases qs with
      | nil => simp [Value.eqvList] at h
      | cons q qs =>
        cases qs with
        | cons q' qs => simp [Value.eqvList] at h
        | nil =>
          obtain ⟨u, v⟩ := q
          simp only [List.map_cons, List.map_nil, Value.eqvList, Value.pair, Value.eqv,
            Bool.and_true, Bool.and_eq_true, Value.eqv_text_right] at h
          obtain ⟨rfl, hv⟩ := h
          exact ⟨v, rfl, Value.eqv_int_right.1 (Value.eqv_of_sameNumber hv)⟩
  · rintro ⟨v, hp, hv⟩
    simp [hp, Info.samePattern, fieldKeys, Value.eqvList, Value.pair, Value.eqv,
      Value.eqv_int_right.2 hv]

/-- An index is on one field only. -/
theorem field_eq_of_hasPattern (h : Indexes.hasPattern (fieldKeys field) info = true)
    (h' : Indexes.hasPattern (fieldKeys other) info = true) : field = other := by
  obtain ⟨v, hp, -⟩ := hasPattern_fieldKeys_iff.1 h
  obtain ⟨v', hp', -⟩ := hasPattern_fieldKeys_iff.1 h'
  have he := Except.ok.inj (hp.symm.trans hp')
  simp only [List.cons.injEq, Prod.mk.injEq, Value.text.injEq] at he
  exact he.1.1

theorem hasKeys_fieldKeys_iff :
    info.hasKeys (.ok (Value.ofPairs (fieldKeys field))) = .ok true
      ↔ Indexes.hasPattern (fieldKeys field) info = true :=
  Indexes.hasKeys_ofPairs_iff

end Schema

/-! ### One index at most -/

/-- Whether the keys of one index are those of another. -/
def Info.alike (info other : Info) : Bool :=
  match other.pattern with
  | .ok ps => Indexes.hasPattern ps info
  | .error _ => false

/-- No two of the indexes have the same keys. -/
def Indexes.Single (xs : Indexes) : Prop :=
  xs.Pairwise fun e e' => Info.alike e.2 e'.2 = false

instance (xs : Indexes) : Decidable xs.Single := inferInstanceAs (Decidable (List.Pairwise _ _))

open Schema in
/-- Two indexes on a field have the same keys, however the direction is held. -/
theorem Info.alike_of_hasPattern {field : String} {info other : Info}
    (h : Indexes.hasPattern (fieldKeys field) info = true)
    (h' : Indexes.hasPattern (fieldKeys field) other = true) : info.alike other = true := by
  obtain ⟨v, hp, hv⟩ := hasPattern_fieldKeys_iff.1 h
  obtain ⟨v', hp', hv'⟩ := hasPattern_fieldKeys_iff.1 h'
  have he : v.eqv v' = true := Value.eqv_of_sameNumber (Value.sameNumber_iff.2 ⟨_, hv, hv'⟩)
  simp [Info.alike, hp', Indexes.hasPattern, hp, Info.samePattern, Value.eqvList, Value.pair,
    Value.eqv, he]

open Schema in
/-- There is one index on a field at most. -/
theorem Indexes.Single.eq {xs : Indexes} {field : String} (h : xs.Single) {e e' : String × Info}
    (he : e ∈ xs) (he' : e' ∈ xs) (hk : hasPattern (fieldKeys field) e.2 = true)
    (hk' : hasPattern (fieldKeys field) e'.2 = true) : e = e' := by
  induction xs with
  | nil => simp at he
  | cons x xs ih =>
    obtain ⟨hx, hxs⟩ := List.pairwise_cons.1 h
    rcases List.mem_cons.1 he with rfl | hm
    · rcases List.mem_cons.1 he' with rfl | hm'
      · rfl
      · exact absurd (Info.alike_of_hasPattern hk hk') (by simp [hx e' hm'])
    · rcases List.mem_cons.1 he' with rfl | hm'
      · exact absurd (Info.alike_of_hasPattern hk' hk) (by simp [hx e hm])
      · exact ih hxs hm hm'

end Provisioner
