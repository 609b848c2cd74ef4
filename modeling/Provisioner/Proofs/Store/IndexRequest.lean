import Provisioner.Proofs.Store.DistinctNames
import Provisioner.Proofs.Value.EqualValues

/-!
# Requests for an index

A request for an index that the server understands has one of three answers. It is granted without
effect if it repeats an existing index, in name, keys and options alike. It is granted, and the
index appended, if neither its name nor its keys are taken. In every other case it is rejected.

## Main definitions

* `Indexes.Repeated` — an index exists as it is asked for
* `Indexes.Unclaimed` — neither the name nor the keys of a request are taken

## Main results

* `Indexes.create_eq_ok_iff`, `create_rejected` — the three answers
* `Indexes.record_of_nodup` — an index is recorded with the options as they stand
* `Indexes.field_eqv_of_repeated` — an index that is repeated has the options of the request
-/

namespace Provisioner

namespace Indexes

variable {xs ys : Indexes} {keys : Value} {options : Document} {name : String}
  {ps : List (Value × Value)} {info : Info}

/-- The index that is asked for exists under its name, with its keys and with its options. -/
def Repeated (xs : Indexes) (name : String) (ps : List (Value × Value)) (options : Document) :
    Prop :=
  ∃ info, Assoc.get? xs name = some info ∧ hasPattern ps info = true
    ∧ (Value.doc (recordedOptions info)).eqv (.doc options) = true

/-- Neither the name nor the keys are taken. -/
structure Unclaimed (xs : Indexes) (name : String) (ps : List (Value × Value)) : Prop where
  name : name ∉ Assoc.keys xs
  pattern : ∀ e ∈ xs, hasPattern ps e.2 = false

/-- A request is read before anything else. -/
theorem read_of_create (h : xs.create keys options = .ok ys) :
    ∃ name ps, requestedName keys options = .ok name ∧ Index.pattern keys = .ok ps := by
  rw [create] at h
  cases hn : requestedName keys options with
  | error e => simp [hn, bind, Except.bind] at h
  | ok name =>
    cases hp : Index.pattern keys with
    | error e => simp [hn, hp, bind, Except.bind] at h
    | ok ps => exact ⟨name, ps, rfl, rfl⟩

/-- An index that is repeated is left as it is. -/
theorem create_of_repeated (hn : requestedName keys options = .ok name)
    (hp : Index.pattern keys = .ok ps) (h : Repeated xs name ps (Assoc.erase options "name")) :
    xs.create keys options = .ok xs := by
  obtain ⟨info, hg, hi, ho⟩ := h
  simp [create, hn, hp, hg, hi, ho, bind, Except.bind, pure, Except.pure]

/-- An index that is not in the way of any other is appended. -/
theorem create_of_unclaimed (hn : requestedName keys options = .ok name)
    (hp : Index.pattern keys = .ok ps) (h : Unclaimed xs name ps) :
    xs.create keys options = .ok (xs ++ [(name, record ps (Assoc.erase options "name"))]) := by
  have hg : Assoc.get? xs name = none := Assoc.get?_eq_none_iff.2 h.name
  have hf : List.find? (fun e => hasPattern ps e.2) xs = none :=
    List.find?_eq_none.2 fun e he => by simp [h.pattern e he]
  simp [create, hn, hp, hg, hf, bind, Except.bind, pure, Except.pure]

/-- Any other request is rejected. -/
theorem create_rejected (hn : requestedName keys options = .ok name)
    (hp : Index.pattern keys = .ok ps) (hr : ¬ Repeated xs name ps (Assoc.erase options "name"))
    (hu : ¬ Unclaimed xs name ps) :
    ∃ r : Rejection, xs.create keys options = .error (.rejected r)
      ∧ (r.code? = some 85 ∨ r.code? = some 86) := by
  cases hg : Assoc.get? xs name with
  | some info =>
    by_cases hi : hasPattern ps info = true
    · have ho : ¬ (Value.doc (recordedOptions info)).eqv
          (.doc (Assoc.erase options "name")) = true := fun ho => hr ⟨info, hg, hi, ho⟩
      refine ⟨.optionsDiffer name, ?_, .inl rfl⟩
      simp [create, hn, hp, hg, hi, ho, bind, Except.bind]
      rfl
    · refine ⟨.nameTaken name, ?_, .inr rfl⟩
      simp [create, hn, hp, hg, hi, bind, Except.bind]
      rfl
  | none =>
    cases hf : List.find? (fun e => hasPattern ps e.2) xs with
    | some other =>
      refine ⟨.namedOtherwise other.1, ?_, .inl rfl⟩
      simp [create, hn, hp, hg, hf, bind, Except.bind]
      rfl
    | none =>
      refine absurd ⟨Assoc.get?_eq_none_iff.1 hg, fun e he => ?_⟩ hu
      simpa using List.find?_eq_none.1 hf e he

/-- A request is granted if it repeats an index, or else if it is in the way of none. -/
theorem create_eq_ok_iff (hn : requestedName keys options = .ok name)
    (hp : Index.pattern keys = .ok ps) :
    xs.create keys options = .ok ys ↔
      Repeated xs name ps (Assoc.erase options "name") ∧ ys = xs
        ∨ Unclaimed xs name ps
          ∧ ys = xs ++ [(name, record ps (Assoc.erase options "name"))] := by
  constructor
  · intro h
    by_cases hr : Repeated xs name ps (Assoc.erase options "name")
    · exact .inl ⟨hr, Except.ok.inj (h.symm.trans (create_of_repeated hn hp hr))⟩
    · by_cases hu : Unclaimed xs name ps
      · exact .inr ⟨hu, Except.ok.inj (h.symm.trans (create_of_unclaimed hn hp hu))⟩
      · obtain ⟨r, he, -⟩ := create_rejected hn hp hr hu
        exact nomatch h.symm.trans he
  · rintro (⟨hr, rfl⟩ | ⟨hu, rfl⟩)
    · exact create_of_repeated hn hp hr
    · exact create_of_unclaimed hn hp hu

theorem distinct_create (hx : xs.Distinct) (h : xs.create keys options = .ok ys) :
    ys.Distinct := by
  obtain ⟨name, ps, hn, hp⟩ := read_of_create h
  rcases (create_eq_ok_iff hn hp).1 h with ⟨-, rfl⟩ | ⟨hu, rfl⟩
  · exact hx
  · rw [← Assoc.set_of_notMem _ hu.name]
    exact hx.set (nodupKeys_record _ _)

/-! ### Keys -/

/-- For keys that are a list of pairs, the server looks for the same as this library. -/
theorem hasKeys_ofPairs_iff :
    Info.hasKeys info (.ok (Value.ofPairs ps)) = .ok true ↔ hasPattern ps info = true := by
  rw [Info.hasKeys, hasPattern]
  cases Info.pattern info with
  | error e => exact ⟨nofun, nofun⟩
  | ok qs => exact ⟨Except.ok.inj, congrArg Except.ok⟩

theorem hasKeys_ofPairs_of_wellFormed (hw : info.WellFormed) :
    Info.hasKeys info (.ok (Value.ofPairs ps)) = .ok (hasPattern ps info) := by
  obtain ⟨qs, hq⟩ := hw
  rw [Info.hasKeys, hasPattern, hq]
  rfl

/-! ### Recorded indexes -/

/-- Options that are not recorded otherwise are recorded as they stand. -/
theorem record_of_nodup
    (h : Assoc.NodupKeys (("v", version) :: ("key", Value.ofPairs ps) :: options)) :
    record ps options = ("v", version) :: ("key", Value.ofPairs ps) :: options :=
  Assoc.ofList_of_nodup h

/-- The entries of an index other than its version and keys are its options. -/
theorem field_recordedOptions {option : String} (info : Info) (hv : option ≠ "v")
    (hk : option ≠ "key") :
    Document.field (recordedOptions info) option = Document.field info option := by
  rw [Document.field, Document.field, recordedOptions, Assoc.get?_erase_of_ne hk,
    Assoc.get?_erase_of_ne hv]

theorem nodupKeys_recordedOptions (h : Assoc.NodupKeys info) :
    Assoc.NodupKeys (recordedOptions info) :=
  h.erase.erase

/-- Under every option an index that is repeated has what the request asks for. -/
theorem field_eqv_of_repeated {option : String} (h : Assoc.NodupKeys info)
    (ho : (Value.doc (recordedOptions info)).eqv (.doc options) = true) (hv : option ≠ "v")
    (hk : option ≠ "key") :
    (Document.field info option).eqv (Document.field options option) = true := by
  rw [← field_recordedOptions info hv hk]
  exact Value.field_eqv_of_doc_eqv (nodupKeys_recordedOptions h) ho option

end Indexes

end Provisioner
