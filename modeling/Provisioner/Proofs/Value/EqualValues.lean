import Mathlib.Data.List.Perm.Subperm
import Provisioner.Proofs.Assoc.Order
import Provisioner.Value.Equality

/-!
# What equal values have in common

Equal values count as set in the same cases, and equal documents have equal values under every
name, in both of them or in neither. The second statement is not read off the comparison, which
looks up the entries of one document in the other: it needs that the names of the first one are
not repeated, so that as many names cannot hide among fewer.

## Main results

* `Value.eqv_text_right`, `eqv_int_right` — the values equal to a text or to an integer
* `Value.truth_eq_of_eqv` — equal values count as set in the same cases
* `Value.field_eqv_of_doc_eqv` — equal documents agree under every name
-/

namespace Provisioner

namespace Double

/-- A finite number is zero only if it has no ulps. -/
theorem number?_finite_eq_zero_iff (negative : Bool) (ulps : Nat) :
    number? (.finite negative ulps) = some (.whole 0) ↔ ulps = 0 := by
  constructor
  · intro h
    by_cases hm : ulps % one = 0
    · have hwhole : (if negative then -((ulps / one : Nat) : Int) else (ulps / one : Nat)) = 0 := by
        simpa only [number?, if_pos hm, Option.some.injEq, Number.whole.injEq] using h
      have hq : ulps / one = 0 := by
        cases negative with
        | false => exact Int.natCast_eq_zero.1 hwhole
        | true => exact Int.natCast_eq_zero.1 (Int.neg_eq_zero.1 hwhole)
      have := Nat.div_add_mod ulps one
      rw [hq, hm] at this
      simpa only [Nat.mul_zero, Nat.add_zero] using this.symm
    · simp [number?, hm] at h
  · rintro rfl
    cases negative <;> simp [number?]

end Double

namespace Value

variable {v w : Value}

/-! ### Texts and numbers -/

@[simp] theorem eqv_text_right {s : String} : eqv v (.text s) = true ↔ v = .text s := by
  cases v <;> simp [eqv, sameNumber, number?]

theorem eqv_int_right {n : Int} : eqv v (.int n) = true ↔ v.number? = some (.whole n) := by
  cases v with
  | float d => cases h : d.number? <;> simp [eqv, sameNumber, number?, h]
  | _ => simp [eqv, sameNumber, number?]

/-- A number counts as set unless it is zero. -/
theorem truth_of_number? {a : Number} (h : v.number? = some a) :
    v.truth = decide (a ≠ .whole 0) := by
  cases v with
  | bool b => cases b <;> simp_all [number?, truth, eq_comm]
  | int n =>
    obtain rfl : Number.whole n = a := by simpa [number?] using h
    simp [truth, bne, beq_eq_decide]
  | float d =>
    cases d with
    | nan => simp [number?] at h
    | infinite negative =>
      obtain rfl : Number.infinite negative = a := by simpa [number?, Double.number?] using h
      rfl
    | finite negative ulps =>
      have ha : a = .whole 0 ↔ ulps = 0 := by
        rw [← Double.number?_finite_eq_zero_iff negative ulps]
        exact ⟨fun ha => ha ▸ h, fun h' => Option.some.inj (h.symm.trans h')⟩
      simp [truth, Double.isZero, ha, beq_eq_decide]
  | null | text | list | tuple | doc => simp [number?] at h

theorem sameNumber_iff : sameNumber v w = true ↔ ∃ a, v.number? = some a ∧ w.number? = some a := by
  cases hv : v.number? with
  | none => simp [sameNumber, hv]
  | some a =>
    cases hw : w.number? with
    | none => simp [sameNumber, hw]
    | some b => simp [sameNumber, hv, hw, eq_comm (a := b)]

theorem eqv_of_sameNumber (h : sameNumber v w = true) : eqv v w = true := by
  obtain ⟨a, hv, hw⟩ := sameNumber_iff.1 h
  cases v with
  | null | text | list | tuple | doc => simp [number?] at hv
  | bool | int | float => exact h

theorem truth_eq_of_sameNumber (h : sameNumber v w = true) : v.truth = w.truth := by
  obtain ⟨a, hv, hw⟩ := sameNumber_iff.1 h
  rw [truth_of_number? hv, truth_of_number? hw]

theorem isEmpty_eq_of_eqvList {xs ys : List Value} (h : eqvList xs ys = true) :
    xs.isEmpty = ys.isEmpty := by
  cases xs <;> cases ys <;> simp_all [eqvList]

/-- Equal values count as set in the same cases. -/
theorem truth_eq_of_eqv (h : eqv v w = true) : v.truth = w.truth := by
  cases v <;> cases w
  case text.text s t => simp_all [eqv]
  case list.list xs ys =>
    have he : xs.isEmpty = ys.isEmpty := isEmpty_eq_of_eqvList h
    simp [truth, he]
  case tuple.tuple xs ys =>
    have he : xs.isEmpty = ys.isEmpty := isEmpty_eq_of_eqvList h
    simp [truth, he]
  case doc.doc xs ys =>
    have hl : xs.length = ys.length := by simp_all [eqv]
    cases xs <;> cases ys <;> simp_all [truth]
  case null.null => rfl
  all_goals exact truth_eq_of_sameNumber h

/-! ### Documents -/

theorem get?_of_eqvEntries {xs : List (String × Value)} {ys : Document}
    (h : eqvEntries xs ys = true) {e : String × Value} (he : e ∈ xs) :
    ∃ w, Assoc.get? ys e.1 = some w ∧ eqv e.2 w = true := by
  induction xs with
  | nil => simp at he
  | cons e' xs ih =>
    obtain ⟨name, u⟩ := e'
    simp only [eqvEntries, Bool.and_eq_true] at h
    rcases List.mem_cons.1 he with rfl | he
    · cases hw : Assoc.get? ys name with
      | none => simp [hw] at h
      | some w => exact ⟨w, rfl, by simpa [hw] using h.1⟩
    · exact ih h.2 he

/-- A document equals itself if its values do. -/
theorem doc_eqv_self {xs : Document} (hx : Assoc.NodupKeys xs)
    (h : ∀ e ∈ xs, eqv e.2 e.2 = true) : eqv (.doc xs) (.doc xs) = true := by
  suffices hs : ∀ ys : List (String × Value), (∀ e ∈ ys, e ∈ xs) → eqvEntries ys xs = true by
    simp [eqv, hs xs fun _ he => he]
  intro ys hy
  induction ys with
  | nil => rfl
  | cons e ys ih =>
    obtain ⟨he, hys⟩ := List.forall_mem_cons.1 hy
    simp [eqvEntries, Assoc.get?_of_mem hx he, h e he, ih hys]

/-- Every name of the second document is one of the first, since there are not more of them. -/
theorem keys_subset_of_doc_eqv {xs ys : Document} (hx : Assoc.NodupKeys xs)
    (h : eqv (.doc xs) (.doc ys) = true) : Assoc.keys ys ⊆ Assoc.keys xs := by
  simp only [eqv, Bool.and_eq_true, beq_iff_eq] at h
  have hsub : Assoc.keys xs ⊆ Assoc.keys ys := by
    intro name hn
    obtain ⟨e, he, rfl⟩ := List.mem_map.1 hn
    obtain ⟨w, hw, -⟩ := get?_of_eqvEntries h.2 he
    exact Assoc.mem_keys_of_get? hw
  have hle : (Assoc.keys ys).length ≤ (Assoc.keys xs).length := by simp [Assoc.keys, h.1]
  exact ((List.subperm_of_subset hx hsub).perm_of_length_le hle).symm.subset

/-- Equal documents agree under every name. -/
theorem field_eqv_of_doc_eqv {xs ys : Document} (hx : Assoc.NodupKeys xs)
    (h : eqv (.doc xs) (.doc ys) = true) (name : String) :
    eqv (Document.field xs name) (Document.field ys name) = true := by
  cases hg : Assoc.get? xs name with
  | some u =>
    simp only [eqv, Bool.and_eq_true] at h
    obtain ⟨w, hw, he⟩ := get?_of_eqvEntries h.2 (Assoc.mem_of_get? hg)
    simpa [Document.field, hg, hw] using he
  | none =>
    have hn : name ∉ Assoc.keys ys := fun hn =>
      Assoc.get?_eq_none_iff.1 hg (keys_subset_of_doc_eqv hx h hn)
    simp [Document.field, hg, Assoc.get?_eq_none_iff.2 hn]

end Value

end Provisioner
