import Mathlib.Data.Option.Basic
import Provisioner.Proofs.Value.EqualValues
import Provisioner.Value.Items

/-!
# Equality as an equivalence

Equality of values is not an equivalence as it stands: `nan` is not equal to itself, and documents
are compared by looking up the entries of the first one in the second one, which says little about
the second one if the first one repeats a name. On values in which no document repeats a name it is
symmetric and transitive, since there equal documents are those that agree under every name. That a
value is equal to itself, and hence free of `nan`, is asked for where it is needed.

## Main definitions

* `Value.AgreeAt` — two documents have equal values under a name, or none
* `Value.Distinct` — no document in a value repeats a name

## Main results

* `Value.doc_eqv_iff` — documents are equal if they agree under every name
* `Value.Distinct.field`, `of_items`, `of_unpack` — no name comes to be repeated by reading a part
* `Value.Distinct.eqv_symm`, `Distinct.eqv_trans` — equality is symmetric and transitive
-/

namespace Provisioner

namespace Value

variable {u v w : Value}

/-! ### Numbers and lists -/

/-- What is equal to a number is the same number. -/
theorem eqv_iff_of_number? {a : Number} (h : v.number? = some a) :
    eqv v w = true ↔ w.number? = some a := by
  have hsame : eqv v w = sameNumber v w := by
    cases v with
    | bool | int | float => cases w <;> rfl
    | null | text | list | tuple | doc => simp [number?] at h
  rw [hsame, sameNumber_iff]
  simp [h]

theorem eqv_symm_of_number? {a : Number} (hv : v.number? = some a) (h : eqv v w = true) :
    eqv w v = true :=
  (eqv_iff_of_number? ((eqv_iff_of_number? hv).1 h)).2 hv

theorem eqv_trans_of_number? {a : Number} (hu : u.number? = some a) (h : eqv u v = true)
    (h' : eqv v w = true) : eqv u w = true :=
  (eqv_iff_of_number? hu).2 ((eqv_iff_of_number? ((eqv_iff_of_number? hu).1 h)).1 h')

/-- What equals something is not `nan`. -/
theorem number?_of_float_eqv {d : Double} (h : eqv (.float d) w = true) :
    ∃ a, (Value.float d).number? = some a := by
  have hsame : sameNumber (.float d) w = true := by cases w <;> exact h
  obtain ⟨a, ha, -⟩ := sameNumber_iff.1 hsame
  exact ⟨a, ha⟩

/-- Lists are equal item by item. -/
theorem eqvList_iff {xs ys : List Value} :
    eqvList xs ys = true ↔ List.Forall₂ (fun v w => eqv v w = true) xs ys := by
  induction xs generalizing ys with
  | nil => cases ys <;> simp [eqvList]
  | cons x xs ih => cases ys <;> simp [eqvList, ih]

/-! ### Documents -/

/-- Two documents have equal values under a name, or neither of them has one. -/
def AgreeAt (xs ys : Document) (name : String) : Prop :=
  Option.Rel (fun v w => eqv v w = true) (Assoc.get? xs name) (Assoc.get? ys name)

theorem AgreeAt.mem_keys_iff {xs ys : Document} {name : String} (h : AgreeAt xs ys name) :
    name ∈ Assoc.keys xs ↔ name ∈ Assoc.keys ys := by
  rw [← not_iff_not, ← Assoc.get?_eq_none_iff, ← Assoc.get?_eq_none_iff]
  rw [AgreeAt] at h
  cases hx : Assoc.get? xs name <;> cases hy : Assoc.get? ys name <;> simp_all

/-- Documents are equal if they agree under every name. -/
theorem doc_eqv_iff {xs ys : Document} (hx : Assoc.NodupKeys xs) (hy : Assoc.NodupKeys ys) :
    eqv (.doc xs) (.doc ys) = true ↔ ∀ name, AgreeAt xs ys name := by
  constructor
  · intro h name
    rw [AgreeAt]
    cases hg : Assoc.get? xs name with
    | none =>
      have hn : name ∉ Assoc.keys ys := fun hn =>
        Assoc.get?_eq_none_iff.1 hg (keys_subset_of_doc_eqv hx h hn)
      rw [Assoc.get?_eq_none_iff.2 hn]
      exact .none
    | some u =>
      simp only [eqv, Bool.and_eq_true] at h
      obtain ⟨w, hw, he⟩ := get?_of_eqvEntries h.2 (Assoc.mem_of_get? hg)
      exact hw ▸ .some he
  · intro h
    have hlength : xs.length = ys.length := by
      have hperm := (List.perm_ext_iff_of_nodup hx hy).2 fun name => (h name).mem_keys_iff
      simpa [Assoc.keys] using hperm.length_eq
    -- Every entry of the first document is looked up in the second one.
    suffices hs : ∀ zs : List (String × Value), (∀ e ∈ zs, e ∈ xs) → eqvEntries zs ys = true by
      simp [eqv, hlength, hs xs fun _ he => he]
    intro zs hz
    induction zs with
    | nil => rfl
    | cons e zs ih =>
      obtain ⟨he, hzs⟩ := List.forall_mem_cons.1 hz
      have hname := h e.1
      rw [AgreeAt, Assoc.get?_of_mem hx he] at hname
      cases hg : Assoc.get? ys e.1 with
      | none => simp [hg] at hname
      | some w =>
        rw [hg, Option.rel_some_some] at hname
        simp [eqvEntries, hg, hname, ih hzs]

/-! ### What a value of a kind is equal to -/

theorem null_eqv_iff : eqv .null w = true ↔ w = .null := by
  cases w <;> simp [eqv, sameNumber, number?]

theorem text_eqv_iff {s : String} : eqv (.text s) w = true ↔ w = .text s := by
  cases w with
  | text t =>
    simp only [eqv, beq_iff_eq, Value.text.injEq]
    exact eq_comm
  | _ => simp [eqv, sameNumber, number?]

theorem list_eqv_iff {xs : List Value} :
    eqv (.list xs) w = true ↔ ∃ ys, w = .list ys ∧ eqvList xs ys = true := by
  cases w <;> simp [eqv, sameNumber, number?]

theorem tuple_eqv_iff {xs : List Value} :
    eqv (.tuple xs) w = true ↔ ∃ ys, w = .tuple ys ∧ eqvList xs ys = true := by
  cases w <;> simp [eqv, sameNumber, number?]

theorem eq_doc_of_eqv {xs : Document} (h : eqv (.doc xs) w = true) : ∃ ys, w = .doc ys := by
  cases w <;> simp [eqv, sameNumber, number?] at h ⊢

/-! ### Values without repeated names -/

/-- No document in a value repeats a name. -/
inductive Distinct : Value → Prop
  | null : Distinct .null
  | bool (b : Bool) : Distinct (.bool b)
  | int (n : Int) : Distinct (.int n)
  | float (d : Double) : Distinct (.float d)
  | text (s : String) : Distinct (.text s)
  | list {items : List Value} (h : ∀ v ∈ items, Distinct v) : Distinct (.list items)
  | tuple {items : List Value} (h : ∀ v ∈ items, Distinct v) : Distinct (.tuple items)
  | doc {entries : List (String × Value)} (hn : Assoc.NodupKeys entries)
      (h : ∀ e ∈ entries, Distinct e.2) : Distinct (.doc entries)

@[simp] theorem distinct_null : Distinct .null := .null

@[simp] theorem distinct_bool (b : Bool) : Distinct (.bool b) := .bool b

@[simp] theorem distinct_int (n : Int) : Distinct (.int n) := .int n

@[simp] theorem distinct_text (s : String) : Distinct (.text s) := .text s

@[simp] theorem distinct_list_iff {items : List Value} :
    Distinct (.list items) ↔ ∀ v ∈ items, v.Distinct :=
  ⟨fun h => by cases h; assumption, .list⟩

@[simp] theorem distinct_tuple_iff {items : List Value} :
    Distinct (.tuple items) ↔ ∀ v ∈ items, v.Distinct :=
  ⟨fun h => by cases h; assumption, .tuple⟩

@[simp] theorem distinct_doc_iff {entries : List (String × Value)} :
    Distinct (.doc entries) ↔ Assoc.NodupKeys entries ∧ ∀ e ∈ entries, e.2.Distinct :=
  ⟨fun h => by cases h; constructor <;> assumption, fun h => .doc h.1 h.2⟩

/-- A list of pairs has no more repetitions than its items have. -/
theorem distinct_ofPairs {ps : List (Value × Value)} (h : ∀ p ∈ ps, p.1.Distinct ∧ p.2.Distinct) :
    (ofPairs ps).Distinct := by
  refine .list (List.forall_mem_map.2 fun p hp => .tuple ?_)
  exact List.forall_mem_cons.2 ⟨(h p hp).1, List.forall_mem_singleton.2 (h p hp).2⟩

/-! ### What is read off values without repeated names -/

theorem Distinct.of_get? {d : Document} {name : String} (h : Distinct (.doc d))
    (hg : Assoc.get? d name = some v) : v.Distinct :=
  (distinct_doc_iff.1 h).2 _ (Assoc.mem_of_get? hg)

theorem Distinct.field {d : Document} (h : Distinct (.doc d)) (name : String) :
    (Document.field d name).Distinct := by
  cases hg : Assoc.get? d name with
  | none => simp [Document.field, hg]
  | some v => simpa [Document.field, hg] using h.of_get? hg

theorem Distinct.of_items? {xs : List Value} (h : v.Distinct) (hi : v.items? = some xs) :
    ∀ x ∈ xs, x.Distinct := by
  cases h with
  | list h | tuple h => exact Option.some.inj hi ▸ h
  | text s =>
    obtain rfl := Option.some.inj hi
    exact List.forall_mem_map.2 fun c _ => .text c.toString
  | doc hn h =>
    obtain rfl := Option.some.inj hi
    exact List.forall_mem_map.2 fun e _ => .text e.1
  | null | bool | int | float => contradiction

theorem Distinct.of_items {xs : List Value} (h : v.Distinct) (hi : v.items = .ok xs) :
    ∀ x ∈ xs, x.Distinct := by
  rw [items] at hi
  split at hi
  · next hitems => exact Except.ok.inj hi ▸ h.of_items? hitems
  · contradiction

theorem Distinct.of_unpack {p : Value × Value} (h : v.Distinct) (hp : v.unpack = .ok p) :
    p.1.Distinct ∧ p.2.Distinct := by
  rw [unpack] at hp
  split at hp
  · next hitems =>
    obtain rfl := Except.ok.inj hp
    have hboth := h.of_items? hitems
    exact ⟨hboth _ (by simp), hboth _ (by simp)⟩
  · contradiction
  · contradiction

/-! ### Symmetry and transitivity -/

theorem eqvList_symm {xs ys : List Value}
    (ih : ∀ v ∈ xs, ∀ w, w.Distinct → eqv v w = true → eqv w v = true)
    (hy : ∀ w ∈ ys, w.Distinct) (h : eqvList xs ys = true) : eqvList ys xs = true := by
  rw [eqvList_iff] at h ⊢
  induction h with
  | nil => exact .nil
  | cons he _ ihs =>
    obtain ⟨ihx, ih⟩ := List.forall_mem_cons.1 ih
    obtain ⟨hw, hy⟩ := List.forall_mem_cons.1 hy
    exact .cons (ihx _ hw he) (ihs ih hy)

theorem eqvList_trans {xs ys zs : List Value}
    (ih : ∀ u ∈ xs, ∀ v, v.Distinct → ∀ w, w.Distinct → eqv u v = true → eqv v w = true →
      eqv u w = true)
    (hy : ∀ v ∈ ys, v.Distinct) (hz : ∀ w ∈ zs, w.Distinct) (h : eqvList xs ys = true)
    (h' : eqvList ys zs = true) : eqvList xs zs = true := by
  rw [eqvList_iff] at h h' ⊢
  induction h generalizing zs with
  | nil => exact h'
  | cons he _ ihs =>
    cases h' with
    | cons he' hs' =>
      obtain ⟨ihx, ih⟩ := List.forall_mem_cons.1 ih
      obtain ⟨hv, hy⟩ := List.forall_mem_cons.1 hy
      obtain ⟨hw, hz⟩ := List.forall_mem_cons.1 hz
      exact .cons (ihx _ hv _ hw he he') (ihs ih hy hz hs')

/-- Equality is symmetric where no document repeats a name. -/
theorem Distinct.eqv_symm (hv : v.Distinct) (hw : w.Distinct) (h : eqv v w = true) :
    eqv w v = true := by
  induction hv generalizing w with
  | null =>
    obtain rfl := null_eqv_iff.1 h
    rfl
  | bool | int => exact eqv_symm_of_number? rfl h
  | float d =>
    obtain ⟨a, ha⟩ := number?_of_float_eqv h
    exact eqv_symm_of_number? ha h
  | text s =>
    obtain rfl := text_eqv_iff.1 h
    exact text_eqv_iff.2 rfl
  | list hx ih =>
    obtain ⟨ys, rfl, h⟩ := list_eqv_iff.1 h
    cases hw with
    | list hy => exact list_eqv_iff.2 ⟨_, rfl, eqvList_symm (fun v hm w => ih v hm) hy h⟩
  | tuple hx ih =>
    obtain ⟨ys, rfl, h⟩ := tuple_eqv_iff.1 h
    cases hw with
    | tuple hy => exact tuple_eqv_iff.2 ⟨_, rfl, eqvList_symm (fun v hm w => ih v hm) hy h⟩
  | @doc xs hx hxs ih =>
    obtain ⟨ys, rfl⟩ := eq_doc_of_eqv h
    cases hw with
    | doc hy hys =>
      refine (doc_eqv_iff hy hx).2 fun name => ?_
      have hname := (doc_eqv_iff hx hy).1 h name
      rw [AgreeAt] at hname ⊢
      generalize hv : Assoc.get? xs name = first at hname ⊢
      generalize hw : Assoc.get? ys name = second at hname ⊢
      cases hname with
      | none => exact .none
      | some he => exact .some (ih _ (Assoc.mem_of_get? hv) (hys _ (Assoc.mem_of_get? hw)) he)

/-- Equality is transitive where no document repeats a name. -/
theorem Distinct.eqv_trans (hu : u.Distinct) (hv : v.Distinct) (hw : w.Distinct)
    (h : eqv u v = true) (h' : eqv v w = true) : eqv u w = true := by
  induction hu generalizing v w with
  | null =>
    obtain rfl := null_eqv_iff.1 h
    exact h'
  | bool | int => exact eqv_trans_of_number? rfl h h'
  | float d =>
    obtain ⟨a, ha⟩ := number?_of_float_eqv h
    exact eqv_trans_of_number? ha h h'
  | text s =>
    obtain rfl := text_eqv_iff.1 h
    exact h'
  | list hx ih =>
    obtain ⟨ys, rfl, h⟩ := list_eqv_iff.1 h
    obtain ⟨zs, rfl, h'⟩ := list_eqv_iff.1 h'
    cases hv with
    | list hy =>
      cases hw with
      | list hz =>
        have hxz := eqvList_trans (fun u hm v hv w hw => ih u hm hv hw) hy hz h h'
        exact list_eqv_iff.2 ⟨zs, rfl, hxz⟩
  | tuple hx ih =>
    obtain ⟨ys, rfl, h⟩ := tuple_eqv_iff.1 h
    obtain ⟨zs, rfl, h'⟩ := tuple_eqv_iff.1 h'
    cases hv with
    | tuple hy =>
      cases hw with
      | tuple hz =>
        have hxz := eqvList_trans (fun u hm v hv w hw => ih u hm hv hw) hy hz h h'
        exact tuple_eqv_iff.2 ⟨zs, rfl, hxz⟩
  | @doc xs hx hxs ih =>
    obtain ⟨ys, rfl⟩ := eq_doc_of_eqv h
    obtain ⟨zs, rfl⟩ := eq_doc_of_eqv h'
    cases hv with
    | doc hy hys =>
      cases hw with
      | doc hz hzs =>
        refine (doc_eqv_iff hx hz).2 fun name => ?_
        have hname := (doc_eqv_iff hx hy).1 h name
        have hname' := (doc_eqv_iff hy hz).1 h' name
        rw [AgreeAt] at hname hname' ⊢
        generalize hu : Assoc.get? xs name = first at hname ⊢
        generalize hv : Assoc.get? ys name = second at hname hname'
        generalize hw : Assoc.get? zs name = third at hname' ⊢
        cases hname with
        | none => exact hname'
        | some he =>
          cases hname' with
          | some he' =>
            exact .some (ih _ (Assoc.mem_of_get? hu) (hys _ (Assoc.mem_of_get? hv))
              (hzs _ (Assoc.mem_of_get? hw)) he he')

end Value

end Provisioner
