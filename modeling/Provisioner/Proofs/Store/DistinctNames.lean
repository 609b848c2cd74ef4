import Provisioner.Proofs.Assoc.Order
import Provisioner.Store.Basic

/-!
# Contents of a store without repeated names

Databases, collections, indexes and the entries of an index are all found by name, so none of
these names is ever repeated. The type of a store does not say so. `Store.Distinct` does, and all
writing keeps it.

## Main definitions

* `Indexes.Distinct`, `Store.Distinct` — no name is repeated
* `Store.Reached` — somebody may have turned to a database
* `Store.Within` — nothing outside some collections of a database has been touched

## Main results

* `Store.Distinct.putIndexes`, `Distinct.reached` — no name comes to be repeated
* `Store.Reached.indexes?` — who only turns to a database sees what was there before
-/

namespace Provisioner

namespace Indexes

/-- No name is repeated among the indexes, nor among the entries of one of them. -/
abbrev Distinct : Indexes → Prop := Assoc.NodupAll Assoc.NodupKeys

theorem nodupKeys_record (ps : List (Value × Value)) (options : Document) :
    Assoc.NodupKeys (record ps options) :=
  .ofList _

theorem distinct_fresh : Distinct fresh :=
  ⟨by simp [Assoc.NodupKeys, fresh], by simpa [fresh] using nodupKeys_record _ _⟩

end Indexes

namespace Store

variable {s t : Store} {database collection : String} {xs : Indexes}

/-- No name is repeated at any level. -/
abbrev Distinct : Store → Prop := Assoc.NodupAll (Assoc.NodupAll Indexes.Distinct)

theorem Distinct.collections (h : Distinct s) (database : String) :
    Assoc.NodupAll Indexes.Distinct (s.collections database) := by
  cases hd : Assoc.get? s database with
  | none => simpa [Store.collections, hd] using Assoc.NodupAll.nil
  | some d => simpa [Store.collections, hd] using h.of_get? hd

theorem Distinct.indexes? (h : Distinct s) (hx : s.indexes? database collection = some xs) :
    xs.Distinct :=
  (h.collections database).of_get? hx

theorem Distinct.indexes (h : Distinct s) (database collection : String) :
    (s.indexes database collection).Distinct := by
  cases hx : s.indexes? database collection with
  | none => simpa [Store.indexes, hx] using Assoc.NodupAll.nil
  | some xs => simpa [Store.indexes, hx] using h.indexes? hx

theorem Distinct.indexesOrFresh (h : Distinct s) (database collection : String) :
    (s.indexesOrFresh database collection).Distinct := by
  cases hx : s.indexes? database collection with
  | none => simpa [Store.indexesOrFresh, hx] using Indexes.distinct_fresh
  | some xs => simpa [Store.indexesOrFresh, hx] using h.indexes? hx

theorem Distinct.putIndexes (h : Distinct s) (hx : xs.Distinct) :
    Distinct (s.putIndexes database collection xs) :=
  h.set ((h.collections database).set hx)

theorem Distinct.enter (h : Distinct s) (database : String) : Distinct (s.enter database) :=
  h.set (h.collections database)

/-! ### Reading and writing -/

theorem mem_keys_of_indexes? (h : s.indexes? database collection = some xs) :
    database ∈ Assoc.keys s := by
  refine Decidable.by_contra fun hn => ?_
  simp [Store.indexes?, Store.collections, Assoc.get?_eq_none_iff.2 hn] at h

theorem indexes_of_indexes? (h : s.indexes? database collection = some xs) :
    s.indexes database collection = xs := by
  rw [Store.indexes, h, Option.getD_some]

theorem indexesOrFresh_of_indexes? (h : s.indexes? database collection = some xs) :
    s.indexesOrFresh database collection = xs := by
  rw [Store.indexesOrFresh, h, Option.getD_some]

/-- A database with a collection is known. -/
theorem enter_of_indexes? (h : s.indexes? database collection = some xs) :
    s.enter database = s :=
  enter_of_mem (mem_keys_of_indexes? h)

/-- Writing what is there changes nothing. -/
theorem putIndexes_of_indexes? (h : s.indexes? database collection = some xs) :
    s.putIndexes database collection xs = s := by
  rw [Store.putIndexes, Assoc.set_of_get? h]
  exact enter_of_indexes? h

theorem putIndexes_putIndexes_self (s : Store) (database collection : String)
    (xs ys : Indexes) :
    (s.putIndexes database collection xs).putIndexes database collection ys
      = s.putIndexes database collection ys := by
  simp [Store.putIndexes]

@[simp] theorem indexes_putIndexes_self (s : Store) (database collection : String)
    (xs : Indexes) : (s.putIndexes database collection xs).indexes database collection = xs := by
  simp [Store.indexes]

theorem indexes_putIndexes_of_ne {other : String} (xs : Indexes) (h : other ≠ collection) :
    (s.putIndexes database collection xs).indexes database other
      = s.indexes database other := by
  simp [Store.indexes, indexes?_putIndexes_of_ne xs h]

@[simp] theorem indexesOrFresh_putIndexes_self (s : Store) (database collection : String)
    (xs : Indexes) :
    (s.putIndexes database collection xs).indexesOrFresh database collection = xs := by
  simp [Store.indexesOrFresh]

theorem indexesOrFresh_putIndexes_of_ne {other : String} (xs : Indexes)
    (h : other ≠ collection) :
    (s.putIndexes database collection xs).indexesOrFresh database other
      = s.indexesOrFresh database other := by
  simp [Store.indexesOrFresh, indexes?_putIndexes_of_ne xs h]

/-! ### Turning to a database -/

/-- The store is as it was, or a database has come to be known in it. -/
def Reached (database : String) (s t : Store) : Prop := t = s ∨ t = s.enter database

theorem Reached.refl (database : String) (s : Store) : Reached database s s := .inl rfl

theorem Reached.collections (h : Reached database s t) (other : String) :
    t.collections other = s.collections other := by
  rcases h with rfl | rfl
  · rfl
  · exact collections_enter s database other

theorem Reached.indexes? (h : Reached database s t) (other collection : String) :
    t.indexes? other collection = s.indexes? other collection := by
  rw [Store.indexes?, h.collections, Store.indexes?]

theorem Reached.indexes (h : Reached database s t) (other collection : String) :
    t.indexes other collection = s.indexes other collection := by
  rw [Store.indexes, h.indexes?, Store.indexes]

theorem Reached.putIndexes (h : Reached database s t) (collection : String) (xs : Indexes) :
    t.putIndexes database collection xs = s.putIndexes database collection xs := by
  rcases h with rfl | rfl
  · rfl
  · exact putIndexes_enter s database collection xs

theorem Reached.trans {u : Store} (h : Reached database s t) (h' : Reached database t u) :
    Reached database s u := by
  rcases h with rfl | rfl
  · exact h'
  · have hu : (s.enter database).enter database = s.enter database :=
      enter_of_mem (Assoc.mem_keys_set s database _)
    rcases h' with rfl | rfl
    · exact .inr rfl
    · exact .inr hu

/-- Where a collection is known, turning to its database changes nothing. -/
theorem Reached.eq_of_indexes? {other : String} {ys : Indexes} (h : Reached database s t)
    (hy : s.indexes? database other = some ys) : t = s := by
  rcases h with rfl | rfl
  · rfl
  · exact enter_of_indexes? hy

theorem Distinct.reached (h : Distinct s) (hr : Reached database s t) : Distinct t := by
  rcases hr with rfl | rfl
  · exact h
  · exact h.enter database

/-! ### Working on some collections -/

section Within

variable {names : List String} {u : Store}

/-- Outside the named collections of one database everything is as it was and where it was. -/
structure Within (database : String) (names : List String) (s t : Store) : Prop where
  elsewhere : Assoc.without t [database] = Assoc.without s [database]
  databases : Assoc.keys s <+: Assoc.keys t
  others : Assoc.without (t.collections database) names
    = Assoc.without (s.collections database) names
  collections : Assoc.keys (s.collections database) <+: Assoc.keys (t.collections database)

theorem Within.refl (database : String) (names : List String) (s : Store) :
    Within database names s s :=
  ⟨rfl, List.prefix_rfl, rfl, List.prefix_rfl⟩

theorem Within.trans (h : Within database names s t) (h' : Within database names t u) :
    Within database names s u where
  elsewhere := h'.elsewhere.trans h.elsewhere
  databases := h.databases.trans h'.databases
  others := h'.others.trans h.others
  collections := h.collections.trans h'.collections

theorem within_of_reached (h : Reached database s t) : Within database names s t := by
  rcases h with rfl | rfl
  · exact .refl database names _
  · have hc := collections_enter s database database
    exact ⟨Assoc.without_set s _ (by simp), Assoc.keys_prefix_set s database _, by rw [hc],
      hc.symm ▸ List.prefix_rfl⟩

theorem within_putIndexes (hc : collection ∈ names) (s : Store) (xs : Indexes) :
    Within database names s (s.putIndexes database collection xs) := by
  have hself : (s.putIndexes database collection xs).collections database
      = Assoc.set (s.collections database) collection xs := collections_set_self s database _
  refine ⟨Assoc.without_set s _ (by simp), Assoc.keys_prefix_set s database _, ?_, ?_⟩
  · rw [hself]
    exact Assoc.without_set _ xs hc
  · rw [hself]
    exact Assoc.keys_prefix_set _ collection xs

end Within

end Store

end Provisioner
