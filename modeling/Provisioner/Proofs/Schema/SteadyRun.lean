import Provisioner.Proofs.Schema.StepwiseAttempt
import Provisioner.Proofs.Store.CarefulServer

/-!
# Contents that look alike

Two stores look alike to whoever asks about one database if they differ at most in whether this
database has come to be known. Nothing that is answered depends on more than that, so work that
keeps to the database has the same result whichever of the two it starts from, and ends in contents
that look alike again.

## Main definitions

* `Store.LooksLike` — two stores are the same once a database is known in both
* `Handler.Determined` — calls that address a database are answered alike where it looks alike
* `Schema.Steady` — an attempt has the same result, and ends alike, from all contents that look
  alike

## Main results

* `Server.determined` — the answers of the server are determined
* `Schema.stepwise_steady` — what comes before the announcement is steady
-/

namespace Provisioner

namespace Store

/-- Two stores are the same once a database is known in both. -/
def LooksLike (database : String) (s t : Store) : Prop := s.enter database = t.enter database

variable {database collection : String} {s t u : Store}

theorem LooksLike.refl (database : String) (s : Store) : LooksLike database s s := rfl

theorem LooksLike.symm (h : LooksLike database s t) : LooksLike database t s := Eq.symm h

theorem LooksLike.trans (h : LooksLike database s t) (h' : LooksLike database t u) :
    LooksLike database s u :=
  Eq.trans h h'

theorem Reached.looksLike (h : Reached database s t) : LooksLike database s t := by
  rcases h with rfl | rfl
  · rfl
  · exact (enter_of_mem (Assoc.mem_keys_set s database _)).symm

theorem LooksLike.collections (h : LooksLike database s t) (other : String) :
    s.collections other = t.collections other := by
  rw [← collections_enter s database, h, collections_enter]

theorem LooksLike.indexes? (h : LooksLike database s t) (other collection : String) :
    s.indexes? other collection = t.indexes? other collection := by
  rw [Store.indexes?, h.collections, Store.indexes?]

theorem LooksLike.putIndexes (h : LooksLike database s t) (collection : String) (xs : Indexes) :
    s.putIndexes database collection xs = t.putIndexes database collection xs := by
  rw [← putIndexes_enter s, h, putIndexes_enter]

theorem LooksLike.indexesOrFresh (h : LooksLike database s t) (collection : String) :
    s.indexesOrFresh database collection = t.indexesOrFresh database collection := by
  rw [Store.indexesOrFresh, h.indexes?, Store.indexesOrFresh]

/-- Where a collection of the database exists, contents that look alike are the same. -/
theorem LooksLike.eq_of_indexes? {other : String} {xs ys : Indexes} (h : LooksLike database s t)
    (hs : s.indexes? database collection = some xs) (ht : t.indexes? database other = some ys) :
    s = t :=
  (enter_of_indexes? hs).symm.trans (Eq.trans h (enter_of_indexes? ht))

end Store

open Store

/-- A handler under which a call that addresses the database is answered alike in states whose
contents look alike, and leaves contents that look alike. -/
def Handler.Determined {σ : Type} (answer : Handler σ) (store : σ → Store) (database : String) :
    Prop :=
  ∀ (c : Call) a b, c.database? = some database → LooksLike database (store a) (store b) →
    (answer c a).1 = (answer c b).1
      ∧ LooksLike database (store (answer c a).2) (store (answer c b).2)

namespace Server

/-- The outcome of a call that settles on contents, and these contents, are determined. -/
theorem looksLike_settle {database : String} {s t : Server} {outcome : Except Error Store}
    (h : LooksLike database s.store t.store) :
    (settle s outcome).1 = (settle t outcome).1
      ∧ LooksLike database (settle s outcome).2.store (settle t outcome).2.store := by
  cases outcome with
  | ok store => exact ⟨rfl, .refl _ _⟩
  | error e => exact ⟨rfl, h⟩

theorem determined (database : String) : Handler.Determined answer Server.store database := by
  intro c a b hc h
  have hr : LooksLike database (a.reach database).store (b.reach database).store := by
    show (a.store.enter database).enter database = (b.store.enter database).enter database
    rw [show a.store.enter database = b.store.enter database from h]
  cases c with
  | openClient | ping | close => exact nomatch hc
  | openDatabase client name => exact ⟨rfl, h⟩
  | listCollections other =>
    obtain rfl := Option.some.inj hc
    exact ⟨congrArg (Except.ok ∘ Assoc.keys) (h.collections other), hr⟩
  | createCollection other name =>
    obtain rfl := Option.some.inj hc
    have hcreate : createCollection a.store other name = createCollection b.store other name := by
      rw [createCollection, h.indexes?, h.putIndexes, createCollection]
    simp only [answer, hcreate]
    exact looksLike_settle hr
  | listIndexes other collection =>
    obtain rfl := Option.some.inj hc
    refine ⟨congrArg Except.ok ?_, hr⟩
    rw [Store.indexes, h.indexes?, Store.indexes]
  | createIndex other collection keys options =>
    obtain rfl := Option.some.inj hc
    have hcreate : createIndex a.store other collection keys options
        = createIndex b.store other collection keys options := by
      simp only [createIndex, h.indexesOrFresh, h.putIndexes]
    simp only [answer, hcreate]
    exact ⟨trivial, .refl _ _⟩
  | expireIndex other collection index seconds =>
    obtain rfl := Option.some.inj hc
    have hexpire : expireIndex a.store other collection index seconds
        = expireIndex b.store other collection index seconds := by
      simp only [expireIndex, h.indexes?, h.putIndexes]
    simp only [answer, hexpire]
    exact looksLike_settle hr

end Server

namespace Schema

open Attempt Procedure

variable {α β σ : Type} {answer : Handler σ} {store : σ → Store} {database : String}

/-- An attempt that has the same result from all contents that look alike, and ends in contents that
look alike. -/
def Steady (answer : Handler σ) (store : σ → Store) (database : String) (x : Attempt α) : Prop :=
  ∀ a b, LooksLike database (store a) (store b) → result answer x a = result answer x b
    ∧ LooksLike database (store (final answer x a)) (store (final answer x b))

theorem Steady.bind {x : Attempt α} {f : α → Attempt β} (hx : Steady answer store database x)
    (hf : ∀ v, Steady answer store database (f v)) :
    Steady answer store database (x >>= f : Attempt β) := by
  intro a b h
  obtain ⟨hr, hfinal⟩ := hx a b h
  cases hb : result answer x b with
  | ok v =>
    rw [hb] at hr
    rw [result_bind_of_ok hr, result_bind_of_ok hb, final_bind_of_ok hr, final_bind_of_ok hb]
    exact hf v _ _ hfinal
  | error e =>
    rw [hb] at hr
    rw [result_bind_of_error hr, result_bind_of_error hb, final_bind_of_error hr,
      final_bind_of_error hb]
    exact ⟨rfl, hfinal⟩

/-- What keeps to a database is steady. -/
theorem stepwise_steady (h : answer.Determined store database) :
    Stepwise database fun _ x => Steady answer store database x where
  pure _ _ _ hab := ⟨rfl, hab⟩
  bind := Steady.bind
  read _ _ _ hab := ⟨rfl, hab⟩
  record _ _ _ _ _ hab := ⟨rfl, hab⟩
  call c hc a b hab := h c a b hc hab

end Schema

end Provisioner
