import Provisioner.Proofs.Store.IndexRequest
import Provisioner.Store.Fault

/-!
# What is relied on of a server

Little of what a server does matters for the contents that it holds: reading leaves them alone and
is truthful where it is answered, a collection or an index that is asked for is appended or not,
and a time to live is written into the named index or not. Whether a call is granted, refused or
struck by a fault is not said, so a server may fail at any call and for any reason.

## Main definitions

* `Call.Allows` — what may become of the contents with a call, and what may be answered
* `Handler.Careful` — every call is answered and carried out in this way

## Main results

* `Server.careful`, `FaultyServer.careful` — the server is careful, whatever faults it has
-/

namespace Provisioner

open Store

namespace Call

/-- What a call may be answered with, and what may have become of the contents by then. -/
def Allows : (c : Call) → Store → Except Error c.Answer → Store → Prop
  | .openClient _, s, _, t => t = s
  | .ping _, s, _, t => t = s
  | .close _, s, _, t => t = s
  | .openDatabase _ _, s, _, t => t = s
  | .listCollections database, s, outcome, t =>
    Reached database s t
      ∧ ∀ names, outcome = .ok names → names = Assoc.keys (s.collections database)
  | .createCollection database name, s, _, t =>
    Reached database s t
      ∨ s.indexes? database name = none ∧ t = s.putIndexes database name Indexes.fresh
  | .listIndexes database collection, s, outcome, t =>
    Reached database s t ∧ ∀ xs, outcome = .ok xs → xs = s.indexes database collection
  | .createIndex database collection _ _, s, _, t =>
    Reached database s t
      ∨ ∃ added, t = s.putIndexes database collection
          (s.indexesOrFresh database collection ++ added)
  | .expireIndex database collection index seconds, s, _, t =>
    Reached database s t
      ∨ ∃ xs info, s.indexes? database collection = some xs ∧ Assoc.get? xs index = some info
        ∧ t = s.putIndexes database collection
            (Assoc.set xs index (Assoc.set info Index.ttl seconds))

/-- A call may fail without having done anything. -/
theorem allows_error (c : Call) (s : Store) (e : Error) : c.Allows s (.error e) s := by
  cases c with
  | openClient | ping | close | openDatabase => rfl
  | listCollections database | listIndexes database =>
    exact ⟨.refl _ s, fun _ h => nomatch h⟩
  | createCollection database | createIndex database | expireIndex database =>
    exact .inl (.refl _ s)

/-- A call that changes something may be passed over. -/
theorem allows_effectless {c : Call} {a : c.Answer} (h : c.effectless? = some a) (s : Store) :
    c.Allows s (.ok a) s := by
  cases c with
  | openClient | ping | close | openDatabase | listCollections | listIndexes =>
    simp [effectless?] at h
  | createCollection database | createIndex database | expireIndex database =>
    exact .inl (.refl _ s)

end Call

/-- A handler that answers every call, and treats the contents, as a call allows. -/
structure Handler.Careful {σ : Type} (answer : Handler σ) (store : σ → Store) : Prop where
  distinct : ∀ (c : Call) s, (store s).Distinct → (store (answer c s).2).Distinct
  allowed : ∀ (c : Call) s, c.Allows (store s) (answer c s).1 (store (answer c s).2)

namespace Server

theorem expire_eq_ok {xs ys : Indexes} {index : String} {seconds : Value}
    (h : xs.expire index seconds = .ok ys) :
    ∃ info, Assoc.get? xs index = some info
      ∧ ys = Assoc.set xs index (Assoc.set info Index.ttl seconds) := by
  rw [Indexes.expire] at h
  cases hg : Assoc.get? xs index with
  | none => simp [hg] at h
  | some info => exact ⟨info, rfl, by simpa [hg] using h.symm⟩

/-! ### The server is careful -/

/-- What a server keeps: its contents or those that a call has settled on. -/
theorem settle_store (server : Server) (outcome : Except Error Store) :
    (settle server outcome).2.store = server.store
      ∨ ∃ t, outcome = .ok t ∧ (settle server outcome).2.store = t := by
  cases outcome with
  | error e => exact .inl rfl
  | ok t => exact .inr ⟨t, rfl, rfl⟩

theorem createCollection_eq_ok {s t : Store} {database name : String}
    (h : createCollection s database name = .ok t) :
    s.indexes? database name = none ∧ t = s.putIndexes database name Indexes.fresh := by
  rw [createCollection] at h
  cases hx : s.indexes? database name with
  | some xs => simp [hx] at h
  | none => exact ⟨rfl, by simpa [hx] using h.symm⟩

theorem expireIndex_eq_ok {s t : Store} {database collection index : String} {seconds : Value}
    (h : expireIndex s database collection index seconds = .ok t) :
    ∃ xs info, s.indexes? database collection = some xs ∧ Assoc.get? xs index = some info
      ∧ t = s.putIndexes database collection
          (Assoc.set xs index (Assoc.set info Index.ttl seconds)) := by
  rw [expireIndex] at h
  cases hx : s.indexes? database collection with
  | none => simp [hx] at h
  | some xs =>
    simp only [hx] at h
    cases he : xs.expire index seconds with
    | error e => simp [he, Except.map] at h
    | ok ys =>
      obtain ⟨info, hi, rfl⟩ := expire_eq_ok he
      exact ⟨xs, info, rfl, hi, by simpa [he, Except.map] using h.symm⟩

theorem expireIndex_of_get? {s : Store} {database collection index : String} {xs : Indexes}
    {info : Info} (hx : s.indexes? database collection = some xs)
    (hg : Assoc.get? xs index = some info) (seconds : Value) :
    expireIndex s database collection index seconds = .ok (s.putIndexes database collection
      (Assoc.set xs index (Assoc.set info Index.ttl seconds))) := by
  simp [expireIndex, hx, Indexes.expire, hg, Except.map]

/-- A request for an index leaves the collection as it is, or with another index. -/
theorem createIndex_store (s : Store) (database collection : String) (keys : Value)
    (options : Document) :
    ∃ ys, (createIndex s database collection keys options).2 = s.putIndexes database collection ys
      ∧ (ys = s.indexesOrFresh database collection
        ∨ (s.indexesOrFresh database collection).create keys options = .ok ys) := by
  rw [createIndex]
  cases h : (s.indexesOrFresh database collection).create keys options with
  | error e => exact ⟨_, rfl, .inl rfl⟩
  | ok ys => exact ⟨ys, rfl, .inr rfl⟩

theorem distinct_answer (c : Call) (server : Server) (hs : server.store.Distinct) :
    (answer c server).2.store.Distinct := by
  have hr : ∀ database, (server.reach database).store.Distinct := fun database =>
    hs.enter database
  cases c with
  | openClient | ping | close | openDatabase => exact hs
  | listCollections database | listIndexes database => exact hr database
  | createCollection database name =>
    rcases settle_store (server.reach database)
      (createCollection server.store database name) with h | ⟨t, ht, h⟩
    · exact h ▸ hr database
    · obtain ⟨-, rfl⟩ := createCollection_eq_ok ht
      exact h ▸ hs.putIndexes Indexes.distinct_fresh
  | createIndex database collection keys options =>
    obtain ⟨ys, h, hy⟩ := createIndex_store server.store database collection keys options
    have hx := hs.indexesOrFresh database collection
    have hys : ys.Distinct := by
      rcases hy with rfl | hy
      · exact hx
      · exact Indexes.distinct_create hx hy
    show Store.Distinct (createIndex server.store database collection keys options).2
    rw [h]
    exact hs.putIndexes hys
  | expireIndex database collection index seconds =>
    rcases settle_store (server.reach database)
      (expireIndex server.store database collection index seconds) with h | ⟨t, ht, h⟩
    · exact h ▸ hr database
    · obtain ⟨xs, info, hx, hi, rfl⟩ := expireIndex_eq_ok ht
      have hd := hs.indexes? hx
      exact h ▸ hs.putIndexes (hd.set (hd.of_get? hi).set)

theorem allows_answer (c : Call) (server : Server) :
    c.Allows server.store (answer c server).1 (answer c server).2.store := by
  have hr : ∀ database, Reached database server.store (server.reach database).store :=
    fun _ => .inr rfl
  cases c with
  | openClient | ping | close | openDatabase => rfl
  | listCollections database => exact ⟨hr database, fun _ h => (Except.ok.inj h).symm⟩
  | listIndexes database collection => exact ⟨hr database, fun _ h => (Except.ok.inj h).symm⟩
  | createCollection database name =>
    rcases settle_store (server.reach database)
      (createCollection server.store database name) with h | ⟨t, ht, h⟩
    · exact .inl (.inr h)
    · obtain ⟨hx, rfl⟩ := createCollection_eq_ok ht
      exact .inr ⟨hx, h⟩
  | createIndex database collection keys options =>
    obtain ⟨ys, h, hy⟩ := createIndex_store server.store database collection keys options
    refine .inr ?_
    rcases hy with rfl | hy
    · exact ⟨[], h.trans (by rw [List.append_nil])⟩
    · obtain ⟨name, ps, hn, hp⟩ := Indexes.read_of_create hy
      rcases (Indexes.create_eq_ok_iff hn hp).1 hy with ⟨-, rfl⟩ | ⟨-, rfl⟩
      · exact ⟨[], h.trans (by rw [List.append_nil])⟩
      · exact ⟨_, h⟩
  | expireIndex database collection index seconds =>
    rcases settle_store (server.reach database)
      (expireIndex server.store database collection index seconds) with h | ⟨t, ht, h⟩
    · exact .inl (.inr h)
    · obtain ⟨xs, info, hx, hi, rfl⟩ := expireIndex_eq_ok ht
      exact .inr ⟨xs, info, hx, hi, h⟩

theorem careful : Handler.Careful answer Server.store := ⟨distinct_answer, allows_answer⟩

end Server

/-! ### Faults leave it careful -/

/-- What strikes a call is the error of one of the faults, and the faults that are left have errors
that were there before. -/
theorem Fault.forall_strike {P : Option Error → Prop} (c : Call) {faults : List Fault}
    (h : ∀ f ∈ faults, P f.error) :
    (∀ o, (strike c faults).1 = some o → P o) ∧ ∀ f ∈ (strike c faults).2, P f.error := by
  induction faults with
  | nil => exact ⟨by simp, by simp⟩
  | cons f faults ih =>
    obtain ⟨hf, hfs⟩ := List.forall_mem_cons.1 h
    obtain ⟨hstruck, hleft⟩ := ih hfs
    rw [strike]
    split
    · split
      · exact ⟨hstruck, List.forall_mem_cons.2 ⟨hf, hleft⟩⟩
      · split
        · exact ⟨hstruck, List.forall_mem_cons.2 ⟨hf, hleft⟩⟩
        · exact ⟨fun o ho => Option.some.inj ho ▸ hf, List.forall_mem_cons.2 ⟨hf, hfs⟩⟩
    · exact ⟨hstruck, List.forall_mem_cons.2 ⟨hf, hleft⟩⟩

theorem FaultyServer.forward_careful (c : Call) (s : FaultyServer) :
    c.Allows s.server.store (forward c s).1 (forward c s).2.server.store :=
  Server.careful.allowed c s.server

/-- With faults a call is carried out, fails without effect or is passed over. -/
theorem FaultyServer.careful : Handler.Careful answer fun s => s.server.store where
  distinct c s hs := by
    simp only [answer]
    split
    · exact Server.careful.distinct c s.server hs
    · exact hs
    · split
      · exact hs
      · exact Server.careful.distinct c s.server hs
  allowed c s := by
    simp only [answer]
    split
    · exact forward_careful c { s with faults := (Fault.strike c s.faults).2 }
    · exact c.allows_error _ _
    · split
      · exact Call.allows_effectless ‹_› _
      · exact forward_careful c { s with faults := (Fault.strike c s.faults).2 }

end Provisioner
