import Provisioner.Proofs.Schema.StepwiseAttempt
import Provisioner.Proofs.Schema.IndexStep

/-!
# Collections that do not matter to each other

Bringing a collection into being lists the names of all collections and looks at the indexes of its
own only. Of the list it uses no more than whether its own name is in it. So it goes the same way,
call by call, whatever else the store holds, and it touches nothing else. Two collections can
therefore be brought into being in either order, and the failure of one of them is no concern of the
other, although both of them may declare indexes of the same name.

That nothing else is touched holds of every careful server, whatever faults it has. That nothing
else is felt holds of a server without faults: a fault may count the calls that concern others.

## Main definitions

* `Store.Agree` — two stores have the same collection, or both of them have none
* `Schema.Twin` — an attempt is the same from two states, as far as one collection is concerned
* `Schema.Exchanged` — two collections brought into being in either order

## Main results

* `Schema.within_createCollection` — nothing else is touched
* `Schema.twin_createCollection` — nothing else is felt
* `Schema.independent_createCollection` — collections are independent of each other
-/

namespace Provisioner

namespace Store

variable {database collection : String} {names : List String} {s t u : Store}

/-- Both stores have the collection, with the same indexes in the same order, or neither has it. -/
def Agree (database collection : String) (s t : Store) : Prop :=
  s.indexes? database collection = t.indexes? database collection

/-- Who works on some collections leaves the others as they are. -/
theorem Within.agree (h : Within database names s t) (hc : collection ∉ names) :
    Agree database collection s t := by
  rw [Agree, Store.indexes?, ← Assoc.get?_without _ hc, ← h.others, Assoc.get?_without _ hc,
    Store.indexes?]

theorem Agree.indexesOrFresh (h : Agree database collection s t) :
    s.indexesOrFresh database collection = t.indexesOrFresh database collection := by
  rw [Store.indexesOrFresh, h, Store.indexesOrFresh]

/-- A collection is listed if it exists, so it is listed in both stores or in neither. -/
theorem Agree.mem_keys_iff (h : Agree database collection s t) :
    collection ∈ Assoc.keys (s.collections database)
      ↔ collection ∈ Assoc.keys (t.collections database) := by
  have hlisted : ∀ s : Store, collection ∉ Assoc.keys (s.collections database)
      ↔ s.indexes? database collection = none := fun _ => Assoc.get?_eq_none_iff.symm
  rw [← not_iff_not, hlisted, hlisted, h]

theorem agree_putIndexes (database collection : String) (xs : Indexes) (s t : Store) :
    Agree database collection (s.putIndexes database collection xs)
      (t.putIndexes database collection xs) := by
  rw [Agree, indexes?_putIndexes_self, indexes?_putIndexes_self]

theorem Agree.enter (h : Agree database collection s t) :
    Agree database collection (s.enter database) (t.enter database) := by
  rwa [Agree, indexes?_enter, indexes?_enter]

end Store

open Store

/-- What a call upon one of the collections allows stays within them. -/
theorem Call.Allows.within {c : Call} {database : String} {names : List String} {s t : Store}
    {outcome : Except Error c.Answer} (h : c.Allows s outcome t)
    (hd : c.database? = some database) (hc : ∀ name, c.collection? = some name → name ∈ names) :
    Within database names s t := by
  cases c with
  | openClient | ping | close => exact nomatch hd
  | openDatabase => exact h ▸ .refl database names s
  | listCollections | listIndexes =>
    obtain rfl := Option.some.inj hd
    exact within_of_reached h.1
  | createCollection other name =>
    obtain rfl := Option.some.inj hd
    rcases h with hr | ⟨-, rfl⟩
    · exact within_of_reached hr
    · exact within_putIndexes (hc _ rfl) s _
  | createIndex other collection keys options =>
    obtain rfl := Option.some.inj hd
    rcases h with hr | ⟨added, rfl⟩
    · exact within_of_reached hr
    · exact within_putIndexes (hc _ rfl) s _
  | expireIndex other collection index seconds =>
    obtain rfl := Option.some.inj hd
    rcases h with hr | ⟨xs, info, -, -, rfl⟩
    · exact within_of_reached hr
    · exact within_putIndexes (hc _ rfl) s _

namespace Server

/-- Settling on the same contents of a collection, or on none. -/
theorem agree_settle {database collection : String} {a b : Server} {x y : Except Error Store}
    (hs : Agree database collection a.store b.store)
    (h : (∃ e, x = .error e ∧ y = .error e)
      ∨ ∃ s t, x = .ok s ∧ y = .ok t ∧ Agree database collection s t) :
    (settle a x).1 = (settle b y).1
      ∧ Agree database collection (settle a x).2.store (settle b y).2.store := by
  rcases h with ⟨e, rfl, rfl⟩ | ⟨s, t, rfl, rfl, h⟩
  · exact ⟨rfl, hs⟩
  · exact ⟨rfl, h⟩

/-- A call upon a collection is answered from this collection alone, and leaves it the same. -/
theorem agree_answer {c : Call} {database collection : String} {a b : Server}
    (hd : c.database? = some database) (hc : c.collection? = some collection)
    (h : Agree database collection a.store b.store) :
    (answer c a).1 = (answer c b).1
      ∧ Agree database collection (answer c a).2.store (answer c b).2.store := by
  have hr : Agree database collection (a.reach database).store (b.reach database).store := h.enter
  cases c with
  | openClient | ping | close | openDatabase | listCollections => exact nomatch hc
  | createCollection other name =>
    obtain rfl := Option.some.inj hd
    obtain rfl := Option.some.inj hc
    refine agree_settle hr ?_
    rw [createCollection, createCollection, ← h]
    cases a.store.indexes? other name with
    | some xs => exact .inl ⟨_, rfl, rfl⟩
    | none => exact .inr ⟨_, _, rfl, rfl, agree_putIndexes other name _ _ _⟩
  | listIndexes other name =>
    obtain rfl := Option.some.inj hd
    obtain rfl := Option.some.inj hc
    refine ⟨congrArg Except.ok ?_, hr⟩
    rw [Store.indexes, h, Store.indexes]
  | createIndex other name keys options =>
    obtain rfl := Option.some.inj hd
    obtain rfl := Option.some.inj hc
    simp only [answer, createIndex, ← h.indexesOrFresh]
    cases (a.store.indexesOrFresh other name).create keys options with
    | ok xs => exact ⟨rfl, agree_putIndexes other name xs _ _⟩
    | error e => exact ⟨rfl, agree_putIndexes other name _ _ _⟩
  | expireIndex other name index seconds =>
    obtain rfl := Option.some.inj hd
    obtain rfl := Option.some.inj hc
    refine agree_settle hr ?_
    rw [expireIndex, expireIndex, ← h]
    cases a.store.indexes? other name with
    | none => exact .inl ⟨_, rfl, rfl⟩
    | some xs =>
      cases hx : xs.expire index seconds with
      | error e => exact .inl ⟨e, by simp [hx, Except.map], by simp [hx, Except.map]⟩
      | ok ys =>
        refine .inr ⟨a.store.putIndexes other name ys, b.store.putIndexes other name ys, ?_, ?_,
          agree_putIndexes other name ys _ _⟩
        · simp [hx, Except.map]
        · simp [hx, Except.map]

end Server

namespace Schema

open Attempt Procedure

variable {α β σ : Type} {answer : Handler σ} {store : σ → Store}
  {target database collection first second : String} {names : List String} {a b : Server}

/-! ### Nothing else is touched -/

/-- An attempt that touches nothing outside some collections of a database. -/
def Touches (answer : Handler σ) (store : σ → Store) (database : String) (names : List String)
    (x : Attempt α) : Prop :=
  ∀ a, Within database names (store a) (store (final answer x a))

theorem touches_call (h : answer.Careful store) {c : Call} (hd : c.database? = some database)
    (hc : ∀ name, c.collection? = some name → name ∈ names) :
    Touches answer store database names (call c) := fun a => (h.allowed c a).within hd hc

/-- What concerns one of the collections touches nothing else. -/
theorem collectionwise_touches (h : answer.Careful store) (hc : collection ∈ names) :
    Collectionwise database collection fun _ x => Touches answer store database names x where
  pure _ _ := .refl ..
  bind hx hf a := final_bind_rel (R := fun a b => Within database names (store a) (store b))
    Within.trans (hx a) fun v _ => hf v _
  read _ _ := .refl ..
  record _ _ _ _ := .refl ..
  call _ hd hn := touches_call h hd fun _ hname => Option.some.inj (hn.symm.trans hname) ▸ hc

/-- Bringing a collection into being touches nothing else, whatever faults the server has. -/
theorem within_createCollection (h : answer.Careful store) (hc : collection ∈ names) (a : σ) :
    Within database names (store a)
      (store (final answer (createCollection database collection) a)) := by
  have htouches : Collectionwise database collection fun _ x =>
      Touches answer store database names x := collectionwise_touches h hc
  refine htouches.createCollection (htouches.bind (touches_call h rfl nofun) fun existing => ?_) a
  split
  · exact htouches.bind (fun _ => .refl ..) fun _ => htouches.pure _
  · refine htouches.bind (htouches.call _ rfl rfl) fun _ => ?_
    exact htouches.bind (fun _ => .refl ..) fun _ => htouches.pure _

/-! ### Nothing else is felt -/

/-- From two states that agree on a collection an attempt has the same result and leaves the same
trace, and the states in which it ends agree again. -/
structure Twin (database collection : String) (x : Attempt α) (a b : Server) : Prop where
  result : result Server.answer x a = result Server.answer x b
  trace : trace Server.answer x a = trace Server.answer x b
  agree : Agree database collection (final Server.answer x a).store (final Server.answer x b).store

/-- After the same success, or different ones from which the work goes on in the same way, the rest
decides. -/
theorem Twin.after {x : Attempt α} {f : α → Attempt β} {v w : α}
    (ha : Procedure.result Server.answer x a = .ok v)
    (hb : Procedure.result Server.answer x b = .ok w)
    (ht : Procedure.trace Server.answer x a = Procedure.trace Server.answer x b) (hf : f v = f w)
    (h : Twin database collection (f w) (final Server.answer x a) (final Server.answer x b)) :
    Twin database collection (x >>= f : Attempt β) a b where
  result := by
    rw [result_bind_of_ok ha, result_bind_of_ok hb, hf]
    exact h.result
  trace := by
    rw [trace_bind_of_ok ha, trace_bind_of_ok hb, hf, ht, h.trace]
  agree := by
    rw [final_bind_of_ok ha, final_bind_of_ok hb, hf]
    exact h.agree

theorem Twin.bind {x : Attempt α} {f : α → Attempt β} (hx : Twin database collection x a b)
    (hf : ∀ v, Twin database collection (f v) (final Server.answer x a)
      (final Server.answer x b)) :
    Twin database collection (x >>= f : Attempt β) a b := by
  cases hb : Procedure.result Server.answer x b with
  | ok v => exact .after (hx.result.trans hb) hb hx.trace rfl (hf v)
  | error e =>
    have ha := hx.result.trans hb
    refine ⟨?_, ?_, ?_⟩
    · rw [result_bind_of_error ha, result_bind_of_error hb]
    · rw [trace_bind_of_error ha, trace_bind_of_error hb, hx.trace]
    · rw [final_bind_of_error ha, final_bind_of_error hb]
      exact hx.agree

/-- An attempt to which nothing matters but one collection. -/
def Insulated (database collection : String) (x : Attempt α) : Prop :=
  ∀ a b : Server, Agree database collection a.store b.store → Twin database collection x a b

/-- To what concerns a collection nothing else matters. -/
theorem collectionwise_insulated (database collection : String) :
    Collectionwise database collection fun _ x => Insulated database collection x where
  pure _ _ _ h := ⟨rfl, rfl, h⟩
  bind hx hf a b h := (hx a b h).bind fun v => hf v _ _ (hx a b h).agree
  read _ _ _ h := ⟨rfl, rfl, h⟩
  record _ _ _ _ _ h := ⟨rfl, rfl, h⟩
  call c hd hc a b h := by
    obtain ⟨hr, hagree⟩ := Server.agree_answer hd hc h
    refine ⟨hr, ?_, hagree⟩
    rw [trace_call, trace_call, hr]

/-- The names of the collections differ, but not in whether the collection is among them. -/
theorem insulated_ensureCollection (database collection : String) :
    Insulated database collection (ensureCollection database collection) := by
  have hc := collectionwise_insulated database collection
  intro a b h
  have hmem := h.mem_keys_iff
  refine .after rfl rfl rfl ?_ ?_
  · by_cases hb : collection ∈ Assoc.keys (b.store.collections database)
    · simp only [hmem.2 hb, hb, if_true]
    · simp only [mt hmem.1 hb, hb, if_false]
  · refine (?_ : Insulated database collection _) _ _ h.enter
    split
    · exact hc.bind (fun _ _ h => ⟨rfl, rfl, h⟩) fun _ => hc.pure _
    · refine hc.bind (hc.call _ rfl rfl) fun _ => ?_
      exact hc.bind (fun _ _ h => ⟨rfl, rfl, h⟩) fun _ => hc.pure _

/-- To bringing a collection into being nothing else matters. -/
theorem twin_createCollection (h : Agree database collection a.store b.store) :
    Twin database collection (createCollection database collection) a b :=
  (collectionwise_insulated database collection).createCollection
    (insulated_ensureCollection database collection) a b h

/-! ### One after the other -/

/-- The state after a collection has been brought into being, or the attempt has failed. -/
def left (target collection : String) (a : Server) : Server :=
  final Server.answer (createCollection target collection) a

/-- Of two collections, brought into being in either order, each goes the way that it goes alone.
In the end all collections are the same whichever comes first, and nothing but the two has been
touched. -/
structure Exchanged (target first second : String) (a : Server) : Prop where
  former : Twin target first (createCollection target first) (left target second a) a
  latter : Twin target second (createCollection target second) (left target first a) a
  same : ∀ collection, Agree target collection (left target second (left target first a)).store
    (left target first (left target second a)).store
  within : Within target [first, second] a.store (left target second (left target first a)).store
  within' : Within target [first, second] a.store (left target first (left target second a)).store

/-- The contents of a collection are not affected by bringing another one into being. -/
theorem agree_left {other : String} (h : collection ≠ other) (target : String) (a : Server) :
    Agree target collection (left target other a).store a.store :=
  Eq.symm ((within_createCollection Server.careful (List.mem_singleton_self other) a).agree
    (by simpa using h))

theorem exchanged_of_ne (h : first ≠ second) (target : String) (a : Server) :
    Exchanged target first second a := by
  have hwithin : ∀ {name}, name ∈ [first, second] → ∀ a : Server,
      Within target [first, second] a.store (left target name a).store :=
    fun hn a => within_createCollection Server.careful hn a
  have hfirst := twin_createCollection (agree_left h target a)
  have hsecond := twin_createCollection (agree_left h.symm target a)
  refine ⟨hfirst, hsecond, fun collection => ?_, ?_, ?_⟩
  · by_cases hc : collection = first
    · subst hc
      exact (agree_left h target _).trans hfirst.agree.symm
    · by_cases hc' : collection = second
      · subst hc'
        exact hsecond.agree.trans (agree_left hc target _).symm
      · have hother : ∀ b : Server, Agree target collection (left target first b).store b.store :=
          agree_left hc target
        have hother' : ∀ b : Server, Agree target collection (left target second b).store b.store :=
          agree_left hc' target
        exact ((hother' _).trans (hother _)).trans ((hother _).trans (hother' _)).symm
  · exact (hwithin (by simp) _).trans (hwithin (by simp) _)
  · exact (hwithin (by simp) _).trans (hwithin (by simp) _)

/-- **Collections are independent of each other.** From any two contents that agree on a collection,
bringing it into being counts the same or fails with the same error, after the same calls and
records, and leaves the collection the same in both; everything else is left as it was. Therefore
credentials and sessions come out the same in either order, even if one of them fails. -/
theorem independent_createCollection (target : String) :
    (∀ collection (a b : Server), Agree target collection a.store b.store →
      Twin target collection (createCollection target collection) a b)
      ∧ (∀ collection (a : Server), Within target [collection] a.store
          (final Server.answer (createCollection target collection) a).store)
      ∧ ∀ a : Server, Exchanged target credentials sessions a :=
  ⟨fun _ _ _ h => twin_createCollection h,
    fun _ a => within_createCollection Server.careful (List.mem_singleton_self _) a,
    fun a => exchanged_of_ne (by decide) target a⟩

/-- A server whose sessions have an index under the name of a declared one. -/
def misnamedServer : Server where
  store := [("appdb", [
    (sessions, [("user_id_1", [("key", .doc [("user", .int 1)])])])])]
  clients := 0

/-- A server with the same sessions and much else. -/
def populatedServer : Server where
  store := [
    ("audit", [(sessions, [])]),
    ("appdb", [
      (credentials, [("user_id_1", [("key", .doc [("user_id", .int (-1))])])]),
      (sessions, [("user_id_1", [("key", .doc [("user", .int 1)])])])])]
  clients := 2

/-- The index on the users of the sessions is refused by both servers, after that on the tokens has
been created. -/
theorem independent_misnamed_populated :
    Agree "appdb" sessions misnamedServer.store populatedServer.store
      ∧ result Server.answer (createCollection "appdb" sessions) misnamedServer
        = .error (.rejected (.nameTaken "user_id_1"))
      ∧ Twin "appdb" sessions (createCollection "appdb" sessions)
        misnamedServer populatedServer := by
  have h : Agree "appdb" sessions misnamedServer.store populatedServer.store := rfl
  exact ⟨h, rfl, (independent_createCollection "appdb").1 sessions _ _ h⟩

end Schema

end Provisioner
