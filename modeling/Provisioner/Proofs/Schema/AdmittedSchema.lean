import Provisioner.Proofs.Schema.AdmittedDeclaration
import Provisioner.Proofs.Schema.SettledSchema

/-!
# When applying the schema succeeds

Applying the schema succeeds as long as every declaration is admitted by the indexes that its
collection has at first. The contents then differ only by what has been provided for. Otherwise the
work ends at the first declaration that is not admitted, with the answer of the server to the
request for it, and what comes before has been provided for.

## Main definitions

* `Schema.steps` — all declarations, with the collections to which they belong
* `Schema.advanced`, `opened` — the contents with one declaration, or a collection, provided for
* `Schema.completed` — the contents with everything provided for

## Main results

* `Schema.createCollection_of_admits`, `createCollection_of_not_admits` — one collection
* `Schema.outcome_apply` — the whole schema
-/

namespace Provisioner

open Store

namespace Schema

open Attempt Procedure

variable {d : Definition} {target collection : String} {xs : Indexes} {server : Server}

/-! ### Collections -/

/-- The contents in which a collection exists. -/
def opened (target : String) (s : Store) (collection : String) : Store :=
  s.putIndexes target collection (s.indexesOrFresh target collection)

theorem ensureCollection_server (target collection : String) (server : Server) :
    (∃ created, result Server.answer (ensureCollection target collection) server = .ok created)
      ∧ (final Server.answer (ensureCollection target collection) server).store
        = opened target server.store collection := by
  cases hx : server.store.indexes? target collection with
  | some xs =>
    obtain ⟨hok, hr⟩ := ensureCollection_present Server.repeatable hx
    refine ⟨⟨false, hok⟩, (hr.eq_of_indexes? hx).trans ?_⟩
    rw [opened, indexesOrFresh_of_indexes? hx, putIndexes_of_indexes? hx]
  | none =>
    have hl : result Server.answer (call (.listCollections target)) server
        = .ok (Assoc.keys (server.store.collections target)) := rfl
    have hm : collection ∉ Assoc.keys (server.store.collections target) :=
      Assoc.get?_eq_none_iff.1 hx
    have hcreate : Server.createCollection (server.reach target).store target collection
        = .ok (server.store.putIndexes target collection Indexes.fresh) := by
      rw [Server.createCollection, Server.reach, indexes?_enter, hx, putIndexes_enter]
    have hanswer : Server.answer (.createCollection target collection) (server.reach target)
        = (.ok (), { server.reach target with
            store := server.store.putIndexes target collection Indexes.fresh }) := by
      simp only [Server.answer, hcreate]
      rfl
    have hcall : result Server.answer (call (.createCollection target collection))
        (final Server.answer (call (.listCollections target)) server) = .ok () :=
      congrArg Prod.fst hanswer
    rw [ensureCollection, result_bind_of_ok hl, final_bind_of_ok hl, if_neg hm,
      result_bind_of_ok hcall, final_bind_of_ok hcall, opened, Store.indexesOrFresh, hx]
    exact ⟨⟨true, rfl⟩, congrArg (fun r => r.2.store) hanswer⟩

theorem indexes?_opened (target : String) (s : Store) (collection : String) :
    (opened target s collection).indexes? target collection
      = some (s.indexesOrFresh target collection) :=
  indexes?_putIndexes_self ..

/-- A collection whose declarations are all admitted is provided with them. -/
theorem createCollection_of_admits {ds : List Definition} (hs : server.store.Distinct)
    (hdef : definitions collection = .ok ds)
    (ht : Tidy (server.store.indexesOrFresh target collection)) (hds : Noninterfering ds)
    (ha : ∀ d ∈ ds, Admits (server.store.indexesOrFresh target collection) d) :
    (∃ tally, result Server.answer (createCollection target collection) server = .ok tally)
      ∧ (final Server.answer (createCollection target collection) server).store
        = server.store.putIndexes target collection
            (ds.foldl provide (server.store.indexesOrFresh target collection)) := by
  obtain ⟨⟨created, hc⟩, hstore⟩ := ensureCollection_server target collection server
  have hs' := distinct_ensureCollection Server.careful target collection hs
  have hx := indexes?_opened target server.store collection
  rw [← hstore] at hx
  obtain ⟨hok, hfinal⟩ := ensureIndexes_of_admits hs' hx ht hds ha (Tally.ofCollection created)
  have hreq : result Server.answer (require (definitions collection))
      (final Server.answer (ensureCollection target collection) server) = .ok ds := hdef
  rw [createCollection, result_bind_of_ok hc, final_bind_of_ok hc, result_bind_of_ok hreq,
    final_bind_of_ok hreq, final_require]
  refine ⟨hok, hfinal.trans ?_⟩
  rw [hstore, opened, putIndexes_putIndexes_self]

/-- If one of them is not admitted, the first such declaration is refused. -/
theorem createCollection_of_not_admits {before after : List Definition}
    (hs : server.store.Distinct) (hdef : definitions collection = .ok (before ++ d :: after))
    (ht : Tidy (server.store.indexesOrFresh target collection))
    (hds : Noninterfering (before ++ d :: after))
    (ha : ∀ d' ∈ before, Admits (server.store.indexesOrFresh target collection) d')
    (hd : ¬ Admits (server.store.indexesOrFresh target collection) d) :
    Refused target collection d (createCollection target collection) server
      ∧ (final Server.answer (createCollection target collection) server).store
        = server.store.putIndexes target collection
            (before.foldl provide (server.store.indexesOrFresh target collection)) := by
  obtain ⟨⟨created, hc⟩, hstore⟩ := ensureCollection_server target collection server
  have hs' := distinct_ensureCollection Server.careful target collection hs
  have hx := indexes?_opened target server.store collection
  rw [← hstore] at hx
  obtain ⟨hrefused, hfinal⟩ := ensureIndexes_of_not_admits hs' hx ht hds ha hd
    (Tally.ofCollection created)
  have hreq : result Server.answer (require (definitions collection))
      (final Server.answer (ensureCollection target collection) server)
        = .ok (before ++ d :: after) := hdef
  refine ⟨Refused.after hc (Refused.after hreq hrefused), ?_⟩
  rw [createCollection, final_bind_of_ok hc, final_bind_of_ok hreq, final_require, hfinal, hstore,
    opened, putIndexes_putIndexes_self]

/-! ### The whole schema -/

/-- All declarations, with the collections to which they belong, in their order. -/
def steps : List (String × Definition) :=
  credentialIndexes.map (credentials, ·) ++ sessionIndexes.map (sessions, ·)

/-- A declaration is admitted by the indexes that its collection has, or has from its creation. -/
def Admitted (target : String) (s : Store) (p : String × Definition) : Prop :=
  Admits (s.indexesOrFresh target p.1) p.2

/-- The contents in which a declaration has been provided for. -/
def advanced (target : String) (s : Store) (p : String × Definition) : Store :=
  s.putIndexes target p.1 (provide (s.indexesOrFresh target p.1) p.2)

/-- The contents in which all declarations have been provided for. -/
def completed (target : String) (s : Store) : Store :=
  (s.putIndexes target credentials
    (withCredentials (s.indexesOrFresh target credentials))).putIndexes target sessions
      (withSessions (s.indexesOrFresh target sessions))

theorem forall_mem_steps {P : String × Definition → Prop} : (∀ p ∈ steps, P p)
    ↔ (∀ d ∈ credentialIndexes, P (credentials, d)) ∧ ∀ d ∈ sessionIndexes, P (sessions, d) := by
  rw [steps, List.forall_mem_append, List.forall_mem_map, List.forall_mem_map]

theorem indexes_completed_credentials (target : String) (s : Store) :
    (completed target s).indexes target credentials
      = withCredentials (s.indexesOrFresh target credentials) := by
  rw [completed, indexes_putIndexes_of_ne _ (by decide), indexes_putIndexes_self]

theorem indexes_completed_sessions (target : String) (s : Store) :
    (completed target s).indexes target sessions
      = withSessions (s.indexesOrFresh target sessions) := by
  rw [completed, indexes_putIndexes_self]

theorem tidy_withCredentials (hx : Tidy xs) : Tidy (withCredentials xs) :=
  foldl_provide_credentialIndexes xs ▸ hx.foldl_provide noninterfering_credentialIndexes

theorem tidy_withSessions (hx : Tidy xs) : Tidy (withSessions xs) :=
  foldl_provide_sessionIndexes xs ▸ hx.foldl_provide noninterfering_sessionIndexes

/-- Tidy indexes are so when everything has been provided for. -/
theorem tidy_completed {s : Store} (hc : Tidy (s.indexesOrFresh target credentials))
    (hs : Tidy (s.indexesOrFresh target sessions)) :
    ∀ e ∈ collections, Tidy ((completed target s).indexes target e.1) := by
  simp only [collections, List.forall_mem_cons, indexes_completed_credentials,
    indexes_completed_sessions]
  exact ⟨tidy_withCredentials hc, tidy_withSessions hs, by simp⟩

theorem tidy_fresh : Tidy Indexes.fresh where
  wellFormed := by
    simp only [Indexes.fresh, List.forall_mem_cons]
    exact ⟨⟨_, rfl⟩, by simp⟩
  single field e he e' he' _ _ := by
    rw [Indexes.fresh, List.mem_singleton] at he he'
    rw [he, he']

theorem tidy_indexesOrFresh {s : Store}
    (hw : ∀ e ∈ s.indexes target collection, Info.WellFormed e.2)
    (hsingle : (s.indexes target collection).Single) :
    Tidy (s.indexesOrFresh target collection) := by
  cases hx : s.indexes? target collection with
  | none => simpa [Store.indexesOrFresh, hx] using tidy_fresh
  | some xs =>
    rw [indexes_of_indexes? hx] at hw hsingle
    rw [indexesOrFresh_of_indexes? hx]
    exact tidy_of_single hw hsingle

/-- Providing for some declarations of a collection, one after the other, is writing the collection
once. -/
theorem foldl_advanced (target : String) (s : Store) (collection : String) (d : Definition)
    (ds : List Definition) :
    ((d :: ds).map (collection, ·)).foldl (advanced target) s
      = s.putIndexes target collection
          ((d :: ds).foldl provide (s.indexesOrFresh target collection)) := by
  induction ds generalizing s d with
  | nil => rfl
  | cons e ds ih =>
    have he := ih (advanced target s (collection, d)) e
    rw [List.map_cons, List.foldl_cons, he, advanced, putIndexes_putIndexes_self,
      indexesOrFresh_putIndexes_self]
    rfl

theorem opened_foldl_advanced (target : String) (s : Store) (collection : String)
    (ds : List Definition) :
    opened target ((ds.map (collection, ·)).foldl (advanced target) s) collection
      = s.putIndexes target collection (ds.foldl provide (s.indexesOrFresh target collection)) := by
  cases ds with
  | nil => rfl
  | cons d ds =>
    rw [foldl_advanced, opened, putIndexes_putIndexes_self, indexesOrFresh_putIndexes_self]

/-- A list of which not all elements have a property has a first one that has it not. -/
theorem exists_first_not {α : Type} {P : α → Prop} {l : List α} (h : ¬ ∀ x ∈ l, P x) :
    ∃ before x after, l = before ++ x :: after ∧ (∀ y ∈ before, P y) ∧ ¬ P x := by
  induction l with
  | nil => simp at h
  | cons x l ih =>
    by_cases hx : P x
    · have hl : ¬ ∀ y ∈ l, P y := fun hl => h (List.forall_mem_cons.2 ⟨hx, hl⟩)
      obtain ⟨before, y, after, rfl, hb, hy⟩ := ih hl
      exact ⟨x :: before, y, after, rfl, List.forall_mem_cons.2 ⟨hx, hb⟩, hy⟩
    · exact ⟨[], x, l, rfl, by simp, hx⟩

section Whole

variable (hs : server.store.Distinct)
  (hc : Tidy (server.store.indexesOrFresh target credentials))
  (hss : Tidy (server.store.indexesOrFresh target sessions))

include hs hc

/-- The credentials, if all of their declarations are admitted. -/
theorem createCredentials_of_admits
    (ha : ∀ d ∈ credentialIndexes, Admits (server.store.indexesOrFresh target credentials) d) :
    (∃ first, result Server.answer (createCollection target credentials) server = .ok first)
      ∧ (afterCredentials Server.answer target server).store
        = server.store.putIndexes target credentials
            (withCredentials (server.store.indexesOrFresh target credentials)) := by
  rw [← foldl_provide_credentialIndexes]
  exact createCollection_of_admits hs definitions_credentials hc noninterfering_credentialIndexes ha

/-- The sessions are not affected by that. -/
theorem indexesOrFresh_afterCredentials
    (ha : ∀ d ∈ credentialIndexes, Admits (server.store.indexesOrFresh target credentials) d) :
    (afterCredentials Server.answer target server).store.indexesOrFresh target sessions
      = server.store.indexesOrFresh target sessions := by
  obtain ⟨-, hstore⟩ := createCredentials_of_admits hs hc ha
  rw [hstore, indexesOrFresh_putIndexes_of_ne _ (by decide)]

/-- If one of them is not admitted, then the first such declaration is refused. -/
theorem apply_of_not_admits_credentials {before after : List Definition}
    (hsplit : credentialIndexes = before ++ d :: after)
    (ha : ∀ d' ∈ before, Admits (server.store.indexesOrFresh target credentials) d')
    (hd : ¬ Admits (server.store.indexesOrFresh target credentials) d) :
    Refused target credentials d (apply target) server
      ∧ (final Server.answer (apply target) server).store
        = server.store.putIndexes target credentials
            (before.foldl provide (server.store.indexesOrFresh target credentials)) := by
  obtain ⟨hrefused, hfinal⟩ := createCollection_of_not_admits hs
    (definitions_credentials.trans (congrArg Except.ok hsplit)) hc
    (hsplit ▸ noninterfering_credentialIndexes) ha hd
  refine ⟨Refused.after (result_log _ _) hrefused.bind, ?_⟩
  rw [apply, final_bind_of_ok (result_log _ _), final_log, hrefused.final_bind, hfinal]

include hss

/-- If all of them are admitted, but not all declarations of the sessions, then the first one of
these that is not admitted is refused. -/
theorem apply_of_not_admits_sessions {before after : List Definition}
    (hcred : ∀ d ∈ credentialIndexes, Admits (server.store.indexesOrFresh target credentials) d)
    (hsplit : sessionIndexes = before ++ d :: after)
    (ha : ∀ d' ∈ before, Admits (server.store.indexesOrFresh target sessions) d')
    (hd : ¬ Admits (server.store.indexesOrFresh target sessions) d) :
    Refused target sessions d (apply target) server
      ∧ (final Server.answer (apply target) server).store
        = (server.store.putIndexes target credentials
            (withCredentials (server.store.indexesOrFresh target credentials))).putIndexes target
          sessions (before.foldl provide (server.store.indexesOrFresh target sessions)) := by
  obtain ⟨⟨first, hfirst⟩, hstore⟩ := createCredentials_of_admits hs hc hcred
  have hs' := distinct_createCollection Server.careful target credentials hs
  have hfresh := indexesOrFresh_afterCredentials hs hc hcred
  rw [← hfresh] at hss ha hd ⊢
  obtain ⟨hrefused, hfinal⟩ := createCollection_of_not_admits hs'
    (definitions_sessions.trans (congrArg Except.ok hsplit)) hss
    (hsplit ▸ noninterfering_sessionIndexes) ha hd
  refine ⟨Refused.after (result_log _ _) (Refused.after hfirst hrefused.bind), ?_⟩
  rw [apply, final_bind_of_ok (result_log _ _), final_log, final_bind_of_ok hfirst,
    hrefused.final_bind, hfinal, hstore]

/-- If all declarations are admitted, then applying the schema succeeds and provides for them. -/
theorem apply_of_admits
    (hcred : ∀ d ∈ credentialIndexes, Admits (server.store.indexesOrFresh target credentials) d)
    (hsess : ∀ d ∈ sessionIndexes, Admits (server.store.indexesOrFresh target sessions) d) :
    result Server.answer (apply target) server = .ok ()
      ∧ (final Server.answer (apply target) server).store = completed target server.store := by
  obtain ⟨⟨first, hfirst⟩, hstore⟩ := createCredentials_of_admits hs hc hcred
  have hs' := distinct_createCollection Server.careful target credentials hs
  have hfresh := indexesOrFresh_afterCredentials hs hc hcred
  have hss' := hss
  rw [← hfresh] at hss' hsess
  obtain ⟨⟨second, hsecond⟩, hstore'⟩ := createCollection_of_admits hs'
    definitions_sessions hss' noninterfering_sessionIndexes hsess
  have hs'' := distinct_createCollection Server.careful target sessions hs'
  have hcompleted : (afterSessions Server.answer target server).store
      = completed target server.store := by
    rw [afterSessions, hstore', hfresh, foldl_provide_sessionIndexes, hstore, completed]
  have hfit := fit_collections Server.faithful plain_declared hs hfirst hsecond
  rw [← afterCredentials, ← afterSessions, hcompleted] at hfit
  have htidy := tidy_completed hc hss
  have hverified : result Server.answer (verify target) (afterSessions Server.answer target server)
      = .ok [] := by
    refine (result_missingIn_eq_nil_iff Server.faithful).2 fun e he => ?_
    have hwell := (htidy e he).wellFormed
    rw [hcompleted]
    exact Indexes.missing_eq_nil fun d hd => Indexes.satisfy_of_fit hwell (hfit e he d hd)
  have hsucc : Succeeds Server.answer target server first second := ⟨hfirst, hsecond, hverified⟩
  have hreach := reached_missingIn Server.careful target collections hs''
  rw [hcompleted] at hreach
  refine ⟨hsucc.result_apply, ?_⟩
  rw [hsucc.final_apply]
  exact hreach.eq_of_indexes? (indexes?_putIndexes_self ..)

/-- If some declaration is not admitted, then the first one that is not is refused, and those before
it are provided for. -/
theorem exists_refused_apply (h : ¬ ∀ p ∈ steps, Admitted target server.store p) :
    ∃ before p after, steps = before ++ p :: after
      ∧ (∀ q ∈ before, Admitted target server.store q)
      ∧ ¬ Admitted target server.store p
      ∧ Refused target p.1 p.2 (apply target) server
      ∧ (final Server.answer (apply target) server).store
        = opened target (before.foldl (advanced target) server.store) p.1 := by
  by_cases hcred : ∀ d ∈ credentialIndexes, Admitted target server.store (credentials, d)
  · have hsess : ¬ ∀ d ∈ sessionIndexes, Admitted target server.store (sessions, d) :=
      fun hsess => h (forall_mem_steps.2 ⟨hcred, hsess⟩)
    obtain ⟨before, d, after, hsplit, hb, hd⟩ := exists_first_not hsess
    obtain ⟨hrefused, hstore⟩ := apply_of_not_admits_sessions hs hc hss hcred hsplit hb hd
    refine ⟨credentialIndexes.map (credentials, ·) ++ before.map (sessions, ·), (sessions, d),
      after.map (sessions, ·), ?_, ?_, hd, hrefused, ?_⟩
    · rw [steps, hsplit, List.map_append, List.map_cons, List.append_assoc]
    · exact List.forall_mem_append.2 ⟨List.forall_mem_map.2 hcred, List.forall_mem_map.2 hb⟩
    · have hfirst : (credentialIndexes.map (credentials, ·)).foldl (advanced target) server.store
          = server.store.putIndexes target credentials
              (withCredentials (server.store.indexesOrFresh target credentials)) := by
        rw [← foldl_provide_credentialIndexes]
        exact foldl_advanced target server.store credentials _ _
      rw [hstore, List.foldl_append, opened_foldl_advanced, hfirst,
        indexesOrFresh_putIndexes_of_ne _ (by decide)]
  · obtain ⟨before, d, after, hsplit, hb, hd⟩ := exists_first_not hcred
    obtain ⟨hrefused, hstore⟩ := apply_of_not_admits_credentials hs hc hsplit hb hd
    refine ⟨before.map (credentials, ·), (credentials, d),
      after.map (credentials, ·) ++ sessionIndexes.map (sessions, ·), ?_, ?_, hd, hrefused, ?_⟩
    · rw [steps, hsplit, List.map_append, List.map_cons, List.append_assoc, List.cons_append]
    · exact List.forall_mem_map.2 hb
    · rw [hstore, opened_foldl_advanced]

end Whole

/-- **What applying the schema comes to.** Where the indexes of the two collections can be read and
no two of a collection have the same keys, applying the schema succeeds if and only if they admit
all declarations. The contents are then those of before, completed by what has been declared.
Otherwise the first declaration that is not admitted is refused, and the contents are those in which
the declarations before it have been provided for and its collection exists. -/
theorem outcome_apply (hs : server.store.Distinct)
    (hw : ∀ collection ∈ declaredNames, ∀ e ∈ server.store.indexes target collection,
      Info.WellFormed e.2)
    (hsingle : ∀ collection ∈ declaredNames, (server.store.indexes target collection).Single) :
    (result Server.answer (apply target) server = .ok ()
        ↔ ∀ p ∈ steps, Admitted target server.store p)
      ∧ ((∀ p ∈ steps, Admitted target server.store p) →
        (final Server.answer (apply target) server).store = completed target server.store)
      ∧ ((¬ ∀ p ∈ steps, Admitted target server.store p) →
        ∃ before p after, steps = before ++ p :: after
          ∧ (∀ q ∈ before, Admitted target server.store q)
          ∧ ¬ Admitted target server.store p
          ∧ Refused target p.1 p.2 (apply target) server
          ∧ (final Server.answer (apply target) server).store
            = opened target (before.foldl (advanced target) server.store) p.1) := by
  have hc : Tidy (server.store.indexesOrFresh target credentials) :=
    tidy_indexesOrFresh (hw _ (by simp [declaredNames])) (hsingle _ (by simp [declaredNames]))
  have hss : Tidy (server.store.indexesOrFresh target sessions) :=
    tidy_indexesOrFresh (hw _ (by simp [declaredNames])) (hsingle _ (by simp [declaredNames]))
  by_cases hall : ∀ p ∈ steps, Admitted target server.store p
  · obtain ⟨hcred, hsess⟩ := forall_mem_steps.1 hall
    obtain ⟨hok, hstore⟩ := apply_of_admits hs hc hss hcred hsess
    exact ⟨iff_of_true hok hall, fun _ => hstore, fun h => absurd hall h⟩
  · have hrefused := exists_refused_apply hs hc hss hall
    obtain ⟨-, p, -, -, -, -, ⟨r, -, hr, -⟩, -⟩ := id hrefused
    have herror : result Server.answer (apply target) server ≠ .ok () := by
      rw [hr]
      exact nofun
    exact ⟨iff_of_false herror hall, fun h => absurd h hall, fun _ => hrefused⟩

/-- A server without a collection of credentials, whose sessions have an index on the time of expiry
that has no time to live. -/
def admittingServer : Server where
  store := [("appdb", [
    ("audit", []),
    (sessions, [
      ("by_expiry", [("key", .doc [("expires_at", .int 1)]), (Index.ttl, .null)]),
      ("by_device", [("key", .doc [("device", .int 1)])])])])]
  clients := 0

/-- A server whose credentials have an index with the default name of another one. -/
def obstructingServer : Server where
  store := [("appdb", [
    (credentials, [("email_1", [("key", .doc [("mail", .int 1)])])])])]
  clients := 0

/-- The first server is provided with everything that is declared. The second one refuses the index
on the electronic mail address, after that on the user name has been added. -/
theorem outcome_apply_admitting_obstructing :
    (result Server.answer (apply "appdb") admittingServer = .ok ()
        ∧ (final Server.answer (apply "appdb") admittingServer).store
          = completed "appdb" admittingServer.store)
      ∧ ∃ before p after, steps = before ++ p :: after
          ∧ (∀ q ∈ before, Admitted "appdb" obstructingServer.store q)
          ∧ ¬ Admitted "appdb" obstructingServer.store p
          ∧ Refused "appdb" p.1 p.2 (apply "appdb") obstructingServer
          ∧ (final Server.answer (apply "appdb") obstructingServer).store
            = opened "appdb" (before.foldl (advanced "appdb") obstructingServer.store) p.1 := by
  have hok : result Server.answer (apply "appdb") admittingServer = .ok () := rfl
  obtain ⟨hadmits, hcompleted, -⟩ := @outcome_apply "appdb" admittingServer
    (by decide) (by decide) (by decide)
  obtain ⟨hobstructed, -, hrefused⟩ := @outcome_apply "appdb" obstructingServer
    (by decide) (by decide) (by decide)
  have hnone : (result Server.answer (apply "appdb") obstructingServer).toOption = none := rfl
  have herror : result Server.answer (apply "appdb") obstructingServer ≠ .ok () := by
    intro h
    rw [h] at hnone
    exact nomatch hnone
  exact ⟨⟨hok, hcompleted (hadmits.1 hok)⟩, hrefused (hobstructed.not.1 herror)⟩

end Schema

end Provisioner
