import Provisioner.Proofs.Index.DirectedFields
import Provisioner.Proofs.Schema.AdmittedDeclaration

/-!
# When ensuring and verifying agree

Ensuring a declaration goes by the first index that has its keys, verifying looks at all of them. As
long as the keys of a collection's indexes are different this is the same. A collection may however
hold several indexes on the same keys, with different filters say, and then the index that serves
need not be the first: nothing is missing, and yet the declaration is not found to be there. What
follows is a request for an index that exists, under another name perhaps, and the refusal of it
reaches the caller although there was nothing to do.

The two agree in all other cases. This is said for every declaration whose keys are fields with
directions, over all collections whose indexes can be read.

## Main definitions

* `Schema.Recognized` — a declaration is found, and the indexes are only listed
* `Schema.Shadowed` — the index that serves stands behind another one with the same keys

## Main results

* `Schema.recognized_iff` — ensuring recognizes what is not missing, unless it is shadowed
* `Schema.present_not_recognized` — a declaration that is not missing, and yet asked for and refused
-/

namespace Provisioner

namespace Schema

open Attempt Procedure

variable {σ : Type} {answer : Handler σ} {database collection : String} {d : Definition}
  {fields : List (String × Value)} {xs : Indexes} {a : σ} {e e' : String × Info}

/-- Ensuring a declaration finds it, with no other call than the listing of the indexes. -/
structure Recognized (answer : Handler σ) (database collection : String) (d : Definition) (a : σ) :
    Prop where
  found : result answer (ensureIndex database collection d) a = .ok .found
  calls : Event.calls (trace answer (ensureIndex database collection d) a)
    = [.listIndexes database collection]

/-- The first index with the keys of a declaration does not serve it, but another one does. -/
def Shadowed (xs : Indexes) (d : Definition) : Prop :=
  xs.Fit d ∧ ∃ e, First xs d e ∧ Info.fits e.2 d ≠ .ok true

/-! ### The first index with the keys -/

/-- Among readable indexes of which one serves, there is a first one with the keys. -/
theorem exists_first_of_fit (hk : Definition.keys d = .ok (Index.directed fields))
    (hw : ∀ e ∈ xs, Info.WellFormed e.2) (h : xs.Fit d) : ∃ e, First xs d e := by
  obtain ⟨found, hf⟩ := exists_find? hw (fields.map fun f => (Value.text f.1, f.2))
  cases found with
  | some e => exact ⟨e, _, hk, hf⟩
  | none =>
    obtain ⟨e, he, hfits⟩ := h
    have hsame := (Info.fits_eq_true_iff.1 hfits).1
    rw [hk] at hsame
    exact nomatch hsame.symm.trans (Indexes.find?_eq_none_iff.1 hf e he)

/-- Where no two indexes have the keys of a declaration, none is shadowed. -/
theorem not_shadowed_of_unique
    (h : ∀ e ∈ xs, ∀ e' ∈ xs, Info.hasKeys e.2 (Definition.keys d) = .ok true →
      Info.hasKeys e'.2 (Definition.keys d) = .ok true → e = e') : ¬ Shadowed xs d := by
  rintro ⟨⟨e', he', hfits⟩, e, hfirst, hnot⟩
  obtain ⟨keys, hk, hf⟩ := id hfirst
  have hsame : Info.hasKeys e.2 (Definition.keys d) = .ok true :=
    hk ▸ Indexes.hasKeys_of_find? hf
  obtain rfl := h e hfirst.mem e' he' hsame (Info.fits_eq_true_iff.1 hfits).1
  exact hnot hfits

/-! ### What is found -/

/-- Of the decisions only that to keep an index reports it as found. -/
theorem eq_keep_of_enact {keys : Value} {decision : Decision}
    (h : result answer (enact database collection d keys decision) a = .ok .found) :
    decision = .keep := by
  cases decision with
  | keep => rfl
  | attach index seconds =>
    obtain ⟨u, -, h⟩ := result_bind_eq_ok_iff.1 h
    obtain ⟨v, -, h⟩ := result_bind_eq_ok_iff.1 h
    exact nomatch Except.ok.inj h
  | create conflict =>
    obtain ⟨u, -, h⟩ := result_bind_eq_ok_iff.1 h
    obtain ⟨v, -, h⟩ := result_bind_eq_ok_iff.1 h
    obtain ⟨w, -, h⟩ := result_bind_eq_ok_iff.1 h
    exact nomatch Except.ok.inj h

/-- A declaration that is found is served by the first index with its keys. -/
theorem first_of_found (hl : (answer (.listIndexes database collection) a).1 = .ok xs)
    (h : result answer (ensureIndex database collection d) a = .ok .found) :
    ∃ e, First xs d e ∧ Info.fits e.2 d = .ok true := by
  obtain ⟨keys, hk, h⟩ := result_bind_eq_ok_iff.1 h
  obtain ⟨found, hf, h⟩ := result_bind_eq_ok_iff.1 h
  obtain ⟨ys, hl', hf⟩ := result_findIndex_eq_ok_iff.1 hf
  obtain rfl := Except.ok.inj (hl.symm.trans hl')
  obtain ⟨name, info, rfl, hcompat, hexp⟩ := Decision.of_eq_keep_iff.1 (eq_keep_of_enact h)
  refine ⟨(name, info), ⟨keys, hk, hf⟩, Info.fits_eq_true_iff.2 ⟨?_, hcompat, hexp⟩⟩
  have hd : Definition.keys d = .ok keys := hk
  exact hd ▸ Indexes.hasKeys_of_find? hf

/-- A declaration that the first index with its keys serves is recognized. -/
theorem recognized_of_first (hk : Definition.keys d = .ok (Index.directed fields))
    (hl : (answer (.listIndexes database collection) a).1 = .ok xs) (hfirst : First xs d e)
    (hfits : Info.fits e.2 d = .ok true) : Recognized answer database collection d a := by
  obtain ⟨text, htext⟩ := Definition.describe_of_directed hk collection
  obtain ⟨keys, hk', hf⟩ := hfirst
  obtain ⟨-, hcompat, hexp⟩ := Info.fits_eq_true_iff.1 hfits
  have hdec : Decision.of (some e) d = .keep :=
    Decision.of_eq_keep_iff.2 ⟨e.1, e.2, rfl, hcompat, hexp⟩
  have hlog : result answer (logDefinition "Index already exists" collection d)
      (listed answer database collection a) = .ok () := result_logDefinition htext _ _
  refine ⟨?_, ?_⟩
  · rw [result_ensureIndex hk' hl hf, hdec, result_enact_keep htext]
  · rw [trace_ensureIndex hk' hl hf, hdec, enact, trace_bind_of_ok hlog, logDefinition, htext]
    rfl

/-- Whatever answers the calls: where the listed indexes can be read, a declaration is recognized if
one of them serves it and is not shadowed. -/
theorem recognized_iff_of_listed (hk : Definition.keys d = .ok (Index.directed fields))
    (hl : (answer (.listIndexes database collection) a).1 = .ok xs)
    (hw : ∀ e ∈ xs, Info.WellFormed e.2) :
    Recognized answer database collection d a
      ↔ Indexes.missing collection xs [d] = .ok [] ∧ ¬ Shadowed xs d := by
  constructor
  · intro hfound
    obtain ⟨e, hfirst, hfits⟩ := first_of_found hl hfound.found
    have hserved : Indexes.satisfy d xs = .ok true :=
      Indexes.satisfy_of_fit hw ⟨e, hfirst.mem, hfits⟩
    refine ⟨Indexes.missing_eq_nil (List.forall_mem_singleton.2 hserved), ?_⟩
    rintro ⟨-, e', hfirst', hnot⟩
    obtain rfl := hfirst.eq hfirst'
    exact hnot hfits
  · rintro ⟨hmissing, hshadowed⟩
    have hfit : xs.Fit d := Indexes.fit_of_satisfy
      (Indexes.satisfy_of_missing_eq_nil hmissing d List.mem_cons_self)
    obtain ⟨e, hfirst⟩ := exists_first_of_fit hk hw hfit
    have hfits : Info.fits e.2 d = .ok true := by
      by_contra hnot
      exact hshadowed ⟨hfit, e, hfirst, hnot⟩
    exact recognized_of_first hk hl hfirst hfits

/-- What verifying a single declaration says of a server. -/
theorem result_missingIndexes_server (database collection : String) (d : Definition)
    (server : Server) :
    result Server.answer (missingIndexes database collection [d]) server
      = Indexes.missing collection (server.store.indexes database collection) [d] := rfl

/-- **Ensuring and verifying.** Whatever indexes a collection has, as long as their keys can be
read: ensuring a declaration leaves them alone and says that it is there if and only if verifying
finds nothing missing and the index that serves is not shadowed. It cannot be shadowed where no two
indexes have the declared keys; there the one is the case if and only if the other is. -/
theorem recognized_iff (hk : Definition.keys d = .ok (Index.directed fields)) (database : String)
    (server : Server) (hw : ∀ e ∈ server.store.indexes database collection, Info.WellFormed e.2) :
    (Recognized Server.answer database collection d server
      ↔ result Server.answer (missingIndexes database collection [d]) server = .ok []
        ∧ ¬ Shadowed (server.store.indexes database collection) d)
    ∧ ((∀ e ∈ server.store.indexes database collection,
          ∀ e' ∈ server.store.indexes database collection,
          Info.hasKeys e.2 (Definition.keys d) = .ok true →
          Info.hasKeys e'.2 (Definition.keys d) = .ok true → e = e') →
        (Recognized Server.answer database collection d server
          ↔ result Server.answer (missingIndexes database collection [d]) server = .ok [])) := by
  have h : Recognized Server.answer database collection d server
      ↔ Indexes.missing collection (server.store.indexes database collection) [d] = .ok []
        ∧ ¬ Shadowed (server.store.indexes database collection) d :=
    recognized_iff_of_listed hk rfl hw
  rw [result_missingIndexes_server]
  exact ⟨h, fun hunique => h.trans (and_iff_left (not_shadowed_of_unique hunique))⟩

/-- The declared index on the user names. -/
def uniqueNames : Definition := ascending "username" [unique, among live]

/-- An index on the user names of the credentials that have been archived. -/
def archivedNames : String × Info :=
  ("username_archived", Indexes.record (fieldKeys "username")
    [(Index.filter, .doc [("archived", .bool true)])])

/-- The declared index, under a name of its own. -/
def liveNames : String × Info :=
  ("username_live", Indexes.record (fieldKeys "username") [unique, among live])

/-- A server with two indexes on the user names, of which the second one is as declared. -/
def shadowedServer : Server where
  store := [("appdb", [(credentials, Indexes.fresh ++ [archivedNames, liveNames])])]
  clients := 0

/-- Nothing is missing, and yet the declaration is asked for, and refused. -/
theorem present_not_recognized :
    (∀ e ∈ shadowedServer.store.indexes "appdb" credentials, Info.WellFormed e.2)
      ∧ result Server.answer (missingIndexes "appdb" credentials [uniqueNames]) shadowedServer
        = .ok []
      ∧ result Server.answer (ensureIndex "appdb" credentials uniqueNames) shadowedServer
        = .error (.rejected (.namedOtherwise "username_archived"))
      ∧ ¬ Recognized Server.answer "appdb" credentials uniqueNames shadowedServer := by
  have hr : result Server.answer (ensureIndex "appdb" credentials uniqueNames) shadowedServer
      = .error (.rejected (.namedOtherwise "username_archived")) := rfl
  exact ⟨by decide, rfl, hr, fun hfound => nomatch hfound.found.symm.trans hr⟩

/-- A server with the same two indexes in the other order. -/
def unshadowedServer : Server where
  store := [("appdb", [(credentials, Indexes.fresh ++ [liveNames, archivedNames])])]
  clients := 0

theorem recognized_iff_unshadowed :
    (∀ e ∈ unshadowedServer.store.indexes "appdb" credentials, Info.WellFormed e.2)
      ∧ Recognized Server.answer "appdb" credentials uniqueNames unshadowedServer
      ∧ result Server.answer (missingIndexes "appdb" credentials [uniqueNames]) unshadowedServer
        = .ok []
      ∧ ¬ Shadowed (unshadowedServer.store.indexes "appdb" credentials) uniqueNames := by
  have hk : Definition.keys uniqueNames = .ok (Index.directed [("username", .int 1)]) := rfl
  have hw : ∀ e ∈ unshadowedServer.store.indexes "appdb" credentials, Info.WellFormed e.2 := by
    decide
  have hfound : Recognized Server.answer "appdb" credentials uniqueNames unshadowedServer :=
    ⟨rfl, rfl⟩
  exact ⟨hw, hfound, (recognized_iff hk "appdb" unshadowedServer hw).1.1 hfound⟩

end Schema

end Provisioner
