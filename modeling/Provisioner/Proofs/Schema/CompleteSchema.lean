import Provisioner.Proofs.Schema.SuccessfulRun
import Provisioner.Proofs.Schema.ServedDeclaration

/-!
# When the schema is complete

The schema is complete if the search finds, in its collection, an index for every declaration.
Both collections then exist, and the verification finds nothing missing. Conversely, where the
verification finds nothing missing, the schema has been complete, even if the server is only
careful: it may refuse to list indexes, but not list others than there are.

## Main definitions

* `Schema.Complete` — the search finds an index for every declaration
* `Schema.Established` — both collections exist, and the verification finds nothing missing

## Main results

* `Schema.established_of_complete` — a complete schema is established
* `Schema.complete_of_verified` — where nothing is found missing, the schema is complete
* `Schema.complete_apply` — so it is where applying the schema has succeeded
-/

namespace Provisioner

open Store

namespace Schema

open Attempt Procedure

variable {σ : Type} {answer : Handler σ} {store : σ → Store} {Asked : Definition → Prop}
  {target collection : String} {d : Definition} {s t : Store} {a : σ}

/-- For every declaration the search finds an index that serves it. -/
def Complete (target : String) (s : Store) : Prop :=
  ∀ e ∈ collections, ∀ d ∈ e.2, Indexes.satisfy d (s.indexes target e.1) = .ok true

/-- Both collections exist, and the verification finds nothing missing. -/
structure Established (answer : Handler σ) (store : σ → Store) (target : String) (a : σ) :
    Prop where
  exist : ∀ collection ∈ declaredNames, ∃ xs, (store a).indexes? target collection = some xs
  verified : result answer (verify target) a = .ok []

/-- Where something is found there is a collection. -/
theorem exists_indexes?_of_satisfied
    (h : Indexes.satisfy d (s.indexes target collection) = .ok true) :
    ∃ xs, s.indexes? target collection = some xs := by
  rw [Store.indexes] at h
  cases hx : s.indexes? target collection with
  | none =>
    rw [hx] at h
    cases h
  | some xs => exact ⟨xs, rfl⟩

theorem established_of_complete (h : answer.Faithful store Asked)
    (hc : Complete target (store a)) : Established answer store target a where
  exist := by
    have hcred := hc (credentials, credentialIndexes) (by simp [collections]) _ List.mem_cons_self
    have hsess := hc (sessions, sessionIndexes) (by simp [collections]) _ List.mem_cons_self
    simp only [declaredNames, List.forall_mem_cons]
    exact ⟨exists_indexes?_of_satisfied hcred, exists_indexes?_of_satisfied hsess, by simp⟩
  verified :=
    (result_missingIn_eq_nil_iff h).2 fun e he => Indexes.missing_eq_nil (hc e he)

/-- Turning to the database completes nothing and takes nothing away. -/
theorem Complete.reached (hc : Complete target s) (h : Reached target s t) : Complete target t := by
  intro e he d hd
  rw [h.indexes]
  exact hc e he d hd

/-- What the verification finds to be served is served, and it has done nothing but turn to the
database. -/
theorem satisfied_of_missingIn (h : answer.Careful store)
    {entries : List (String × List Definition)}
    (hr : result answer (missingIn target entries) a = .ok []) :
    (∀ e ∈ entries, ∀ d ∈ e.2, Indexes.satisfy d ((store a).indexes target e.1) = .ok true)
      ∧ Reached target (store a) (store (final answer (missingIn target entries) a)) := by
  induction entries generalizing a with
  | nil => exact ⟨by simp, .refl target _⟩
  | cons e entries ih =>
    obtain ⟨first, hfirst, hr⟩ := result_bind_eq_ok_iff.1 hr
    obtain ⟨others, hothers, hnil⟩ := result_bind_eq_ok_iff.1 hr
    obtain ⟨rfl, rfl⟩ := List.append_eq_nil_iff.1 (Except.ok.inj hnil)
    obtain ⟨xs, hxs, hmissing⟩ := result_bind_eq_ok_iff.1 hfirst
    obtain rfl := (h.allowed (.listIndexes target e.1) a).2 xs hxs
    have hlisted := reached_listed h target e.1 a
    rw [final_missingIndexes] at hothers
    obtain ⟨hrest, hreach⟩ := ih hothers
    refine ⟨List.forall_mem_cons.2 ⟨Indexes.satisfy_of_missing_eq_nil hmissing,
      fun e' he' d hd => ?_⟩, ?_⟩
    · rw [← hlisted.indexes]
      exact hrest e' he' d hd
    · rw [missingIn, final_bind_of_ok hfirst, final_missingIndexes, final_bind_of_ok hothers]
      exact hlisted.trans hreach

/-- Where the verification finds nothing missing, the schema is complete. -/
theorem complete_of_verified (h : answer.Careful store)
    (hr : result answer (verify target) a = .ok []) :
    Complete target (store (final answer (verify target) a)) := by
  obtain ⟨hsatisfied, hreach⟩ := satisfied_of_missingIn h hr
  exact Complete.reached hsatisfied hreach

/-- So it is where applying the schema has succeeded. -/
theorem complete_apply (h : answer.Careful store)
    (hr : result answer (apply target) a = .ok ()) :
    Complete target (store (final answer (apply target) a)) := by
  obtain ⟨first, second, hsucc⟩ := succeeds_of_apply hr
  rw [hsucc.final_apply]
  exact complete_of_verified h hsucc.verified

end Schema

end Provisioner
