import Provisioner.Proofs.Procedure.Run
import Provisioner.Schema.Apply

/-!
# What the steps call for

Bringing an index into being is one listing, a decision, and at most one call that changes the
contents; bringing a collection into being is one listing and at most one creation. These are the
only places in which applying the schema touches the contents, and here it is said once, for any
server whatever, in which state each of them ends. What the calls do is left to the server.

## Main results

* `Schema.final_enact`, `called_of_enact` — acting on a decision is one call or none
* `Schema.final_ensureIndex`, `final_ensureCollection` — the states in which the steps end
* `Schema.ensureIndex_eq_ok` — what a step that succeeds has seen and done
-/

namespace Provisioner

namespace Schema

open Attempt Procedure

variable {σ : Type} {answer : Handler σ} {database collection : String} {d : Definition}
  {keys : Value} {s : σ}

/-! ### The declared collections -/

/-- The names of the declared collections. -/
def declaredNames : List String := [credentials, sessions]

theorem definitions_credentials : definitions credentials = .ok credentialIndexes := rfl

theorem definitions_sessions : definitions sessions = .ok sessionIndexes := rfl

theorem ttl_credentialIndexes : ∀ d ∈ credentialIndexes, Document.field d Index.ttl = .null := by
  simp only [credentialIndexes, List.forall_mem_cons]
  exact ⟨rfl, rfl, rfl, by simp⟩

/-- Of the declared indexes of the sessions only the last one has a time to live. -/
theorem ttl_sessionIndexes :
    ∀ d ∈ sessionIndexes.dropLast, Document.field d Index.ttl = .null := by
  simp only [sessionIndexes, List.dropLast, List.forall_mem_cons]
  exact ⟨rfl, rfl, rfl, by simp⟩

/-! ### Records -/

/-- Records are only left: whether or not a declaration can be described, no call is made. -/
@[simp] theorem final_logDefinition (message collection : String) (d : Definition) (s : σ) :
    final answer (logDefinition message collection d) s = s := by
  rw [logDefinition]
  cases h : Definition.describe collection d with
  | ok text => rw [final_bind_of_ok (result_require _)]; rfl
  | error e => exact final_bind_of_error (result_require _)

@[simp] theorem final_warnConflict (collection : String) (conflict : Option (String × Info))
    (s : σ) : final answer (warnConflict collection conflict) s = s := by
  cases conflict <;> rfl

@[simp] theorem result_warnConflict (collection : String) (conflict : Option (String × Info))
    (s : σ) : result answer (warnConflict collection conflict) s = .ok () := by
  cases conflict <;> rfl

/-- An outcome after a record, which is left in the state that is there. -/
theorem final_logDefinition_bind (message collection : String) (d : Definition) (o : Outcome)
    (s : σ) :
    final answer (logDefinition message collection d >>= fun _ => pure o : Attempt Outcome) s
      = s := by
  cases h : result answer (logDefinition message collection d) s with
  | ok a => rw [final_bind_of_ok h]; simp
  | error e => rw [final_bind_of_error h]; simp

/-! ### Acting on a decision -/

/-- The state in which acting on a decision ends. -/
def acted (answer : Handler σ) (database collection : String) (d : Definition) (keys : Value)
    (s : σ) : Decision → σ
  | .keep => s
  | .attach index seconds => (answer (.expireIndex database collection index seconds) s).2
  | .create _ => (answer (.createIndex database collection keys (Definition.options d)) s).2

/-- The call that a decision asks for has been granted. -/
def Called (answer : Handler σ) (database collection : String) (d : Definition) (keys : Value)
    (s : σ) : Decision → Prop
  | .keep => True
  | .attach index seconds => (answer (.expireIndex database collection index seconds) s).1 = .ok ()
  | .create _ =>
    (answer (.createIndex database collection keys (Definition.options d)) s).1 = .ok ()

theorem final_enact (decision : Decision) :
    final answer (enact database collection d keys decision) s
      = acted answer database collection d keys s decision := by
  cases decision with
  | keep => exact final_logDefinition_bind _ collection d .found s
  | attach index seconds =>
    rw [enact]
    cases h : result answer (expireIndex database collection index seconds) s with
    | ok a => rw [final_bind_of_ok h, final_logDefinition_bind]; rfl
    | error e => rw [final_bind_of_error h]; rfl
  | create conflict =>
    rw [enact, final_bind_of_ok (result_warnConflict collection conflict s), final_warnConflict]
    cases h : result answer
        (call (.createIndex database collection keys (Definition.options d))) s with
    | ok a => rw [final_bind_of_ok h, final_logDefinition_bind]; rfl
    | error e => rw [final_bind_of_error h]; rfl

/-- If acting on a decision succeeds, then the call has been granted. -/
theorem called_of_enact {decision : Decision} {o : Outcome}
    (h : result answer (enact database collection d keys decision) s = .ok o) :
    Called answer database collection d keys s decision := by
  cases decision with
  | keep => trivial
  | attach index seconds =>
    obtain ⟨a, ha, -⟩ := result_bind_eq_ok_iff.1 h
    exact ha
  | create conflict =>
    rw [enact, result_bind_of_ok (result_warnConflict collection conflict s),
      final_warnConflict] at h
    obtain ⟨a, ha, -⟩ := result_bind_eq_ok_iff.1 h
    exact ha

/-! ### One index -/

/-- What a step has seen when it acts: the keys of the declaration, the listed indexes, and the
first of them that has these keys. -/
structure Seen (answer : Handler σ) (database collection : String) (d : Definition) (s : σ)
    (keys : Value) (xs : Indexes) (found : Option (String × Info)) : Prop where
  declared : Definition.keys d = .ok keys
  listing : (answer (.listIndexes database collection) s).1 = .ok xs
  first : Indexes.find? keys xs = .ok found

/-- The state after the indexes of a collection have been listed. -/
def listed (answer : Handler σ) (database collection : String) (s : σ) : σ :=
  (answer (.listIndexes database collection) s).2

theorem final_findIndex :
    final answer (findIndex database collection keys) s
      = listed answer database collection s := by
  rw [findIndex]
  cases h : result answer (call (.listIndexes database collection)) s with
  | ok xs => rw [final_bind_of_ok h]; rfl
  | error e => rw [final_bind_of_error h]; rfl

theorem result_findIndex_eq_ok_iff {found : Option (String × Info)} :
    result answer (findIndex database collection keys) s = .ok found
      ↔ ∃ xs, (answer (.listIndexes database collection) s).1 = .ok xs
        ∧ Indexes.find? keys xs = .ok found :=
  result_bind_eq_ok_iff

/-- A step ends before it has listed the indexes, after that, or after it has acted on what it
has seen. -/
theorem final_ensureIndex (answer : Handler σ) (database collection : String) (d : Definition)
    (s : σ) :
    final answer (ensureIndex database collection d) s = s
    ∨ final answer (ensureIndex database collection d) s = listed answer database collection s
    ∨ ∃ keys xs found, Seen answer database collection d s keys xs found
      ∧ final answer (ensureIndex database collection d) s
        = acted answer database collection d keys (listed answer database collection s)
            (Decision.of found d) := by
  rw [ensureIndex]
  cases hk : Definition.keys d with
  | error e => exact .inl (final_bind_of_error (result_require _))
  | ok keys =>
    rw [final_bind_of_ok (result_require _), final_require]
    cases hf : result answer (findIndex database collection keys) s with
    | error e =>
      rw [final_bind_of_error hf, final_findIndex]
      exact .inr (.inl rfl)
    | ok found =>
      rw [final_bind_of_ok hf, final_findIndex, final_enact]
      obtain ⟨xs, hl, hx⟩ := result_findIndex_eq_ok_iff.1 hf
      exact .inr (.inr ⟨keys, xs, found, ⟨hk, hl, hx⟩, rfl⟩)

/-- A step that succeeds has listed the indexes, and what it has decided on them has been
granted. -/
theorem ensureIndex_eq_ok {o : Outcome}
    (h : result answer (ensureIndex database collection d) s = .ok o) :
    ∃ keys xs found, Seen answer database collection d s keys xs found
      ∧ Called answer database collection d keys (listed answer database collection s)
          (Decision.of found d)
      ∧ final answer (ensureIndex database collection d) s
        = acted answer database collection d keys (listed answer database collection s)
            (Decision.of found d) := by
  obtain ⟨keys, hk, h⟩ := result_bind_eq_ok_iff.1 h
  obtain ⟨found, hf, h⟩ := result_bind_eq_ok_iff.1 h
  rw [final_require] at hf h
  obtain ⟨xs, hl, hx⟩ := result_findIndex_eq_ok_iff.1 hf
  rw [final_findIndex] at h
  refine ⟨keys, xs, found, ⟨hk, hl, hx⟩, called_of_enact h, ?_⟩
  rw [ensureIndex, final_bind_of_ok hk, final_require, final_bind_of_ok hf, final_findIndex,
    final_enact]

/-! ### What a step comes to -/

section Found

variable {xs : Indexes} {found : Option (String × Info)}

/-- A step comes to acting on what has been found. -/
theorem run_ensureIndex (hk : Definition.keys d = .ok keys)
    (hl : (answer (.listIndexes database collection) s).1 = .ok xs)
    (hf : Indexes.find? keys xs = .ok found) :
    run answer (ensureIndex database collection d) s
      = (result answer (enact database collection d keys (Decision.of found d))
            (listed answer database collection s),
         .call (.listIndexes database collection) none
          :: trace answer (enact database collection d keys (Decision.of found d))
              (listed answer database collection s),
         final answer (enact database collection d keys (Decision.of found d))
            (listed answer database collection s)) := by
  have hkeys : result answer (require (Definition.keys d)) s = .ok keys := hk
  have hlist : result answer (call (.listIndexes database collection)) s = .ok xs := hl
  have hfound : result answer (findIndex database collection keys) s = .ok found :=
    result_findIndex_eq_ok_iff.2 ⟨xs, hl, hf⟩
  have htrace : trace answer (findIndex database collection keys) s
      = [.call (.listIndexes database collection) none] := by
    rw [findIndex, trace_bind_of_ok hlist, trace_call, hl, trace_require]
    rfl
  rw [ensureIndex, run_bind_of_ok hkeys, trace_require, final_require, result_bind_of_ok hfound,
    trace_bind_of_ok hfound, final_bind_of_ok hfound, htrace, final_findIndex]
  rfl

theorem result_ensureIndex (hk : Definition.keys d = .ok keys)
    (hl : (answer (.listIndexes database collection) s).1 = .ok xs)
    (hf : Indexes.find? keys xs = .ok found) :
    result answer (ensureIndex database collection d) s
      = result answer (enact database collection d keys (Decision.of found d))
          (listed answer database collection s) := by
  rw [result, run_ensureIndex hk hl hf]

theorem trace_ensureIndex (hk : Definition.keys d = .ok keys)
    (hl : (answer (.listIndexes database collection) s).1 = .ok xs)
    (hf : Indexes.find? keys xs = .ok found) :
    trace answer (ensureIndex database collection d) s
      = .call (.listIndexes database collection) none
        :: trace answer (enact database collection d keys (Decision.of found d))
            (listed answer database collection s) := by
  rw [trace, run_ensureIndex hk hl hf]

theorem final_ensureIndex_of_found (hk : Definition.keys d = .ok keys)
    (hl : (answer (.listIndexes database collection) s).1 = .ok xs)
    (hf : Indexes.find? keys xs = .ok found) :
    final answer (ensureIndex database collection d) s
      = acted answer database collection d keys (listed answer database collection s)
          (Decision.of found d) := by
  rw [final, run_ensureIndex hk hl hf, final_enact]

end Found

section Enact

variable {text : String}

theorem result_logDefinition (ht : d.describe collection = .ok text) (message : String) (s : σ) :
    result answer (logDefinition message collection d) s = .ok () := by
  rw [logDefinition, ht]
  rfl

theorem result_enact_keep (ht : d.describe collection = .ok text) (s : σ) :
    result answer (enact database collection d keys .keep) s = .ok .found := by
  rw [enact, result_bind_of_ok (result_logDefinition ht _ _)]
  rfl

theorem result_enact_attach (ht : d.describe collection = .ok text) {index : String}
    {seconds : Value}
    (hg : (answer (.expireIndex database collection index seconds) s).1 = .ok ()) :
    result answer (enact database collection d keys (.attach index seconds)) s
      = .ok .attached := by
  have hcall : result answer (expireIndex database collection index seconds) s = .ok () := hg
  rw [enact, result_bind_of_ok hcall, result_bind_of_ok (result_logDefinition ht _ _)]
  rfl

theorem result_enact_create (ht : d.describe collection = .ok text)
    {conflict : Option (String × Info)}
    (hg : (answer (.createIndex database collection keys (Definition.options d)) s).1 = .ok ()) :
    result answer (enact database collection d keys (.create conflict)) s = .ok .created := by
  have hcall : result answer
      (call (.createIndex database collection keys (Definition.options d))) s = .ok () := hg
  rw [enact, result_bind_of_ok (result_warnConflict ..), final_warnConflict,
    result_bind_of_ok hcall, result_bind_of_ok (result_logDefinition ht _ _)]
  rfl

/-- A refusal is passed on, and nothing happens after it. -/
theorem enact_create_of_error {conflict : Option (String × Info)} {e : Error}
    (hg : (answer (.createIndex database collection keys (Definition.options d)) s).1
      = .error e) :
    result answer (enact database collection d keys (.create conflict)) s = .error e
      ∧ (trace answer (enact database collection d keys (.create conflict)) s).getLast?
        = some (.call (.createIndex database collection keys (Definition.options d)) (some e)) := by
  have hcall : result answer
      (call (.createIndex database collection keys (Definition.options d))) s = .error e := hg
  rw [enact, result_bind_of_ok (result_warnConflict ..), trace_bind_of_ok (result_warnConflict ..),
    final_warnConflict, result_bind_of_error hcall, trace_bind_of_error hcall, trace_call, hg,
    List.getLast?_concat]
  exact ⟨rfl, rfl⟩

end Enact

/-! ### Several indexes -/

/-- Ensuring two lists of declarations is ensuring the one and then the other. -/
theorem ensureIndexes_append (database collection : String) (ds es : List Definition)
    (tally : Tally) :
    ensureIndexes database collection (ds ++ es) tally
      = ensureIndexes database collection ds tally >>= ensureIndexes database collection es := by
  induction ds generalizing tally with
  | nil => exact (pure_bind tally _).symm
  | cons d ds ih =>
    simp only [List.cons_append, ensureIndexes, ih]
    exact (bind_assoc (m := Attempt) _ _ _).symm

/-! ### One collection -/

/-- The state after the collections have been listed. -/
def listedCollections (answer : Handler σ) (database : String) (s : σ) : σ :=
  (answer (.listCollections database) s).2

/-- A collection is created only if it is not among those that have been listed. -/
theorem final_ensureCollection (answer : Handler σ) (database name : String) (s : σ) :
    final answer (ensureCollection database name) s = listedCollections answer database s
    ∨ ∃ names, (answer (.listCollections database) s).1 = .ok names ∧ name ∉ names
      ∧ final answer (ensureCollection database name) s
        = (answer (.createCollection database name)
            (listedCollections answer database s)).2 := by
  rw [ensureCollection]
  cases hl : result answer (call (.listCollections database)) s with
  | error e => exact .inl (final_bind_of_error hl)
  | ok names =>
    rw [final_bind_of_ok hl]
    by_cases hn : name ∈ names
    · simp only [hn, if_true]
      exact .inl rfl
    · simp only [hn, if_false]
      refine .inr ⟨names, hl, hn, ?_⟩
      cases hc : result answer (call (.createCollection database name))
          (final answer (call (.listCollections database)) s) with
      | error e => exact final_bind_of_error hc
      | ok u => exact final_bind_of_ok hc

/-! ### Verifying -/

theorem final_missingIndexes (answer : Handler σ) (database collection : String)
    (ds : List Definition) (s : σ) :
    final answer (missingIndexes database collection ds) s
      = listed answer database collection s := by
  rw [missingIndexes]
  cases h : result answer (call (.listIndexes database collection)) s with
  | ok xs => rw [final_bind_of_ok h]; rfl
  | error e => rw [final_bind_of_error h]; rfl

end Schema

end Provisioner
