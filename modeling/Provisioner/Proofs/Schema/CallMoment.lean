import Provisioner.Proofs.Schema.StageAccount

/-!
# The moments of the calls

A trace tells which calls have been made and with what outcome. What the contents were when a call
was made it does not tell, and that is what has to be known if a call is to be made only where it is
called for. Here the calls of a run are taken together with the states in which they are made.

Of the steps of applying the schema only two make calls that may change something: acting on a
decision about an index, and creating a collection that has not been listed. Either makes one such
call at most, in the state that its listing has left.

## Main definitions

* `Procedure.moments` — the calls of a run, each with the state in which it is made
* `Procedure.acts` — those that may change the contents
* `Decision.request` — the call that a decision asks for

## Main results

* `Procedure.changes_trace` — without the states these are the calls of the trace
* `Procedure.forall_moments_of_stays` — what every call leaves true is true at every moment
* `Schema.acts_ensureIndex`, `acts_ensureCollection`, `acts_verify` — the acts of the steps
-/

namespace Provisioner

/-! ### Procedures -/

namespace Procedure

variable {α β σ : Type} {answer : Handler σ} {s : σ}

/-- The calls of a run, each with the state in which it is made. -/
def moments (answer : Handler σ) : Procedure α → σ → List (Call × σ)
  | .done _, _ => []
  | .leave _ rest, s => moments answer rest s
  | .ask c rest, s => (c, s) :: moments answer (rest (answer c s).1) (answer c s).2

/-- The calls that may change the contents, each with the state in which it is made. -/
def acts (answer : Handler σ) (p : Procedure α) (s : σ) : List (Call × σ) :=
  (moments answer p s).filter fun m => m.1.mutates

theorem calls_trace (answer : Handler σ) (p : Procedure α) (s : σ) :
    Event.calls (trace answer p s) = (moments answer p s).map Prod.fst := by
  induction p generalizing s with
  | done value => rfl
  | leave n rest ih => exact ih s
  | ask c rest ih => exact congrArg (c :: ·) (ih (answer c s).1 (answer c s).2)

/-- The acts are the calls of the trace that may change something. -/
theorem changes_trace (answer : Handler σ) (p : Procedure α) (s : σ) :
    Event.changes (trace answer p s) = (acts answer p s).map Prod.fst := by
  rw [Event.changes, calls_trace, acts, List.filter_map]
  rfl

theorem moments_bind (answer : Handler σ) (p : Procedure α) (next : α → Procedure β) (s : σ) :
    moments answer (bind p next) s = moments answer p s
      ++ moments answer (next (result answer p s)) (final answer p s) := by
  induction p generalizing s with
  | done value => rfl
  | leave n rest ih => exact ih s
  | ask c rest ih => exact congrArg ((c, s) :: ·) (ih (answer c s).1 (answer c s).2)

/-- What every call leaves true is true at every moment. -/
theorem forall_moments_of_stays {P : σ → Prop} (hP : ∀ (c : Call) s, P s → P (answer c s).2)
    (p : Procedure α) (hs : P s) : ∀ m ∈ moments answer p s, P m.2 := by
  induction p generalizing s with
  | done value => exact fun m hm => nomatch hm
  | leave n rest ih => exact ih hs
  | ask c rest ih => exact List.forall_mem_cons.2 ⟨hs, ih _ (hP c s hs)⟩

end Procedure

/-! ### Attempts -/

namespace Attempt

open Procedure

variable {α β σ : Type} {answer : Handler σ} {s : σ} {x : Attempt α} {f : α → Attempt β} {a : α}
  {e : Error}

theorem acts_bind_of_ok (h : result answer x s = .ok a) :
    acts answer (x >>= f : Attempt β) s
      = acts answer x s ++ acts answer (f a) (final answer x s) := by
  have hbind := moments_bind answer x (ExceptT.bindCont f) s
  rw [h] at hbind
  exact (congrArg (List.filter fun m => m.1.mutates) hbind).trans (List.filter_append ..)

theorem acts_bind_of_error (h : result answer x s = .error e) :
    acts answer (x >>= f : Attempt β) s = acts answer x s := by
  have hbind := moments_bind answer x (ExceptT.bindCont f) s
  rw [h] at hbind
  exact congrArg (List.filter fun m => m.1.mutates) (hbind.trans (List.append_nil _))

@[simp] theorem acts_pure (a : α) : acts answer (pure a : Attempt α) s = [] := rfl

@[simp] theorem acts_require (e : Except Error α) : acts answer (require e) s = [] := rfl

@[simp] theorem acts_log (l : Level) (m : String) : acts answer (log l m) s = [] := rfl

theorem acts_call_of_not_mutates {c : Call} (h : c.mutates = false) :
    acts answer (call c) s = [] :=
  List.filter_cons_of_neg (by simp [h])

theorem acts_call_of_mutates {c : Call} (h : c.mutates = true) :
    acts answer (call c) s = [(c, s)] :=
  List.filter_cons_of_pos (by simp [h])

/-- The acts of the first attempt are acts of the two in a row. -/
theorem mem_acts_bind {m : Call × σ} (hm : m ∈ acts answer x s) :
    m ∈ acts answer (x >>= f : Attempt β) s := by
  cases h : result answer x s with
  | ok a => exact acts_bind_of_ok h ▸ List.mem_append_left _ hm
  | error e => exact acts_bind_of_error h ▸ hm

/-- What is made of the result does not matter. -/
@[simp] theorem acts_map (g : α → β) : acts answer (g <$> x : Attempt β) s = acts answer x s := by
  rw [map_eq_pure_bind]
  cases h : result answer x s with
  | ok a => rw [acts_bind_of_ok h, acts_pure, List.append_nil]
  | error e => exact acts_bind_of_error h

@[simp] theorem final_map (g : α → β) :
    final answer (g <$> x : Attempt β) s = final answer x s := by
  rw [map_eq_pure_bind]
  exact final_bind_either (P := (· = final answer x s)) rfl fun a _ => rfl

theorem result_map_eq_ok_iff {g : α → β} {b : β} :
    result answer (g <$> x : Attempt β) s = .ok b ↔ ∃ a, result answer x s = .ok a ∧ g a = b := by
  rw [map_eq_pure_bind, result_bind_eq_ok_iff]
  simp

/-- An attempt that changes nothing can be left out before another one. -/
theorem acts_bind_of_nil (hx : acts answer x s = []) :
    acts answer (x >>= f : Attempt β) s = []
      ∨ ∃ a, result answer x s = .ok a
        ∧ acts answer (x >>= f : Attempt β) s = acts answer (f a) (final answer x s) := by
  cases h : result answer x s with
  | error e => exact .inl ((acts_bind_of_error h).trans hx)
  | ok a => exact .inr ⟨a, rfl, by rw [acts_bind_of_ok h, hx, List.nil_append]⟩

theorem sequential_acts_eq_nil :
    Sequential fun _ x => ∀ s, acts answer x s = [] where
  pure _ _ := rfl
  bind hx hf s := by
    rcases acts_bind_of_nil (hx s) with h | ⟨a, -, h⟩
    · exact h
    · exact h.trans (hf a _)

end Attempt

/-! ### The steps -/

/-- The call that a decision asks for. -/
def Decision.request (database collection : String) (d : Definition) (keys : Value) :
    Decision → Option Call
  | .keep => none
  | .attach index seconds => some (.expireIndex database collection index seconds)
  | .create _ => some (.createIndex database collection keys (Definition.options d))

namespace Schema

open Attempt Procedure

variable {σ : Type} {answer : Handler σ} {database collection name : String} {d : Definition}
  {keys : Value} {s : σ}

@[simp] theorem acts_logDefinition (message collection : String) (d : Definition) (s : σ) :
    acts answer (logDefinition message collection d) s = [] :=
  sequential_acts_eq_nil.bind (fun _ => acts_require _) (fun _ _ => acts_log _ _) s

theorem acts_findIndex : acts answer (findIndex database collection keys) s = [] :=
  sequential_acts_eq_nil.bind (fun _ => acts_call_of_not_mutates rfl) (fun _ _ => rfl) s

/-- Acting on a decision is making the call that it asks for. -/
theorem acts_enact (decision : Decision) :
    acts answer (enact database collection d keys decision) s
      = (decision.request database collection d keys).toList.map fun c => (c, s) := by
  have hrecord : ∀ message (o : Outcome) (s : σ), acts answer
      (logDefinition message collection d >>= fun _ => pure o : Attempt Outcome) s = [] :=
    fun message o s => sequential_acts_eq_nil.bind (acts_logDefinition message collection d)
      (fun _ _ => rfl) s
  cases decision with
  | keep => exact hrecord _ _ s
  | attach index seconds =>
    rw [enact]
    cases h : result answer (expireIndex database collection index seconds) s with
    | ok a => rw [acts_bind_of_ok h, hrecord]; rfl
    | error e => rw [acts_bind_of_error h]; rfl
  | create conflict =>
    have hwarn : acts answer (warnConflict collection conflict) s = [] := by
      cases conflict <;> rfl
    rw [enact, acts_bind_of_ok (result_warnConflict collection conflict s), hwarn,
      final_warnConflict, List.nil_append]
    cases h : result answer
        (call (.createIndex database collection keys (Definition.options d))) s with
    | ok a => rw [acts_bind_of_ok h, hrecord]; rfl
    | error e => rw [acts_bind_of_error h]; rfl

/-- What has been seen is acted on by the call that is asked for. -/
theorem acts_ensureIndex_of_seen {xs : Indexes} {found : Option (String × Info)}
    (h : Seen answer database collection d s keys xs found) :
    acts answer (ensureIndex database collection d) s
      = ((Decision.of found d).request database collection d keys).toList.map fun c =>
          (c, listed answer database collection s) := by
  have hkeys : result answer (require (Definition.keys d)) s = .ok keys := h.declared
  have hfound : result answer (findIndex database collection keys) s = .ok found :=
    result_findIndex_eq_ok_iff.2 ⟨xs, h.listing, h.first⟩
  rw [ensureIndex, acts_bind_of_ok hkeys, acts_require, final_require, List.nil_append,
    acts_bind_of_ok hfound, acts_findIndex, final_findIndex, List.nil_append, acts_enact]

/-- Bringing an index into being changes nothing, or makes the one call that is asked for by the
decision on what has been listed. -/
theorem acts_ensureIndex (answer : Handler σ) (database collection : String) (d : Definition)
    (s : σ) :
    acts answer (ensureIndex database collection d) s = []
      ∨ ∃ keys xs found c, Seen answer database collection d s keys xs found
        ∧ (Decision.of found d).request database collection d keys = some c
        ∧ acts answer (ensureIndex database collection d) s
          = [(c, listed answer database collection s)] := by
  cases hk : Definition.keys d with
  | error e =>
    rw [ensureIndex, hk]
    exact .inl (acts_bind_of_error (result_require _))
  | ok keys =>
    have hkeys : result answer (require (Definition.keys d)) s = .ok keys := hk
    cases hf : result answer (findIndex database collection keys) s with
    | error e =>
      rw [ensureIndex, acts_bind_of_ok hkeys, final_require, acts_bind_of_error hf]
      exact .inl acts_findIndex
    | ok found =>
      obtain ⟨xs, hl, hx⟩ := result_findIndex_eq_ok_iff.1 hf
      have hseen : Seen answer database collection d s keys xs found := ⟨hk, hl, hx⟩
      rw [acts_ensureIndex_of_seen hseen]
      cases hc : (Decision.of found d).request database collection d keys with
      | none => exact .inl rfl
      | some c => exact .inr ⟨keys, xs, found, c, hseen, hc, rfl⟩

/-- Bringing a collection into being changes nothing, or creates it after it has not been
listed. -/
theorem acts_ensureCollection (answer : Handler σ) (database name : String) (s : σ) :
    acts answer (ensureCollection database name) s = []
      ∨ ∃ names, (answer (.listCollections database) s).1 = .ok names ∧ name ∉ names
        ∧ acts answer (ensureCollection database name) s
          = [(.createCollection database name, listedCollections answer database s)] := by
  rw [ensureCollection]
  have hlist : acts answer (call (.listCollections database)) s = [] :=
    acts_call_of_not_mutates rfl
  rcases acts_bind_of_nil hlist with h | ⟨names, hl, h⟩
  · exact .inl h
  · rw [h]
    by_cases hn : name ∈ names
    · simp only [hn, if_true]
      exact .inl rfl
    · simp only [hn, if_false]
      refine .inr ⟨names, hl, hn, ?_⟩
      cases hc : result answer (call (.createCollection database name))
          (final answer (call (.listCollections database)) s) with
      | error e => exact acts_bind_of_error hc
      | ok u => exact acts_bind_of_ok hc

/-- Verifying changes nothing. -/
theorem acts_verify (answer : Handler σ) (database : String) (s : σ) :
    acts answer (verify database) s = [] :=
  Sequential.missingIn sequential_acts_eq_nil (fun _ _ => rfl) (fun _ _ => rfl) collections s

end Schema

end Provisioner
