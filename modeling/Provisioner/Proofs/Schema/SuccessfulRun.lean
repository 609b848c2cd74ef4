import Provisioner.Proofs.Schema.StepwiseAttempt
import Provisioner.Proofs.Schema.EnsureStep

/-!
# What a success leaves behind

Applying the schema succeeds if both collections are created and nothing is found missing. What it
leaves behind is then the trace of these parts, two closing records, and one line for the reader,
which is the only line that is ever left.

## Main definitions

* `Schema.Leaves` — every event that an attempt leaves has a given property
* `Schema.Succeeds` — all parts of applying the schema succeed

## Main results

* `Schema.stepwise_leaves` — what is left on the way to the verification
* `Schema.succeeds_of_apply`, `Succeeds.result_apply` — success is that of the parts
* `Schema.Succeeds.trace_apply`, `Succeeds.lines_apply` — what is left behind
-/

namespace Provisioner

namespace Schema

open Attempt Procedure

variable {σ : Type} {answer : Handler σ} {database : String} {a : σ}

/-! ### What is left -/

section Leaves

variable {α β : Type} {P : Event → Prop}

/-- Every event that an attempt leaves has a given property. -/
def Leaves (answer : Handler σ) (P : Event → Prop) (x : Attempt α) : Prop :=
  ∀ s, ∀ e ∈ trace answer x s, P e

/-- Two attempts in a row leave what the one and then the other leaves. -/
theorem forall_mem_trace_bind {x : Attempt α} {f : α → Attempt β} {v : α}
    (h : result answer x a = .ok v) (hx : ∀ e ∈ trace answer x a, P e)
    (hf : ∀ e ∈ trace answer (f v) (final answer x a), P e) :
    ∀ e ∈ trace answer (x >>= f : Attempt β) a, P e := by
  rw [trace_bind_of_ok h]
  exact List.forall_mem_append.2 ⟨hx, hf⟩

theorem Leaves.bind {x : Attempt α} {f : α → Attempt β} (hx : Leaves answer P x)
    (hf : ∀ a, Leaves answer P (f a)) : Leaves answer P (x >>= f : Attempt β) := by
  intro s e he
  cases h : result answer x s with
  | ok v => exact forall_mem_trace_bind h (hx s) (hf v _) e he
  | error err =>
    rw [trace_bind_of_error h] at he
    exact hx s e he

theorem leaves_pure (a : α) : Leaves answer P (pure a : Attempt α) := fun _ _ he => nomatch he

theorem leaves_require (x : Except Error α) : Leaves answer P (require x) :=
  fun _ _ he => nomatch he

theorem leaves_call {c : Call} (h : ∀ error, P (.call c error)) : Leaves answer P (call c) :=
  fun _ _ he => List.mem_singleton.1 he ▸ h _

theorem leaves_log {level : Level} {message : String} (h : P (.notice (.record level message))) :
    Leaves answer P (log level message) :=
  fun _ _ he => List.mem_singleton.1 he ▸ h

theorem leaves_logDefinition (hrecord : ∀ level message, P (.notice (.record level message)))
    (message collection : String) (d : Definition) :
    Leaves answer P (logDefinition message collection d) :=
  (leaves_require _).bind fun _ => leaves_log (hrecord _ _)

theorem sequential_leaves : Attempt.Sequential fun _ x => Leaves answer P x where
  pure := leaves_pure
  bind := Leaves.bind

theorem leaves_missingIn {entries : List (String × List Definition)}
    (hlist : ∀ collection error, P (.call (.listIndexes database collection) error)) :
    Leaves answer P (missingIn database entries) :=
  Sequential.missingIn sequential_leaves (fun _ => leaves_require _)
    (fun collection => leaves_call (hlist collection)) entries

/-- What is true of the calls upon the database and of the records on the way is true of all that is
left before the success is announced. -/
theorem stepwise_leaves
    (hrecord : ∀ level {message}, ¬ AboutSchema message → P (.notice (.record level message)))
    (hcall : ∀ c error, c.database? = some database → P (.call c error)) :
    Stepwise database fun _ x => Leaves answer P x where
  toSequential := sequential_leaves
  read _ := leaves_require _
  record level _ hm := leaves_log (hrecord level hm)
  call c hc := leaves_call fun error => hcall c error hc

end Leaves

/-- An event that is not a line for the reader. -/
def Quiet : Event → Prop
  | .notice (.line _) => False
  | _ => True

theorem lines_eq_nil {events : List Event} (h : ∀ e ∈ events, Quiet e) :
    Event.lines events = [] := by
  refine List.filterMap_eq_nil_iff.2 fun e he => ?_
  have hq := h e he
  match e with
  | .call c error => rfl
  | .notice (.record level message) => rfl
  | .notice (.line text) => exact hq.elim

/-! ### Success -/

/-- The notices after both collections have been created and verified. -/
def closingEvents (first second : Tally) : List Event :=
  [.notice (.record .info "Schema verified: all declared indexes present"),
    .notice (.record .info ("Schema summary: " ++ (first.add second).summary)),
    .notice (.line confirmation)]

/-- The state after the first collection has been created. -/
abbrev afterCredentials (answer : Handler σ) (database : String) (a : σ) : σ :=
  final answer (createCollection database credentials) a

/-- The state after both collections have been created. -/
abbrev afterSessions (answer : Handler σ) (database : String) (a : σ) : σ :=
  final answer (createCollection database sessions) (afterCredentials answer database a)

/-- Applying the schema succeeds if all of its parts do and nothing is missing. -/
structure Succeeds (answer : Handler σ) (database : String) (a : σ) (first second : Tally) :
    Prop where
  credentials : result answer (createCollection database credentials) a = .ok first
  sessions : result answer (createCollection database sessions) (afterCredentials answer database a)
    = .ok second
  verified : result answer (verify database) (afterSessions answer database a) = .ok []

theorem succeeds_of_apply (h : result answer (apply database) a = .ok ()) :
    ∃ first second, Succeeds answer database a first second := by
  rw [apply, result_bind_of_ok (result_log _ _), final_log] at h
  obtain ⟨first, hfirst, h⟩ := result_bind_eq_ok_iff.1 h
  obtain ⟨second, hsecond, h⟩ := result_bind_eq_ok_iff.1 h
  obtain ⟨missing, hmissing, h⟩ := result_bind_eq_ok_iff.1 h
  cases missing with
  | nil => exact ⟨first, second, hfirst, hsecond, hmissing⟩
  | cons name names => exact nomatch h

section Succeeds

variable {first second : Tally} (h : Succeeds answer database a first second)

include h

theorem Succeeds.result_apply : result answer (apply database) a = .ok () := by
  rw [apply, result_bind_of_ok (result_log _ _), final_log, result_bind_of_ok h.credentials,
    result_bind_of_ok h.sessions, result_bind_of_ok h.verified]
  rfl

theorem Succeeds.trace_apply : trace answer (apply database) a
    = .notice (.record .info ("Applying: " ++ description))
      :: (trace answer (createCollection database Schema.credentials) a
        ++ (trace answer (createCollection database Schema.sessions)
            (afterCredentials answer database a)
          ++ (trace answer (verify database) (afterSessions answer database a)
            ++ closingEvents first second))) := by
  rw [apply, trace_bind_of_ok (result_log _ _), final_log, trace_bind_of_ok h.credentials,
    trace_bind_of_ok h.sessions, trace_bind_of_ok h.verified]
  rfl

theorem Succeeds.final_apply : final answer (apply database) a
    = final answer (verify database) (afterSessions answer database a) := by
  rw [apply, final_bind_of_ok (result_log _ _), final_log, final_bind_of_ok h.credentials,
    final_bind_of_ok h.sessions, final_bind_of_ok h.verified]
  rfl

/-- What is printed is the announcement of the success. -/
theorem Succeeds.lines_apply : Event.lines (trace answer (apply database) a) = [confirmation] := by
  have hquiet : Stepwise database fun _ x => Leaves answer Quiet x :=
    stepwise_leaves (fun _ _ _ => trivial) fun _ _ _ => trivial
  have hc : ∀ collection s,
      Event.lines (trace answer (createCollection database collection) s) = [] :=
    fun collection s => lines_eq_nil (hquiet.createCollection collection s)
  have hv : ∀ s, Event.lines (trace answer (verify database) s) = [] :=
    fun s => lines_eq_nil (hquiet.verify s)
  rw [h.trace_apply, ← List.singleton_append]
  simp only [Event.lines_append, hc, hv]
  rfl

end Succeeds

end Schema

end Provisioner
