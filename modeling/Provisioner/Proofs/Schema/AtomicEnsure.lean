import Provisioner.Proofs.Schema.ShadowedIndex
import Provisioner.Proofs.Schema.ExpiryIndex

/-!
# An index is brought into being at one stroke

Bringing an index into being reads values of any shape: the declaration, the existing indexes, and
after the one call that changes something the declaration again, for the record of what has been
done. Whatever is wrong with any of these values must come to light before the call is made. It
does, for a declaration whose keys are fields with directions: then the description cannot fail, so
that nothing at all can fail once the call has been granted.

Where the call is not granted, what becomes of the contents is for the server to say. A server that
takes back what a failing call has done is one on which bringing an index into being succeeds, or
else has had no effect. The server of this library is one up to a detail: asking for an index in a
collection that does not exist creates the collection even if the request is then rejected. With
that taken back it is such a server, whatever its contents are and whatever faults it has.

## Main definitions

* `Attempt.Harmless`, `Unfailing`, `Decisive` — attempts that change nothing, that always succeed,
  and that succeed if they have changed something
* `Handler.Transactional` — neither reading nor failing has an effect
* `FaultyServer.withdraw` — the answers of a server with faults that takes back what has failed
* `Attempt.Atomic` — one change at most, which is the last thing that can fail

## Main results

* `Procedure.view_final_of_granted_eq_nil` — without a granted change everything is as before
* `Schema.decisive_enact` — what has been decided on is done at one stroke
* `Schema.atomic_ensureIndex` — and so is the whole step
-/

namespace Provisioner

/-! ### Servers that take back what has failed -/

/-- Neither a call that only asks nor a call that fails has an effect on what is seen of the
state. -/
structure Handler.Transactional {σ γ : Type} (answer : Handler σ) (view : σ → γ) : Prop where
  asking : ∀ (c : Call) s, c.mutates = false → view (answer c s).2 = view s
  failing : ∀ (c : Call) s e, (answer c s).1 = .error e → view (answer c s).2 = view s

namespace FaultyServer

/-- The answers of a server with faults that takes back what a failing call has done. -/
def withdraw : Handler FaultyServer := fun c s =>
  match answer c s with
  | (.ok a, t) => (.ok a, t)
  | (.error e, t) => (.error e, { t with server := s.server })

theorem withdraw_of_ok {c : Call} {s : FaultyServer} {a : c.Answer}
    (h : (answer c s).1 = .ok a) : withdraw c s = (.ok a, (answer c s).2) := by
  rw [withdraw, show answer c s = (.ok a, (answer c s).2) from Prod.ext h rfl]

theorem withdraw_of_error {c : Call} {s : FaultyServer} {e : Error}
    (h : (answer c s).1 = .error e) :
    withdraw c s = (.error e, { (answer c s).2 with server := s.server }) := by
  rw [withdraw, show answer c s = (.error e, (answer c s).2) from Prod.ext h rfl]

/-- Reading shows no collection that was not there before. -/
theorem occupied_answer_of_not_mutates {c : Call} (h : c.mutates = false) (s : FaultyServer) :
    (answer c s).2.server.store.occupied = s.server.store.occupied := by
  rcases answer_cases c s with ⟨e, -, hs⟩ | ⟨-, -, hs⟩ | ⟨-, hs⟩
  · rw [hs]
  · rw [hs]
  · rw [hs]
    exact Server.occupied_answer_of_not_mutates h s.server

/-- Whatever its contents and its faults, such a server takes back what has failed. -/
theorem transactional_withdraw :
    Handler.Transactional withdraw fun s => s.server.store.occupied where
  asking c s hc := by
    cases h : (answer c s).1 with
    | ok a =>
      rw [withdraw_of_ok h]
      exact occupied_answer_of_not_mutates hc s
    | error e => rw [withdraw_of_error h]
  failing c s e he := by
    cases h : (answer c s).1 with
    | ok a =>
      rw [withdraw_of_ok h] at he
      exact nomatch he
    | error e => rw [withdraw_of_error h]

end FaultyServer

/-! ### Attempts that fail before they change something -/

namespace Procedure

variable {α σ γ : Type} {answer : Handler σ} {view : σ → γ}

/-- If no change is granted, then nothing has changed in the end. -/
theorem view_final_of_granted_eq_nil (ht : answer.Transactional view) (p : Procedure α) (s : σ)
    (h : Event.granted (trace answer p s) = []) : view (final answer p s) = view s := by
  induction p generalizing s with
  | done value => rfl
  | leave n rest ih => exact ih s h
  | ask c rest ih =>
    -- The first call has not changed anything, and neither has what follows it.
    rw [trace_ask] at h
    obtain ⟨hc, hrest⟩ := List.append_eq_nil_iff.1 (Event.granted_append [_] _ ▸ h)
    have hfirst : view (answer c s).2 = view s := by
      cases ha : (answer c s).1 with
      | error e => exact ht.failing c s e ha
      | ok a =>
        refine ht.asking c s (Bool.eq_false_iff.2 fun hm => ?_)
        simp [Event.granted, errorOf, ha, hm] at hc
    rw [final_ask, ih _ _ hrest, hfirst]

end Procedure

namespace Attempt

open Procedure

variable {α β σ γ : Type} {answer : Handler σ} {x : Attempt α} {f : α → Attempt β}

/-- No change is granted. -/
def Harmless (answer : Handler σ) (x : Attempt α) : Prop :=
  ∀ s, Event.granted (trace answer x s) = []

/-- It always succeeds. -/
def Unfailing (answer : Handler σ) (x : Attempt α) : Prop :=
  ∀ s, ∃ a, result answer x s = .ok a

/-- If a change is granted, then it succeeds. -/
def Decisive (answer : Handler σ) (x : Attempt α) : Prop :=
  ∀ s, Event.granted (trace answer x s) ≠ [] → ∃ a, result answer x s = .ok a

/-- One change at most is asked for, and if it is granted, then nothing fails any more; a failure
has had no effect on what is seen of the state. -/
structure Atomic (answer : Handler σ) (view : σ → γ) (x : Attempt α) (s : σ) : Prop where
  single : (Event.changes (trace answer x s)).length ≤ 1
  granted : Event.granted (trace answer x s) ≠ [] → ∃ a, result answer x s = .ok a
  undone : ∀ e, result answer x s = .error e → view (final answer x s) = view s

/-- What asks for no change is granted none. -/
theorem harmless_of_acts (h : ∀ s, acts answer x s = []) : Harmless answer x := by
  intro s
  refine List.eq_nil_iff_forall_not_mem.2 fun c hc => ?_
  have hmem := Event.mem_changes_of_granted hc
  rw [changes_trace, h s] at hmem
  exact nomatch hmem

theorem Harmless.decisive (h : Harmless answer x) : Decisive answer x :=
  fun s hs => absurd (h s) hs

theorem decisive_call (c : Call) : Decisive answer (call c) := by
  intro s hs
  cases ha : (answer c s).1 with
  | ok a => exact ⟨a, ha⟩
  | error e => exact absurd (by rw [trace_call, ha]; rfl) hs

/-- After a step that changes nothing it is the other one that counts. -/
theorem Harmless.bind (hx : Harmless answer x) (hf : ∀ a, Decisive answer (f a)) :
    Decisive answer (x >>= f : Attempt β) := by
  intro s hs
  cases h : result answer x s with
  | ok a =>
    rw [trace_bind_of_ok h, Event.granted_append, hx s, List.nil_append] at hs
    rw [result_bind_of_ok h]
    exact hf a _ hs
  | error e =>
    rw [trace_bind_of_error h] at hs
    exact absurd (hx s) hs

/-- What cannot fail can be done after a change. -/
theorem Decisive.bind (hx : Decisive answer x) (hf : ∀ a, Unfailing answer (f a)) :
    Decisive answer (x >>= f : Attempt β) := by
  intro s hs
  cases h : result answer x s with
  | ok a =>
    rw [result_bind_of_ok h]
    exact hf a _
  | error e =>
    rw [trace_bind_of_error h] at hs
    obtain ⟨a, ha⟩ := hx s hs
    exact nomatch h.symm.trans ha

/-- On a server that takes back what has failed, an attempt that asks for one change at most is made
at one stroke, if it cannot fail after the change. -/
theorem Decisive.atomic {view : σ → γ} (hx : Decisive answer x) (ht : answer.Transactional view)
    {s : σ} (hone : (acts answer x s).length ≤ 1) : Atomic answer view x s where
  single := by rwa [changes_trace, List.length_map]
  granted := hx s
  undone e he := by
    refine view_final_of_granted_eq_nil ht x s (Decidable.by_contra fun hs => ?_)
    obtain ⟨a, ha⟩ := hx s hs
    exact nomatch he.symm.trans ha

end Attempt

/-! ### The step -/

namespace Schema

open Attempt Procedure

variable {σ γ : Type} {answer : Handler σ} {database collection text : String} {d : Definition}

/-- A declaration that can be described can be recorded. -/
theorem unfailing_logDefinition (ht : d.describe collection = .ok text) (message : String)
    (o : Outcome) :
    Unfailing answer
      (logDefinition message collection d >>= fun _ => pure o : Attempt Outcome) := by
  intro s
  rw [result_bind_of_ok (result_logDefinition ht message s)]
  exact ⟨o, rfl⟩

/-- What has been decided on is done at one stroke, if the declaration can be described. -/
theorem decisive_enact (ht : d.describe collection = .ok text) (database : String) (keys : Value)
    (decision : Decision) : Decisive answer (enact database collection d keys decision) := by
  cases decision with
  | keep =>
    have hlog : Harmless answer (logDefinition "Index already exists" collection d) :=
      harmless_of_acts (acts_logDefinition _ collection d)
    exact hlog.bind fun _ => (harmless_of_acts fun _ => acts_pure _).decisive
  | attach index seconds =>
    have hcall : Decisive answer (expireIndex database collection index seconds) :=
      decisive_call _
    exact hcall.bind fun _ => unfailing_logDefinition ht _ _
  | create conflict =>
    have hwarn : Harmless answer (warnConflict collection conflict) :=
      harmless_of_acts fun s => by cases conflict <;> rfl
    exact hwarn.bind fun _ => (decisive_call _).bind fun _ => unfailing_logDefinition ht _ _

/-- Before anything is decided nothing is changed. -/
theorem decisive_ensureIndex (ht : d.describe collection = .ok text) (database : String) :
    Decisive answer (ensureIndex database collection d) := by
  have hkeys : Harmless answer (require (Definition.keys d)) :=
    harmless_of_acts fun _ => acts_require _
  have hfind : ∀ keys, Harmless answer (findIndex database collection keys) := fun _ =>
    harmless_of_acts fun _ => acts_findIndex
  exact hkeys.bind fun keys => (hfind keys).bind fun _ => decisive_enact ht database keys _

/-- Bringing an index into being asks for one change at most. -/
theorem length_acts_ensureIndex (answer : Handler σ) (database collection : String)
    (d : Definition) (s : σ) : (acts answer (ensureIndex database collection d) s).length ≤ 1 := by
  rcases acts_ensureIndex answer database collection d s with h | ⟨keys, xs, found, c, -, -, h⟩
  · exact h ▸ Nat.zero_le 1
  · exact h ▸ Nat.le_refl 1

/-- On a server that takes back what has failed, an index whose keys are fields with directions is
brought into being at one stroke, whatever the collection holds and whatever else is declared: it
can always be described, one change is asked for at most, nothing fails once it has been granted,
and a failure leaves everything as it was. -/
theorem atomic_ensureIndex {view : σ → γ} {fields : List (String × Value)}
    (ht : answer.Transactional view) (hk : Definition.keys d = .ok (Index.directed fields))
    (database collection : String) (s : σ) :
    (∃ text, d.describe collection = .ok text)
      ∧ Atomic answer view (ensureIndex database collection d) s := by
  obtain ⟨text, htext⟩ := Definition.describe_of_directed hk collection
  exact ⟨⟨text, htext⟩,
    (decisive_ensureIndex htext database).atomic ht (length_acts_ensureIndex ..)⟩

/-- A declaration of records that expire. -/
def expiringLogs : Definition := ascending "when" [(Index.ttl, .int 60)]

/-- A server on which no time to live can be attached. The collection has two indexes with the keys
of the declaration, and one whose keys cannot be read. -/
def stubbornServer : FaultyServer where
  server := {
    store := [("appdb", [("logs", Indexes.fresh ++ [
      ("when_1", Indexes.record (fieldKeys "when") []),
      ("when_recent", Indexes.record (fieldKeys "when") [among live]),
      ("unreadable", [("v", .int 2)])])])]
    clients := 0 }
  faults := [{
    call := .expireIndex
    database := none
    collection := none
    name := none
    skip := 0
    times := none
    error := some (.reported "AutoReconnect" "connection closed") }]

/-- The first of the indexes is asked to expire, which fails, and the contents are as before. -/
theorem atomic_expiringLogs :
    Definition.keys expiringLogs = .ok (Index.directed [("when", .int 1)])
      ∧ Event.changes (trace FaultyServer.withdraw (ensureIndex "appdb" "logs" expiringLogs)
          stubbornServer) = [.expireIndex "appdb" "logs" "when_1" (.int 60)]
      ∧ result FaultyServer.withdraw (ensureIndex "appdb" "logs" expiringLogs) stubbornServer
        = .error (.reported "AutoReconnect" "connection closed")
      ∧ (final FaultyServer.withdraw (ensureIndex "appdb" "logs" expiringLogs)
          stubbornServer).server.store.occupied = stubbornServer.server.store.occupied := by
  have hk : Definition.keys expiringLogs = .ok (Index.directed [("when", .int 1)]) := rfl
  have hr : result FaultyServer.withdraw (ensureIndex "appdb" "logs" expiringLogs) stubbornServer
      = .error (.reported "AutoReconnect" "connection closed") := rfl
  obtain ⟨-, hatomic⟩ := atomic_ensureIndex FaultyServer.transactional_withdraw hk "appdb" "logs"
    stubbornServer
  exact ⟨hk, rfl, hr, hatomic.undone _ hr⟩

end Schema

end Provisioner
