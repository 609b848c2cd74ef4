import Provisioner.Proofs.Store.CarefulServer
import Provisioner.Proofs.Schema.SuccessfulRun

/-!
# Work that is interrupted at a call

A script says of each call in turn whether it fails, and with which error; a call that fails has no
effect. An attempt that yields passes on every error of a call, so it is over with the first call
that fails. What has happened until then is what happens without the failure: the same calls and
notices, and the same state, in which the attempt stands before that call.

Applying the schema yields, and it announces nothing before its last call.

## Main definitions

* `Script`, `Handler.scripted` — which calls fail, and a handler under which they do
* `Procedure.after` — the state after some of the calls
* `Procedure.Yields` — a procedure that passes on every error of a call
* `Schema.Struck` — what is seen of applying the schema if one of its calls fails

## Main results

* `Procedure.Yields.run_strikeAt` — the run up to the call that fails
* `Procedure.Yields.scripted_eq_ok` — a success under a script is the success without it
* `FaultyServer.exists_script` — a server whose faults raise errors is a server with a script
* `Schema.struck_apply` — applying the schema, interrupted at any of its calls
-/

namespace Provisioner

/-- Which of the calls to come fail, in their order, and with which error; the calls that are not
mentioned are carried out. -/
abbrev Script : Type := List (Option Error)

/-- Only the call after the first `k` fails. -/
def Script.strikeAt (k : Nat) (e : Error) : Script := List.replicate k none ++ [some e]

theorem Script.strikeAt_zero (e : Error) : strikeAt 0 e = [some e] := rfl

theorem Script.strikeAt_succ (k : Nat) (e : Error) : strikeAt (k + 1) e = none :: strikeAt k e :=
  rfl

/-- A handler of which some calls fail without effect, as a script has it. -/
def Handler.scripted {σ : Type} (answer : Handler σ) : Handler (σ × Script) := fun c s =>
  match s.2 with
  | some e :: script => (.error e, (s.1, script))
  | script => ((answer c s.1).1, ((answer c s.1).2, script.tail))

namespace Procedure

variable {α β σ : Type} {answer : Handler σ} {s : σ} {script : Script}

theorem scripted_some (answer : Handler σ) (c : Call) (s : σ) (e : Error) (script : Script) :
    answer.scripted c (s, some e :: script) = (.error e, (s, script)) := rfl

theorem scripted_none (answer : Handler σ) (c : Call) (s : σ) (script : Script) :
    answer.scripted c (s, none :: script) = ((answer c s).1, ((answer c s).2, script)) := rfl

/-- Under a script a call fails without effect, or is carried out. -/
theorem scripted_eq (answer : Handler σ) (c : Call) (s : σ) (script : Script) :
    (∃ e rest, answer.scripted c (s, script) = (.error e, (s, rest)))
      ∨ ∃ rest, answer.scripted c (s, script) = ((answer c s).1, ((answer c s).2, rest)) := by
  match script with
  | [] => exact .inr ⟨[], rfl⟩
  | none :: script => exact .inr ⟨script, rfl⟩
  | some e :: script => exact .inl ⟨e, script, rfl⟩

/-- The state after the first `k` calls, or the last state if there are not so many. -/
def after (answer : Handler σ) : Procedure α → Nat → σ → σ
  | .done _, _, s => s
  | .leave _ rest, k, s => after answer rest k s
  | .ask _ _, 0, s => s
  | .ask c rest, k + 1, s => after answer (rest (answer c s).1) k (answer c s).2

/-- A procedure that is over, with the same error, as soon as a call fails. -/
def Yields : Procedure (Except Error α) → Prop
  | .done _ => True
  | .leave _ rest => Yields rest
  | .ask _ rest => (∀ e, rest (.error e) = .done (.error e)) ∧ ∀ a, Yields (rest (.ok a))

/-- If a call fails, then what has happened before is what happens before this call without the
failure, and nothing happens after it. -/
theorem Yields.run_strikeAt {p : Procedure (Except Error α)} (hp : p.Yields) {k : Nat}
    (hk : k < (Event.calls (trace answer p s)).length) (e : Error) :
    ∃ before c error rest, trace answer p s = before ++ .call c error :: rest
      ∧ (Event.calls before).length = k
      ∧ run answer.scripted p (s, .strikeAt k e)
        = (.error e, before ++ [.call c (some e)], (after answer p k s, [])) := by
  induction p generalizing s k with
  | done value => exact absurd hk (Nat.not_lt_zero k)
  | leave n rest ih =>
    obtain ⟨before, c, error, later, ht, hcalls, hr⟩ := ih hp hk
    refine ⟨.notice n :: before, c, error, later, congrArg (Event.notice n :: ·) ht, hcalls, ?_⟩
    rw [run_leave, result, trace, final, hr]
    rfl
  | ask c rest ih =>
    obtain ⟨hstop, hgo⟩ := hp
    cases k with
    | zero =>
      refine ⟨[], c, _, _, trace_ask c rest, rfl, ?_⟩
      rw [Script.strikeAt_zero, run_ask, scripted_some, hstop]
      rfl
    | succ k =>
      have hlength : k
          < (Event.calls (trace answer (rest (answer c s).1) (answer c s).2)).length :=
        Nat.lt_of_succ_lt_succ hk
      -- The call is answered, for with an error the procedure would be over.
      cases ha : (answer c s).1 with
      | error error =>
        rw [ha, hstop] at hlength
        exact absurd hlength (Nat.not_lt_zero k)
      | ok a =>
        rw [ha] at hlength
        obtain ⟨before, c', error, later, ht, hcalls, hr⟩ := ih (.ok a) (hgo a) hlength
        refine ⟨.call c none :: before, c', error, later, ?_, congrArg (· + 1) hcalls, ?_⟩
        · rw [trace_ask, ha, ht]
          rfl
        · rw [Script.strikeAt_succ, run_ask, scripted_none, after, ha, result, trace, final, hr]
          rfl

/-- A success under a script is the success without it, since no call has failed. -/
theorem Yields.scripted_eq_ok {p : Procedure (Except Error α)} (hp : p.Yields) {a : α}
    (h : result answer.scripted p (s, script) = .ok a) :
    result answer p s = .ok a ∧ (final answer.scripted p (s, script)).1 = final answer p s := by
  induction p generalizing s script with
  | done value => exact ⟨h, rfl⟩
  | leave n rest ih => exact ih hp h
  | ask c rest ih =>
    obtain ⟨hstop, hgo⟩ := hp
    rw [result_ask] at h ⊢
    rw [final_ask, final_ask]
    rcases scripted_eq answer c s script with ⟨e, later, he⟩ | ⟨later, he⟩
    · rw [he, hstop] at h
      exact nomatch h
    · rw [he] at h ⊢
      cases ha : (answer c s).1 with
      | error error =>
        rw [ha, hstop] at h
        exact nomatch h
      | ok b =>
        rw [ha] at h
        exact ih (.ok b) (hgo b) h

end Procedure

open Procedure in
/-- A server whose faults raise errors does what the server does under some script. -/
theorem FaultyServer.exists_script {α : Type} (p : Procedure α) (s : FaultyServer)
    (h : ∀ f ∈ s.faults, f.error ≠ none) :
    ∃ script, result answer p s = result Server.answer.scripted p (s.server, script)
      ∧ trace answer p s = trace Server.answer.scripted p (s.server, script)
      ∧ (final answer p s).server = (final Server.answer.scripted p (s.server, script)).1 := by
  induction p generalizing s with
  | done value => exact ⟨[], rfl, rfl, rfl⟩
  | leave n rest ih =>
    obtain ⟨script, hr, ht, hf⟩ := ih s h
    exact ⟨script, hr, congrArg (Event.notice n :: ·) ht, hf⟩
  | ask c rest ih =>
    obtain ⟨hstruck, hleft⟩ := Fault.forall_strike (P := (· ≠ none)) c h
    simp only [result_ask, trace_ask, final_ask]
    cases ho : (Fault.strike c s.faults).1 with
    | none =>
      have ha : answer c s = forward c { s with faults := (Fault.strike c s.faults).2 } := by
        simp only [answer, ho]
      obtain ⟨script, hr, ht, hf⟩ := ih (answer c s).1 (answer c s).2 (by rw [ha]; exact hleft)
      rw [ha] at hr ht hf ⊢
      exact ⟨none :: script, hr, congrArg (_ :: ·) ht, hf⟩
    | some o =>
      cases o with
      | none => exact absurd rfl (hstruck none ho)
      | some e =>
        have ha : answer c s = (.error e, { s with faults := (Fault.strike c s.faults).2 }) := by
          simp only [answer, ho]
        obtain ⟨script, hr, ht, hf⟩ := ih (answer c s).1 (answer c s).2 (by rw [ha]; exact hleft)
        rw [ha] at hr ht hf ⊢
        exact ⟨some e :: script, hr, congrArg (_ :: ·) ht, hf⟩

/-! ### Attempts that yield -/

namespace Attempt

open Procedure

variable {α β σ : Type} {answer : Handler σ} {P : Event → Prop} {s : σ}

theorem yields_bind {x : Attempt α} {f : α → Attempt β} (hx : Yields x) (hf : ∀ a, Yields (f a)) :
    Yields (x >>= f : Attempt β) := by
  show Yields (Procedure.bind x (ExceptT.bindCont f))
  induction (x : Procedure (Except Error α)) with
  | done value =>
    cases value with
    | ok a => exact hf a
    | error e => trivial
  | leave n rest ih => exact ih hx
  | ask c rest ih =>
    obtain ⟨hstop, hgo⟩ := hx
    exact ⟨fun e => congrArg (Procedure.bind · (ExceptT.bindCont f)) (hstop e),
      fun a => ih (.ok a) (hgo a)⟩

theorem sequential_yields : Sequential fun _ x => Yields x where
  pure _ := trivial
  bind := yields_bind

/-- If two attempts in a row fail, then either the first one fails, or the second one does. -/
theorem forall_mem_trace_of_error {x : Attempt α} {f : α → Attempt β} {e : Error}
    (h : result answer (x >>= f : Attempt β) s = .error e) (hx : ∀ ev ∈ trace answer x s, P ev)
    (hf : ∀ a, result answer (f a) (final answer x s) = .error e →
      ∀ ev ∈ trace answer (f a) (final answer x s), P ev) :
    ∀ ev ∈ trace answer (x >>= f : Attempt β) s, P ev := by
  cases hr : result answer x s with
  | ok a =>
    rw [result_bind_of_ok hr] at h
    exact Schema.forall_mem_trace_bind hr hx (hf a h)
  | error e' =>
    rw [trace_bind_of_error hr]
    exact hx

end Attempt

namespace Schema

open Attempt Procedure

variable {σ : Type} {answer : Handler σ} {target database : String} {a : σ}

theorem stepwise_yields : Stepwise database fun _ x => Yields x where
  toSequential := sequential_yields
  read _ := trivial
  record _ _ _ := trivial
  call _ _ := ⟨fun _ => rfl, fun _ => trivial⟩

theorem yields_apply : Yields (apply target) :=
  stepwise_yields.apply (fun _ _ => trivial) (fun _ => trivial) fun _ => trivial

/-! ### What is not announced -/

/-- What happens before the success is announced: calls, and records about collections and
indexes. -/
def Underway : Event → Prop
  | .call _ _ => True
  | .notice (.record _ message) => ¬ AboutSchema message
  | .notice (.line _) => False

theorem Underway.quiet {e : Event} (h : Underway e) : Quiet e := by
  match e with
  | .call c error => trivial
  | .notice (.record level message) => trivial
  | .notice (.line text) => exact h

theorem not_aboutSchema_of_mem_records {events : List Event} (h : ∀ e ∈ events, Underway e)
    {r : Level × String} (hr : r ∈ Event.records events) : ¬ AboutSchema r.2 := by
  obtain ⟨e, he, hm⟩ := List.mem_filterMap.1 hr
  have hu := h e he
  match e with
  | .call c error => exact nomatch hm
  | .notice (.record level message) =>
    obtain rfl := Option.some.inj hm
    exact hu
  | .notice (.line text) => exact nomatch hm

/-- If applying the schema fails, then it fails before anything is announced. -/
theorem underway_apply {e : Error} (h : result answer (apply target) a = .error e) :
    ∀ ev ∈ trace answer (apply target) a, Underway ev := by
  have hsteps : Stepwise target fun _ x => Leaves answer Underway x :=
    stepwise_leaves (fun _ _ hm => hm) fun _ _ _ => trivial
  have happlying : ¬ AboutSchema ("Applying: " ++ description) :=
    not_aboutSchema (c := 'A') rfl (by decide)
  refine forall_mem_trace_of_error h (leaves_log happlying a) fun _ h => ?_
  refine forall_mem_trace_of_error h (hsteps.createCollection _ _) fun first h => ?_
  refine forall_mem_trace_of_error h (hsteps.createCollection _ _) fun second h => ?_
  refine forall_mem_trace_of_error h (hsteps.verify _) fun missing h => ?_
  -- Nothing happens between the verification and the error about missing declarations.
  cases missing with
  | nil => exact nomatch h
  | cons name names => exact fun ev hev => nomatch hev

/-! ### Applying the schema -/

/-- What is seen of applying the schema when the call after the first `k` fails with an error, in
comparison with what is seen when none does. -/
structure Struck (answer : Handler σ) (target : String) (a : σ) (k : Nat) (e : Error) : Prop where
  raised : result answer.scripted (apply target) (a, .strikeAt k e) = .error e
  calls : Event.calls (trace answer.scripted (apply target) (a, .strikeAt k e))
    = (Event.calls (trace answer (apply target) a)).take (k + 1)
  silent : Event.lines (trace answer.scripted (apply target) (a, .strikeAt k e)) = []
  unverified : ∀ level, (level, "Schema verified: all declared indexes present")
    ∉ Event.records (trace answer.scripted (apply target) (a, .strikeAt k e))
  unsummarized : ∀ level (tally : Tally), (level, "Schema summary: " ++ tally.summary)
    ∉ Event.records (trace answer.scripted (apply target) (a, .strikeAt k e))
  state : (final answer.scripted (apply target) (a, .strikeAt k e)).1
    = after answer (apply target) k a

/-- **An interrupted application.** Whatever answers the calls, and whichever of the calls that
applying the schema makes fails: this call is the last one, its error is the result, nothing has
been announced, and the state is the one before that call. -/
theorem struck_apply (answer : Handler σ) (target : String) (a : σ) {k : Nat}
    (hk : k < (Event.calls (trace answer (apply target) a)).length) (e : Error) :
    Struck answer target a k e := by
  obtain ⟨before, c, error, rest, ht, hbefore, hr⟩ := yields_apply.run_strikeAt hk e
  have hresult : result answer.scripted (apply target) (a, .strikeAt k e) = .error e := by
    rw [result, hr]
  have htrace : trace answer.scripted (apply target) (a, .strikeAt k e)
      = before ++ [.call c (some e)] := by
    rw [trace, hr]
  have hunderway := underway_apply hresult
  refine ⟨hresult, ?_, lines_eq_nil fun ev hev => (hunderway ev hev).quiet, fun level hm => ?_,
    fun level tally hm => ?_, by rw [final, hr]⟩
  · have hlast : Event.calls [.call c (some e)] = [c] := rfl
    have hcalls : Event.calls (.call c error :: rest) = c :: Event.calls rest := rfl
    rw [htrace, ht, Event.calls_append, Event.calls_append, hlast, hcalls, ← hbefore,
      List.take_append, List.take_of_length_le (Nat.le_succ _), Nat.add_sub_cancel_left,
      List.take_one]
    rfl
  · exact not_aboutSchema_of_mem_records hunderway hm
      ⟨"verified: all declared indexes present", rfl⟩
  · refine not_aboutSchema_of_mem_records hunderway hm ⟨"summary: " ++ tally.summary, ?_⟩
    rw [← String.append_assoc]
    rfl

/-- A server whose sessions have a plain index on the time of expiry. -/
def timelessServer : Server where
  store := [("appdb", [(sessions, [
    ("by_expiry", [("key", .doc [("expires_at", .int 1)])])])])]
  clients := 0

/-- The call that would give this index a time to live comes after fifteen others. -/
theorem struck_apply_timeless :
    15 < (Event.calls (trace Server.answer (apply "appdb") timelessServer)).length
      ∧ Struck Server.answer "appdb" timelessServer 15 (.cancelled "called off") := by
  have hk : 15 < (Event.calls (trace Server.answer (apply "appdb") timelessServer)).length := by
    decide +kernel
  exact ⟨hk, struck_apply Server.answer "appdb" timelessServer hk _⟩

end Schema

end Provisioner
