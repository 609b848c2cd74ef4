import Provisioner.Procedure

/-!
# Carrying out attempts

An attempt is a procedure whose result may be an error, and errors end it. Three things are seen
of carrying it out: the result, the trace and the last state. The laws here say what each of them
is for the steps that attempts are made of, and for two attempts in a row: if the first one fails,
the second one does not take place.

## Main results

* `Procedure.final_of_stays` — what every call leaves true is true in the end
* `Attempt.run_bind_of_ok`, `run_bind_of_error` — two attempts in a row
* `Attempt.result_bind_eq_ok_iff` — both of them have to succeed
* `Attempt.final_bind_rel` — a transitive relation between states that both of them respect
-/

namespace Provisioner

/-! ### Procedures -/

namespace Procedure

variable {α σ : Type} {answer : Handler σ} {s : σ}

@[simp] theorem run_done (value : α) : run answer (.done value) s = (value, [], s) := rfl

theorem run_leave (n : Notice) (rest : Procedure α) :
    run answer (.leave n rest) s
      = (result answer rest s, .notice n :: trace answer rest s, final answer rest s) := rfl

theorem run_ask (c : Call) (rest : Except Error c.Answer → Procedure α) :
    run answer (.ask c rest) s
      = (result answer (rest (answer c s).1) (answer c s).2,
         .call c (errorOf (answer c s).1) :: trace answer (rest (answer c s).1) (answer c s).2,
         final answer (rest (answer c s).1) (answer c s).2) := rfl

theorem result_ask (c : Call) (rest : Except Error c.Answer → Procedure α) :
    result answer (.ask c rest) s = result answer (rest (answer c s).1) (answer c s).2 := rfl

theorem trace_ask (c : Call) (rest : Except Error c.Answer → Procedure α) :
    trace answer (.ask c rest) s
      = .call c (errorOf (answer c s).1) :: trace answer (rest (answer c s).1) (answer c s).2 :=
  rfl

theorem final_ask (c : Call) (rest : Except Error c.Answer → Procedure α) :
    final answer (.ask c rest) s = final answer (rest (answer c s).1) (answer c s).2 := rfl

/-- What every call leaves true is true in the end. -/
theorem final_of_stays {P : σ → Prop} (hP : ∀ (c : Call) s, P s → P (answer c s).2)
    (p : Procedure α) (hs : P s) : P (final answer p s) := by
  induction p generalizing s with
  | done value => exact hs
  | leave n rest ih => exact ih hs
  | ask c rest ih =>
    rw [final_ask]
    exact ih _ (hP c s hs)

end Procedure

namespace Attempt

open Procedure

variable {α β σ : Type} {answer : Handler σ} {s : σ}

/-! ### Single steps -/

@[simp] theorem result_pure (a : α) : result answer (pure a : Attempt α) s = .ok a := rfl

@[simp] theorem trace_pure (a : α) : trace answer (pure a : Attempt α) s = [] := rfl

@[simp] theorem final_pure (a : α) : final answer (pure a : Attempt α) s = s := rfl

@[simp] theorem result_require (e : Except Error α) : result answer (require e) s = e := rfl

@[simp] theorem trace_require (e : Except Error α) : trace answer (require e) s = [] := rfl

@[simp] theorem final_require (e : Except Error α) : final answer (require e) s = s := rfl

@[simp] theorem result_call (c : Call) : result answer (call c) s = (answer c s).1 := rfl

@[simp] theorem trace_call (c : Call) :
    trace answer (call c) s = [.call c (errorOf (answer c s).1)] := rfl

@[simp] theorem final_call (c : Call) : final answer (call c) s = (answer c s).2 := rfl

@[simp] theorem result_log (l : Level) (m : String) : result answer (log l m) s = .ok () := rfl

@[simp] theorem trace_log (l : Level) (m : String) :
    trace answer (log l m) s = [.notice (.record l m)] := rfl

@[simp] theorem final_log (l : Level) (m : String) : final answer (log l m) s = s := rfl

@[simp] theorem result_print (text : String) : result answer (print text) s = .ok () := rfl

@[simp] theorem trace_print (text : String) :
    trace answer (print text) s = [.notice (.line text)] := rfl

@[simp] theorem final_print (text : String) : final answer (print text) s = s := rfl

/-! ### Two in a row -/

section Bind

variable {x : Attempt α} {f : α → Attempt β} {a : α} {e : Error}

private theorem run_bind_eq (x : Attempt α) (f : α → Attempt β) (s : σ) :
    run answer (x >>= f : Attempt β) s
      = (result answer (ExceptT.bindCont f (result answer x s)) (final answer x s),
         trace answer x s
          ++ trace answer (ExceptT.bindCont f (result answer x s)) (final answer x s),
         final answer (ExceptT.bindCont f (result answer x s)) (final answer x s)) :=
  run_bind answer x (ExceptT.bindCont f) s

/-- After a success the second attempt takes place. -/
theorem run_bind_of_ok (h : result answer x s = .ok a) :
    run answer (x >>= f : Attempt β) s
      = (result answer (f a) (final answer x s),
         trace answer x s ++ trace answer (f a) (final answer x s),
         final answer (f a) (final answer x s)) := by
  rw [run_bind_eq, h]
  rfl

/-- After a failure it does not. -/
theorem run_bind_of_error (h : result answer x s = .error e) :
    run answer (x >>= f : Attempt β) s = (.error e, trace answer x s, final answer x s) := by
  rw [run_bind_eq, h]
  exact Prod.ext rfl (Prod.ext (List.append_nil _) rfl)

theorem result_bind_of_ok (h : result answer x s = .ok a) :
    result answer (x >>= f : Attempt β) s = result answer (f a) (final answer x s) := by
  rw [result, run_bind_of_ok h]

theorem result_bind_of_error (h : result answer x s = .error e) :
    result answer (x >>= f : Attempt β) s = .error e := by
  rw [result, run_bind_of_error h]

theorem trace_bind_of_ok (h : result answer x s = .ok a) :
    trace answer (x >>= f : Attempt β) s
      = trace answer x s ++ trace answer (f a) (final answer x s) := by
  rw [trace, run_bind_of_ok h]

theorem trace_bind_of_error (h : result answer x s = .error e) :
    trace answer (x >>= f : Attempt β) s = trace answer x s := by
  rw [trace, run_bind_of_error h]

theorem final_bind_of_ok (h : result answer x s = .ok a) :
    final answer (x >>= f : Attempt β) s = final answer (f a) (final answer x s) := by
  rw [final, run_bind_of_ok h]

theorem final_bind_of_error (h : result answer x s = .error e) :
    final answer (x >>= f : Attempt β) s = final answer x s := by
  rw [final, run_bind_of_error h]

/-- Both attempts have to succeed. -/
theorem result_bind_eq_ok_iff {b : β} :
    result answer (x >>= f : Attempt β) s = .ok b
      ↔ ∃ a, result answer x s = .ok a ∧ result answer (f a) (final answer x s) = .ok b := by
  cases h : result answer x s with
  | ok a => simp [result_bind_of_ok h]
  | error e => simp [result_bind_of_error h]

/-- What holds where the first attempt ends, if it fails, and where the second one ends otherwise,
holds where the two in a row end. -/
theorem final_bind_either {P : σ → Prop} (first : P (final answer x s))
    (second : ∀ a, result answer x s = .ok a → P (final answer (f a) (final answer x s))) :
    P (final answer (x >>= f : Attempt β) s) := by
  cases h : result answer x s with
  | ok a =>
    rw [final_bind_of_ok h]
    exact second a h
  | error e =>
    rw [final_bind_of_error h]
    exact first

/-- A relation between states that both attempts respect, the second one wherever the first one
leads by a success, is respected by the two of them in a row. -/
theorem final_bind_rel {R : σ → σ → Prop} (trans : ∀ {a b c}, R a b → R b c → R a c)
    (first : R s (final answer x s))
    (second : ∀ a, result answer x s = .ok a →
      R (final answer x s) (final answer (f a) (final answer x s))) :
    R s (final answer (x >>= f : Attempt β) s) :=
  final_bind_either first fun a h => trans first (second a h)

end Bind

end Attempt

end Provisioner
