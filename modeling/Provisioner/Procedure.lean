import Provisioner.Level
import Provisioner.Store.Server

/-!
# Procedures

What this library does with a store is described by procedures: a procedure makes a call, goes on
according to the answer, leaves a notice now and then, and ends with a value. A procedure is data.
It can be carried out against a server, with or without faults, to the end or up to any of its
calls, and several of them can be carried out in turns.

An error is an answer like any other: the procedure that gets it decides how to go on. Most of
them stop at the first error; these are written in the monad `Attempt`, in which errors end the
work.

## What is seen of a procedure

Carrying out a procedure yields a trace, in which calls and notices stand in the order in which
they happened, each call with its outcome. Records and lines that a procedure leaves are notices.
Nothing else of a procedure can be seen from outside but its result and what became of the server.

## Main definitions

* `Notice`, `Event` — what a procedure leaves behind, and what a trace consists of
* `Procedure`, `Procedure.bind` — procedures, one after the other
* `Procedure.run` — a procedure carried out by a handler of calls
* `Attempt` — procedures that errors end
* `Attempt.call`, `require`, `log`, `print` — the steps of which they are made

## Main results

* `Procedure.run_bind` — carrying out two procedures in a row
* `Procedure.bind_assoc`, `bind_done` — the laws of sequencing
-/

namespace Provisioner

/-- What a procedure leaves behind: a record, or a line for the reader. -/
inductive Notice
  | record (level : Level) (message : String)
  | line (text : String)
deriving DecidableEq

/-- What happens while a procedure is carried out: a call with its error, if it failed, or a
notice. -/
inductive Event
  | call (c : Call) (error : Option Error)
  | notice (n : Notice)

/-- Calls and notices up to a result of type `α`. -/
inductive Procedure (α : Type) : Type
  | done (value : α)
  | leave (n : Notice) (rest : Procedure α)
  | ask (c : Call) (rest : Except Error c.Answer → Procedure α)

namespace Procedure

variable {α β γ σ : Type}

/-- One procedure, and then another that depends on its result. -/
def bind : Procedure α → (α → Procedure β) → Procedure β
  | .done value, next => next value
  | .leave n rest, next => .leave n (bind rest next)
  | .ask c rest, next => .ask c fun answer => bind (rest answer) next

instance : Monad Procedure where
  pure := .done
  bind := bind

@[simp] theorem bind_eq (p : Procedure α) (next : α → Procedure β) : p >>= next = bind p next := rfl

@[simp] theorem pure_eq (value : α) : (pure value : Procedure α) = .done value := rfl

@[simp] theorem done_bind (value : α) (next : α → Procedure β) :
    bind (.done value) next = next value := rfl

@[simp] theorem bind_done (p : Procedure α) : bind p .done = p := by
  induction p with
  | done value => rfl
  | leave n rest ih => simp [bind, ih]
  | ask c rest ih => simp [bind, ih]

theorem bind_assoc (p : Procedure α) (f : α → Procedure β) (g : β → Procedure γ) :
    bind (bind p f) g = bind p fun value => bind (f value) g := by
  induction p with
  | done value => rfl
  | leave n rest ih => simp [bind, ih]
  | ask c rest ih => simp [bind, ih]

instance : LawfulMonad Procedure :=
  LawfulMonad.mk' Procedure bind_done (fun _ _ => rfl) bind_assoc

/-! ### Carrying out -/

/-- The error of an outcome, if it is one. -/
def errorOf : Except Error β → Option Error
  | .ok _ => none
  | .error e => some e

/-- A procedure carried out by a handler: its result, the trace, and the last state. -/
def run (answer : Handler σ) : Procedure α → σ → α × List Event × σ
  | .done value, s => (value, [], s)
  | .leave n rest, s =>
    let (value, trace, s') := run answer rest s
    (value, .notice n :: trace, s')
  | .ask c rest, s =>
    let (outcome, s₁) := answer c s
    let (value, trace, s₂) := run answer (rest outcome) s₁
    (value, .call c (errorOf outcome) :: trace, s₂)

/-- The result of a run. -/
def result (answer : Handler σ) (p : Procedure α) (s : σ) : α := (run answer p s).1

/-- The trace of a run. -/
def trace (answer : Handler σ) (p : Procedure α) (s : σ) : List Event := (run answer p s).2.1

/-- The last state of a run. -/
def final (answer : Handler σ) (p : Procedure α) (s : σ) : σ := (run answer p s).2.2

/-- The second procedure starts in the state in which the first one ends, and its trace follows. -/
theorem run_bind (answer : Handler σ) (p : Procedure α) (next : α → Procedure β) (s : σ) :
    run answer (bind p next) s
      = (result answer (next (result answer p s)) (final answer p s),
         trace answer p s ++ trace answer (next (result answer p s)) (final answer p s),
         final answer (next (result answer p s)) (final answer p s)) := by
  induction p generalizing s with
  | done value => simp [bind, run, result, trace, final]
  | leave n rest ih => simp [bind, run, ih, result, trace, final]
  | ask c rest ih => simp [bind, run, ih, result, trace, final]

end Procedure

namespace Event

/-- The calls of a trace. -/
def calls (trace : List Event) : List Call :=
  trace.filterMap fun | .call c _ => some c | .notice _ => none

/-- The records of a trace. -/
def records (trace : List Event) : List (Level × String) :=
  trace.filterMap fun | .notice (.record level message) => some (level, message) | _ => none

/-- The lines of a trace. -/
def lines (trace : List Event) : List String :=
  trace.filterMap fun | .notice (.line text) => some text | _ => none

@[simp] theorem calls_append (s t : List Event) : calls (s ++ t) = calls s ++ calls t := by
  simp [calls]

@[simp] theorem records_append (s t : List Event) : records (s ++ t) = records s ++ records t := by
  simp [records]

@[simp] theorem lines_append (s t : List Event) : lines (s ++ t) = lines s ++ lines t := by
  simp [lines]

end Event

/-- Procedures that errors end. -/
abbrev Attempt (α : Type) : Type := ExceptT Error Procedure α

namespace Attempt

variable {α : Type}

/-- An attempt from the procedure that yields its outcome. -/
def ofProcedure (p : Procedure (Except Error α)) : Attempt α := ExceptT.mk p

/-- Go on with a value, or end with the error in its place. -/
def require (e : Except Error α) : Attempt α := ofProcedure (.done e)

/-- Make a call and wait for its answer. -/
def call (c : Call) : Attempt c.Answer := ofProcedure (.ask c .done)

/-- Leave a record. -/
def log (level : Level) (message : String) : Attempt Unit :=
  ofProcedure (.leave (.record level message) (.done (.ok ())))

/-- Leave a line for the reader. -/
def print (text : String) : Attempt Unit := ofProcedure (.leave (.line text) (.done (.ok ())))

end Attempt

end Provisioner
