import Mathlib.Logic.Function.Basic
import Provisioner.Proofs.Error.Failure

/-!
# Procedures that take turns

Several procedures are carried out against one state. In a turn one of them makes its next call, or
leaves its next notice, and any call may fail without effect instead of being carried out. A
schedule says whose turn it is, and which calls fail.

What is true under every schedule is shown one procedure at a time. All of them rely on what a turn
of any other may do to the state, and observe it themselves. A procedure withstands the others if,
whatever they may have done before each of its own turns, that turn is one on which they can rely,
what every notice means is true when it is left, and it ends as it should.

## What is deliberately absent

There are no locks, no fairness, and no bound on the number of procedures. A schedule need not carry
anything out to its end, and what is shown of a system holds after every finite number of turns.

## Main definitions

* `Thread`, `System`, `System.play` — procedures under way, and a schedule carried out
* `Terms` — what procedures that share a state rely on and observe
* `Procedure.Withstands`, `Attempt.Withstands` — a procedure that does so
* `System.Sound` — everything in a system is as the terms have it

## Main results

* `System.exists_play_replicate` — a procedure that takes every turn
* `Procedure.Withstands.bind`, `Attempt.Withstands.bind` — two procedures in a row
* `Procedure.Withstands.frame` — what all rely on to remain true may be used at the end
* `System.sound_start`, `Sound.play` — a system of procedures that withstand each other is sound
-/

namespace Provisioner

variable {α β ι σ : Type}

/-! ### Turns -/

/-- A procedure under way: what is left of it, and what has happened so far. -/
structure Thread (α : Type) where
  rest : Procedure α
  past : List Event

open Procedure in
/-- The next turn of a procedure, in which a call fails if an error is given for it. A procedure
that has ended does nothing. -/
def Thread.advance (answer : Handler σ) (fault : Option Error) : Thread α → σ → Thread α × σ
  | ⟨.done value, past⟩, s => (⟨.done value, past⟩, s)
  | ⟨.leave n rest, past⟩, s => (⟨rest, past ++ [.notice n]⟩, s)
  | ⟨.ask c rest, past⟩, s =>
    match fault with
    | none =>
      (⟨rest (answer c s).1, past ++ [.call c (errorOf (answer c s).1)]⟩, (answer c s).2)
    | some e => (⟨rest (.error e), past ++ [.call c (some e)]⟩, s)

/-- Procedures under way that share a state. -/
structure System (ι σ α : Type) where
  state : σ
  threads : ι → Thread α

/-- Whose turn it is, and the error with which a call fails in this turn. -/
abbrev Turn (ι : Type) : Type := ι × Option Error

namespace System

/-- The same procedure any number of times, before its first turn. -/
def start (p : Procedure α) (s : σ) : System ι σ α :=
  { state := s, threads := fun _ => { rest := p, past := [] } }

variable [DecidableEq ι]

/-- One turn. -/
def turn (answer : Handler σ) (y : System ι σ α) (t : Turn ι) : System ι σ α :=
  let next := (y.threads t.1).advance answer t.2 y.state
  { state := next.2, threads := Function.update y.threads t.1 next.1 }

/-- The turns of a schedule, one after the other. -/
def play (answer : Handler σ) (y : System ι σ α) (schedule : List (Turn ι)) : System ι σ α :=
  schedule.foldl (turn answer) y

theorem threads_turn_self (answer : Handler σ) (y : System ι σ α) (t : Turn ι) :
    (y.turn answer t).threads t.1 = ((y.threads t.1).advance answer t.2 y.state).1 :=
  Function.update_self ..

theorem threads_turn_of_ne (answer : Handler σ) (y : System ι σ α) {t : Turn ι} {i : ι}
    (h : i ≠ t.1) : (y.turn answer t).threads i = y.threads i :=
  Function.update_of_ne h ..

theorem play_append (answer : Handler σ) (y : System ι σ α) (schedule later : List (Turn ι)) :
    y.play answer (schedule ++ later) = (y.play answer schedule).play answer later :=
  List.foldl_append

end System

open Procedure in
/-- A procedure that takes every turn is carried out as if it were alone. -/
theorem System.exists_play_replicate [DecidableEq ι] (answer : Handler σ) (p : Procedure α)
    (y : System ι σ α) {i : ι} {past : List Event} (hi : y.threads i = ⟨p, past⟩) :
    ∃ n, (y.play answer (List.replicate n (i, none))).state = final answer p y.state
      ∧ (y.play answer (List.replicate n (i, none))).threads i
        = ⟨.done (result answer p y.state), past ++ trace answer p y.state⟩ := by
  induction p generalizing y past with
  | done value => exact ⟨0, rfl, hi.trans (congrArg (Thread.mk _) (List.append_nil past).symm)⟩
  | leave n rest ih =>
    have hadvance : (y.threads i).advance answer none y.state
        = (⟨rest, past ++ [.notice n]⟩, y.state) := by
      rw [hi, Thread.advance]
    obtain ⟨k, hstate, hthread⟩ := ih (y.turn answer (i, none))
      ((threads_turn_self answer y (i, none)).trans (congrArg Prod.fst hadvance))
    have hturn : (y.turn answer (i, none)).state = y.state := congrArg Prod.snd hadvance
    rw [hturn] at hstate hthread
    exact ⟨k + 1, hstate, hthread.trans (congrArg (Thread.mk _) (List.append_assoc ..))⟩
  | ask c rest ih =>
    have hadvance : (y.threads i).advance answer none y.state
        = (⟨rest (answer c y.state).1, past ++ [.call c (errorOf (answer c y.state).1)]⟩,
          (answer c y.state).2) := by
      rw [hi, Thread.advance]
    obtain ⟨k, hstate, hthread⟩ := ih _ (y.turn answer (i, none))
      ((threads_turn_self answer y (i, none)).trans (congrArg Prod.fst hadvance))
    have hturn : (y.turn answer (i, none)).state = (answer c y.state).2 :=
      congrArg Prod.snd hadvance
    rw [hturn] at hstate hthread
    exact ⟨k + 1, hstate, hthread.trans (congrArg (Thread.mk _) (List.append_assoc ..))⟩

/-! ### Terms -/

/-- What procedures that share a state rely on, and what each of them has to observe: what the state
may become, the errors with which a call may fail, and what a notice means for the state. -/
structure Terms (σ : Type) where
  onward : σ → σ → Prop
  fault : Error → Prop
  means : Notice → σ → Prop
  trans : ∀ {a b c}, onward a b → onward b c → onward a c
  /-- A state that has been reached may remain as it is. -/
  rest : ∀ {a b}, onward a b → onward b b
  /-- What a notice means remains true. -/
  kept : ∀ {n a b}, means n a → onward a b → means n b

/-- A condition that remains true, whatever turns are taken. -/
def Terms.Stable (T : Terms σ) (P : σ → Prop) : Prop := ∀ a b, P a → T.onward a b → P b

theorem Terms.Stable.forall {ι : Sort*} {T : Terms σ} {P : ι → σ → Prop}
    (h : ∀ i, T.Stable (P i)) : T.Stable fun a => ∀ i, P i a :=
  fun a b ha hab i => h i a b (ha i) hab

namespace Procedure

variable {answer : Handler σ} {T : Terms σ} {Q Q' : α → σ → Prop} {P : σ → Prop}
  {p : Procedure α} {a b : σ}

/-- Whatever turns the others take before each turn of a procedure, and whichever of its calls fail,
it observes the terms, and its result and the state are as given when it ends. -/
def Withstands (answer : Handler σ) (T : Terms σ) (Q : α → σ → Prop) : Procedure α → σ → Prop
  | .done value, a => ∀ b, T.onward a b → Q value b
  | .leave n rest, a => ∀ b, T.onward a b → T.means n b ∧ Withstands answer T Q rest b
  | .ask c rest, a => ∀ b, T.onward a b → T.onward b (answer c b).2
    ∧ Withstands answer T Q (rest (answer c b).1) (answer c b).2
    ∧ ∀ e, T.fault e → Withstands answer T Q (rest (.error e)) b

/-- Turns of the others do no harm. -/
theorem Withstands.onward (h : p.Withstands answer T Q a) (hab : T.onward a b) :
    p.Withstands answer T Q b := by
  cases p with
  | done value => exact fun c hbc => h c (T.trans hab hbc)
  | leave n rest => exact fun c hbc => h c (T.trans hab hbc)
  | ask c rest => exact fun d hbd => h d (T.trans hab hbd)

/-- The others may take turns first. -/
theorem withstands_of_onward (h : ∀ b, T.onward a b → p.Withstands answer T Q b) :
    p.Withstands answer T Q a := by
  cases p with
  | done value => exact fun b hab => h b hab b (T.rest hab)
  | leave n rest => exact fun b hab => h b hab b (T.rest hab)
  | ask c rest => exact fun b hab => h b hab b (T.rest hab)

theorem Withstands.bind {f : α → Procedure β} {Q' : β → σ → Prop}
    (h : p.Withstands answer T Q a)
    (hf : ∀ value b, Q value b → (f value).Withstands answer T Q' b) :
    (p.bind f).Withstands answer T Q' a := by
  induction p generalizing a with
  | done value => exact withstands_of_onward fun b hab => hf value b (h b hab)
  | leave n rest ih =>
    intro b hab
    obtain ⟨hmeans, hrest⟩ := h b hab
    exact ⟨hmeans, ih hrest⟩
  | ask c rest ih =>
    intro b hab
    obtain ⟨hnext, hanswer, herror⟩ := h b hab
    exact ⟨hnext, ih _ hanswer, fun e he => ih _ (herror e he)⟩

/-- What remains true whatever turns are taken is true in the end. -/
theorem Withstands.frame (h : p.Withstands answer T Q a) (hP : T.Stable P) (ha : P a) :
    p.Withstands answer T (fun value b => Q value b ∧ P b) a := by
  induction p generalizing a with
  | done value => exact fun b hab => ⟨h b hab, hP a b ha hab⟩
  | leave n rest ih =>
    intro b hab
    obtain ⟨hmeans, hrest⟩ := h b hab
    exact ⟨hmeans, ih hrest (hP a b ha hab)⟩
  | ask c rest ih =>
    intro b hab
    obtain ⟨hnext, hanswer, herror⟩ := h b hab
    have hb := hP a b ha hab
    exact ⟨hnext, ih _ hanswer (hP b _ hb hnext), fun e he => ih _ (herror e he) hb⟩

/-- Less may be asked for at the end. -/
theorem Withstands.imp (h : p.Withstands answer T Q a) (hQ : ∀ value b, Q value b → Q' value b) :
    p.Withstands answer T Q' a := by
  induction p generalizing a with
  | done value => exact fun b hab => hQ value b (h b hab)
  | leave n rest ih =>
    intro b hab
    obtain ⟨hmeans, hrest⟩ := h b hab
    exact ⟨hmeans, ih hrest⟩
  | ask c rest ih =>
    intro b hab
    obtain ⟨hnext, hanswer, herror⟩ := h b hab
    exact ⟨hnext, ih _ hanswer, fun e he => ih _ (herror e he)⟩

end Procedure

namespace Attempt

variable {answer : Handler σ} {T : Terms σ} {Q Q' : α → σ → Prop} {P : σ → Prop}
  {x : Attempt α} {a b : σ}

/-- How an attempt may end: with a value as given, or with an error that a call may fail with. -/
def MayEnd (T : Terms σ) (Q : α → σ → Prop) : Except Error α → σ → Prop
  | .ok value, a => Q value a
  | .error e, _ => T.fault e

/-- An attempt withstands the others, and if it succeeds then its value and the state are as
given. -/
def Withstands (answer : Handler σ) (T : Terms σ) (Q : α → σ → Prop) (x : Attempt α) (a : σ) :
    Prop :=
  Procedure.Withstands answer T (MayEnd T Q) x a

theorem Withstands.bind {f : α → Attempt β} {Q' : β → σ → Prop} (h : Withstands answer T Q x a)
    (hf : ∀ value b, Q value b → Withstands answer T Q' (f value) b) :
    Withstands answer T Q' (x >>= f : Attempt β) a := by
  refine Procedure.Withstands.bind h fun outcome b hb => ?_
  cases outcome with
  | ok value => exact hf value b hb
  | error e => exact fun c _ => hb

theorem Withstands.imp (h : Withstands answer T Q x a)
    (hQ : ∀ value b, Q value b → Q' value b) : Withstands answer T Q' x a := by
  refine Procedure.Withstands.imp h fun outcome b hb => ?_
  cases outcome with
  | ok value => exact hQ value b hb
  | error e => exact hb

theorem Withstands.frame (h : Withstands answer T Q x a) (hP : T.Stable P) (ha : P a) :
    Withstands answer T (fun value b => Q value b ∧ P b) x a := by
  refine Procedure.Withstands.imp (Procedure.Withstands.frame h hP ha) fun outcome b hb => ?_
  cases outcome with
  | ok value => exact hb
  | error e => exact hb.1

/-- An attempt of which nothing is asked keeps what all rely on to remain true. -/
theorem Withstands.keeping (h : Withstands answer T (fun _ _ => True) x a) (hP : T.Stable P)
    (ha : P a) : Withstands answer T (fun _ b => P b) x a :=
  (h.frame hP ha).imp fun _ _ hb => hb.2

theorem withstands_require {x : Except Error α} (hx : Provisioner.Fails T.fault x)
    (h : ∀ value, x = .ok value → ∀ b, T.onward a b → Q value b) :
    Withstands answer T Q (require x) a := by
  intro b hab
  cases x with
  | ok value => exact h value rfl b hab
  | error e => exact hx e rfl

theorem withstands_pure {value : α} (h : ∀ b, T.onward a b → Q value b) :
    Withstands answer T Q (pure value : Attempt α) a := h

theorem withstands_log {Q : Unit → σ → Prop} {level : Level} {message : String}
    (hmeans : ∀ b, T.onward a b → T.means (.record level message) b)
    (h : ∀ b, T.onward a b → Q () b) : Withstands answer T Q (log level message) a :=
  fun b hab => ⟨hmeans b hab, fun c hbc => h c (T.trans hab hbc)⟩

theorem withstands_print {Q : Unit → σ → Prop} {text : String}
    (hmeans : ∀ b, T.onward a b → T.means (.line text) b)
    (h : ∀ b, T.onward a b → Q () b) : Withstands answer T Q (print text) a :=
  fun b hab => ⟨hmeans b hab, fun c hbc => h c (T.trans hab hbc)⟩

/-- A call has to observe the terms wherever it is made. -/
theorem withstands_call {c : Call} {Q : c.Answer → σ → Prop}
    (hnext : ∀ b, T.onward a b → T.onward b (answer c b).2)
    (hfails : ∀ b, Provisioner.Fails T.fault (answer c b).1)
    (h : ∀ b value, T.onward a b → (answer c b).1 = .ok value →
      ∀ d, T.onward (answer c b).2 d → Q value d) : Withstands answer T Q (call c) a := by
  refine fun b hab => ⟨hnext b hab, fun d hd => ?_, fun e he d _ => he⟩
  cases hr : (answer c b).1 with
  | ok value => exact h b value hab hr d hd
  | error e => exact hfails b e hr

end Attempt

/-! ### Systems -/

section Sound

variable {answer : Handler σ} {T : Terms σ} {Q : α → σ → Prop} {a s : σ}

/-- What is left of a procedure withstands the others, and what its notices mean is true. -/
structure Thread.Sound (answer : Handler σ) (T : Terms σ) (Q : α → σ → Prop) (t : Thread α)
    (s : σ) : Prop where
  withstands : t.rest.Withstands answer T Q s
  notices : ∀ n, .notice n ∈ t.past → T.means n s

theorem Thread.Sound.onward {t : Thread α} {b : σ} (h : t.Sound answer T Q a)
    (hab : T.onward a b) : t.Sound answer T Q b :=
  ⟨h.withstands.onward hab, fun n hn => T.kept (h.notices n hn) hab⟩

/-- A turn observes the terms. -/
theorem Thread.Sound.advance {t : Thread α} {fault : Option Error} (h : t.Sound answer T Q s)
    (hs : T.onward s s) (hfault : ∀ e, fault = some e → T.fault e) :
    T.onward s (t.advance answer fault s).2
      ∧ (t.advance answer fault s).1.Sound answer T Q (t.advance answer fault s).2 := by
  obtain ⟨rest, past⟩ := t
  cases rest with
  | done value => exact ⟨hs, h⟩
  | leave n rest =>
    obtain ⟨hmeans, hrest⟩ := h.withstands s hs
    refine ⟨hs, hrest, fun m hm => ?_⟩
    rcases List.mem_append.1 hm with hm | hm
    · exact h.notices m hm
    · obtain rfl : m = n := by simpa using hm
      exact hmeans
  | ask c rest =>
    obtain ⟨hnext, hanswer, herror⟩ := h.withstands s hs
    have hpast : ∀ error m, .notice m ∈ past ++ [.call c error] → .notice m ∈ past :=
      fun error m hm => by simpa using hm
    cases fault with
    | none =>
      exact ⟨hnext, hanswer, fun m hm => T.kept (h.notices m (hpast _ m hm)) hnext⟩
    | some e =>
      exact ⟨hs, herror e (hfault e rfl), fun m hm => h.notices m (hpast _ m hm)⟩

/-- Since a state `a` the terms have been observed, and all procedures go on to observe them. -/
structure System.Sound (answer : Handler σ) (T : Terms σ) (Q : α → σ → Prop) (a : σ)
    (y : System ι σ α) : Prop where
  reached : T.onward a y.state
  threads : ∀ i, (y.threads i).Sound answer T Q y.state

namespace System

variable {y : System ι σ α}

/-- Procedures that withstand each other make a sound system. -/
theorem sound_start {p : Procedure α} (ha : T.onward a a) (h : p.Withstands answer T Q a) :
    (start p a : System ι σ α).Sound answer T Q a :=
  ⟨ha, fun _ => ⟨h, fun _ hn => nomatch hn⟩⟩

theorem Sound.resume (h : y.Sound answer T Q a) : y.Sound answer T Q y.state :=
  ⟨T.rest h.reached, h.threads⟩

/-- A procedure that has ended has ended as it should. -/
theorem Sound.ended {i : ι} {value : α} (h : y.Sound answer T Q a)
    (hi : (y.threads i).rest = .done value) : Q value y.state := by
  have hw := (h.threads i).withstands
  rw [hi] at hw
  exact hw _ (T.rest h.reached)

variable [DecidableEq ι]

theorem Sound.turn (h : y.Sound answer T Q a) {t : Turn ι}
    (hfault : ∀ e, t.2 = some e → T.fault e) : (y.turn answer t).Sound answer T Q a := by
  obtain ⟨honward, hthread⟩ := (h.threads t.1).advance (T.rest h.reached) hfault
  refine ⟨T.trans h.reached honward, fun i => ?_⟩
  by_cases hi : i = t.1
  · subst hi
    rw [threads_turn_self]
    exact hthread
  · rw [threads_turn_of_ne answer y hi]
    exact (h.threads i).onward honward

/-- A sound system remains sound under every schedule. -/
theorem Sound.play (h : y.Sound answer T Q a) {schedule : List (Turn ι)}
    (hfault : ∀ t ∈ schedule, ∀ e, t.2 = some e → T.fault e) :
    (y.play answer schedule).Sound answer T Q a := by
  induction schedule generalizing y with
  | nil => exact h
  | cons t schedule ih =>
    obtain ⟨ht, hschedule⟩ := List.forall_mem_cons.1 hfault
    exact ih (h.turn ht) hschedule

end System

end Sound

end Provisioner
