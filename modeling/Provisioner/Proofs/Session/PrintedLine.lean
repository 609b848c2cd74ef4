import Provisioner.Proofs.Session.AppliedSchema
import Provisioner.Proofs.Session.UnreadSettings

/-!
# What a failed run has printed

The line for the reader is printed when the schema has been verified, and the client is closed after
that. So the line and the status are decided at two places. A failure of the work comes before the
line, and then there is none. A failure of the closing comes after it: the line has been printed,
the schema is established, and the run fails all the same, since the error of the closing is passed
on.

## Main definitions

* `Schema.Hushed` — an attempt that prints nothing if it fails
* `Session.told` — what is printed, given how the work ends
* `Session.LeftOpen` — the work succeeds, but its client cannot be closed

## Main results

* `Schema.hushed_apply` — applying the schema prints nothing if it fails
* `Session.told_applySchema` — what is printed is decided by the work
* `Session.lines_of_failed` — a failed run has printed something only if its client was left open
* `Session.failed_told` — this happens
-/

namespace Provisioner

namespace Schema

open Attempt Procedure

variable {α β σ : Type} {answer : Handler σ}

/-! ### Failures of the work -/

/-- An attempt that prints nothing if it fails. -/
def Hushed (answer : Handler σ) (x : Attempt α) : Prop :=
  ∀ s e, result answer x s = .error e → Event.lines (trace answer x s) = []

theorem Hushed.bind {x : Attempt α} {f : α → Attempt β} (hx : Leaves answer Quiet x)
    (hf : ∀ a, Hushed answer (f a)) : Hushed answer (x >>= f : Attempt β) := by
  intro s e he
  have hquiet : Event.lines (trace answer x s) = [] := lines_eq_nil (hx s)
  cases h : result answer x s with
  | error e' => rw [trace_bind_of_error h, hquiet]
  | ok a =>
    rw [result_bind_of_ok h] at he
    rw [trace_bind_of_ok h, Event.lines_append, hquiet, hf a _ e he, List.append_nil]

/-- Applying the schema prints nothing if it fails. -/
theorem hushed_apply (target : String) : Hushed answer (apply target) := by
  have hquiet : Stepwise target fun _ x => Leaves answer Quiet x :=
    stepwise_leaves (fun _ _ _ => trivial) fun _ _ _ => trivial
  refine .bind (leaves_log trivial) fun _ => .bind (hquiet.createCollection _) fun first => ?_
  refine .bind (hquiet.createCollection _) fun second => .bind hquiet.verify fun missing => ?_
  -- Nothing can fail any more unless an index is missing, and then nothing else is done.
  cases missing with
  | nil => exact fun s e he => nomatch he
  | cons name names => exact fun s e he => rfl

end Schema

namespace Session

open Activity

variable {σ : Type} {answer : Handler σ} {settings : Settings} {s m : σ}

/-! ### What the work prints -/

/-- What is printed, given how the work ends. -/
def told : Except Error Unit → List String
  | .ok _ => [Schema.confirmation]
  | .error _ => []

theorem lines_apply (answer : Handler σ) (target : String) (s : σ) :
    Event.lines (Procedure.trace answer (Schema.apply target) s)
      = told (Procedure.result answer (Schema.apply target) s) := by
  cases h : Procedure.result answer (Schema.apply target) s with
  | error e => exact Schema.hushed_apply target s e h
  | ok u =>
    obtain ⟨first, second, hsucceeds⟩ := Schema.succeeds_of_apply h
    exact hsucceeds.lines_apply

theorem Worked.lines {cached held : Option Nat} {outcome : Except Error Unit} {work : List Event}
    (h : Worked answer settings cached s outcome work held m) :
    Event.lines work = told outcome := by
  cases h with
  | unopened hc ha => rfl
  | unreachable hc ha => cases hc <;> rfl
  | unnamed hc hp ha => cases hc <;> rfl
  | @applied t c m' m₁ m₂ hc hp hd =>
    rw [Event.lines_append, lines_apply]
    cases hc <;> rfl

/-- What is done for a run in a session before its client is closed. -/
def work (answer : Handler σ) (settings : Settings) (i : Session) (s : σ) :
    (Except Error Unit × Session) × List Event × σ :=
  ((connectAndApply settings.database).runIn i).run answer s

/-- The line is printed if the work succeeds. The outcome is that of the closing, or else that of
the work. -/
theorem told_applySchema {i : Session} (hi : i.settings = some settings) (s : σ) :
    Ends answer applySchema (i, s) fun o t _ =>
      Event.lines t = told (work answer settings i s).1.1
        ∧ o = onClose answer (work answer settings i s).2.2 (work answer settings i s).1.2.client
          >>= fun _ => (work answer settings i s).1.1 := by
  have hwork : Ends answer (connectAndApply settings.database) (i, s) fun o t q =>
      Event.lines t = told o ∧ work answer settings i s = ((o, q.1), t, q.2) :=
    ⟨(worked_connectAndApply hi s).1.lines, rfl⟩
  rw [applySchema, ends_bind]
  refine (ends_settingsInForce (p := (i, s)) hi).2 ?_
  simp only [ends_bind, ends_attempt]
  refine hwork.imp fun {outcome t q} h => ?_
  obtain ⟨hlines, hrun⟩ := h
  rw [hrun]
  -- The closing prints nothing, and neither does the record after it.
  have hquiet : ∀ {ending}, Event.lines ending = [] → Event.lines (t ++ ending) = told outcome :=
    fun hending => by rw [Event.lines_append, hending, hlines, List.append_nil]
  refine (closing_closeClient answer q).imp fun {o t' q'} hclose => ?_
  cases hclose with
  | absent hc =>
    simp only [ends_log, ends_require, hc]
    exact ⟨hquiet rfl, rfl⟩
  | @closed c m hc ha =>
    have hclosing : onClose answer q.2 (some c) = .ok () := congrArg Prod.fst ha
    simp only [ends_log, ends_require, hc, hclosing]
    exact ⟨hquiet rfl, rfl⟩
  | @kept c e m hc ha =>
    have hclosing : onClose answer q.2 (some c) = .error e := congrArg Prod.fst ha
    rw [hc, hclosing]
    exact ⟨hquiet rfl, rfl⟩

/-- If nothing but the closing can have failed, there is a client that could not be closed. -/
theorem unclosed_of_failed {held : Option Nat} {e : Error}
    (h : (onClose answer m held >>= fun _ => .ok ()) = (.error e : Except Error Unit)) :
    ∃ c e', held = some c ∧ (answer (.close c) m).1 = .error e' := by
  cases held with
  | none => cases (h : (Except.ok () : Except Error Unit) = .error e)
  | some c =>
    cases hc : (answer (.close c) m).1 with
    | error e' => exact ⟨c, e', rfl, hc⟩
    | ok u =>
      rw [onClose, hc] at h
      cases (h : (Except.ok () : Except Error Unit) = .error e)

/-! ### What a run prints -/

/-- The work of a run with these settings succeeds, and the client with which it has been done
cannot be closed. -/
def Unclosed (answer : Handler σ) (settings : Settings) (i : Session) (s : σ) : Prop :=
  let before := work answer settings (setThreshold settings.level.rank i) s
  before.1.1 = .ok () ∧ ∃ c e, before.1.2.client = some c
    ∧ (answer (.close c) before.2.2).1 = .error e

/-- A run that fails has printed the line if and only if its client has been left open. -/
theorem ends_bootstrapWith_of_failed {i : Session} (hi : i.settings = some settings) (s : σ) :
    Ends answer (bootstrapWith settings) (i, s) fun o t _ => o = .ok failure →
      Event.lines t = [] ∧ ¬ Unclosed answer settings i s
        ∨ Event.lines t = [Schema.confirmation] ∧ Unclosed answer settings i s := by
  simp only [bootstrapWith, announce, ends_bind, ends_configureLogging, ends_log, ends_attempt]
  refine (told_applySchema (i := setThreshold settings.level.rank i) hi s).imp fun {o t q} h => ?_
  obtain ⟨hlines, ho⟩ := h
  cases o with
  | ok u => exact fun hfailure => absurd (Except.ok.inj hfailure) (by decide)
  | error e =>
    have hprinted : Event.lines t = [] ∧ ¬ Unclosed answer settings i s
        ∨ Event.lines t = [Schema.confirmation] ∧ Unclosed answer settings i s := by
      cases hwork : (work answer settings (setThreshold settings.level.rank i) s).1.1 with
      | error e' =>
        rw [hwork] at hlines
        have hopen : ¬ Unclosed answer settings i s := by
          intro hu
          cases hwork.symm.trans hu.1
        exact .inl ⟨hlines, hopen⟩
      | ok u =>
        rw [hwork] at hlines ho
        exact .inr ⟨hlines, hwork, unclosed_of_failed ho.symm⟩
    dsimp only
    split
    · simp
    · have hrecord : ∀ level message, Event.lines [.notice (.record level message)] = [] :=
        fun _ _ => rfl
      have hnil : Event.lines [] = [] := rfl
      simp only [ends_bind, ends_log, ends_pure, Event.lines_append, hrecord, hnil, List.nil_append,
        List.append_nil]
      exact fun _ => hprinted

/-- The work of a run succeeds, and the client with which it has been done cannot be closed. -/
def LeftOpen (answer : Handler σ) (i : Session) (s : σ) : Prop :=
  ∃ settings, i.InForce settings ∧ Unclosed answer settings (i.remember settings) s

/-- **What a failed run has printed.** Whatever the session remembers, whatever answers the calls,
and whichever of them fail: nothing, unless all of the work has succeeded and only its client could
not be closed. -/
theorem lines_of_failed (answer : Handler σ) (i : Session) (s : σ) :
    let ran := (bootstrap.runIn i).run answer s
    ran.1.1 = .ok failure →
      Event.lines ran.2.1 = [] ∧ ¬ LeftOpen answer i s
        ∨ Event.lines ran.2.1 = [Schema.confirmation] ∧ LeftOpen answer i s := by
  rcases inForce_or_unread i with ⟨settings, hi⟩ | ⟨hs, e, hr⟩
  · have hleft : LeftOpen answer i s ↔ Unclosed answer settings (i.remember settings) s := by
      constructor
      · rintro ⟨other, hother, hu⟩
        exact hi.unique hother ▸ hu
      · exact fun hu => ⟨settings, hi, hu⟩
    show Ends answer bootstrap (i, s) fun o t _ => o = .ok failure →
      Event.lines t = [] ∧ ¬ LeftOpen answer i s
        ∨ Event.lines t = [Schema.confirmation] ∧ LeftOpen answer i s
    rw [hleft, bootstrap, ends_bind, ends_attempt]
    refine (ends_settingsInForce_of_inForce (p := (i, s)) hi).2 ?_
    exact ends_bootstrapWith_of_failed rfl s
  · intro ran _
    have hnone : ¬ LeftOpen answer i s := by
      rintro ⟨settings, hi, -⟩
      cases hr.symm.trans (hi.readable hs)
    have hran : ran = ((.ok failure, i), [refusal e], s) := by
      show (bootstrap.runIn i).run answer s = _
      rw [runIn_bootstrap_of_unread hs hr]
      rfl
    exact .inl ⟨hran ▸ rfl, hnone⟩

/-- A server none of whose clients can be closed. -/
def holdingServer : FaultyServer where
  server := { store := [], clients := 0 }
  faults := [{
    call := .close, database := none, collection := none, name := none, skip := 0, times := none
    error := some (.reported "AutoReconnect" "connection closed") }]

/-- A first run against it establishes the schema, prints the line and fails. -/
theorem lines_holding :
    let ran := (bootstrap.runIn (start [] none)).run FaultyServer.answer holdingServer
    ran.1.1 = .ok failure ∧ Event.lines ran.2.1 = [Schema.confirmation]
      ∧ LeftOpen FaultyServer.answer (start [] none) holdingServer := by
  refine ⟨rfl, rfl, ?_⟩
  rcases lines_of_failed FaultyServer.answer (start [] none) holdingServer rfl with h | h
  · exact nomatch h.1
  · exact h.2

/-- So a failed run may well have printed something, also where all errors are ordinary ones. -/
theorem failed_told :
    ¬ ∀ (i : Session) (s : FaultyServer),
      (∀ f ∈ s.faults, ∃ e, f.error = some e ∧ e.Ordinary) →
        let ran := (bootstrap.runIn i).run FaultyServer.answer s
        ran.1.1 = .ok failure → Event.lines ran.2.1 = [] := by
  intro h
  have hfaults : ∀ f ∈ holdingServer.faults, ∃ e, f.error = some e ∧ e.Ordinary := by
    intro f hf
    obtain rfl := List.mem_singleton.1 hf
    exact ⟨_, rfl, rfl⟩
  have hlines : Event.lines ((bootstrap.runIn (start [] none)).run FaultyServer.answer
      holdingServer).2.1 = [Schema.confirmation] := rfl
  exact nomatch hlines.symm.trans (h (start [] none) holdingServer hfaults rfl)

end Session

end Provisioner
