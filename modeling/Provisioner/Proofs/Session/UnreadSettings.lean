import Provisioner.Proofs.Session.OperationHistory
import Provisioner.Proofs.Settings.Reading

/-!
# Settings that cannot be read

A run reads the settings before it does anything else. If they cannot be read then nothing has been
set up by then: the run leaves one record and ends, and the session and the server are as they were.
That nothing is remembered is what matters for what comes later. A session is repaired by changing
its environment or its file, and whatever is done with it afterwards goes as if there had been no
run before.

All of this is said of any server. None of it is asked.

## Main definitions

* `Session.refusal` — the record of a run that cannot read its settings
* `Session.Declined` — what is seen of such a run, and of what comes after it

## Main results

* `Session.runIn_bootstrap_of_unread` — the whole of such a run
* `Session.declined_bootstrap` — a run that cannot read its settings
-/

namespace Provisioner

namespace Session

open Activity

variable {α σ : Type} {i : Session} {e : Error}

/-- The record of a run that cannot read its settings. -/
def refusal (e : Error) : Event := .notice (.record .error ("Invalid configuration: " ++ e.message))

/-- A run that cannot read its settings leaves its record, and that is all. -/
theorem runIn_bootstrap_of_unread (hs : i.settings = none) (hr : i.readSettings = .error e) :
    bootstrap.runIn i = .leave (.record .error ("Invalid configuration: " ++ e.message))
      (.done (.ok failure, i)) := by
  have hsettings : settingsInForce.runIn i = .done (.error e, i) := by
    rw [settingsInForce, runIn, ofRun, ExceptT.mk, hs, hr]
  rw [bootstrap, runIn_bind]
  simp only [attempt, runIn, ofRun, ExceptT.mk] at hsettings ⊢
  rw [hsettings]
  rfl

/-- What is seen of a run in a session `i` that cannot read its settings, against a server in a
state `s`, and of what comes after it. -/
structure Declined (i : Session) (e : Error) (answer : Handler σ) (s : σ)
    (ran : (Except Error Nat × Session) × List Event × σ) : Prop where
  /-- The level has no name of a level, and nothing else is wrong. -/
  problem : ∃ text, Level.ofName? (Text.upper text) = none
    ∧ e = .invalidSettings [{ field := .level, value := .text (Text.upper text) }]
  /-- The run fails, -/
  failed : ran.1.1 = .ok failure
  /-- and tells why. -/
  told : Event.records ran.2.1 = [(.error, "Invalid configuration: " ++ e.message)]
  /-- No call is made, -/
  calls : Event.calls ran.2.1 = []
  /-- and no line is printed. -/
  lines : Event.lines ran.2.1 = []
  /-- What the session remembers is what it has remembered, -/
  session : ran.1.2 = i
  /-- and the server is as it was. -/
  server : ran.2.2 = s
  /-- Whatever is done later goes as if there had been no run before, but for the record. -/
  later : ∀ {α : Type} (x : Activity α),
    let alone := (x.runIn i).run answer s
    ((do let _ ← bootstrap; x).runIn i).run answer s
      = (alone.1, refusal e :: alone.2.1, alone.2.2)
  /-- So it is with every history that begins with the run. -/
  histories : ∀ ops,
    let alone := ((operate ops).runIn i).run answer s
    ((operate (.bootstrap :: ops)).runIn i).run answer s
      = (alone.1, refusal e :: alone.2.1, alone.2.2)

/-- Whatever comes after such a run finds the session as it was. -/
theorem runIn_bootstrap_bind (hs : i.settings = none) (hr : i.readSettings = .error e)
    (x : Activity α) :
    (do let _ ← bootstrap; x : Activity α).runIn i
      = .leave (.record .error ("Invalid configuration: " ++ e.message)) (x.runIn i) := by
  rw [runIn_bind, runIn_bootstrap_of_unread hs hr]
  rfl

/-- So does the rest of a history. -/
theorem runIn_operate_bootstrap (hs : i.settings = none) (hr : i.readSettings = .error e)
    (ops : List Operation) :
    (operate (.bootstrap :: ops)).runIn i
      = .leave (.record .error ("Invalid configuration: " ++ e.message))
          ((operate ops).runIn i) := by
  have hfirst : Operation.bootstrap.activity.runIn i
      = .leave (.record .error ("Invalid configuration: " ++ e.message)) (.done (.ok (), i)) :=
    runIn_bootstrap_bind hs hr (pure ())
  rw [operate, runIn_bind, attempt, runIn, ofRun, ExceptT.mk, hfirst]
  rfl

/-- **Settings that cannot be read.** Whatever the environment and the file are, whatever the
session remembers beside the settings, and whatever server there is. -/
theorem declined_bootstrap (hs : i.settings = none) (hr : i.readSettings = .error e)
    (answer : Handler σ) (s : σ) :
    Declined i e answer s ((bootstrap.runIn i).run answer s) := by
  have hrun : (bootstrap.runIn i).run answer s = ((.ok failure, i), [refusal e], s) := by
    rw [runIn_bootstrap_of_unread hs hr]
    rfl
  rw [hrun]
  exact
    { problem := ⟨_, Settings.read_eq_error_iff.1 hr⟩
      failed := rfl
      told := rfl
      calls := rfl
      lines := rfl
      session := rfl
      server := rfl
      later := fun x => by
        rw [runIn_bootstrap_bind hs hr]
        rfl
      histories := fun ops => by
        rw [runIn_operate_bootstrap hs hr]
        rfl }

/-- A level of which there is no such name. A run in this session is declined; after the level has
been set right the next one goes as a first one does. -/
theorem declined_verbose :
    let i := start [("LOG_LEVEL", "verbose")] (some "AUTH_DB_NAME=other")
    let e := Error.invalidSettings [{ field := .level, value := .text "VERBOSE" }]
    let s : FaultyServer := { server := { store := [], clients := 0 }, faults := [] }
    i.settings = none ∧ i.readSettings = .error e
      ∧ Declined i e FaultyServer.answer s ((bootstrap.runIn i).run FaultyServer.answer s)
      ∧ (reached FaultyServer.answer [.bootstrap, .setEnvironment [], .bootstrap] (i, s)).1.settings
          = some { uri := "mongodb://mongodb:27017", database := "other", level := .info } := by
  have hr : (start [("LOG_LEVEL", "verbose")] (some "AUTH_DB_NAME=other")).readSettings
      = .error (.invalidSettings [{ field := .level, value := .text "VERBOSE" }]) := rfl
  exact ⟨rfl, hr, declined_bootstrap rfl hr FaultyServer.answer _, by decide +kernel⟩

end Session

end Provisioner
