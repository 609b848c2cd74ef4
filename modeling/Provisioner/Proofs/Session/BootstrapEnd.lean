import Provisioner.Proofs.Session.ActivityEnd
import Provisioner.Proofs.Schema.CompleteSchema
import Provisioner.Session.Bootstrap

/-!
# How a bootstrap ends

A bootstrap ends with the status of success or with that of failure, if no call is cancelled:
every other error is caught, wherever it occurs, and what comes after the last place where errors
are caught cannot fail. The status of success is only reached through a verification that has found
nothing missing, and the closing of the client, which comes after it, does not touch the contents.

## Main definitions

* `FaultyServer.Uncancelling` — no fault is a cancellation
* `Session.InForce` — the settings with which a session works
* `Session.Applied`, `StatusTold` — how applying the schema and the bootstrap end

## Main results

* `Attempt.ordinary_apply` — where no call is cancelled, applying the schema is not
* `Session.ends_applySchema` — connecting, applying the schema and disconnecting
* `Session.bootstrapped` — a bootstrap succeeds or fails, and if it succeeds the schema is
  established
-/

namespace Provisioner

open Store

/-! ### Cancellation -/

namespace FaultyServer

/-- No fault is a cancellation. -/
def Uncancelling (s : FaultyServer) : Prop := ∀ f ∈ s.faults, ∀ e, f.error = some e → e.Ordinary

theorem uncancelling_answer (c : Call) {s : FaultyServer} (hs : s.Uncancelling) :
    (answer c s).2.Uncancelling := by
  have hleft := (Fault.forall_strike (P := fun o => ∀ e, o = some e → e.Ordinary) c hs).2
  simp only [answer]
  split
  · exact hleft
  · exact hleft
  · split <;> exact hleft

theorem ordinary_answer (c : Call) {s : FaultyServer} (hs : s.Uncancelling) :
    Fails Error.Ordinary (answer c s).1 := by
  have hstruck := (Fault.forall_strike (P := fun o => ∀ e, o = some e → e.Ordinary) c hs).1
  have hforward : Fails Error.Ordinary (Server.answer c s.server).1 :=
    (Server.fails_answer c s.server).imp fun _ he => he.ordinary
  simp only [answer]
  split
  · exact hforward
  · exact fails_error (hstruck _ ‹_› _ rfl)
  · split
    · exact fails_ok _
    · exact hforward

theorem uncancelled : Handler.Uncancelled answer Uncancelling :=
  ⟨fun c _ hs => uncancelling_answer c hs, fun c _ hs => ordinary_answer c hs⟩

end FaultyServer

namespace Attempt

open Procedure

variable {σ : Type} {answer : Handler σ} {I : σ → Prop}

theorem stepwise_ordinary (hI : answer.Uncancelled I) (database : String) :
    Schema.Stepwise database fun _ x => FailsWithin answer I Error.Ordinary x where
  pure a := (fails_pure a).within
  bind := FailsWithin.bind hI.stays
  read hx := (fails_require (hx.imp fun _ he => he.ordinary)).within
  record level message _ := (fails_log level message).within
  call c _ := hI.ordinary c

/-- Where no call is cancelled, applying the schema does not fail with a cancellation. -/
theorem ordinary_apply (hI : answer.Uncancelled I) (database : String) :
    FailsWithin answer I Error.Ordinary (Schema.apply database) := by
  refine (stepwise_ordinary hI database).apply (fun _ _ => (fails_log _ _).within)
    (fun _ _ _ => fails_ok ()) fun names => ?_
  have hmissing : (Error.missingIndexes names).Ordinary := rfl
  exact (fails_require (fails_error hmissing)).within

end Attempt

/-! ### Applying the schema in a session -/

namespace Session

open Activity

variable {σ : Type} {answer : Handler σ} {store : σ → Store} {I : σ → Prop}
  {p m q : Session × σ} {settings : Settings} {t t' : List Event}

/-- How applying the schema ends in a session: if it has failed, it has not been cancelled; the
settings are still in force; and if it has succeeded, this is what the reader is told, and the
schema is complete. -/
structure Applied (store : σ → Store) (I : σ → Prop) (settings : Settings) (o : Except Error Unit)
    (t : List Event) (q : Session × σ) : Prop where
  ordinary : Fails Error.Ordinary o
  uncancelled : I q.2
  inForce : q.1.settings = some settings
  succeeded : o = .ok () → Event.lines t = [Schema.confirmation]
    ∧ Schema.Complete settings.database (store q.2)

/-- Nothing is promised of what is told if the preparations have failed. -/
theorem Applied.of_failed {α : Type} {e : Error}
    (h : Aside store I p (.error e : Except Error α) t q)
    (hs : p.1.settings = some settings) : Applied store I settings (.error e) t' q where
  ordinary := fails_error (h.ordinary e rfl)
  uncancelled := h.uncancelled
  inForce := h.settings hs
  succeeded ho := nomatch ho

/-- Preparations add nothing to what is told. -/
theorem Applied.after {α : Type} {a : α} {o : Except Error Unit} (h : Aside store I p (.ok a) t m)
    (h' : Applied store I settings o t' q) : Applied store I settings o (t ++ t') q where
  ordinary := h'.ordinary
  uncancelled := h'.uncancelled
  inForce := h'.inForce
  succeeded ho := by
    rw [Event.lines_append, h.silent, List.nil_append]
    exact h'.succeeded ho

/-- Nor does what comes after the work, if it does not fail. -/
theorem Applied.before {α : Type} {a : α} {o : Except Error Unit}
    (h : Applied store I settings o t m) (h' : Aside store I m (.ok a) t' q) :
    Applied store I settings o (t ++ t') q where
  ordinary := h.ordinary
  uncancelled := h'.uncancelled
  inForce := h'.settings h.inForce
  succeeded ho := by
    rw [Event.lines_append, h'.silent, List.append_nil, h'.unchanged]
    exact h.succeeded ho

section

variable (h : answer.Careful store) (hI : answer.Uncancelled I)

include h hI

theorem ends_apply (hp : I p.2) (hs : p.1.settings = some settings) :
    Ends answer (perform (Schema.apply settings.database)) p (Applied store I settings) :=
  (ends_perform _).2
    { ordinary := Attempt.ordinary_apply hI settings.database p.2 hp
      uncancelled := Procedure.final_of_stays hI.stays (Schema.apply settings.database) hp
      inForce := hs
      succeeded := fun ho =>
        have ⟨_, _, hsucceeds⟩ := Schema.succeeds_of_apply ho
        ⟨hsucceeds.lines_apply, Schema.complete_apply h ho⟩ }

theorem ends_connectAndApply (hp : I p.2) (hs : p.1.settings = some settings) :
    Ends answer (connectAndApply settings.database) p (Applied store I settings) := by
  refine Ends.bind (prepares_ping h hI p hp) (fun {_ _ m} hping => ?_) fun he => .of_failed he hs
  have hm := hping.settings hs
  simp only [ends_bind, ends_log]
  refine (ends_database h hI hping.uncancelled hm).imp fun {o t q} hopen => ?_
  obtain ⟨haside, hname⟩ := hopen
  cases o with
  | error e => exact .of_failed haside hm
  | ok name =>
    obtain rfl := hname name rfl
    refine (ends_apply h hI haside.uncancelled (haside.settings hm)).imp fun happlied => ?_
    exact .after hping (.after (.logged hping.uncancelled .info _) (.after haside happlied))

/-- Disconnecting adds nothing to what has been told, and an error of it counts for more than that
of the work. -/
theorem ends_applySchema (hp : I p.2) (hs : p.1.settings = some settings) :
    Ends answer applySchema p (Applied store I settings) := by
  simp only [applySchema, ends_bind, ends_settingsInForce hs, ends_attempt]
  refine (ends_connectAndApply h hI hp hs).imp fun {o t m} hwork => ?_
  refine (prepares_closeClient h hI m hwork.uncancelled).imp fun {o' t' q} hclose => ?_
  cases o' with
  | error e => exact .of_failed hclose hwork.inForce
  | ok u =>
    simpa using (hwork.before hclose).before (.logged hclose.uncancelled .info "Disconnected")

end

/-! ### The bootstrap -/

/-- The settings with which a session works: those that it remembers, or else those that it
reads. -/
def InForce (i : Session) (settings : Settings) : Prop :=
  i.settings = some settings ∨ i.settings = none ∧ i.readSettings = .ok settings

/-- How a bootstrap ends: with one of the two statuses, and if it is that of success, the success
has been told, and the schema is complete in the database of the settings with which the session
has worked. -/
structure StatusTold (store : σ → Store) (i : Session) (o : Except Error Nat) (t : List Event)
    (q : Session × σ) : Prop where
  status : o = .ok success ∨ o = .ok failure
  succeeded : o = .ok success → Event.lines t = [Schema.confirmation]
    ∧ ∃ settings, i.InForce settings ∧ Schema.Complete settings.database (store q.2)

/-- Nothing is promised of a failure. -/
theorem statusTold_failure {i : Session} : StatusTold store i (.ok failure) t q where
  status := .inr rfl
  succeeded ho := absurd (Except.ok.inj ho) (by decide)

/-- Logging can be set up with the name of every level. -/
theorem runIn_configureLogging (level : Level) (i : Session) :
    (configureLogging level.name).runIn i = .done (.ok (), setThreshold level.rank i) := by
  rw [configureLogging, findThreshold_name]
  rfl

theorem ends_configureLogging (level : Level)
    {Q : Except Error Unit → List Event → Session × σ → Prop} :
    Ends answer (configureLogging level.name) p Q
      ↔ Q (.ok ()) [] (setThreshold level.rank p.1, p.2) := by
  rw [Ends, runIn_configureLogging]
  rfl

section

variable (h : answer.Careful store) (hI : answer.Uncancelled I) {i : Session}

include h hI

theorem ends_bootstrapWith (hp : I p.2) (hs : p.1.settings = some settings)
    (hi : i.InForce settings) :
    Ends answer (bootstrapWith settings) p (StatusTold store i) := by
  simp only [bootstrapWith, announce, ends_bind, ends_configureLogging, ends_log, ends_attempt]
  have hwork := ends_applySchema h hI (p := (setThreshold settings.level.rank p.1, p.2)) hp hs
  refine hwork.imp fun {o t q} happlied => ?_
  cases o with
  | ok u =>
    obtain ⟨htold, hcomplete⟩ := happlied.succeeded rfl
    exact (ends_pure _).2 ⟨.inl rfl, fun _ => ⟨by simpa using htold, settings, hi, hcomplete⟩⟩
  | error e =>
    have he : e.isCancellation = false := happlied.ordinary e rfl
    simp only [he]
    exact ends_bind.2 statusTold_failure

theorem ends_bootstrap (hp : I p.2) : Ends answer bootstrap p (StatusTold store p.1) := by
  rw [bootstrap, ends_bind, ends_attempt]
  cases hs : p.1.settings with
  | some settings => exact (ends_settingsInForce hs).2 (ends_bootstrapWith h hI hp hs (.inl hs))
  | none =>
    cases hr : p.1.readSettings with
    | ok settings =>
      refine (ends_settingsInForce_of_read hs hr).2 ?_
      exact ends_bootstrapWith h hI hp rfl (.inr ⟨hs, hr⟩)
    | error e =>
      refine (ends_settingsInForce_of_unread hs hr).2 ?_
      exact ends_bind.2 statusTold_failure

end

/-- Whatever a session remembers and finds in its environment, whatever the server contains, and
whichever calls fail: without a cancellation a bootstrap ends with the status of success or that of
failure, and setting up logging does not fail for any settings. If it succeeds, one line has been
told, and the schema is established in the database of the settings with which it has worked. -/
theorem bootstrapped (i : Session) {s : FaultyServer} (hs : s.Uncancelling) :
    let ran := (bootstrap.runIn i).run FaultyServer.answer s
    (ran.1.1 = .ok success ∨ ran.1.1 = .ok failure)
      ∧ (∀ (settings : Settings) (j : Session),
          (configureLogging settings.level.name).runIn j
            = .done (.ok (), setThreshold settings.level.rank j))
      ∧ (ran.1.1 = .ok success → Event.lines ran.2.1 = [Schema.confirmation]
          ∧ ∃ settings, i.InForce settings ∧
            Schema.Established Server.answer Server.store settings.database ran.2.2.server) := by
  intro ran
  have hstatus : StatusTold (fun s : FaultyServer => s.server.store) i ran.1.1 ran.2.1
      (ran.1.2, ran.2.2) :=
    ends_bootstrap FaultyServer.careful FaultyServer.uncancelled (p := (i, s)) hs
  refine ⟨hstatus.status, fun settings => runIn_configureLogging settings.level, fun hok => ?_⟩
  obtain ⟨htold, settings, hi, hcomplete⟩ := hstatus.succeeded hok
  exact ⟨htold, settings, hi, Schema.established_of_complete Server.faithful hcomplete⟩

/-- A server that does not close any client but the first one. -/
def clingingServer : FaultyServer where
  server := { store := [], clients := 0 }
  faults := [{
    call := .close, database := none, collection := none, name := none, skip := 1, times := none
    error := some (.reported "AutoReconnect" "connection closed") }]

/-- A first run succeeds with the settings that nobody has set. Another one in the same session does
not: all is there, but its client cannot be closed. -/
theorem bootstrapped_clinging :
    let first := (bootstrap.runIn (start [] none)).run FaultyServer.answer clingingServer
    let second := (bootstrap.runIn first.1.2).run FaultyServer.answer first.2.2
    clingingServer.Uncancelling ∧ first.1.1 = .ok success ∧ second.1.1 = .ok failure
      ∧ Event.lines first.2.1 = [Schema.confirmation]
      ∧ Schema.Established Server.answer Server.store "appdb" first.2.2.server := by
  have hs : clingingServer.Uncancelling := by
    intro f hf e he
    obtain rfl := List.mem_singleton.1 hf
    exact Option.some.inj he ▸ rfl
  have hread : (start [] none).readSettings
      = .ok { uri := "mongodb://mongodb:27017", database := "appdb", level := .info } := rfl
  obtain ⟨htold, settings, hi, hestablished⟩ := (bootstrapped (start [] none) hs).2.2 rfl
  have hsettings := Except.ok.inj (hread.symm.trans (hi.resolve_left nofun).2)
  rw [← hsettings] at hestablished
  exact ⟨hs, rfl, rfl, htold, hestablished⟩

end Session

end Provisioner
