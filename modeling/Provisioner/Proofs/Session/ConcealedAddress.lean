import Provisioner.Proofs.Session.ActivityEnd
import Provisioner.Proofs.Settings.Reading
import Provisioner.Session.Bootstrap

/-!
# The address is not told

The address of the store may contain a password, and many things are told in the course of a run:
records, lines, and texts of errors that come from anywhere. None of them has anything to do with
the address. It is passed on to the call that opens a client, and to nothing else; and what is
answered to this call is not allowed to depend on it.

What this means takes two runs. They begin in sessions that are alike in everything but the address,
and they go on side by side: as long as the answers are the same, the next calls are the same, up to
the address, and the sessions stay alike. An activity is compared with itself, or with another one
that has got another address in its hands. So the relation is one between two activities; it is kept
when activities are put in a row, and everything else that a session does either does not see the
address or is one of the two steps that do: reading the settings, and opening a client.

## Main definitions

* `Handler.Blind` — answers that do not depend on the address
* `Event.concealed` — an event with no address in it
* `Session.Alike`, `Activity.Matched` — sessions, and activities, that differ in the address at most
* `Session.Sight`, `sights` — what is seen of some runs in a row

## Main results

* `Activity.Matched.bind` — two activities in a row
* `Session.matched_bootstrap` — a run tells nothing of the address
* `Session.sights_eq_sights` — nor do some runs in a row
-/

namespace Provisioner

/-- The answer to a call that opens a client does not depend on the address. -/
def Handler.Blind {σ : Type} (answer : Handler σ) : Prop :=
  ∀ (uri uri' : String) (s : σ), answer (.openClient uri) s = answer (.openClient uri') s

/-- A call with no address in it. -/
def Call.concealed : Call → Call
  | .openClient _ => .openClient ""
  | c => c

/-- An event with no address in it. -/
def Event.concealed : Event → Event
  | .call c error => .call c.concealed error
  | .notice n => .notice n

theorem Event.lines_concealed (t : List Event) : lines (t.map concealed) = lines t := by
  rw [lines, List.filterMap_map]
  refine List.filterMap_congr fun e _ => ?_
  cases e <;> rfl

theorem Event.records_concealed (t : List Event) : records (t.map concealed) = records t := by
  rw [records, List.filterMap_map]
  refine List.filterMap_congr fun e _ => ?_
  cases e <;> rfl

theorem Event.calls_concealed (t : List Event) :
    calls (t.map concealed) = (calls t).map Call.concealed := by
  rw [calls, calls, List.filterMap_map, List.map_filterMap]
  refine List.filterMap_congr fun e _ => ?_
  cases e <;> rfl

/-- Faults strike calls for what they are. -/
theorem Fault.strike_openClient (uri uri' : String) (faults : List Fault) :
    Fault.strike (.openClient uri) faults = Fault.strike (.openClient uri') faults := by
  induction faults with
  | nil => rfl
  | cons f rest ih =>
    have hconcerns : f.concerns (.openClient uri) = f.concerns (.openClient uri') := rfl
    simp only [strike, hconcerns, ih]

/-- Servers do not look at the address by which they are reached, whatever their faults. -/
theorem FaultyServer.blind : Handler.Blind answer := by
  intro uri uri' s
  simp only [answer, Fault.strike_openClient uri uri']
  rfl

namespace Session

/-- Sessions that differ in the address at most, and whose file refers to no variables. -/
structure Alike (i j : Session) : Prop where
  environment : Settings.unaddressed i.environment = Settings.unaddressed j.environment
  envFile : i.envFile = j.envFile
  alone : ∀ text, i.envFile = some text → EnvFile.ReadsAlone text
  settings : Option.Rel Settings.Alike i.settings j.settings
  client : i.client = j.client
  threshold : i.threshold = j.threshold

theorem Alike.start {environment environment' : Assoc String} {envFile : Option String}
    (he : Settings.unaddressed environment = Settings.unaddressed environment')
    (hf : ∀ text, envFile = some text → EnvFile.ReadsAlone text) :
    Alike (start environment envFile) (start environment' envFile) where
  environment := he
  envFile := rfl
  alone := hf
  settings := .none
  client := rfl
  threshold := rfl

end Session

namespace Activity

variable {α β α' β' σ : Type} {answer : Handler σ} {R : α → β → Prop} {S : α' → β' → Prop}

/-- Two ends that differ in the address at most. -/
structure AlikeEnds (R : α → β → Prop) (o : Except Error α) (t : List Event) (p : Session × σ)
    (o' : Except Error β) (t' : List Event) (q : Session × σ) : Prop where
  outcome : AlikeOutcomes R o o'
  trace : t.map Event.concealed = t'.map Event.concealed
  session : p.1.Alike q.1
  state : p.2 = q.2

/-- Two activities, begun in sessions that differ in the address at most, end so that the ends
differ in the address at most, and with values that are related. -/
def Matched (answer : Handler σ) (R : α → β → Prop) (x : Activity α) (y : Activity β) : Prop :=
  ∀ (i j : Session) (s : σ), i.Alike j →
    Ends answer x (i, s) fun o t p => Ends answer y (j, s) fun o' t' q => AlikeEnds R o t p o' t' q

theorem matched_require {e : Except Error α} {e' : Except Error β} (h : AlikeOutcomes R e e') :
    Matched answer R (require e) (require e') := fun _ _ _ hij => ⟨h, rfl, hij, rfl⟩

theorem matched_pure {a : α} {b : β} (h : R a b) :
    Matched answer R (pure a : Activity α) (pure b : Activity β) := matched_require (.ok h)

theorem matched_session : Matched answer Session.Alike session session :=
  fun _ _ _ hij => ⟨.ok hij, rfl, hij, rfl⟩

theorem matched_update {f g : Session → Session} (h : ∀ i j, i.Alike j → (f i).Alike (g j)) :
    Matched answer Eq (update f) (update g) := fun _ _ _ hij => ⟨.ok rfl, rfl, h _ _ hij, rfl⟩

/-- What knows nothing of the session does not know the address. -/
theorem matched_perform (x : Attempt α) : Matched answer Eq (perform x) (perform x) := by
  intro i j s hij
  refine (ends_perform x).2 ((ends_perform x).2 ⟨?_, rfl, hij, rfl⟩)
  cases Procedure.result answer x s with
  | ok a => exact .ok rfl
  | error e => exact .error e

theorem matched_attempt {x : Activity α} {y : Activity β} (h : Matched answer R x y) :
    Matched answer (AlikeOutcomes R) (attempt x) (attempt y) := by
  intro i j s hij
  refine (ends_attempt x).2 ((h i j s hij).imp fun hy => ?_)
  refine (ends_attempt y).2 (hy.imp fun hends => ?_)
  exact { hends with outcome := .ok hends.outcome }

/-- There is one end to an activity. -/
theorem exists_end (answer : Handler σ) (x : Activity α) (p : Session × σ) :
    ∃ o t q, ∀ Q : Except Error α → List Event → Session × σ → Prop,
      Ends answer x p Q ↔ Q o t q :=
  ⟨_, _, _, fun _ => Iff.rfl⟩

/-- **Two activities in a row.** -/
theorem Matched.bind {x : Activity α} {y : Activity β} {f : α → Activity α'} {g : β → Activity β'}
    (hx : Matched answer R x y) (hf : ∀ {a b}, R a b → Matched answer S (f a) (g b)) :
    Matched answer S (x >>= f : Activity α') (y >>= g : Activity β') := by
  intro i j s hij
  have hends := hx i j s hij
  obtain ⟨o, t, p, hp⟩ := exists_end answer x (i, s)
  obtain ⟨o', t', q, hq⟩ := exists_end answer y (j, s)
  simp only [ends_bind, hp, hq] at hends ⊢
  obtain ⟨houtcome, htrace, hsession, hstate⟩ := hends
  cases houtcome with
  | error e => exact ⟨.error e, htrace, hsession, hstate⟩
  | @ok a b hab =>
    obtain ⟨j', s'⟩ := q
    obtain rfl : p.2 = s' := hstate
    refine (hf hab p.1 j' p.2 hsession).imp fun {o t m} hy => hy.imp fun {o' t' m'} hends => ?_
    refine { hends with trace := ?_ }
    rw [List.map_append, List.map_append, htrace, hends.trace]

end Activity

namespace Session

open Activity

variable {σ : Type} {answer : Handler σ}

/-! ### A run -/

theorem matched_settingsInForce :
    Matched answer Settings.Alike settingsInForce settingsInForce := by
  intro i j s hij
  have hsettings := hij.settings
  cases hi : i.settings with
  | some a =>
    cases hj : j.settings with
    | none => rw [hi, hj] at hsettings; cases hsettings
    | some b =>
      rw [hi, hj] at hsettings
      obtain hab | _ := hsettings
      exact (ends_settingsInForce (p := (i, s)) hi).2
        ((ends_settingsInForce (p := (j, s)) hj).2 ⟨.ok hab, rfl, hij, rfl⟩)
  | none =>
    cases hj : j.settings with
    | some b => rw [hi, hj] at hsettings; cases hsettings
    | none =>
      have hread : AlikeOutcomes Settings.Alike i.readSettings j.readSettings := by
        rw [readSettings, readSettings, ← hij.envFile]
        exact Settings.alike_read hij.environment hij.alone
      cases hri : i.readSettings with
      | ok a =>
        cases hrj : j.readSettings with
        | error e => rw [hri, hrj] at hread; cases hread
        | ok b =>
          rw [hri, hrj] at hread
          obtain hab | _ := hread
          refine (ends_settingsInForce_of_read (p := (i, s)) hi hri).2
            ((ends_settingsInForce_of_read (p := (j, s)) hj hrj).2 ⟨.ok hab, rfl, ?_, rfl⟩)
          exact { hij with settings := .some hab }
      | error e =>
        cases hrj : j.readSettings with
        | ok b => rw [hri, hrj] at hread; cases hread
        | error e' =>
          rw [hri, hrj] at hread
          cases hread
          exact (ends_settingsInForce_of_unread (p := (i, s)) hi hri).2
            ((ends_settingsInForce_of_unread (p := (j, s)) hj hrj).2 ⟨.error e, rfl, hij, rfl⟩)

/-- The addresses with which two clients are opened may differ. -/
theorem matched_openClient (h : answer.Blind) (uri uri' : String) :
    Matched answer Eq (call (.openClient uri)) (call (.openClient uri')) := by
  intro i j s hij
  refine (ends_call _).2 ((ends_call _).2 ?_)
  rw [h uri uri' s]
  refine ⟨.refl (fun _ => rfl) _, rfl, hij, rfl⟩

theorem matched_openedClient (h : answer.Blind) :
    Matched answer Eq openedClient openedClient := by
  refine matched_session.bind fun {i j} hij => ?_
  rw [hij.client]
  cases j.client with
  | some c => exact matched_pure rfl
  | none =>
    refine matched_settingsInForce.bind fun {a b} hab => ?_
    refine (matched_openClient h a.uri b.uri).bind fun {c d} hcd => ?_
    subst hcd
    refine (matched_update fun i j hij => ?_).bind fun _ => matched_pure rfl
    exact { hij with client := rfl }

theorem matched_ping (h : answer.Blind) : Matched answer Eq ping ping :=
  (matched_openedClient h).bind fun hcd => hcd ▸ matched_perform _

theorem matched_database (h : answer.Blind) (name : Option String) :
    Matched answer Eq (database name) (database name) := by
  have hopen : ∀ (client : Nat) (name : String), Matched answer Eq
      (do let _ ← call (.openDatabase client name); return name : Activity String)
      (do let _ ← call (.openDatabase client name); return name : Activity String) :=
    fun _ _ => (matched_perform _).bind fun _ => matched_pure rfl
  refine (matched_openedClient h).bind fun {c d} hcd => ?_
  subst hcd
  split
  · rw [bind_map_left]
    refine matched_settingsInForce.bind fun {a b} hab => ?_
    rw [hab.database]
    exact hopen c b.database
  · rw [pure_bind]
    exact hopen c _

theorem matched_connectAndApply (h : answer.Blind) (target : String) :
    Matched answer Eq (connectAndApply target) (connectAndApply target) := by
  refine (matched_ping h).bind fun _ => (matched_perform _).bind fun _ => ?_
  exact (matched_database h (some target)).bind fun hopened => hopened ▸ matched_perform _

theorem matched_closeClient : Matched answer Eq closeClient closeClient := by
  refine matched_session.bind fun {i j} hij => ?_
  rw [hij.client]
  cases j.client with
  | none => exact matched_pure rfl
  | some c =>
    refine (matched_perform _).bind fun _ => matched_update fun i j hij => ?_
    exact { hij with client := rfl }

theorem matched_applySchema (h : answer.Blind) :
    Matched answer Eq applySchema applySchema := by
  refine matched_settingsInForce.bind fun {a b} hab => ?_
  rw [hab.database]
  refine (matched_attempt (matched_connectAndApply h b.database)).bind fun houtcome => ?_
  exact matched_closeClient.bind fun _ => (matched_perform _).bind fun _ => matched_require houtcome

theorem matched_announce {a b : Settings} (hab : a.Alike b) :
    Matched answer Eq (announce a) (announce b) := by
  rw [announce, announce, hab.database]
  refine (matched_perform _).bind fun _ => (matched_perform _).bind fun _ => ?_
  exact (matched_perform _).bind fun _ => matched_perform _

theorem matched_configureLogging (name : String) :
    Matched answer Eq (configureLogging name) (configureLogging name) := by
  refine (matched_require (.refl (fun _ => rfl) _)).bind fun {t t'} ht => ?_
  subst ht
  refine matched_update fun i j hij => ?_
  exact { hij with threshold := congrArg (fun n => some (Option.getD n t)) hij.threshold }

theorem matched_bootstrapWith (h : answer.Blind) {a b : Settings} (hab : a.Alike b) :
    Matched answer Eq (bootstrapWith a) (bootstrapWith b) := by
  rw [bootstrapWith, bootstrapWith, hab.level]
  refine (matched_configureLogging _).bind fun _ => (matched_announce hab).bind fun _ => ?_
  refine (matched_attempt (matched_applySchema h)).bind fun houtcome => ?_
  cases houtcome with
  | ok _ => exact matched_pure rfl
  | error e =>
    dsimp only
    split
    · exact matched_require (.error e)
    · exact (matched_perform _).bind fun _ => matched_pure rfl

/-- A run tells nothing of the address. -/
theorem matched_bootstrap (h : answer.Blind) : Matched answer Eq bootstrap bootstrap := by
  refine (matched_attempt matched_settingsInForce).bind fun houtcome => ?_
  cases houtcome with
  | ok hab => exact matched_bootstrapWith h hab
  | error e => exact (matched_perform _).bind fun _ => matched_pure rfl

/-! ### Some runs in a row -/

/-- What is seen of a run: how it ends, what it prints, what it records, how the records are shown,
and which calls are made, but for the address. -/
structure Sight where
  outcome : Except Error Nat
  lines : List String
  records : List (Level × String)
  shown : String
  calls : List Call

/-- What is seen of a run that shows records with the given time. -/
def sight (time : String) (ran : (Except Error Nat × Session) × List Event × σ) : Sight where
  outcome := ran.1.1
  lines := Event.lines ran.2.1
  records := Event.records ran.2.1
  shown := Log.shown ran.1.2.threshold time (Event.records ran.2.1)
  calls := (Event.calls ran.2.1).map Call.concealed

/-- What is seen of some runs in a row, and the server as the last one leaves it. -/
def sights (answer : Handler σ) (time : String) : Nat → Session × σ → List Sight × σ
  | 0, p => ([], p.2)
  | n + 1, p =>
    let ran := (bootstrap.runIn p.1).run answer p.2
    let rest := sights answer time n (ran.1.2, ran.2.2)
    (sight time ran :: rest.1, rest.2)

theorem sight_eq_sight {ran ran' : (Except Error Nat × Session) × List Event × σ}
    (h : AlikeEnds Eq ran.1.1 ran.2.1 (ran.1.2, ran.2.2) ran'.1.1 ran'.2.1 (ran'.1.2, ran'.2.2))
    (time : String) : sight time ran = sight time ran' := by
  have hlines : Event.lines ran.2.1 = Event.lines ran'.2.1 := by
    rw [← Event.lines_concealed, h.trace, Event.lines_concealed]
  have hrecords : Event.records ran.2.1 = Event.records ran'.2.1 := by
    rw [← Event.records_concealed, h.trace, Event.records_concealed]
  have hcalls : (Event.calls ran.2.1).map Call.concealed
      = (Event.calls ran'.2.1).map Call.concealed := by
    rw [← Event.calls_concealed, h.trace, Event.calls_concealed]
  rw [sight, sight, h.outcome.eq, hlines, hrecords, hcalls, h.session.threshold]

theorem sights_eq_sights (h : answer.Blind) {i j : Session} (hij : i.Alike j) (time : String)
    (n : Nat) (s : σ) : sights answer time n (i, s) = sights answer time n (j, s) := by
  induction n generalizing i j s with
  | zero => rfl
  | succ n ih =>
    have hends : AlikeEnds Eq _ _ _ _ _ _ := matched_bootstrap h i j s hij
    have hstate : ((bootstrap.runIn i).run answer s).2.2 = ((bootstrap.runIn j).run answer s).2.2 :=
      hends.state
    have hrest := ih hends.session ((bootstrap.runIn i).run answer s).2.2
    simp only [sights]
    rw [← hstate, sight_eq_sight hends time]
    exact congrArg (fun rest => (_ :: rest.1, rest.2)) hrest

/-- **The address is not told.** Whatever server there is, as long as its answers do not depend on
the address, and however often the bootstrap is run: if the environment differs from another one in
the address at most, and the file refers to no variables, then the same is seen in both. -/
theorem sights_start (h : answer.Blind) {environment environment' : Assoc String}
    {envFile : Option String}
    (he : Settings.unaddressed environment = Settings.unaddressed environment')
    (hf : ∀ text, envFile = some text → EnvFile.ReadsAlone text) (time : String) (n : Nat) (s : σ) :
    sights answer time n (start environment envFile, s)
      = sights answer time n (start environment' envFile, s) :=
  sights_eq_sights h (.start he hf) time n s

/-- A server that is not to be reached at first. -/
def lateServer : FaultyServer where
  server := { store := [], clients := 0 }
  faults := [{
    call := .ping, database := none, collection := none, name := none, skip := 0, times := some 1
    error := some (.reported "ServerSelectionTimeoutError" "timed out") }]

/-- Two addresses of the same server, one of them with a password. The first run fails, the second
one succeeds, and nothing that is seen of them tells the two addresses apart. -/
theorem sights_late :
    let file := "AUTH_DB_NAME=other\nLOG_LEVEL='debug' # not $info"
    let plain : Assoc String := [("MongoDB_URI", "mongodb://db")]
    let secret : Assoc String := [("MongoDB_URI", "mongodb://root:example@db")]
    let first := (bootstrap.runIn (start plain (some file))).run FaultyServer.answer lateServer
    let second := (bootstrap.runIn first.1.2).run FaultyServer.answer first.2.2
    Handler.Blind FaultyServer.answer
      ∧ Settings.unaddressed plain = Settings.unaddressed secret
      ∧ EnvFile.ReadsAlone file
      ∧ sights FaultyServer.answer "" 2 (start plain (some file), lateServer)
          = sights FaultyServer.answer "" 2 (start secret (some file), lateServer)
      ∧ first.1.1 = .ok failure ∧ second.1.1 = .ok success := by
  have hfile : EnvFile.Unreferring "AUTH_DB_NAME=other\nLOG_LEVEL='debug' # not $info".toList := by
    intro inside hs
    have hbrace : '\x7b' ∈ "AUTH_DB_NAME=other\nLOG_LEVEL='debug' # not $info".toList :=
      hs.subset (by simp)
    exact absurd hbrace (by decide)
  have henv : Settings.unaddressed [("MongoDB_URI", "mongodb://db")]
      = Settings.unaddressed [("MongoDB_URI", "mongodb://root:example@db")] := by decide +kernel
  refine ⟨FaultyServer.blind, henv, EnvFile.readsAlone_of_text hfile, ?_, rfl, rfl⟩
  refine sights_start FaultyServer.blind henv (fun text htext => ?_) "" 2 lateServer
  exact Option.some.inj htext ▸ EnvFile.readsAlone_of_text hfile

end Session

end Provisioner
