import Provisioner.Proofs.Error.Failure
import Provisioner.Proofs.Store.CarefulServer
import Provisioner.Session.Connection

/-!
# How activities end

An activity begins in a session and against a server in some state. It ends with an outcome, having
left a trace, in a session and a state of the server that it may have changed. A claim about the end
is reduced, step by step, to claims about the ends of the steps of which the activity is made.

Most of what a session does only prepares the work: it shows nothing to the reader, it leaves the
contents of the store alone, and it does not replace settings that are in force. The connection is
dealt with in such steps. If no call is cancelled, they may fail, but are not cancelled either.

## Main definitions

* `Activity.Ends` — what is true of the end of an activity
* `Handler.Uncancelled` — states from which no call is cancelled
* `Activity.Aside`, `Activity.Prepares` — what only prepares the work

## Main results

* `Activity.ends_bind` — the end of two activities in a row
* `Activity.Prepares.bind` — preparations in a row
* `Session.prepares_ping`, `prepares_closeClient`, `ends_database` — the connection
-/

namespace Provisioner

open Store

/-! ### The laws -/

namespace Activity

open Procedure

variable {α β σ : Type} {answer : Handler σ} {p : Session × σ}
  {Q R : Except Error α → List Event → Session × σ → Prop}

/-- An activity, begun in a session and against a server in some state, ends so that its outcome,
its trace, and the session and the server as it leaves them have a given property. -/
def Ends (answer : Handler σ) (x : Activity α) (p : Session × σ)
    (Q : Except Error α → List Event → Session × σ → Prop) : Prop :=
  Q (result answer (x.runIn p.1) p.2).1 (trace answer (x.runIn p.1) p.2)
    ((result answer (x.runIn p.1) p.2).2, final answer (x.runIn p.1) p.2)

theorem Ends.imp {x : Activity α} (h : Ends answer x p Q) (hqr : ∀ {o t q}, Q o t q → R o t q) :
    Ends answer x p R := hqr h

@[simp] theorem ends_pure (a : α) : Ends answer (pure a) p Q ↔ Q (.ok a) [] p := Iff.rfl

@[simp] theorem ends_require (e : Except Error α) : Ends answer (require e) p Q ↔ Q e [] p :=
  Iff.rfl

@[simp] theorem ends_session {Q : Except Error Session → List Event → Session × σ → Prop} :
    Ends answer session p Q ↔ Q (.ok p.1) [] p := Iff.rfl

@[simp] theorem ends_update (f : Session → Session)
    {Q : Except Error Unit → List Event → Session × σ → Prop} :
    Ends answer (update f) p Q ↔ Q (.ok ()) [] (f p.1, p.2) := Iff.rfl

theorem ends_perform (a : Attempt α) :
    Ends answer (perform a) p Q
      ↔ Q (result answer a p.2) (trace answer a p.2) (p.1, final answer a p.2) := by
  have hrun := run_bind answer a (fun outcome => .done (outcome, p.1)) p.2
  simp only [Ends, perform, runIn, ofRun, ExceptT.mk]
  rw [result, trace, final, hrun]
  simp [result, trace, final]

@[simp] theorem ends_log (level : Level) (message : String)
    {Q : Except Error Unit → List Event → Session × σ → Prop} :
    Ends answer (log level message) p Q ↔ Q (.ok ()) [.notice (.record level message)] p := Iff.rfl

theorem ends_call (c : Call) {Q : Except Error c.Answer → List Event → Session × σ → Prop} :
    Ends answer (call c) p Q
      ↔ Q (answer c p.2).1 [.call c (errorOf (answer c p.2).1)] (p.1, (answer c p.2).2) := Iff.rfl

/-- Whatever the outcome of an attempted activity, the attempt itself succeeds. -/
@[simp] theorem ends_attempt (x : Activity α)
    {Q : Except Error (Except Error α) → List Event → Session × σ → Prop} :
    Ends answer (attempt x) p Q ↔ Ends answer x p fun o t q => Q (.ok o) t q := by
  have hrun := run_bind answer (x.runIn p.1) (fun r => .done (Except.ok (ε := Error) r.1, r.2)) p.2
  simp only [Ends, attempt, runIn, ofRun, ExceptT.mk] at hrun ⊢
  rw [result, trace, final, hrun]
  simp [result, trace, final]

theorem runIn_bind (x : Activity α) (f : α → Activity β) (i : Session) :
    (x >>= f : Activity β).runIn i = (x.runIn i).bind fun r =>
      match r with
      | (.ok a, j) => (f a).runIn j
      | (.error e, j) => .done (.error e, j) := by
  refine congrArg (Procedure.bind (x.runIn i)) (funext fun r => ?_)
  obtain ⟨o, j⟩ := r
  cases o <;> rfl

/-- Of two activities in a row, the second one goes on from the end of the first one, unless this
has failed. -/
@[simp] theorem ends_bind {x : Activity α} {f : α → Activity β}
    {Q : Except Error β → List Event → Session × σ → Prop} :
    Ends answer (x >>= f : Activity β) p Q ↔ Ends answer x p fun o t m =>
      match o with
      | .ok a => Ends answer (f a) m fun o' t' q => Q o' (t ++ t') q
      | .error e => Q (.error e) t m := by
  have hrun := run_bind answer (x.runIn p.1) (fun r => match r with
      | (.ok a, j) => (f a).runIn j
      | (.error e, j) => .done (.error e, j)) p.2
  rw [← runIn_bind] at hrun
  rw [Ends, result, trace, final, hrun, Ends]
  cases h : result answer (x.runIn p.1) p.2 with
  | mk o j => cases o <;> simp [Ends, result, trace, final]

/-- A claim about two activities in a row from one about the first of them. -/
theorem Ends.bind {x : Activity α} {f : α → Activity β}
    {Q : Except Error β → List Event → Session × σ → Prop} (hx : Ends answer x p R)
    (ok : ∀ {a t m}, R (.ok a) t m → Ends answer (f a) m fun o t' q => Q o (t ++ t') q)
    (error : ∀ {e t m}, R (.error e) t m → Q (.error e) t m) :
    Ends answer (x >>= f : Activity β) p Q := by
  refine ends_bind.2 (hx.imp fun {o t m} hR => ?_)
  cases o with
  | ok a => exact ok hR
  | error e => exact error hR

end Activity

/-! ### Preparing the work -/

@[simp] theorem Event.lines_record_cons (level : Level) (message : String) (t : List Event) :
    lines (.notice (.record level message) :: t) = lines t := rfl

/-- States from which no call is cancelled, nor any later one. -/
structure Handler.Uncancelled {σ : Type} (answer : Handler σ) (I : σ → Prop) : Prop where
  stays : ∀ (c : Call) s, I s → I (answer c s).2
  ordinary : ∀ (c : Call) s, I s → Fails Error.Ordinary (answer c s).1

namespace Activity

open Procedure

variable {α β σ : Type} {answer : Handler σ} {store : σ → Store} {I : σ → Prop}

/-- What is seen of a preparation of the work: if it has failed, it has not been cancelled; nothing
is shown to the reader, the contents are the same, and settings that were in force still are. -/
structure Aside (store : σ → Store) (I : σ → Prop) (p : Session × σ) (o : Except Error α)
    (t : List Event) (q : Session × σ) : Prop where
  ordinary : Fails Error.Ordinary o
  uncancelled : I q.2
  silent : Event.lines t = []
  unchanged : store q.2 = store p.2
  settings : ∀ {settings}, p.1.settings = some settings → q.1.settings = some settings

theorem Aside.trans {p m q : Session × σ} {a : α} {o : Except Error β} {t t' : List Event}
    (h : Aside store I p (.ok a) t m) (h' : Aside store I m o t' q) :
    Aside store I p o (t ++ t') q where
  ordinary := h'.ordinary
  uncancelled := h'.uncancelled
  silent := by rw [Event.lines_append, h.silent, h'.silent, List.append_nil]
  unchanged := h'.unchanged.trans h.unchanged
  settings hp := h'.settings (h.settings hp)

theorem Aside.failed {p q : Session × σ} {e : Error} {t : List Event}
    (h : Aside store I p (.error e : Except Error α) t q) :
    Aside store I p (.error e : Except Error β) t q :=
  { h with ordinary := fails_error (h.ordinary e rfl) }

/-- An activity that only prepares the work, if no call is cancelled. -/
def Prepares (answer : Handler σ) (store : σ → Store) (I : σ → Prop) (x : Activity α) : Prop :=
  ∀ p : Session × σ, I p.2 → Ends answer x p (Aside store I p)

theorem Prepares.bind {x : Activity α} {f : α → Activity β} (hx : Prepares answer store I x)
    (hf : ∀ a, Prepares answer store I (f a)) :
    Prepares answer store I (x >>= f : Activity β) := fun p hp =>
  Ends.bind (hx p hp) (fun {a _ m} hm => (hf a m hm.uncancelled).imp hm.trans) Aside.failed

/-- What leaves everything as it is prepares the work. -/
theorem Aside.same {p : Session × σ} (hp : I p.2) {o : Except Error α}
    (ho : Fails Error.Ordinary o) {j : Session} (hj : j.settings = p.1.settings) :
    Aside store I p o [] (j, p.2) where
  ordinary := ho
  uncancelled := hp
  silent := rfl
  unchanged := rfl
  settings hs := hj.trans hs

theorem Aside.logged {p : Session × σ} (hp : I p.2) (level : Level) (message : String) :
    Aside store I p (.ok ()) [.notice (.record level message)] p where
  ordinary := fails_ok ()
  uncancelled := hp
  silent := rfl
  unchanged := rfl
  settings hs := hs

theorem prepares_pure (a : α) : Prepares answer store I (pure a : Activity α) :=
  fun _ hp => (ends_pure a).2 (.same hp (fails_ok a) rfl)

theorem prepares_session : Prepares answer store I session :=
  fun _ hp => ends_session.2 (.same hp (fails_ok _) rfl)

theorem prepares_update {f : Session → Session} (hf : ∀ i, (f i).settings = i.settings) :
    Prepares answer store I (update f) :=
  fun p hp => (ends_update f).2 (.same hp (fails_ok ()) (hf p.1))

/-- A call prepares the work if it does not concern the contents. -/
theorem prepares_call (h : answer.Careful store) (hI : answer.Uncancelled I) {c : Call}
    (hc : ∀ {s o t}, c.Allows s o t → t = s) : Prepares answer store I (call c) := fun p hp =>
  (ends_call c).2
    { ordinary := hI.ordinary c p.2 hp
      uncancelled := hI.stays c p.2 hp
      silent := rfl
      unchanged := hc (h.allowed c p.2)
      settings := fun hs => hs }

end Activity

/-! ### The connection -/

namespace Session

open Activity

variable {σ : Type} {answer : Handler σ} {store : σ → Store} {I : σ → Prop}
  {p : Session × σ} {settings : Settings}

theorem fails_readSettings (i : Session) : Fails Error.Ordinary i.readSettings := by
  rw [readSettings, Settings.read, Settings.load]
  split
  · exact fails_ok _
  · exact fails_error rfl

/-- Settings in force are not read again. -/
theorem ends_settingsInForce {Q : Except Error Settings → List Event → Session × σ → Prop}
    (hs : p.1.settings = some settings) :
    Ends answer settingsInForce p Q ↔ Q (.ok settings) [] p := by
  rw [Ends, settingsInForce_of_some hs]
  rfl

/-- Settings that have been read come into force. -/
theorem ends_settingsInForce_of_read {Q : Except Error Settings → List Event → Session × σ → Prop}
    (hs : p.1.settings = none) (hr : p.1.readSettings = .ok settings) :
    Ends answer settingsInForce p Q
      ↔ Q (.ok settings) [] ({ p.1 with settings := some settings }, p.2) := by
  rw [Ends, settingsInForce, runIn, ofRun, ExceptT.mk, hs, hr]
  rfl

/-- Settings that cannot be read are not remembered. -/
theorem ends_settingsInForce_of_unread {Q : Except Error Settings → List Event → Session × σ → Prop}
    {e : Error} (hs : p.1.settings = none) (hr : p.1.readSettings = .error e) :
    Ends answer settingsInForce p Q ↔ Q (.error e) [] p := by
  rw [Ends, settingsInForce, runIn, ofRun, ExceptT.mk, hs, hr]
  rfl

theorem prepares_settingsInForce : Prepares answer store I settingsInForce := by
  intro p hp
  cases hs : p.1.settings with
  | some settings => exact (ends_settingsInForce hs).2 (.same hp (fails_ok _) rfl)
  | none =>
    cases hr : p.1.readSettings with
    | ok settings =>
      refine (ends_settingsInForce_of_read hs hr).2 ⟨fails_ok _, hp, rfl, rfl, fun h => ?_⟩
      exact nomatch hs.symm.trans h
    | error e =>
      refine (ends_settingsInForce_of_unread hs hr).2 (.same hp (fails_error ?_) rfl)
      exact fails_readSettings p.1 e hr

section Connection

variable (h : answer.Careful store) (hI : answer.Uncancelled I)

include h hI

theorem prepares_openedClient : Prepares answer store I openedClient := by
  refine prepares_session.bind fun i => ?_
  split
  · exact prepares_pure _
  · refine prepares_settingsInForce.bind fun settings => ?_
    refine (prepares_call (c := .openClient settings.uri) h hI fun hc => hc).bind fun client => ?_
    refine Prepares.bind (prepares_update ?_) fun _ => prepares_pure client
    exact fun _ => rfl

theorem prepares_ping : Prepares answer store I ping :=
  (prepares_openedClient h hI).bind fun client =>
    prepares_call (c := .ping client) h hI fun hc => hc

theorem prepares_closeClient : Prepares answer store I closeClient := by
  refine prepares_session.bind fun i => ?_
  split
  · exact (prepares_call (c := .close _) h hI fun hc => hc).bind fun _ =>
      prepares_update fun _ => rfl
  · exact prepares_pure ()

/-- The database that is opened is that of the settings in force, also where its name is empty and
counts as none. -/
theorem ends_database (hp : I p.2) (hs : p.1.settings = some settings) :
    Ends answer (database (some settings.database)) p fun o t q =>
      Aside store I p o t q ∧ ∀ name, o = .ok name → name = settings.database := by
  refine Ends.bind (prepares_openedClient h hI p hp) (fun {client t m} hm => ?_) fun he =>
    ⟨he.failed, fun _ hn => nomatch hn⟩
  have hopen : Ends answer (call (.openDatabase client settings.database) >>= fun _ =>
      pure settings.database : Activity String) m fun o t' q =>
        Aside store I p o (t ++ t') q ∧ ∀ name, o = .ok name → name = settings.database := by
    have hcall : Prepares answer store I (call (.openDatabase client settings.database)) :=
      prepares_call h hI fun hc => hc
    refine Ends.bind (hcall m hm.uncancelled) (fun hq => ?_) fun he =>
      ⟨hm.trans he.failed, fun _ hn => nomatch hn⟩
    exact (ends_pure _).2 ⟨hm.trans (hq.trans (.same hq.uncancelled (fails_ok _) rfl)),
      fun _ hn => (Except.ok.inj hn).symm⟩
  simp only [Option.getD_some]
  split
  · rw [bind_map_left, ends_bind]
    exact (ends_settingsInForce (hm.settings hs)).2 hopen
  · rw [pure_bind]
    exact hopen

end Connection

end Session

end Provisioner
