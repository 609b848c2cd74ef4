import Provisioner.Proofs.Session.HeldClient
import Provisioner.Proofs.Schema.RunReport

/-!
# How a session applies the schema

Connecting, applying the schema and disconnecting is one line of calls that may break at any place:
the client cannot be opened, the server does not answer, the database cannot be had, or applying the
schema fails. Wherever it breaks, the client is closed if there is one by then, and the error is
passed on, unless closing fails with an error of its own. All of this holds over any server and for
errors of any kind, cancellations among them.

The proof follows the line. What has been done up to the place where it ends is one of four cases;
everything that is said of the calls is read off from these.

## Main definitions

* `Event.CutOff` — a call that fails is the last event, and its error the result
* `Session.Connected`, `Worked` — what is done before the client is closed
* `Session.Conducted` — what is seen of the whole

## Main results

* `Session.worked_connectAndApply` — the line of calls, and where it may end
* `Session.conducted_applySchema` — connecting, applying the schema and disconnecting
-/

namespace Provisioner

/-! ### Failing calls -/

/-- If a call fails then nothing happens after it, and its error is the result. -/
def Event.CutOff {α : Type} (o : Except Error α) : List Event → Prop
  | [] => True
  | .call _ (some e) :: rest => rest = [] ∧ o = .error e
  | .call _ none :: rest => CutOff o rest
  | .notice _ :: rest => CutOff o rest

open Procedure in
/-- A procedure that yields is cut off by the first call that fails. -/
theorem Procedure.Yields.cutOff {α σ : Type} {answer : Handler σ}
    {p : Procedure (Except Error α)} (hp : p.Yields) (s : σ) :
    Event.CutOff (result answer p s) (trace answer p s) := by
  induction p generalizing s with
  | done value => trivial
  | leave n rest ih => exact ih hp s
  | ask c rest ih =>
    obtain ⟨hstop, hgo⟩ := hp
    rw [trace_ask, result_ask]
    cases ha : (answer c s).1 with
    | error e =>
      rw [hstop]
      exact ⟨rfl, rfl⟩
    | ok a => exact ih (.ok a) (hgo a) _

/-- A call upon the collections or the indexes of a database. -/
def Call.concernsSchema : Call → Bool
  | .openClient _ | .ping _ | .close _ | .openDatabase _ _ => false
  | _ => true

namespace Schema

open Attempt

/-- An event that is no call, or a call upon this database. -/
def Upon (target : String) : Event → Prop
  | .call c _ => c.database? = some target
  | .notice _ => True

/-- Applying the schema calls upon its database only. -/
theorem addressed_apply {σ : Type} (answer : Handler σ) (target : String) (s : σ) :
    ∀ c ∈ Event.calls (Procedure.trace answer (apply target) s), c.database? = some target := by
  have hsteps : Stepwise target fun _ x => Leaves answer (Upon target) x :=
    stepwise_leaves (fun _ _ _ => trivial) fun _ _ hc => hc
  have happly : Leaves answer (Upon target) (apply target) :=
    hsteps.apply (fun _ _ => leaves_log trivial)
      (fun _ _ _ he => List.mem_singleton.1 he ▸ trivial) fun _ => leaves_require _
  intro c hc
  obtain ⟨e, he, hce⟩ := List.mem_filterMap.1 hc
  match e with
  | .call c' error =>
    obtain rfl := Option.some.inj hce
    exact happly s _ he
  | .notice n => exact nomatch hce

end Schema

namespace Session

open Activity
open Procedure (result trace final)

variable {σ : Type} {answer : Handler σ} {p : Session × σ} {settings : Settings}

/-! ### The line of calls -/

/-- The client with which the work is done: the one that is remembered, or else one that is opened
with the address of the settings. -/
inductive Connected (answer : Handler σ) (settings : Settings) :
    Option Nat → σ → List Event → Nat → σ → Prop
  | cached (c : Nat) (s : σ) : Connected answer settings (some c) s [] c s
  | opened {s m : σ} {c : Nat} (ha : answer (.openClient settings.uri) s = (.ok c, m)) :
    Connected answer settings none s [.call (.openClient settings.uri) none] c m

/-- The record that the server has answered. -/
def connected : Event := .notice (.record .info "Connected to MongoDB")

/-- What is done before the client is closed, with its result, its trace, and the client and the
state of the server that it leads to. Each of the calls is made only if those before it have been
granted. -/
inductive Worked (answer : Handler σ) (settings : Settings) (cached : Option Nat) (s : σ) :
    Except Error Unit → List Event → Option Nat → σ → Prop
  | unopened {e : Error} {m : σ} (hc : cached = none)
    (ha : answer (.openClient settings.uri) s = (.error e, m)) :
    Worked answer settings cached s (.error e) [.call (.openClient settings.uri) (some e)] cached m
  | unreachable {t : List Event} {c : Nat} {m m' : σ} {e : Error}
    (hc : Connected answer settings cached s t c m) (ha : answer (.ping c) m = (.error e, m')) :
    Worked answer settings cached s (.error e) (t ++ [.call (.ping c) (some e)]) (some c) m'
  | unnamed {t : List Event} {c : Nat} {m m₁ m₂ : σ} {e : Error}
    (hc : Connected answer settings cached s t c m) (hp : answer (.ping c) m = (.ok (), m₁))
    (ha : answer (.openDatabase c settings.database) m₁ = (.error e, m₂)) :
    Worked answer settings cached s (.error e)
      (t ++ [.call (.ping c) none, connected, .call (.openDatabase c settings.database) (some e)])
      (some c) m₂
  | applied {t : List Event} {c : Nat} {m m₁ m₂ : σ}
    (hc : Connected answer settings cached s t c m) (hp : answer (.ping c) m = (.ok (), m₁))
    (hd : answer (.openDatabase c settings.database) m₁ = (.ok (), m₂)) :
    Worked answer settings cached s (result answer (Schema.apply settings.database) m₂)
      (t ++ [.call (.ping c) none, connected, .call (.openDatabase c settings.database) none]
        ++ trace answer (Schema.apply settings.database) m₂)
      (some c) (final answer (Schema.apply settings.database) m₂)

/-- With a client in hand the database of the settings is opened, also where its name is empty and
counts as none. -/
theorem ends_database_of_client {i : Session} {c : Nat} {m : σ} (hc : i.client = some c)
    (hs : i.settings = some settings) {Q : Except Error String → List Event → Session × σ → Prop} :
    Ends answer (database (some settings.database)) (i, m) Q
      ↔ Ends answer (do
          let _ ← call (.openDatabase c settings.database)
          return settings.database) (i, m) Q := by
  simp only [database, Option.getD_some]
  rw [ends_bind, ends_openedClient_of_some hc]
  simp only [List.nil_append]
  split
  · rw [bind_map_left, ends_bind, ends_settingsInForce hs]
    simp
  · rw [pure_bind]

/-- What is done with a client in hand. -/
theorem worked_of_connected {i : Session} {t : List Event} {c : Nat} {s m : σ} {cached : Option Nat}
    (hconn : Connected answer settings cached s t c m) (hs : i.settings = some settings) :
    Ends answer (do
      let _ ← call (.ping c)
      log .info "Connected to MongoDB"
      let opened ← database (some settings.database)
      perform (Schema.apply opened)) ({ i with client := some c }, m) fun o t' q =>
        Worked answer settings cached s o (t ++ t') q.1.client q.2
          ∧ q.1 = { i with client := q.1.client } := by
  refine ends_bind.2 ((ends_call _).2 ?_)
  cases hp : answer (.ping c) m with
  | mk o m₁ =>
    cases o with
    | error e => exact ⟨.unreachable hconn hp, rfl⟩
    | ok u =>
      simp only [ends_bind, ends_log]
      refine (ends_database_of_client (i := { i with client := some c }) rfl hs).2 ?_
      refine ends_bind.2 ((ends_call _).2 ?_)
      cases hd : answer (.openDatabase c settings.database) m₁ with
      | mk o m₂ =>
        cases o with
        | error e => exact ⟨.unnamed hconn hp hd, rfl⟩
        | ok u =>
          simp only [ends_pure]
          refine (ends_perform _).2 ⟨?_, rfl⟩
          have h := Worked.applied hconn hp hd
          rw [List.append_assoc] at h
          exact h

/-- What is done before the client is closed. -/
theorem worked_connectAndApply {i : Session} (hs : i.settings = some settings) (s : σ) :
    Ends answer (connectAndApply settings.database) (i, s) fun o t q =>
      Worked answer settings i.client s o t q.1.client q.2
        ∧ q.1 = { i with client := q.1.client } := by
  rw [connectAndApply, ping, bind_assoc]
  refine ends_bind.2 ((opening_openedClient answer (i, s)).imp fun {o t q} h => ?_)
  cases h with
  | @cached c hc =>
    have hi : { i with client := some c } = i := by rw [← hc]
    have hconn : Connected answer settings i.client s [] c s := hc ▸ .cached c s
    have hwork := worked_of_connected hconn hs
    rw [hi] at hwork
    exact hwork
  | unread hc hs' hr => exact nomatch hs.symm.trans hs'
  | opened hc hi ha =>
    obtain rfl := hi.unique (.inl hs)
    have hconn := hc ▸ Connected.opened ha
    have hwork := worked_of_connected hconn hs
    rw [remember_of_some hs]
    exact hwork
  | refused hc hi ha =>
    obtain rfl := hi.unique (.inl hs)
    rw [remember_of_some hs]
    exact ⟨.unopened hc ha, rfl⟩

/-! ### What is seen of it -/

section Worked

variable {cached held : Option Nat} {s m : σ} {c : Nat} {outcome : Except Error Unit}
  {work t : List Event}

/-- A call that fails is the last one. -/
theorem Worked.cutOff (h : Worked answer settings cached s outcome work held m) :
    Event.CutOff outcome work := by
  cases h with
  | unopened hc ha => exact ⟨rfl, rfl⟩
  | unreachable hc ha => cases hc <;> exact ⟨rfl, rfl⟩
  | unnamed hc hp ha => cases hc <;> exact ⟨rfl, rfl⟩
  | applied hc hp hd => cases hc <;> exact Schema.yields_apply.cutOff _

/-- The calls that are made if none fails. -/
def plannedCalls (answer : Handler σ) (settings : Settings) (cached : Option Nat) (c : Nat)
    (m : σ) : List Call :=
  (if cached = none then [.openClient settings.uri] else [])
    ++ [.ping c, .openDatabase c settings.database]
    ++ Event.calls (trace answer (Schema.apply settings.database) m)

theorem Worked.calls_planned (h : Worked answer settings cached s outcome work held m) :
    ∃ c m', Event.calls work <+: plannedCalls answer settings cached c m' := by
  cases h with
  | unopened hc ha => exact ⟨0, s, by simp [plannedCalls, hc, Event.calls]⟩
  | @unreachable t c m' m'' e hc ha =>
    refine ⟨c, s, ?_⟩
    cases hc <;> simp [plannedCalls, Event.calls]
  | @unnamed t c m' m₁ m₂ e hc hp ha =>
    refine ⟨c, s, ?_⟩
    cases hc <;> simp [plannedCalls, Event.calls, connected]
  | @applied t c m' m₁ m₂ hc hp hd =>
    refine ⟨c, m₂, ?_⟩
    cases hc <;> simp [plannedCalls, Event.calls, connected]

/-- None of them closes a client or calls upon another database. -/
theorem of_mem_plannedCalls {d : Call} (h : d ∈ plannedCalls answer settings cached c m) :
    d.kind ≠ .close ∧ ∀ database, d.database? = some database → database = settings.database := by
  simp only [plannedCalls, List.mem_append, List.mem_cons, List.not_mem_nil, or_false] at h
  rcases h with (h | rfl | rfl) | h
  · split at h
    · obtain rfl := List.mem_singleton.1 h
      exact ⟨nofun, nofun⟩
    · exact nomatch h
  · exact ⟨nofun, nofun⟩
  · exact ⟨nofun, fun database hd => (Option.some.inj hd).symm⟩
  · have hd := Schema.addressed_apply answer settings.database m d h
    refine ⟨fun hk => ?_, fun database hd' => Option.some.inj (hd'.symm.trans hd)⟩
    cases d with
    | close c => simp [Call.database?] at hd
    | _ => simp [Call.kind] at hk

/-- No call concerns the schema unless the server has answered before. -/
def Answered (t : List Event) : Prop :=
  (∀ c ∈ Event.calls t, c.concernsSchema = false)
    ∨ ∃ c earlier later, t = earlier ++ .call (.ping c) none :: later
      ∧ ∀ c ∈ Event.calls earlier, c.concernsSchema = false

theorem Answered.append {t' : List Event} (h : Answered t)
    (h' : ∀ c ∈ Event.calls t', c.concernsSchema = false) : Answered (t ++ t') := by
  rcases h with h | ⟨c, earlier, later, rfl, h⟩
  · refine .inl ?_
    rw [Event.calls_append]
    exact List.forall_mem_append.2 ⟨h, h'⟩
  · exact .inr ⟨c, earlier, later ++ t', by simp, h⟩

theorem Worked.answered (h : Worked answer settings cached s outcome work held m) :
    Answered work := by
  cases h with
  | unopened hc ha => exact .inl (by simp [Event.calls, Call.concernsSchema])
  | unreachable hc ha => exact .inl (by cases hc <;> simp [Event.calls, Call.concernsSchema])
  | unnamed hc hp ha =>
    exact .inl (by cases hc <;> simp [Event.calls, Call.concernsSchema, connected])
  | @applied t c m' m₁ m₂ hc hp hd =>
    refine .inr ⟨c, t, connected :: .call (.openDatabase c settings.database) none
      :: trace answer (Schema.apply settings.database) m₂, by simp, ?_⟩
    cases hc <;> simp [Event.calls, Call.concernsSchema]

/-- That the client has been closed is not told before it is. -/
theorem Worked.untold (h : Worked answer settings cached s outcome work held m) :
    (.info, "Disconnected") ∉ Event.records work := by
  cases h with
  | unopened hc ha => simp [Event.records]
  | unreachable hc ha => cases hc <;> simp [Event.records]
  | unnamed hc hp ha => cases hc <;> simp [Event.records, connected]
  | @applied t c m' m₁ m₂ hc hp hd =>
    have happly : (.info, "Disconnected")
        ∉ Event.records (trace answer (Schema.apply settings.database) m₂) := by
      intro hm
      rcases Schema.mem_infos_apply (Event.mem_infos_iff.2 hm) with h | ⟨deed, h⟩ | h
      · exact absurd h (by decide)
      · cases deed <;> exact Bool.false_ne_true h
      · exact Schema.not_aboutSchema (c := 'D') rfl (by decide) h
    cases hc <;> simpa [Event.records, connected] using happly

end Worked

/-! ### Disconnecting -/

/-- What closing comes to, with the client that there is, if there is one. -/
def onClose (answer : Handler σ) (m : σ) : Option Nat → Except Error Unit
  | none => .ok ()
  | some c => (answer (.close c) m).1

/-- What is seen of connecting, applying the schema and disconnecting, given what has been done
before the client is closed. -/
structure Conducted (answer : Handler σ) (settings : Settings) (i : Session) (s : σ)
    (outcome : Except Error Unit) (work : List Event) (held : Option Nat) (m : σ)
    (o : Except Error Unit) (t : List Event) (j : Session) : Prop where
  /-- The calls are made one after the other, -/
  worked : Worked answer settings i.client s outcome work held m
  /-- up to the first one that fails, -/
  cutOff : Event.CutOff outcome work
  /-- these in this order, -/
  planned : ∃ c m', Event.calls work <+: plannedCalls answer settings i.client c m'
  /-- and in the end the client is closed, if there is one. -/
  calls : Event.calls t = Event.calls work ++ held.toList.map .close
  /-- No other database is called upon, -/
  addressed : ∀ c ∈ Event.calls t, ∀ database, c.database? = some database →
    database = settings.database
  /-- and no call concerns the schema unless the server has answered before. -/
  answered : Answered t
  /-- The error is that of closing, or else the one before it. -/
  result : o = onClose answer m held >>= fun _ => outcome
  /-- No client is left, unless it could not be closed. -/
  client : j.client = match onClose answer m held with
    | .ok _ => none
    | .error _ => held
  /-- It is told if closing has not failed. -/
  disconnected : (.info, "Disconnected") ∈ Event.records t ↔ onClose answer m held = .ok ()

/-- What is done in the end adds the closing, and that it has been done. -/
theorem Worked.conducted {i j : Session} {s m : σ} {held : Option Nat}
    {o outcome : Except Error Unit} {work ending : List Event}
    (h : Worked answer settings i.client s outcome work held m)
    (hcalls : Event.calls ending = held.toList.map .close)
    (hresult : o = onClose answer m held >>= fun _ => outcome)
    (hclient : j.client = match onClose answer m held with
      | .ok _ => none
      | .error _ => held)
    (htold : (.info, "Disconnected") ∈ Event.records ending ↔ onClose answer m held = .ok ()) :
    Conducted answer settings i s outcome work held m o (work ++ ending) j where
  worked := h
  cutOff := h.cutOff
  planned := h.calls_planned
  calls := by rw [Event.calls_append, hcalls]
  addressed := by
    obtain ⟨c, m', hplan⟩ := h.calls_planned
    rw [Event.calls_append, hcalls]
    refine List.forall_mem_append.2 ⟨fun d hd => (of_mem_plannedCalls (hplan.subset hd)).2, ?_⟩
    cases held <;> simp [Call.database?]
  answered := by
    refine h.answered.append ?_
    rw [hcalls]
    cases held <;> simp [Call.concernsSchema]
  result := hresult
  client := hclient
  disconnected := by
    rw [Event.records_append, List.mem_append, ← htold]
    exact or_iff_right h.untold

/-- **Connecting, applying the schema and disconnecting.** Whatever the session remembers, whatever
answers the calls, and whichever of them fail. -/
theorem conducted_applySchema (answer : Handler σ) {i : Session} (hi : i.InForce settings) (s : σ) :
    let ran := (applySchema.runIn i).run answer s
    ∃ outcome work held m,
      Conducted answer settings i s outcome work held m ran.1.1 ran.2.1 ran.1.2 := by
  show Ends answer applySchema (i, s) fun o t q => ∃ outcome work held m,
    Conducted answer settings i s outcome work held m o t q.1
  rw [applySchema, ends_bind]
  refine (ends_settingsInForce_of_inForce (p := (i, s)) hi).2 ?_
  simp only [ends_bind, ends_attempt]
  refine (worked_connectAndApply (i := i.remember settings) rfl s).imp
    fun {outcome work q} hwork => ?_
  have hworked : Worked answer settings i.client s outcome work q.1.client q.2 := hwork.1
  refine (closing_closeClient answer q).imp fun {o t q'} hclose => ?_
  cases hclose with
  | absent hc =>
    rw [hc] at hworked
    simp only [ends_log, ends_require, List.nil_append, List.append_nil]
    refine ⟨outcome, work, none, q.2, hworked.conducted rfl rfl hc ?_⟩
    simp [Event.records, onClose]
  | closed hc ha =>
    rw [hc] at hworked
    simp only [ends_log, ends_require, List.nil_append, List.append_nil]
    have hclosing : onClose answer q.2 (some _) = .ok () := congrArg Prod.fst ha
    refine ⟨outcome, work, _, q.2, hworked.conducted rfl ?_ ?_ ?_⟩
    · rw [hclosing]; rfl
    · rw [hclosing]
    · simp [Event.records, hclosing]
  | kept hc ha =>
    rw [hc] at hworked
    have hclosing : onClose answer q.2 (some _) = .error _ := congrArg Prod.fst ha
    refine ⟨outcome, work, _, q.2, hworked.conducted rfl ?_ ?_ ?_⟩
    · rw [hclosing]; rfl
    · rw [hclosing]; exact hc
    · simp [Event.records, hclosing]

/-- A server that does not answer, and whose clients cannot be closed. -/
def deafServer : FaultyServer where
  server := { store := [], clients := 0 }
  faults := [
    { call := .ping, database := none, collection := none, name := none, skip := 0, times := none
      error := some (.reported "ServerSelectionTimeoutError" "mongodb:27017: timed out") },
    { call := .close, database := none, collection := none, name := none, skip := 0, times := none
      error := some (.reported "AutoReconnect" "connection closed") }]

/-- With such a server both the work and the closing fail. The second error is passed on, and the
client stays. -/
theorem conducted_deaf :
    let i := start [] none
    let settings : Settings :=
      { uri := "mongodb://mongodb:27017", database := "appdb", level := .info }
    let ran := (applySchema.runIn i).run FaultyServer.answer deafServer
    i.InForce settings
      ∧ (∃ outcome work held m, Conducted FaultyServer.answer settings i deafServer outcome work
          held m ran.1.1 ran.2.1 ran.1.2)
      ∧ ran.1.1 = .error (.reported "AutoReconnect" "connection closed")
      ∧ ran.1.2.client = some 1 := by
  have hi : (start [] none).InForce
      { uri := "mongodb://mongodb:27017", database := "appdb", level := .info } := .inr ⟨rfl, rfl⟩
  exact ⟨hi, conducted_applySchema FaultyServer.answer hi deafServer, rfl, rfl⟩

end Session

end Provisioner
