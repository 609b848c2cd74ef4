import Provisioner.Proofs.Session.ClientBooks

/-!
# Histories of a session

Whoever uses this library may call its functions in any order, go on after an error, change the
environment in between and have the settings read anew. What holds of the clients and the settings
of a session after each such history, over any server that numbers its clients and whichever calls
fail, is shown here from what a single operation does: the functions of the library are orderly, and
changes from outside do not touch the client.

## Main definitions

* `Session.Operation`, `operate` — the operations, and a history of them
* `Session.Managed` — what a single operation does
* `Session.Administered` — what holds after a history

## Main results

* `Session.Operation.managed` — what every operation does
* `Session.administered` — what holds after every history
-/

namespace Provisioner

namespace Session

open Activity
open Procedure (result final)

/-! ### Operations -/

/-- What may happen to a session: the functions of the library, the forgetting of the settings, and
changes of what the session sees. -/
inductive Operation
  | settings
  | client
  | ping
  | database (name : Option String)
  | close
  | apply
  | bootstrap
  | forget
  | setEnvironment (environment : Assoc String)
  | setFile (envFile : Option String)

/-- What an operation does to a session. -/
def Operation.activity : Operation → Activity Unit
  | .settings => do let _ ← settingsInForce
  | .client => do let _ ← openedClient
  | .ping => Session.ping
  | .database name => do let _ ← Session.database name
  | .close => closeClient
  | .apply => applySchema
  | .bootstrap => do let _ ← Session.bootstrap
  | .forget => update forgetSettings
  | .setEnvironment environment => update fun i => { i with environment }
  | .setFile envFile => update fun i => { i with envFile }

/-- Some operations, one after the other. Errors are left to whoever calls for them. -/
def operate : List Operation → Activity Unit
  | [] => pure ()
  | op :: ops => do
    let _ ← attempt op.activity
    operate ops

variable {α β σ : Type} {answer : Handler σ} {count : σ → Nat} {p q : Session × σ} {t : List Event}
  {settings : Settings}

/-- Changes from outside: no call is made, and the client and the server are as they were. -/
structure Outward (op : Operation) (p : Session × σ) (o : Except Error Unit) (t : List Event)
    (q : Session × σ) : Prop where
  silent : t = []
  client : q.1.client = p.1.client
  server : q.2 = p.2
  settings : op = .forget ∧ q.1.settings = none ∨ q.1.settings = p.1.settings

/-- An operation is orderly or a change from outside. -/
theorem Operation.orderly_or_outward (h : answer.Numbers count) (op : Operation) :
    IsOrderly answer count op.activity
      ∨ ∀ p, Ends answer op.activity p (Outward op p) := by
  cases op with
  | settings => exact .inl (isOrderly_settingsInForce.bind fun _ => isOrderly_pure _)
  | client => exact .inl ((isOrderly_openedClient h).bind fun _ => isOrderly_pure _)
  | ping => exact .inl (isOrderly_ping h)
  | database name => exact .inl ((isOrderly_database h name).bind fun _ => isOrderly_pure _)
  | close => exact .inl (isOrderly_closeClient h)
  | apply => exact .inl (isOrderly_applySchema h)
  | bootstrap => exact .inl ((isOrderly_bootstrap h).bind fun _ => isOrderly_pure _)
  | forget => exact .inr fun p => ⟨rfl, rfl, rfl, .inl ⟨rfl, rfl⟩⟩
  | setEnvironment environment => exact .inr fun p => ⟨rfl, rfl, rfl, .inr rfl⟩
  | setFile envFile => exact .inr fun p => ⟨rfl, rfl, rfl, .inr rfl⟩

/-! ### What is remembered of the settings -/

/-- Whether an operation needs the settings: because its work depends on them, or because there is a
client to be opened, or the name of a database to be found. -/
def Operation.NeedsSettings (i : Session) : Operation → Prop
  | .settings | .apply | .bootstrap => True
  | .client | .ping => i.client = none
  | .database name => i.client = none ∨ name.getD "" = ""
  | .close | .forget | .setEnvironment _ | .setFile _ => False

/-- After an activity, however it ends, these settings are remembered. -/
def Remembers (answer : Handler σ) (settings : Settings) (x : Activity α) (p : Session × σ) :
    Prop :=
  Ends answer x p fun _ _ q => q.1.settings = some settings

theorem IsOrderly.remembers {x : Activity α} (hx : IsOrderly answer count x)
    (hs : p.1.settings = some settings) : Remembers answer settings x p :=
  (hx p).imp fun ho => ho.remembered hs

/-- Orderly activities that come next do not matter. -/
theorem Remembers.bind {x : Activity α} {f : α → Activity β} (hx : Remembers answer settings x p)
    (hf : ∀ a, IsOrderly answer count (f a)) :
    Remembers answer settings (x >>= f : Activity β) p :=
  Ends.bind hx (fun hm => (hf _).remembers hm) id

theorem remembers_settingsInForce (hi : p.1.InForce settings) :
    Remembers answer settings settingsInForce p :=
  (ends_settingsInForce_of_inForce hi).2 rfl

/-- The settings are remembered even if the client cannot be opened. -/
theorem remembers_openedClient (hc : p.1.client = none) (hi : p.1.InForce settings) :
    Remembers answer settings openedClient p := by
  refine (opening_openedClient answer p).imp fun {o t q} hopening => ?_
  cases hopening with
  | cached hc' => cases hc.symm.trans hc'
  | unread _ hs hr => cases hr.symm.trans (hi.readable hs)
  | opened _ hi' _ => rw [hi.unique hi', remember]
  | refused _ hi' _ => rw [hi.unique hi', remember]

theorem remembers_database (h : answer.Numbers count) {name : Option String}
    (hn : p.1.client = none ∨ name.getD "" = "") (hi : p.1.InForce settings) :
    Remembers answer settings (database name) p := by
  cases hc : p.1.client with
  | none =>
    exact (remembers_openedClient hc hi).bind fun client => isOrderly_openNamed h client name
  | some client =>
    have hname : name.getD "" = "" := hn.resolve_left (hc ▸ Option.some_ne_none client)
    have hrest : Remembers answer settings (do
        let settings ← settingsInForce
        let _ ← call (.openDatabase client settings.database)
        return settings.database : Activity String) p :=
      (remembers_settingsInForce hi).bind fun settings => isOrderly_openDatabase h client _
    rw [Remembers, database, ends_bind, ends_openedClient_of_some hc]
    simp only [hname, bind_map_left]
    exact hrest

theorem remembers_bootstrap (h : answer.Numbers count) (hi : p.1.InForce settings) :
    Remembers answer settings bootstrap p := by
  rw [Remembers, bootstrap, ends_bind, ends_attempt]
  exact (ends_settingsInForce_of_inForce hi).2 ((isOrderly_bootstrapWith h settings).remembers rfl)

/-- An operation that needs the settings has them remembered. -/
theorem Operation.remembers (h : answer.Numbers count) (op : Operation)
    (hn : op.NeedsSettings p.1) (hi : p.1.InForce settings) :
    Remembers answer settings op.activity p := by
  have hnothing : IsOrderly answer count (pure () : Activity Unit) := isOrderly_pure ()
  cases op with
  | settings => exact (remembers_settingsInForce hi).bind fun _ => hnothing
  | client => exact (remembers_openedClient hn hi).bind fun _ => hnothing
  | ping =>
    exact (remembers_openedClient hn hi).bind fun client =>
      isOrderly_call h (c := .ping client) (fun _ => id) nofun
  | database name => exact (remembers_database h hn hi).bind fun _ => hnothing
  | apply =>
    exact (remembers_settingsInForce hi).bind fun settings => isOrderly_applyWith h settings
  | bootstrap => exact (remembers_bootstrap h hi).bind fun _ => hnothing
  | close | forget | setEnvironment | setFile => cases hn

/-- What every operation does: it keeps the books, settings that are in force are only forgotten on
purpose, they are remembered if they are needed, settings that cannot be read are not remembered,
and clients are opened with the address of the settings in force. -/
structure Managed (count : σ → Nat) (op : Operation) (p : Session × σ) (t : List Event)
    (q : Session × σ) : Prop where
  kept : Kept (books count p) t (books count q)
  settings : ∀ settings, p.1.settings = some settings → op ≠ .forget →
    q.1.settings = some settings
  remembered : op.NeedsSettings p.1 → ∀ settings, p.1.InForce settings →
    q.1.settings = some settings
  unread : ∀ e, p.1.settings = none → p.1.readSettings = .error e → q.1.settings = none
  addressed : ∀ uri error, .call (.openClient uri) error ∈ t →
    ∃ settings, p.1.InForce settings ∧ uri = settings.uri

theorem Orderly.managed {op : Operation} (h : Orderly count p t q)
    (hremembered : op.NeedsSettings p.1 → ∀ settings, p.1.InForce settings →
      q.1.settings = some settings) : Managed count op p t q where
  kept := h.kept
  settings settings hs _ := h.remembered hs
  remembered := hremembered
  unread e hs hr := by
    rcases h.settings with hq | ⟨other, hi, hq⟩
    · exact hq.trans hs
    · cases hr.symm.trans (hi.readable hs)
  addressed := h.addressed

theorem Outward.managed {op : Operation} {o : Except Error Unit} (h : Outward op p o t q)
    (hremembered : op.NeedsSettings p.1 → ∀ settings, p.1.InForce settings →
      q.1.settings = some settings) : Managed count op p t q where
  kept := by
    rw [h.silent, books, books, h.client, h.server]
    exact .nil _
  settings settings hs hop := by
    rcases h.settings with ⟨rfl, -⟩ | hq
    · exact absurd rfl hop
    · exact hq.trans hs
  remembered := hremembered
  unread e hs _ := by
    rcases h.settings with ⟨-, hq⟩ | hq
    · exact hq
    · exact hq.trans hs
  addressed uri error hm := by
    rw [h.silent] at hm
    cases hm

/-- One operation. -/
theorem Operation.managed (h : answer.Numbers count) (op : Operation) (p : Session × σ) :
    Ends answer op.activity p fun _ t q => Managed count op p t q := by
  have hremembered : Ends answer op.activity p fun _ _ q => op.NeedsSettings p.1 →
      ∀ settings, p.1.InForce settings → q.1.settings = some settings :=
    fun hn settings hi => op.remembers h hn hi
  rcases op.orderly_or_outward h with hop | hop
  · exact Orderly.managed (hop p) hremembered
  · exact Outward.managed (hop p) hremembered

/-! ### Histories -/

/-- Where a history leads. -/
def reached (answer : Handler σ) (ops : List Operation) (p : Session × σ) : Session × σ :=
  ((result answer ((operate ops).runIn p.1) p.2).2, final answer ((operate ops).runIn p.1) p.2)

theorem ends_reached (answer : Handler σ) (ops : List Operation) (p : Session × σ) :
    Ends answer (operate ops) p fun _ _ q => q = reached answer ops p := rfl

/-- The first operation of a history leads to where the others begin. -/
theorem ends_reached_cons (op : Operation) (p : Session × σ) :
    Ends answer op.activity p fun _ _ m =>
      ∀ ops, reached answer (op :: ops) p = reached answer ops m := by
  intro ops
  have h := ends_reached answer (op :: ops) p
  rw [operate, ends_bind, ends_attempt] at h
  exact h.symm

/-- What holds along a history. -/
structure Run (answer : Handler σ) (count : σ → Nat) (ops : List Operation) (p : Session × σ)
    (o : Except Error Unit) (t : List Event) (q : Session × σ) : Prop where
  ended : o = .ok ()
  kept : Kept (books count p) t (books count q)
  settings : ∀ settings, p.1.settings = some settings → .forget ∉ ops →
    q.1.settings = some settings
  addressed : ∀ uri error, .call (.openClient uri) error ∈ t →
    ∃ before op after settings, ops = before ++ op :: after
      ∧ (reached answer before p).1.InForce settings ∧ uri = settings.uri

/-- Operations in a row. -/
theorem ends_operate (h : answer.Numbers count) (ops : List Operation) (p : Session × σ) :
    Ends answer (operate ops) p (Run answer count ops p) := by
  induction ops generalizing p with
  | nil => exact ⟨rfl, .nil _, fun _ hs _ => hs, fun _ _ hm => nomatch hm⟩
  | cons op ops ih =>
    have hboth : Ends answer op.activity p fun _ t m => Managed count op p t m
        ∧ ∀ ops, reached answer (op :: ops) p = reached answer ops m :=
      ⟨op.managed h p, ends_reached_cons op p⟩
    rw [operate, ends_bind, ends_attempt]
    refine hboth.imp fun {o t m} hop => (ih m).imp fun {o' t' q} hrun => ?_
    obtain ⟨hop, hreached⟩ := hop
    refine ⟨hrun.ended, hop.kept.append hrun.kept, fun settings hs hforget => ?_,
      fun uri error hm => ?_⟩
    · rw [List.mem_cons, not_or] at hforget
      obtain ⟨hne, hforget⟩ := hforget
      exact hrun.settings settings (hop.settings settings hs (Ne.symm hne)) hforget
    · rcases List.mem_append.1 hm with hm | hm
      · obtain ⟨settings, hi, hu⟩ := hop.addressed uri error hm
        exact ⟨[], op, ops, settings, rfl, hi, hu⟩
      · obtain ⟨before, op', after, settings, rfl, hi, hu⟩ := hrun.addressed uri error hm
        exact ⟨op :: before, op', after, settings, rfl, hreached before ▸ hi, hu⟩

/-- Settings that have been read are remembered. -/
theorem reading_settingsInForce (p : Session × σ) :
    Ends answer settingsInForce p fun o _ q =>
      ∀ settings, o = .ok settings → p.1.InForce settings ∧ q.1.settings = some settings := by
  rcases inForce_or_unread p.1 with ⟨settings, hi⟩ | ⟨hs, e, hr⟩
  · refine (ends_settingsInForce_of_inForce hi).2 fun other ho => ?_
    obtain rfl := Except.ok.inj ho
    exact ⟨hi, rfl⟩
  · exact (ends_settingsInForce_of_unread hs hr).2 nofun

/-- What holds after a history of operations, begun in a session `i` and a state `s` of the server,
that has led to a session `j` and a state `m`. -/
structure Administered (answer : Handler σ) (count : σ → Nat) (ops : List Operation) (i : Session)
    (s : σ) (t : List Event) (j : Session) (m : σ) : Prop where
  /-- Clients are numbered as they are opened, -/
  opened : count m = count s + openings t
  /-- and each of them has been closed once, but for the one that is held. -/
  closed : ∀ c, i.client = some c ∨ count s < c ∧ c ≤ count m →
    closings c t = if j.client = some c then 0 else 1
  /-- So it has been at every moment. -/
  always : ∀ earlier later, t = earlier ++ later → ∃ held : Option Nat, ∀ c,
    i.client = some c ∨ count s < c ∧ c ≤ count s + openings earlier →
      closings c earlier = if held = some c then 0 else 1
  /-- The client that is held is one of them. -/
  known : ∀ c, j.client = some c → i.client = some c ∨ count s < c ∧ c ≤ count m
  /-- A client that has not been closed is still held, and no other one has been opened. -/
  stays : ∀ c, i.client = some c → closings c t = 0 → j.client = some c ∧ openings t = 0
  /-- Settings stay in force until they are forgotten, -/
  settings : ∀ settings, i.settings = some settings → .forget ∉ ops → j.settings = some settings
  /-- and each client has been opened with the address of those in force when this was done. -/
  addressed : ∀ uri error, .call (.openClient uri) error ∈ t →
    ∃ before op after settings, ops = before ++ op :: after
      ∧ (reached answer before (i, s)).1.InForce settings ∧ uri = settings.uri
  /-- Settings that are read next are in force, and are remembered. -/
  reading : Ends answer settingsInForce (j, m) fun o _ q =>
    ∀ settings, o = .ok settings → j.InForce settings ∧ q.1.settings = some settings
  /-- Whoever asks for the client next gets the one that is held, or has one opened, -/
  asking : Ends answer openedClient (j, m) (Opening answer (j, m))
  /-- and the next closing takes place if one is held. -/
  closing : Ends answer closeClient (j, m) (Closing answer (j, m))
  /-- Whatever comes next keeps to the settings that are in force now, and has them remembered if it
  needs them. -/
  next : ∀ op : Operation, Ends answer op.activity (j, m) fun _ t q =>
    Managed count op (j, m) t q

/-- **Histories.** Whatever is done with a session and happens to it, one thing after the other, and
whichever calls fail in the course of it. -/
theorem administered (h : answer.Numbers count) (ops : List Operation) (i : Session) (s : σ)
    (hi : ∀ c, i.client = some c → c ≤ count s) :
    let ran := ((operate ops).runIn i).run answer s
    ran.1.1 = .ok () ∧ Administered answer count ops i s ran.2.1 ran.1.2 ran.2.2 := by
  show Ends answer (operate ops) (i, s) fun o t q =>
    o = .ok () ∧ Administered answer count ops i s t q.1 q.2
  refine (ends_operate h ops (i, s)).imp fun {o t q} hrun => ⟨hrun.ended, ?_⟩
  have hcount : count q.2 = count s + openings t := hrun.kept.count_eq
  refine
    { opened := hcount
      closed := fun c hc => hrun.kept.closings_eq hi hc
      always := fun earlier later ht => ?_
      known := fun c hc => hrun.kept.known hc
      stays := fun c hc ht => ?_
      settings := hrun.settings
      addressed := hrun.addressed
      reading := reading_settingsInForce q
      asking := opening_openedClient answer q
      closing := closing_closeClient answer q
      next := fun op => op.managed h q }
  · obtain ⟨b, hearlier, -⟩ := Kept.split (ht ▸ hrun.kept)
    refine ⟨b.held, fun c hc => hearlier.closings_eq hi ?_⟩
    rw [hearlier.count_eq]
    exact hc
  · have hbooks := hrun.kept.eq_of_unclosed hc ht
    have hheld : q.1.client = i.client := congrArg Books.held hbooks
    have hnone : count q.2 = count s := congrArg Books.count hbooks
    exact ⟨hheld.trans hc, by omega⟩

/-- Two clients, the second of which cannot be closed: the first one has been closed once, and the
second one is still held, although the settings have been forgotten meanwhile. -/
theorem administered_clinging :
    let ops : List Operation := [.ping, .close, .ping, .close, .forget, .client]
    let ran := ((operate ops).runIn (start [] none)).run FaultyServer.answer clingingServer
    Handler.Numbers FaultyServer.answer (fun s => s.server.clients)
      ∧ (∀ c, (start [] none).client = some c → c ≤ clingingServer.server.clients)
      ∧ Administered FaultyServer.answer (fun s => s.server.clients) ops (start [] none)
          clingingServer ran.2.1 ran.1.2 ran.2.2
      ∧ ran.1.2.client = some 2 ∧ ran.2.2.server.clients = 2 ∧ closings 1 ran.2.1 = 1
      ∧ closings 2 ran.2.1 = 0 :=
  ⟨FaultyServer.numbers, nofun,
    (administered FaultyServer.numbers _ (start [] none) clingingServer nofun).2,
    rfl, rfl, rfl, rfl⟩

end Session

end Provisioner
