import Provisioner.Proofs.Session.HeldClient

/-!
# The clients of a session

A session may open many clients in the course of time, but it holds at most one of them at any
moment, and it lets go of a client only by closing it. This is kept up by a discipline that spans
the two caches of a session and every operation on them, and any call may fail in the middle of any
operation: a client is opened only if none is held, it is held as soon as it is open, and it is held
until its closing has been granted.

Clients are told apart by numbers, in the order in which they are opened. What is held is then a
matter of keeping books: for every client, to be held before or to be opened comes to being held
after or to be closed. This balance holds for each event, and so for every trace.

## Main definitions

* `Handler.Numbers` — clients are numbered as they are opened
* `Session.Books`, `Entry`, `Kept` — the books, and how events are entered
* `Session.Orderly` — what an operation does to a session

## Main results

* `Session.Kept.balance` — the balance of a client
-/

namespace Provisioner

/-- Clients that are opened are numbered by their count, and no other call changes it. -/
structure Handler.Numbers {σ : Type} (answer : Handler σ) (count : σ → Nat) : Prop where
  opened : ∀ {uri : String} {s m : σ} {c : Nat}, answer (.openClient uri) s = (.ok c, m) →
    c = count s + 1 ∧ count m = count s + 1
  refused : ∀ {uri : String} {s m : σ} {e : Error}, answer (.openClient uri) s = (.error e, m) →
    count m = count s
  others : ∀ (c : Call) (s : σ), c.kind ≠ .openClient → count (answer c s).2 = count s

theorem Server.clients_settle (server : Server) (outcome : Except Error Store) :
    (settle server outcome).2.clients = server.clients := by
  cases outcome <;> rfl

/-- Other calls than those for a client do not count. -/
theorem Server.clients_answer (c : Call) (server : Server) (h : c.kind ≠ .openClient) :
    (answer c server).2.clients = server.clients := by
  cases c with
  | openClient uri => exact absurd rfl h
  | createCollection | expireIndex => exact clients_settle _ _
  | _ => rfl

/-- Servers number their clients, whatever their faults. -/
theorem FaultyServer.numbers : Handler.Numbers answer fun s => s.server.clients where
  opened {uri s m c} h := by
    simp only [answer, Call.effectless?] at h
    split at h
    · cases h
      exact ⟨rfl, rfl⟩
    · cases h
    · cases h
      exact ⟨rfl, rfl⟩
  refused {uri s m e} h := by
    simp only [answer, Call.effectless?] at h
    split at h
    · cases h
    · cases h
      rfl
    · cases h
  others c s h := by
    simp only [answer]
    split
    · exact Server.clients_answer c s.server h
    · rfl
    · split
      · rfl
      · exact Server.clients_answer c s.server h

namespace Session

/-! ### Keeping books -/

/-- The client that is held, and the number of clients that have been opened. -/
structure Books where
  held : Option Nat
  count : Nat

/-- An event that is about a client being opened or closed. -/
def OfClient : Event → Prop
  | .call (.openClient _) _ => True
  | .call (.close _) _ => True
  | _ => False

/-- How an event is entered in the books. Only who holds no client opens one, and a client is closed
by who holds it. -/
inductive Entry : Books → Event → Books → Prop
  | opened (uri : String) (n : Nat) :
    Entry ⟨none, n⟩ (.call (.openClient uri) none) ⟨some (n + 1), n + 1⟩
  | refused (uri : String) (e : Error) (n : Nat) :
    Entry ⟨none, n⟩ (.call (.openClient uri) (some e)) ⟨none, n⟩
  | closed (c n : Nat) : Entry ⟨some c, n⟩ (.call (.close c) none) ⟨none, n⟩
  | kept (c n : Nat) (e : Error) : Entry ⟨some c, n⟩ (.call (.close c) (some e)) ⟨some c, n⟩
  | other (b : Books) {e : Event} (h : ¬ OfClient e) : Entry b e b

/-- Books that are kept along a trace. -/
inductive Kept : Books → List Event → Books → Prop
  | nil (b : Books) : Kept b [] b
  | cons {b m b' : Books} {e : Event} {t : List Event} (entry : Entry b e m) (rest : Kept m t b') :
    Kept b (e :: t) b'

theorem Kept.single {b b' : Books} {e : Event} (h : Entry b e b') : Kept b [e] b' :=
  .cons h (.nil b')

theorem Kept.append {b m b' : Books} {t t' : List Event} (h : Kept b t m) (h' : Kept m t' b') :
    Kept b (t ++ t') b' := by
  induction h with
  | nil b => exact h'
  | cons entry rest ih => exact .cons entry (ih h')

/-- Events that are about no client change nothing in the books. -/
theorem kept_of_others {t : List Event} (h : ∀ e ∈ t, ¬ OfClient e) (b : Books) : Kept b t b := by
  induction t with
  | nil => exact .nil b
  | cons e t ih =>
    obtain ⟨he, ht⟩ := List.forall_mem_cons.1 h
    exact .cons (.other b he) (ih ht)

/-- At every moment the books are kept. -/
theorem Kept.split {b b' : Books} {t t' : List Event} (h : Kept b (t ++ t') b') :
    ∃ m, Kept b t m ∧ Kept m t' b' := by
  induction t generalizing b with
  | nil => exact ⟨b, .nil b, h⟩
  | cons e t ih =>
    cases h with
    | cons entry rest =>
      obtain ⟨m, hm, hrest⟩ := ih rest
      exact ⟨m, .cons entry hm, hrest⟩

/-! ### The balance of a client -/

/-- A client has been opened. -/
def opens : Event → Bool
  | .call (.openClient _) none => true
  | _ => false

/-- This client has been closed. -/
def closes (c : Nat) : Event → Bool
  | .call (.close c') none => c' = c
  | _ => false

/-- How many clients have been opened. -/
def openings (t : List Event) : Nat := t.countP opens

/-- How often a client has been closed. -/
def closings (c : Nat) (t : List Event) : Nat := t.countP (closes c)

theorem closings_cons (c : Nat) (e : Event) (t : List Event) :
    closings c (e :: t) = closings c t + if closes c e then 1 else 0 := List.countP_cons

theorem opens_of_other {e : Event} (h : ¬ OfClient e) : opens e = false := by
  match e with
  | .notice n => rfl
  | .call c error => cases c <;> first | rfl | exact absurd trivial h

theorem closes_of_other {e : Event} (h : ¬ OfClient e) (c : Nat) : closes c e = false := by
  match e with
  | .notice n => rfl
  | .call c' error => cases c' <;> first | rfl | exact absurd trivial h

/-- Whether a client is held, as a number. -/
def Books.holds (b : Books) (c : Nat) : Nat := if b.held = some c then 1 else 0

theorem Entry.count_eq {b b' : Books} {e : Event} (h : Entry b e b') :
    b'.count = b.count + if opens e then 1 else 0 := by
  cases h with
  | other b he => simp [opens_of_other he]
  | _ => simp [opens]

/-- One event: to be held or to be opened comes to being held or to be closed. -/
theorem Entry.balance {b b' : Books} {e : Event} (h : Entry b e b') (c : Nat) :
    b.holds c + (if b.count < c ∧ c ≤ b'.count then 1 else 0)
      = b'.holds c + if closes c e then 1 else 0 := by
  cases h with
  | opened uri n =>
    have hc : n < c ∧ c ≤ n + 1 ↔ n + 1 = c := by omega
    simp [Books.holds, closes, hc]
  | refused uri e n => simp [Books.holds, closes]
  | closed c' n => simp [Books.holds, closes]
  | kept c' n e => simp [Books.holds, closes]
  | other b he => simp [closes_of_other he]

/-- The clients are counted as they are opened. -/
theorem Kept.count_eq {b b' : Books} {t : List Event} (h : Kept b t b') :
    b'.count = b.count + openings t := by
  induction h with
  | nil b => rfl
  | cons entry rest ih =>
    rw [ih, entry.count_eq, openings, openings, List.countP_cons]
    omega

/-- For every client, to be held or to be opened comes to being held or to be closed. -/
theorem Kept.balance {b b' : Books} {t : List Event} (h : Kept b t b') (c : Nat) :
    b.holds c + (if b.count < c ∧ c ≤ b'.count then 1 else 0) = b'.holds c + closings c t := by
  induction h with
  | nil b =>
    have hnone : ¬ (b.count < c ∧ c ≤ b.count) := by omega
    simp [closings, hnone]
  | @cons b m b' e t entry rest ih =>
    have hentry := entry.balance c
    have hfirst := entry.count_eq
    have hrest := rest.count_eq
    have hle : b.count ≤ m.count := by omega
    have hopened : (if b.count < c ∧ c ≤ b'.count then 1 else 0)
        = (if b.count < c ∧ c ≤ m.count then 1 else 0)
          + if m.count < c ∧ c ≤ b'.count then 1 else 0 := by
      split_ifs <;> omega
    rw [closings_cons]
    omega

/-- A client that has been held or opened has been closed once, unless it is still held. -/
theorem Kept.closings_eq {b b' : Books} {t : List Event} (h : Kept b t b')
    (hb : ∀ c, b.held = some c → c ≤ b.count) {c : Nat}
    (hc : b.held = some c ∨ b.count < c ∧ c ≤ b'.count) :
    closings c t = if b'.held = some c then 0 else 1 := by
  have hbalance := h.balance c
  have hopened : b.holds c + (if b.count < c ∧ c ≤ b'.count then 1 else 0) = 1 := by
    rcases hc with hc | hc
    · have hold := hb c hc
      have hnew : ¬ (b.count < c ∧ c ≤ b'.count) := by omega
      simp [Books.holds, hc, hnew]
    · have hold : b.held ≠ some c := fun hheld => absurd (hb c hheld) (by omega)
      simp [Books.holds, hc, hold]
  rw [hopened, Books.holds] at hbalance
  split_ifs at hbalance ⊢ <;> omega

/-- Who holds a client that is never closed goes on to hold it, and opens no other one. -/
theorem Kept.eq_of_unclosed {b b' : Books} {t : List Event} (h : Kept b t b') {c : Nat}
    (hc : b.held = some c) (ht : closings c t = 0) : b' = b := by
  induction h with
  | nil b => rfl
  | cons entry rest ih =>
    rw [closings_cons] at ht
    cases entry with
    | opened uri n => exact nomatch hc
    | refused uri e n => exact nomatch hc
    | closed c' n =>
      obtain rfl := Option.some.inj hc
      simp [closes] at ht
    | kept c' n e => exact ih hc (Nat.eq_zero_of_add_eq_zero_right ht)
    | other b he => exact ih hc (Nat.eq_zero_of_add_eq_zero_right ht)

/-- A client is held only if it was held before or has been opened. -/
theorem Kept.known {b b' : Books} {t : List Event} (h : Kept b t b') {c : Nat}
    (hc : b'.held = some c) : b.held = some c ∨ b.count < c ∧ c ≤ b'.count := by
  have hbalance := h.balance c
  by_contra hnot
  obtain ⟨hheld, hnew⟩ := not_or.1 hnot
  simp only [Books.holds, hc, hheld, hnew, if_true, if_false] at hbalance
  omega

/-! ### Orderly operations -/

open Activity
open Procedure (result trace final)

variable {α β σ : Type} {answer : Handler σ} {count : σ → Nat} {p m q : Session × σ}
  {t t' : List Event}

/-- The books of a session and a server. -/
def books (count : σ → Nat) (p : Session × σ) : Books := ⟨p.1.client, count p.2⟩

/-- What an orderly operation does: it keeps the books, it leaves the environment alone, it does not
change settings that are in force, and clients are opened with the address that these have. -/
structure Orderly (count : σ → Nat) (p : Session × σ) (t : List Event) (q : Session × σ) :
    Prop where
  kept : Kept (books count p) t (books count q)
  environment : q.1.environment = p.1.environment
  envFile : q.1.envFile = p.1.envFile
  settings : q.1.settings = p.1.settings
    ∨ ∃ settings, p.1.InForce settings ∧ q.1.settings = some settings
  addressed : ∀ uri error, .call (.openClient uri) error ∈ t →
    ∃ settings, p.1.InForce settings ∧ uri = settings.uri

/-- Settings in force afterwards have been in force before. -/
theorem Orderly.inForce (h : Orderly count p t q) {settings : Settings}
    (hq : q.1.InForce settings) : p.1.InForce settings := by
  have hread : q.1.readSettings = p.1.readSettings := by
    rw [readSettings, readSettings, h.environment, h.envFile]
  rcases h.settings with hs | ⟨other, hp, hs⟩
  · rwa [InForce, hs, hread] at hq
  · rcases hq with hq | ⟨hq, -⟩
    · exact Option.some.inj (hs.symm.trans hq) ▸ hp
    · cases hs.symm.trans hq

/-- Settings that are remembered stay so. -/
theorem Orderly.remembered (h : Orderly count p t q) {settings : Settings}
    (hs : p.1.settings = some settings) : q.1.settings = some settings := by
  rcases h.settings with hq | ⟨other, hi, hq⟩
  · exact hq.trans hs
  · rw [hq, hi.unique (.inl hs)]

theorem Orderly.trans (h : Orderly count p t m) (h' : Orderly count m t' q) :
    Orderly count p (t ++ t') q where
  kept := h.kept.append h'.kept
  environment := h'.environment.trans h.environment
  envFile := h'.envFile.trans h.envFile
  settings := by
    rcases h'.settings with hs | ⟨settings, hi, hs⟩
    · rw [hs]
      exact h.settings
    · exact .inr ⟨settings, h.inForce hi, hs⟩
  addressed uri error hm := by
    rcases List.mem_append.1 hm with hm | hm
    · exact h.addressed uri error hm
    · obtain ⟨settings, hi, hu⟩ := h'.addressed uri error hm
      exact ⟨settings, h.inForce hi, hu⟩

/-- What is not about the client, nor about the settings, is orderly. -/
theorem orderly_of_others (ht : ∀ e ∈ t, ¬ OfClient e) (hc : q.1.client = p.1.client)
    (hn : count q.2 = count p.2) (he : q.1.environment = p.1.environment)
    (hf : q.1.envFile = p.1.envFile) (hs : q.1.settings = p.1.settings) : Orderly count p t q where
  kept := by
    have hbooks : books count q = books count p := by rw [books, books, hc, hn]
    exact hbooks ▸ kept_of_others ht _
  environment := he
  envFile := hf
  settings := .inl hs
  addressed uri error hm := absurd trivial (ht _ hm)

/-- Where nothing happens everything is orderly. -/
theorem Orderly.refl (p : Session × σ) : Orderly count p [] p :=
  orderly_of_others (List.forall_mem_nil _) rfl rfl rfl rfl rfl

/-- An activity that is orderly, wherever it begins and however it ends. -/
def IsOrderly (answer : Handler σ) (count : σ → Nat) (x : Activity α) : Prop :=
  ∀ p, Ends answer x p fun _ t q => Orderly count p t q

theorem IsOrderly.bind {x : Activity α} {f : α → Activity β} (hx : IsOrderly answer count x)
    (hf : ∀ a, IsOrderly answer count (f a)) : IsOrderly answer count (x >>= f : Activity β) :=
  fun p => Ends.bind (hx p) (fun {a _ m} hm => (hf a m).imp hm.trans) id

theorem isOrderly_pure (a : α) : IsOrderly answer count (pure a : Activity α) := fun p =>
  (ends_pure a).2 (.refl p)

theorem isOrderly_require (e : Except Error α) : IsOrderly answer count (require e) := fun p =>
  (ends_require e).2 (.refl p)

theorem isOrderly_log (level : Level) (message : String) :
    IsOrderly answer count (log level message) := fun p =>
  (ends_log level message).2 (orderly_of_others (by simp [OfClient]) rfl rfl rfl rfl rfl)

theorem isOrderly_attempt {x : Activity α} (h : IsOrderly answer count x) :
    IsOrderly answer count (attempt x) := fun p => (ends_attempt x).2 (h p)

theorem isOrderly_setThreshold (n : Nat) : IsOrderly answer count (update (setThreshold n)) :=
  fun _ => (ends_update _).2 (orderly_of_others (List.forall_mem_nil _) rfl rfl rfl rfl rfl)

theorem isOrderly_settingsInForce : IsOrderly answer count settingsInForce := by
  intro p
  rcases inForce_or_unread p.1 with ⟨settings, hi⟩ | ⟨hs, e, hr⟩
  · exact (ends_settingsInForce_of_inForce hi).2
      ⟨.nil _, rfl, rfl, .inr ⟨settings, hi, rfl⟩, nofun⟩
  · exact (ends_settingsInForce_of_unread hs hr).2 (.refl p)

section Numbers

variable (h : answer.Numbers count)

include h

/-- Asking for the client. -/
theorem isOrderly_openedClient : IsOrderly answer count openedClient := by
  intro p
  refine (opening_openedClient answer p).imp fun {o t q} hopening => ?_
  -- Whether or not it is granted, the call has the address of the settings in force.
  have haddress : ∀ {settings : Settings} {error : Option Error}, p.1.InForce settings →
      ∀ uri error', .call (.openClient uri) error' ∈ [Event.call (.openClient settings.uri) error] →
        ∃ settings, p.1.InForce settings ∧ uri = settings.uri := by
    intro settings error hi uri error' hm
    cases List.mem_singleton.1 hm
    exact ⟨settings, hi, rfl⟩
  cases hopening with
  | cached hc => exact .refl p
  | unread hc hs hr => exact .refl p
  | @opened settings c m hc hi ha =>
    obtain ⟨rfl, hm⟩ := h.opened ha
    refine ⟨.single ?_, rfl, rfl, .inr ⟨settings, hi, rfl⟩, haddress hi⟩
    rw [books, books, hc, hm]
    exact .opened settings.uri _
  | @refused settings e m hc hi ha =>
    have hm := h.refused ha
    refine ⟨.single ?_, rfl, rfl, .inr ⟨settings, hi, rfl⟩, haddress hi⟩
    rw [books, books, hm, remember, hc]
    exact .refused settings.uri e _

/-- Closing the client. -/
theorem isOrderly_closeClient : IsOrderly answer count closeClient := by
  intro p
  have hcount : ∀ {c : Nat} {o : Except Error Unit} {m : σ}, answer (.close c) p.2 = (o, m) →
      count m = count p.2 := by
    intro c o m ha
    rw [← h.others (.close c) p.2 nofun, ha]
  refine (closing_closeClient answer p).imp fun {o t q} hclosing => ?_
  cases hclosing with
  | absent hc => exact .refl p
  | @closed c m hc ha =>
    refine ⟨.single ?_, rfl, rfl, .inl rfl, by simp⟩
    rw [books, books, hc, hcount ha]
    exact .closed c _
  | @kept c e m hc ha =>
    refine ⟨.single ?_, rfl, rfl, .inl rfl, by simp⟩
    rw [books, books, hc, hcount ha]
    exact .kept c _ e

/-- Another call. -/
theorem isOrderly_call {c : Call} (hc : ∀ error, ¬ OfClient (.call c error))
    (hk : c.kind ≠ .openClient) : IsOrderly answer count (call c) := fun p =>
  (ends_call c).2 (orderly_of_others (fun _ he => List.mem_singleton.1 he ▸ hc _) rfl
    (h.others c p.2 hk) rfl rfl rfl)

theorem isOrderly_ping : IsOrderly answer count ping :=
  (isOrderly_openedClient h).bind fun client =>
    isOrderly_call h (c := .ping client) (fun _ => id) nofun

/-- Opening a database with a client in hand. -/
theorem isOrderly_openDatabase (client : Nat) (name : String) :
    IsOrderly answer count (do
      let _ ← call (.openDatabase client name)
      return name : Activity String) :=
  (isOrderly_call h (c := .openDatabase client name) (fun _ => id) nofun).bind fun _ =>
    isOrderly_pure name

/-- The name may have to be taken from the settings before. -/
theorem isOrderly_openNamed (client : Nat) (name : Option String) :
    IsOrderly answer count (do
      let name ← match name.getD "" with
        | "" => Settings.database <$> settingsInForce
        | given => pure given
      let _ ← call (.openDatabase client name)
      return name : Activity String) := by
  split
  · rw [bind_map_left]
    exact isOrderly_settingsInForce.bind fun settings => isOrderly_openDatabase h client _
  · rw [pure_bind]
    exact isOrderly_openDatabase h client _

theorem isOrderly_database (name : Option String) : IsOrderly answer count (database name) :=
  (isOrderly_openedClient h).bind fun client => isOrderly_openNamed h client name

/-- Applying the schema has nothing to do with clients. -/
theorem isOrderly_perform_apply (target : String) :
    IsOrderly answer count (perform (Schema.apply target)) := by
  have hkind : ∀ {c : Call}, c.database? = some target → c.kind ≠ .openClient := by
    intro c hc hk
    cases c <;> simp [Call.kind, Call.database?] at hk hc
  have hother : ∀ {c : Call} error, c.database? = some target → ¬ OfClient (.call c error) := by
    intro c error hc ho
    cases c with
    | openClient | close => simp [Call.database?] at hc
    | _ => exact ho
  have hcounts : Schema.Stepwise target fun _ x => ∀ s, count (final answer x s) = count s :=
    { pure := fun _ _ => rfl
      bind := fun hx hf s =>
        Attempt.final_bind_rel (R := fun a b => count b = count a) (fun hab hbc => hbc.trans hab)
          (hx s) fun a _ => hf a _
      read := fun _ _ => rfl
      record := fun _ _ _ _ => rfl
      call := fun c hc s => h.others c s (hkind hc) }
  have hevents : Schema.Stepwise target fun _ x =>
      Schema.Leaves answer (fun e => ¬ OfClient e) x :=
    Schema.stepwise_leaves (fun _ _ _ => id) fun c error hc => hother error hc
  have hcount := hcounts.apply (fun _ _ _ => rfl) (fun _ _ => rfl) (fun _ _ => rfl)
  have hevent := hevents.apply (fun _ _ => Schema.leaves_log id)
    (fun _ _ _ he => List.mem_singleton.1 he ▸ id) (fun _ => Schema.leaves_require _)
  exact fun p => (ends_perform _).2
    (orderly_of_others (hevent p.2) rfl (hcount p.2) rfl rfl rfl)

/-- Connecting, applying the schema and disconnecting, with settings in hand. -/
theorem isOrderly_applyWith (settings : Settings) : IsOrderly answer count (do
    let outcome ← attempt (connectAndApply settings.database)
    closeClient
    log .info "Disconnected"
    require outcome : Activity Unit) := by
  have hwork : IsOrderly answer count (connectAndApply settings.database) :=
    (isOrderly_ping h).bind fun _ => (isOrderly_log _ _).bind fun _ =>
      (isOrderly_database h _).bind fun opened => isOrderly_perform_apply h opened
  exact (isOrderly_attempt hwork).bind fun outcome => (isOrderly_closeClient h).bind fun _ =>
    (isOrderly_log _ _).bind fun _ => isOrderly_require outcome

theorem isOrderly_applySchema : IsOrderly answer count applySchema :=
  isOrderly_settingsInForce.bind fun settings => isOrderly_applyWith h settings

theorem isOrderly_bootstrapWith (settings : Settings) :
    IsOrderly answer count (bootstrapWith settings) := by
  have hlogging : IsOrderly answer count (configureLogging settings.level.name) :=
    (isOrderly_require _).bind fun n => isOrderly_setThreshold n
  have hannounce : IsOrderly answer count (announce settings) :=
    (isOrderly_log _ _).bind fun _ => (isOrderly_log _ _).bind fun _ =>
      (isOrderly_log _ _).bind fun _ => isOrderly_log _ _
  refine hlogging.bind fun _ => hannounce.bind fun _ =>
    (isOrderly_attempt (isOrderly_applySchema h)).bind fun outcome => ?_
  cases outcome with
  | ok u => exact isOrderly_pure _
  | error e =>
    dsimp only
    split
    · exact isOrderly_require _
    · exact (isOrderly_log _ _).bind fun _ => isOrderly_pure _

theorem isOrderly_bootstrap : IsOrderly answer count bootstrap := by
  refine (isOrderly_attempt isOrderly_settingsInForce).bind fun outcome => ?_
  cases outcome with
  | ok settings => exact isOrderly_bootstrapWith h settings
  | error e => exact (isOrderly_log _ _).bind fun _ => isOrderly_pure _

end Numbers

end Session

end Provisioner
