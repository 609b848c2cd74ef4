import Provisioner.Proofs.Session.BootstrapEnd

/-!
# What becomes of the client

A session has two caches, one for the settings and one for the client, and the second is filled with
the help of the first. Everything that a session does with its client comes down to two steps: it
asks for the client, which may open one, and it closes the client. Here it is said once what each of
the two can do. The cache is written only after the call has been granted, so a call that fails
leaves it as it was.

## Main definitions

* `Session.remember` — a session with settings that stay in force
* `Session.Opening`, `Closing` — the ways in which the two steps can end

## Main results

* `Session.inForce_or_unread` — settings are in force, or cannot be read
* `Session.opening_openedClient`, `closing_closeClient` — the steps end in these ways
-/

namespace Provisioner

namespace Session

open Activity

variable {σ : Type} {answer : Handler σ} {p : Session × σ} {settings : Settings}

/-! ### Settings -/

/-- A session with settings that stay in force. -/
def remember (i : Session) (settings : Settings) : Session := { i with settings := some settings }

theorem remember_of_some {i : Session} (h : i.settings = some settings) :
    i.remember settings = i := by
  rw [remember, ← h]

/-- Settings are in force, or else they cannot be read. -/
theorem inForce_or_unread (i : Session) :
    (∃ settings, i.InForce settings) ∨ i.settings = none ∧ ∃ e, i.readSettings = .error e := by
  cases hs : i.settings with
  | some settings => exact .inl ⟨settings, .inl hs⟩
  | none =>
    cases hr : i.readSettings with
    | ok settings => exact .inl ⟨settings, .inr ⟨hs, hr⟩⟩
    | error e => exact .inr ⟨rfl, e, rfl⟩

/-- At any time at most one setting of all is in force. -/
theorem InForce.unique {i : Session} {other : Settings} (h : i.InForce settings)
    (h' : i.InForce other) : settings = other := by
  rcases h with h | ⟨h, hr⟩ <;> rcases h' with h' | ⟨h', hr'⟩
  · exact Option.some.inj (h.symm.trans h')
  · exact nomatch h.symm.trans h'
  · exact nomatch h.symm.trans h'
  · exact Except.ok.inj (hr.symm.trans hr')

/-- Settings that are in force, and are not remembered, can be read. -/
theorem InForce.readable {i : Session} (h : i.InForce settings) (hs : i.settings = none) :
    i.readSettings = .ok settings := by
  rcases h with h | ⟨-, hr⟩
  · cases hs.symm.trans h
  · exact hr

theorem ends_settingsInForce_of_inForce (h : p.1.InForce settings)
    {Q : Except Error Settings → List Event → Session × σ → Prop} :
    Ends answer settingsInForce p Q ↔ Q (.ok settings) [] (p.1.remember settings, p.2) := by
  rcases h with h | ⟨h, hr⟩
  · rw [remember_of_some h]
    exact ends_settingsInForce h
  · exact ends_settingsInForce_of_read h hr

/-! ### Asking for the client -/

/-- How asking for the client can end. If there is one it is used; otherwise one is opened, if the
settings can be read, with their address. It is remembered if this has been granted. -/
inductive Opening (answer : Handler σ) (p : Session × σ) :
    Except Error Nat → List Event → Session × σ → Prop
  | cached {c : Nat} (hc : p.1.client = some c) : Opening answer p (.ok c) [] p
  | unread {e : Error} (hc : p.1.client = none) (hs : p.1.settings = none)
    (hr : p.1.readSettings = .error e) : Opening answer p (.error e) [] p
  | opened {settings : Settings} {c : Nat} {m : σ} (hc : p.1.client = none)
    (hi : p.1.InForce settings) (ha : answer (.openClient settings.uri) p.2 = (.ok c, m)) :
    Opening answer p (.ok c) [.call (.openClient settings.uri) none]
      ({ p.1.remember settings with client := some c }, m)
  | refused {settings : Settings} {e : Error} {m : σ} (hc : p.1.client = none)
    (hi : p.1.InForce settings) (ha : answer (.openClient settings.uri) p.2 = (.error e, m)) :
    Opening answer p (.error e) [.call (.openClient settings.uri) (some e)]
      (p.1.remember settings, m)

theorem opening_openedClient (answer : Handler σ) (p : Session × σ) :
    Ends answer openedClient p (Opening answer p) := by
  simp only [openedClient, ends_bind, ends_session, List.nil_append]
  split
  · exact .cached ‹_›
  · rename_i hc
    rcases inForce_or_unread p.1 with ⟨settings, hi⟩ | ⟨hs, e, hr⟩
    · simp only [ends_bind, ends_settingsInForce_of_inForce hi, List.nil_append]
      refine (ends_call _).2 ?_
      cases ha : answer (.openClient settings.uri) p.2 with
      | mk o m =>
        cases o with
        | error e => exact .refused hc hi ha
        | ok c => exact .opened hc hi ha
    · simp only [ends_bind, ends_settingsInForce_of_unread hs hr]
      exact .unread hc hs hr

/-- A client that is remembered is used. -/
theorem ends_openedClient_of_some {c : Nat} (hc : p.1.client = some c)
    {Q : Except Error Nat → List Event → Session × σ → Prop} :
    Ends answer openedClient p Q ↔ Q (.ok c) [] p := by
  simp only [openedClient, ends_bind, ends_session, List.nil_append, hc, ends_pure]

/-! ### Closing -/

/-- How closing can end. The client is forgotten if its closing has been granted. -/
inductive Closing (answer : Handler σ) (p : Session × σ) :
    Except Error Unit → List Event → Session × σ → Prop
  | absent (hc : p.1.client = none) : Closing answer p (.ok ()) [] p
  | closed {c : Nat} {m : σ} (hc : p.1.client = some c) (ha : answer (.close c) p.2 = (.ok (), m)) :
    Closing answer p (.ok ()) [.call (.close c) none] ({ p.1 with client := none }, m)
  | kept {c : Nat} {e : Error} {m : σ} (hc : p.1.client = some c)
    (ha : answer (.close c) p.2 = (.error e, m)) :
    Closing answer p (.error e) [.call (.close c) (some e)] (p.1, m)

theorem closing_closeClient (answer : Handler σ) (p : Session × σ) :
    Ends answer closeClient p (Closing answer p) := by
  simp only [closeClient, ends_bind, ends_session, List.nil_append]
  split
  · rename_i c hc
    refine ends_bind.2 ((ends_call _).2 ?_)
    cases ha : answer (.close c) p.2 with
    | mk o m =>
      cases o with
      | error e => exact .kept hc ha
      | ok u => exact .closed hc ha
  · exact .absent ‹_›

end Session

end Provisioner
