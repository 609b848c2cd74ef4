import Provisioner.Proofs.Schema.SteadyRun
import Provisioner.Proofs.Schema.SettledSchema
import Provisioner.Proofs.Schema.InterruptedRun

/-!
# Applying the schema after interruptions

Where applying the schema succeeds, it may as well be interrupted at any of its calls, any number
of times: taking it up again succeeds, and the contents are in the end what they would have been
without the interruptions.

The reason is that a step that is interrupted has done nothing so far or everything, as far as the
contents are concerned, and that what has been done before it is settled and remains so. When the
work is taken up again, the settled steps therefore change nothing, and from then on it goes as it
would have gone. Only that the database has come to be known may be a trace of the interruption, and
nobody who asks about it can tell the difference.

## Main definitions

* `Attempt.Interrupted` — the states in which an attempt may be over if some of its calls fail
* `Schema.Leads` — an attempt succeeds and ends in contents that look like given ones
* `Schema.attempted` — the state after attempts to apply the schema that may have been interrupted

## Main results

* `Schema.interrupted_ensureIndex`, `interrupted_ensureCollection` — a step has done nothing or
  everything when it is interrupted
* `Schema.leads_ensureIndexes_of_interrupted`, `leads_createCollection_of_interrupted` — taking up
  the declarations of a collection, and a collection
* `Schema.resumed_apply` — taking up the schema after any number of interruptions
-/

namespace Provisioner

open Store

/-! ### Interruptions -/

namespace Attempt

open Procedure

variable {α β σ : Type} {answer : Handler σ} {a b : σ}

/-- An attempt may be over in a state, if some of its calls fail. -/
def Interrupted (answer : Handler σ) (x : Attempt α) (a b : σ) : Prop :=
  ∃ script, b = (final answer.scripted x (a, script)).1

/-- Of two attempts in a row the first one is interrupted, or the second one after a success of the
first. -/
theorem Interrupted.bind {x : Attempt α} {f : α → Attempt β} (hx : Yields x)
    (h : Interrupted answer (x >>= f : Attempt β) a b) :
    Interrupted answer x a b
      ∨ ∃ v, result answer x a = .ok v ∧ Interrupted answer (f v) (final answer x a) b := by
  obtain ⟨script, rfl⟩ := h
  cases hr : result answer.scripted x (a, script) with
  | ok v =>
    obtain ⟨hok, hfinal⟩ := hx.scripted_eq_ok hr
    rw [final_bind_of_ok hr]
    refine .inr ⟨v, hok, (final answer.scripted x (a, script)).2, ?_⟩
    rw [← hfinal]
  | error e =>
    rw [final_bind_of_error hr]
    exact .inl ⟨script, rfl⟩

theorem Interrupted.call {c : Call} (h : Interrupted answer (call c) a b) :
    b = a ∨ b = (answer c a).2 := by
  obtain ⟨script, rfl⟩ := h
  rw [final_call]
  rcases scripted_eq answer c a script with ⟨e, rest, he⟩ | ⟨rest, he⟩
  · exact .inl (by rw [he])
  · exact .inr (by rw [he])

/-- An attempt that leaves every state as it is cannot be interrupted in another one. -/
theorem Interrupted.eq {x : Attempt α} (hx : ∀ s, final answer.scripted x s = s)
    (h : Interrupted answer x a b) : b = a := by
  obtain ⟨script, rfl⟩ := h
  rw [hx]

end Attempt

/-- A handler under which some calls fail is still careful. -/
theorem Handler.Careful.scripted {σ : Type} {answer : Handler σ} {store : σ → Store}
    (h : answer.Careful store) : answer.scripted.Careful fun s => store s.1 where
  distinct c s hs := by
    rcases Procedure.scripted_eq answer c s.1 s.2 with ⟨e, rest, he⟩ | ⟨rest, he⟩
    · rwa [he]
    · rw [he]
      exact h.distinct c s.1 hs
  allowed c s := by
    rcases Procedure.scripted_eq answer c s.1 s.2 with ⟨e, rest, he⟩ | ⟨rest, he⟩
    · rw [he]
      exact c.allows_error _ e
    · rw [he]
      exact h.allowed c s.1

namespace Schema

open Attempt Procedure

variable {α σ : Type} {answer : Handler σ} {store : σ → Store} {Asked : Definition → Prop}
  {target collection : String} {d : Definition} {ds done : List Definition} {keys : Value}
  {a b c : σ}

theorem interrupted_logDefinition {message : String} {o : Outcome}
    (h : Interrupted answer (logDefinition message collection d >>= fun _ => pure o) a b) :
    b = a :=
  h.eq (final_logDefinition_bind message collection d o)

/-- Acting on a decision is one call or none. -/
theorem interrupted_enact {decision : Decision}
    (h : Interrupted answer (enact target collection d keys decision) a b) :
    b = a ∨ b = acted answer target collection d keys a decision := by
  have hyields : Stepwise target fun _ x => Yields x := stepwise_yields
  cases decision with
  | keep => exact .inl (interrupted_logDefinition h)
  | attach index seconds =>
    rcases h.bind (hyields.call (.expireIndex target collection index seconds) rfl) with
      h | ⟨u, -, h⟩
    · exact h.call
    · exact .inr (interrupted_logDefinition h)
  | create conflict =>
    rcases h.bind (hyields.warnConflict collection conflict) with h | ⟨u, -, h⟩
    · exact .inl (h.eq fun s => final_warnConflict collection conflict s)
    rw [final_warnConflict] at h
    rcases h.bind (hyields.call
      (.createIndex target collection keys (Definition.options d)) rfl) with h | ⟨u, -, h⟩
    · exact h.call
    · exact .inr (interrupted_logDefinition h)

/-- When ensuring a declaration is interrupted, nothing has been done about it or everything. -/
theorem interrupted_ensureIndex (h : answer.Careful store) {o : Outcome}
    (hr : result answer (ensureIndex target collection d) a = .ok o)
    (hi : Interrupted answer (ensureIndex target collection d) a b) :
    LooksLike target (store a) (store b)
      ∨ b = final answer (ensureIndex target collection d) a := by
  have hyields : Stepwise target fun _ x => Yields x := stepwise_yields
  have hlisted := (reached_listed h target collection a).looksLike
  obtain ⟨keys, xs, found, hseen, -, hfinal⟩ := ensureIndex_eq_ok hr
  rcases hi.bind (hyields.read (Definition.fails_keys d)) with hi | ⟨keys', hkeys, hi⟩
  · obtain rfl := hi.eq fun _ => rfl
    exact .inl (.refl _ _)
  obtain rfl := Except.ok.inj (hseen.declared.symm.trans hkeys)
  rw [final_require] at hi
  rcases hi.bind (hyields.findIndex collection keys) with hi | ⟨found', hfound, hi⟩
  · refine .inl ?_
    rcases hi.bind (hyields.call (.listIndexes target collection) rfl) with hi | ⟨xs', -, hi⟩
    · rcases hi.call with rfl | rfl
      · exact .refl _ _
      · exact hlisted
    · obtain rfl := hi.eq fun _ => rfl
      exact hlisted
  · obtain ⟨xs', hl, hf⟩ := result_findIndex_eq_ok_iff.1 hfound
    obtain rfl := Except.ok.inj (hseen.listing.symm.trans hl)
    obtain rfl := Except.ok.inj (hseen.first.symm.trans hf)
    rw [final_findIndex] at hi
    rcases interrupted_enact hi with rfl | rfl
    · exact .inl hlisted
    · exact .inr hfinal.symm

/-- When creating a collection is interrupted, nothing has been done about it or everything. -/
theorem interrupted_ensureCollection (h : answer.Careful store) {created : Bool}
    (hr : result answer (ensureCollection target collection) a = .ok created)
    (hi : Interrupted answer (ensureCollection target collection) a b) :
    LooksLike target (store a) (store b)
      ∨ b = final answer (ensureCollection target collection) a := by
  have hyields : Stepwise target fun _ x => Yields x := stepwise_yields
  have hlisted := (reached_listedCollections h target a).looksLike
  obtain ⟨names, hnames, hr⟩ := result_bind_eq_ok_iff.1 hr
  rcases hi.bind (hyields.call (.listCollections target) rfl) with hi | ⟨names', hnames', hi⟩
  · rcases hi.call with rfl | rfl
    · exact .inl (.refl _ _)
    · exact .inl hlisted
  obtain rfl := Except.ok.inj (hnames.symm.trans hnames')
  rw [ensureCollection, final_bind_of_ok hnames]
  by_cases hm : collection ∈ names
  · rw [if_pos hm] at hi
    obtain rfl := hi.eq fun _ => rfl
    exact .inl hlisted
  · rw [if_neg hm] at hi hr ⊢
    obtain ⟨u, hu, -⟩ := result_bind_eq_ok_iff.1 hr
    rw [final_bind_of_ok hu]
    rcases hi.bind (hyields.call (.createCollection target collection) rfl) with hi | ⟨u, -, hi⟩
    · rcases hi.call with rfl | rfl
      · exact .inl hlisted
      · exact .inr rfl
    · exact .inr (hi.eq fun _ => rfl)

/-! ### Where an attempt leads -/

/-- An attempt succeeds from the one state, and ends in contents that look like those of the
other. -/
def Leads (answer : Handler σ) (store : σ → Store) (target : String) (x : Attempt α) (a b : σ) :
    Prop :=
  ∃ v, result answer x a = .ok v ∧ LooksLike target (store (final answer x a)) (store b)

theorem leads_of_ok {x : Attempt α} {v : α} (h : result answer x a = .ok v) :
    Leads answer store target x a (final answer x a) :=
  ⟨v, h, .refl _ _⟩

/-- A steady attempt leads to the same from contents that look alike. -/
theorem Leads.congr {x : Attempt α} (h : Leads answer store target x a c)
    (hx : Steady answer store target x) (hab : LooksLike target (store a) (store b)) :
    Leads answer store target x b c := by
  obtain ⟨v, hr, hc⟩ := h
  obtain ⟨hresult, hfinal⟩ := hx a b hab
  exact ⟨v, hresult.symm.trans hr, hfinal.symm.trans hc⟩

section Tally

/-- Where ensuring declarations leads does not depend on what has been counted before. -/
theorem leads_ensureIndexes_tally {tally : Tally}
    (h : Leads answer store target (ensureIndexes target collection ds tally) a c)
    (tally' : Tally) :
    Leads answer store target (ensureIndexes target collection ds tally') a c := by
  induction ds generalizing a tally tally' with
  | nil =>
    obtain ⟨-, -, hc⟩ := h
    exact ⟨tally', rfl, hc⟩
  | cons d ds ih =>
    obtain ⟨v, hr, hc⟩ := h
    obtain ⟨o, ho, hr⟩ := result_bind_eq_ok_iff.1 hr
    rw [ensureIndexes, final_bind_of_ok ho] at hc
    obtain ⟨v', hr', hc'⟩ := ih ⟨v, hr, hc⟩ (tally'.count o)
    rw [Leads, ensureIndexes, result_bind_of_ok ho, final_bind_of_ok ho]
    exact ⟨v', hr', hc'⟩

variable {es : List Definition} {tally tally' : Tally}

/-- Ensuring one list of declarations after the other. -/
theorem leads_ensureIndexes_append (h : answer.Determined store target)
    (hfirst : Leads answer store target (ensureIndexes target collection ds tally) a b)
    (hsecond : Leads answer store target (ensureIndexes target collection es tally') b c) :
    Leads answer store target (ensureIndexes target collection (ds ++ es) tally) a c := by
  obtain ⟨v, hr, hb⟩ := hfirst
  have hsecond := (leads_ensureIndexes_tally hsecond v).congr
    ((stepwise_steady h).ensureIndexes _ _ _) hb.symm
  obtain ⟨v', hr', hc⟩ := hsecond
  rw [ensureIndexes_append, Leads, result_bind_of_ok hr, final_bind_of_ok hr]
  exact ⟨v', hr', hc⟩

end Tally

/-- Where declarations are settled, ensuring them leads nowhere else. -/
theorem leads_ensureIndexes_settled (h : answer.Repeatable store Asked)
    (hs : (store a).Distinct) (hasked : ∀ d ∈ ds, Asked d)
    (hset : SettledIn (store a) target collection ds) (tally : Tally) :
    Leads answer store target (ensureIndexes target collection ds tally) a a := by
  obtain ⟨⟨v, hr⟩, hreach⟩ := ensureIndexes_settled h hs hasked hset tally
  exact ⟨v, hr, hreach.looksLike.symm⟩

/-- The same for a collection with its declarations. -/
theorem leads_createCollection_settled (h : answer.Repeatable store Asked)
    (hs : (store a).Distinct) (hdef : definitions collection = .ok ds)
    (hasked : ∀ d ∈ ds, Asked d) (hset : SettledIn (store a) target collection ds) :
    Leads answer store target (createCollection target collection) a a := by
  obtain ⟨⟨v, hr⟩, hreach⟩ := createCollection_settled h hs hdef hasked hset
  exact ⟨v, hr, hreach.looksLike.symm⟩

/-- Where a collection exists, creating it leads where ensuring its declarations leads. -/
theorem leads_createCollection_present (h : answer.Repeatable store Asked)
    (hdet : answer.Determined store target) (hdef : definitions collection = .ok ds)
    {xs : Indexes} (hx : (store a).indexes? target collection = some xs) {tally : Tally}
    (hleads : Leads answer store target (ensureIndexes target collection ds tally) a c) :
    Leads answer store target (createCollection target collection) a c := by
  obtain ⟨hfound, hreach⟩ := ensureCollection_present h hx
  have hleads' := (leads_ensureIndexes_tally hleads (Tally.ofCollection false)).congr
    ((stepwise_steady hdet).ensureIndexes _ _ _) hreach.looksLike
  rw [Leads, createCollection, result_bind_of_ok hfound, final_bind_of_ok hfound, hdef,
    result_bind_of_ok (result_require _), final_bind_of_ok (result_require _), final_require]
  exact hleads'

/-- Applying the schema leads where its parts lead one after the other. -/
theorem leads_apply (hdet : answer.Determined store target) {c₁ c₂ : σ}
    (hfirst : Leads answer store target (createCollection target credentials) a c₁)
    (hsecond : Leads answer store target (createCollection target sessions) c₁ c₂)
    (hverified : result answer (verify target) c₂ = .ok []) :
    Leads answer store target (apply target) a (final answer (verify target) c₂) := by
  have hsteady := stepwise_steady hdet
  obtain ⟨first, hfirst, hlooks⟩ := hfirst
  obtain ⟨second, hsecond, hlooks'⟩ :=
    hsecond.congr (hsteady.createCollection sessions) hlooks.symm
  obtain ⟨missing, hmissing, hlooks''⟩ :=
    (leads_of_ok hverified).congr (hsteady.verify) hlooks'.symm
  obtain ⟨hresult, -⟩ := hsteady.verify _ _ hlooks'
  have hsucc : Succeeds answer target a first second :=
    ⟨hfirst, hsecond, hresult.trans hverified⟩
  refine ⟨(), hsucc.result_apply, ?_⟩
  rw [hsucc.final_apply]
  exact hlooks''

/-! ### Taking up the work -/

section Resumption

variable (h : answer.Repeatable store Asked) (hdet : answer.Determined store target)

include h hdet

/-- When ensuring some declarations has been interrupted, ensuring them anew, together with others
that have been settled before, leads where the work would have led. -/
theorem leads_ensureIndexes_of_interrupted {tally tally' : Tally} (hs : (store a).Distinct)
    (hdone : ∀ d ∈ done, Asked d) (hset : SettledIn (store a) target collection done)
    (hds : ∀ d ∈ ds, Asked d ∧ d.Comparable ∧ ∃ field, Regular d field)
    (hr : result answer (ensureIndexes target collection ds tally) a = .ok tally')
    (hi : Interrupted answer (ensureIndexes target collection ds tally) a b) (t : Tally) :
    Leads answer store target (ensureIndexes target collection (done ++ ds) t) b
      (final answer (ensureIndexes target collection ds tally) a) := by
  have hyields : Stepwise target fun _ x => Yields x := stepwise_yields
  have hsteady := stepwise_steady hdet
  have hsettled := leads_ensureIndexes_settled h hs hdone hset
  induction ds generalizing a done tally with
  | nil =>
    obtain rfl := hi.eq fun _ => rfl
    rw [List.append_nil]
    exact hsettled t
  | cons d ds ih =>
    obtain ⟨hd, hrest⟩ := List.forall_mem_cons.1 hds
    obtain ⟨o, ho, hr'⟩ := result_bind_eq_ok_iff.1 hr
    -- After the first declaration this one is settled as well.
    have hs' := distinct_ensureIndex h.toCareful target collection d hs
    have hset' := settledIn_ensureIndex h hs hd hset ho
    have hdone' : ∀ d' ∈ done ++ [d], Asked d' :=
      List.forall_mem_append.2 ⟨hdone, List.forall_mem_singleton.2 hd.1⟩
    have hsettled' := leads_ensureIndexes_settled h hs' hdone' hset'
    have hend : final answer (ensureIndexes target collection (d :: ds) tally) a
        = final answer (ensureIndexes target collection ds (tally.count o))
            (final answer (ensureIndex target collection d) a) := by
      rw [ensureIndexes, final_bind_of_ok ho]
    rcases hi.bind (hyields.ensureIndex collection d) with hi | ⟨o', ho', hi⟩
    · rcases interrupted_ensureIndex h.toCareful ho hi with hlooks | rfl
      · exact (leads_ensureIndexes_append hdet (hsettled t) (leads_of_ok hr)).congr
          (hsteady.ensureIndexes _ _ _) hlooks
      · rw [hend, List.append_cons]
        exact leads_ensureIndexes_append hdet (hsettled' t) (leads_of_ok hr')
    · obtain rfl := Except.ok.inj (ho.symm.trans ho')
      rw [hend, List.append_cons]
      exact ih hs' hdone' hset' hrest hr' hi hsettled'

/-- The same for a collection with its declarations. -/
theorem leads_createCollection_of_interrupted {tally : Tally} (hs : (store a).Distinct)
    (hdef : definitions collection = .ok ds)
    (hds : ∀ d ∈ ds, Asked d ∧ d.Comparable ∧ ∃ field, Regular d field)
    (hr : result answer (createCollection target collection) a = .ok tally)
    (hi : Interrupted answer (createCollection target collection) a b) :
    Leads answer store target (createCollection target collection) b
      (final answer (createCollection target collection) a) := by
  have hyields : Stepwise target fun _ x => Yields x := stepwise_yields
  have hend : Leads answer store target (createCollection target collection) a
      (final answer (createCollection target collection) a) := leads_of_ok hr
  obtain ⟨created, hc, hr⟩ := result_bind_eq_ok_iff.1 hr
  obtain ⟨xs, hx⟩ := exists_indexes?_ensureCollection h hc
  have hs' := distinct_ensureCollection h.toCareful target collection hs
  rw [hdef, result_bind_of_ok (result_require _), final_require] at hr
  have hfinal : final answer (createCollection target collection) a
      = final answer (ensureIndexes target collection ds (Tally.ofCollection created))
          (final answer (ensureCollection target collection) a) := by
    rw [createCollection, final_bind_of_ok hc, hdef, final_bind_of_ok (result_require _),
      final_require]
  rcases hi.bind (hyields.ensureCollection collection) with hi | ⟨created', hc', hi⟩
  · rcases interrupted_ensureCollection h.toCareful hc hi with hlooks | rfl
    · exact hend.congr ((stepwise_steady hdet).createCollection collection) hlooks
    · rw [hfinal]
      exact leads_createCollection_present h hdet hdef hx (leads_of_ok hr)
  · obtain rfl := Except.ok.inj (hc.symm.trans hc')
    rcases hi.bind (hyields.read (fails_definitions collection)) with hi | ⟨ds', hds', hi⟩
    · obtain rfl := hi.eq fun _ => rfl
      rw [hfinal]
      exact leads_createCollection_present h hdet hdef hx (leads_of_ok hr)
    · obtain rfl := Except.ok.inj (hdef.symm.trans hds')
      rw [final_require] at hi
      have hnone : SettledIn (store (final answer (ensureCollection target collection) a)) target
          collection [] := ⟨xs, hx, by simp⟩
      have hleads := leads_ensureIndexes_of_interrupted h hdet hs' (by simp) hnone hds hr hi
        Tally.zero
      obtain ⟨script, rfl⟩ := hi
      obtain ⟨-, hsettling⟩ := settling_ensureIndexes h.toCareful.scripted target collection
        (fun d hd => (hds d hd).2.2) (Tally.ofCollection created) (_, script) hs'
      obtain ⟨ys, hy, -⟩ := hsettling collection xs hx
      rw [hfinal]
      exact leads_createCollection_present h hdet hdef hy hleads

section Apply

variable (hasked : ∀ d ∈ credentialIndexes ++ sessionIndexes, Asked d) (hs : (store a).Distinct)

include hasked hs

/-- When the creation of the second collection has been interrupted, the first one is settled. -/
theorem leads_apply_of_interrupted_sessions {first second : Tally}
    (hsucc : Succeeds answer target a first second)
    (hi : Interrupted answer (createCollection target sessions)
      (afterCredentials answer target a) b) :
    Leads answer store target (apply target) b (final answer (apply target) a) := by
  obtain ⟨hcred, hsess⟩ := regular_of_asked hasked
  have hs' := distinct_createCollection h.toCareful target credentials hs
  have hset := settledIn_createCollection h hs definitions_credentials hcred hsucc.credentials
  have hagain := leads_createCollection_of_interrupted h hdet hs' definitions_sessions hsess
    hsucc.sessions hi
  obtain ⟨script, rfl⟩ := hi
  obtain ⟨hsb, hsettling⟩ := settling_createCollection h.toCareful.scripted target
    definitions_sessions (fun d hd => (hsess d hd).2.2)
    (afterCredentials answer target a, script) hs'
  have hsettled := leads_createCollection_settled h hsb definitions_credentials
    (fun d hd => (hcred d hd).1) (hsettling.settledIn hset)
  rw [hsucc.final_apply]
  exact leads_apply hdet hsettled hagain hsucc.verified

/-- From the state in which both collections have been created nothing more is done. -/
theorem leads_apply_of_created {first second : Tally}
    (hsucc : Succeeds answer target a first second)
    (hb : LooksLike target (store (afterSessions answer target a)) (store b)) :
    Leads answer store target (apply target) b (final answer (apply target) a) := by
  obtain ⟨hcred, hsess⟩ := regular_of_asked hasked
  obtain ⟨hs', hset, hset'⟩ := settledIn_afterSessions h hasked hs hsucc
  have hcredentials := leads_createCollection_settled h hs' definitions_credentials
    (fun d hd => (hcred d hd).1) hset
  have hsessions := leads_createCollection_settled h hs' definitions_sessions
    (fun d hd => (hsess d hd).1) hset'
  rw [hsucc.final_apply]
  exact leads_apply hdet (hcredentials.congr ((stepwise_steady hdet).createCollection _) hb)
    hsessions hsucc.verified

/-- When applying the schema has been interrupted, applying it anew leads where it would have
led. -/
theorem leads_apply_of_interrupted (hr : result answer (apply target) a = .ok ())
    (hi : Interrupted answer (apply target) a b) :
    Leads answer store target (apply target) b (final answer (apply target) a) := by
  have hyields : Stepwise target fun _ x => Yields x := stepwise_yields
  obtain ⟨first, second, hsucc⟩ := succeeds_of_apply hr
  have hs' := distinct_createCollection h.toCareful target credentials hs
  have hs'' := distinct_createCollection h.toCareful target sessions hs'
  rcases hi.bind (x := log .info ("Applying: " ++ description)) trivial with hi | ⟨u, -, hi⟩
  · obtain rfl := hi.eq fun _ => rfl
    exact leads_of_ok hr
  rw [final_log] at hi
  rcases hi.bind (hyields.createCollection credentials) with hi | ⟨first', hfirst, hi⟩
  · rw [hsucc.final_apply]
    exact leads_apply hdet
      (leads_createCollection_of_interrupted h hdet hs definitions_credentials
        (regular_of_asked hasked).1 hsucc.credentials hi)
      (leads_of_ok hsucc.sessions) hsucc.verified
  rcases hi.bind (hyields.createCollection sessions) with hi | ⟨second', hsecond, hi⟩
  · exact leads_apply_of_interrupted_sessions h hdet hasked hs hsucc hi
  rcases hi.bind hyields.verify with hi | ⟨missing, hmissing, hi⟩
  · obtain ⟨script, rfl⟩ := hi
    have hreach := reached_missingIn h.toCareful.scripted target collections
      (a := (afterSessions answer target a, script)) hs''
    exact leads_apply_of_created h hdet hasked hs hsucc hreach.looksLike
  · obtain rfl := Except.ok.inj (hsucc.verified.symm.trans hmissing)
    obtain rfl := hi.eq fun _ => rfl
    exact leads_apply_of_created h hdet hasked hs hsucc
      (reached_missingIn h.toCareful target collections hs'').looksLike

end Apply

end Resumption

/-- The state after some attempts to apply the schema, of which each may be interrupted. -/
def attempted (answer : Handler σ) (target : String) (a : σ) (scripts : List Script) : σ :=
  scripts.foldl (fun b script => (final answer.scripted (apply target) (b, script)).1) a

/-- **Taking up the work.** Where applying the schema to a repeatable server succeeds, any number of
attempts may be interrupted before, each at any of its calls: applying the schema then succeeds all
the same, and leaves exactly the contents that it would have left without them. -/
theorem resumed_apply (h : answer.Repeatable store Asked) (hdet : answer.Determined store target)
    (hasked : ∀ d ∈ credentialIndexes ++ sessionIndexes, Asked d) (hs : (store a).Distinct)
    (hr : result answer (apply target) a = .ok ()) (scripts : List Script) :
    result answer (apply target) (attempted answer target a scripts) = .ok ()
      ∧ store (final answer (apply target) (attempted answer target a scripts))
        = store (final answer (apply target) a) := by
  induction scripts generalizing a with
  | nil => exact ⟨hr, rfl⟩
  | cons script scripts ih =>
    obtain ⟨u, hr', hlooks⟩ := leads_apply_of_interrupted h hdet hasked hs hr ⟨script, rfl⟩
    have hs' := distinct_final h.toCareful.scripted (apply target) (a := (a, script)) hs
    obtain ⟨-, hp⟩ := inPlace_apply h hasked hs hr
    obtain ⟨-, hp'⟩ := inPlace_apply h hasked hs' hr'
    obtain ⟨xs, hx, -⟩ := hp.settled _ mem_collections_credentials
    obtain ⟨ys, hy, -⟩ := hp'.settled _ mem_collections_credentials
    obtain ⟨hok, hstore⟩ := ih hs' hr'
    exact ⟨hok, hstore.trans (hlooks.eq_of_indexes? hy hx)⟩

/-- A server whose credentials have an index of somebody else's, and nothing more. -/
def startedServer : Server where
  store := [("appdb", [(credentials, [("by_phone", [("key", .doc [("phone", .int 1)])])])])]
  clients := 0

/-- The first attempt fails before the second index is created, the next one is called off when the
time to live would be given, and the third one when the sessions are verified. -/
theorem resumed_apply_started :
    result Server.answer (apply "appdb") startedServer = .ok ()
      ∧ result Server.answer (apply "appdb") (attempted Server.answer "appdb" startedServer
          [.strikeAt 4 (.rejected .noCollection), .strikeAt 14 (.cancelled "called off"),
            .strikeAt 11 (.cancelled "called off")]) = .ok ()
      ∧ (final Server.answer (apply "appdb") (attempted Server.answer "appdb" startedServer
          [.strikeAt 4 (.rejected .noCollection), .strikeAt 14 (.cancelled "called off"),
            .strikeAt 11 (.cancelled "called off")])).store
        = (final Server.answer (apply "appdb") startedServer).store := by
  have hs : startedServer.store.Distinct := by decide
  have hr : result Server.answer (apply "appdb") startedServer = .ok () := rfl
  exact ⟨hr, resumed_apply Server.repeatable (Server.determined "appdb") plain_declared hs hr _⟩

end Schema

end Provisioner
