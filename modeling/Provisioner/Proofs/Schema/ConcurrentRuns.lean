import Provisioner.Proofs.Schema.StoreMove
import Provisioner.Proofs.Procedure.System

/-!
# Applying the schema several times at once

Any number of runs may apply the schema to one database at the same time, their calls following each
other in any order, and any call failing at any time. What each run relies on is that the others
only make moves. Between the listing of the indexes and the call that follows from it the contents
may therefore have changed, but whatever the decision rests on is still true; a declaration that has
been ensured is served from then on, whoever has provided for it; and what a verification has found
it would find again at any later time.

So no run ever finds anything missing, and where a run announces its success, the schema is complete
and remains so.

## Main definitions

* `Schema.terms` — what runs on one database rely on
* `Schema.runs` — any number of runs that have not begun

## Main results

* `Schema.withstands_ensureIndex`, `withstands_missingIn` — a declaration that is ensured, and the
  verification, among other runs
* `Schema.withstands_apply` — applying the schema among other runs
* `Schema.concurrent_apply` — any number of runs, under every schedule
-/

namespace Provisioner

open Store

namespace Schema

open Attempt
open Procedure hiding Withstands

variable {σ : Type} {answer : Handler σ} {store : σ → Store} {Asked : Definition → Prop}
  {target collection : String} {d : Definition} {ds : List Definition} {keys : Value} {a : σ}

/-! ### The terms -/

/-- Runs on one database make moves, fail with errors that are not about missing declarations, and
announce a success where the schema is complete. -/
def terms (store : σ → Store) (target : String) : Terms σ where
  onward a b := (store b).Distinct ∧ Evolves target (store a) (store b)
  fault := Error.Foreign
  means n a := n = .line confirmation → Complete target (store a)
  trans h h' := ⟨h'.1, h.2.trans h'.2⟩
  rest h := ⟨h.1, .refl⟩
  kept hn hab h := hab.2.keeps (fun _ _ hstep hc e he d hd => hstep.satisfied (hc e he d hd)) (hn h)

/-- What every move leaves true, all may rely on. -/
theorem stable_of_advance {P : Store → Prop} (hP : ∀ s t, Advance target s t → P s → P t) :
    (terms store target).Stable fun a => P (store a) :=
  fun _ _ ha hab => hab.2.keeps hP ha

theorem stable_fit (d : Definition) :
    (terms store target).Stable fun a => ((store a).indexes target collection).Fit d :=
  stable_of_advance fun _ _ h => h.fit

theorem stable_satisfied (d : Definition) :
    (terms store target).Stable fun a =>
      Indexes.satisfy d ((store a).indexes target collection) = .ok true :=
  stable_of_advance fun _ _ h => h.satisfied

theorem stable_complete : (terms store target).Stable fun a => Complete target (store a) :=
  .forall fun _ => .forall fun _ => .forall fun d => .forall fun _ => stable_satisfied d

/-- A call that makes a move observes the terms. -/
theorem onward_of_move (h : answer.Careful store) {c : Call} (ha : (store a).Distinct)
    (hmove : Move target (store a) (store (answer c a).2)) :
    (terms store target).onward a (answer c a).2 :=
  ⟨h.distinct c a ha, .single ⟨ha, h.distinct c a ha, hmove⟩⟩

/-! ### Single calls -/

section Steps

variable (h : answer.Faithful store Asked)

include h

/-- A call of which nothing is asked but that it makes a move. -/
theorem withstands_call_of_move {c : Call}
    (hmove : ∀ b, Move target (store b) (store (answer c b).2)) :
    Withstands answer (terms store target) (fun _ _ => True) (call c) a :=
  withstands_call (fun b hab => onward_of_move h.toCareful hab.1 (hmove b)) (h.foreign c)
    fun _ _ _ _ _ _ => trivial

/-- What is listed has been there when it was listed. -/
theorem withstands_listIndexes {Q : Indexes → σ → Prop}
    (hQ : ∀ b, (terms store target).onward a b → Q ((store b).indexes target collection) b)
    (hstable : ∀ xs, (terms store target).Stable (Q xs)) :
    Withstands answer (terms store target) Q (call (.listIndexes target collection)) a := by
  have honward : ∀ b, (terms store target).onward a b →
      (terms store target).onward b (answer (.listIndexes target collection) b).2 := fun b hab =>
    onward_of_move h.toCareful hab.1
      (.grown (grown_of_reached (reached_listed h.toCareful target collection b)))
  refine withstands_call honward (h.foreign _) fun b xs hab hxs c hc => ?_
  obtain rfl := (h.allowed (.listIndexes target collection) b).2 xs hxs
  exact hstable _ b c (hQ b hab) ((terms store target).trans (honward b hab) hc)

omit h in
theorem withstands_record (level : Level) (message : String) :
    Withstands answer (terms store target) (fun _ _ => True) (log level message) a :=
  withstands_log (fun _ _ hn => nomatch hn) fun _ _ => trivial

omit h in
theorem withstands_logDefinition (message collection : String) (d : Definition) :
    Withstands answer (terms store target) (fun _ _ => True) (logDefinition message collection d)
      a :=
  (withstands_require (Q := fun _ _ => True)
    ((Definition.fails_describe collection d).imp fun _ he => he.foreign)
    fun _ _ _ _ => trivial).bind fun _ _ _ => withstands_record _ _

/-! ### One collection -/

/-- The collection may come into being between the listing and the creation, which then fails. -/
theorem withstands_ensureCollection (hc : collection ∈ declaredNames) :
    Withstands answer (terms store target) (fun _ _ => True) (ensureCollection target collection)
      a := by
  have hlist := withstands_call_of_move (a := a) h (c := .listCollections target) fun b =>
    .grown (grown_of_reached (reached_listedCollections h.toCareful target b))
  refine hlist.bind fun names b _ => ?_
  split
  · exact (withstands_record _ _).bind fun _ _ _ => withstands_pure fun _ _ => trivial
  · refine (withstands_call_of_move h fun c => .grown ?_).bind fun _ _ _ =>
      (withstands_record _ _).bind fun _ _ _ => withstands_pure fun _ _ => trivial
    rcases h.allowed (.createCollection target collection) c with hr | ⟨hn, ht⟩
    · exact grown_of_reached hr
    · rw [ht]
      exact grown_of_collectionStep hc (.created hn)

omit h in
theorem stable_warranted (decision : Decision) :
    (terms store target).Stable fun a => Warranted target collection d decision (store a) :=
  stable_of_advance fun _ _ hstep hw => hw.advance hstep

omit h in
/-- What is served remains served while it is told what has been done about it. -/
theorem withstands_told (message : String) (o : Outcome)
    (hfit : ((store a).indexes target collection).Fit d) :
    Withstands answer (terms store target)
      (fun _ b => ((store b).indexes target collection).Fit d)
      (logDefinition message collection d >>= fun _ => pure o) a :=
  ((withstands_logDefinition message collection d).keeping (stable_fit d) hfit).bind fun _ b hb =>
    withstands_pure fun c hbc => stable_fit d b c hb hbc

/-- A time to live that has become due may have been given by another run by now. -/
theorem withstands_expireIndex {index : String} (hdue : Due target index (store a)) :
    Withstands answer (terms store target)
      (fun _ b => ((store b).indexes target sessions).Fit expiry)
      (expireIndex target sessions index (Document.field expiry Index.ttl)) a := by
  have hb : ∀ b, (terms store target).onward a b → Due target index (store b) := fun b hab =>
    hab.2.keeps (fun _ _ hstep hd => hstep.due hd) hdue
  refine withstands_call (fun b hab => onward_of_move h.toCareful hab.1 ?_) (h.foreign _)
    fun b u hab hu c hc => ?_
  · rcases h.allowed (.expireIndex target sessions index (Document.field expiry Index.ttl)) b
      with hr | ⟨xs, info, hx, hg, ht⟩
    · exact .grown (grown_of_reached hr)
    · rw [ht]
      exact (hb b hab).move hx hg
  · obtain ⟨xs, info, hx, hg, ht⟩ := h.expired _ _ _ _ _ hu
    have hfit := (hb b hab).fit hx hg
    rw [expired, ← ht] at hfit
    exact stable_fit expiry _ c hfit hc

/-- The index may have been created by another run by now, which is no obstacle. -/
theorem withstands_createIndex (hk : Definition.keys d = .ok keys) (hasked : Asked d)
    (hc : collection ∈ declaredNames) :
    Withstands answer (terms store target)
      (fun _ b => ((store b).indexes target collection).Fit d)
      (call (.createIndex target collection keys (Definition.options d))) a := by
  refine withstands_call (fun b hb => onward_of_move h.toCareful hb.1 (.grown ?_)) (h.foreign _)
    fun b u hb hu c hbc => ?_
  · rcases h.allowed (.createIndex target collection keys (Definition.options d)) b
      with hr | ⟨added, ht⟩
    · exact grown_of_reached hr
    · rw [ht]
      exact grown_putIndexes hc fun xs hx => ⟨added, by rw [indexesOrFresh_of_indexes? hx]⟩
  · obtain ⟨e, he, hgranted⟩ := h.created _ _ b d keys hb.1 hasked hk hu
    exact stable_fit d _ c ⟨e, he, hgranted.fits hk⟩ hbc

/-- Acting on a decision, with whatever may have happened since it was taken. -/
theorem withstands_enact (hk : Definition.keys d = .ok keys) (hasked : Asked d)
    (hc : collection ∈ declaredNames) {decision : Decision}
    (hw : Warranted target collection d decision (store a)) :
    Withstands answer (terms store target)
      (fun _ b => ((store b).indexes target collection).Fit d)
      (enact target collection d keys decision) a := by
  cases decision with
  | keep => exact withstands_told _ _ hw
  | attach index seconds =>
    obtain ⟨rfl, rfl, rfl, hdue⟩ := hw
    exact (withstands_expireIndex h hdue).bind fun _ b hb => withstands_told _ _ hb
  | create conflict =>
    have hwarn : Withstands answer (terms store target) (fun _ _ => True)
        (warnConflict collection conflict) a := by
      cases conflict with
      | none => exact withstands_pure fun _ _ => trivial
      | some e => exact withstands_record _ _
    refine hwarn.bind fun _ b _ => ?_
    exact (withstands_createIndex h hk hasked hc).bind fun _ c hfit => withstands_told _ _ hfit

/-- A declaration that has been ensured is served. -/
theorem withstands_ensureIndex (hasked : Asked d) (hc : collection ∈ declaredNames)
    (hl : Document.field d Index.ttl ≠ .null → collection = sessions ∧ d = expiry) :
    Withstands answer (terms store target)
      (fun _ b => ((store b).indexes target collection).Fit d)
      (ensureIndex target collection d) a := by
  have hkeys : Withstands answer (terms store target) (fun keys _ => Definition.keys d = .ok keys)
      (require (Definition.keys d)) a :=
    withstands_require ((Definition.fails_keys d).imp fun _ he => he.foreign) fun _ hk _ _ => hk
  refine hkeys.bind fun keys b hk => ?_
  have hlist : Withstands answer (terms store target)
      (fun xs b => ∀ found, Indexes.find? keys xs = .ok found →
        Warranted target collection d (Decision.of found d) (store b))
      (call (.listIndexes target collection)) b :=
    withstands_listIndexes h (fun b hb found hf => warranted_of_found hb.1 hl hk hf)
      fun xs b b' hw hb found hf => stable_warranted _ b b' (hw found hf) hb
  have hfind : Withstands answer (terms store target)
      (fun found b => Warranted target collection d (Decision.of found d) (store b))
      (findIndex target collection keys) b :=
    hlist.bind fun xs c hw => withstands_require
      ((Indexes.fails_find? keys xs).imp fun _ he => he.foreign)
      fun found hf e hce => stable_warranted _ c e (hw found hf) hce
  exact hfind.bind fun found c hw => withstands_enact h hk hasked hc hw

/-- All declarations that have been ensured are served. -/
theorem withstands_ensureIndexes (hc : collection ∈ declaredNames)
    (hds : ∀ d ∈ ds, Asked d
      ∧ (Document.field d Index.ttl ≠ .null → collection = sessions ∧ d = expiry))
    (tally : Tally) :
    Withstands answer (terms store target)
      (fun _ b => ∀ d ∈ ds, ((store b).indexes target collection).Fit d)
      (ensureIndexes target collection ds tally) a := by
  induction ds generalizing tally a with
  | nil => exact withstands_pure fun _ _ => by simp
  | cons d ds ih =>
    obtain ⟨⟨hasked, hl⟩, hrest⟩ := List.forall_mem_cons.1 hds
    refine (withstands_ensureIndex h hasked hc hl).bind fun o b hb => ?_
    refine ((ih hrest (tally.count o)).frame (stable_fit d) hb).imp fun _ c hfit => ?_
    exact List.forall_mem_cons.2 ⟨hfit.2, hfit.1⟩

theorem withstands_createCollection (hdef : definitions collection = .ok ds)
    (hc : collection ∈ declaredNames)
    (hds : ∀ d ∈ ds, Asked d
      ∧ (Document.field d Index.ttl ≠ .null → collection = sessions ∧ d = expiry)) :
    Withstands answer (terms store target)
      (fun _ b => ∀ d ∈ ds, ((store b).indexes target collection).Fit d)
      (createCollection target collection) a := by
  refine (withstands_ensureCollection h hc).bind fun created b _ => ?_
  have hdefinitions : Withstands answer (terms store target) (fun ds' _ => ds' = ds)
      (require (definitions collection)) b :=
    withstands_require ((fails_definitions collection).imp fun _ he => he.foreign)
      fun ds' hds' _ _ => Except.ok.inj (hds'.symm.trans hdef)
  refine hdefinitions.bind fun ds' c hds' => ?_
  subst hds'
  exact withstands_ensureIndexes h hc hds _

/-! ### Verifying -/

omit h in
/-- What is found to serve declarations goes on to be found. -/
theorem stable_all_satisfied (ds : List Definition) (collection : String) :
    (terms store target).Stable fun b => ∀ d ∈ ds,
      Indexes.satisfy d ((store b).indexes target collection) = .ok true :=
  .forall fun d => .forall fun _ => stable_satisfied d

/-- Where all declarations of a collection are served none is found missing. -/
theorem withstands_missingIndexes
    (hfit : ∀ d ∈ ds, ((store a).indexes target collection).Fit d) :
    Withstands answer (terms store target)
      (fun names b => names = [] ∧ ∀ d ∈ ds,
        Indexes.satisfy d ((store b).indexes target collection) = .ok true)
      (missingIndexes target collection ds) a := by
  have hsatisfied : (terms store target).Stable fun b => ∀ d ∈ ds,
      Indexes.satisfy d ((store b).indexes target collection) = .ok true :=
    stable_all_satisfied ds collection
  have hlist : Withstands answer (terms store target)
      (fun xs b => (∀ d ∈ ds, xs.Fit d) ∧ ((∀ d ∈ ds, Indexes.satisfy d xs = .ok true) →
        ∀ d ∈ ds, Indexes.satisfy d ((store b).indexes target collection) = .ok true))
      (call (.listIndexes target collection)) a :=
    withstands_listIndexes h
      (fun b hab => ⟨fun d hd => stable_fit d a b (hfit d hd) hab, fun hs => hs⟩)
      fun xs b c hb hbc => ⟨hb.1, fun hs => hsatisfied b c (hb.2 hs) hbc⟩
  refine hlist.bind fun xs b hb => withstands_require
    ((Indexes.fails_missing collection xs ds).imp fun _ he => he.foreign) fun names hm c hbc => ?_
  obtain rfl := Indexes.missing_eq_nil_of_ok hb.1 hm
  exact ⟨rfl, hsatisfied b c (hb.2 (Indexes.satisfy_of_missing_eq_nil hm)) hbc⟩

/-- Where everything is served nothing is found missing, and what is found remains there. -/
theorem withstands_missingIn {entries : List (String × List Definition)}
    (hfit : ∀ e ∈ entries, ∀ d ∈ e.2, ((store a).indexes target e.1).Fit d) :
    Withstands answer (terms store target)
      (fun names b => names = [] ∧ ∀ e ∈ entries, ∀ d ∈ e.2,
        Indexes.satisfy d ((store b).indexes target e.1) = .ok true)
      (missingIn target entries) a := by
  induction entries generalizing a with
  | nil => exact withstands_pure fun _ _ => ⟨rfl, by simp⟩
  | cons e entries ih =>
    obtain ⟨he, hentries⟩ := List.forall_mem_cons.1 hfit
    have hrest : (terms store target).Stable fun b => ∀ e ∈ entries, ∀ d ∈ e.2,
        ((store b).indexes target e.1).Fit d :=
      .forall fun _ => .forall fun _ => .forall fun d => .forall fun _ => stable_fit d
    refine ((withstands_missingIndexes h he).frame hrest hentries).bind fun first b hb => ?_
    obtain ⟨⟨rfl, hs⟩, hb⟩ := hb
    refine ((ih hb).frame (stable_all_satisfied e.2 e.1) hs).bind fun others c hc => ?_
    obtain ⟨⟨rfl, hs'⟩, hs⟩ := hc
    refine withstands_pure fun c' hcc' => ⟨rfl, List.forall_mem_cons.2 ⟨?_, fun e' he' => ?_⟩⟩
    · exact stable_all_satisfied e.2 e.1 c c' hs hcc'
    · exact stable_all_satisfied e'.2 e'.1 c c' (hs' e' he') hcc'

/-! ### Applying the schema -/

/-- Applying the schema withstands other runs that do the same. -/
theorem withstands_apply (hasked : ∀ d ∈ credentialIndexes ++ sessionIndexes, Asked d) :
    Withstands answer (terms store target) (fun _ _ => True) (apply target) a := by
  have hcred : ∀ d ∈ credentialIndexes, Asked d
      ∧ (Document.field d Index.ttl ≠ .null → credentials = sessions ∧ d = expiry) := fun d hd =>
    ⟨hasked d (List.mem_append_left _ hd), fun hn => absurd (ttl_credentialIndexes d hd) hn⟩
  have hsess : ∀ d ∈ sessionIndexes, Asked d
      ∧ (Document.field d Index.ttl ≠ .null → sessions = sessions ∧ d = expiry) := fun d hd =>
    ⟨hasked d (List.mem_append_right _ hd), fun hn => ⟨rfl, eq_expiry_of_limited hd hn⟩⟩
  have hcredentials : (terms store target).Stable fun b => ∀ d ∈ credentialIndexes,
      ((store b).indexes target credentials).Fit d :=
    .forall fun d => .forall fun _ => stable_fit d
  refine (withstands_record _ _).bind fun _ a _ => ?_
  refine (withstands_createCollection h definitions_credentials (by simp [declaredNames])
    hcred).bind fun first b hb => ?_
  refine ((withstands_createCollection h definitions_sessions (by simp [declaredNames])
    hsess).frame hcredentials hb).bind fun second c hc => ?_
  have hfit : ∀ e ∈ collections, ∀ d ∈ e.2, ((store c).indexes target e.1).Fit d := by
    simp only [collections, List.forall_mem_cons]
    exact ⟨hc.2, hc.1, by simp⟩
  refine (withstands_missingIn h hfit).bind fun missing c hc => ?_
  obtain ⟨rfl, hc⟩ := hc
  have hc : Complete target (store c) := hc
  refine ((withstands_record _ _).keeping stable_complete hc).bind fun _ c hc => ?_
  refine ((withstands_record _ _).keeping stable_complete hc).bind fun _ c hc => ?_
  exact withstands_print (fun b hcb _ => stable_complete c b hc hcb) fun _ _ => trivial

end Steps

/-! ### Any number of runs -/

/-- Runs that have not begun, any number of them. -/
abbrev runs (ι : Type) (target : String) (a : σ) : System ι σ (Except Error Unit) :=
  System.start (apply target) a

/-- **Applying the schema several times at once.** Any number of runs share a faithful server, their
calls follow each other as a schedule has it, and any of them may fail, though not with the error
about missing declarations, which is this library's own. Then no run ends with that error. If a run
has announced its success, then both collections exist and nothing is missing, at that time and
after whatever else is done. And from any moment of the schedule on, whatever is there is preserved
by all that is done together until any later moment, and so is what one of the runs has created in
the meantime. -/
theorem concurrent_apply {ι : Type} [DecidableEq ι] (h : answer.Faithful store Asked)
    (hasked : ∀ d ∈ credentialIndexes ++ sessionIndexes, Asked d) (hs : (store a).Distinct)
    {schedule : List (Turn ι)} (hfaults : ∀ t ∈ schedule, ∀ e, t.2 = some e → e.Foreign) :
    (∀ i names, (((runs ι target a).play answer schedule).threads i).rest
        ≠ .done (.error (.missingIndexes names)))
      ∧ (∀ i, .notice (.line confirmation)
          ∈ (((runs ι target a).play answer schedule).threads i).past →
        ∀ later : List (Turn ι), (∀ t ∈ later, ∀ e, t.2 = some e → e.Foreign) →
          Established answer store target
            ((runs ι target a).play answer (schedule ++ later)).state)
      ∧ ∀ earlier later : List (Turn ι), schedule = earlier ++ later →
        Preserved target (store ((runs ι target a).play answer earlier).state)
            (store ((runs ι target a).play answer schedule).state)
          ∧ OptionsKept target (store ((runs ι target a).play answer earlier).state)
            (store ((runs ι target a).play answer schedule).state) := by
  have hstart : (runs ι target a).Sound answer (terms store target)
      (MayEnd (terms store target) fun _ _ => True) a :=
    System.sound_start ⟨hs, .refl⟩ (withstands_apply h hasked)
  have hsound := hstart.play hfaults
  refine ⟨fun i names hi => ?_, fun i hi later hlater => ?_, fun earlier later heq => ?_⟩
  · exact hsound.ended hi names rfl
  · have hcomplete := (hsound.threads i).notices _ hi rfl
    have honward := (hsound.resume.play hlater).reached
    rw [System.play_append]
    exact established_of_complete h (stable_complete _ _ hcomplete honward)
  · -- What is left of the runs at the earlier moment withstands the others from there on.
    subst heq
    obtain ⟨hearlier, hlater⟩ := List.forall_mem_append.1 hfaults
    have hmoment := hstart.play hearlier
    have honward := (hmoment.resume.play hlater).reached
    rw [System.play_append]
    have hpreserved := preserved_of_evolves hmoment.reached.1 honward.2
    exact ⟨hpreserved, hpreserved.optionsKept⟩

/-- A server whose sessions have an index on the time of expiry without a time to live. -/
def sharedServer : Server where
  store := [("appdb", [(sessions, [
    ("by_expiry", [("key", .doc [("expires_at", .int 1)])])])])]
  clients := 0

/-- Two runs take turns after the first one has created the credentials, until the second one is
called off when it verifies. -/
def alternating : List (Turn Bool) :=
  List.replicate 3 (false, none) ++ (List.replicate 24 [(true, none), (false, none)]).flatten
    ++ (true, some (.cancelled "called off")) :: List.replicate 4 (false, none)

theorem foreign_alternating : ∀ t ∈ alternating, ∀ e, t.2 = some e → e.Foreign := by
  intro t ht e he
  simp only [alternating, List.mem_append, List.mem_cons, List.mem_flatten,
    List.mem_replicate] at ht
  rcases ht with (⟨-, rfl⟩ | ⟨l, ⟨-, rfl⟩, ht⟩) | rfl | ⟨-, rfl⟩
  · exact nomatch he
  · simp only [List.mem_cons, List.not_mem_nil, or_false] at ht
    rcases ht with rfl | rfl <;> exact nomatch he
  · obtain rfl := Option.some.inj he
    exact nofun
  · exact nomatch he

/-- Both runs have seen the index without a time to live, and both give it one; what is there after
the first half of their turns is still there at the end. -/
theorem concurrent_apply_alternating :
    .notice (.line confirmation)
        ∈ (((runs Bool "appdb" sharedServer).play Server.answer alternating).threads false).past
      ∧ (∀ i names, (((runs Bool "appdb" sharedServer).play Server.answer alternating).threads
          i).rest ≠ .done (.error (.missingIndexes names)))
      ∧ Established Server.answer Server.store "appdb"
          ((runs Bool "appdb" sharedServer).play Server.answer (alternating ++ alternating)).state
      ∧ Preserved "appdb" sharedServer.store
          ((runs Bool "appdb" sharedServer).play Server.answer alternating).state.store
      ∧ Preserved "appdb"
          ((runs Bool "appdb" sharedServer).play Server.answer (alternating.take 28)).state.store
          ((runs Bool "appdb" sharedServer).play Server.answer alternating).state.store := by
  have hs : sharedServer.store.Distinct := by decide
  have hlast : (((runs Bool "appdb" sharedServer).play Server.answer alternating).threads
      false).past.getLast? = some (.notice (.line confirmation)) := rfl
  have hline := List.mem_of_getLast? hlast
  obtain ⟨hrest, hestablished, hpreserved⟩ :=
    concurrent_apply Server.faithful plain_declared hs foreign_alternating
  have hhalf : alternating = alternating.take 28 ++ alternating.drop 28 :=
    (List.take_append_drop 28 alternating).symm
  exact ⟨hline, hrest, hestablished false hline alternating foreign_alternating,
    (hpreserved [] alternating rfl).1, (hpreserved _ _ hhalf).1⟩

end Schema

end Provisioner
