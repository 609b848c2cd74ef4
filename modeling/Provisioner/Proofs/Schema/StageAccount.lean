import Provisioner.Proofs.Schema.FieldIndex
import Provisioner.Proofs.Schema.Stage
import Provisioner.Proofs.Schema.SuccessfulRun

/-!
# The account of the work

Three accounts are given of applying the schema: the records, the calls that have been granted, and
the counts of the summary. They are kept apart in the program, and it is shown here that they agree,
whatever the server contains and whichever calls fail.

What carries the proof is the agreement for a single stage. A stage that is gone through leaves one
record of the level INFO, and grants at most one call that changes something; which of the five
deeds it has done can be read off the record as well as off the call. A stage that fails leaves no
such record, and its failing call has not been granted. The stages are gone through in a row, so the
accounts of the whole are those of the stages, one after the other.

## Main definitions

* `Event.infos`, `Event.changes`, `Event.granted` — records, and calls that change something
* `Schema.Shown` — the record and the calls that go with a deed
* `Schema.Leg`, `Course` — stages that have been gone through, from one state to another

## Main results

* `Schema.reports_stage` — one stage
* `Schema.course_attempts` — stages in a row
* `Schema.forall₂_told_legs`, `forall₂_told_granted` — records against stages, and against calls
* `Schema.count_deed`, `count_found`, `count_indexes` — the counts
-/

namespace Provisioner

/-! ### What a trace shows -/

namespace Event

/-- The messages of the records of the level INFO. -/
def infos (trace : List Event) : List String :=
  trace.filterMap fun | .notice (.record .info message) => some message | _ => none

/-- The calls that may change the contents. -/
def changes (trace : List Event) : List Call := (calls trace).filter Call.mutates

/-- Those of them that have been granted. -/
def granted (trace : List Event) : List Call :=
  trace.filterMap fun
    | .call c none => if c.mutates then some c else none
    | _ => none

theorem mem_infos_iff {t : List Event} {message : String} :
    message ∈ infos t ↔ (Level.info, message) ∈ records t := by
  simp only [infos, records, List.mem_filterMap]
  refine exists_congr fun e => and_congr_right fun _ => ?_
  cases e with
  | call c error => simp
  | notice n =>
    cases n with
    | line text => simp
    | record level message => cases level <;> simp

@[simp] theorem infos_append (s t : List Event) : infos (s ++ t) = infos s ++ infos t := by
  simp [infos]

@[simp] theorem changes_append (s t : List Event) : changes (s ++ t) = changes s ++ changes t := by
  simp [changes]

@[simp] theorem granted_append (s t : List Event) : granted (s ++ t) = granted s ++ granted t := by
  simp [granted]

/-- An event that is neither a record of the level INFO nor a call that may change something. -/
def Idle : Event → Prop
  | .call c _ => c.mutates = false
  | .notice (.record level _) => level ≠ .info
  | .notice (.line _) => True

theorem infos_of_idle {t : List Event} (h : ∀ e ∈ t, Idle e) : infos t = [] := by
  refine List.filterMap_eq_nil_iff.2 fun e he => ?_
  have hi := h e he
  match e with
  | .call c error => rfl
  | .notice (.line text) => rfl
  | .notice (.record level message) => cases level <;> first | rfl | exact absurd rfl hi

theorem changes_of_idle {t : List Event} (h : ∀ e ∈ t, Idle e) : changes t = [] := by
  refine List.filter_eq_nil_iff.2 fun c hc => ?_
  obtain ⟨e, he, hce⟩ := List.mem_filterMap.1 hc
  have hi := h e he
  match e with
  | .call c' error =>
    obtain rfl := Option.some.inj hce
    exact ne_true_of_eq_false hi
  | .notice n => exact nomatch hce

/-- What has been granted has been called for. -/
theorem mem_changes_of_granted {t : List Event} {c : Call} (h : c ∈ granted t) : c ∈ changes t := by
  obtain ⟨e, he, hc⟩ := List.mem_filterMap.1 h
  match e with
  | .call c' (some error) => exact nomatch hc
  | .notice n => exact nomatch hc
  | .call c' none =>
    obtain ⟨hm, rfl⟩ : c'.mutates = true ∧ c' = c := by simpa using hc
    exact List.mem_filter.2 ⟨List.mem_filterMap.2 ⟨_, he, rfl⟩, hm⟩

theorem granted_of_idle {t : List Event} (h : ∀ e ∈ t, Idle e) : granted t = [] :=
  List.eq_nil_iff_forall_not_mem.2 fun c hc => by
    have hm := mem_changes_of_granted hc
    rw [changes_of_idle h] at hm
    exact nomatch hm

end Event

namespace Schema

open Attempt Procedure Event

variable {σ : Type} {answer : Handler σ} {target collection : String} {d : Definition} {s u : σ}

/-! ### A single stage -/

/-- The calls and the record that go with a deed: what is told is what has been done. -/
inductive Shown (target : String) : Stage → Deed → List Call → String → Prop
  | present (name : String) :
    Shown target (.collection name) .present [] ("Collection " ++ name ++ " already exists")
  | opened (name : String) :
    Shown target (.collection name) .opened [.createCollection target name]
      ("Created collection: " ++ name)
  | found {collection d text} (ht : Definition.describe collection d = .ok text) :
    Shown target (.index collection d) .found [] ("Index already exists: " ++ text)
  | created {collection d keys text} (hk : Definition.keys d = .ok keys)
    (ht : Definition.describe collection d = .ok text) :
    Shown target (.index collection d) .created
      [.createIndex target collection keys (Definition.options d)] ("Created index: " ++ text)
  | attached {collection d text} (index : String)
    (ht : Definition.describe collection d = .ok text) :
    Shown target (.index collection d) .attached
      [.expireIndex target collection index (Document.field d Index.ttl)]
      ("Attached TTL to index " ++ index ++ ": " ++ text)

/-- What is seen of a stage. If it has been gone through, there is one record, which goes with what
has been done, and every call that might change something has been granted. If it has failed, there
is no record, and no such call has been granted. -/
def StageSeen (target : String) (stage : Stage) : Except Error Deed → List Event → Prop
  | .ok deed, t => changes t = granted t
      ∧ ∃ message, infos t = [message] ∧ Shown target stage deed (granted t) message
  | .error _, t => granted t = [] ∧ infos t = []

/-- Idle events before it do not matter. -/
theorem StageSeen.after {stage : Stage} {o : Except Error Deed} {t t' : List Event}
    (h : StageSeen target stage o t') (ht : ∀ e ∈ t, Idle e) :
    StageSeen target stage o (t ++ t') := by
  have hinfos := infos_of_idle ht
  have hchanges := changes_of_idle ht
  have hgranted := granted_of_idle ht
  cases o <;> simpa [StageSeen, hinfos, hchanges, hgranted] using h

/-- An attempt is seen to do, in a given state, what a stage does. -/
def Reports (answer : Handler σ) (target : String) (stage : Stage) (x : Attempt Deed) (s : σ) :
    Prop :=
  StageSeen target stage (result answer x s) (trace answer x s)

section Reports

variable {α : Type} {stage : Stage}

/-- What is idle may come first. -/
theorem reports_bind {x : Attempt α} {f : α → Attempt Deed} (hx : Leaves answer Idle x)
    (hf : ∀ a, result answer x s = .ok a →
      Reports answer target stage (f a) (final answer x s)) :
    Reports answer target stage (x >>= f) s := by
  rw [Reports]
  cases h : result answer x s with
  | ok a =>
    rw [result_bind_of_ok h, trace_bind_of_ok h]
    exact (hf a h).after (hx s)
  | error e =>
    rw [result_bind_of_error h, trace_bind_of_error h]
    exact ⟨granted_of_idle (hx s), infos_of_idle (hx s)⟩

/-- A call that changes something, and then the record of it. -/
theorem reports_change {c : Call} {deed : Deed} {message : String} (hc : c.mutates = true)
    (h : Shown target stage deed [c] message) (s : σ) :
    Reports answer target stage (do let _ ← call c; log .info message; return deed) s := by
  rw [Reports]
  cases ha : result answer (call c) s with
  | error e =>
    rw [result_bind_of_error ha, trace_bind_of_error ha, trace_call, ← result_call, ha]
    exact ⟨rfl, rfl⟩
  | ok a =>
    have hgranted : granted [.call c none] = [c] := by simp [granted, hc]
    have hchanges : changes [.call c none] = [c] := by simp [changes, calls, hc]
    rw [result_bind_of_ok ha, trace_bind_of_ok ha, trace_call, ← result_call, ha]
    refine ⟨?_, message, rfl, ?_⟩
    · rw [changes_append, granted_append, errorOf, hgranted, hchanges]
      rfl
    · rw [granted_append, errorOf, hgranted]
      exact h

/-- Only the record. -/
theorem reports_log {deed : Deed} {message : String} (h : Shown target stage deed [] message)
    (s : σ) : Reports answer target stage (do log .info message; return deed) s :=
  ⟨rfl, message, rfl, h⟩

/-- A stage for a collection. -/
theorem reports_ensureCollection (name : String) (s : σ) :
    Reports answer target (.collection name)
      (Deed.ofCollection <$> ensureCollection target name) s := by
  rw [ensureCollection, map_bind]
  refine reports_bind (leaves_call fun _ => rfl) fun names _ => ?_
  split
  · exact reports_log (.present name) _
  · simp only [map_bind, map_pure]
    exact reports_change rfl (.opened name) _

theorem logDefinition_of_described {text : String} (ht : d.describe collection = .ok text)
    (message : String) :
    logDefinition message collection d = log .info (message ++ ": " ++ text) := by
  have hreq : (require (Definition.describe collection d) : Attempt String) = pure text :=
    congrArg require ht
  rw [logDefinition, hreq, pure_bind]

/-- Acting on a decision. -/
theorem reports_enact {keys : Value} {text : String} (hk : Definition.keys d = .ok keys)
    (ht : d.describe collection = .ok text) (found : Option (String × Info)) (s : σ) :
    Reports answer target (.index collection d)
      (Deed.ofOutcome <$> enact target collection d keys (.of found d)) s := by
  cases hdecision : Decision.of found d with
  | keep =>
    rw [enact, logDefinition_of_described ht]
    exact reports_log (.found ht) s
  | attach index seconds =>
    obtain ⟨-, -, -, -, rfl, -⟩ := Decision.of_eq_attach_iff.1 hdecision
    simp only [enact, logDefinition_of_described ht, map_bind, map_pure]
    exact reports_change rfl (.attached index ht) s
  | create conflict =>
    simp only [enact, logDefinition_of_described ht, map_bind, map_pure]
    refine reports_bind ?_ fun _ _ => reports_change rfl (.created hk ht) _
    cases conflict with
    | none => exact leaves_pure ()
    | some e => exact leaves_log fun hw => by cases hw

/-- A stage for an index whose declaration can be described. -/
theorem reports_ensureIndex {keys : Value} {text : String} (hk : Definition.keys d = .ok keys)
    (ht : d.describe collection = .ok text) (s : σ) :
    Reports answer target (.index collection d)
      (Deed.ofOutcome <$> ensureIndex target collection d) s := by
  rw [ensureIndex, hk, map_bind]
  refine reports_bind (leaves_require _) fun keys' hkeys => ?_
  obtain rfl := Except.ok.inj hkeys
  rw [map_bind]
  refine reports_bind ?_ fun found _ => reports_enact hk ht found _
  exact (leaves_call fun _ => rfl).bind fun xs => leaves_require _

end Reports

/-- The declaration of a stage for an index. -/
theorem mem_declared_of_mem_all {collection : String}
    (h : Stage.index collection d ∈ Stage.all) : d ∈ credentialIndexes ++ sessionIndexes := by
  refine List.mem_append.2 ?_
  simp only [Stage.all_eq, Stage.ofEntry, List.mem_append, List.mem_cons, List.mem_map,
    reduceCtorEq, false_or, Stage.index.injEq] at h
  rcases h with ⟨d', hd, -, rfl⟩ | ⟨d', hd, -, rfl⟩
  · exact .inl hd
  · exact .inr hd

theorem regular_of_mem_all {collection : String} (h : Stage.index collection d ∈ Stage.all) :
    ∃ field, Regular d field :=
  regular_declared d (mem_declared_of_mem_all h)

/-- Every stage is seen to do what it does. -/
theorem reports_stage {stage : Stage} (h : stage ∈ Stage.all) (s : σ) :
    Reports answer target stage (stage.attempt target) s := by
  cases stage with
  | collection name => exact reports_ensureCollection name s
  | index collection d =>
    obtain ⟨field, hd⟩ := regular_of_mem_all h
    obtain ⟨text, ht⟩ := hd.describe collection
    exact reports_ensureIndex hd.keys ht s

/-! ### Stages in a row -/

/-- A stage that has been gone through: what has been done, and the trace of it. -/
structure Leg where
  stage : Stage
  deed : Deed
  events : List Event

/-- Whether a stage for an index has been gone through without any call that changes something. -/
def Leg.spares (leg : Leg) : Bool := leg.stage.isIndex && (changes leg.events).isEmpty

/-- Stages that are gone through one after the other, from one state to another. -/
inductive Course (answer : Handler σ) (target : String) : σ → List Leg → σ → Prop
  | nil (s : σ) : Course answer target s [] s
  | cons {s u : σ} {leg : Leg} {legs : List Leg}
    (result : result answer (leg.stage.attempt target) s = .ok leg.deed)
    (trace : trace answer (leg.stage.attempt target) s = leg.events)
    (rest : Course answer target (final answer (leg.stage.attempt target) s) legs u) :
    Course answer target s (leg :: legs) u

/-- Going through some stages has led through these legs, up to the end or up to a stage that has
failed. -/
def Led (answer : Handler σ) (target : String) (stages : List Stage) (legs : List Leg) (u : σ) :
    Except Error (List Deed) → List Event → σ → Prop
  | .ok deeds, t, m => legs.map Leg.stage = stages ∧ deeds = legs.map Leg.deed
      ∧ t = legs.flatMap Leg.events ∧ m = u
  | .error e, t, _ => ∃ stage others, stages = legs.map Leg.stage ++ stage :: others
      ∧ result answer (stage.attempt target) u = .error e
      ∧ t = legs.flatMap Leg.events ++ trace answer (stage.attempt target) u

theorem course_attempts (answer : Handler σ) (target : String) (stages : List Stage) (s : σ) :
    ∃ legs u, Course answer target s legs u ∧ Led answer target stages legs u
      (result answer (attempts target stages) s) (trace answer (attempts target stages) s)
      (final answer (attempts target stages) s) := by
  induction stages generalizing s with
  | nil => exact ⟨[], s, .nil s, rfl, rfl, rfl, rfl⟩
  | cons stage stages ih =>
    rw [attempts]
    cases hr : result answer (stage.attempt target) s with
    | error e =>
      refine ⟨[], s, .nil s, ?_⟩
      rw [result_bind_of_error hr, trace_bind_of_error hr]
      exact ⟨stage, stages, rfl, hr, rfl⟩
    | ok deed =>
      obtain ⟨legs, u, hcourse, hled⟩ := ih (final answer (stage.attempt target) s)
      refine ⟨⟨stage, deed, trace answer (stage.attempt target) s⟩ :: legs, u,
        .cons hr rfl hcourse, ?_⟩
      rw [result_bind_of_ok hr, trace_bind_of_ok hr, final_bind_of_ok hr]
      cases ho : result answer (attempts target stages) (final answer (stage.attempt target) s) with
      | error e =>
        rw [ho] at hled
        obtain ⟨stage', others, rfl, hfailed, ht⟩ := hled
        rw [result_bind_of_error ho, trace_bind_of_error ho]
        exact ⟨stage', others, rfl, hfailed, by simp [ht]⟩
      | ok deeds =>
        rw [ho] at hled
        obtain ⟨rfl, rfl, ht, hm⟩ := hled
        rw [result_bind_of_ok ho, trace_bind_of_ok ho, final_bind_of_ok ho]
        exact ⟨rfl, rfl, by simp [ht], hm⟩

/-- Every leg of a course shows what has been done on it. -/
theorem Course.reported {legs : List Leg} (h : Course answer target s legs u)
    (hall : ∀ leg ∈ legs, leg.stage ∈ Stage.all) :
    ∀ leg ∈ legs, StageSeen target leg.stage (.ok leg.deed) leg.events := by
  induction h with
  | nil s => exact nofun
  | @cons s u leg legs hresult htrace rest ih =>
    obtain ⟨hleg, hlegs⟩ := List.forall_mem_cons.1 hall
    have hreports : Reports answer target leg.stage (leg.stage.attempt target) s :=
      reports_stage hleg s
    rw [Reports, hresult, htrace] at hreports
    exact List.forall_mem_cons.2 ⟨hreports, ih hlegs⟩

/-! ### Telling the deeds apart -/

namespace Deed

/-- How the record of a deed begins. -/
def beginning : Deed → String
  | .present => "Collection "
  | .opened => "Created collection: "
  | .found => "Index already exists: "
  | .created => "Created index: "
  | .attached => "Attached TTL to index "

/-- The kind of the call that a deed consists in, if it is one. -/
def kind? : Deed → Option Call.Kind
  | .present | .found => none
  | .opened => some .createCollection
  | .created => some .createIndex
  | .attached => some .expireIndex

/-- Whether a message begins as the record of a deed does. -/
def tells (deed : Deed) (message : String) : Bool :=
  deed.beginning.toList.isPrefixOf message.toList

end Deed

/-- A record tells the deed that it goes with, and no other. -/
theorem Shown.tells {stage : Stage} {deed : Deed} {cs : List Call} {message : String}
    (h : Shown target stage deed cs message) (deed' : Deed) :
    deed'.tells message = decide (deed = deed') := by
  cases h <;> cases deed' <;> simp only [Deed.tells, String.toList_append] <;> rfl

/-- The calls that go with a deed are of its kind. -/
theorem Shown.kinds {stage : Stage} {deed : Deed} {cs : List Call} {message : String}
    (h : Shown target stage deed cs message) : cs.map Call.kind = deed.kind?.toList := by
  cases h <;> rfl

/-- Nothing is changed where a collection or an index is found. -/
theorem Shown.isEmpty_eq {stage : Stage} {deed : Deed} {cs : List Call} {message : String}
    (h : Shown target stage deed cs message) :
    cs.isEmpty = decide (deed ∈ [.present, .found]) := by
  cases h <;> rfl

/-- An index is found where nothing is changed. -/
theorem Shown.found_iff {stage : Stage} {deed : Deed} {cs : List Call} {message : String}
    (h : Shown target stage deed cs message) :
    deed = .found ↔ (stage.isIndex && cs.isEmpty) = true := by
  cases h <;> simp [Stage.isIndex]

/-- Deeds are done about collections or about indexes. -/
theorem Shown.isIndex_eq {stage : Stage} {deed : Deed} {cs : List Call} {message : String}
    (h : Shown target stage deed cs message) :
    stage.isIndex = decide (deed ∈ [.created, .found, .attached]) := by
  cases h <;> rfl

/-- Deeds of one kind are the same. -/
theorem Deed.eq_of_kind? {deed deed' : Deed} {kind : Call.Kind} (h : deed.kind? = some kind)
    (h' : deed'.kind? = some kind) : deed = deed' := by
  cases deed <;> cases h <;> cases deed' <;> first | rfl | exact nomatch h'

/-! ### The accounts of a course -/

section Accounts

variable {legs : List Leg}

/-- What is related leg by leg is related on the whole. -/
theorem forall₂_flatMap {α β : Type} {R : α → β → Prop} {f : Leg → List α} {g : Leg → List β}
    (h : ∀ leg ∈ legs, List.Forall₂ R (f leg) (g leg)) :
    List.Forall₂ R (legs.flatMap f) (legs.flatMap g) := by
  induction legs with
  | nil => exact .nil
  | cons leg legs ih =>
    obtain ⟨hleg, hlegs⟩ := List.forall_mem_cons.1 h
    simpa only [List.flatMap_cons] using List.rel_append hleg (ih hlegs)

theorem infos_flatMap (legs : List Leg) :
    infos (legs.flatMap Leg.events) = legs.flatMap fun leg => infos leg.events :=
  List.filterMap_flatMap ..

theorem granted_flatMap (legs : List Leg) :
    granted (legs.flatMap Leg.events) = legs.flatMap fun leg => granted leg.events :=
  List.filterMap_flatMap ..

theorem filter_eq_flatMap (p : Leg → Bool) (legs : List Leg) :
    legs.filter p = legs.flatMap fun leg => [leg].filter p := by
  rw [← List.filter_flatMap, List.flatMap_singleton']

section StageSeen

variable (hreported : ∀ leg ∈ legs, StageSeen target leg.stage (.ok leg.deed) leg.events)

include hreported

/-- The records of some deeds belong one by one to the legs on which these have been done. -/
theorem forall₂_told_legs (deeds : List Deed) :
    List.Forall₂ (fun message leg => Shown target leg.stage leg.deed (granted leg.events) message)
      ((infos (legs.flatMap Leg.events)).filter fun message => deeds.any (·.tells message))
      (legs.filter fun leg => leg.deed ∈ deeds) := by
  rw [infos_flatMap, List.filter_flatMap, filter_eq_flatMap]
  refine forall₂_flatMap fun leg hleg => ?_
  obtain ⟨-, message, hm, hshown⟩ := hreported leg hleg
  have htells : deeds.any (·.tells message) = decide (leg.deed ∈ deeds) := by
    simp [hshown.tells, List.any_eq, eq_comm]
  by_cases hdeed : leg.deed ∈ deeds
  · simpa [hm, htells, hdeed] using hshown
  · simp [hm, htells, hdeed]

/-- The records of a deed that is a call belong one by one to the granted calls of its kind. -/
theorem forall₂_told_granted {deed : Deed} {kind : Call.Kind} (hkind : deed.kind? = some kind) :
    List.Forall₂
      (fun message c => ∃ stage ∈ legs.map Leg.stage, Shown target stage deed [c] message)
      ((infos (legs.flatMap Leg.events)).filter deed.tells)
      ((granted (legs.flatMap Leg.events)).filter (·.kind = kind)) := by
  rw [infos_flatMap, granted_flatMap, List.filter_flatMap, List.filter_flatMap]
  refine forall₂_flatMap fun leg hleg => ?_
  obtain ⟨-, message, hm, hshown⟩ := hreported leg hleg
  have htells := hshown.tells deed
  have hkinds := hshown.kinds
  by_cases hdeed : leg.deed = deed
  · rw [hdeed, hkind] at hkinds
    obtain ⟨c, hc, hckind⟩ := List.map_eq_singleton_iff.1 hkinds
    have hstage : leg.stage ∈ legs.map Leg.stage := List.mem_map_of_mem hleg
    rw [hc, hdeed] at hshown
    simpa [hm, hc, htells, hdeed, hckind] using ⟨leg, hleg, hshown⟩
  · have hnone : ∀ c ∈ granted leg.events, c.kind ≠ kind := by
      rintro c hc rfl
      have hmem : c.kind ∈ leg.deed.kind?.toList := hkinds ▸ List.mem_map_of_mem hc
      exact hdeed (Deed.eq_of_kind? (by simpa using hmem) hkind)
    simpa [hm, htells, hdeed] using hnone

/-- A deed that is a call has been done as often as calls of its kind have been granted. -/
theorem count_deed {deed : Deed} {kind : Call.Kind} (hkind : deed.kind? = some kind) :
    (legs.map Leg.deed).count deed
      = ((granted (legs.flatMap Leg.events)).filter (·.kind = kind)).length := by
  have hlegs := (forall₂_told_legs hreported [deed]).length_eq
  have hcalls := (forall₂_told_granted hreported hkind).length_eq
  simp only [List.any_cons, List.any_nil, Bool.or_false, List.mem_singleton] at hlegs
  rw [← hcalls, hlegs, List.count, List.countP_map, List.countP_eq_length_filter]
  rfl

/-- An index has been found on every leg for an index on which nothing has been changed. -/
theorem count_found : (legs.map Leg.deed).count .found = legs.countP Leg.spares := by
  rw [List.count, List.countP_map]
  refine List.countP_congr fun leg hleg => ?_
  obtain ⟨hchanges, message, -, hshown⟩ := hreported leg hleg
  rw [Leg.spares, hchanges, ← hshown.found_iff]
  exact beq_iff_eq

/-- What has been done on the legs for indexes has been counted. -/
theorem count_indexes : (legs.map Leg.deed).count .created + (legs.map Leg.deed).count .found
    + (legs.map Leg.deed).count .attached = (legs.map Leg.stage).countP Stage.isIndex := by
  induction legs with
  | nil => rfl
  | cons leg legs ih =>
    obtain ⟨⟨-, message, -, hshown⟩, hlegs⟩ := List.forall_mem_cons.1 hreported
    simp only [List.map_cons, List.count_cons, List.countP_cons, hshown.isIndex_eq, ← ih hlegs]
    cases leg.deed <;> simp <;> omega

end StageSeen

end Accounts

end Schema

end Provisioner
