import Provisioner.Proofs.Schema.StageAccount
import Provisioner.Proofs.Schema.ConflictWarning

/-!
# What is reported of applying the schema

The records of a run, the calls that it has been granted and the numbers of its summary say the
same. This is put together here from what has been shown of the stages: the trace of a run is an
opening record, the traces of the stages that have been gone through, and an end. The end is the
trace of the stage that has failed, or that of the verification; neither of them grants a call that
changes something, and only a run that succeeds has records in it.

## Main definitions

* `Schema.Outlined` — the trace of a run, cut into stages
* `Schema.Accounted` — records, granted calls and summary agree

## Main results

* `Schema.outlined_apply` — every run can be cut into stages
* `Schema.accounted_apply` — records, calls and summary of every run agree
-/

namespace Provisioner

namespace Schema

open Attempt Procedure Event

variable {σ : Type} {answer : Handler σ} {store : σ → Store} {target : String} {s u : σ}
  {legs : List Leg}

/-! ### The end of a run -/

/-- What comes after the stages. -/
def finish (target : String) (deeds : List Deed) : Attempt Unit := do
  let missing ← verify target
  if missing ≠ [] then require (.error (.missingIndexes missing))
  log .info "Schema verified: all declared indexes present"
  log .info ("Schema summary: " ++ (Tally.of deeds).summary)
  print confirmation

/-- The records at the end of a run that has succeeded. -/
def finalInfos (t : Tally) : List String :=
  ["Schema verified: all declared indexes present", "Schema summary: " ++ t.summary]

theorem apply_eq_finish (target : String) : apply target = (do
    log .info ("Applying: " ++ description)
    let deeds ← attempts target Stage.all
    finish target deeds) := apply_eq target

/-- Nothing is changed any more, and there are records only if all ends well. -/
theorem ends_finish (answer : Handler σ) (target : String) (deeds : List Deed) (s : σ) :
    granted (trace answer (finish target deeds) s) = []
      ∧ ((∃ e, result answer (finish target deeds) s = .error e)
            ∧ infos (trace answer (finish target deeds) s) = []
        ∨ result answer (finish target deeds) s = .ok ()
            ∧ infos (trace answer (finish target deeds) s) = finalInfos (.of deeds)) := by
  have hidle : Leaves answer Idle (verify target) := leaves_missingIn fun _ _ => rfl
  have hgranted := granted_of_idle (hidle s)
  have hinfos := infos_of_idle (hidle s)
  rw [finish]
  cases h : result answer (verify target) s with
  | error e =>
    rw [trace_bind_of_error h, result_bind_of_error h]
    exact ⟨hgranted, .inl ⟨⟨e, rfl⟩, hinfos⟩⟩
  | ok missing =>
    rw [trace_bind_of_ok h, result_bind_of_ok h, granted_append, infos_append, hgranted, hinfos]
    cases missing with
    | nil => exact ⟨rfl, .inr ⟨rfl, rfl⟩⟩
    | cons name names => exact ⟨rfl, .inl ⟨⟨_, rfl⟩, rfl⟩⟩

/-! ### The stages of a run -/

/-- A run is cut into stages: an opening record, the stages that have been gone through, in their
order, and an end without changes. If a stage has failed the run has failed with its error, and if
the run has succeeded then all stages have been gone through. -/
structure Outlined (answer : Handler σ) (target : String) (s : σ) (legs : List Leg) (u : σ)
    (rest : List Event) : Prop where
  course : Course answer target s legs u
  ordered : legs.map Leg.stage <+: Stage.all
  failed : ∀ {stage others}, Stage.all = legs.map Leg.stage ++ stage :: others →
    ∃ e, result answer (stage.attempt target) u = .error e
      ∧ result answer (apply target) s = .error e
  trace : trace answer (apply target) s
    = .notice (.record .info ("Applying: " ++ description)) :: (legs.flatMap Leg.events ++ rest)
  unchanged : granted rest = []
  ending : (∃ e, result answer (apply target) s = .error e) ∧ infos rest = []
    ∨ result answer (apply target) s = .ok () ∧ legs.map Leg.stage = Stage.all
      ∧ infos rest = finalInfos (.of (legs.map Leg.deed))

/-- Every run can be cut into stages. -/
theorem outlined_apply (answer : Handler σ) (target : String) (s : σ) :
    ∃ legs u rest, Outlined answer target s legs u rest := by
  obtain ⟨legs, u, hcourse, hled⟩ := course_attempts answer target Stage.all s
  have hlog : result answer (log .info ("Applying: " ++ description)) s = .ok () := rfl
  have hresult : result answer (apply target) s
      = result answer (attempts target Stage.all >>= finish target : Attempt Unit) s := by
    rw [apply_eq_finish, result_bind_of_ok hlog, final_log]
  have htrace : Procedure.trace answer (apply target) s
      = .notice (.record .info ("Applying: " ++ description))
        :: Procedure.trace answer (attempts target Stage.all >>= finish target : Attempt Unit)
          s := by
    rw [apply_eq_finish, trace_bind_of_ok hlog, final_log]
    rfl
  cases h : result answer (attempts target Stage.all) s with
  | error e =>
    rw [h] at hled
    obtain ⟨stage, others, hall, hstage, ht⟩ := hled
    rw [result_bind_of_error h] at hresult
    rw [trace_bind_of_error h, ht] at htrace
    have hreports : Reports answer target stage (stage.attempt target) u :=
      reports_stage (hall ▸ by simp) u
    rw [Reports, hstage] at hreports
    refine ⟨legs, u, _, hcourse, ⟨stage :: others, hall.symm⟩, ?_, htrace, hreports.1,
      .inl ⟨⟨e, hresult⟩, hreports.2⟩⟩
    intro stage' others' hall'
    obtain ⟨rfl, -⟩ := List.cons.inj (List.append_cancel_left (hall.symm.trans hall'))
    exact ⟨e, hstage, hresult⟩
  | ok deeds =>
    rw [h] at hled
    obtain ⟨hall, rfl, ht, hm⟩ := hled
    rw [result_bind_of_ok h, hm] at hresult
    rw [trace_bind_of_ok h, hm, ht] at htrace
    obtain ⟨hgranted, hending⟩ := ends_finish answer target (legs.map Leg.deed) u
    refine ⟨legs, u, _, hcourse, ⟨[], by simp [hall]⟩, ?_, htrace, hgranted, ?_⟩
    · intro stage others hall'
      rw [hall] at hall'
      exact absurd (List.self_eq_append_right.1 hall') (List.cons_ne_nil _ _)
    · rw [hresult]
      exact hending.imp_right (And.imp_right (And.intro hall))

section Outlined

variable {rest : List Event} (h : Outlined answer target s legs u rest)

include h

/-- Every leg shows what has been done on it. -/
theorem Outlined.reported : ∀ leg ∈ legs, StageSeen target leg.stage (.ok leg.deed) leg.events :=
  h.course.reported fun _ hleg => h.ordered.subset (List.mem_map_of_mem hleg)

/-- Calls that change something have been granted on the legs only. -/
theorem Outlined.granted_trace :
    granted (Procedure.trace answer (apply target) s) = granted (legs.flatMap Leg.events) := by
  rw [h.trace, ← List.singleton_append, granted_append, granted_append, h.unchanged,
    List.append_nil]
  rfl

theorem Outlined.infos_trace : infos (Procedure.trace answer (apply target) s)
    = ("Applying: " ++ description) :: (infos (legs.flatMap Leg.events) ++ infos rest) := by
  rw [h.trace, ← List.singleton_append, infos_append, infos_append]
  rfl

/-- The other records are told apart from those of the legs. -/
theorem Outlined.filter_infos {p : String → Bool}
    (hopening : p ("Applying: " ++ description) = false)
    (hfinal : ∀ tally, ∀ message ∈ finalInfos tally, p message = false) :
    (infos (Procedure.trace answer (apply target) s)).filter p
      = (infos (legs.flatMap Leg.events)).filter p := by
  have hrest : (infos rest).filter p = [] := by
    refine List.filter_eq_nil_iff.2 fun message hm => ?_
    rcases h.ending with ⟨-, hinfos⟩ | ⟨-, -, hinfos⟩
    · rw [hinfos] at hm
      exact nomatch hm
    · rw [hinfos] at hm
      exact ne_true_of_eq_false (hfinal _ _ hm)
  rw [h.infos_trace, List.filter_cons_of_neg (ne_true_of_eq_false hopening), List.filter_append,
    hrest, List.append_nil]

end Outlined

/-- The opening record is not one of a deed. -/
theorem Deed.tells_opening (deed : Deed) : deed.tells ("Applying: " ++ description) = false := by
  cases deed <;> rfl

/-- Nor are the records at the end. -/
theorem Deed.tells_final (deed : Deed) (tally : Tally) :
    ∀ message ∈ finalInfos tally, deed.tells message = false := by
  simp only [finalInfos, List.forall_mem_cons, List.not_mem_nil, false_implies, implies_true,
    and_true]
  constructor
  · cases deed <;> rfl
  · cases deed <;> simp only [tells, String.toList_append] <;> rfl

/-- These speak of the schema. -/
theorem aboutSchema_final (tally : Tally) : ∀ message ∈ finalInfos tally, AboutSchema message := by
  simp only [finalInfos, List.forall_mem_cons, List.not_mem_nil, false_implies, implies_true,
    and_true]
  refine ⟨⟨"verified: all declared indexes present", rfl⟩, ⟨"summary: " ++ tally.summary, ?_⟩⟩
  rw [← String.append_assoc]
  rfl

/-- No other record is left than the opening one, one about a deed, or one about the schema. -/
theorem mem_infos_apply {message : String}
    (h : message ∈ infos (trace answer (apply target) s)) :
    message = "Applying: " ++ description ∨ (∃ deed : Deed, deed.tells message = true)
      ∨ AboutSchema message := by
  obtain ⟨legs, u, rest, hrun⟩ := outlined_apply answer target s
  rw [hrun.infos_trace, infos_flatMap, List.mem_cons, List.mem_append, List.mem_flatMap] at h
  rcases h with rfl | ⟨leg, hleg, hm⟩ | hm
  · exact .inl rfl
  · obtain ⟨-, message', hinfos, hshown⟩ := hrun.reported leg hleg
    obtain rfl := List.mem_singleton.1 (hinfos ▸ hm)
    exact .inr (.inl ⟨leg.deed, (hshown.tells _).trans (decide_eq_true rfl)⟩)
  · rcases hrun.ending with ⟨-, hinfos⟩ | ⟨-, -, hinfos⟩
    · rw [hinfos] at hm
      exact nomatch hm
    · rw [hinfos] at hm
      exact .inr (.inr (aboutSchema_final _ _ hm))

/-! ### The whole account -/

/-- How many calls of a kind have been granted. -/
def number (kind : Call.Kind) (t : List Event) : Nat := ((granted t).filter (·.kind = kind)).length

/-- What is reported of a run of applying the schema, with its result and its trace. -/
structure Accounted (answer : Handler σ) (store : σ → Store) (target : String) (s : σ)
    (legs : List Leg) (u : σ) (o : Except Error Unit) (t : List Event) : Prop where
  /-- Some stages have been gone through, one after the other, -/
  course : Course answer target s legs u
  /-- from the first one on and in their order, -/
  ordered : legs.map Leg.stage <+: Stage.all
  /-- each of them with one record. -/
  reported : ∀ leg ∈ legs, StageSeen target leg.stage (.ok leg.deed) leg.events
  /-- If they are not all, then the next one has failed, without a record. -/
  failed : ∀ {stage others}, Stage.all = legs.map Leg.stage ++ stage :: others →
    ∃ e, o = .error e ∧ result answer (stage.attempt target) u = .error e
      ∧ StageSeen target stage (.error e) (trace answer (stage.attempt target) u)
  /-- These are all records, but for the opening one and those about a success. -/
  records : ∃ last,
    infos t = ("Applying: " ++ description) :: (legs.flatMap fun leg => infos leg.events) ++ last
      ∧ ((∃ e, o = .error e) ∧ last = []
        ∨ o = .ok () ∧ legs.map Leg.stage = Stage.all
          ∧ last = ["Schema verified: all declared indexes present", "Schema summary: "
            ++ (toString (number .createCollection t) ++ " collections created, "
              ++ toString (number .createIndex t) ++ " indexes created, "
              ++ toString (legs.countP Leg.spares) ++ " already present, "
              ++ toString (number .expireIndex t) ++ " TTL attached")])
  /-- The records of a deed that is a call belong one by one to the granted calls, -/
  told : ∀ {deed kind}, deed.kind? = some kind →
    List.Forall₂ (fun message c => ∃ stage ∈ Stage.all, Shown target stage deed [c] message)
      ((infos t).filter deed.tells) ((granted t).filter (·.kind = kind))
  /-- and those of the others to the stages in which nothing has been changed. -/
  kept : List.Forall₂
    (fun message leg => Shown target leg.stage leg.deed (granted leg.events) message)
    ((infos t).filter fun message => Deed.present.tells message || Deed.found.tells message)
    (legs.filter fun leg => (changes leg.events).isEmpty)
  /-- The numbers for indexes add up to the number of declarations. -/
  total : o = .ok () → number .createIndex t + legs.countP Leg.spares + number .expireIndex t
    = (credentialIndexes ++ sessionIndexes).length
  /-- Every warning is followed by the request against which it has been left. -/
  heeded : Heeded answer store target (apply target) s

/-- **The account of a run.** Whatever a careful server contains and whichever calls it refuses, and
whether or not the run succeeds: the records, the granted calls and the summary agree. -/
theorem accounted_apply (h : answer.Careful store) (target : String) (s : σ) :
    ∃ legs u, Accounted answer store target s legs u (result answer (apply target) s)
      (trace answer (apply target) s) := by
  obtain ⟨legs, u, rest, hrun⟩ := outlined_apply answer target s
  have hreported := hrun.reported
  have hnumber : ∀ {deed kind}, deed.kind? = some kind →
      number kind (trace answer (apply target) s) = (legs.map Leg.deed).count deed := by
    intro deed kind hkind
    rw [number, hrun.granted_trace, count_deed hreported hkind]
  have hopened : number .createCollection (trace answer (apply target) s)
      = (legs.map Leg.deed).count .opened := hnumber rfl
  have hcreated : number .createIndex (trace answer (apply target) s)
      = (legs.map Leg.deed).count .created := hnumber rfl
  have hattached : number .expireIndex (trace answer (apply target) s)
      = (legs.map Leg.deed).count .attached := hnumber rfl
  have hfound := count_found hreported
  refine ⟨legs, u, hrun.course, hrun.ordered, hreported, fun {stage others} hall => ?_, ?_,
    fun {deed kind} hkind => ?_, ?_, fun hok => ?_, heeded_apply h target s⟩
  · obtain ⟨e, hstage, hresult⟩ := hrun.failed hall
    have hreports : Reports answer target stage (stage.attempt target) u :=
      reports_stage (hall ▸ by simp) u
    rw [Reports, hstage] at hreports
    exact ⟨e, hresult, hstage, hreports⟩
  · refine ⟨infos rest, by rw [hrun.infos_trace, infos_flatMap]; rfl, ?_⟩
    refine hrun.ending.imp_right (And.imp_right (And.imp_right fun hinfos => ?_))
    rw [hinfos, finalInfos, Tally.summary_eq, hopened, hcreated, hattached, ← hfound]
    rfl
  · rw [hrun.filter_infos deed.tells_opening deed.tells_final, hrun.granted_trace]
    refine (forall₂_told_granted hreported hkind).imp fun message c hshown => ?_
    obtain ⟨stage, hstage, hshown⟩ := hshown
    exact ⟨stage, hrun.ordered.subset hstage, hshown⟩
  · have hlegs := forall₂_told_legs hreported [.present, .found]
    have hidle : (legs.filter fun leg => leg.deed ∈ [Deed.present, .found])
        = legs.filter fun leg => (changes leg.events).isEmpty := by
      refine List.filter_congr fun leg hleg => ?_
      obtain ⟨hchanges, message, -, hshown⟩ := hreported leg hleg
      rw [hchanges, hshown.isEmpty_eq]
    simp only [List.any_cons, List.any_nil, Bool.or_false] at hlegs
    rwa [hrun.filter_infos, ← hidle]
    · simp [Deed.tells_opening]
    · intro tally message hm
      simp [Deed.tells_final _ tally message hm]
  · have hall : legs.map Leg.stage = Stage.all := by
      rcases hrun.ending with ⟨⟨e, he⟩, -⟩ | ⟨-, hall, -⟩
      · cases he.symm.trans hok
      · exact hall
    rw [hcreated, hattached, ← hfound, count_indexes hreported, hall]
    rfl

/-- Where the sessions have a plain index on the time of expiry, five indexes are created, this one
is found, and then it is given its time to live. -/
theorem accounted_apply_timeless :
    let t := trace Server.answer (apply "appdb") timelessServer
    Handler.Careful Server.answer Server.store
      ∧ (∃ legs u, Accounted Server.answer Server.store "appdb" timelessServer legs u
          (result Server.answer (apply "appdb") timelessServer) t)
      ∧ number .createCollection t = 1 ∧ number .createIndex t = 5 ∧ number .expireIndex t = 1 :=
  ⟨Server.careful, accounted_apply Server.careful "appdb" timelessServer, by decide +kernel,
    by decide +kernel, by decide +kernel⟩

end Schema

end Provisioner
