import Provisioner.Proofs.Schema.InterruptedRun
import Provisioner.Proofs.Schema.Stage
import Provisioner.Proofs.Schema.ServedDeclaration

/-!
# Warnings about conflicts

An index that is in the way of a declaration is left as it is, and a warning is left about it. The
declared index is asked for all the same. Whoever reads the warning may therefore rely on two
things: that the index which it names has the keys of the declaration at this moment, and that the
request for the declaration comes next. Both are shown here for every warning in the trace of
applying the schema, over any server that is careful with its contents.

The contents at a place in a trace are those after the calls before it, so the proof goes along the
trace: of two attempts in a row the calls of the second one come after all calls of the first one.

## Main definitions

* `Schema.InTheWay` — an index with the given keys, and the warning about it
* `Schema.Heeded` — every warning is followed by the request against which it warns

## Main results

* `Procedure.after_bind_of_lt`, `after_bind_add` — the states during two procedures in a row
* `Schema.Heeded.bind` — two attempts in a row
* `Schema.heeded_apply` — every warning that applying the schema leaves
-/

namespace Provisioner

open Store

/-! ### The states during two procedures in a row -/

namespace Procedure

variable {α β σ : Type} (answer : Handler σ)

/-- As long as the first one goes on, the second one does not matter. -/
theorem after_bind_of_lt (p : Procedure α) (f : α → Procedure β) {k : Nat} {s : σ}
    (hk : k < (Event.calls (trace answer p s)).length) :
    after answer (p.bind f) k s = after answer p k s := by
  induction p generalizing k s with
  | done value => exact absurd hk (Nat.not_lt_zero k)
  | leave n rest ih => exact ih hk
  | ask c rest ih =>
    cases k with
    | zero => rfl
    | succ k => exact ih _ (Nat.lt_of_succ_lt_succ hk)

/-- After all of its calls come those of the second one. -/
theorem after_bind_add (p : Procedure α) (f : α → Procedure β) (k : Nat) (s : σ) :
    after answer (p.bind f) ((Event.calls (trace answer p s)).length + k) s
      = after answer (f (result answer p s)) k (final answer p s) := by
  induction p generalizing s with
  | done value =>
    have hlength : (Event.calls (trace answer (.done value : Procedure α) s)).length + k = k :=
      Nat.zero_add k
    rw [hlength]
    rfl
  | leave n rest ih => exact ih s
  | ask c rest ih =>
    have hlength : (Event.calls (trace answer (.ask c rest) s)).length + k
        = (Event.calls (trace answer (rest (answer c s).1) (answer c s).2)).length + k + 1 :=
      Nat.succ_add ..
    rw [hlength]
    exact ih _ _

end Procedure

namespace Schema

open Attempt Procedure

variable {α β σ : Type} {answer : Handler σ} {store : σ → Store} {target : String} {s : σ}

/-- Among the indexes of a collection there is one with these keys, and this is the warning about
it. -/
def InTheWay (xs : Indexes) (collection : String) (keys : Value) (message : String) : Prop :=
  ∃ name info, (name, info) ∈ xs ∧ Info.hasKeys info (.ok keys) = .ok true
    ∧ message = "Index " ++ name ++ " on " ++ collection ++ " has conflicting options: "
      ++ (Value.doc info).render

/-- What happens next, in a given state, is the request for an index against which a warning has
been left. -/
def Pressed (store : σ → Store) (target message : String) (next : List Event) (m : σ) : Prop :=
  ∃ collection keys options error later,
    next = .call (.createIndex target collection keys options) error :: later
      ∧ InTheWay ((store m).indexes target collection) collection keys message

/-- Every warning is followed by the request against which it has been left. -/
def Heeded (answer : Handler σ) (store : σ → Store) (target : String) (x : Attempt α) (s : σ) :
    Prop :=
  ∀ before message next, trace answer x s = before ++ .notice (.record .warning message) :: next →
    Pressed store target message next (after answer x (Event.calls before).length s)

/-- An event that is not a warning. -/
def Unwarned : Event → Prop
  | .notice (.record level _) => level ≠ .warning
  | _ => True

/-- Where there is no warning there is nothing to heed. -/
theorem heeded_of_leaves {x : Attempt α} (h : Leaves answer Unwarned x) (s : σ) :
    Heeded answer store target x s := by
  intro before message next ht
  have hwarning : Unwarned (.notice (.record .warning message)) :=
    h s _ (ht ▸ List.mem_append_right _ List.mem_cons_self)
  exact absurd rfl hwarning

/-- What is heeded while the first of two attempts is made is heeded also if there is another one
after it. -/
theorem Heeded.first {x : Attempt α} (h : Heeded answer store target x s) (f : α → Attempt β)
    {before next : List Event} {message : String}
    (ht : trace answer x s = before ++ .notice (.record .warning message) :: next)
    (others : List Event) :
    Pressed store target message (next ++ others)
      (after answer (x >>= f : Attempt β) (Event.calls before).length s) := by
  obtain ⟨collection, keys, options, error, later, rfl, hway⟩ := h before message next ht
  have hlt : (Event.calls before).length < (Event.calls (trace answer x s)).length := by
    simp [ht, Event.calls]
  refine ⟨collection, keys, options, error, later ++ others, rfl, ?_⟩
  show InTheWay ((store (after answer (Procedure.bind x (ExceptT.bindCont f))
    (Event.calls before).length s)).indexes target collection) collection keys message
  rw [after_bind_of_lt _ _ _ hlt]
  exact hway

/-- Of two attempts in a row, the second one is only made if the first one succeeds. -/
theorem Heeded.bind {x : Attempt α} {f : α → Attempt β} (hx : Heeded answer store target x s)
    (hf : ∀ a, result answer x s = .ok a → Heeded answer store target (f a) (final answer x s)) :
    Heeded answer store target (x >>= f) s := by
  intro before message next ht
  cases h : result answer x s with
  | error e =>
    rw [trace_bind_of_error h] at ht
    simpa using hx.first f ht []
  | ok a =>
    rw [trace_bind_of_ok h] at ht
    -- Where the warning belongs to the second attempt, all calls of the first one come before it.
    have hsecond : ∀ own, before = trace answer x s ++ own →
        trace answer (f a) (final answer x s) = own ++ .notice (.record .warning message) :: next →
        Pressed store target message next
          (after answer (x >>= f : Attempt β) (Event.calls before).length s) := by
      rintro own rfl hown
      have hpressed := hf a h own message next hown
      have hafter := after_bind_add answer x (ExceptT.bindCont f)
        (Event.calls own).length s
      rw [h] at hafter
      rw [Event.calls_append, List.length_append]
      exact hafter.symm ▸ hpressed
    rcases List.append_eq_append_iff.1 ht with ⟨own, hbefore, hown⟩ | ⟨own, hx', hown⟩
    · exact hsecond own hbefore hown
    · cases own with
      | nil => exact hsecond [] (by simpa using hx'.symm) hown.symm
      | cons e own =>
        obtain ⟨rfl, rfl⟩ := List.cons.inj hown
        exact hx.first f hx' _

/-! ### The steps -/

section Steps

variable {collection : String} {d : Definition} {keys : Value} {xs : Indexes}
  {found : Option (String × Info)}

theorem unwarned_logDefinition (message collection : String) (d : Definition) :
    Leaves answer Unwarned (logDefinition message collection d) :=
  (leaves_require _).bind fun _ => leaves_log (by simp [Unwarned])

/-- Of the index that is in the way it is known that it has been found. -/
theorem eq_of_create {conflict : Option (String × Info)}
    (h : Decision.of found d = .create conflict) : conflict = found := by
  cases found with
  | none => exact (Decision.create.inj h).symm
  | some e =>
    simp only [Decision.of] at h
    split at h
    · split at h
      · cases h
      · split at h
        · cases h
        · exact (Decision.create.inj h).symm
    · exact (Decision.create.inj h).symm

/-- A warning about an index that is in the way, and then the request. -/
theorem heeded_request {e : String × Info} {options : Document}
    (he : e ∈ (store s).indexes target collection)
    (hkeys : Info.hasKeys e.2 (.ok keys) = .ok true) :
    Heeded answer store target (do
      warnConflict collection (some e)
      call (.createIndex target collection keys options) : Attempt Unit) s := by
  intro before message next ht
  have htrace : trace answer (do
      warnConflict collection (some e)
      call (.createIndex target collection keys options) : Attempt Unit) s
        = [.notice (.record .warning ("Index " ++ e.1 ++ " on " ++ collection
            ++ " has conflicting options: " ++ (Value.doc e.2).render)),
          .call (.createIndex target collection keys options)
            (errorOf (answer (.createIndex target collection keys options) s).1)] := rfl
  rw [htrace] at ht
  match before with
  | [] =>
    simp only [List.nil_append, List.cons.injEq, Event.notice.injEq, Notice.record.injEq] at ht
    obtain ⟨⟨-, rfl⟩, rfl⟩ := ht
    exact ⟨collection, keys, options, _, [], rfl, e.1, e.2, he, hkeys, rfl⟩
  | [_] => simp at ht
  | _ :: _ :: _ => simp at ht

/-- The only warning is that about an index that has been found, and the request follows it. -/
theorem heeded_enact (hx : (store s).indexes target collection = xs)
    (hf : Indexes.find? keys xs = .ok found) :
    Heeded answer store target (enact target collection d keys (.of found d)) s := by
  have hrecord : ∀ message (o : Outcome), Leaves answer Unwarned (do
      logDefinition message collection d
      return o) := fun message o =>
    Leaves.bind (unwarned_logDefinition message collection d) fun _ => leaves_pure o
  cases hdecision : Decision.of found d with
  | keep => exact heeded_of_leaves (hrecord _ _) s
  | attach index seconds =>
    exact heeded_of_leaves (Leaves.bind (leaves_call fun _ => trivial) fun _ => hrecord _ _) s
  | create conflict =>
    cases eq_of_create hdecision
    cases found with
    | none =>
      exact heeded_of_leaves (Leaves.bind (leaves_call fun _ => trivial) fun _ => hrecord _ _) s
    | some e =>
      have he : e ∈ (store s).indexes target collection := hx ▸ Indexes.mem_of_find? hf
      have hrequest : Heeded answer store target (do
          warnConflict collection (some e)
          call (.createIndex target collection keys (Definition.options d)) : Attempt Unit) s :=
        heeded_request he (Indexes.hasKeys_of_find? hf)
      have hassoc : enact target collection d keys (.create (some e)) = (do
          warnConflict collection (some e)
          call (.createIndex target collection keys (Definition.options d)) : Attempt Unit)
          >>= fun _ => logDefinition "Created index" collection d >>= fun _ => pure .created :=
        (bind_assoc (m := Attempt) _ _ _).symm
      rw [hassoc]
      exact hrequest.bind fun _ _ => heeded_of_leaves (hrecord _ _) _

/-- Between the listing of the indexes and the request nothing else happens. -/
theorem heeded_ensureIndex (h : answer.Careful store) (target collection : String) (d : Definition)
    (s : σ) : Heeded answer store target (ensureIndex target collection d) s := by
  refine Heeded.bind (heeded_of_leaves (leaves_require _) s) fun keys hkeys => ?_
  have hidle : Leaves answer Unwarned (findIndex target collection keys) :=
    (leaves_call fun _ => trivial).bind fun xs => leaves_require _
  refine Heeded.bind (heeded_of_leaves hidle _) fun found hfound => ?_
  rw [final_require] at hfound ⊢
  obtain ⟨xs, hlisting, hfirst⟩ := result_findIndex_eq_ok_iff.1 hfound
  have hxs := (h.allowed (.listIndexes target collection) s).2 xs hlisting
  rw [final_findIndex]
  refine heeded_enact ?_ hfirst
  rw [hxs, (reached_listed h target collection s).indexes]

theorem heeded_stage (h : answer.Careful store) (target : String) (stage : Stage) (s : σ) :
    Heeded answer store target (stage.attempt target) s := by
  cases stage with
  | index collection d =>
    rw [Stage.attempt, map_eq_pure_bind]
    exact (heeded_ensureIndex h target collection d s).bind fun o _ =>
      heeded_of_leaves (leaves_pure _) _
  | collection name =>
    refine heeded_of_leaves ?_ s
    rw [Stage.attempt, map_eq_pure_bind]
    refine Leaves.bind (Leaves.bind (leaves_call fun _ => trivial) fun names => ?_) fun _ =>
      leaves_pure _
    split
    · exact (leaves_log (by simp [Unwarned])).bind fun _ => leaves_pure _
    · refine Leaves.bind (leaves_call fun _ => trivial) fun _ => ?_
      exact (leaves_log (by simp [Unwarned])).bind fun _ => leaves_pure _

end Steps

/-! ### Applying the schema -/

theorem heeded_attempts (h : answer.Careful store) (target : String) (stages : List Stage) (s : σ) :
    Heeded answer store target (attempts target stages) s := by
  induction stages generalizing s with
  | nil => exact heeded_of_leaves (leaves_pure _) s
  | cons stage stages ih =>
    exact (heeded_stage h target stage s).bind fun deed _ =>
      (ih _).bind fun deeds _ => heeded_of_leaves (leaves_pure _) _

theorem heeded_apply (h : answer.Careful store) (target : String) (s : σ) :
    Heeded answer store target (apply target) s := by
  rw [apply_eq]
  refine Heeded.bind (heeded_of_leaves (leaves_log (by simp [Unwarned])) s) fun _ _ => ?_
  refine (heeded_attempts h target Stage.all _).bind fun deeds _ => heeded_of_leaves ?_ _
  have hinfo : ∀ message, Leaves answer Unwarned (log .info message) := fun message =>
    leaves_log (by simp [Unwarned])
  have hclosing : ∀ summary, Leaves answer Unwarned (do
      log .info "Schema verified: all declared indexes present"
      log .info summary
      print confirmation) := fun summary =>
    (hinfo _).bind fun _ => (hinfo summary).bind fun _ _ _ he => List.mem_singleton.1 he ▸ trivial
  refine (leaves_missingIn fun _ _ => trivial).bind fun missing => ?_
  dsimp only
  split
  · exact (leaves_require _).bind fun _ => hclosing _
  · exact hclosing _

end Schema

end Provisioner
