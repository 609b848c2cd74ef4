import Provisioner.Proofs.Index.MissingReport
import Provisioner.Proofs.Schema.DeclarationOrder

/-!
# Under which name an index is reported, and under which it is created

Two names are made for a declared index, in two places. A report on missing indexes makes it from
the keys, and from nothing else. A request for the index passes all options on, and the server makes
the name from the keys only if there is none among the options.

So an index that is reported missing, and created then, bears the reported name as long as no other
one is given to it. This holds for all keys that are pairs, whatever their directions and however
these are written, since both names are made from the keys as the declaration has them. The declared
indexes are not given names. An index that is given another one than the default is created under
that, and reported under a name that it will not have.

## Main definitions

* `Definition.given?` — the name that is given to a declared index

## Main results

* `Definition.name_eq_iff` — when an index has the default name of its keys
* `Indexes.label_declared` — the names of the declared indexes are the same in both places
* `Schema.indexes_of_created` — what there is after an index has been created
* `Schema.named_of_reported` — the name that is reported, and the name that is stored
* `Schema.misnamed_reported` — an index that is reported under another name than it gets
-/

namespace Provisioner

open Store

/-! ### Given names -/

namespace Definition

variable {d : Definition} {ps : List (Value × Value)}

/-- The name that is given to a declared index, if there is one. -/
def given? (d : Definition) : Option String :=
  let given := Document.field (options d) "name"
  if given.isNull then none else some given.shown

theorem name_eq (d : Definition) : d.name = d.given?.getD d.defaultName := by
  by_cases h : (Document.field (options d) "name").isNull = true <;> simp [name, given?, h]

/-- An index has the default name of its keys unless it is given another one. -/
theorem name_eq_iff (hk : Definition.keys d = .ok (Value.ofPairs ps)) :
    d.name = Index.joinName ps ↔ ∀ given, d.given? = some given → given = Index.joinName ps := by
  rw [name_eq, defaultName, pattern_of_keys hk]
  cases d.given? <;> simp

end Definition

namespace Indexes

variable {xs : Indexes} {d : Definition} {collection line : String}

/-- A declaration is reported if the search for an index that serves it ends in vain. -/
theorem missing_singleton_eq_ok_iff : missing collection xs [d] = .ok [line]
    ↔ satisfy d xs = .ok false ∧ label collection d = .ok line := by
  rw [missing, absent]
  cases satisfy d xs with
  | error e => simp [bind, Except.bind]
  | ok fit =>
    cases fit <;> cases label collection d <;>
      simp [missing, bind, Except.bind, pure, Except.pure]

open Schema in
/-- The declared indexes are not given names, and so they are reported under the names under which
they are created. -/
theorem label_declared (hd : d ∈ credentialIndexes ++ sessionIndexes) :
    label collection d = .ok (collection ++ "." ++ d.name) := by
  obtain ⟨field, hregular⟩ := regular_declared d hd
  have hname : d.name = Index.joinName (fieldKeys field) := by
    refine (Definition.name_eq_iff hregular.keys).2 fun given hgiven => ?_
    rw [Definition.given?, hregular.unnamed] at hgiven
    contradiction
  rw [label_of_keys hregular.keys, hname]

end Indexes

namespace Schema

open Attempt Procedure

variable {d : Definition} {ps : List (Value × Value)} {database collection : String} {s : Server}

/-! ### One index that is created -/

/-- After an index has been created, either the collection has it as it has been asked for, or it
has been added, under a name that was not taken. -/
theorem indexes_of_created (hk : Definition.keys d = .ok (Value.ofPairs ps))
    (hr : result Server.answer (ensureIndex database collection d) s = .ok .created) :
    let before := s.store.indexesOrFresh database collection
    let after := (final Server.answer (ensureIndex database collection d) s).store.indexes?
      database collection
    Indexes.Repeated before d.name ps d.recorded ∧ after = some before
      ∨ Indexes.Unclaimed before d.name ps
        ∧ after = some (before ++ [(d.name, Indexes.record ps d.recorded)]) := by
  intro before after
  obtain ⟨keys, xs, found, hseen, hcalled, hfinal⟩ := ensureIndex_eq_ok hr
  obtain rfl := Except.ok.inj (hk.symm.trans hseen.declared)
  rw [result_ensureIndex hseen.declared hseen.listing hseen.first] at hr
  have ho := outcome_of_enact hr
  cases hdec : Decision.of found d with
  | keep => simp [hdec, outcomeOf] at ho
  | attach index seconds => simp [hdec, outcomeOf] at ho
  | create conflict =>
    rw [hdec] at hcalled hfinal
    have hlisted := reached_listed Server.careful database collection s
    have hafter := Server.createIndex_eq_ok (indexesOrFresh_of_reached hlisted collection)
      (Definition.request_of_keys hk) hcalled
    simp only [after, hfinal]
    exact hafter

/-! ### Both names -/

/-- **Reported and created names.** If verifying a declaration reports it missing, and ensuring it
then says that it is created, then what has been reported is the default name of its keys, and what
is added is the declared index under its name: the two are the same if and only if the declaration
gives no other name. Nothing but this index is added; and if no names are repeated on the server,
then it is added in any case, unless there was no collection and what is declared is the index that
every new one has. -/
theorem named_of_reported (hk : Definition.keys d = .ok (Value.ofPairs ps)) {line : String}
    (hm : result Server.answer (missingIndexes database collection [d]) s = .ok [line])
    (hr : result Server.answer (ensureIndex database collection d)
      (final Server.answer (missingIndexes database collection [d]) s) = .ok .created) :
    let before := s.store.indexesOrFresh database collection
    let after := (final Server.answer (ensureIndex database collection d)
      (final Server.answer (missingIndexes database collection [d]) s)).store.indexes?
        database collection
    line = collection ++ "." ++ Index.joinName ps
      ∧ (after = some before
        ∨ d.name ∉ Assoc.keys before
          ∧ after = some (before ++ [(d.name, Indexes.record ps d.recorded)]))
      ∧ (s.store.Distinct → after = some before →
        s.store.indexes? database collection = none)
      ∧ (line = collection ++ "." ++ d.name
        ↔ ∀ given, d.given? = some given → given = Index.joinName ps) := by
  intro before after
  rw [result_missingIndexes_server] at hm
  obtain ⟨hunserved, hlabel⟩ := Indexes.missing_singleton_eq_ok_iff.1 hm
  have hline : line = collection ++ "." ++ Index.joinName ps :=
    Except.ok.inj (hlabel.symm.trans (Indexes.label_of_keys hk collection))
  have hbefore : (final Server.answer (missingIndexes database collection [d])
      s).store.indexesOrFresh database collection = before := by
    rw [final_missingIndexes]
    exact indexesOrFresh_of_reached (reached_listed Server.careful database collection s) collection
  have hcreated := indexes_of_created hk hr
  rw [hbefore] at hcreated
  refine ⟨hline, ?_, fun hdistinct hsame => ?_, ?_⟩
  · rcases hcreated with ⟨-, hafter⟩ | ⟨hnew, hafter⟩
    · exact .inl hafter
    · exact .inr ⟨hnew.name, hafter⟩
  · rcases hcreated with ⟨hrep, -⟩ | ⟨-, hafter⟩
    · cases hx : s.store.indexes? database collection with
      | none => rfl
      | some xs =>
        -- An index that is as it has been asked for would have served the declaration.
        rw [indexes_of_indexes? hx] at hunserved
        rw [show before = xs from indexesOrFresh_of_indexes? hx] at hrep
        obtain ⟨info, hg, hfits⟩ := hrep.fits (hdistinct.indexes? hx) hk
        exact absurd hunserved (Indexes.satisfy_ne_false ⟨_, Assoc.mem_of_get? hg, hfits⟩)
    · have hlength := congrArg (Option.map List.length) (hsame.symm.trans hafter)
      simp at hlength
  · rw [← Definition.name_eq_iff hk, hline, String.append_right_inj, eq_comm]

/-- A declaration of an index in both directions, under its default name. -/
def recent : Definition :=
  [("keys", Value.ofPairs [(.text "user_id", .int 1), (.text "expires_at", .int (-1))]), unique]

/-- It is reported under the name under which it is added then. -/
theorem named_recent :
    result Server.answer (missingIndexes "appdb" sessions [recent]) bareSessions
        = .ok ["auth_sessions.user_id_1_expires_at_-1"]
      ∧ result Server.answer (ensureIndex "appdb" sessions recent)
          (final Server.answer (missingIndexes "appdb" sessions [recent]) bareSessions)
        = .ok .created
      ∧ (final Server.answer (ensureIndex "appdb" sessions recent)
          (final Server.answer (missingIndexes "appdb" sessions [recent])
            bareSessions)).store.indexes? "appdb" sessions
        = some (Indexes.fresh ++ [(recent.name, Indexes.record recent.pattern recent.recorded)])
      ∧ "auth_sessions.user_id_1_expires_at_-1" = sessions ++ "." ++ recent.name := by
  have hm : result Server.answer (missingIndexes "appdb" sessions [recent]) bareSessions
      = .ok ["auth_sessions.user_id_1_expires_at_-1"] := rfl
  have hr : result Server.answer (ensureIndex "appdb" sessions recent)
      (final Server.answer (missingIndexes "appdb" sessions [recent]) bareSessions)
      = .ok .created := rfl
  obtain ⟨-, hafter, hadded, hnames⟩ := named_of_reported rfl hm hr
  refine ⟨hm, hr, ?_, hnames.2 fun given hgiven => nomatch hgiven⟩
  rcases hafter with hsame | ⟨-, hafter⟩
  · exact nomatch hadded (by decide) hsame
  · exact hafter

/-! ### Names that differ -/

/-- A declaration that gives the index a name of its own. -/
def byEmail : Definition := ascending "email" [("name", .text "by_email")]

/-- A server with credentials that have no indexes of their own. -/
def bareCredentials : Server where
  store := [("appdb", [(credentials, Indexes.fresh)])]
  clients := 0

/-- It is reported under the default name, and what is added has the given one. -/
theorem misnamed_reported :
    result Server.answer (missingIndexes "appdb" credentials [byEmail]) bareCredentials
        = .ok ["auth_credentials.email_1"]
      ∧ result Server.answer (ensureIndex "appdb" credentials byEmail)
          (final Server.answer (missingIndexes "appdb" credentials [byEmail]) bareCredentials)
        = .ok .created
      ∧ (∃ info, (final Server.answer (ensureIndex "appdb" credentials byEmail)
          (final Server.answer (missingIndexes "appdb" credentials [byEmail])
            bareCredentials)).store.indexes? "appdb" credentials
        = some (Indexes.fresh ++ [("by_email", info)]))
      ∧ "auth_credentials.email_1" ≠ credentials ++ "." ++ "by_email" :=
  ⟨rfl, rfl, ⟨_, rfl⟩, by decide⟩

end Schema

end Provisioner
