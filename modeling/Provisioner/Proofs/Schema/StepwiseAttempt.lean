import Provisioner.Proofs.Error.Failure

/-!
# Properties of attempts that compose

Applying the schema is put together from a few kinds of steps: values that are read, records that
are left, and calls that address the database. A property that two attempts in a row have if both
of them have it need therefore only be shown of these steps. It is shown here, once for all such
properties, that everything that comes before the announcement of the success then has it.

Records come in two kinds. Those that are left on the way tell what has been done about a
collection or an index; only the two that follow the verification speak of the schema as a whole.

## Main definitions

* `Attempt.Sequential` — a property that composes
* `Schema.AboutSchema` — the records that follow the verification
* `Schema.Collectionwise` — a property that composes, and that the steps have that concern one
  collection only
* `Schema.Stepwise` — a property that composes, and that all steps have

## Main results

* `Schema.Collectionwise.ensureIndex`, `Collectionwise.ensureIndexes` — it is a property of what
  concerns a collection
* `Schema.Stepwise.createCollection`, `Stepwise.verify`, `Stepwise.apply` — it is a property of all
  that is made of the steps
-/

namespace Provisioner

open Attempt

/-- A property of attempts that pure ones have, and two in a row if both of them have it. -/
structure Attempt.Sequential (P : (α : Type) → Attempt α → Prop) : Prop where
  pure : ∀ {α : Type} (a : α), P α (pure a)
  bind : ∀ {α β : Type} {x : Attempt α} {f : α → Attempt β}, P α x → (∀ a, P β (f a)) →
    P β (x >>= f)

namespace Schema

variable {database collection : String} {P : (α : Type) → Attempt α → Prop}

/-- A record about the schema as a whole. -/
def AboutSchema (message : String) : Prop := ∃ rest, message = "Schema " ++ rest

/-- No other record begins with the same letter. -/
theorem not_aboutSchema {message : String} {c : Char} (hm : message.toList.head? = some c)
    (hc : c ≠ 'S') : ¬ AboutSchema message := by
  rintro ⟨rest, rfl⟩
  rw [String.toList_append] at hm
  exact hc (Option.some.inj hm).symm

/-- A property that composes, and that every step has on the way to the verification: reading a
value, leaving a record, and calling upon a database. -/
structure Stepwise (database : String) (P : (α : Type) → Attempt α → Prop) : Prop
    extends Sequential P where
  read : ∀ {α : Type} {x : Except Error α}, Provisioner.Fails Error.AboutValue x → P α (require x)
  record : ∀ level {message}, ¬ AboutSchema message → P Unit (log level message)
  call : ∀ c : Call, c.database? = some database → P c.Answer (call c)

/-- Verifying asks for nothing but listings of indexes. -/
theorem Sequential.missingIn (h : Sequential P)
    (read : ∀ {α : Type} {x : Except Error α}, Provisioner.Fails Error.AboutValue x →
      P α (require x))
    (list : ∀ collection, P Indexes (Attempt.call (.listIndexes database collection)))
    (entries : List (String × List Definition)) :
    P (List String) (Schema.missingIn database entries) := by
  induction entries with
  | nil => exact h.pure _
  | cons e entries ih =>
    refine h.bind (h.bind (list e.1) fun xs => ?_) fun first => h.bind ih fun others => h.pure _
    exact read (Indexes.fails_missing e.1 xs e.2)

theorem fails_definitions (collection : String) :
    Provisioner.Fails Error.AboutValue (definitions collection) := by
  rw [definitions]
  split
  · exact fails_ok _
  · exact fails_error (.missingEntry _)

/-- A property that composes, and that the steps have that concern one collection only: reading a
value, leaving a record, and calling upon the collection. -/
structure Collectionwise (database collection : String) (P : (α : Type) → Attempt α → Prop) : Prop
    extends Sequential P where
  read : ∀ {α : Type} {x : Except Error α}, Provisioner.Fails Error.AboutValue x → P α (require x)
  record : ∀ level {message}, ¬ AboutSchema message → P Unit (log level message)
  call : ∀ c : Call, c.database? = some database → c.collection? = some collection →
    P c.Answer (call c)

namespace Collectionwise

variable (h : Collectionwise database collection P)

include h

/-- What is told of a declaration begins with what has been done about it. -/
theorem logDefinition {message : String} {c : Char} (hm : message.toList.head? = some c)
    (hc : c ≠ 'S') (d : Definition) : P Unit (Schema.logDefinition message collection d) := by
  refine h.bind (h.read (Definition.fails_describe collection d)) fun text => h.record .info ?_
  refine not_aboutSchema (c := c) ?_ hc
  simp [String.toList_append, hm]

theorem findIndex (keys : Value) :
    P (Option (String × Info)) (Schema.findIndex database collection keys) :=
  h.bind (h.call (.listIndexes database collection) rfl rfl) fun xs =>
    h.read (Indexes.fails_find? keys xs)

theorem warnConflict (conflict : Option (String × Info)) :
    P Unit (Schema.warnConflict collection conflict) := by
  cases conflict with
  | none => exact h.pure ()
  | some e =>
    refine h.record .warning (not_aboutSchema (c := 'I') ?_ (by decide))
    simp [String.toList_append]

theorem enact (d : Definition) (keys : Value) (decision : Decision) :
    P Outcome (Schema.enact database collection d keys decision) := by
  cases decision with
  | keep => exact h.bind (h.logDefinition (c := 'I') rfl (by decide) d) fun _ => h.pure _
  | attach index seconds =>
    have hcall := h.call (.expireIndex database collection index seconds) rfl rfl
    refine h.bind hcall fun _ => h.bind ?_ fun _ => h.pure _
    refine h.logDefinition (c := 'A') ?_ (by decide) d
    simp [String.toList_append]
  | create conflict =>
    have hcall := h.call (.createIndex database collection keys (Definition.options d)) rfl rfl
    refine h.bind (h.warnConflict conflict) fun _ => h.bind hcall fun _ => ?_
    exact h.bind (h.logDefinition (c := 'C') rfl (by decide) d) fun _ => h.pure _

theorem ensureIndex (d : Definition) :
    P Outcome (Schema.ensureIndex database collection d) :=
  h.bind (h.read (Definition.fails_keys d)) fun keys =>
    h.bind (h.findIndex keys) fun _ => h.enact d keys _

theorem ensureIndexes (ds : List Definition) (tally : Tally) :
    P Tally (Schema.ensureIndexes database collection ds tally) := by
  induction ds generalizing tally with
  | nil => exact h.pure tally
  | cons d ds ih => exact h.bind (h.ensureIndex d) fun o => ih (tally.count o)

/-- Bringing a collection into being lists the collections, and this concerns others too. Whatever
becomes of it, what follows concerns the collection only. -/
theorem createCollection (hc : P Bool (Schema.ensureCollection database collection)) :
    P Tally (Schema.createCollection database collection) :=
  h.bind hc fun _ => h.bind (h.read (fails_definitions collection)) fun ds => h.ensureIndexes ds _

end Collectionwise

namespace Stepwise

variable (h : Stepwise database P)

include h

theorem collectionwise (collection : String) : Collectionwise database collection P where
  toSequential := h.toSequential
  read := h.read
  record := h.record
  call c hd _ := h.call c hd

theorem findIndex (collection : String) (keys : Value) :
    P (Option (String × Info)) (Schema.findIndex database collection keys) :=
  (h.collectionwise collection).findIndex keys

theorem warnConflict (collection : String) (conflict : Option (String × Info)) :
    P Unit (Schema.warnConflict collection conflict) :=
  (h.collectionwise collection).warnConflict conflict

theorem ensureIndex (collection : String) (d : Definition) :
    P Outcome (Schema.ensureIndex database collection d) :=
  (h.collectionwise collection).ensureIndex d

theorem ensureIndexes (collection : String) (ds : List Definition) (tally : Tally) :
    P Tally (Schema.ensureIndexes database collection ds tally) :=
  (h.collectionwise collection).ensureIndexes ds tally

theorem ensureCollection (name : String) : P Bool (Schema.ensureCollection database name) := by
  refine h.bind (h.call (.listCollections database) rfl) fun names => ?_
  split
  · refine h.bind (h.record .info (not_aboutSchema (c := 'C') ?_ (by decide))) fun _ => h.pure _
    simp [String.toList_append]
  · refine h.bind (h.call (.createCollection database name) rfl) fun _ => ?_
    refine h.bind (h.record .info (not_aboutSchema (c := 'C') ?_ (by decide))) fun _ => h.pure _
    simp [String.toList_append]

theorem createCollection (collection : String) :
    P Tally (Schema.createCollection database collection) :=
  (h.collectionwise collection).createCollection (h.ensureCollection collection)

theorem verify : P (List String) (Schema.verify database) :=
  Sequential.missingIn h.toSequential h.read
    (fun collection => h.call (.listIndexes database collection) rfl) collections

/-- The whole work has the property, if the records and the line at the end have it too, and the
error about missing declarations. -/
theorem apply (record : ∀ level message, P Unit (log level message))
    (line : ∀ text, P Unit (print text))
    (missing : ∀ names, P Unit (require (.error (.missingIndexes names)))) :
    P Unit (Schema.apply database) := by
  have hclosing : ∀ summary, P Unit (do
      log .info "Schema verified: all declared indexes present"
      log .info summary
      print confirmation) := fun summary =>
    h.bind (record _ _) fun _ => h.bind (record _ summary) fun _ => line _
  refine h.bind (record _ _) fun _ => h.bind (h.createCollection _) fun first =>
    h.bind (h.createCollection _) fun second => h.bind h.verify fun names => ?_
  dsimp only
  split
  · exact h.bind (missing _) fun _ => hclosing _
  · exact hclosing _

end Stepwise

end Schema

end Provisioner
