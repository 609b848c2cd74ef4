import Provisioner.Proofs.Procedure.Run
import Provisioner.Schema.Apply

/-!
# How reading fails

Values that are read, from a declaration or from an existing index, may be anything, and reading
them may fail. It then fails with an error about the value, and with no other: never with one that
the store answers, and never with the one about missing declarations, which is raised in one place
only.

## Main definitions

* `Error.AboutValue` — a value is not what it should be
* `Error.Foreign` — any error but the one about missing declarations
* `Error.Ordinary` — any error but a cancellation
* `Fails`, `Attempt.Fails`, `Attempt.FailsWithin` — every failure has a given property

## Main results

* `Fails.bind`, `Attempt.Fails.bind` — two steps in a row
* `Indexes.fails_find?`, `fails_missing`, `Definition.fails_describe` — the searches and the
  description fail at values only
* `Indexes.fails_requestedName` — and so does the name of a request
-/

namespace Provisioner

/-- An error about a value that is not what it should be. -/
inductive Error.AboutValue : Error → Prop
  | missingEntry (name : String) : AboutValue (.missingEntry name)
  | notIterable (kind : Value.Kind) : AboutValue (.notIterable kind)
  | notUnpackable (kind : Value.Kind) : AboutValue (.notUnpackable kind)
  | tooFewItems (found : Nat) : AboutValue (.tooFewItems found)
  | tooManyItems : AboutValue .tooManyItems
  | notText (position : Nat) (kind : Value.Kind) : AboutValue (.notText position kind)

/-- Any error but the one about missing declarations. -/
def Error.Foreign (e : Error) : Prop := ∀ names, e ≠ .missingIndexes names

/-- Any error but a cancellation. -/
def Error.Ordinary (e : Error) : Prop := e.isCancellation = false

theorem Error.AboutValue.foreign {e : Error} (h : AboutValue e) : Foreign e := by
  intro names he
  subst he
  exact nomatch h

theorem Error.AboutValue.ordinary {e : Error} (h : AboutValue e) : Ordinary e := by
  cases h <;> rfl

/-- An error that arises in the work itself: it is neither this library's verdict on the work nor a
cancellation of it. -/
structure Error.Inherent (e : Error) : Prop where
  foreign : e.Foreign
  ordinary : e.Ordinary

theorem Error.AboutValue.inherent {e : Error} (h : AboutValue e) : Inherent e :=
  ⟨h.foreign, h.ordinary⟩

theorem Error.inherent_rejected (r : Rejection) : Inherent (.rejected r) :=
  ⟨by simp [Foreign], rfl⟩

/-- Whatever fails, fails with an error of the given property. -/
def Fails {α : Type} (P : Error → Prop) (x : Except Error α) : Prop := ∀ e, x = .error e → P e

section

variable {α β : Type} {P Q : Error → Prop} {x : Except Error α} {f : α → Except Error β}

theorem fails_ok (a : α) : Fails P (.ok a : Except Error α) := fun _ h => nomatch h

theorem fails_error {e : Error} (h : P e) : Fails P (.error e : Except Error α) :=
  fun _ he => Except.error.inj he ▸ h

theorem Fails.imp (h : Fails P x) (hpq : ∀ e, P e → Q e) : Fails Q x := fun e he => hpq e (h e he)

theorem Fails.bind (hx : Fails P x) (hf : ∀ a, Fails P (f a)) : Fails P (x >>= f) := by
  cases x with
  | ok a => exact hf a
  | error e => exact fails_error (hx e rfl)

end

open Error (AboutValue)

namespace Value

theorem fails_items (v : Value) : Fails AboutValue v.items := by
  rw [items]
  split
  · exact fails_ok _
  · exact fails_error (.notIterable _)

theorem fails_unpack (v : Value) : Fails AboutValue v.unpack := by
  rw [unpack]
  split
  · exact fails_ok _
  · refine fails_error ?_
    split
    · exact .tooFewItems _
    · exact .tooManyItems
  · exact fails_error (.notUnpackable _)

theorem fails_unpackAll (vs : List Value) : Fails AboutValue (unpackAll vs) := by
  induction vs with
  | nil => exact fails_ok _
  | cons v vs ih => exact (fails_unpack v).bind fun p => ih.bind fun ps => fails_ok _

theorem fails_pairs (v : Value) : Fails AboutValue v.pairs := (fails_items v).bind fails_unpackAll

theorem fails_textsFrom (vs : List Value) (position : Nat) :
    Fails AboutValue (textsFrom position vs) := by
  induction vs generalizing position with
  | nil => exact fails_ok _
  | cons v vs ih =>
    cases v with
    | text s => exact (ih (position + 1)).bind fun ss => fails_ok _
    | _ => exact fails_error (.notText position _)

end Value

namespace Index

theorem fails_pattern (keys : Value) : Fails AboutValue (pattern keys) := by
  cases keys with
  | doc entries => exact fails_ok _
  | _ => exact Value.fails_pairs _

theorem fails_defaultName (keys : Value) : Fails AboutValue (defaultName keys) := by
  rw [defaultName]
  exact (Value.fails_pairs keys).bind fun ps => fails_ok _

end Index

namespace Definition

theorem fails_keys (d : Definition) : Fails AboutValue (keys d) := by
  rw [keys]
  split
  · exact fails_ok _
  · exact fails_error (.missingEntry _)

theorem fails_describe (collection : String) (d : Definition) :
    Fails AboutValue (describe collection d) :=
  (fails_keys d).bind fun keys => (Value.fails_pairs keys).bind fun _ =>
    (Value.fails_textsFrom _ 0).bind fun _ => fails_ok _

end Definition

namespace Info

theorem fails_pattern (info : Info) : Fails AboutValue (pattern info) := by
  rw [pattern]
  split
  · exact fails_error (.missingEntry _)
  · exact Index.fails_pattern _

theorem fails_hasKeys {keys : Except Error Value} (info : Info) (hk : Fails AboutValue keys) :
    Fails AboutValue (hasKeys info keys) :=
  (fails_pattern info).bind fun _ => hk.bind fun keys => (Value.fails_items keys).bind fun _ =>
    fails_ok _

theorem fails_fits (info : Info) (d : Definition) : Fails AboutValue (fits info d) :=
  (fails_hasKeys info (Definition.fails_keys d)).bind fun _ => fails_ok _

end Info

namespace Indexes

theorem fails_find? (keys : Value) (xs : Indexes) : Fails AboutValue (find? keys xs) := by
  induction xs with
  | nil => exact fails_ok _
  | cons e xs ih =>
    refine (Info.fails_hasKeys e.2 (fails_ok keys)).bind fun same => ?_
    split
    · exact fails_ok _
    · exact ih

theorem fails_satisfy (d : Definition) (xs : Indexes) : Fails AboutValue (satisfy d xs) := by
  induction xs with
  | nil => exact fails_ok _
  | cons e xs ih =>
    refine (Info.fails_fits e.2 d).bind fun fit => ?_
    split
    · exact fails_ok _
    · exact ih

theorem fails_label (collection : String) (d : Definition) :
    Fails AboutValue (label collection d) :=
  (Definition.fails_keys d).bind fun keys => (Index.fails_defaultName keys).bind fun _ => fails_ok _

theorem fails_missing (collection : String) (xs : Indexes) (ds : List Definition) :
    Fails AboutValue (missing collection xs ds) := by
  induction ds with
  | nil => exact fails_ok _
  | cons d ds ih =>
    refine Fails.bind ((fails_satisfy d xs).bind fun fit => ?_) fun first =>
      ih.bind fun others => fails_ok _
    split
    · exact fails_ok _
    · exact (fails_label collection d).bind fun _ => fails_ok _

theorem fails_requestedName (keys : Value) (options : Document) :
    Fails AboutValue (requestedName keys options) := by
  rw [requestedName]
  split
  · exact Index.fails_defaultName keys
  · exact fails_ok _

end Indexes

/-! ### Attempts -/

namespace Attempt

open Procedure

variable {α β σ : Type} {P : Error → Prop} {answer : Handler σ} {x : Attempt α}
  {f : α → Attempt β}

/-- Wherever an attempt fails, it fails with an error of the given property. -/
def Fails (answer : Handler σ) (P : Error → Prop) (x : Attempt α) : Prop :=
  ∀ s, Provisioner.Fails P (result answer x s)

theorem fails_pure (a : α) : Fails answer P (pure a : Attempt α) := fun _ => fails_ok a

theorem fails_require {e : Except Error α} (h : Provisioner.Fails P e) :
    Fails answer P (require e) := fun _ => h

theorem fails_call {c : Call} (h : ∀ s, Provisioner.Fails P (answer c s).1) :
    Fails answer P (call c) := h

theorem fails_log (level : Level) (message : String) : Fails answer P (log level message) :=
  fun _ => fails_ok ()

/-- The same for the states in which a property holds. -/
def FailsWithin (answer : Handler σ) (I : σ → Prop) (P : Error → Prop) (x : Attempt α) : Prop :=
  ∀ s, I s → Provisioner.Fails P (result answer x s)

theorem Fails.within {I : σ → Prop} (h : Fails answer P x) : FailsWithin answer I P x :=
  fun s _ => h s

theorem FailsWithin.bind {I : σ → Prop} (hI : ∀ (c : Call) s, I s → I (answer c s).2)
    (hx : FailsWithin answer I P x) (hf : ∀ a, FailsWithin answer I P (f a)) :
    FailsWithin answer I P (x >>= f : Attempt β) := by
  intro s hs
  cases h : result answer x s with
  | ok a =>
    rw [result_bind_of_ok h]
    exact hf a _ (final_of_stays hI x hs)
  | error e =>
    rw [result_bind_of_error h]
    exact fails_error (hx s hs e h)

theorem Fails.bind (hx : Fails answer P x) (hf : ∀ a, Fails answer P (f a)) :
    Fails answer P (x >>= f : Attempt β) := fun s =>
  FailsWithin.bind (I := fun _ => True) (fun _ _ _ => trivial) hx.within (fun a => (hf a).within) s
    trivial

end Attempt

end Provisioner
