import Provisioner.Index.Basic
import Provisioner.Value.Equality

/-!
# Declared indexes among the existing ones

A collection lists its indexes by name. Looking for a declared index means going through them in
order and comparing first the keys, then the options. Keys have to be the same pairs in the same
order; uniqueness counts by its truth, the partial filter by equality, and the time to live only
if the declaration has one: an index that expires its documents serves ordinary queries as well.

Both searches below stop at the first index that fits. An index whose keys cannot be read is an
error if the search comes to it, and goes unnoticed behind one that fits.

## Main definitions

* `Indexes` — the indexes of a collection
* `Info.compatible`, `Info.fits` — whether an existing index has the options that a declaration
  asks for, without and with the time to live
* `Indexes.find?` — the first index with given keys
* `Indexes.satisfy` — whether an index fits a declaration
* `Indexes.missing` — the declarations that none fits, by collection and default name

## Main results

* `Indexes.missing_append` — the missing declarations of two lists, one after the other
-/

namespace Provisioner

/-- The indexes of a collection, by name and in the order of their creation. -/
abbrev Indexes : Type := Assoc Info

namespace Info

/-- The same uniqueness and the same partial filter as declared. -/
def compatible (info : Info) (d : Definition) : Bool :=
  (Document.field info Index.uniqueness).truth == (Document.field d Index.uniqueness).truth
    && (Document.field info Index.filter).eqv (Document.field d Index.filter)

/-- The time to live that is declared, if one is. -/
def expiresAs (info : Info) (ttl : Value) : Bool :=
  ttl.isNull || (Document.field info Index.ttl).eqv ttl

/-- Whether pairs read from an existing index are the given keys. -/
def samePattern (ps : List (Value × Value)) (keys : List Value) : Bool :=
  Value.eqvList (ps.map fun p => .pair p.1 p.2) keys

/-- Whether an existing index has the given keys. -/
def hasKeys (info : Info) (keys : Except Error Value) : Except Error Bool := do
  let ps ← pattern info
  let keys ← keys
  let items ← keys.items
  return samePattern ps items

/-- Whether an existing index serves as a declared one. -/
def fits (info : Info) (d : Definition) : Except Error Bool := do
  let same ← hasKeys info (Definition.keys d)
  return same && compatible info d && expiresAs info (Document.field d Index.ttl)

end Info

namespace Indexes

/-- The first index with the given keys, with its name. -/
def find? (keys : Value) : Indexes → Except Error (Option (String × Info))
  | [] => .ok none
  | (name, info) :: rest => do
    let same ← Info.hasKeys info (.ok keys)
    if same then return some (name, info) else find? keys rest

/-- Whether an index fits a declaration. -/
def satisfy (d : Definition) : Indexes → Except Error Bool
  | [] => .ok false
  | (_, info) :: rest => do
    let fit ← Info.fits info d
    if fit then return true else satisfy d rest

/-- A declaration as it is reported missing. -/
def label (collection : String) (d : Definition) : Except Error String := do
  let keys ← Definition.keys d
  let name ← Index.defaultName keys
  return collection ++ "." ++ name

/-- The report on one declaration: nothing if an index fits it. -/
def absent (collection : String) (indexes : Indexes) (d : Definition) :
    Except Error (List String) := do
  let fit ← satisfy d indexes
  if fit then return [] else
    let l ← label collection d
    return [l]

/-- The declarations that no index fits, in the order of declaration. -/
def missing (collection : String) (indexes : Indexes) :
    List Definition → Except Error (List String)
  | [] => .ok []
  | d :: rest => do
    let first ← absent collection indexes d
    let others ← missing collection indexes rest
    return first ++ others

theorem missing_append (collection : String) (indexes : Indexes) (ds es : List Definition) :
    missing collection indexes (ds ++ es) = do
      let first ← missing collection indexes ds
      let others ← missing collection indexes es
      return first ++ others := by
  induction ds with
  | nil =>
    simp only [List.nil_append, missing]
    cases missing collection indexes es <;> rfl
  | cons d ds ih =>
    simp only [List.cons_append, missing, ih]
    cases absent collection indexes d with
    | error e => rfl
    | ok a =>
      cases missing collection indexes ds with
      | error e => rfl
      | ok b =>
        cases missing collection indexes es with
        | error e => rfl
        | ok c => simp [bind, Except.bind, pure, Except.pure]

end Indexes

end Provisioner
