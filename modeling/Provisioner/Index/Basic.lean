import Provisioner.Value.Items

/-!
# Indexes, declared and existing

A declared index is a document with the entry `keys`, the pairs of field and direction in their
order, and further entries that are passed on to the store as options. An existing index is a
document too, which the store hands out: its keys stand under `key`, as a list of pairs or as a
document, and its options beside them. Both may hold anything, so every reading of them can fail.

Only three options decide whether an existing index serves as a declared one: `unique`, the
partial filter, and the time to live.

## Main definitions

* `Definition`, `Info` — a declared and an existing index
* `Definition.keys`, `options` — the keys and the options of a declaration
* `Index.pattern`, `Info.pattern` — keys as pairs, and the keys of an existing index
* `Index.defaultName` — the name of an index for which none is given
* `Definition.describe` — a declaration as it stands in messages

## Main results

* `Info.pattern_of_pairs`, `pattern_of_doc` — both forms of keys are read as their pairs
-/

namespace Provisioner

/-- A declared index. -/
abbrev Definition : Type := Document

/-- An existing index, as the store describes it. -/
abbrev Info : Type := Document

namespace Index

/-! ### Options that are compared -/

/-- The option for uniqueness. -/
def uniqueness : String := "unique"

/-- The option for the partial filter. -/
def filter : String := "partialFilterExpression"

/-- The option for the time to live. -/
def ttl : String := "expireAfterSeconds"

/-! ### Names -/

/-- A field and a direction in a name. -/
def namePart (p : Value × Value) : String := p.1.shown ++ "_" ++ p.2.shown

/-- The name of an index for which none is given: fields and directions, joined with
underscores. -/
def joinName (ps : List (Value × Value)) : String := "_".intercalate (ps.map namePart)

/-- Keys as pairs: the entries of a document, or the items of anything else, each taken for a
pair. -/
def pattern : Value → Except Error (List (Value × Value))
  | .doc entries => .ok (entries.map fun e => (.text e.1, e.2))
  | keys => keys.pairs

/-- The default name for keys that have not been read yet. -/
def defaultName (keys : Value) : Except Error String := joinName <$> keys.pairs

end Index

namespace Definition

/-- The keys of a declaration. -/
def keys (d : Definition) : Except Error Value :=
  match Assoc.get? d "keys" with
  | some keys => .ok keys
  | none => .error (.missingEntry "keys")

/-- The options that are passed on to the store: everything but the keys. -/
def options (d : Definition) : Document := Assoc.erase d "keys"

/-- The options that are worth a mention. -/
def remarks (d : Definition) : List String :=
  let filter := Document.field d Index.filter
  let ttl := Document.field d Index.ttl
  (if (Document.field d Index.uniqueness).truth then ["unique"] else [])
    ++ (if filter.truth then ["partial " ++ filter.shown] else [])
    ++ (if ttl.isNull then [] else ["ttl " ++ ttl.shown ++ "s"])

/-- A declaration as it stands in messages: the collection, the fields, and the remarks. -/
def describe (collection : String) (d : Definition) : Except Error String := do
  let keys ← keys d
  let ps ← keys.pairs
  let fields ← Value.texts (ps.map Prod.fst)
  let suffix := match remarks d with
    | [] => ""
    | remarks => " " ++ " ".intercalate remarks
  return collection ++ "(" ++ Value.commas fields ++ ")" ++ suffix

end Definition

namespace Info

/-- The keys of an existing index as pairs. -/
def pattern (info : Info) : Except Error (List (Value × Value)) :=
  match Assoc.get? info "key" with
  | none => .error (.missingEntry "key")
  | some key => Index.pattern key

/-- An existing index whose keys can be read. -/
def WellFormed (info : Info) : Prop := ∃ ps, pattern info = .ok ps

instance (info : Info) : Decidable (WellFormed info) :=
  match h : pattern info with
  | .ok ps => .isTrue ⟨ps, h⟩
  | .error _ => .isFalse fun ⟨_, hp⟩ => nomatch h.symm.trans hp

theorem pattern_of_pairs {info : Info} {ps : List (Value × Value)}
    (h : Assoc.get? info "key" = some (Value.ofPairs ps)) : pattern info = .ok ps := by
  simp only [pattern, h, Value.ofPairs, Index.pattern]
  exact Value.pairs_ofPairs ps

theorem pattern_of_doc {info : Info} {entries : List (String × Value)}
    (h : Assoc.get? info "key" = some (.doc entries)) :
    pattern info = .ok (entries.map fun e => (.text e.1, e.2)) := by
  simp [pattern, h, Index.pattern]

end Info

end Provisioner
