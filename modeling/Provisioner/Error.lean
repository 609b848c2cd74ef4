import Provisioner.Settings.Problem

/-!
# Errors

Everything that can go wrong, by its cause. Values that are not what they should be, settings that
break their rules, a schema that is not there after it has been applied, and whatever the store
answers instead of doing what it is asked. Each cause carries what its message needs, and the
wording is in one place.

## Main definitions

* `Rejection` — an operation that the store understands and does not carry out
* `Error` — the causes
* `Error.message` — what is said about them
* `Error.isCancellation` — whether the work was called off rather than failed
-/

namespace Provisioner

/-- Why the store does not carry out an operation; such an answer has a code. -/
inductive Rejection
  | nameTaken (index : String)
  | optionsDiffer (index : String)
  | namedOtherwise (index : String)
  | noCollection
  | noIndex (index : String)
  | other (message : String) (code : Option Int)
deriving DecidableEq

namespace Rejection

/-- What the store says. -/
def message : Rejection → String
  | .nameTaken index => "An existing index has the same name as the requested index: " ++ index
  | .optionsDiffer index => "Index already exists with different options: " ++ index
  | .namedOtherwise index => "Index already exists with a different name: " ++ index
  | .noCollection => "ns does not exist"
  | .noIndex index => "cannot find index " ++ index
  | .other message _ => message

/-- The code of the answer. -/
def code? : Rejection → Option Int
  | .nameTaken _ => some 86
  | .optionsDiffer _ => some 85
  | .namedOtherwise _ => some 85
  | .noCollection => some 26
  | .noIndex _ => some 27
  | .other _ code => code

end Rejection

/-- What can go wrong. -/
inductive Error
  /-- A document lacks an entry that is needed. -/
  | missingEntry (name : String)
  /-- A value that should have items has none. -/
  | notIterable (kind : Value.Kind)
  /-- A value that should be a pair has no items. -/
  | notUnpackable (kind : Value.Kind)
  /-- A value that should be a pair has fewer than two items. -/
  | tooFewItems (found : Nat)
  /-- A value that should be a pair has more than two items. -/
  | tooManyItems
  /-- An item that should be a text is not. -/
  | notText (position : Nat) (kind : Value.Kind)
  /-- A threshold that does not exist. -/
  | unknownThreshold (name : String)
  /-- Settings that break their rules. -/
  | invalidSettings (problems : List Settings.Problem)
  /-- Declared indexes that are still missing after the schema has been applied. -/
  | missingIndexes (names : List String)
  /-- A database without a name. -/
  | emptyDatabaseName
  /-- A database with a character in its name that names must not contain. -/
  | databaseNameCharacter (c : Char)
  /-- A collection to be created that exists. -/
  | collectionExists (name : String)
  /-- The store rejects an operation. -/
  | rejected (r : Rejection)
  /-- A document would repeat a unique key. -/
  | duplicateKey (message : String) (code : Option Int)
  /-- The work was called off. -/
  | cancelled (message : String)
  /-- Any other failure that is reported from outside, with its kind. -/
  | reported (kind : String) (message : String)

namespace Error

/-- What is said about an error. -/
def message : Error → String
  | .missingEntry name => Text.quoted name
  | .notIterable kind => "'" ++ kind.name ++ "' object is not iterable"
  | .notUnpackable kind => "cannot unpack non-iterable " ++ kind.name ++ " object"
  | .tooFewItems found =>
    "not enough values to unpack (expected 2, got " ++ toString found ++ ")"
  | .tooManyItems => "too many values to unpack (expected 2)"
  | .notText position kind =>
    "sequence item " ++ toString position ++ ": expected str instance, " ++ kind.name ++ " found"
  | .unknownThreshold name => "module 'logging' has no attribute '" ++ name ++ "'"
  | .invalidSettings problems => Settings.report problems
  | .missingIndexes names => "Missing or incompatible indexes: " ++ Value.commas names
  | .emptyDatabaseName => "database name cannot be the empty string"
  | .databaseNameCharacter c =>
    "database names cannot contain the character " ++ Text.quoted c.toString
  | .collectionExists name => "collection " ++ name ++ " already exists"
  | .rejected r => r.message
  | .duplicateKey message _ => message
  | .cancelled message => message
  | .reported _ message => message

/-- Whether the work was called off; such an error is passed on and never handled. -/
def isCancellation : Error → Bool
  | .cancelled _ => true
  | _ => false

end Error

end Provisioner
