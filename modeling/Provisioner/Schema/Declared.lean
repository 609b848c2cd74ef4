import Provisioner.Index.Basic

/-!
# The declared schema

Two collections serve authentication. Credentials are looked up by user name, by electronic mail
address and by user; among live credentials, those without a time of deletion, the first two are
unique. Sessions are looked up by token and by user; among active sessions, those without a time
of revocation, the token is unique. Sessions are also looked up by the time at which they expire,
and are removed thirty days after it.

A collection keeps one index per pattern, so the last two declarations of the sessions share
one: the plain index is declared first, and the time to live is attached to it afterwards.

## Main definitions

* `Schema.credentials`, `sessions` — the names of the collections
* `Schema.live`, `active` — the filters
* `Schema.sessionLifetime` — the time to live
* `Schema.collections`, `definitions?` — all collections, and the indexes of one of them
-/

namespace Provisioner

namespace Schema

/-- The collection of credentials. -/
def credentials : String := "auth_credentials"

/-- The collection of sessions. -/
def sessions : String := "auth_sessions"

/-- How long after its expiry a session is removed: thirty days, in seconds. -/
def sessionLifetime : Int := 30 * 24 * 60 * 60

/-- Credentials that have not been deleted. -/
def live : Document := [("deleted_at", .null)]

/-- Sessions that have not been revoked. -/
def active : Document := [("revoked_at", .null)]

/-- An ascending index on one field. -/
def ascending (field : String) (options : Document) : Definition :=
  ("keys", Value.ofPairs [(.text field, .int 1)]) :: options

/-- The option of a unique index. -/
def unique : String × Value := (Index.uniqueness, .bool true)

/-- The option of an index on part of the documents. -/
def among (filter : Document) : String × Value := (Index.filter, .doc filter)

/-- The option of an index that removes documents. -/
def expiring (seconds : Int) : String × Value := (Index.ttl, .int seconds)

/-- The indexes of the credentials, in the order in which they are created. -/
def credentialIndexes : List Definition := [
  ascending "username" [unique, among live],
  ascending "email" [unique, among live],
  ascending "user_id" [among live]]

/-- The plain index on the time of expiry. -/
def plainExpiry : Definition := ascending "expires_at" []

/-- The same index with the time to live. -/
def expiry : Definition := ascending "expires_at" [expiring sessionLifetime]

/-- The indexes of the sessions, in the order in which they are created. -/
def sessionIndexes : List Definition := [
  ascending "token" [unique, among active],
  ascending "user_id" [among active],
  plainExpiry,
  expiry]

/-- The collections with their indexes. -/
def collections : Assoc (List Definition) :=
  [(credentials, credentialIndexes), (sessions, sessionIndexes)]

/-- The indexes of a collection, if it is declared. -/
def definitions? (collection : String) : Option (List Definition) :=
  Assoc.get? collections collection

/-- What applying the schema is announced as. -/
def description : String := "Create auth_credentials and auth_sessions collections and indexes"

/-- What is printed once the schema is in place. -/
def confirmation : String := "Auth collections and indexes created successfully"

/-- The version of this schema tool. -/
def version : String := "0.1.0"

end Schema

end Provisioner
