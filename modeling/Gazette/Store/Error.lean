/-!
# Refusals of the store
-/
namespace Gazette

/-- A column in which no two rows hold the same value. -/
inductive UniqueColumn
  | userEmail
  | userName
  | categorySlug
  | tagSlug
  | postSlug
  | sessionToken
  | sessionId
deriving DecidableEq, Repr, Inhabited

def UniqueColumn.name : UniqueColumn → String
  | userEmail => "users.email"
  | userName => "users.username"
  | categorySlug => "categories.slug"
  | tagSlug => "tags.slug"
  | postSlug => "posts.slug"
  | sessionToken => "sessions.token"
  | sessionId => "sessions.id"

/-- The numbered kind of the error when a value is taken. A primary key has one of its own. -/
def UniqueColumn.code : UniqueColumn → String
  | sessionId => "Error code 1555: A PRIMARY KEY constraint failed"
  | _ => "Error code 2067: A UNIQUE constraint failed"

inductive StoreError
  /-- Another row holds the same value. -/
  | taken (column : UniqueColumn)
  /-- A row refers to a row that does not exist. -/
  | dangling
  /-- A session would last beyond the years that can be stored. -/
  | noExpiry
  /-- A column holds another kind of value than is asked for. `index` is its place in the answer. -/
  | mistyped (kind : String) (index : Nat) (column : String)
  /-- A column holds a text that cannot be read. -/
  | malformed (index : Nat)
  | noColumn (index : Nat)
  /-- A deletion would follow too many references one after another. -/
  | cascadeTooDeep
  /-- A limit does not fit into 64 bits. -/
  | limitTooLarge
  | noSuchPost (id : String)
deriving DecidableEq, Repr, Inhabited

namespace StoreError

/-- What is wrong, without the kind of failure in front. Why a text cannot be read is left out: no
stored row holds such a text. -/
def detail : StoreError → String
  | taken column => "UNIQUE constraint failed: " ++ column.name
  | dangling => "FOREIGN KEY constraint failed"
  | noExpiry => "NOT NULL constraint failed: sessions.expires_at"
  | mistyped kind index column =>
    "Invalid column type " ++ kind ++ " at index: " ++ toString index ++ ", name: " ++ column
  | malformed index => "Conversion error from type Text at index: " ++ toString index
  | noColumn index => "Invalid column index: " ++ toString index
  | cascadeTooDeep => "too many levels of trigger recursion"
  | limitTooLarge => "datatype mismatch"
  | noSuchPost id => "post " ++ id

def message (e : StoreError) : String :=
  match e with
  | noSuchPost _ => "Not found: " ++ e.detail
  | _ => "SQL error: " ++ e.detail

/-- Whether the error comes from a rule that the rows of the store obey. -/
def isConstraint : StoreError → Bool
  | taken _ | dangling | noExpiry => true
  | mistyped _ _ _ | malformed _ | noColumn _ | cascadeTooDeep | limitTooLarge
  | noSuchPost _ => false

/-- The numbered kind of an error, if it has one. -/
def code? : StoreError → Option String
  | taken column => some column.code
  | dangling => some "Error code 787: Foreign key constraint failed"
  | noExpiry => some "Error code 1299: A NOT NULL constraint failed"
  | cascadeTooDeep => some "Error code 1: SQL error or missing database"
  | limitTooLarge => some "Error code 20: Data type mismatch"
  | mistyped _ _ _ | malformed _ | noColumn _ | noSuchPost _ => none

/-- The errors behind an error, outermost first. -/
def causes (e : StoreError) : List String :=
  match e with
  | noSuchPost _ => []
  | _ => e.detail :: e.code?.toList

end StoreError
end Gazette
