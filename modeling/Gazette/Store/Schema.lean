import Gazette.Store.Basic

/-!
# The schema

A database starts out empty and gets its tables and indexes from migrations, which are applied in
order. A migration is a list of statements; each of them takes effect by itself, and after the last
one the migration is recorded, so that it is not applied again.
-/
namespace Gazette

inductive Statement
  /-- Creates the table of applied migrations unless it exists. -/
  | createVersions
  | createTable (name : String)
  | createIndex (name : String)
  | record (migration : String)
deriving DecidableEq, Repr, Inhabited

structure Migration where
  name : String
  statements : List Statement
deriving DecidableEq, Repr, Inhabited

/-- The migrations, oldest first. -/
def migrations : List Migration :=
  [ { name := "001_initial"
      statements :=
        [.createTable "users", .createTable "sessions", .createIndex "idx_sessions_user"] },
    { name := "002_content"
      statements :=
        [ .createTable "categories", .createTable "tags", .createTable "posts",
          .createIndex "idx_posts_author", .createIndex "idx_posts_category",
          .createIndex "idx_posts_published_date", .createTable "post_tags",
          .createTable "comments", .createIndex "idx_comments_post",
          .createTable "contact_messages" ] },
    { name := "003_site_settings", statements := [.createTable "site_settings"] } ]

/-- The table of applied migrations. -/
def versionsTable : String := "schema_version"

structure Database where
  tables : List String := []
  indexes : List String := []
  /-- The names of the migrations that were recorded. -/
  applied : List String := []
  store : Store := {}
deriving DecidableEq, Repr, Inhabited

inductive MigrationError
  | tableExists (name : String)
  | indexExists (name : String)
  | alreadyRecorded (migration : String)
deriving DecidableEq, Repr, Inhabited

namespace Database

def execute (statement : Statement) (db : Database) : Except MigrationError Database :=
  match statement with
  | .createVersions =>
    if db.tables.contains versionsTable then .ok db
    else .ok { db with tables := db.tables ++ [versionsTable] }
  | .createTable name =>
    if db.tables.contains name then .error (.tableExists name)
    else .ok { db with tables := db.tables ++ [name] }
  | .createIndex name =>
    if db.indexes.contains name then .error (.indexExists name)
    else .ok { db with indexes := db.indexes ++ [name] }
  | .record migration =>
    if db.applied.contains migration then .error (.alreadyRecorded migration)
    else .ok { db with applied := db.applied ++ [migration] }

/-- Executes statements up to the first that fails. What was executed before it stays. -/
def executeAll : List Statement → Database → Option MigrationError × Database
  | [], db => (none, db)
  | statement :: rest, db =>
    match db.execute statement with
    | .ok db => executeAll rest db
    | .error e => (some e, db)

/-- The statements that bring a database up to date. -/
def plan (db : Database) : List Statement :=
  .createVersions :: (migrations.filter fun m => !db.applied.contains m.name).flatMap fun m =>
    m.statements ++ [.record m.name]

/-- Brings a database up to date. -/
def migrate (db : Database) : Option MigrationError × Database :=
  executeAll db.plan db

/-- A migration run that is cut off after some statements. -/
def migrateFor (statements : Nat) (db : Database) : Option MigrationError × Database :=
  executeAll (db.plan.take statements) db

/-- A new database, brought up to date. -/
def fresh : Database :=
  (migrate {}).2

/-- The number of rows of a table, if it exists. -/
def count? (table : String) (db : Database) : Option Nat :=
  let s := db.store
  if !db.tables.contains table then none
  else if table = versionsTable then some db.applied.length
  else [("users", s.users.length), ("sessions", s.sessions.length),
    ("categories", s.categories.length), ("tags", s.tags.length), ("posts", s.posts.length),
    ("post_tags", s.links.length), ("comments", s.comments.length),
    ("contact_messages", s.messages.length),
    ("site_settings", s.settings.length)].lookup table

end Database
end Gazette
