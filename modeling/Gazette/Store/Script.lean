import Gazette.Store.Schema

/-!
# The text of migrations

A migration is kept as a text in SQL. When a table cannot be created because there is one of that
name, the error quotes the text from the statement on that failed, and tells where in it the name
stands.
-/
namespace Gazette

/-- The columns and rules of the tables, as they are written in the statements that create them. -/
def tableLines : List (String × List String) :=
  [ ("users",
      [ "id TEXT PRIMARY KEY", "username TEXT NOT NULL UNIQUE", "email TEXT NOT NULL UNIQUE",
        "bio TEXT NOT NULL DEFAULT ''", "is_admin INTEGER NOT NULL DEFAULT 0",
        "date_joined TEXT NOT NULL", "updated_at TEXT NOT NULL" ]),
    ("sessions",
      [ "id TEXT PRIMARY KEY", "user_id TEXT NOT NULL REFERENCES users(id) ON DELETE CASCADE",
        "token TEXT NOT NULL UNIQUE", "expires_at TEXT NOT NULL",
        "created_at TEXT NOT NULL DEFAULT (datetime('now'))" ]),
    ("categories",
      [ "id TEXT PRIMARY KEY", "name TEXT NOT NULL", "slug TEXT NOT NULL UNIQUE",
        "description TEXT NOT NULL DEFAULT ''", "color TEXT NOT NULL DEFAULT '#6c757d'",
        "sort_order INTEGER NOT NULL DEFAULT 0", "is_active INTEGER NOT NULL DEFAULT 1",
        "created_at TEXT NOT NULL" ]),
    ("tags",
      [ "id TEXT PRIMARY KEY", "name TEXT NOT NULL", "slug TEXT NOT NULL UNIQUE",
        "created_at TEXT NOT NULL" ]),
    ("posts",
      [ "id TEXT PRIMARY KEY", "title TEXT NOT NULL", "slug TEXT NOT NULL UNIQUE",
        "content TEXT NOT NULL DEFAULT ''", "excerpt TEXT NOT NULL DEFAULT ''",
        "author_id TEXT NOT NULL REFERENCES users(id) ON DELETE CASCADE",
        "category_id TEXT REFERENCES categories(id) ON DELETE SET NULL",
        "status TEXT NOT NULL DEFAULT 'draft' " ++
          "CHECK (status IN ('draft', 'published', 'archived'))",
        "is_active INTEGER NOT NULL DEFAULT 1", "published_date TEXT",
        "view_count INTEGER NOT NULL DEFAULT 0", "likes INTEGER NOT NULL DEFAULT 0",
        "created_at TEXT NOT NULL", "updated_at TEXT NOT NULL" ]),
    ("post_tags",
      [ "post_id TEXT NOT NULL REFERENCES posts(id) ON DELETE CASCADE",
        "tag_id TEXT NOT NULL REFERENCES tags(id) ON DELETE CASCADE",
        "PRIMARY KEY (post_id, tag_id)" ]),
    ("comments",
      [ "id TEXT PRIMARY KEY", "post_id TEXT NOT NULL REFERENCES posts(id) ON DELETE CASCADE",
        "author_id TEXT NOT NULL REFERENCES users(id) ON DELETE CASCADE",
        "parent_id TEXT REFERENCES comments(id) ON DELETE CASCADE", "content TEXT NOT NULL",
        "is_approved INTEGER NOT NULL DEFAULT 0", "created_at TEXT NOT NULL",
        "updated_at TEXT NOT NULL" ]),
    ("contact_messages",
      [ "id TEXT PRIMARY KEY", "name TEXT NOT NULL", "email TEXT NOT NULL",
        "subject TEXT NOT NULL", "message TEXT NOT NULL", "is_read INTEGER NOT NULL DEFAULT 0",
        "created_at TEXT NOT NULL" ]),
    ("site_settings",
      [ "id INTEGER PRIMARY KEY CHECK (id = 1)", "site_name TEXT NOT NULL",
        "admin_email TEXT NOT NULL", "posts_per_page INTEGER NOT NULL DEFAULT 10",
        "maintenance_mode INTEGER NOT NULL DEFAULT 0",
        "allow_registrations INTEGER NOT NULL DEFAULT 1", "updated_at TEXT" ]) ]

def indexTargets : List (String × String) :=
  [ ("idx_sessions_user", "sessions(user_id)"), ("idx_posts_author", "posts(author_id)"),
    ("idx_posts_category", "posts(category_id)"),
    ("idx_posts_published_date", "posts(published_date)"),
    ("idx_comments_post", "comments(post_id)") ]

namespace Statement

/-- The words in front of the name of a table that is created. -/
def createTableWords : String := "CREATE TABLE "

/-- A statement as it is written in a migration. -/
def sql : Statement → String
  | createTable name =>
    createTableWords ++ name ++ " (\n    " ++
      String.intercalate ",\n    " ((tableLines.lookup name).getD []) ++ "\n);"
  | createIndex name =>
    "CREATE INDEX " ++ name ++ " ON " ++ (indexTargets.lookup name).getD "" ++ ";"
  | createVersions | record _ => ""

/-- What stands in front of a statement: an empty line, but for the first statement and between two
indexes, and a comment at the settings. -/
def gap : Option Statement → Statement → String
  | none, createTable "site_settings" => "-- Exactly one row, addressed by the fixed key 1\n"
  | none, _ => ""
  | some (createIndex _), createIndex _ => "\n"
  | some _, _ => "\n\n"

/-- The text of statements that follow another one. -/
def textAfter : Option Statement → List Statement → String
  | _, [] => "\n"
  | before?, statement :: rest =>
    gap before? statement ++ statement.sql ++ textAfter (some statement) rest

/-- The text from a statement on, and how far into it the name of its table stands. -/
def textFrom (target : Statement) : Option Statement → List Statement → Option (String × Nat)
  | _, [] => none
  | before?, statement :: rest =>
    if statement = target then
      some (textAfter before? (statement :: rest),
        (gap before? statement ++ createTableWords).utf8ByteSize)
    else textFrom target (some statement) rest

end Statement

namespace MigrationError

def message : MigrationError → String
  | tableExists name =>
    let failed := migrations.findSome? fun m =>
      Statement.textFrom (.createTable name) none m.statements
    "table " ++ name ++ " already exists" ++
      failed.elim "" fun (text, offset) => " in " ++ text ++ " at offset " ++ toString offset
  | indexExists name => "index " ++ name ++ " already exists"
  | alreadyRecorded _ => "UNIQUE constraint failed: schema_version.name"

/-- The errors behind an error. -/
def causes : MigrationError → List String
  | tableExists _ | indexExists _ => ["Error code 1: SQL error or missing database"]
  | alreadyRecorded _ => ["Error code 1555: A PRIMARY KEY constraint failed"]

end MigrationError
end Gazette
