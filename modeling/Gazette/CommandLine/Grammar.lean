/-!
# The grammar of command lines

A command line goes through levels: it starts at the root, and the name of a subcommand leads to
the next level. Every level has options of its own besides the ones that all levels have.
-/
namespace Gazette.CommandLine

/-- What the value of an option is. -/
inductive ValueKind
  | path
  | text
  | port
  /-- A key and a value, with an equals sign between them. -/
  | pair
deriving DecidableEq, Repr

inductive OptionKind
  | value (kind : ValueKind)
  /-- An option with a value that may be given several times. -/
  | values (kind : ValueKind)
  | flag
  | help
deriving DecidableEq, Repr

structure OptionSpec where
  /-- The name after two hyphens. -/
  long : String
  /-- The letter after one hyphen. -/
  short : Option Char := none
  kind : OptionKind
  /-- What stands for the value in messages. -/
  valueName : String := ""
  required : Bool := false
deriving DecidableEq, Repr

/-- The option as messages show it. -/
def OptionSpec.shown (spec : OptionSpec) : String :=
  match spec.kind with
  | .value _ | .values _ => "--" ++ spec.long ++ " <" ++ spec.valueName ++ ">"
  | .flag | .help => "--" ++ spec.long

inductive Level
  | root
  | serve
  | scaffold
  | scaffoldCheck
  | user
  | addUser
  | issueToken
  /-- Explains other subcommands. -/
  | help
deriving DecidableEq, Repr

/-- The options that every level has. -/
def commonOptions : List OptionSpec :=
  [ { long := "config", short := some 'c', kind := .value .path, valueName := "CONFIG" },
    { long := "host", kind := .value .text, valueName := "HOST" },
    { long := "port", short := some 'p', kind := .value .port, valueName := "PORT" },
    { long := "data-dir", kind := .value .path, valueName := "DATA_DIR" },
    { long := "help", short := some 'h', kind := .help } ]

def projectOptions : List OptionSpec :=
  [ { long := "set", kind := .values .pair, valueName := "KEY=VALUE" },
    { long := "keyword", kind := .values .text, valueName := "KEYWORD" },
    { long := "templates", kind := .value .path, valueName := "TEMPLATES" } ]

namespace Level

def ownOptions : Level → List OptionSpec
  | root | serve | user | help => []
  | scaffold =>
    projectOptions ++
      [ { long := "output", short := some 'o', kind := .value .path, valueName := "OUTPUT",
          required := true },
        { long := "zip", kind := .flag }, { long := "strict", kind := .flag },
        { long := "force", kind := .flag }, { long := "dry-run", kind := .flag } ]
  | scaffoldCheck => projectOptions
  | addUser =>
    [ { long := "username", kind := .value .text, valueName := "USERNAME", required := true },
      { long := "email", kind := .value .text, valueName := "EMAIL", required := true },
      { long := "admin", kind := .flag } ]
  | issueToken =>
    [{ long := "username", kind := .value .text, valueName := "USERNAME", required := true }]

def options (level : Level) : List OptionSpec :=
  commonOptions ++ level.ownOptions

def long? (name : String) (level : Level) : Option OptionSpec :=
  level.options.find? fun spec => spec.long == name

def short? (c : Char) (level : Level) : Option OptionSpec :=
  level.options.find? fun spec => spec.short == some c

/-- The levels that subcommands lead to. A level with subcommands must be left through one. -/
def subcommands : Level → List (String × Level)
  | root =>
    [("serve", serve), ("scaffold", scaffold), ("scaffold-check", scaffoldCheck), ("user", user),
      ("help", help)]
  | user => [("add", addUser), ("token", issueToken), ("help", help)]
  | serve | scaffold | scaffoldCheck | addUser | issueToken | help => []

def subcommand? (name : String) (level : Level) : Option Level :=
  level.subcommands.lookup name

/-- The first line of the help on a level. -/
def about : Level → String
  | root => "A blog content backend with a React project scaffolder"
  | serve => "Run the content API server"
  | scaffold => "Render the React project templates into a directory"
  | scaffoldCheck => "Report unresolved and unused template parameters without writing"
  | user => "Manage users and API tokens"
  | addUser => "Create a user and print an API token for it"
  | issueToken => "Issue a new API token for an existing user"
  | help => "Print this message or the help of the given subcommand(s)"

/-- The words that lead to a level with subcommands. -/
def words : Level → String
  | user => "folio user"
  | _ => "folio"

end Level
end Gazette.CommandLine
