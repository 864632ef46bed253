import Gazette.CommandLine.Error
import Gazette.Configuration
import Gazette.Editor
import Gazette.Scaffold.Output
import Gazette.Store.Script

/-!
# Failures

Why a command comes to nothing, and the report on it. The report names the failure and then, one
on a line, the errors behind it.
-/
namespace Gazette.Program
open Files Scaffold

inductive Failure
  | configuration (cause : ConfigurationError)
  /-- A directory for the data could not be made. -/
  | directory (cause : FileError)
  /-- The file of the database could not be used. -/
  | databaseFile (cause : FileError)
  | notDatabase
  /-- The path of the database is an address on another host. -/
  | foreignHost (host : String)
  | migration (cause : MigrationError)
  | malformedAddress
  | scaffold (cause : ScaffoldError)
  /-- The templates and their parameters do not fit together. -/
  | unclean (report : CheckReport)
  | userRefused (username : String) (cause : EditorError)
  | unknownUser (username : String)
  | store (cause : StoreError)
deriving Repr

namespace Failure

def message : Failure → String
  | configuration cause => cause.message
  | directory cause | databaseFile cause => cause.message
  | notDatabase => "file is not a database"
  | foreignHost host => "timed out waiting for connection: invalid uri authority: " ++ host
  | migration cause => cause.message
  | malformedAddress => "invalid socket address syntax"
  | scaffold cause => cause.message
  | unclean _ => "template check failed"
  | userRefused username _ => "could not create user " ++ username
  | unknownUser username => "no user named " ++ username
  | store cause => cause.message

/-- The errors behind a failure, outermost first. -/
def causes : Failure → List String
  | notDatabase => ["Error code 26: File opened that is not a database file"]
  | migration cause => cause.causes
  | scaffold cause => cause.causes
  | userRefused _ (.content cause) => [cause.message]
  | userRefused _ (.store cause) => cause.message :: cause.causes
  | store cause => cause.causes
  | _ => []

end Failure

/-- Puts something in front of every line of a text: `first` in front of the first line and `next`
in front of the others. -/
def indented (first next : String) (s : String) : String :=
  first ++ String.ofList
    (List.intercalate ('\n' :: next.toList) (Text.split (· == '\n') s.toList))

/-- The causes as they stand in a report. They are numbered if there are several. -/
def shownCauses : List String → List String
  | [] => []
  | [cause] => [indented "    " "    " cause]
  | causes =>
    (causes.zip (List.range causes.length)).map fun (cause, n) =>
      indented ("    " ++ toString n ++ ": ") "       " cause

def Failure.report (failure : Failure) : String :=
  let lines := ("Error: " ++ failure.message) ::
    match shownCauses failure.causes with
    | [] => []
    | causes => "" :: "Caused by:" :: causes
  String.join (lines.map (· ++ "\n"))

end Gazette.Program
