import Gazette.Files.Path

/-!
# Command lines

What can be asked of the program.
-/
namespace Gazette.CommandLine
open Gazette.Files

/-- Where the templates of a project and the values of their parameters come from. -/
structure ProjectParams where
  /-- Parameters with their values, in order. -/
  set : List (String × String) := []
  keywords : List String := []
  templates : Option Path := none
deriving DecidableEq, Repr, Inhabited

structure ProjectArgs where
  params : ProjectParams
  /-- The directory to write to, or the archive. -/
  output : Path
  zip : Bool := false
  strict : Bool := false
  force : Bool := false
  dryRun : Bool := false
deriving DecidableEq, Repr, Inhabited

inductive Command
  | serve
  | scaffold (args : ProjectArgs)
  | scaffoldCheck (params : ProjectParams)
  | addUser (username email : String) (admin : Bool)
  | issueToken (username : String)
deriving DecidableEq, Repr, Inhabited

structure Invocation where
  config : Option Path := none
  host : Option String := none
  port : Option Nat := none
  dataDir : Option Path := none
  command : Command
deriving DecidableEq, Repr, Inhabited

end Gazette.CommandLine
