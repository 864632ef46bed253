import Gazette.Files.Error
import Gazette.Files.Path

/-!
# Errors of scaffolding
-/
namespace Gazette.Scaffold
open Gazette.Files

inductive ScaffoldError
  | file (path : Path) (cause : FileError)
  | missingTemplateDir (path : Path)
  | unresolved (template : String) (names : List String)
  /-- `fault` is what the reader of JSON says. -/
  | invalidJson (path : Path) (fault : String)
  | unsafePath (path : Path)
  | duplicateEntry (archive : Path) (name : String)
  | alreadyExists (paths : List Path)
deriving DecidableEq, Repr

/-- What is wrong with the archive, without its path. -/
def duplicateEntryMessage (name : String) : String :=
  "invalid Zip archive: Duplicate filename: " ++ name

def ScaffoldError.message : ScaffoldError → String
  | file path cause => path.text ++ ": " ++ cause.message
  | missingTemplateDir path => "Template directory " ++ path.text ++ " does not exist"
  | unresolved template names =>
    template ++ ": unresolved placeholders: " ++ String.intercalate ", " names
  | invalidJson path fault => path.text ++ ": rendered manifest is not valid JSON: " ++ fault
  | unsafePath path => path.text ++ ": output path must stay inside the project directory"
  | duplicateEntry archive name => archive.text ++ ": " ++ duplicateEntryMessage name
  | alreadyExists paths =>
    "Refusing to overwrite existing files (use --force): " ++
      String.intercalate ", " (paths.map Path.text)

/-- The errors behind an error, outermost first. -/
def ScaffoldError.causes : ScaffoldError → List String
  | file _ cause => [cause.message]
  | duplicateEntry _ name => [duplicateEntryMessage name]
  | _ => []

end Gazette.Scaffold
