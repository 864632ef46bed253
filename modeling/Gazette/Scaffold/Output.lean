import Gazette.Files.Disk
import Gazette.Scaffold.Generate

/-!
# Templates and projects on disk

Templates are read from a directory, in which a file replaces the contents of the template of the
same name. A project is written either as files or as one archive. Without force, nothing is
written if something that exists would be replaced. The names of the entries of an archive are
assumed to be no longer than an archive can hold.
-/
namespace Gazette.Scaffold
open Gazette.Files

/-- An action on a disk that fails with an error of scaffolding. -/
abbrev Action (α : Type) := DiskAction ScaffoldError α

/-- A template with the contents that a directory has for it. -/
def Template.load (directory : Path) (template : Template) : Action Template := do
  let path := directory.join ⟨template.fileName⟩
  match (← get).readText path with
  | .ok contents => return { template with contents := contents, source := some path.text }
  | .error .notFound => return template
  | .error e => throw (.file path e)

/-- The templates, with what a directory replaces. -/
def TemplateSet.load : Option Path → Action TemplateSet
  | none => return bundled
  | some directory => do
    if !(← DiskAction.ask (.file directory) (Disk.exists? directory)) then
      throw (.missingTemplateDir directory)
    bundled.mapM (Template.load directory)

/-- The paths that lead to something already. -/
def existing : List Path → Action (List Path)
  | [] => return []
  | path :: paths => do
    let found ← DiskAction.ask (.file path) (Disk.exists? path)
    let others ← existing paths
    return if found then path :: others else others

/-- Writes one file, in a directory that is created if necessary. -/
def writeFile (path : Path) (contents : String) : Action Unit := do
  if let some parent := path.parent? then
    ExceptT.adapt (.file parent) (DiskAction.createDirectories parent)
  DiskAction.change (.file path) (Disk.write path (.text contents))

/-- Writes the files of a project into a directory, and lists their paths. -/
def writeFiles (files : List ProjectFile) (output : Path) (force : Bool) : Action (List Path) := do
  let targets := files.map fun file => output.join file.path
  if !force then
    let found ← existing targets
    if found ≠ [] then throw (.alreadyExists found)
  (files.zip targets).forM fun (file, target) => writeFile target file.contents
  return targets

/-- The name of a file in an archive. -/
def ProjectFile.entryName (file : ProjectFile) : String :=
  String.intercalate "/" file.path.names

/-- The entries of an archive, up to the first name that is already taken, and that name. -/
def packEntries (packed : List (String × String)) :
    List ProjectFile → List (String × String) × Option String
  | [] => (packed, none)
  | file :: files =>
    if (packed.lookup file.entryName).isSome then (packed, some file.entryName)
    else packEntries (packed ++ [(file.entryName, file.contents)]) files

/-- Writes the files of a project into one archive. -/
def writeArchive (files : List ProjectFile) (archive : Path) (force : Bool) : Action Unit := do
  if !force && (← get).has archive then throw (.alreadyExists [archive])
  match archive.parent? with
  | some ⟨""⟩ | none => pure ()
  | some parent => ExceptT.adapt (.file parent) (DiskAction.createDirectories parent)
  let (entries, taken) := packEntries [] files
  DiskAction.change (.file archive) (Disk.write archive (.archive entries))
  if let some name := taken then throw (.duplicateEntry archive name)

end Gazette.Scaffold
