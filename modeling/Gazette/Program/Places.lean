import Gazette.Program.Run

/-!
# Places that matter to a run

A run looks at few places of a disk. These are known once the configuration is, and where the
configuration stands follows from the command line.
-/
namespace Gazette.Program
open CommandLine Files Scaffold

/-- The place where the configuration may stand. -/
def configurationPlaces (home : Path) (invocation : Invocation) : List Path :=
  [invocation.config.getD ((invocation.dataDirIn home).join ⟨"config.toml"⟩)]

/-- The places from which templates are read. -/
def templatePlaces (params : ProjectParams) (config : Configuration) : List Path :=
  match params.templates <|> config.templatesDir with
  | none => []
  | some directory =>
    directory :: TemplateSet.bundled.map fun template => directory.join ⟨template.fileName⟩

/-- The places that a project is written to. -/
def outputPlaces (args : ProjectArgs) : List Path :=
  let params := Params.ofPairs args.params.set args.params.keywords
  args.output :: TemplateSet.bundled.map fun template =>
    args.output.join ⟨(render template.output params).text⟩

/-- The places that a command looks at, or writes to. -/
def places (home : Path) (invocation : Invocation) (config : Configuration) : List Path :=
  match invocation.command with
  | .scaffold args => templatePlaces args.params config ++ outputPlaces args
  | .scaffoldCheck params => templatePlaces params config
  | .serve | .addUser _ _ _ | .issueToken _ =>
    invocation.dataDirIn home :: config.databasePath.toList.flatMap fun path =>
      [path, databaseFile path]

end Gazette.Program
