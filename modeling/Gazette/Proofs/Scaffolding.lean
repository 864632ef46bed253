import Gazette.Proofs.Program
import Gazette.Proofs.Project

/-!
# Scaffolding

A command line that asks for a project, without force. Nothing is written before all files were
made and their paths were looked up. What is written then replaces nothing, and a run that fails
leaves no file behind, unless the path to write to steps back from a place where nothing is: the
directories that are made on the way let such a path lead somewhere else than it did before.
-/
namespace Gazette.Program
open CommandLine Files Files.DiskAction Scaffold

variable {disk after : Disk} {args : ProjectArgs} {config : Configuration}

/-- What a command without force finds before it writes anything: all files were made, and where
they should go there is nothing to be found. -/
structure MayWrite [Libraries] (args : ProjectArgs) (config : Configuration) (disk : Disk) :
    Prop where
  dryRun : args.dryRun = false
  files : ∃ templates files,
    ((TemplateSet.load (args.params.templates <|> config.templatesDir)).outcome disk).1 =
        .ok templates ∧
      generate templates (Params.ofPairs args.params.set args.params.keywords) args.strict =
          .ok files ∧
        if args.zip then ∀ found, disk.find args.output ≠ .ok found
        else ∀ file ∈ files, disk.find (args.output.join file.path) = .error .notFound

/-- To scaffold leaves the disk as it is, or hands the files of a project to one of the writers. -/
theorem scaffold_cases [Libraries] (args : ProjectArgs) (config : Configuration) (disk : Disk) :
    (∃ result, (scaffold args config).outcome disk = (result, disk)) ∨
      args.dryRun = false ∧ ∃ templates files,
        ((TemplateSet.load (args.params.templates <|> config.templatesDir)).outcome disk).1 =
            .ok templates ∧
          generate templates (Params.ofPairs args.params.set args.params.keywords) args.strict =
              .ok files ∧
            (scaffold args config).outcome disk = outcome
              (if args.zip then
                ExceptT.adapt .scaffold (writeArchive files args.output args.force) >>= fun _ =>
                  pure (.printed [])
              else
                ExceptT.adapt .scaffold (writeFiles files args.output args.force) >>= fun _ =>
                  pure (.printed [])) disk := by
  obtain ⟨hsame, -⟩ :=
    TemplateSet.load_outcome (args.params.templates <|> config.templatesDir) disk
  unfold scaffold loadTemplates
  rw [outcome_bind, outcome_adapt]
  generalize
    (TemplateSet.load (args.params.templates <|> config.templatesDir)).outcome disk = result
    at hsame
  obtain ⟨e | templates, same⟩ := result
  · obtain rfl : same = disk := hsame
    exact .inl ⟨_, rfl⟩
  · obtain rfl : same = disk := hsame
    dsimp only [Except.mapError]
    cases hfiles : generate templates (Params.ofPairs args.params.set args.params.keywords)
        args.strict with
    | error e => exact .inl ⟨_, rfl⟩
    | ok files =>
        cases hdry : args.dryRun with
        | true => exact .inl ⟨_, rfl⟩
        | false => exact .inr ⟨rfl, templates, files, rfl, hfiles, rfl⟩

theorem adapt_then_disk {ε ε' α β : Type} (p : DiskAction ε α) (g : ε → ε') (b : β) (disk : Disk) :
    (outcome (ExceptT.adapt g p >>= fun _ => pure b : DiskAction ε' β) disk).2 =
      (p.outcome disk).2 := by
  rw [outcome_bind, outcome_adapt]
  cases (p.outcome disk).1 <;> rfl

theorem mayWrite_of_changes [Libraries] (hforce : args.force = false)
    (h : ((scaffold args config).outcome disk).2 ≠ disk) : MayWrite args config disk := by
  rcases scaffold_cases args config disk with ⟨result, hsame⟩ |
    ⟨hdry, templates, files, htemplates, hfiles, hwrite⟩
  · exact absurd (congrArg Prod.snd hsame) h
  · refine ⟨hdry, templates, files, htemplates, hfiles, ?_⟩
    rw [hwrite, hforce] at h
    split
    · next hzip =>
        rw [if_pos hzip, adapt_then_disk] at h
        rcases writeArchive_cases files args.output disk with ⟨e, he⟩ | ⟨hfind, -⟩
        · exact absurd (congrArg Prod.snd he) h
        · exact hfind
    · next hzip =>
        rw [if_neg hzip, adapt_then_disk] at h
        rcases writeFiles_cases files args.output disk with ⟨e, he⟩ | ⟨hfind, -⟩
        · exact absurd (congrArg Prod.snd he) h
        · exact hfind

/-- Without force, to scaffold is safe as long as the path to write to does not turn back. -/
theorem scaffold_isSafe [Libraries] (hforce : args.force = false) (htree : disk.IsTree)
    (hback : ¬ disk.TurnsBack (disk.origin args.output) args.output.steps) :
    IsSafe disk ((scaffold args config).outcome disk) := by
  rcases scaffold_cases args config disk with ⟨result, hsame⟩ |
    ⟨-, templates, files, htemplates, hfiles, hwrite⟩
  · rw [hsame]
    exact isSafe_same result disk
  · obtain ⟨component, page, manifest, rfl, hproject⟩ := exists_isProject hfiles
      ((TemplateSet.load_outcome _ disk).2 templates htemplates)
    rw [hwrite, hforce]
    split
    · exact (hproject.writeArchive_isSafe htree hback).adapt_then _ _
    · exact (hproject.writeFiles_isSafe htree hback).adapt_then _ _

section Run
variable {around : Surroundings} {words : List String} {invocation : Invocation}

theorem run_scaffold [Libraries] (hread : CommandLine.read words = .ok invocation)
    (hcommand : invocation.command = .scaffold args) (disk : Disk) :
    (∃ failure, (run around words).run disk = (Ending.ofResult (.error failure), disk)) ∨
      ∃ config, Configuration.load (invocation.dataDirIn around.home) invocation disk = .ok config ∧
        (run around words).run disk =
          (Ending.ofResult ((scaffold args config).outcome disk).1,
            ((scaffold args config).outcome disk).2) := by
  rw [run_of_read hread]
  unfold perform
  rw [outcome_bind, outcome_look]
  cases hload : Configuration.load (invocation.dataDirIn around.home) invocation disk with
  | error e => exact .inl ⟨_, rfl⟩
  | ok config =>
      refine .inr ⟨config, rfl, ?_⟩
      dsimp only [Except.mapError]
      rw [hcommand]

theorem error_of_ofResult {result : Except Failure Outcome} {code : Nat} {output errors : String}
    (h : Ending.ofResult result = .exit code output errors) (hcode : code ≠ 0) :
    ∃ failure, result = .error failure := by
  cases result with
  | error failure => exact ⟨failure, rfl⟩
  | ok outcome =>
      cases outcome with
      | printed lines =>
          cases h
          exact absurd rfl hcode
      | serving address site => cases h
      | broken => cases h

/-- Without force, a run that scaffolds writes nothing if it is a dry run, if the templates cannot
be read or the files cannot be made of them, or if one of them is there already. Whatever it writes
replaces nothing, and a run that fails leaves no file that was not there, as long as the path to
write to does not step back from a place where nothing is. -/
theorem scaffold_without_force [Libraries] {ending : Ending}
    (hread : CommandLine.read words = .ok invocation)
    (hcommand : invocation.command = .scaffold args) (hforce : args.force = false)
    (hrun : (run around words).run disk = (ending, after)) :
    (args.dryRun = true → after = disk) ∧
      (after ≠ disk → ∃ config,
        Configuration.load (invocation.dataDirIn around.home) invocation disk = .ok config ∧
          MayWrite args config disk) ∧
      (disk.IsTree → ¬ disk.TurnsBack (disk.origin args.output) args.output.steps →
        disk.Grows after ∧
          ∀ code output errors, ending = .exit code output errors → code ≠ 0 →
            ∀ place content, after.node? place = some (.file content) →
              disk.node? place = some (.file content)) := by
  rcases run_scaffold hread hcommand disk with ⟨failure, hfailed⟩ | ⟨config, hload, hdone⟩
  · obtain ⟨rfl, rfl⟩ := Prod.mk.inj (hrun.symm.trans hfailed)
    exact ⟨fun _ => rfl, fun hne => absurd rfl hne,
      fun _ _ => ⟨Disk.grows_refl _, fun _ _ _ _ _ _ _ => id⟩⟩
  · obtain ⟨rfl, rfl⟩ := Prod.mk.inj (hrun.symm.trans hdone)
    have hchanges (hne : ((scaffold args config).outcome disk).2 ≠ disk) :
        MayWrite args config disk := mayWrite_of_changes hforce hne
    refine ⟨fun hdry => ?_, fun hne => ⟨config, hload, hchanges hne⟩, fun htree hback => ?_⟩
    · by_contra hne
      rw [(hchanges hne).dryRun] at hdry
      cases hdry
    · have hsafe : IsSafe disk ((scaffold args config).outcome disk) :=
        scaffold_isSafe hforce htree hback
      refine ⟨hsafe.grows, fun code output errors hending hcode => ?_⟩
      obtain ⟨failure, hfailure⟩ := error_of_ofResult hending hcode
      exact hsafe.whole failure hfailure

end Run

attribute [local instance] Libraries.bare

namespace Sample

def desk : Surroundings where
  home := ⟨"/home"⟩
  now := .ofSeconds 0
  freshId := ""
  freshSessionId := ""
  freshToken := ""

def room : Disk where
  entries :=
    [(["package.json"], .file (.text "mine")), (["t"], .directory),
      (["t", "component.js.tpl"], .file (.text "")),
      (["t", "index.html.tpl"], .file (.text "")),
      (["t", "package.json.tpl"], .file (.text "\x7b\x7d"))]

def argsTo (output : Path) : ProjectArgs where
  params := { templates := some ⟨"t"⟩ }
  output := output

def wordsTo (output : String) : List String :=
  ["scaffold", "--templates", "t", "--output", output]

theorem isTree_room : room.IsTree :=
  Disk.isTree_of_entries (by decide)

end Sample

/-- A project is written beside a file, into a directory that is made for it. -/
theorem scaffold_without_force_to_site :
    Sample.room.Grows ((run Sample.desk (Sample.wordsTo "site")).run Sample.room).2 ∧
      ((run Sample.desk (Sample.wordsTo "site")).run Sample.room).2.textAt?
        ["site", "package.json"] = some "\x7b\x7d" := by
  have hread : CommandLine.read (Sample.wordsTo "site") =
      .ok { command := .scaffold (Sample.argsTo ⟨"site"⟩) } := by decide +kernel
  have hrun := (Prod.eta ((run Sample.desk (Sample.wordsTo "site")).run Sample.room)).symm
  obtain ⟨-, -, hsafe⟩ := scaffold_without_force hread rfl rfl hrun
  exact ⟨(hsafe Sample.isTree_room (Disk.not_turnsBack (by decide))).1, by decide +kernel⟩

/-- There is nothing at `new/../package.json` as long as there is no directory `new`. It is made for
the project, and then this is a path to the file that is there. -/
theorem scaffold_replaces :
    Sample.room.IsTree ∧ CommandLine.read (Sample.wordsTo "new/..") =
        .ok { command := .scaffold (Sample.argsTo ⟨"new/.."⟩) } ∧
      (Sample.argsTo ⟨"new/.."⟩).force = false ∧
      Sample.room.textAt? ["package.json"] = some "mine" ∧
      ((run Sample.desk (Sample.wordsTo "new/..")).run Sample.room).2.textAt? ["package.json"] =
        some "\x7b\x7d" ∧
      ¬ Sample.room.Grows ((run Sample.desk (Sample.wordsTo "new/..")).run Sample.room).2 := by
  have hbefore : Sample.room.textAt? ["package.json"] = some "mine" := by decide +kernel
  have hafter : ((run Sample.desk (Sample.wordsTo "new/..")).run Sample.room).2.textAt?
      ["package.json"] = some "\x7b\x7d" := by decide +kernel
  refine ⟨Sample.isTree_room, by decide +kernel, rfl, hbefore, hafter, fun hgrows => ?_⟩
  rw [hgrows.textAt?_eq hbefore] at hafter
  exact absurd (Option.some.inj hafter) (by decide)

end Gazette.Program
