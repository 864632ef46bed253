import Gazette.Proofs.Output
import Mathlib.Data.List.Basic

/-!
# Projects

A project is written without force. Nothing that was there is replaced, and if it is not written as
a whole, no file of it is there: only the first file can fail, and it fails before it is created.
The path to write to must not step back from a place where nothing is, since such a path leads
somewhere else once directories were made.
-/
namespace Gazette.Scaffold
open Files Files.DiskAction

variable {disk before after : Disk} {location : Location} {path output : Path}
  {name : List Char}

/-- Templates are read without a change of the disk, and their paths are those of the ones they
replace. -/
theorem Template.load_outcome (directory : Path) (template : Template) (disk : Disk) :
    ((template.load directory).outcome disk).2 = disk ∧
      ∀ loaded, ((template.load directory).outcome disk).1 = .ok loaded →
        loaded.output = template.output := by
  unfold load
  rw [outcome_bind, outcome_get]
  dsimp only
  split
  · refine ⟨rfl, fun loaded hloaded => ?_⟩
    cases hloaded
    rfl
  · refine ⟨rfl, fun loaded hloaded => ?_⟩
    cases hloaded
    rfl
  · exact ⟨rfl, nofun⟩

theorem mapM_load_outcome (directory : Path) (templates : TemplateSet) (disk : Disk) :
    (outcome (templates.mapM (Template.load directory)) disk).2 = disk ∧
      ∀ loaded, (outcome (templates.mapM (Template.load directory)) disk).1 = .ok loaded →
        loaded.map (·.output) = templates.map (·.output) := by
  induction templates with
  | nil =>
      refine ⟨rfl, fun loaded hloaded => ?_⟩
      cases hloaded
      rfl
  | cons template templates ih =>
      obtain ⟨hfirst, hpath⟩ := template.load_outcome directory disk
      rw [List.mapM_cons, outcome_bind]
      generalize (template.load directory).outcome disk = result at hfirst hpath
      obtain ⟨_ | first, same⟩ := result
      · exact ⟨hfirst, nofun⟩
      · obtain rfl : same = disk := hfirst
        dsimp only
        rw [outcome_bind]
        generalize outcome (templates.mapM (Template.load directory)) same = result at ih
        obtain ⟨_ | rest, same'⟩ := result
        · exact ⟨ih.1, nofun⟩
        · refine ⟨ih.1, fun loaded hloaded => ?_⟩
          cases hloaded
          rw [List.map_cons, List.map_cons, hpath first rfl, ih.2 rest rfl]

theorem TemplateSet.load_outcome (directory? : Option Path) (disk : Disk) :
    ((load directory?).outcome disk).2 = disk ∧
      ∀ templates, ((load directory?).outcome disk).1 = .ok templates →
        templates.map (·.output) = bundled.map (·.output) := by
  cases directory? with
  | none =>
      refine ⟨rfl, fun templates h => ?_⟩
      cases h
      rfl
  | some directory =>
      unfold load
      rw [outcome_bind, ask, outcome_look]
      cases disk.exists? directory with
      | error e =>
          refine ⟨rfl, fun templates h => ?_⟩
          cases h
      | ok found =>
          cases found with
          | false =>
              refine ⟨rfl, fun templates h => ?_⟩
              cases h
          | true => exact mapM_load_outcome directory bundled disk

/-- What is known about the files of a project. Only the path of the first one depends on the
parameters. -/
structure IsProject (component page manifest : ProjectFile) : Prop where
  beginning : "src/components/".toList <+: component.path.chars
  isInside : component.path.isInside = true
  page : page.path = ⟨"public/index.html"⟩
  manifest : manifest.path = ⟨"package.json"⟩

theorem pieces_component :
    pieces "src/components/\x7b\x7b component_name|default:'App' \x7d\x7d.js" =
      "src/components/".toList.map .char ++
        .slot ⟨"component_name", some "App"⟩
          "\x7b\x7b component_name|default:'App' \x7d\x7d".toList :: ".js".toList.map .char := by
  decide +kernel

theorem pieces_page : pieces "public/index.html" = "public/index.html".toList.map .char := by
  decide +kernel

theorem pieces_manifest : pieces "package.json" = "package.json".toList.map .char := by
  decide +kernel

theorem exists_isProject [Libraries] {templates : TemplateSet} {params : Params} {strict : Bool}
    {files : List ProjectFile} (hfiles : generate templates params strict = .ok files)
    (htemplates : templates.map (·.output) = TemplateSet.bundled.map (·.output)) :
    ∃ component page manifest, files = [component, page, manifest] ∧
      IsProject component page manifest := by
  obtain ⟨first, second, third, rfl⟩ : ∃ first second third, templates = [first, second, third] :=
    List.length_eq_three.1 (by simpa [TemplateSet.bundled] using congrArg List.length htemplates)
  obtain ⟨hfirst, hsecond, hthird⟩ : first.output = _ ∧ second.output = _ ∧ third.output = _ := by
    simpa [TemplateSet.bundled] using htemplates
  have hmade := generate_ok hfiles
  obtain ⟨component, rest, hcomponent, -, rfl⟩ := generate_cons_ok hfiles
  obtain ⟨rfl, rfl⟩ := List.cons.inj hmade
  refine ⟨_, _, _, rfl, ?_, ?_, ?_, ?_⟩
  · show _ <+: (String.ofList ((pieces first.output).flatMap (Piece.render params))).toList
    rw [hfirst, pieces_component, List.flatMap_append, render_chars]
    exact ⟨_, String.toList_ofList.symm⟩
  · rw [Template.generate_eq] at hcomponent
    split at hcomponent
    · cases hcomponent
    · next hinside => exact (Bool.not_eq_false _).mp hinside
  · show (⟨(render second.output params).text⟩ : Path) = _
    rw [hsecond, render_plain pieces_page]
  · show (⟨(render third.output params).text⟩ : Path) = _
    rw [hthird, render_plain pieces_manifest]

theorem isInside_steps (h : path.isInside = true) :
    path.isAbsolute = false ∧ ['.', '.'] ∉ path.steps := by
  unfold Path.isInside Path.components at h
  rw [Bool.and_eq_true, List.all_eq_true] at h
  refine ⟨?_, fun hback => ?_⟩
  · rcases Path.start_cases path.chars with ⟨rest, -, hstart⟩ | ⟨hchars, -⟩ | ⟨rest, hchars, -⟩ |
      ⟨hhead, -⟩
    · rw [hstart] at h
      cases h.2 .root List.mem_cons_self
    · simp [Path.isAbsolute, hchars]
    · simp [Path.isAbsolute, hchars]
    · exact beq_false_of_ne hhead
  · rw [Path.steps, Path.steps_start] at hback
    cases h.2 .parent (List.mem_append_right _ (List.mem_map.2 ⟨_, hback, rfl⟩))

/-- Nothing that was there is replaced, and an action that fails leaves no file that was not there.
-/
structure IsSafe {ε α : Type} (before : Disk) (outcome : Except ε α × Disk) : Prop where
  grows : before.Grows outcome.2
  whole : ∀ e, outcome.1 = .error e → ∀ place content,
    outcome.2.node? place = some (.file content) → before.node? place = some (.file content)

theorem isSafe_same {ε α : Type} (result : Except ε α) (disk : Disk) :
    IsSafe disk (result, disk) :=
  ⟨Disk.grows_refl disk, fun _ _ _ _ => id⟩

theorem isSafe_of_grows {ε α : Type} {a : α} (h : before.Grows after) :
    IsSafe before ((.ok a, after) : Except ε α × Disk) :=
  ⟨h, nofun⟩

theorem isSafe_of_makes {ε α : Type} {e : ε} {steps : List (List Char)}
    (h : before.Makes location steps after) :
    IsSafe before ((.error e, after) : Except ε α × Disk) where
  grows := h.toGrows
  whole := by
    intro e _ place content hnew
    cases hold : before.node? place with
    | none => cases (h.made place _ hnew hold).1
    | some node => rw [← h.nodes place node hold, hnew]

/-- It makes no difference how failures are called, and what is given back. -/
theorem IsSafe.adapt_then {ε ε' α β : Type} {p : DiskAction ε α} (h : IsSafe disk (p.outcome disk))
    (g : ε → ε') (b : β) :
    IsSafe disk (outcome (ExceptT.adapt g p >>= fun _ => pure b : DiskAction ε' β) disk) := by
  rw [outcome_bind, outcome_adapt]
  generalize p.outcome disk = result at h
  obtain ⟨_ | _, after⟩ := result
  · exact ⟨h.grows, fun _ _ => h.whole _ rfl⟩
  · exact isSafe_of_grows h.grows

/-- Where a path led to nothing that could be found, a file is written safely. -/
theorem putFile_isSafe (content : Content) (htree : disk.IsTree)
    (hback : ¬ disk.TurnsBack (disk.origin path) path.steps)
    (hfind : ∀ found, disk.find path ≠ .ok found) :
    IsSafe disk ((putFile path content).outcome disk) := by
  obtain ⟨made, hmakes, ⟨e, herror⟩ | ⟨directory, name, hput, -, hfree⟩⟩ :=
    putFile_cases content htree hback hfind
  · rw [herror]
    exact isSafe_of_makes hmakes
  · have hroot : directory ++ [name] ≠ [] := by simp
    rw [hput]
    exact isSafe_of_grows (hmakes.toGrows.put hroot hfree _)

theorem isPlain_of_short {s : String} (h : s.toList ≠ [] ∧ s.toList ≠ ['.'] ∧ s.toList ≠ ['.', '.'])
    (hshort : s.utf8ByteSize ≤ Disk.nameLimit) : IsPlain s.toList := by
  refine ⟨by simp [Path.isTrivial, h], h.2.2, ?_⟩
  rwa [String.ofList_toList]

theorem endsIn_join {file : Path} {parts : List (List Char)} (hinside : file.isAbsolute = false)
    (hparts : Path.segments file.chars = parts ++ [name])
    (hcount : ∀ part ∈ parts, Path.isTrivial part = false) (hplain : IsPlain name)
    (hfind : before.find (output.join file) = .error .notFound) :
    EndsIn (output.join file) (output.steps ++ parts) name := by
  have hfile : file.steps = parts ++ [name] := by
    rw [Disk.steps_of_ending hparts hplain.counts, List.filter_eq_self.2]
    intro part hpart
    simp [hcount part hpart]
  have hsteps : (output.join file).steps = output.steps ++ parts ++ [name] := by
    rw [Path.steps_join _ hinside, hfile, List.append_assoc]
  refine ⟨Disk.isWalkable_of_notFound hfind ?_, hplain, hsteps, ?_⟩
  · intro hempty
    rw [Path.steps_empty hempty] at hsteps
    simp at hsteps
  · obtain ⟨first, hjoin⟩ := Path.segments_join output hinside
    exact ⟨first ++ parts, by rw [hjoin, hparts, List.append_assoc]⟩

theorem origin_join {file : Path} (hinside : file.isAbsolute = false) (disk : Disk) :
    disk.origin (output.join file) = disk.origin output := by
  rw [Disk.origin, Disk.origin, Path.isAbsolute_join output hinside]

theorem exists?_false (h : disk.exists? path = .ok false) : disk.find path = .error .notFound := by
  unfold Disk.exists? at h
  split at h
  · cases h
  · assumption
  · cases h

theorem existing_outcome (paths : List Path) (disk : Disk) :
    ((existing paths).outcome disk).2 = disk ∧
      (((existing paths).outcome disk).1 = .ok [] →
        ∀ path ∈ paths, disk.find path = .error .notFound) := by
  induction paths with
  | nil =>
      refine ⟨rfl, fun _ path hpath => ?_⟩
      cases hpath
  | cons path paths ih =>
      rw [existing, outcome_bind, ask, outcome_look]
      cases hexists : disk.exists? path with
      | error e =>
          refine ⟨rfl, fun h => ?_⟩
          cases h
      | ok found =>
          simp only [Except.mapError, outcome_bind]
          generalize (existing paths).outcome disk = result at ih
          obtain ⟨_ | others, same⟩ := result
          · refine ⟨ih.1, fun h => ?_⟩
            cases h
          · cases found with
            | true =>
                refine ⟨ih.1, fun h => ?_⟩
                cases h
            | false =>
                exact ⟨ih.1,
                  fun hnone => List.forall_mem_cons.2 ⟨exists?_false hexists, ih.2 hnone⟩⟩

def putFiles (output : Path) : List ProjectFile → Action Unit
  | [] => return
  | file :: files => do
    putFile (output.join file.path) (.text file.contents)
    putFiles output files

theorem putFiles_eq (output : Path) (files : List ProjectFile) :
    ((files.zip (files.map fun file => output.join file.path)).forM fun (file, target) =>
      writeFile target file.contents) = putFiles output files := by
  induction files with
  | nil => rfl
  | cons file files ih =>
      rw [putFiles, ← ih, ← writeFile_eq]
      rfl

/-- Without force, the files are put on the disk if none of them is there. -/
theorem writeFiles_cases (files : List ProjectFile) (output : Path) (disk : Disk) :
    (∃ e, (writeFiles files output false).outcome disk = (.error e, disk)) ∨
      (∀ file ∈ files, disk.find (output.join file.path) = .error .notFound) ∧
        (writeFiles files output false).outcome disk =
          outcome (putFiles output files >>= fun _ =>
            pure (files.map fun file => output.join file.path)) disk := by
  obtain ⟨hsame, hnone⟩ := existing_outcome (files.map fun file => output.join file.path) disk
  unfold writeFiles
  simp only [putFiles_eq, Bool.not_false, if_true]
  rw [outcome_bind]
  generalize (existing (files.map fun file => output.join file.path)).outcome disk = result
    at hsame hnone
  obtain ⟨e | found, same⟩ := result
  · exact .inl ⟨e, congrArg (Prod.mk _) hsame⟩
  · obtain rfl : same = disk := hsame
    cases found with
    | nil => exact .inr ⟨List.forall_mem_map.1 (hnone rfl), rfl⟩
    | cons path paths => exact .inl ⟨_, rfl⟩

section Files
variable {component page manifest : ProjectFile}

theorem IsProject.segments (h : IsProject component page manifest) :
    ∃ more, Path.segments component.path.chars = "src".toList :: "components".toList :: more := by
  obtain ⟨rest, hrest⟩ := h.beginning
  have hchars : component.path.chars =
      "src".toList ++ '/' :: ("components".toList ++ '/' :: rest) := hrest.symm
  rw [hchars, Path.segments_append, Path.segments_append]
  exact ⟨_, rfl⟩

/-- A file and one in a directory beside it are put on the disk where both places are free. -/
theorem putFile_beside {other : Path} {above : List (List Char)} {sub name last : List Char}
    {base : Location} (content more : Content) (hnested : EndsIn path (above ++ [sub]) last)
    (hplain : EndsIn other above name) (hsub : IsPlain sub)
    (horigin : disk.origin other = disk.origin path)
    (henter : disk.enter (disk.origin path) above = .ok base)
    (hdirectory : disk.node? (base ++ [String.ofList sub]) = none ∨
      disk.node? (base ++ [String.ofList sub]) = some .directory)
    (hlast : disk.node? (base ++ [String.ofList sub] ++ [String.ofList last]) = none)
    (hname : disk.node? (base ++ [String.ofList name]) = none)
    (hne : String.ofList sub ≠ String.ofList name) :
    ∃ after, outcome (putFile path content >>= fun _ => putFile other more) disk = (.ok (), after) ∧
      disk.Grows after := by
  obtain ⟨made, hput, hgrows, hframe⟩ := putFile_nested content hnested hsub henter hdirectory hlast
  have hentered : made.enter (made.origin other) above = .ok base := by
    rw [hgrows.extends.origin, horigin]
    exact hgrows.extends.enter henter
  have hfree : made.node? (base ++ [String.ofList name]) = none := by
    rw [hframe _ (by simpa [List.prefix_append_right_inj] using hne), hname]
  refine ⟨_, ?_, hgrows.trans ((Disk.grows_refl made).put (by simp) hfree (.file more))⟩
  rw [outcome_bind, hput]
  exact putFile_plain more hplain hentered hfree

/-- The other two files of a project stand beside the first one, so nothing of it is in their
way. -/
theorem IsProject.putFiles_beside {base : Location} {first : Disk}
    (h : IsProject component page manifest) (htree : disk.IsTree)
    (hpage : disk.find (output.join page.path) = .error .notFound)
    (hmanifest : disk.find (output.join manifest.path) = .error .notFound)
    (hwas : WasFree disk (disk.origin output) output.steps base)
    (hbase : first.enter (disk.origin output) output.steps = .ok base)
    (hunder : GrowsUnder disk base (String.ofList "src".toList) first) :
    ∃ after, (putFiles output [page, manifest]).outcome first = (.ok (), after) ∧
      first.Grows after := by
  rw [h.page] at hpage
  rw [h.manifest] at hmanifest
  have hplace (name : String) (names : List String) (hname : name ≠ String.ofList "src".toList) :
      first.node? (base ++ name :: names) = disk.node? (base ++ name :: names) :=
    hunder.node?_eq (List.prefix_append _ _) (by simp) (by
      rw [List.prefix_append_right_inj]
      simpa using Ne.symm hname)
  have horigin (file : Path) (hfile : file.isAbsolute = false) (disk : Disk) :
      disk.origin output = disk.origin (output.join file) :=
    (origin_join hfile disk).symm
  have hnested : EndsIn (output.join ⟨"public/index.html"⟩) (output.steps ++ ["public".toList])
      "index.html".toList :=
    endsIn_join rfl rfl (by decide) (isPlain_of_short (by decide) (by decide)) hpage
  have hplain :
      EndsIn (output.join ⟨"package.json"⟩) (output.steps ++ []) "package.json".toList :=
    endsIn_join rfl rfl (by decide) (isPlain_of_short (by decide) (by decide)) hmanifest
  rw [List.append_nil] at hplain
  have hpublic := isPlain_of_short (s := "public") (by decide) (by decide)
  obtain ⟨hsub, hindex⟩ :=
    (horigin ⟨"public/index.html"⟩ rfl disk ▸ hwas).free_sub htree hnested hpublic hpage
  have hpackage := (horigin ⟨"package.json"⟩ rfl disk ▸ hwas).free_name htree hplain hmanifest
  have hentered : first.enter (first.origin (output.join ⟨"public/index.html"⟩)) output.steps =
      .ok base := by
    rwa [← horigin _ rfl, hunder.extends.origin]
  obtain ⟨after, hrest, hgrows⟩ := putFile_beside (.text page.contents) (.text manifest.contents)
    hnested hplain hpublic (by rw [← horigin _ rfl, ← horigin _ rfl]) hentered
    (by rwa [hplace _ _ (by decide)])
    (by rwa [List.append_assoc, List.singleton_append, hplace _ _ (by decide),
      ← List.singleton_append, ← List.append_assoc])
    (by rwa [hplace _ _ (by decide)]) (by decide)
  refine ⟨after, ?_, hgrows⟩
  rw [← hrest, ← h.page, ← h.manifest]
  simp only [putFiles, bind_pure_unit]

/-- The files of a project are written where nothing is, all of them or none. -/
theorem IsProject.putFiles_isSafe (h : IsProject component page manifest) (htree : disk.IsTree)
    (hback : ¬ disk.TurnsBack (disk.origin output) output.steps)
    (hfind : ∀ file ∈ [component, page, manifest],
      disk.find (output.join file.path) = .error .notFound) :
    IsSafe disk ((putFiles output [component, page, manifest]).outcome disk) := by
  obtain ⟨hcomponent, hpage, hmanifest⟩ : _ ∧ _ ∧ _ := by simpa using hfind
  obtain ⟨more, hsegments⟩ := h.segments
  obtain ⟨hrelative, hdown⟩ := isInside_steps h.isInside
  have hsteps : component.path.steps = "src".toList :: ("components".toList ::
      more.filter fun segment => !Path.isTrivial segment) := by
    rw [Path.steps, hsegments]
    rfl
  have hpath := Path.steps_join output hrelative
  have horigin : disk.origin (output.join component.path) = disk.origin output :=
    origin_join hrelative disk
  rw [hsteps] at hpath hdown
  rw [← horigin] at hback
  rw [putFiles, outcome_bind]
  rcases putFile_below (.text component.contents) htree hpath (List.cons_ne_nil _ _) hback hdown
    rfl hcomponent with ⟨e, after, herror, hmakes⟩ | ⟨first, base, hput, hwas, hbase, hunder⟩
  · rw [herror]
    exact isSafe_of_makes hmakes
  · rw [horigin] at hwas hbase
    obtain ⟨after, hrest, hgrows⟩ := h.putFiles_beside htree hpage hmanifest hwas hbase hunder
    rw [hput]
    show IsSafe disk ((putFiles output [page, manifest]).outcome first)
    rw [hrest]
    exact isSafe_of_grows (hunder.toGrows.trans hgrows)

/-- The entries of a project have different names, since only the first one starts as it does. -/
theorem IsProject.packEntries (h : IsProject component page manifest) :
    (packEntries [] [component, page, manifest]).2 = none := by
  obtain ⟨more, hsegments⟩ := h.segments
  obtain ⟨names, hnames⟩ : ∃ names, component.path.names = "src" :: names := by
    have hstart : Path.start component.path.chars = ([], component.path.chars) := by
      obtain ⟨rest, hrest⟩ := h.beginning
      rw [← hrest]
      rfl
    unfold Path.names Path.components
    rw [hstart]
    dsimp only
    rw [hsegments]
    exact ⟨_, rfl⟩
  have hentry : component.entryName.toList.head? = some 's' := by
    rw [ProjectFile.entryName, hnames, String.toList_intercalate]
    cases names <;> rfl
  have hpage : page.entryName = "public/index.html" := by
    rw [ProjectFile.entryName, h.page]
    decide +kernel
  have hmanifest : manifest.entryName = "package.json" := by
    rw [ProjectFile.entryName, h.manifest]
    decide +kernel
  have hne (name : String) (hname : name.toList.head? = some 'p') :
      (name == component.entryName) = false := by
    refine beq_false_of_ne fun heq => ?_
    rw [heq, hentry] at hname
    cases hname
  have hfirst := hne "public/index.html" (by decide)
  have hsecond := hne "package.json" (by decide)
  simp [Scaffold.packEntries, List.lookup_cons, hpage, hmanifest, hfirst, hsecond]

end Files

/-- An archive is put on the disk, unless something can be found where it is to be and is not
forced to give way. -/
theorem writeArchive_outcome (files : List ProjectFile) (archive : Path) (force : Bool)
    (disk : Disk) :
    (writeArchive files archive force).outcome disk =
      if force = false ∧ disk.has archive = true then
        (.error (.alreadyExists [archive]), disk)
      else outcome (do
        putFile archive (.archive (packEntries [] files).1)
        if let some name := (packEntries [] files).2 then
          throw (.duplicateEntry archive name)) disk := by
  by_cases hrefuse : force = false ∧ disk.has archive = true
  · rw [if_pos hrefuse]
    unfold writeArchive
    simp only [outcome_bind, outcome_get, hrefuse]
    rfl
  · have hpass : (!force && disk.has archive) = false := by simpa using hrefuse
    rw [if_neg hrefuse]
    unfold writeArchive putFile makeParent
    simp only [outcome_bind, outcome_get, hpass, Bool.false_eq_true, if_false]
    cases archive.parent? with
    | none =>
        dsimp only
        rw [outcome_pure]
        exact outcome_bind _ _ disk
    | some parent =>
        obtain ⟨text⟩ := parent
        split
        · next heq =>
            cases heq
            rw [outcome_adapt, createDirectories_empty rfl]
            exact outcome_bind _ _ disk
        · next heq => cases heq
        · next heq =>
            cases heq
            rw [outcome_bind]
            generalize outcome (ExceptT.adapt _ _) disk = result
            obtain ⟨_ | _, made⟩ := result
            · rfl
            · exact outcome_bind _ _ made

/-- Without force, an archive is put on the disk if nothing can be found where it is to be. -/
theorem writeArchive_cases (files : List ProjectFile) (archive : Path) (disk : Disk) :
    (∃ e, (writeArchive files archive false).outcome disk = (.error e, disk)) ∨
      (∀ found, disk.find archive ≠ .ok found) ∧
        (writeArchive files archive false).outcome disk =
          outcome (do
            putFile archive (.archive (packEntries [] files).1)
            if let some name := (packEntries [] files).2 then
              throw (.duplicateEntry archive name)) disk := by
  rw [writeArchive_outcome]
  cases hhas : disk.has archive with
  | true => exact .inl ⟨.alreadyExists [archive], by rw [if_pos ⟨rfl, rfl⟩]⟩
  | false =>
      refine .inr ⟨fun found hfound => ?_, by rw [if_neg (by simp)]⟩
      simp [Disk.has, hfound] at hhas

section Ways
variable {component page manifest : ProjectFile}

theorem IsProject.writeFiles_isSafe (h : IsProject component page manifest) (htree : disk.IsTree)
    (hback : ¬ disk.TurnsBack (disk.origin output) output.steps) :
    IsSafe disk ((writeFiles [component, page, manifest] output false).outcome disk) := by
  rcases writeFiles_cases [component, page, manifest] output disk with ⟨e, he⟩ | ⟨hfind, hwrite⟩
  · rw [he]
    exact isSafe_same _ disk
  · have hsafe := h.putFiles_isSafe htree hback hfind
    rw [hwrite, outcome_bind]
    generalize (putFiles output [component, page, manifest]).outcome disk = result at hsafe
    obtain ⟨e | _, after⟩ := result
    · exact ⟨hsafe.grows, fun _ _ => hsafe.whole e rfl⟩
    · exact isSafe_of_grows hsafe.grows

theorem IsProject.writeArchive_isSafe (h : IsProject component page manifest) (htree : disk.IsTree)
    (hback : ¬ disk.TurnsBack (disk.origin output) output.steps) :
    IsSafe disk ((writeArchive [component, page, manifest] output false).outcome disk) := by
  rcases writeArchive_cases [component, page, manifest] output disk with ⟨e, he⟩ | ⟨hfind, hwrite⟩
  · rw [he]
    exact isSafe_same _ disk
  · rw [hwrite, h.packEntries, bind_pure_unit]
    exact putFile_isSafe _ htree hback hfind

end Ways

end Gazette.Scaffold
