import Gazette.Proofs.WrittenFiles

/-!
# Where a project goes

Only one path of a project depends on the parameters, and it is refused exactly if it has a part
that steps back. The other paths of parts that count lead to three different places below the
directory that is written to, none of them above another. An archive names its entries by the same
parts, so that it is unpacked to what would have been written without it.
-/
namespace Gazette.Files
open Text

variable {disk before after : Disk} {base location place : Location} {path : Path}
  {content : Content} {name : String} {names : List String}

theorem Path.isInside_iff (path : Path) :
    path.isInside = true ↔
      path.text ≠ "" ∧ path.isAbsolute = false ∧ ['.', '.'] ∉ segments path.chars := by
  have hmem : ['.', '.'] ∈ segments path.chars ↔ ['.', '.'] ∈ path.steps := by
    simp [Path.steps, isTrivial]
  rw [hmem]
  constructor
  · intro h
    refine ⟨?_, Scaffold.isInside_steps h⟩
    rw [isInside, Bool.and_eq_true] at h
    simpa using h.1
  · rintro ⟨hne, hrelative, hback⟩
    rw [isInside, components_eq, Bool.and_eq_true, List.all_append, Bool.and_eq_true]
    refine ⟨by simpa using hne, ?_, ?_⟩
    · rcases start_cases path.chars with ⟨rest, hchars, -⟩ | ⟨-, hstart⟩ | ⟨rest, -, hstart⟩ |
        ⟨hhead, hstart⟩
      · simp [isAbsolute, hchars] at hrelative
      all_goals
        rw [hstart]
        rfl
    · rw [List.all_map, List.all_eq_true]
      intro step hstep
      have hname : step ≠ ['.', '.'] := fun heq => hback (heq ▸ hstep)
      simp [Path.component, hname]

/-- The names of a path, put between slashes, are split into the same names. -/
theorem Path.segments_names (hback : ['.', '.'] ∉ path.steps) (hne : path.steps ≠ []) :
    (segments (String.intercalate "/" path.names).toList).map String.ofList = path.names := by
  have hslash : ∀ step ∈ path.steps, '/' ∉ step := fun step hstep =>
    separator_not_mem_split (List.mem_filter.1 hstep).1
  have hlist : (String.intercalate "/" path.names).toList =
      List.intercalate ['/'] path.steps := by
    rw [names_eq_of_onwards hback, String.toList_intercalate, List.map_map]
    congr 1
    exact List.map_id'' (fun step => String.toList_ofList) _
  rw [hlist, segments, split_intercalate hne hslash, names_eq_of_onwards hback]

namespace Disk

/-- Creates the directories that are missing on the way from a directory along some names. There is
no way through a file. -/
def makeAlong (location : Location) : List String → Disk → Option Disk
  | [], disk => some disk
  | name :: names, disk =>
    match disk.node? (location ++ [name]) with
    | some .directory => makeAlong (location ++ [name]) names disk
    | some (.file _) => none
    | none => makeAlong (location ++ [name]) names (disk.put (location ++ [name]) .directory)

/-- Puts an entry of an archive below a directory, at the names between the slashes of its name. -/
def unpackEntry (base : Location) (entry : String × String) (disk : Disk) : Option Disk := do
  let names := (Path.segments entry.1.toList).map String.ofList
  let made ← makeAlong base names.dropLast disk
  if made.isDirectoryAt (base ++ names) then none
  else some (made.put (base ++ names) (.file (.text entry.2)))

def unpack (base : Location) (entries : List (String × String)) (disk : Disk) : Option Disk :=
  entries.foldlM (fun disk entry => disk.unpackEntry base entry) disk

/-- The way along some names starts at the place itself, or below the first name. -/
theorem on_way_iff {there : Location} (name : String) (names : List String) :
    location <+: there ∧ there <+: location ++ [name] ++ names ↔
      there = location ∨ location ++ [name] <+: there ∧ there <+: location ++ [name] ++ names := by
  constructor
  · rintro ⟨hbelow, habove⟩
    rcases List.prefix_or_prefix_of_prefix habove (List.prefix_append _ names) with h | h
    · rcases List.prefix_concat_iff.1 h with rfl | h
      · exact .inr ⟨List.prefix_refl _, habove⟩
      · exact .inl (h.eq_of_length_le hbelow.length_le)
    · exact .inr ⟨h, habove⟩
  · rintro (rfl | ⟨hbelow, habove⟩)
    · exact ⟨List.prefix_refl _, List.append_assoc _ _ names ▸ List.prefix_append _ _⟩
    · exact ⟨(List.prefix_append _ _).trans hbelow, habove⟩

/-- Where no file is in the way, all the places on the way become directories. -/
theorem exists_makeAlong (hdirectory : disk.node? location = some .directory)
    (hfree : ∀ above old, above <+: location ++ names → disk.node? above ≠ some (.file old)) :
    ∃ made, makeAlong location names disk = some made ∧ ∀ there, made.node? there =
      if location <+: there ∧ there <+: location ++ names then some .directory
      else disk.node? there := by
  induction names generalizing location disk with
  | nil =>
      refine ⟨disk, rfl, fun there => ?_⟩
      split
      · next h =>
          rw [List.append_nil] at h
          rw [h.2.eq_of_length_le h.1.length_le, hdirectory]
      · rfl
  | cons name names ih =>
      have hroot : location ++ [name] ≠ [] := by simp
      have happend : location ++ name :: names = location ++ [name] ++ names := by simp
      rw [happend] at hfree ⊢
      simp only [on_way_iff, makeAlong]
      cases hnode : disk.node? (location ++ [name]) with
      | some node =>
          cases node with
          | file old => exact absurd hnode (hfree _ old (List.prefix_append _ _))
          | directory =>
              obtain ⟨made, hmade, hnodes⟩ := ih hnode hfree
              refine ⟨made, hmade, fun there => ?_⟩
              rw [hnodes]
              by_cases hthere : there = location
              · simp [hthere, hdirectory]
              · simp [hthere]
      | none =>
          have hput := node?_put hroot .directory disk
          have hhere : (disk.put (location ++ [name]) .directory).node? (location ++ [name]) =
              some .directory := by
            rw [hput, if_pos rfl]
          obtain ⟨made, hmade, hnodes⟩ := ih hhere fun above old habove hold => by
            rw [hput] at hold
            split at hold
            · cases hold
            · exact hfree above old habove hold
          refine ⟨made, hmade, fun there => ?_⟩
          rw [hnodes, hput]
          by_cases hthere : there = location
          · simp [hthere, hdirectory]
          · by_cases hsame : there = location ++ [name]
            · simp [hsame]
            · simp [hthere, hsame]

theorem Puts.exists_unpackEntry {unpacked : Disk} {entry : String × String}
    (h : Puts (base ++ (Path.segments entry.1.toList).map String.ofList) (.text entry.2) before
      after)
    (htree : before.IsTree) (hbase : before.node? base = some .directory)
    (hsame : ∀ there, unpacked.node? there = before.node? there) :
    ∃ next, unpacked.unpackEntry base entry = some next ∧
      ∀ there, next.node? there = after.node? there := by
  have hsegments : Path.segments entry.1.toList ≠ [] := split_ne_nil _ _
  obtain ⟨init, last, hnames⟩ : ∃ init last,
      (Path.segments entry.1.toList).map String.ofList = init ++ [last] :=
    ⟨_, _, (List.dropLast_concat_getLast (by simpa using hsegments)).symm⟩
  rw [hnames, ← List.append_assoc] at h
  have hroot : base ++ init ++ [last] ≠ [] := by simp
  have hfree : ∀ above old, above <+: base ++ init → unpacked.node? above ≠ some (.file old) := by
    intro above old habove
    rw [hsame]
    refine h.noFileAbove above old (habove.trans (List.prefix_append _ _)) ?_
    rintro rfl
    exact absurd habove.length_le (by simp)
  obtain ⟨made, hmade, hnodes⟩ := exists_makeAlong (by rw [hsame, hbase]) hfree
  have hnew : made.isDirectoryAt (base ++ init ++ [last]) = false := by
    refine Bool.eq_false_iff.2 fun hdirectory => h.noDirectory ?_
    have hbelow : ¬ base ++ init ++ [last] <+: base ++ init := fun hbegins =>
      absurd hbegins.length_le (by simp)
    rwa [isDirectoryAt_iff, hnodes, if_neg (fun hway => hbelow hway.2), hsame] at hdirectory
  refine ⟨made.put (base ++ init ++ [last]) (.file (.text entry.2)), ?_, fun there => ?_⟩
  · simp only [unpackEntry, hnames, List.dropLast_concat, hmade, ← List.append_assoc,
      Option.bind_eq_bind, Option.bind_some, hnew, Bool.false_eq_true, if_false]
  · rw [node?_put hroot, hnodes, hsame, h.node?_eq]
    by_cases hthere : there = base ++ init ++ [last]
    · simp [hthere]
    · have hway : there <+: base ++ init ++ [last] ↔ there <+: base ++ init :=
        List.prefix_concat_iff.trans (or_iff_right hthere)
      simp only [hthere, if_false, hway]
      by_cases habove : there <+: base ++ init
      · by_cases hbelow : base <+: there
        · simp [habove, hbelow]
        · -- What is above the directory is one, as the disk is a tree.
          have hbegins : there <+: base := (List.prefix_or_prefix_of_prefix habove
            (List.prefix_append base init)).resolve_right hbelow
          simp [habove, hbelow, htree.directory_of_prefix hbase hbegins]
      · simp [habove]

/-- An archive is unpacked to what comes of putting files in the places that its names stand for. -/
theorem PutsAll.exists_unpack {entries : List (String × String)} {unpacked : Disk}
    (h : PutsAll (entries.map fun entry =>
      (base ++ (Path.segments entry.1.toList).map String.ofList, .text entry.2)) before after)
    (htree : before.IsTree) (hbase : before.node? base = some .directory)
    (hsame : ∀ there, unpacked.node? there = before.node? there) :
    ∃ last, unpacked.unpack base entries = some last ∧
      ∀ there, last.node? there = after.node? there := by
  induction entries generalizing before unpacked with
  | nil =>
      cases h
      exact ⟨unpacked, rfl, hsame⟩
  | cons entry entries ih =>
      cases h with
      | cons hput hrest =>
          obtain ⟨next, hnext, hnodes⟩ := hput.exists_unpackEntry htree hbase hsame
          obtain ⟨last, hlast, hend⟩ :=
            ih hrest (hput.isTree htree) (hput.extends.directories base hbase) hnodes
          refine ⟨last, ?_, hend⟩
          rw [unpack, List.foldlM_cons, hnext]
          exact hlast

end Disk
end Gazette.Files

namespace Gazette.Scaffold
open Files Files.DiskAction

variable {disk after : Disk} {base : Location} {output : Path} {template : Template}
  {templates : TemplateSet} {params : Params} {strict force : Bool} {files : List ProjectFile}

/-- The name of the component. An empty one counts as none. -/
def Params.componentName (params : Params) : String :=
  match params.get? "component_name" with
  | some name => if name = "" then "App" else name
  | none => "App"

def Params.componentPath (params : Params) : Path :=
  ⟨"src/components/" ++ params.componentName ++ ".js"⟩

theorem resolve?_component (params : Params) :
    (⟨"component_name", some "App"⟩ : Placeholder).resolve? params =
      some params.componentName := by
  unfold Placeholder.resolve? Params.componentName
  cases params.get? "component_name" <;> rfl

theorem chars_component (params : Params) :
    params.componentPath.chars =
      "src/components/".toList ++ (params.componentName.toList ++ ".js".toList) := by
  show ("src/components/" ++ params.componentName ++ ".js").toList = _
  rw [String.toList_append, String.toList_append, List.append_assoc]

theorem render_component (params : Params) :
    (render "src/components/\x7b\x7b component_name|default:'App' \x7d\x7d.js" params).text =
      params.componentPath.text := by
  apply String.toList_injective
  rw [render, pieces_component, List.flatMap_append, List.flatMap_cons, render_chars, render_chars,
    Piece.render, resolve?_component]
  exact String.toList_ofList.trans (chars_component params).symm

/-- The paths of the files that the templates come to, whatever their contents. -/
theorem made_paths (h : templates.map (·.output) = TemplateSet.bundled.map (·.output))
    (params : Params) :
    templates.map (fun template => (template.made params).path) =
      [params.componentPath, ⟨"public/index.html"⟩, ⟨"package.json"⟩] := by
  calc templates.map (fun template => (template.made params).path)
      = (templates.map (·.output)).map fun text => ⟨(render text params).text⟩ := by
        rw [List.map_map]
        rfl
    _ = [params.componentPath, ⟨"public/index.html"⟩, ⟨"package.json"⟩] := by
        have houtputs : TemplateSet.bundled.map (·.output) =
            ["src/components/\x7b\x7b component_name|default:'App' \x7d\x7d.js",
              "public/index.html", "package.json"] := rfl
        rw [h, houtputs, List.map_cons, List.map_cons, List.map_cons, List.map_nil,
          render_component, render_plain pieces_page, render_plain pieces_manifest]

theorem segments_component (params : Params) :
    Path.segments params.componentPath.chars =
      "src".toList :: "components".toList ::
        Path.segments (params.componentName.toList ++ ".js".toList) := by
  have hchars : params.componentPath.chars = "src".toList ++ '/' ::
      ("components".toList ++ '/' :: (params.componentName.toList ++ ".js".toList)) :=
    chars_component params
  rw [hchars, Path.segments_append, Path.segments_append]
  rfl

theorem isAbsolute_component (params : Params) : params.componentPath.isAbsolute = false := by
  rw [Path.isAbsolute, chars_component]
  rfl

theorem isInside_component (params : Params) :
    params.componentPath.isInside = true ↔
      ['.', '.'] ∉ Path.segments params.componentPath.chars := by
  have hne : params.componentPath.text ≠ "" := by
    intro hempty
    have hchars := chars_component params
    rw [Path.chars, hempty] at hchars
    cases hchars
  rw [Path.isInside_iff]
  exact ⟨fun h => h.2.2, fun h => ⟨hne, isAbsolute_component params, h⟩⟩

theorem names_component (params : Params) :
    ∃ more, params.componentPath.names = "src" :: "components" :: more := by
  rw [Path.names_eq, Path.steps, segments_component]
  exact ⟨_, rfl⟩

section
variable [Libraries]

theorem Template.generate_unsafe {path : Path}
    (h : template.generate params strict = .error (.unsafePath path)) :
    path = (template.made params).path ∧ path.isInside = false := by
  rw [generate_eq] at h
  split at h
  · next hinside =>
      cases h
      exact ⟨rfl, hinside⟩
  · split at h
    · cases h
    · split at h <;> cases h

theorem generate_unsafe {path : Path}
    (h : generate templates params strict = .error (.unsafePath path)) :
    path ∈ templates.map (fun template => (template.made params).path) ∧
      path.isInside = false := by
  induction templates with
  | nil => cases h
  | cons template templates ih =>
      rw [generate_cons] at h
      cases hfirst : template.generate params strict with
      | error e =>
          rw [hfirst] at h
          cases h
          obtain ⟨rfl, hinside⟩ := Template.generate_unsafe hfirst
          exact ⟨List.mem_cons_self, hinside⟩
      | ok file =>
          rw [hfirst] at h
          cases hrest : generate templates params strict with
          | error e =>
              rw [hrest] at h
              cases h
              exact ⟨List.mem_cons_of_mem _ (ih hrest).1, (ih hrest).2⟩
          | ok files =>
              rw [hrest] at h
              cases h

/-- The first template is looked at first, before anything can be wrong with its contents. -/
theorem generate_of_unsafe (h : (template.made params).path.isInside = false) :
    generate (template :: templates) params strict =
      .error (.unsafePath (template.made params).path) := by
  rw [generate_cons, Template.generate_eq, if_pos h]
  rfl

theorem generate_unsafe_iff (h : templates.map (·.output) = TemplateSet.bundled.map (·.output))
    (params : Params) (strict : Bool) (path : Path) :
    generate templates params strict = .error (.unsafePath path) ↔
      path = params.componentPath ∧ ['.', '.'] ∈ Path.segments params.componentPath.chars := by
  have hpaths := made_paths h params
  rw [← Decidable.not_not (p := _ ∈ _), ← isInside_component, Bool.not_eq_true]
  constructor
  · intro herror
    obtain ⟨hpath, hinside⟩ := generate_unsafe herror
    rw [hpaths] at hpath
    simp only [List.mem_cons, List.not_mem_nil, or_false] at hpath
    rcases hpath with rfl | rfl | rfl
    · exact ⟨rfl, hinside⟩
    · exact absurd hinside (by decide)
    · exact absurd hinside (by decide)
  · rintro ⟨rfl, hinside⟩
    cases templates with
    | nil => cases hpaths
    | cons template templates =>
        obtain ⟨hfirst, -⟩ := List.cons.inj hpaths
        rw [← hfirst] at hinside ⊢
        exact generate_of_unsafe hinside

theorem generate_paths (htemplates : templates.map (·.output) = TemplateSet.bundled.map (·.output))
    (h : generate templates params strict = .ok files) :
    files.map (·.path) = [params.componentPath, ⟨"public/index.html"⟩, ⟨"package.json"⟩] := by
  rw [generate_ok h, List.map_map]
  exact made_paths htemplates params

/-- Files that are made lead inside, as a path that does not would have been refused. -/
theorem generate_isInside
    (htemplates : templates.map (·.output) = TemplateSet.bundled.map (·.output))
    (h : generate templates params strict = .ok files) :
    ∀ file ∈ files, file.path.isInside = true := by
  have hcomponent : params.componentPath.isInside = true := by
    by_contra hunsafe
    rw [isInside_component, not_not] at hunsafe
    have herror := (generate_unsafe_iff htemplates params strict _).2 ⟨rfl, hunsafe⟩
    rw [h] at herror
    cases herror
  have hall : ∀ path ∈ files.map (·.path), path.isInside = true := by
    rw [generate_paths htemplates h]
    simp only [List.forall_mem_cons, hcomponent]
    decide
  exact fun file hfile => hall _ (List.mem_map_of_mem hfile)

theorem generate_names (htemplates : templates.map (·.output) = TemplateSet.bundled.map (·.output))
    (h : generate templates params strict = .ok files) :
    ∃ more, files.map (·.path.names) =
      ["src" :: "components" :: more, ["public", "index.html"], ["package.json"]] := by
  obtain ⟨more, hmore⟩ := names_component params
  have hfixed : ([⟨"public/index.html"⟩, ⟨"package.json"⟩] : List Path).map Path.names =
      [["public", "index.html"], ["package.json"]] := by decide +kernel
  refine ⟨more, ?_⟩
  calc files.map (·.path.names)
      = (files.map (·.path)).map Path.names := by rw [List.map_map]; rfl
    _ = ["src" :: "components" :: more, ["public", "index.html"], ["package.json"]] := by
      rw [generate_paths htemplates h, List.map_cons, hmore, hfixed]

end

def ProjectFile.entry (file : ProjectFile) : String × String :=
  (String.intercalate "/" file.path.names, file.contents)

theorem packEntries_ok {packed : List (String × String)}
    (h : (packEntries packed files).2 = none) :
    (packEntries packed files).1 = packed ++ files.map ProjectFile.entry := by
  induction files generalizing packed with
  | nil => simp [packEntries]
  | cons file files ih =>
      rw [packEntries] at h ⊢
      split at h
      · cases h
      · next htaken =>
          rw [if_neg htaken, ih h, List.map_cons, List.append_assoc]
          rfl

theorem putFile_find {path : Path} {content : Content}
    (h : (putFile path content).outcome disk = (.ok (), after)) :
    ∃ place, after.find path = .ok (place, .file content) := by
  rw [putFile_outcome] at h
  generalize (makeParent path).outcome disk = result at h
  obtain ⟨_ | _, made⟩ := result
  · cases h
  · dsimp only at h
    split at h
    · next place htarget =>
        cases h
        refine ⟨place, ?_⟩
        rw [Disk.find_of_target (Disk.target_write htarget),
          Disk.node?_put (Disk.ne_nil_of_target htarget), if_pos rfl]
    · cases h

/-- Where an archive was written, there is one with an entry for each file, in their order. -/
theorem writeArchive_find {archive : Path}
    (h : (writeArchive files archive force).outcome disk = (.ok (), after)) :
    ∃ place, after.find archive =
      .ok (place, .file (.archive (files.map ProjectFile.entry))) := by
  rw [writeArchive_outcome] at h
  split at h
  · cases h
  · rw [outcome_bind] at h
    cases hput : (putFile archive (.archive (packEntries [] files).1)).outcome disk with
    | mk result made =>
        rw [hput] at h
        cases result with
        | error e => cases h
        | ok _ =>
            dsimp only at h
            cases htaken : (packEntries [] files).2 with
            | some name =>
                rw [htaken] at h
                cases h
            | none =>
                rw [htaken] at h
                cases h
                rw [packEntries_ok htaken] at hput
                exact putFile_find hput

/-- What is written into a directory is what an archive of the same files is unpacked to there. -/
theorem exists_unpack {written : List Path} (htree : disk.IsTree)
    (hbase : disk.enter (disk.origin output) output.steps = .ok base)
    (hinside : ∀ file ∈ files, file.path.isInside = true)
    (hnames : ∀ file ∈ files, file.path.names ≠ [])
    (h : (writeFiles files output force).outcome disk = (.ok written, after)) :
    ∃ unpacked, disk.unpack base (files.map ProjectFile.entry) = some unpacked ∧
      ∀ place, unpacked.node? place = after.node? place := by
  obtain ⟨-, hput⟩ := writeFiles_ok h
  obtain ⟨hputs, -⟩ := putFiles_puts htree (.inr hbase) hinside hput
  refine Disk.PutsAll.exists_unpack ?_ htree (Disk.enter_ok.1 hbase).2 fun _ => rfl
  rw [List.map_map]
  convert hputs using 1
  refine List.map_congr_left fun file hfile => ?_
  have hsteps : file.path.steps ≠ [] := by
    intro hnone
    exact hnames file hfile (by rw [Path.names_eq, hnone]; rfl)
  have hsame := Path.segments_names (isInside_steps (hinside file hfile)).2 hsteps
  exact Prod.ext (congrArg (base ++ ·) hsame) rfl

/-- The path of a component is refused exactly if it has a part that steps back, and no other path
of a project is. The paths of its files are relative and have no such part. They come to three
different lists of names, none of them the beginning of another, and each file is written and found
at its names below the directory that the output leads to. An archive that is written has an entry
for each file in their order, with the names between slashes, and is unpacked to what is written
without it. -/
theorem generated_stays_inside [Libraries]
    (htemplates : templates.map (·.output) = TemplateSet.bundled.map (·.output))
    (params : Params) (strict : Bool) :
    (∀ path, generate templates params strict = .error (.unsafePath path) ↔
      path = params.componentPath ∧ ['.', '.'] ∈ Path.segments params.componentPath.chars) ∧
    ∀ files, generate templates params strict = .ok files →
      files.map (·.path) = [params.componentPath, ⟨"public/index.html"⟩, ⟨"package.json"⟩] ∧
      (files.map (·.path.names)).Pairwise (fun a b => a ≠ b ∧ ¬ a <+: b ∧ ¬ b <+: a) ∧
      (∀ file ∈ files,
        file.path.isAbsolute = false ∧ ['.', '.'] ∉ Path.segments file.path.chars ∧
        ∀ (output : Path) (disk : Disk) (place : Location),
          (disk.target (output.join file.path) = .ok place ∨
            ∃ node, disk.find (output.join file.path) = .ok (place, node)) →
          ∃ base, disk.enter (disk.origin output) output.steps = .ok base ∧
            place = base ++ file.path.names) ∧
      (∀ archive force disk after,
        (writeArchive files archive force).outcome disk = (.ok (), after) →
          ∃ place, after.find archive = .ok (place, .file (.archive
            (files.map fun file => (String.intercalate "/" file.path.names, file.contents))))) ∧
      ∀ output base force disk written after, disk.IsTree →
        disk.enter (disk.origin output) output.steps = .ok base →
        (writeFiles files output force).outcome disk = (.ok written, after) →
          ∃ unpacked, disk.unpack base
              (files.map fun file => (String.intercalate "/" file.path.names, file.contents)) =
                some unpacked ∧
            ∀ place, unpacked.node? place = after.node? place := by
  refine ⟨generate_unsafe_iff htemplates params strict, fun files hfiles => ?_⟩
  have hinside := generate_isInside htemplates hfiles
  obtain ⟨more, hnames⟩ := generate_names htemplates hfiles
  have hsome : ∀ file ∈ files, file.path.names ≠ [] := by
    have hall : ∀ names ∈ files.map (·.path.names), names ≠ [] := by
      rw [hnames]
      simp
    exact fun file hfile => hall _ (List.mem_map_of_mem hfile)
  refine ⟨generate_paths htemplates hfiles, ?_, fun file hfile => ?_,
    fun archive force disk after h => writeArchive_find h,
    fun output base force disk written after htree hbase h =>
      exists_unpack htree hbase hinside hsome h⟩
  · rw [hnames]
    simp
  · obtain ⟨-, hrelative, hback⟩ := (Path.isInside_iff file.path).1 (hinside file hfile)
    have hnever := (isInside_steps (hinside file hfile)).2
    refine ⟨hrelative, hback, fun output disk place h => ?_⟩
    rcases h with htarget | ⟨node, hfind⟩
    · exact target_join hrelative hnever htarget
    · exact find_join hrelative hnever hfind

attribute [local instance] Libraries.bare

namespace Sample

def short : TemplateSet :=
  TemplateSet.bundled.map fun template => { template with contents := "\x7b\x7d" }

def dotted : List ProjectFile :=
  [⟨⟨"src/components/a//./b.js"⟩, "\x7b\x7d", "component.js.tpl", []⟩,
    ⟨⟨"public/index.html"⟩, "\x7b\x7d", "index.html.tpl", []⟩,
    ⟨⟨"package.json"⟩, "\x7b\x7d", "package.json.tpl", []⟩]

end Sample

/-- A name that steps back is refused. Dots and slashes that do not count lead below the component,
in an archive as on a disk. -/
theorem generated_stays_inside_of_dots :
    generate Sample.short ⟨[("component_name", "../x")]⟩ true =
        .error (.unsafePath ⟨"src/components/../x.js"⟩) ∧
      ∃ unpacked, ({} : Disk).unpack [] [("src/components/a/b.js", "\x7b\x7d"),
          ("public/index.html", "\x7b\x7d"), ("package.json", "\x7b\x7d")] = some unpacked ∧
        ∀ place, unpacked.node? place =
          ((writeFiles Sample.dotted ⟨"."⟩ false).outcome {}).2.node? place := by
  have houtputs : Sample.short.map (·.output) = TemplateSet.bundled.map (·.output) := by decide
  have hrefused := (generated_stays_inside houtputs
    ⟨[("component_name", "../x")]⟩ true).1 ⟨"src/components/../x.js"⟩
  obtain ⟨-, hmade⟩ := generated_stays_inside houtputs ⟨[("component_name", "a//./b")]⟩ true
  obtain ⟨-, -, -, -, hunpack⟩ := hmade Sample.dotted (by decide +kernel)
  refine ⟨hrefused.2 (by decide +kernel), ?_⟩
  have hok : ((writeFiles Sample.dotted ⟨"."⟩ false).outcome {}).1 =
      .ok (Sample.dotted.map fun file => (⟨"."⟩ : Path).join file.path) := by decide +kernel
  have hentries : (Sample.dotted.map fun file =>
      (String.intercalate "/" file.path.names, file.contents)) =
        [("src/components/a/b.js", "\x7b\x7d"), ("public/index.html", "\x7b\x7d"),
          ("package.json", "\x7b\x7d")] := by decide +kernel
  generalize hrun : (writeFiles Sample.dotted ⟨"."⟩ false).outcome {} = run at hok ⊢
  obtain ⟨_, after⟩ := run
  obtain rfl := hok
  rw [← hentries]
  exact hunpack ⟨"."⟩ [] false {} _ after (Disk.isTree_of_entries (by decide)) rfl hrun

end Gazette.Scaffold
