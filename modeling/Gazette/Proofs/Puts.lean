import Gazette.Proofs.Output

/-!
# Files put on a disk

Whatever path a file is written to, what becomes of the disk can be told by places alone: there is
a file at one place, there are directories above it, and everything else is as it was. Files that
are put one after the other come to a disk that is settled by the places and contents alone. A
place holds what was put there last.
-/
namespace Gazette.Files

namespace Path

/-- The name that a part of a path is, if it is one. -/
def Component.name? : Component → Option String
  | name s => some s
  | _ => none

theorem filterMap_component (segments : List (List Char)) :
    (segments.map component).filterMap Component.name? =
      (segments.filter (· ≠ ['.', '.'])).map String.ofList := by
  induction segments with
  | nil => rfl
  | cons segment segments ih =>
      by_cases h : segment = ['.', '.']
      · have hnone : (component segment).name? = none := by simp [component, Component.name?, h]
        rw [List.map_cons, List.filterMap_cons_none hnone, ih,
          List.filter_cons_of_neg (by simp [h])]
      · have hsome : (component segment).name? = some (String.ofList segment) := by
          simp [component, Component.name?, h]
        rw [List.map_cons, List.filterMap_cons_some hsome, ih,
          List.filter_cons_of_pos (by simp [h]), List.map_cons]

theorem components_eq (p : Path) :
    p.components = startComponent (start p.chars).1 ++ p.steps.map component := by
  rw [steps, steps_start]
  rfl

/-- The names of a path are the parts that count and are no steps back. -/
theorem names_eq (p : Path) :
    p.names = (p.steps.filter (· ≠ ['.', '.'])).map String.ofList := by
  have hstart : (startComponent (start p.chars).1).filterMap Component.name? = [] := by
    unfold startComponent
    split <;> rfl
  show p.components.filterMap Component.name? = _
  rw [components_eq, List.filterMap_append, hstart, List.nil_append, filterMap_component]

theorem names_eq_of_onwards {p : Path} (h : ['.', '.'] ∉ p.steps) :
    p.names = p.steps.map String.ofList := by
  rw [names_eq, List.filter_eq_self.2]
  intro step hstep
  rw [decide_eq_true_eq]
  rintro rfl
  exact h hstep

theorem names_join (p : Path) {q : Path} (hq : q.isAbsolute = false) :
    (p.join q).names = p.names ++ q.names := by
  rw [names_eq, names_eq, names_eq, steps_join p hq, List.filter_append, List.map_append]

end Path

namespace Disk
variable {disk before after next before' after' : Disk} {location place there : Location}
  {path : Path} {content : Content} {node : Node} {name : String} {parts : List (List Char)}
  {puts : List (Location × Content)}

/-- Where a path leads that never steps back, if it leads anywhere. -/
def onwards (path : Path) (disk : Disk) : Location :=
  disk.origin path ++ path.names

theorem followAll_onwards (hback : ['.', '.'] ∉ parts)
    (h : disk.followAll location parts = .ok place) :
    place = location ++
      (parts.filter fun segment => !Path.isTrivial segment).map String.ofList := by
  induction parts generalizing location with
  | nil =>
      cases h
      simp
  | cons part parts ih =>
      rw [List.mem_cons, not_or] at hback
      obtain ⟨next, hnext, hrest⟩ := bind_ok.1 h
      have hplace := ih hback.2 hrest
      cases hpart : Path.isTrivial part with
      | true =>
          obtain ⟨_, -, hsame⟩ := bind_ok.1 hnext
          rw [hpart, if_pos rfl] at hsame
          cases hsame
          rwa [List.filter_cons_of_neg (by simp [hpart])]
      | false =>
          obtain ⟨-, -, rfl⟩ := (follow_name hpart (Ne.symm hback.1)).1 hnext
          rw [hplace, List.filter_cons_of_pos (by simp [hpart])]
          simp

theorem enter_onwards (hback : ['.', '.'] ∉ path.steps)
    (h : disk.enter (disk.origin path) path.steps = .ok place) : place = disk.onwards path := by
  have hsteps : (path.steps.filter fun segment => !Path.isTrivial segment) = path.steps := by
    simp [Path.steps]
  rw [followAll_onwards hback (enter_ok.1 h).1, hsteps, onwards, Path.names_eq_of_onwards hback]

/-- A relative path below another one leads to a directory first, and from there to its own
names. -/
theorem followAll_join {output : Path} (hrelative : path.isAbsolute = false)
    (hback : ['.', '.'] ∉ path.steps)
    (h : disk.followAll (disk.origin output) (Path.segments (output.join path).chars) =
      .ok place) :
    ∃ base, disk.enter (disk.origin output) output.steps = .ok base ∧
      place = base ++ path.names := by
  obtain ⟨first, hparts⟩ := Path.segments_join output hrelative
  have hfirst : (first.filter fun segment => !Path.isTrivial segment) = output.steps := by
    have hsteps := Path.steps_join output hrelative
    rw [Path.steps, hparts, List.filter_append] at hsteps
    exact List.append_cancel_right hsteps
  rw [hparts, followAll_append] at h
  obtain ⟨base, hbase, hrest⟩ := bind_ok.1 h
  refine ⟨base, ?_, ?_⟩
  · rw [← hfirst, enter_filter]
    refine enter_ok.2 ⟨hbase, ?_⟩
    cases hsegments : Path.segments path.chars with
    | nil => exact absurd hsegments (Text.split_ne_nil _ _)
    | cons part parts =>
        rw [hsegments] at hrest
        obtain ⟨_, hfollow, -⟩ := bind_ok.1 hrest
        obtain ⟨_, hdirectory, -⟩ := bind_ok.1 hfollow
        exact requireDirectory_ok.1 hdirectory
  · have hnever : ['.', '.'] ∉ Path.segments path.chars := fun hmem =>
      hback (List.mem_filter.2 ⟨hmem, rfl⟩)
    rw [followAll_onwards hnever hrest, Path.names_eq_of_onwards hback]
    rfl

theorem IsTree.directory_of_prefix (h : disk.IsTree)
    (hdirectory : disk.node? place = some .directory) (hbegins : location <+: place) :
    disk.node? location = some .directory := by
  obtain ⟨names, rfl⟩ := hbegins
  induction names using List.reverseRecOn with
  | nil => rwa [List.append_nil] at hdirectory
  | append_singleton names name ih =>
      rw [← List.append_assoc] at hdirectory
      exact ih (h _ _ _ hdirectory)

theorem IsTree.put_directory (h : disk.IsTree) (hparent : disk.node? location = some .directory)
    (hfree : disk.node? (location ++ [name]) = none) :
    (disk.put (location ++ [name]) .directory).IsTree := by
  have hroot : location ++ [name] ≠ [] := by simp
  have hgrows := (grows_refl disk).put hroot hfree .directory
  intro above last node hnode
  rw [node?_put hroot] at hnode
  split at hnode
  · next heq =>
      obtain ⟨rfl, -⟩ := List.append_singleton_inj.1 heq
      exact hgrows.nodes _ _ hparent
  · exact hgrows.nodes _ _ (h _ _ _ hnode)

theorem IsTree.createDirectory (h : disk.IsTree) (hcreate : disk.createDirectory path = .ok after) :
    after.IsTree := by
  obtain ⟨init, name, directory, place, hsteps, hback, henter, hfollow, hfree, rfl⟩ :=
    createDirectory_steps hcreate
  have hname : Path.isTrivial name = false := by
    have hmem : name ∈ path.steps := hsteps ▸ List.mem_append_right _ (List.mem_singleton_self _)
    simpa using (List.mem_filter.1 hmem).2
  obtain ⟨hdirectory, -, rfl⟩ := (follow_name hname hback).1 hfollow
  exact h.put_directory hdirectory hfree

theorem Extends.trans {third : Disk} (h : before.Extends after) (hrest : after.Extends third) :
    before.Extends third :=
  ⟨hrest.workingDirectory.trans h.workingDirectory,
    fun there hdirectory => hrest.directories there (h.directories there hdirectory)⟩

/-- A file is put at a place, with the directories above it that were missing. -/
structure Puts (place : Location) (content : Content) (before after : Disk) : Prop where
  workingDirectory : after.workingDirectory = before.workingDirectory
  noDirectory : before.node? place ≠ some .directory
  noFileAbove : ∀ above old, above <+: place → above ≠ place →
    before.node? above ≠ some (.file old)
  node?_eq : ∀ there, after.node? there =
    if there = place then some (.file content)
    else if there <+: place then some .directory
    else before.node? there

theorem Puts.node?_place (h : Puts place content before after) :
    after.node? place = some (.file content) := by
  rw [h.node?_eq, if_pos rfl]

theorem Puts.file_iff {old : Content} (h : Puts place content before after) (hne : there ≠ place) :
    after.node? there = some (.file old) ↔ before.node? there = some (.file old) := by
  rw [h.node?_eq, if_neg hne]
  split
  · next habove => exact ⟨nofun, fun hold => absurd hold (h.noFileAbove there old habove hne)⟩
  · exact Iff.rfl

theorem Puts.directory_iff (h : Puts place content before after) :
    after.node? there = some .directory ↔
      before.node? there = some .directory ∨ there <+: place ∧ there ≠ place := by
  rw [h.node?_eq]
  split
  · next heq =>
      subst heq
      simp [h.noDirectory]
  · next hne =>
      split
      · next habove => simp [habove, hne]
      · next habove => simp [habove]

theorem Puts.extends (h : Puts place content before after) : before.Extends after :=
  ⟨h.workingDirectory, fun _ hdirectory => h.directory_iff.2 (.inl hdirectory)⟩

theorem Puts.isTree (h : Puts place content before after) (htree : before.IsTree) :
    after.IsTree := by
  intro location name node hnode
  have hproper : location ++ [name] <+: place → after.node? location = some .directory := by
    rintro ⟨names, rfl⟩
    refine h.directory_iff.2 (.inr ⟨?_, by simp⟩)
    rw [List.append_assoc]
    exact List.prefix_append _ _
  rw [h.node?_eq] at hnode
  split at hnode
  · next heq => exact hproper (heq ▸ List.prefix_refl _)
  · split at hnode
    · next habove => exact hproper habove
    · exact h.directory_iff.2 (.inl (htree _ _ _ hnode))

/-- A file is put where the directories above it were made before, and nothing else was. -/
theorem Puts.of_grows {made : Disk} {directory : Location} {name : String}
    (hgrows : before.Grows made) (htree : made.IsTree)
    (hdirectory : made.node? directory = some .directory)
    (hfree : made.isDirectoryAt (directory ++ [name]) = false)
    (hnew : ∀ there node, made.node? there = some node → before.node? there = none →
      there <+: directory) :
    Puts (directory ++ [name]) content before
      (made.put (directory ++ [name]) (.file content)) := by
  have habove : ∀ there, there <+: directory ++ [name] → there ≠ directory ++ [name] →
      made.node? there = some .directory := fun there hbegins hne =>
    htree.directory_of_prefix hdirectory ((List.prefix_concat_iff.1 hbegins).resolve_left hne)
  refine ⟨hgrows.workingDirectory, fun hold => ?_, fun there old hbegins hne hold => ?_,
    fun there => ?_⟩
  · rw [isDirectoryAt_iff.2 (hgrows.nodes _ _ hold)] at hfree
    cases hfree
  · have hfile := hgrows.nodes _ _ hold
    rw [habove there hbegins hne] at hfile
    cases hfile
  · rw [node?_put (by simp)]
    split
    · rfl
    · next hne =>
        split
        · next hbegins => exact habove there hbegins hne
        · next hbegins =>
            cases hold : before.node? there with
            | some node => exact hgrows.nodes _ _ hold
            | none =>
                refine Option.eq_none_iff_forall_ne_some.2 fun node hnode => hbegins ?_
                exact (hnew there node hnode hold).trans (List.prefix_append _ _)

inductive PutsAll : List (Location × Content) → Disk → Disk → Prop
  | nil (disk : Disk) : PutsAll [] disk disk
  | cons {place : Location} {content : Content} {puts : List (Location × Content)}
      {before next after : Disk} :
      Puts place content before next → PutsAll puts next after →
      PutsAll ((place, content) :: puts) before after

theorem PutsAll.extends (h : PutsAll puts before after) : before.Extends after := by
  induction h with
  | nil => exact ⟨rfl, fun _ => id⟩
  | cons hput _ ih => exact hput.extends.trans ih

/-- Where no file is put, there is one iff there was the same before. -/
theorem PutsAll.file_iff {old : Content} (h : PutsAll puts before after)
    (hmem : there ∉ puts.map Prod.fst) :
    after.node? there = some (.file old) ↔ before.node? there = some (.file old) := by
  induction h with
  | nil => exact Iff.rfl
  | cons hput _ ih =>
      rw [List.map_cons, List.mem_cons, not_or] at hmem
      rw [ih hmem.2, hput.file_iff hmem.1]

theorem PutsAll.node?_last {first rest : List (Location × Content)}
    (h : PutsAll (first ++ (place, content) :: rest) before after)
    (hlast : place ∉ rest.map Prod.fst) : after.node? place = some (.file content) := by
  induction first generalizing before with
  | nil =>
      cases h with
      | cons hput hrest => exact (hrest.file_iff hlast).2 hput.node?_place
  | cons put first ih =>
      cases h with
      | cons _ hrest => exact ih hrest

theorem PutsAll.directory_iff (h : PutsAll puts before after) :
    after.node? there = some .directory ↔
      before.node? there = some .directory ∨
        ∃ put ∈ puts, there <+: put.1 ∧ there ≠ put.1 := by
  induction h with
  | nil => simp
  | cons hput _ ih =>
      simp [ih, hput.directory_iff, or_assoc]

end Disk
end Gazette.Files

namespace Gazette.Scaffold
open Files Files.DiskAction

variable {disk after : Disk} {place : Location} {path : Path} {content : Content}

theorem createDirectories_isTree (h : disk.IsTree) (path : Path) :
    ((createDirectories path).outcome disk).2.IsTree :=
  createLevels_keeps (P := fun _ => True) (fun _ _ _ _ _ => trivial)
    (fun _ _ _ _ htree hcreate => htree.createDirectory hcreate) path trivial _ disk h

theorem makeParent_isTree (h : disk.IsTree) (path : Path) :
    ((makeParent path).outcome disk).2.IsTree := by
  unfold makeParent
  cases path.parent? with
  | none => exact h
  | some parent => exact createDirectories_isTree h parent

/-- What a file is written to after the directories above it were made is a place at which there is
no directory. Nothing else is changed, as long as the path does not turn back. -/
theorem putFile_puts (htree : disk.IsTree)
    (hback : ¬ disk.TurnsBack (disk.origin path) path.steps)
    (h : (putFile path content).outcome disk = (.ok (), after)) :
    ∃ made place, made.target path = .ok place ∧ disk.Extends made ∧ made.Extends after ∧
      Disk.Puts place content disk after := by
  have hmakes := makeParent_makes path disk
  have hmade := makeParent_isTree htree path
  rw [putFile_outcome] at h
  generalize (makeParent path).outcome disk = result at h hmakes hmade
  obtain ⟨_ | _, made⟩ := result
  · cases h
  · dsimp only at h hmakes hmade
    cases htarget : made.target path with
    | error e =>
        rw [htarget] at h
        cases h
    | ok place =>
        rw [htarget] at h
        obtain rfl := (Prod.mk.inj h).2
        have hgrows := hmakes.toGrows
        have hroot := Disk.ne_nil_of_target htarget
        obtain ⟨parts, name, directory, -, hparts, hname, hnoback, henter, hfollow, hfree⟩ :=
          Disk.target_steps htarget
        obtain ⟨hdirectory, -, rfl⟩ := (Disk.follow_name hname hnoback).1 hfollow
        have hnew : ∀ there node, made.node? there = some node → disk.node? there = none →
            there <+: directory := by
          rw [hgrows.extends.origin] at henter
          have hsteps := Disk.steps_of_ending hparts hname
          rw [hsteps, List.dropLast_concat] at hmakes
          rw [hsteps] at hback
          exact fun there node hnode hnone =>
            hmakes.above (fun hturns => hback (hturns.append _)) henter hnode hnone
        exact ⟨made, _, htarget, hgrows.extends, Disk.extends_put hroot _ (.inl hfree),
          .of_grows hgrows hmade hdirectory hfree hnew⟩

theorem target_join {output : Path} (hrelative : path.isAbsolute = false)
    (hback : ['.', '.'] ∉ path.steps) (h : disk.target (output.join path) = .ok place) :
    ∃ base, disk.enter (disk.origin output) output.steps = .ok base ∧
      place = base ++ path.names := by
  obtain ⟨origin, parts, directory, name, hstart, -, hall, hname, -⟩ := Disk.target_ok h
  obtain ⟨-, rfl, hparts⟩ := Disk.start_ok.1 hstart
  have hplace : disk.followAll (disk.origin (output.join path)) (parts ++ [name]) = .ok place := by
    rw [Disk.followAll_append, hall]
    simp [Disk.followAll, bind, Except.bind, hname]
  rw [hparts, Disk.origin, Path.isAbsolute_join output hrelative] at hplace
  exact Disk.followAll_join hrelative hback hplace

/-- What is found below a directory is found at its own names there. -/
theorem find_join {output : Path} {node : Node} (hrelative : path.isAbsolute = false)
    (hback : ['.', '.'] ∉ path.steps) (h : disk.find (output.join path) = .ok (place, node)) :
    ∃ base, disk.enter (disk.origin output) output.steps = .ok base ∧
      place = base ++ path.names := by
  obtain ⟨⟨origin, parts⟩, hstart, h⟩ := bind_ok.1 h
  obtain ⟨-, rfl, rfl⟩ := Disk.start_ok.1 hstart
  obtain ⟨found, hall, h⟩ := bind_ok.1 h
  split at h
  · cases h
    rw [Disk.origin, Path.isAbsolute_join output hrelative] at hall
    exact Disk.followAll_join hrelative hback hall
  · cases h

end Gazette.Scaffold
