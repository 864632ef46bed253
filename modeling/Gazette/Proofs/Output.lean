import Gazette.Proofs.Generation
import Gazette.Proofs.Growth
import Gazette.Proofs.Rendering
import Gazette.Scaffold.Output

/-!
# Writing a project

What is written of a project without force. Nothing that was there is replaced, and if the project
cannot be written as a whole, no file of it is: only the first file can fail, and it fails before it
is created.
-/
namespace Gazette.Scaffold
open Files Files.DiskAction

variable {disk before after made : Disk} {location directory place : Location} {path : Path}
  {content : Content} {init : List (List Char)} {name : List Char}

def makeParent (path : Path) : Action Unit :=
  match path.parent? with
  | some parent => ExceptT.adapt (.file parent) (createDirectories parent)
  | none => return

def putFile (path : Path) (content : Content) : Action Unit := do
  makeParent path
  DiskAction.change (.file path) (Disk.write path content)

theorem writeFile_eq (path : Path) (contents : String) :
    writeFile path contents = putFile path (.text contents) := by
  unfold writeFile putFile makeParent
  cases path.parent? <;> rfl

theorem makeParent_makes (path : Path) (disk : Disk) :
    disk.Makes (disk.origin path) path.steps.dropLast ((makeParent path).outcome disk).2 := by
  unfold makeParent
  cases hparent : path.parent? with
  | none => exact Disk.makes_refl _ _ disk
  | some parent =>
      rw [outcome_adapt]
      by_cases hempty : parent.text = ""
      · rw [createDirectories_empty hempty]
        exact Disk.makes_refl _ _ disk
      · have hq := Path.isParent_of_parent? hparent hempty
        obtain ⟨last, hlast⟩ := hq.steps
        have hmakes := createDirectories_makes parent disk
        rw [hlast, List.dropLast_concat]
        rw [Disk.origin, hq.isAbsolute] at hmakes
        exact hmakes

theorem putFile_outcome (path : Path) (content : Content) (disk : Disk) :
    (putFile path content).outcome disk =
      match (makeParent path).outcome disk with
      | (.error e, made) => (.error e, made)
      | (.ok _, made) =>
        match made.target path with
        | .ok place => (.ok (), made.put place (.file content))
        | .error e => (.error (.file path e), made) := by
  rw [putFile, outcome_bind]
  obtain ⟨_ | _, made⟩ := (makeParent path).outcome disk
  · rfl
  · dsimp only
    rw [outcome_change, Disk.write]
    cases made.target path <;> rfl

/-- A file is created whose path led to nothing, in a place that was free, or else only directories
are. -/
theorem putFile_cases (content : Content) (htree : disk.IsTree)
    (hback : ¬ disk.TurnsBack (disk.origin path) path.steps)
    (hfind : ∀ found, disk.find path ≠ .ok found) :
    ∃ made, disk.Makes (disk.origin path) path.steps.dropLast made ∧
      ((∃ e, (putFile path content).outcome disk = (.error e, made)) ∨
        ∃ directory name,
          (putFile path content).outcome disk =
            (.ok (), made.put (directory ++ [name]) (.file content)) ∧
          made.enter (disk.origin path) path.steps.dropLast = .ok directory ∧
            disk.node? (directory ++ [name]) = none) := by
  have hmakes := makeParent_makes path disk
  refine ⟨_, hmakes, ?_⟩
  rw [putFile_outcome]
  generalize (makeParent path).outcome disk = result at hmakes
  obtain ⟨e | _, made⟩ := result
  · exact .inl ⟨e, rfl⟩
  · dsimp only at hmakes ⊢
    cases htarget : made.target path with
    | error e => exact .inl ⟨_, rfl⟩
    | ok place =>
        have hfree := hmakes.toGrows.free_target htree hback hfind htarget
        obtain ⟨parts, name, directory, -, hparts, hname, hnoback, henter, hfollow, -⟩ :=
          Disk.target_steps htarget
        obtain ⟨-, -, rfl⟩ := (Disk.follow_name hname hnoback).1 hfollow
        rw [hmakes.toGrows.extends.origin] at henter
        rw [Disk.steps_of_ending hparts hname, List.dropLast_concat]
        exact .inr ⟨directory, String.ofList name, rfl, henter, hfree⟩

/-- A name that leads from every directory into it. -/
structure IsPlain (name : List Char) : Prop where
  counts : Path.isTrivial name = false
  onwards : name ≠ ['.', '.']
  short : (String.ofList name).utf8ByteSize ≤ Disk.nameLimit

theorem IsPlain.follow (h : IsPlain name) (hdirectory : disk.node? directory = some .directory) :
    disk.follow directory name = .ok (directory ++ [String.ofList name]) :=
  (Disk.follow_name h.counts h.onwards).2 ⟨hdirectory, h.short, rfl⟩

/-- A path that ends in some plain names, and can be walked. -/
structure EndsIn (path : Path) (above : List (List Char)) (name : List Char) : Prop where
  isWalkable : path.IsWalkable
  isPlain : IsPlain name
  steps : path.steps = above ++ [name]
  ending : ∃ parts, Path.segments path.chars = parts ++ [name]

theorem EndsIn.parts_steps {above parts : List (List Char)} (h : EndsIn path above name)
    (hparts : Path.segments path.chars = parts ++ [name]) :
    (parts.filter fun segment => !Path.isTrivial segment) = above :=
  (List.append_singleton_inj.1
    ((Disk.steps_of_ending hparts h.isPlain.counts).symm.trans h.steps)).1

theorem makeParent_of_enter (hwalk : path.IsWalkable)
    (h : disk.enter (disk.origin path) path.steps.dropLast = .ok directory) :
    (makeParent path).outcome disk = (.ok (), disk) := by
  unfold makeParent
  cases hparent : path.parent? with
  | none => rfl
  | some parent =>
      rw [outcome_adapt]
      by_cases hempty : parent.text = ""
      · rw [createDirectories_empty hempty]
        rfl
      · have hq := Path.isParent_of_parent? hparent hempty
        obtain ⟨last, hlast⟩ := hq.steps
        rw [hlast, List.dropLast_concat, Disk.origin, ← hq.isAbsolute] at h
        rw [createDirectories_of_enter (hq.isWalkable hwalk hempty) h]
        rfl

/-- A directory is created above a path if only this one is missing. -/
theorem makeParent_of_free (hwalk : path.IsWalkable) {above : List (List Char)} {last : List Char}
    (hsteps : path.steps = above ++ [name, last])
    (henter : disk.enter (disk.origin path) above = .ok directory)
    (hfollow : disk.follow directory name = .ok place) (hback : name ≠ ['.', '.'])
    (hfree : disk.node? place = none) :
    (makeParent path).outcome disk = (.ok (), disk.put place .directory) := by
  have hinit : path.steps = (above ++ [name]) ++ [last] := by simpa using hsteps
  obtain ⟨q, hparent, hne, hq, hqsteps⟩ := Path.exists_isParent hinit (by simp)
  have horigin : disk.origin q = disk.origin path := by
    rw [Disk.origin, Disk.origin, hq.isAbsolute]
  rcases hq.ending with hnone | ⟨parts, found, hparts, hfound⟩
  · rw [hqsteps] at hnone
    exact absurd hnone (by simp)
  · obtain ⟨rfl, rfl⟩ := List.append_singleton_inj.1
      ((Disk.steps_of_ending hparts hfound).symm.trans hqsteps)
    rw [← horigin] at henter
    have hcreate := Disk.createDirectory_of_ending (hq.isWalkable hwalk hne) hparts hfound hback
      henter hfollow hfree
    unfold makeParent
    rw [hparent]
    dsimp only
    rw [outcome_adapt, createDirectories_of_created hne hcreate]
    rfl

/-- A file is put in the directory above its path, once this is there. -/
theorem putFile_of_enter {above : List (List Char)} (content : Content)
    (h : EndsIn path above name) (hmake : (makeParent path).outcome disk = (.ok (), made))
    (hwork : made.workingDirectory = disk.workingDirectory)
    (henter : made.enter (disk.origin path) above = .ok directory)
    (hfree : made.node? (directory ++ [String.ofList name]) = none) :
    (putFile path content).outcome disk =
      (.ok (), made.put (directory ++ [String.ofList name]) (.file content)) := by
  obtain ⟨parts, hparts⟩ := h.ending
  have hplain := h.isPlain
  have hfollow := hplain.follow (Disk.enter_ok.1 henter).2
  have hfile : made.isDirectoryAt (directory ++ [String.ofList name]) = false := by
    simp [Disk.isDirectoryAt, hfree]
  rw [(h.parts_steps hparts).symm, Disk.origin, ← hwork] at henter
  rw [putFile_outcome, hmake]
  simp only [Disk.target_of_ending h.isWalkable hparts hplain.counts hplain.onwards henter hfollow
    hfile]

theorem putFile_plain {above : List (List Char)} (content : Content) (h : EndsIn path above name)
    (henter : disk.enter (disk.origin path) above = .ok directory)
    (hfree : disk.node? (directory ++ [String.ofList name]) = none) :
    (putFile path content).outcome disk =
      (.ok (), disk.put (directory ++ [String.ofList name]) (.file content)) := by
  have hlast : path.steps.dropLast = above := by rw [h.steps, List.dropLast_concat]
  have hmake := makeParent_of_enter h.isWalkable (hlast ▸ henter)
  exact putFile_of_enter content h hmake rfl henter hfree

/-- A file is put into a directory that is there or can be created where another one is. -/
theorem putFile_nested {above : List (List Char)} {sub : List Char} (content : Content)
    (h : EndsIn path (above ++ [sub]) name) (hsub : IsPlain sub)
    (henter : disk.enter (disk.origin path) above = .ok directory)
    (hdirectory : disk.node? (directory ++ [String.ofList sub]) = none ∨
      disk.node? (directory ++ [String.ofList sub]) = some .directory)
    (hfree : disk.node? (directory ++ [String.ofList sub] ++ [String.ofList name]) = none) :
    ∃ after, (putFile path content).outcome disk = (.ok (), after) ∧ disk.Grows after ∧
      ∀ place, ¬ directory ++ [String.ofList sub] <+: place →
        after.node? place = disk.node? place := by
  have hfollow := hsub.follow (Disk.enter_ok.1 henter).2
  have hbelow : ∀ place, ¬ directory ++ [String.ofList sub] <+: place →
      place ≠ directory ++ [String.ofList sub] ∧
        place ≠ directory ++ [String.ofList sub] ++ [String.ofList name] := by
    rintro place hplace
    refine ⟨?_, ?_⟩ <;> rintro rfl
    · exact hplace (List.prefix_refl _)
    · exact hplace (List.prefix_append _ _)
  have hroot : directory ++ [String.ofList sub] ++ [String.ofList name] ≠ [] := by simp
  rcases hdirectory with hnone | hthere
  · have hsubroot : directory ++ [String.ofList sub] ≠ [] := by simp
    have hgrows := (Disk.grows_refl disk).put hsubroot hnone .directory
    have hsteps : path.steps = above ++ [sub, name] := by simpa using h.steps
    have hmake := makeParent_of_free h.isWalkable hsteps henter hfollow hsub.onwards hnone
    have hmade : (disk.put (directory ++ [String.ofList sub]) .directory).enter (disk.origin path)
        (above ++ [sub]) = .ok (directory ++ [String.ofList sub]) := by
      refine Disk.enter_concat (hgrows.extends.enter henter) (hgrows.extends.follow hfollow) ?_
      rw [Disk.node?_put hsubroot, if_pos rfl]
    have hfile : (disk.put (directory ++ [String.ofList sub]) .directory).node?
        (directory ++ [String.ofList sub] ++ [String.ofList name]) = none := by
      rw [Disk.node?_put hsubroot, if_neg (by simp), hfree]
    refine ⟨_, putFile_of_enter content h hmake rfl hmade hfile, hgrows.put hroot hfree _, ?_⟩
    intro place hplace
    rw [Disk.node?_put hroot, if_neg (hbelow place hplace).2, Disk.node?_put hsubroot,
      if_neg (hbelow place hplace).1]
  · have henter := Disk.enter_concat henter hfollow hthere
    refine ⟨_, putFile_plain content h henter hfree, (Disk.grows_refl disk).put hroot hfree _, ?_⟩
    intro place hplace
    rw [Disk.node?_put hroot, if_neg (hbelow place hplace).2]

/-- A directory is where it was before, or there was nothing. -/
def WasFree (before : Disk) (origin : Location) (above : List (List Char))
    (base : Location) : Prop :=
  before.enter origin above = .ok base ∨ before.node? base = none

section Base
variable {above : List (List Char)} {base : Location} {sub : List Char}

/-- Where a path led to nothing, its last name is free in a directory that was there or not. -/
theorem WasFree.free_name (h : WasFree before (before.origin path) above base)
    (htree : before.IsTree)
    (hends : EndsIn path above name) (hfind : before.find path = .error .notFound) :
    before.node? (base ++ [String.ofList name]) = none := by
  rcases h with henter | hnone
  · obtain ⟨parts, hparts⟩ := hends.ending
    have hfollow := hends.isPlain.follow (Disk.enter_ok.1 henter).2
    rw [← hends.parts_steps hparts] at henter
    exact Disk.free_of_notFound hends.isWalkable hparts henter hfollow hfind
  · exact htree.none_below hnone (List.prefix_append _ _)

/-- Where a path led to nothing, its last but one name is free or leads to a directory. -/
theorem WasFree.free_sub (h : WasFree before (before.origin path) above base)
    (htree : before.IsTree)
    (hends : EndsIn path (above ++ [sub]) name) (hsub : IsPlain sub)
    (hfind : before.find path = .error .notFound) :
    (before.node? (base ++ [String.ofList sub]) = none ∨
      before.node? (base ++ [String.ofList sub]) = some .directory) ∧
        before.node? (base ++ [String.ofList sub] ++ [String.ofList name]) = none := by
  cases hnode : before.node? (base ++ [String.ofList sub]) with
  | none => exact ⟨.inl rfl, htree.none_below hnode (List.prefix_append _ _)⟩
  | some node =>
      rcases h with henter | hnone
      · obtain ⟨parts, hparts⟩ := hends.ending
        have hfollow := hsub.follow (Disk.enter_ok.1 henter).2
        cases node with
        | directory =>
            have hthere := Disk.enter_concat henter hfollow hnode
            exact ⟨.inr rfl, WasFree.free_name (.inl hthere) htree hends hfind⟩
        | file content =>
            have hlost : before.enter (before.origin path) (above ++ [sub]) =
                .error .notDirectory := by
              rw [Disk.enter_append, henter]
              show before.enter base [sub] = _
              rw [Disk.enter_cons, hfollow]
              simp [Disk.enter, Disk.followAll, Disk.requireDirectory, hnode, bind, Except.bind]
            rw [← hends.parts_steps hparts] at hlost
            rw [Disk.find_of_lost hends.isWalkable hparts hlost] at hfind
            cases hfind
      · rw [htree.none_below hnone (List.prefix_append _ _)] at hnode
        cases hnode

/-- A disk has grown by what stands under one name in a directory. -/
structure GrowsUnder (before : Disk) (base : Location) (name : String) (after : Disk) : Prop
    extends before.Grows after where
  under : ∀ place node, after.node? place = some node → before.node? place = none →
    base <+: place → place = base ∨ base ++ [name] <+: place

theorem GrowsUnder.node?_eq {name : String} (h : GrowsUnder before base name after)
    (hbelow : base <+: place) (hne : place ≠ base) (hname : ¬ base ++ [name] <+: place) :
    after.node? place = before.node? place := by
  cases hold : before.node? place with
  | some node => exact h.nodes place node hold
  | none =>
      cases hnew : after.node? place with
      | none => rfl
      | some node =>
          exact absurd (h.under place node hnew hold hbelow) (not_or.2 ⟨hne, hname⟩)

theorem eq_or_prefix {name : String} (hbelow : base <+: place) (habove : place <+: directory)
    (hname : base ++ [name] <+: directory) : place = base ∨ base ++ [name] <+: place := by
  rcases List.prefix_or_prefix_of_prefix habove hname with hplace | hplace
  · rcases List.prefix_concat_iff.1 hplace with rfl | hplace
    · exact .inr (List.prefix_refl _)
    · exact .inl (hplace.eq_of_length_le hbelow.length_le)
  · exact .inr hplace

/-- A file that is put somewhere below a name in a directory is all that a disk grows by there. -/
theorem putFile_below {more : List (List Char)} (content : Content) (htree : before.IsTree)
    (hsteps : path.steps = above ++ sub :: more) (hmore : more ≠ [])
    (hback : ¬ before.TurnsBack (before.origin path) above)
    (honwards : ['.', '.'] ∉ sub :: more) (hsub : Path.isTrivial sub = false)
    (hfind : before.find path = .error .notFound) :
    (∃ e after, (putFile path content).outcome before = (.error e, after) ∧
        before.Makes (before.origin path) path.steps.dropLast after) ∨
      ∃ after base, (putFile path content).outcome before = (.ok (), after) ∧
        WasFree before (before.origin path) above base ∧
          after.enter (before.origin path) above = .ok base ∧
            GrowsUnder before base (String.ofList sub) after := by
  have hnever : ¬ before.TurnsBack (before.origin path) path.steps := by
    rw [hsteps]
    exact fun hturns => hback (hturns.of_append honwards)
  obtain ⟨made, hmakes, ⟨e, herror⟩ | ⟨directory, name, hput, hparent, hfree⟩⟩ :=
    putFile_cases content htree hnever fun found => by rw [hfind]; exact nofun
  · exact .inl ⟨e, made, herror, hmakes⟩
  · have hlast : path.steps.dropLast = above ++ sub :: more.dropLast := by
      rw [hsteps, List.dropLast_append_of_ne_nil (by simp), List.dropLast_cons_of_ne_nil hmore]
    have hsome : path.steps ≠ [] := by simp [hsteps]
    have hnotlast : ¬ before.TurnsBack (before.origin path) path.steps.dropLast := fun hturns =>
      hnever (List.dropLast_concat_getLast hsome ▸ hturns.append [path.steps.getLast hsome])
    have habove : ∀ place node, made.node? place = some node → before.node? place = none →
        place <+: directory := fun place node hnew hold =>
      hmakes.above hnotlast hparent hnew hold
    rw [hlast, Disk.enter_append] at hparent
    obtain ⟨base, hbase, hrest⟩ := bind_ok.1 hparent
    rw [Disk.enter_cons] at hrest
    obtain ⟨next, hnext, hrest⟩ := bind_ok.1 hrest
    rw [List.mem_cons, not_or] at honwards
    obtain ⟨-, -, rfl⟩ := (Disk.follow_name hsub (Ne.symm honwards.1)).1 hnext
    have hname : base ++ [String.ofList sub] <+: directory :=
      Disk.enter_prefix (fun hmem => honwards.2 ((List.dropLast_sublist _).subset hmem)) hrest
    have hroot : directory ++ [name] ≠ [] := by simp
    have hnew : made.node? (directory ++ [name]) = none := by
      cases hnode : made.node? (directory ++ [name]) with
      | none => rfl
      | some node => exact absurd (habove _ _ hnode hfree).length_le (by simp)
    have hafter := (Disk.grows_refl made).put hroot hnew (.file content)
    refine .inr ⟨_, base, hput, ?_, hafter.extends.enter hbase, hmakes.toGrows.trans hafter, ?_⟩
    · refine or_iff_not_imp_left.2 fun hlost => ?_
      rw [← List.append_nil above] at hback
      obtain ⟨-, missing, hmissing, hbelow⟩ := hmakes.toGrows.lost_above hback hbase hlost
      exact htree.none_below hmissing hbelow
    · intro place node hnode hold hbelow
      rw [Disk.node?_put hroot] at hnode
      split at hnode
      · next heq =>
          rw [heq]
          exact .inr (hname.trans (List.prefix_append _ _))
      · exact eq_or_prefix hbelow (habove place node hnode hold) hname

end Base

end Gazette.Scaffold
