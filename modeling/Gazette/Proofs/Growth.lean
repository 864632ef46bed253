import Gazette.Proofs.Walks
import Mathlib.Data.List.Induction

/-!
# Growing disks

A disk grows where something is put in a place that was free. To make directories lets a disk grow
along one path. A path that never steps back from a place where nothing is leads to a free place
in the end, as long as it did not lead to anything before.
-/
namespace Gazette.Files

namespace Disk
variable {disk before after third : Disk} {location place directory : Location} {path : Path}
  {steps part rest : List (List Char)} {node : Node}

def IsTree (disk : Disk) : Prop :=
  ∀ location name node, disk.node? (location ++ [name]) = some node →
    disk.node? location = some .directory

theorem IsTree.none_below (h : disk.IsTree) (hnone : disk.node? location = none)
    (hbelow : location <+: place) : disk.node? place = none := by
  obtain ⟨names, rfl⟩ := hbelow
  induction names using List.reverseRecOn with
  | nil => rwa [List.append_nil]
  | append_singleton names name ih =>
      cases hnode : disk.node? (location ++ (names ++ [name])) with
      | none => rfl
      | some node =>
          rw [← List.append_assoc] at hnode
          rw [h _ _ _ hnode] at ih
          cases ih

theorem isDirectoryAt_iff :
    disk.isDirectoryAt location = true ↔ disk.node? location = some .directory := by
  unfold isDirectoryAt
  split <;> simp_all

theorem isTree_of_entries
    (h : ∀ entry ∈ disk.entries, disk.isDirectoryAt entry.1.dropLast = true) : disk.IsTree := by
  intro location name node hnode
  rw [node?, if_neg (by simp)] at hnode
  obtain ⟨first, last, hentries, -⟩ := List.lookup_eq_some_iff.1 hnode
  have hentry :=
    h (location ++ [name], node) (hentries ▸ List.mem_append_right _ List.mem_cons_self)
  rwa [List.dropLast_concat, isDirectoryAt_iff] at hentry

/-- One disk still has everything that another one has. -/
structure Grows (before after : Disk) : Prop where
  workingDirectory : after.workingDirectory = before.workingDirectory
  nodes : ∀ place node, before.node? place = some node → after.node? place = some node

theorem grows_refl (disk : Disk) : disk.Grows disk := ⟨rfl, fun _ _ => id⟩

theorem Grows.trans (h : before.Grows after) (hrest : after.Grows third) : before.Grows third :=
  ⟨hrest.workingDirectory.trans h.workingDirectory,
    fun place node hnode => hrest.nodes place node (h.nodes place node hnode)⟩

theorem Grows.extends (h : before.Grows after) : before.Extends after :=
  ⟨h.workingDirectory, fun location => h.nodes location .directory⟩

theorem ne_nil_of_free (h : disk.node? location = none) : location ≠ [] := by
  rintro rfl
  cases h

/-- What is put in a place that was free when the disk began to grow takes nothing away. -/
theorem Grows.put (h : before.Grows after) (hroot : place ≠ []) (hfree : before.node? place = none)
    (node : Node) : before.Grows (after.put place node) where
  workingDirectory := h.workingDirectory
  nodes := by
    intro there old hold
    have hne : there ≠ place := by
      rintro rfl
      rw [hfree] at hold
      cases hold
    rw [node?_put hroot, if_neg hne]
    exact h.nodes there old hold

def textAt? (location : Location) (disk : Disk) : Option String :=
  match disk.node? location with
  | some (.file content) => content.text?
  | _ => none

theorem Grows.textAt?_eq {s : String} (h : before.Grows after)
    (hs : before.textAt? place = some s) :
    after.textAt? place = some s := by
  unfold textAt? at hs ⊢
  split at hs
  · next hnode => rwa [h.nodes _ _ hnode]
  · cases hs

theorem Grows.directory_or_free (h : before.Grows after)
    (hdirectory : after.node? place = some .directory) :
    before.node? place = some .directory ∨ before.node? place = none := by
  cases hold : before.node? place with
  | none => exact .inr rfl
  | some node => exact .inl ((h.nodes place node hold).symm.trans hdirectory)

theorem Extends.enter (h : before.Extends after)
    (henter : before.enter location steps = .ok place) :
    after.enter location steps = .ok place := by
  obtain ⟨hall, hdirectory⟩ := enter_ok.1 henter
  exact enter_ok.2 ⟨h.followAll hall, h.directories place hdirectory⟩

theorem Extends.origin (h : before.Extends after) (path : Path) :
    after.origin path = before.origin path := by
  unfold Disk.origin
  rw [h.workingDirectory]

/-- Whether steps lead back after one that led to nothing. -/
def TurnsBack (location : Location) (steps : List (List Char)) (disk : Disk) : Prop :=
  ∃ gone rest place, steps = gone ++ rest ∧ ['.', '.'] ∈ rest ∧
    disk.followAll location gone = .ok place ∧ disk.node? place = none

theorem not_turnsBack (h : ['.', '.'] ∉ steps) : ¬ disk.TurnsBack location steps := by
  rintro ⟨gone, rest, -, rfl, hback, -⟩
  exact h (List.mem_append_right _ hback)

theorem TurnsBack.append (h : disk.TurnsBack location steps) (more : List (List Char)) :
    disk.TurnsBack location (steps ++ more) := by
  obtain ⟨gone, rest, place, rfl, hback, hgone⟩ := h
  exact ⟨gone, rest ++ more, place, List.append_assoc _ _ _, List.mem_append_left _ hback, hgone⟩

theorem TurnsBack.of_append (hmore : ['.', '.'] ∉ rest)
    (h : disk.TurnsBack location (steps ++ rest)) : disk.TurnsBack location steps := by
  obtain ⟨gone, left, place, heq, hback, hgone⟩ := h
  rcases List.append_eq_append_iff.1 heq with ⟨more, rfl, rfl⟩ | ⟨more, rfl, rfl⟩
  · exact absurd (List.mem_append_right _ hback) hmore
  · refine ⟨gone, more, place, rfl, ?_, hgone⟩
    exact (List.mem_append.1 hback).resolve_right hmore

/-- A way that leads to a directory of a grown disk led there before, or to nothing at some step. -/
theorem Grows.enter_cases (h : before.Grows after)
    (henter : after.enter location steps = .ok place) :
    before.enter location steps = .ok place ∨ ∃ gone rest missing, steps = gone ++ rest ∧
      before.followAll location gone = .ok missing ∧ before.node? missing = none ∧
        after.enter missing rest = .ok place := by
  induction steps generalizing location with
  | nil =>
      obtain ⟨hall, hdirectory⟩ := enter_ok.1 henter
      cases hall
      rcases h.directory_or_free hdirectory with hold | hnone
      · exact .inl (enter_ok.2 ⟨rfl, hold⟩)
      · exact .inr ⟨[], [], place, rfl, rfl, hnone, henter⟩
  | cons step steps ih =>
      obtain ⟨next, hnext, hrest⟩ := bind_ok.1 ((enter_cons step).symm.trans henter)
      obtain ⟨_, hdirectory, hstep⟩ := bind_ok.1 hnext
      rcases h.directory_or_free (requireDirectory_ok.1 hdirectory) with hold | hnone
      · have hbefore : before.follow location step = .ok next :=
          bind_ok.2 ⟨(), requireDirectory_ok.2 hold, hstep⟩
        rcases ih hrest with hrest | ⟨gone, rest, missing, rfl, hgone, hmissing⟩
        · exact .inl ((enter_cons step).trans (bind_ok.2 ⟨next, hbefore, hrest⟩))
        · exact .inr ⟨step :: gone, rest, missing, rfl, bind_ok.2 ⟨next, hbefore, hgone⟩, hmissing⟩
      · exact .inr ⟨[], step :: steps, location, rfl, rfl, hnone, henter⟩

/-- Where a way led to nothing before, and does not turn back, it leads below a free place. -/
theorem Grows.lost_above (h : before.Grows after)
    (hback : ¬ before.TurnsBack location (part ++ rest))
    (hpart : after.enter location part = .ok place)
    (hlost : before.enter location part ≠ .ok place) :
    ['.', '.'] ∉ rest ∧ ∃ missing, before.node? missing = none ∧ missing <+: place := by
  rcases h.enter_cases hpart with hold | ⟨gone, left, missing, rfl, hgone, hmissing, henter⟩
  · exact absurd hold hlost
  · have hnever : ['.', '.'] ∉ left ++ rest := by
      intro hmem
      exact hback ⟨gone, left ++ rest, missing, List.append_assoc _ _ _, hmem, hgone, hmissing⟩
    rw [List.mem_append, not_or] at hnever
    exact ⟨hnever.2, missing, hmissing, enter_prefix hnever.1 henter⟩

/-- A file is written in a place that was free, if its path led to nothing before. -/
theorem Grows.free_target (h : before.Grows after) (htree : before.IsTree)
    (hback : ¬ before.TurnsBack (before.origin path) path.steps)
    (hfind : ∀ found, before.find path ≠ .ok found) (htarget : after.target path = .ok place) :
    before.node? place = none := by
  obtain ⟨parts, name, directory, hwalk, hparts, hname, hnoback, henter, hfollow, -⟩ :=
    target_steps htarget
  rw [h.extends.origin] at henter
  obtain ⟨-, hshort, rfl⟩ := (follow_name hname hnoback).1 hfollow
  rw [steps_of_ending hparts hname] at hback
  by_cases hold : before.enter (before.origin path)
      (parts.filter fun segment => !Path.isTrivial segment) = .ok directory
  · have hfollow := (follow_name hname hnoback).2 ⟨(enter_ok.1 hold).2, hshort, rfl⟩
    have hfound := find_of_ending hwalk hparts hold hfollow
    cases hnode : before.node? (directory ++ [String.ofList name]) with
    | none => rfl
    | some node =>
        rw [hnode] at hfound
        exact absurd hfound (hfind _)
  · obtain ⟨-, missing, hmissing, hbelow⟩ := h.lost_above hback henter hold
    exact htree.none_below hmissing (hbelow.trans (List.prefix_append _ _))

/-- A disk grows by directories along a way. -/
structure Makes (location : Location) (steps : List (List Char)) (before after : Disk) : Prop
    extends Grows before after where
  made : ∀ place node, after.node? place = some node → before.node? place = none →
    node = .directory ∧ ∃ part, part <+: steps ∧ after.enter location part = .ok place

theorem makes_refl (location : Location) (steps : List (List Char)) (disk : Disk) :
    disk.Makes location steps disk where
  toGrows := grows_refl disk
  made place node hnew hold := by
    rw [hnew] at hold
    cases hold

theorem Makes.createDirectory (h : before.Makes location steps disk)
    (horigin : disk.origin path = location) (hsteps : path.steps <+: steps)
    (hcreate : disk.createDirectory path = .ok after) : before.Makes location steps after := by
  obtain ⟨init, name, directory, place, hpath, -, henter, hfollow, hfree, rfl⟩ :=
    createDirectory_steps hcreate
  have hroot := ne_nil_of_free hfree
  have hextends : disk.Extends (disk.put place .directory) :=
    extends_put hroot .directory (.inr rfl)
  have hold : before.node? place = none := by
    cases hnode : before.node? place with
    | none => rfl
    | some node =>
        rw [h.nodes place node hnode] at hfree
        cases hfree
  refine ⟨h.toGrows.put hroot hold .directory, fun there node hnew hnone => ?_⟩
  rw [node?_put hroot] at hnew
  split at hnew
  · next heq =>
      subst heq
      cases hnew
      refine ⟨rfl, path.steps, hsteps, ?_⟩
      rw [hpath, ← horigin]
      refine enter_concat (hextends.enter henter) (hextends.follow hfollow) ?_
      rw [node?_put hroot, if_pos rfl]
  · obtain ⟨hdirectory, part, hpart, henter⟩ := h.made there node hnew hnone
    exact ⟨hdirectory, part, hpart, hextends.enter henter⟩

/-- What was made along a way that never turns back stands above the directory that it leads to. -/
theorem Makes.above (h : before.Makes location steps after)
    (hback : ¬ before.TurnsBack location steps)
    (hall : after.enter location steps = .ok directory) (hnew : after.node? place = some node)
    (hold : before.node? place = none) : place <+: directory := by
  obtain ⟨-, part, ⟨rest, rfl⟩, henter⟩ := h.made place node hnew hold
  rw [enter_append, henter] at hall
  refine enter_prefix (h.toGrows.lost_above hback henter ?_).1 hall
  intro hbefore
  rw [(enter_ok.1 hbefore).2] at hold
  cases hold

end Disk

namespace DiskAction
variable {disk after : Disk} {path : Path} {place : Location}

theorem createDirectories_makes (path : Path) (disk : Disk) :
    disk.Makes (disk.origin path) path.steps ((createDirectories path).outcome disk).2 := by
  refine createLevels_keeps
    (P := fun p => p.isAbsolute = path.isAbsolute ∧ p.steps <+: path.steps) ?_ ?_ path
      ⟨rfl, List.prefix_refl _⟩ _ disk (Disk.makes_refl _ _ disk)
  · rintro p q ⟨habsolute, hsteps⟩ hparent hne
    have hq := Path.isParent_of_parent? hparent hne
    obtain ⟨last, hlast⟩ := hq.steps
    exact ⟨hq.isAbsolute.trans habsolute, (hlast ▸ List.prefix_append _ _).trans hsteps⟩
  · rintro p before after ⟨habsolute, hsteps⟩ hmakes hcreate
    refine hmakes.createDirectory ?_ hsteps hcreate
    unfold Disk.origin
    rw [habsolute, hmakes.workingDirectory]

theorem createDirectories_empty (h : path.text = "") (disk : Disk) :
    (createDirectories path).outcome disk = (.ok (), disk) := by
  unfold createDirectories
  rw [createLevels, if_pos h]
  rfl

theorem createDirectories_of_enter (hwalk : path.IsWalkable)
    (h : disk.enter (disk.origin path) path.steps = .ok place) :
    (createDirectories path).outcome disk = (.ok (), disk) := by
  have hdirectory : disk.isDirectory path = true := by
    rw [Disk.isDirectory, Disk.find_of_enter hwalk h]
  unfold createDirectories
  rw [createLevels, if_neg hwalk.nonempty, outcome_bind, outcome_get]
  simp only [Disk.createDirectory_of_enter hwalk h, outcome_bind, outcome_get, hdirectory]
  rfl

theorem createDirectories_of_created (hne : path.text ≠ "")
    (h : disk.createDirectory path = .ok after) :
    (createDirectories path).outcome disk = (.ok (), after) := by
  unfold createDirectories
  rw [createLevels, if_neg hne, outcome_bind, outcome_get]
  simp only [h]
  rfl

end DiskAction
end Gazette.Files
