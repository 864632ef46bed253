import Gazette.Proofs.Project
import Gazette.Proofs.Puts

/-!
# Written files

What becomes of a disk when any files are written into a directory, whether or not their paths
repeat or stand in the way of one another. All of them are looked up before the first is written,
and without force that is enough for everything that was there to stay: a later file can only
replace an earlier one. Where all are written, each target holds what the last of its files says.
-/
namespace Gazette.Scaffold
open Files Files.DiskAction

variable {disk after : Disk} {base place : Location} {path output : Path} {file : ProjectFile}
  {files : List ProjectFile} {found : List Path} {e : ScaffoldError}

/-- What is found to exist are the paths that lead to something, in order. -/
theorem existing_result (paths : List Path) (disk : Disk) :
    (∃ path cause, ((existing paths).outcome disk).1 = .error (.file path cause)) ∨
      ((existing paths).outcome disk).1 = .ok (paths.filter fun path => disk.has path) := by
  induction paths with
  | nil => exact .inr rfl
  | cons path paths ih =>
      rw [existing, outcome_bind, ask, outcome_look]
      cases hexists : disk.exists? path with
      | error cause => exact .inl ⟨path, cause, rfl⟩
      | ok there =>
          have hhas : disk.has path = there := by
            unfold Disk.exists? at hexists
            unfold Disk.has
            split at hexists <;> simp_all
          simp only [Except.mapError, outcome_bind]
          generalize (existing paths).outcome disk = result at ih
          obtain ⟨e | others, same⟩ := result
          · rcases ih with ⟨path, cause, herror⟩ | hnone
            · exact .inl ⟨path, cause, herror⟩
            · cases hnone
          · rcases ih with ⟨_, _, herror⟩ | hothers
            · cases herror
            · obtain rfl := Except.ok.inj hothers
              rw [List.filter_cons, hhas]
              exact .inr rfl

theorem makeParent_error (h : (makeParent path).outcome disk = (.error e, after)) :
    ∃ parent cause, e = .file parent cause := by
  unfold makeParent at h
  split at h
  · next parent _ =>
      rw [outcome_adapt] at h
      generalize (createDirectories parent).outcome disk = result at h
      obtain ⟨cause | _, made⟩ := result
      · cases h
        exact ⟨parent, cause, rfl⟩
      · cases h
  · cases h

theorem putFile_error {content : Content}
    (h : (putFile path content).outcome disk = (.error e, after)) :
    ∃ path cause, e = .file path cause := by
  rw [putFile_outcome] at h
  cases hmake : (makeParent path).outcome disk with
  | mk result made =>
      rw [hmake] at h
      cases result with
      | error e' =>
          cases h
          exact makeParent_error hmake
      | ok _ =>
          dsimp only at h
          split at h
          · cases h
          · next cause _ =>
              cases h
              exact ⟨path, cause, rfl⟩

theorem putFiles_error (h : (putFiles output files).outcome disk = (.error e, after)) :
    ∃ path cause, e = .file path cause := by
  induction files generalizing disk with
  | nil => cases h
  | cons file files ih =>
      rw [putFiles, outcome_bind] at h
      cases hfirst : (putFile (output.join file.path) (.text file.contents)).outcome disk with
      | mk result next =>
          rw [hfirst] at h
          cases result with
          | error e' =>
              cases h
              exact putFile_error hfirst
          | ok _ => exact ih h

/-- What exists is listed in the order of the files, and nothing is written then. -/
theorem writeFiles_refused
    (h : (writeFiles files output false).outcome disk = (.error (.alreadyExists found), after)) :
    after = disk ∧
      found = (files.map fun file => output.join file.path).filter fun path => disk.has path := by
  obtain ⟨hsame, -⟩ := existing_outcome (files.map fun file => output.join file.path) disk
  have hresult := existing_result (files.map fun file => output.join file.path) disk
  unfold writeFiles at h
  simp only [putFiles_eq, Bool.not_false, if_true] at h
  rw [outcome_bind] at h
  generalize (existing (files.map fun file => output.join file.path)).outcome disk = result
    at h hsame hresult
  obtain ⟨e | others, same⟩ := result
  · obtain ⟨path, cause, herror⟩ := hresult.resolve_right nofun
    cases herror
    cases h
  · obtain rfl : same = disk := hsame
    obtain rfl := Except.ok.inj (hresult.resolve_left nofun)
    dsimp only at h
    split at h
    · obtain ⟨herror, rfl⟩ := Prod.mk.inj h
      cases herror
      exact ⟨rfl, rfl⟩
    · rw [outcome_bind] at h
      cases hput : (putFiles output files).outcome same with
      | mk result next =>
          rw [hput] at h
          cases result with
          | error e =>
              obtain ⟨path, cause, rfl⟩ := putFiles_error hput
              cases h
          | ok _ => cases h

/-- Files whose paths led to nothing when the disk began to grow take nothing away from it. -/
theorem putFiles_grows {before : Disk} (htree : before.IsTree) (hgrows : before.Grows disk)
    (houtput : ['.', '.'] ∉ output.steps) (hinside : ∀ file ∈ files, file.path.isInside = true)
    (hfind : ∀ file ∈ files, before.find (output.join file.path) = .error .notFound) :
    before.Grows ((putFiles output files).outcome disk).2 := by
  induction files generalizing disk with
  | nil => exact hgrows
  | cons file files ih =>
      obtain ⟨hhere, hlater⟩ := List.forall_mem_cons.1 hinside
      obtain ⟨hfree, hfind⟩ := List.forall_mem_cons.1 hfind
      obtain ⟨hrelative, hback⟩ := isInside_steps hhere
      have honwards : ['.', '.'] ∉ (output.join file.path).steps := by
        rw [Path.steps_join output hrelative, List.mem_append, not_or]
        exact ⟨houtput, hback⟩
      have hput : before.Grows
          ((putFile (output.join file.path) (.text file.contents)).outcome disk).2 := by
        have hmakes := makeParent_makes (output.join file.path) disk
        rw [putFile_outcome]
        generalize (makeParent (output.join file.path)).outcome disk = result at hmakes
        obtain ⟨_ | _, made⟩ := result
        · exact hgrows.trans hmakes.toGrows
        · have hmade : before.Grows made := hgrows.trans hmakes.toGrows
          dsimp only
          cases htarget : made.target (output.join file.path) with
          | error e => exact hmade
          | ok place =>
              have hplace := hmade.free_target htree (Disk.not_turnsBack honwards)
                (fun found hfound => by rw [hfree] at hfound; cases hfound) htarget
              exact hmade.put (Disk.ne_nil_of_target htarget) hplace _
      rw [putFiles, outcome_bind]
      generalize (putFile (output.join file.path) (.text file.contents)).outcome disk = result
        at hput
      obtain ⟨_ | _, next⟩ := result
      · exact hput
      · exact ih hput hlater hfind

theorem writeFiles_grows (htree : disk.IsTree) (houtput : ['.', '.'] ∉ output.steps)
    (hinside : ∀ file ∈ files, file.path.isInside = true) :
    disk.Grows ((writeFiles files output false).outcome disk).2 := by
  rcases writeFiles_cases files output disk with ⟨e, he⟩ | ⟨hfind, hwrite⟩
  · rw [he]
    exact Disk.grows_refl disk
  · have hput := putFiles_grows htree (Disk.grows_refl disk) houtput hinside hfind
    rw [hwrite, outcome_bind]
    generalize (putFiles output files).outcome disk = result at hput
    obtain ⟨_ | _, next⟩ := result <;> exact hput

/-- A path leads to one directory, if it leads to any, whatever directories are made: it never
steps back, or it leads there already. -/
def Settles (output : Path) (base : Location) (disk : Disk) : Prop :=
  (['.', '.'] ∉ output.steps ∧ base = disk.onwards output) ∨
    disk.enter (disk.origin output) output.steps = .ok base

theorem Settles.extends (h : Settles output base disk) (hextends : disk.Extends after) :
    Settles output base after := by
  unfold Settles Disk.onwards at *
  rw [hextends.origin]
  exact h.imp id hextends.enter

theorem Settles.eq (h : Settles output base disk)
    (henter : disk.enter (disk.origin output) output.steps = .ok place) : place = base := by
  rcases h with ⟨hback, rfl⟩ | hbase
  · exact Disk.enter_onwards hback henter
  · exact Except.ok.inj (henter.symm.trans hbase)

/-- A way to a directory that is there does not lead to nothing at any step. -/
theorem not_turnsBack_of_enter {steps : List (List Char)}
    (h : disk.enter base steps = .ok place) : ¬ disk.TurnsBack base steps := by
  rintro ⟨gone, rest, missing, rfl, -, hgone, hmissing⟩
  rw [Disk.enter_append] at h
  obtain ⟨here, hhere, -⟩ := bind_ok.1 h
  obtain ⟨hall, hdirectory⟩ := Disk.enter_ok.1 hhere
  obtain rfl := Except.ok.inj (hgone.symm.trans hall)
  rw [hmissing] at hdirectory
  cases hdirectory

theorem Settles.not_turnsBack (h : Settles output base disk) (hpath : path.isInside = true) :
    ¬ disk.TurnsBack (disk.origin (output.join path)) (output.join path).steps := by
  obtain ⟨hrelative, hback⟩ := isInside_steps hpath
  rw [origin_join hrelative, Path.steps_join output hrelative]
  intro hturns
  have habove := hturns.of_append hback
  rcases h with ⟨hnever, -⟩ | hbase
  · exact Disk.not_turnsBack hnever habove
  · exact not_turnsBack_of_enter hbase habove

theorem putFiles_puts (htree : disk.IsTree) (hbase : Settles output base disk)
    (hinside : ∀ file ∈ files, file.path.isInside = true)
    (h : (putFiles output files).outcome disk = (.ok (), after)) :
    Disk.PutsAll (files.map fun file => (base ++ file.path.names, .text file.contents)) disk after ∧
      ∀ file ∈ files, ∃ made : Disk, made.Extends after ∧
        made.target (output.join file.path) = .ok (base ++ file.path.names) := by
  induction files generalizing disk with
  | nil =>
      cases h
      exact ⟨.nil _, nofun⟩
  | cons file files ih =>
      obtain ⟨hhere, hlater⟩ := List.forall_mem_cons.1 hinside
      obtain ⟨hrelative, hback⟩ := isInside_steps hhere
      rw [putFiles, outcome_bind] at h
      cases hfirst : (putFile (output.join file.path) (.text file.contents)).outcome disk with
      | mk result next =>
          rw [hfirst] at h
          cases result with
          | error e => cases h
          | ok _ =>
              obtain ⟨made, place, htarget, hmade, hnext, hput⟩ :=
                putFile_puts htree (hbase.not_turnsBack hhere) hfirst
              obtain ⟨found, henter, rfl⟩ := target_join hrelative hback htarget
              obtain rfl := (hbase.extends hmade).eq henter
              obtain ⟨hputs, htargets⟩ :=
                ih (hput.isTree htree) (hbase.extends hput.extends) hlater h
              exact ⟨.cons hput hputs, List.forall_mem_cons.2
                ⟨⟨made, hnext.trans hputs.extends, htarget⟩, htargets⟩⟩

/-- Where files are written, with or without force, they are put on the disk in their order. -/
theorem writeFiles_ok {force : Bool} {written : List Path}
    (h : (writeFiles files output force).outcome disk = (.ok written, after)) :
    written = (files.map fun file => output.join file.path) ∧
      (putFiles output files).outcome disk = (.ok (), after) := by
  have hwritten : outcome (putFiles output files >>= fun _ =>
      pure (files.map fun file => output.join file.path)) disk = (.ok written, after) := by
    cases force with
    | false =>
        rcases writeFiles_cases files output disk with ⟨e, he⟩ | ⟨-, hwrite⟩
        · rw [he] at h
          cases h
        · rwa [hwrite] at h
    | true =>
        unfold writeFiles at h
        simp only [putFiles_eq] at h
        exact h
  rw [outcome_bind] at hwritten
  cases hput : (putFiles output files).outcome disk with
  | mk result next =>
      rw [hput] at hwritten
      cases result with
      | error e => cases hwritten
      | ok _ =>
          cases hwritten
          exact ⟨rfl, rfl⟩

theorem onwards_join (hrelative : path.isAbsolute = false) :
    disk.onwards (output.join path) = disk.onwards output ++ path.names := by
  rw [Disk.onwards, Disk.onwards, origin_join hrelative, Path.names_join output hrelative,
    List.append_assoc]

theorem find_written {first rest : List ProjectFile} (htree : disk.IsTree)
    (hbase : Settles output base disk)
    (hinside : ∀ other ∈ first ++ file :: rest, other.path.isInside = true)
    (h : (putFiles output (first ++ file :: rest)).outcome disk = (.ok (), after))
    (hlast : ∀ later ∈ rest, base ++ later.path.names ≠ base ++ file.path.names) :
    after.find (output.join file.path) =
      .ok (base ++ file.path.names, .file (.text file.contents)) := by
  obtain ⟨hputs, htargets⟩ := putFiles_puts htree hbase hinside h
  obtain ⟨made, hmade, htarget⟩ := htargets file (by simp)
  have hnode : after.node? (base ++ file.path.names) = some (.file (.text file.contents)) := by
    rw [List.map_append, List.map_cons] at hputs
    refine hputs.node?_last ?_
    rw [List.map_map, List.mem_map]
    rintro ⟨later, hlater, heq⟩
    exact hlast later hlater heq
  have hfree : after.isDirectoryAt (base ++ file.path.names) = false := by
    simp [Disk.isDirectoryAt, hnode]
  rw [Disk.find_of_target (hmade.target htarget hfree), hnode]

/-- Files with paths that lead inside are written into a directory whose path never steps back.
Without force, an existing target is an error and leaves the disk as it is, the error for existing
targets lists exactly these, and no file that was there is changed whatever comes of it. Where the
files are written, with or without force, the targets are listed in order, each leads to the
contents of the last file with that target, and apart from the targets there are the same files as
before, with the directories above the targets as all that is new. -/
theorem writeFiles_exactly (files : List ProjectFile) (output : Path) (disk : Disk)
    (htree : disk.IsTree) (houtput : ['.', '.'] ∉ output.steps)
    (hinside : ∀ file ∈ files, file.path.isInside = true) :
    (∀ result after, (writeFiles files output false).outcome disk = (result, after) →
      ((∃ file ∈ files, disk.has (output.join file.path) = true) →
        (∃ e, result = .error e) ∧ after = disk) ∧
      (∀ found, result = .error (.alreadyExists found) →
        after = disk ∧
          found = (files.map fun file => output.join file.path).filter fun path =>
            disk.has path) ∧
      ∀ place content, disk.node? place = some (.file content) →
        after.node? place = some (.file content)) ∧
    ∀ force written after, (writeFiles files output force).outcome disk = (.ok written, after) →
      written = (files.map fun file => output.join file.path) ∧
      (∀ first file rest, files = first ++ file :: rest →
        (∀ later ∈ rest,
          disk.onwards (output.join later.path) ≠ disk.onwards (output.join file.path)) →
        after.find (output.join file.path) =
          .ok (disk.onwards (output.join file.path), .file (.text file.contents))) ∧
      (∀ place content,
        (∀ file ∈ files, place ≠ disk.onwards (output.join file.path)) →
          (after.node? place = some (.file content) ↔
            disk.node? place = some (.file content))) ∧
      ∀ place, after.node? place = some .directory ↔
        disk.node? place = some .directory ∨ ∃ file ∈ files,
          place <+: disk.onwards (output.join file.path) ∧
            place ≠ disk.onwards (output.join file.path) := by
  have honwards : ∀ file ∈ files, disk.onwards (output.join file.path) =
      disk.onwards output ++ file.path.names :=
    fun file hfile => onwards_join (isInside_steps (hinside file hfile)).1
  have hbase : Settles output (disk.onwards output) disk := .inl ⟨houtput, rfl⟩
  refine ⟨fun result after h => ⟨?_, ?_, ?_⟩, fun force written after h => ?_⟩
  · rintro ⟨file, hfile, hhas⟩
    rcases writeFiles_cases files output disk with ⟨e, he⟩ | ⟨hfind, -⟩
    · obtain ⟨rfl, rfl⟩ := Prod.mk.inj (h.symm.trans he)
      exact ⟨⟨e, rfl⟩, rfl⟩
    · rw [Disk.has, hfind file hfile] at hhas
      cases hhas
  · rintro found rfl
    exact writeFiles_refused h
  · intro place content hold
    have hgrows := writeFiles_grows htree houtput hinside
    rw [h] at hgrows
    exact hgrows.nodes place _ hold
  · obtain ⟨rfl, hput⟩ := writeFiles_ok h
    obtain ⟨hputs, -⟩ := putFiles_puts htree hbase hinside hput
    refine ⟨rfl, ?_, ?_, ?_⟩
    · rintro first file rest rfl hlast
      rw [honwards file (by simp)]
      refine find_written htree hbase hinside hput fun later hlater => ?_
      rw [← honwards later (by simp [hlater]), ← honwards file (by simp)]
      exact hlast later hlater
    · intro place content hother
      refine hputs.file_iff ?_
      rw [List.map_map, List.mem_map]
      rintro ⟨file, hfile, rfl⟩
      exact hother file hfile (honwards file hfile).symm
    · intro place
      simp only [hputs.directory_iff, List.mem_map, exists_exists_and_eq_and]
      refine or_congr_right (exists_congr fun file => and_congr_right fun hfile => ?_)
      rw [honwards file hfile]

namespace Sample

def shelf : Disk where
  entries := [(["out"], .directory), (["out", "mine"], .file (.text "mine"))]

def twice : List ProjectFile :=
  [⟨⟨"a/b"⟩, "earlier", "first.tpl", []⟩, ⟨⟨"a/./b"⟩, "later", "second.tpl", []⟩]

end Sample

/-- The later of two files with one target is what is left there, beside a file that was there. -/
theorem writeFiles_exactly_of_twice :
    ((writeFiles Sample.twice ⟨"out"⟩ false).outcome Sample.shelf).2.node? ["out", "mine"] =
        some (.file (.text "mine")) ∧
      ((writeFiles Sample.twice ⟨"out"⟩ false).outcome Sample.shelf).2.find ⟨"out/a/./b"⟩ =
        .ok (["out", "a", "b"], .file (.text "later")) := by
  obtain ⟨hwithout, hwritten⟩ := writeFiles_exactly Sample.twice ⟨"out"⟩ Sample.shelf
    (Disk.isTree_of_entries (by decide)) (by decide) (by decide)
  have hok : ((writeFiles Sample.twice ⟨"out"⟩ false).outcome Sample.shelf).1 =
      .ok [⟨"out/a/b"⟩, ⟨"out/a/./b"⟩] := by decide +kernel
  generalize hrun : (writeFiles Sample.twice ⟨"out"⟩ false).outcome Sample.shelf = run at hok ⊢
  obtain ⟨_, after⟩ := run
  obtain rfl := hok
  obtain ⟨-, -, hkept⟩ := hwithout _ _ hrun
  obtain ⟨-, hlast, -⟩ := hwritten false _ _ hrun
  have hmine : Sample.shelf.node? ["out", "mine"] = some (.file (.text "mine")) := rfl
  have hplace : Sample.shelf.onwards ⟨"out/a/./b"⟩ = ["out", "a", "b"] := by decide +kernel
  have hjoin : (⟨"out"⟩ : Path).join ⟨"a/./b"⟩ = ⟨"out/a/./b"⟩ := by decide +kernel
  have hlater := hlast [⟨⟨"a/b"⟩, "earlier", "first.tpl", []⟩]
    ⟨⟨"a/./b"⟩, "later", "second.tpl", []⟩ [] rfl nofun
  rw [hjoin, hplace] at hlater
  exact ⟨hkept ["out", "mine"] _ hmine, hlater⟩

end Gazette.Scaffold
