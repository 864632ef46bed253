import Gazette.Files.Disk
import Mathlib.Data.List.TakeDrop

/-!
# The disk

What an action on a disk comes to, and where paths lead once something was written. A path that a
file was written to leads to that file from then on, because no directory above it has changed.
-/
namespace Gazette.Files

theorem bind_ok {ε α β : Type} {r : Except ε α} {f : α → Except ε β} {b : β} :
    (r >>= f) = .ok b ↔ ∃ a, r = .ok a ∧ f a = .ok b := by
  cases r <;> simp [bind, Except.bind]

namespace DiskAction
variable {ε ε' α β : Type} {disk : Disk}

def outcome (p : DiskAction ε α) (disk : Disk) : Except ε α × Disk :=
  p.run.run disk

@[simp] theorem outcome_pure (a : α) (disk : Disk) :
    (pure a : DiskAction ε α).outcome disk = (.ok a, disk) := rfl

@[simp] theorem outcome_throw (e : ε) (disk : Disk) :
    (throw e : DiskAction ε α).outcome disk = (.error e, disk) := rfl

@[simp] theorem outcome_get (disk : Disk) :
    (get : DiskAction ε Disk).outcome disk = (.ok disk, disk) := rfl

theorem outcome_bind (p : DiskAction ε α) (f : α → DiskAction ε β) (disk : Disk) :
    outcome (p >>= f) disk =
      match p.outcome disk with
      | (.ok a, after) => (f a).outcome after
      | (.error e, after) => (.error e, after) := by
  show (ExceptT.run p >>= ExceptT.bindCont f).run disk = _
  rw [StateT.run_bind]
  show (ExceptT.bindCont f (p.outcome disk).1).run (p.outcome disk).2 = _
  obtain ⟨r, after⟩ := p.outcome disk
  cases r <;> rfl

@[simp] theorem outcome_adapt (g : ε → ε') (p : DiskAction ε α) (disk : Disk) :
    outcome (ExceptT.adapt g p : DiskAction ε' α) disk =
      ((p.outcome disk).1.mapError g, (p.outcome disk).2) := rfl

@[simp] theorem outcome_look (f : Disk → Except ε α) (disk : Disk) :
    (look f).outcome disk = (f disk, disk) := by
  unfold look
  rw [outcome_bind, outcome_get]
  cases h : f disk <;> simp [h]

theorem outcome_change (refuse : FileError → ε) (f : Disk → Except FileError Disk) (disk : Disk) :
    (change refuse f).outcome disk =
      match f disk with
      | .ok after => (.ok (), after)
      | .error e => (.error (refuse e), disk) := by
  rw [change, ask, outcome_bind, outcome_look]
  cases f disk <;> rfl

/-- Whatever its result, an action leaves a disk that is related to the one before it. -/
def Moves (R : Disk → Disk → Prop) (p : DiskAction ε α) : Prop :=
  ∀ disk, R disk (p.outcome disk).2

variable {R : Disk → Disk → Prop} {p : DiskAction ε α} {f : α → DiskAction ε β}

theorem Moves.bind (trans : ∀ a b c, R a b → R b c → R a c) (hp : p.Moves R)
    (hf : ∀ a, (f a).Moves R) : Moves R (p >>= f) := by
  intro disk
  have hfirst := hp disk
  rw [outcome_bind]
  cases h : p.outcome disk with
  | mk r after =>
      rw [h] at hfirst
      cases r with
      | ok a => exact trans _ _ _ hfirst (hf a after)
      | error e => exact hfirst

end DiskAction

namespace Disk
variable {disk before after : Disk} {location place : Location} {path : Path}

theorem lookup_putEntry (location place : Location) (node : Node)
    (entries : List (Location × Node)) :
    (putEntry location node entries).lookup place =
      if place = location then some node else entries.lookup place := by
  induction entries with
  | nil =>
      by_cases h : place = location
      · simp [putEntry, h]
      · simp [putEntry, List.lookup_cons, h, beq_false_of_ne h]
  | cons entry entries ih =>
      obtain ⟨l, n⟩ := entry
      by_cases hl : l = location
      · by_cases h : place = location
        · simp [putEntry, hl, h]
        · simp [putEntry, List.lookup_cons, hl, h, beq_false_of_ne h]
      · by_cases h : place = l
        · simp [putEntry, hl, h]
        · simp [putEntry, List.lookup_cons, hl, ih, beq_false_of_ne h]

theorem node?_put (hroot : location ≠ []) (node : Node) (disk : Disk) (place : Location) :
    (disk.put location node).node? place =
      if place = location then some node else disk.node? place := by
  simp only [node?, put, lookup_putEntry]
  by_cases hplace : place = []
  · simp [hplace, Ne.symm hroot]
  · simp [hplace]

theorem requireDirectory_ok {u : Unit} :
    disk.requireDirectory location = .ok u ↔ disk.node? location = some .directory := by
  unfold requireDirectory
  cases disk.node? location with
  | none => simp
  | some node => cases node <;> simp

theorem followAll_append (disk : Disk) (location : Location) (first last : List (List Char)) :
    disk.followAll location (first ++ last) =
      (disk.followAll location first >>= fun location => disk.followAll location last) := by
  induction first generalizing location with
  | nil => rfl
  | cons segment first ih =>
      rw [List.cons_append, followAll, followAll]
      cases disk.follow location segment with
      | error e => rfl
      | ok next => exact ih next

theorem findLast_ok {name : List Char} (h : disk.findLast path = .ok (location, [name]))
    (hname : name ≠ []) :
    ∃ origin segments, disk.start path = .ok (origin, segments ++ [name]) ∧
      disk.followAll origin segments = .ok location := by
  obtain ⟨⟨origin, segments⟩, hstart, hlast⟩ := bind_ok.1 h
  have hparts : segments.reverse.takeWhile (· == []) ++ segments.reverse.dropWhile (· == []) =
      segments.reverse := List.takeWhile_append_dropWhile
  simp only [List.span_eq_takeWhile_dropWhile] at hlast
  cases hdrop : segments.reverse.dropWhile (· == []) with
  | nil =>
      rw [hdrop] at hlast
      obtain ⟨-, htrailing⟩ : origin = location ∧
          segments.reverse.takeWhile (· == []) = [name] := by simpa using hlast
      have hempty : (segments.reverse.takeWhile (· == [])).all (· == []) = true :=
        List.all_takeWhile
      rw [htrailing] at hempty
      exact absurd (by simpa using hempty) hname
  | cons last before =>
      rw [hdrop] at hlast hparts
      obtain ⟨directory, hall, hlast⟩ := bind_ok.1 hlast
      obtain ⟨_, -, hlast⟩ := bind_ok.1 hlast
      obtain ⟨rfl, rfl, htrailing⟩ : directory = location ∧ last = name ∧
          segments.reverse.takeWhile (· == []) = [] := by simpa using hlast
      rw [htrailing, List.nil_append] at hparts
      have hsegments : segments = before.reverse ++ [last] := by
        rw [← List.reverse_reverse segments, ← hparts, List.reverse_cons]
      exact ⟨origin, before.reverse, hsegments ▸ hstart, hall⟩

/-- How the place for a file is found: the last part of the path is a name, and everything before
it leads to a directory. -/
theorem target_ok (h : disk.target path = .ok place) :
    ∃ origin segments location name, disk.start path = .ok (origin, segments ++ [name]) ∧
      disk.findLast path = .ok (location, [name]) ∧
      disk.followAll origin segments = .ok location ∧ disk.follow location name = .ok place ∧
      ¬ (name = [] ∨ name = ['.'] ∨ name = ['.', '.']) ∧ disk.isDirectoryAt place = false := by
  obtain ⟨⟨location, parts⟩, hlast, hrest⟩ := bind_ok.1 h
  split at hrest
  · next location name heq =>
      cases heq
      split at hrest
      · cases hrest
      · next htrivial =>
          obtain ⟨found, hfollow, hfree⟩ := bind_ok.1 hrest
          split at hfree
          · cases hfree
          · next hdirectory =>
              cases hfree
              have hname : name ≠ [] := fun hname => htrivial (.inl hname)
              obtain ⟨origin, segments, hstart, hall⟩ := findLast_ok hlast hname
              exact ⟨origin, segments, location, name, hstart, hlast, hall, hfollow, htrivial,
                Bool.eq_false_iff.2 hdirectory⟩
  · cases hrest

theorem find_of_target (h : disk.target path = .ok place) :
    disk.find path =
      match disk.node? place with
      | some node => .ok (place, node)
      | none => .error .notFound := by
  obtain ⟨origin, segments, location, name, hstart, -, hall, hname, -, -⟩ := target_ok h
  have hplace : disk.followAll origin (segments ++ [name]) = .ok place := by
    rw [followAll_append, hall]
    simp [followAll, bind, Except.bind, hname]
  cases hnode : disk.node? place <;> simp [find, hstart, hplace, hnode, bind, Except.bind]

theorem ne_nil_of_target (h : disk.target path = .ok place) : place ≠ [] := by
  obtain ⟨-, -, -, -, -, -, -, -, -, hfree⟩ := target_ok h
  rintro rfl
  cases hfree

structure Extends (before after : Disk) : Prop where
  workingDirectory : after.workingDirectory = before.workingDirectory
  directories : ∀ location, before.node? location = some .directory →
    after.node? location = some .directory

theorem Extends.follow {segment : List Char} (h : before.Extends after)
    (hfollow : before.follow location segment = .ok place) :
    after.follow location segment = .ok place := by
  obtain ⟨_, hdirectory, hrest⟩ := bind_ok.1 hfollow
  have hthere := h.directories location (requireDirectory_ok.1 hdirectory)
  exact bind_ok.2 ⟨(), requireDirectory_ok.2 hthere, hrest⟩

theorem Extends.followAll {segments : List (List Char)} (h : before.Extends after)
    (hfollow : before.followAll location segments = .ok place) :
    after.followAll location segments = .ok place := by
  induction segments generalizing location with
  | nil => exact hfollow
  | cons segment segments ih =>
      obtain ⟨next, hfirst, hrest⟩ := bind_ok.1 hfollow
      exact bind_ok.2 ⟨next, h.follow hfirst, ih hrest⟩

theorem Extends.start (h : before.Extends after) (path : Path) :
    after.start path = before.start path := by
  simp only [Disk.start, h.workingDirectory]

theorem Extends.findLast {parts : List (List Char)} (h : before.Extends after)
    (hlast : before.findLast path = .ok (location, parts)) :
    after.findLast path = .ok (location, parts) := by
  obtain ⟨⟨origin, segments⟩, hstart, hrest⟩ := bind_ok.1 hlast
  refine bind_ok.2 ⟨(origin, segments), (h.start path).trans hstart, ?_⟩
  simp only at hrest ⊢
  split at hrest
  · exact hrest
  · obtain ⟨directory, hall, hrest⟩ := bind_ok.1 hrest
    obtain ⟨_, hdirectory, hrest⟩ := bind_ok.1 hrest
    have hthere := h.directories directory (requireDirectory_ok.1 hdirectory)
    exact bind_ok.2 ⟨directory, h.followAll hall,
      bind_ok.2 ⟨(), requireDirectory_ok.2 hthere, hrest⟩⟩

/-- A path to a file leads to the same place on a disk with more directories, unless one of these
is at that place. -/
theorem Extends.target (h : before.Extends after) (htarget : before.target path = .ok place)
    (hfree : after.isDirectoryAt place = false) : after.target path = .ok place := by
  obtain ⟨-, -, location, name, -, hlast, -, hname, hproper, -⟩ := target_ok htarget
  refine bind_ok.2 ⟨(location, [name]), h.findLast hlast, ?_⟩
  simp only [hproper, if_false]
  exact bind_ok.2 ⟨place, h.follow hname, by simp [hfree]⟩

theorem extends_put (hroot : location ≠ []) (node : Node)
    (hfree : disk.isDirectoryAt location = false ∨ node = .directory) :
    disk.Extends (disk.put location node) where
  workingDirectory := rfl
  directories := by
    intro place hplace
    rw [node?_put hroot]
    split
    · next heq =>
        subst heq
        rcases hfree with hfree | rfl
        · simp [isDirectoryAt, hplace] at hfree
        · rfl
    · exact hplace

theorem target_write {content : Content} (h : disk.target path = .ok place) :
    (disk.put place (.file content)).target path = .ok place := by
  obtain ⟨-, -, -, -, -, -, -, -, -, hfree⟩ := target_ok h
  have hroot := ne_nil_of_target h
  refine (extends_put hroot (.file content) (.inl hfree)).target h ?_
  simp [isDirectoryAt, node?_put hroot]

theorem createDirectory_ok (h : disk.createDirectory path = .ok after) :
    ∃ place, place ≠ [] ∧ disk.node? place = none ∧ after = disk.put place .directory := by
  obtain ⟨⟨location, parts⟩, -, hrest⟩ := bind_ok.1 h
  cases parts with
  | nil => cases hrest
  | cons name trailing =>
      simp only at hrest
      split at hrest
      · cases hrest
      · obtain ⟨place, -, hrest⟩ := bind_ok.1 hrest
        cases hnode : disk.node? place with
        | some node =>
            rw [hnode] at hrest
            cases hrest
        | none =>
            rw [hnode] at hrest
            refine ⟨place, ?_, hnode, (Except.ok.inj hrest).symm⟩
            rintro rfl
            cases hnode

/-- The store of the database in a file. It is empty where there is no database. -/
def storeAt (location : Location) (disk : Disk) : Store :=
  match disk.node? location with
  | some (.file (.database db)) => db.store
  | _ => {}

def KeepsStores (before after : Disk) : Prop :=
  ∀ location, after.storeAt location = before.storeAt location

theorem keepsStores_refl (disk : Disk) : disk.KeepsStores disk := fun _ => rfl

theorem KeepsStores.trans {first second third : Disk} (h : first.KeepsStores second)
    (hrest : second.KeepsStores third) : first.KeepsStores third :=
  fun location => (hrest location).trans (h location)

theorem storeAt_put (hroot : location ≠ []) (db : Database) (disk : Disk) (place : Location) :
    (disk.put location (.file (.database db))).storeAt place =
      if place = location then db.store else disk.storeAt place := by
  by_cases heq : place = location <;> simp [storeAt, node?_put hroot, heq]

theorem keepsStores_createDirectory (h : disk.createDirectory path = .ok after) :
    disk.KeepsStores after := by
  obtain ⟨created, hroot, hnode, rfl⟩ := createDirectory_ok h
  intro place
  simp only [storeAt, node?_put hroot]
  by_cases heq : place = created
  · simp [heq, hnode]
  · simp [heq]

end Disk

namespace DiskAction

variable {R : Disk → Disk → Prop}

/-- Where a directory could not be created, there may be one already. -/
theorem accept_same (path : Path) (e : FileError) (disk : Disk) :
    (outcome (do if (← get).isDirectory path then return else throw e :
      DiskAction FileError Unit) disk).2 = disk := by
  rw [outcome_bind, outcome_get]
  dsimp only
  split <;> rfl

theorem createLevels_empty {path : Path} (h : path.text = "") (levels : Nat) (disk : Disk) :
    ((createLevels path levels).outcome disk).2 = disk := by
  cases levels with
  | zero => rfl
  | succ levels =>
      rw [createLevels, if_pos h]
      rfl

/-- What is kept whenever a directory is created on the way up from a path is kept when it is
created with those above it. -/
theorem createLevels_keeps {I : Disk → Prop} {P : Path → Prop}
    (hparent : ∀ path parent, P path → path.parent? = some parent → parent.text ≠ "" → P parent)
    (hcreate : ∀ path before after, P path → I before → before.createDirectory path = .ok after →
      I after)
    (path : Path) (hpath : P path) (levels : Nat) (disk : Disk) (h : I disk) :
    I ((createLevels path levels).outcome disk).2 := by
  induction levels generalizing path disk with
  | zero => exact h
  | succ levels ih =>
      rw [createLevels]
      split
      · exact h
      · rw [outcome_bind, outcome_get]
        dsimp only
        split
        · next after hcreated => exact hcreate path disk after hpath h hcreated
        · split
          · exact h
          · next parent hsome =>
              have habove : I ((createLevels parent levels).outcome disk).2 := by
                by_cases hempty : parent.text = ""
                · rwa [createLevels_empty hempty]
                · exact ih parent (hparent path parent hpath hsome hempty) disk h
              rw [outcome_bind]
              generalize (createLevels parent levels).outcome disk = made at habove
              obtain ⟨_ | _, ready⟩ := made
              · exact habove
              · dsimp only at habove ⊢
                rw [createLevels.create, outcome_bind, outcome_get]
                dsimp only
                split
                · next after hcreated => exact hcreate path ready after hpath habove hcreated
                · rwa [accept_same]
        · rwa [accept_same]

/-- What creating one directory does, creating it with those above it does. -/
theorem createDirectories_moves (refl : ∀ disk, R disk disk)
    (trans : ∀ a b c, R a b → R b c → R a c)
    (hcreate : ∀ path before after, before.createDirectory path = .ok after → R before after)
    (path : Path) : Moves R (createDirectories path) := fun disk =>
  createLevels_keeps (P := fun _ => True) (fun _ _ _ _ _ => trivial)
    (fun path before after _ h hcreated => trans _ _ _ h (hcreate path before after hcreated))
    path trivial _ disk (refl disk)

theorem createDirectories_keepsStores (path : Path) :
    Moves Disk.KeepsStores (createDirectories path) :=
  createDirectories_moves Disk.keepsStores_refl (fun _ _ _ => Disk.KeepsStores.trans)
    (fun _ _ _ => Disk.keepsStores_createDirectory) path

end DiskAction
end Gazette.Files
