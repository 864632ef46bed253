import Gazette.Proofs.Disk
import Gazette.Proofs.Integrity
import Gazette.Program.Run

/-!
# Databases of the program

What a command finds in the file of the database when it opens it, and what it leaves there. To
open a database changes none, and what is carried out on it afterwards is kept where it was found.
-/
namespace Gazette.Program
open Files DiskAction

variable {disk after : Disk} {path dataDir : Path} {place? : Option Location} {db : Database}
  {ε α : Type}

/-- The file that an opened database stands in. A database that lasts as long as the run stands
nowhere. -/
def Stands (path : Path) (db : Database) (place? : Option Location) (disk : Disk) : Prop :=
  match place? with
  | none => isPassing path = true
  | some place =>
    isPassing path = false ∧ disk.target (databaseFile path) = .ok place ∧
      disk.storeAt place = db.store

/-- One disk has a store in a file and is like another disk besides, as far as stores go. -/
def Becomes (place? : Option Location) (t : Store) (before after : Disk) : Prop :=
  ∀ place, after.storeAt place = if place? = some place then t else before.storeAt place

theorem Becomes.trans {first second third : Disk} {t u : Store} (h : Becomes place? t first second)
    (hrest : Becomes place? u second third) : Becomes place? u first third := by
  intro place
  rw [hrest place, h place]
  split <;> rfl

theorem Becomes.after_keepsStores {first second third : Disk} {t : Store}
    (hkeeps : first.KeepsStores second) (h : Becomes place? t second third) :
    Becomes place? t first third := by
  intro place
  rw [h place, hkeeps place]

theorem Becomes.keepsStores {t : Store} {before : Disk} (h : Becomes place? t before after)
    (hsame : ∀ place, place? = some place → t = before.storeAt place) :
    before.KeepsStores after := by
  intro place
  rw [h place]
  split
  · next heq => exact hsame place heq
  · rfl

theorem Stands.store_eq {place : Location} (h : Stands path db place? disk)
    (hplace : place? = some place) : db.store = disk.storeAt place := by
  subst hplace
  exact h.2.2.symm

theorem keepDatabase_passing (hpassing : isPassing path = true) (db : Database) (disk : Disk) :
    (keepDatabase path db).outcome disk = (.ok (), disk) := by
  simp [keepDatabase, hpassing]

theorem keepDatabase_outcome (hpassing : isPassing path = false) (db : Database) (disk : Disk) :
    (keepDatabase path db).outcome disk =
      match disk.target (databaseFile path) with
      | .ok place => (.ok (), disk.put place (.file (.database db)))
      | .error e => (.error (.databaseFile e), disk) := by
  simp only [keepDatabase, hpassing, Bool.false_eq_true, if_false, outcome_change, Disk.write, bind,
    Except.bind]
  cases disk.target (databaseFile path) <;> rfl

/-- An opened database can be kept with other contents, and then stands where it stood. -/
theorem Stands.keepDatabase (h : Stands path db place? disk) (other : Database) :
    ∃ after, (keepDatabase path other).outcome disk = (.ok (), after) ∧
      Stands path other place? after ∧ Becomes place? other.store disk after := by
  cases place? with
  | none => exact ⟨disk, keepDatabase_passing h other disk, h, fun _ => rfl⟩
  | some place =>
      obtain ⟨hpassing, htarget, -⟩ := h
      have hroot := Disk.ne_nil_of_target htarget
      have hstore := Disk.storeAt_put hroot other disk
      refine ⟨disk.put place (.file (.database other)), ?_,
        ⟨hpassing, Disk.target_write htarget, ?_⟩, ?_⟩
      · rw [keepDatabase_outcome hpassing, htarget]
      · rw [hstore, if_pos rfl]
      · intro there
        rw [hstore]
        simp [eq_comm]

/-- What is carried out on an opened database is kept where the database stands. -/
theorem Stands.onDatabase (h : Stands path db place? disk) (refuse : ε → Failure)
    (procedure : StoreProcedure ε α) :
    ∃ after, (onDatabase path db refuse procedure).outcome disk =
        (match (procedure.outcome db.store).1 with
          | .ok a => .ok (a, { db with store := (procedure.outcome db.store).2 })
          | .error e => .error (refuse e), after) ∧
      Stands path { db with store := (procedure.outcome db.store).2 } place? after ∧
      Becomes place? (procedure.outcome db.store).2 disk after := by
  obtain ⟨after, hkeep, hstands, hbecomes⟩ :=
    h.keepDatabase { db with store := (procedure.outcome db.store).2 }
  refine ⟨after, ?_, hstands, hbecomes⟩
  show outcome (Program.keepDatabase path { db with store := (procedure.outcome db.store).2 } >>=
    fun _ => _) disk = _
  rw [outcome_bind, hkeep]
  show outcome (match (procedure.outcome db.store).1 with | .ok a => _ | .error e => _) after = _
  cases (procedure.outcome db.store).1 <;> rfl

def makeDirectories (dataDir path : Path) : Action Unit := do
  ExceptT.adapt .directory (createDirectories dataDir)
  match path.parent? with
  | some parent => ExceptT.adapt .directory (createDirectories parent)
  | none => return

def readDatabase (path : Path) : Action Database :=
  if isPassing path then return {} else look (databaseAt path)

/-- Brings a database up to date, and keeps it as far as it got. -/
def update (path : Path) (db : Database) : Action Database := do
  keepDatabase path db.migrate.2
  match db.migrate.1 with
  | none => return db.migrate.2
  | some e => throw (.migration e)

theorem openDatabase_eq (dataDir path : Path) :
    openDatabase dataDir path = (do
      makeDirectories dataDir path
      let db ← readDatabase path
      update path db) := by
  unfold openDatabase makeDirectories readDatabase
  cases path.parent? <;> cases isPassing path <;> simp <;> rfl

theorem migrate_store (db : Database) : db.migrate.2.store = db.store :=
  Database.executeAll_store _ _

theorem makeDirectories_keepsStores (dataDir path : Path) :
    Moves Disk.KeepsStores (makeDirectories dataDir path) := by
  have hadapt (directory : Path) : Moves Disk.KeepsStores
      (ExceptT.adapt .directory (createDirectories directory) : Action Unit) := by
    intro disk
    rw [outcome_adapt]
    exact createDirectories_keepsStores directory disk
  refine Moves.bind (fun _ _ _ => Disk.KeepsStores.trans) (hadapt dataDir) fun _ => ?_
  split
  · exact hadapt _
  · exact Disk.keepsStores_refl

theorem readDatabase_outcome (path : Path) (disk : Disk) :
    (readDatabase path).outcome disk =
      (if isPassing path then .ok {} else databaseAt path disk, disk) := by
  unfold readDatabase
  split
  · rfl
  · exact outcome_look _ _

theorem databaseAt_store {place : Location} (h : databaseAt path disk = .ok db)
    (htarget : disk.target (databaseFile path) = .ok place) : db.store = disk.storeAt place := by
  have hlocal : (DatabasePath.ofPath path).isLocal = true := by
    by_contra hforeign
    rw [Bool.not_eq_true] at hforeign
    simp [databaseAt, hforeign, bind, Except.bind] at h
  simp only [databaseAt, hlocal, Disk.find_of_target htarget, Bool.not_true, Bool.false_eq_true,
    if_false] at h
  unfold Disk.storeAt
  cases hnode : disk.node? place with
  | none =>
      rw [hnode] at h
      cases h
      rfl
  | some node =>
      rw [hnode] at h
      cases node with
      | directory => cases h
      | file content =>
          cases content with
          | database other =>
              cases h
              rfl
          | text s =>
              have hempty : db = {} := by split at h <;> grind
              rw [hempty]
          | octets bytes =>
              have hempty : db = {} := by split at h <;> grind
              rw [hempty]
          | archive entries => cases h

/-- The store at a place. Nowhere, it is empty. -/
def storeIn (place? : Option Location) (disk : Disk) : Store :=
  place?.elim {} fun place => disk.storeAt place

/-- A database that could be read stands in its file, unless the path is none to write to. -/
theorem stands_of_read (h : (readDatabase path).outcome disk = (.ok db, after)) :
    after = disk ∧ ((∃ place?, Stands path db place? disk ∧ db.store = storeIn place? disk) ∨
      ∀ other : Database, ∃ e, (keepDatabase path other).outcome disk = (.error e, disk)) := by
  rw [readDatabase_outcome] at h
  cases hpassing : isPassing path with
  | true =>
      obtain ⟨rfl, rfl⟩ : {} = db ∧ disk = after := by simpa [hpassing] using h
      exact ⟨rfl, .inl ⟨none, hpassing, rfl⟩⟩
  | false =>
      obtain ⟨hread, rfl⟩ : databaseAt path disk = .ok db ∧ disk = after := by
        simpa [hpassing] using h
      refine ⟨rfl, ?_⟩
      cases htarget : disk.target (databaseFile path) with
      | ok place =>
          have hstore := databaseAt_store hread htarget
          exact .inl ⟨some place, ⟨hpassing, htarget, hstore.symm⟩, hstore⟩
      | error e =>
          exact .inr fun other => ⟨.databaseFile e, by rw [keepDatabase_outcome hpassing, htarget]⟩

theorem Stands.update (h : Stands path db place? disk) :
    ∃ after, (update path db).outcome disk =
        (match db.migrate.1 with
          | none => .ok db.migrate.2
          | some e => .error (.migration e), after) ∧
      Stands path db.migrate.2 place? after ∧ disk.KeepsStores after := by
  obtain ⟨after, hkeep, hstands, hbecomes⟩ := h.keepDatabase db.migrate.2
  refine ⟨after, ?_, hstands, hbecomes.keepsStores fun place hplace => ?_⟩
  · rw [Program.update, outcome_bind, hkeep]
    show outcome (match db.migrate.1 with | none => _ | some e => _) after = _
    cases db.migrate.1 <;> rfl
  · rw [migrate_store, h.store_eq hplace]

/-- To open a database changes none, and what is open is what stands somewhere. -/
theorem openDatabase_cases (dataDir path : Path) (disk : Disk) :
    disk.KeepsStores ((openDatabase dataDir path).outcome disk).2 ∧
      ∀ db, ((openDatabase dataDir path).outcome disk).1 = .ok db →
        ∃ place?, Stands path db place? ((openDatabase dataDir path).outcome disk).2 ∧
          db.store = storeIn place? disk := by
  have hmade := makeDirectories_keepsStores dataDir path disk
  rw [openDatabase_eq, outcome_bind]
  generalize (makeDirectories dataDir path).outcome disk = made at hmade
  obtain ⟨_ | _, ready⟩ := made
  · exact ⟨hmade, nofun⟩
  · dsimp only at hmade ⊢
    rw [outcome_bind]
    cases hread : (readDatabase path).outcome ready with
    | mk r same =>
        cases r with
        | error e =>
            obtain rfl : ready = same := by
              rw [readDatabase_outcome] at hread
              exact congrArg Prod.snd hread
            exact ⟨hmade, nofun⟩
        | ok db =>
            obtain ⟨rfl, ⟨place?, hstands, hstore⟩ | hfail⟩ := stands_of_read hread
            · obtain ⟨after, hupdate, hopen, hkeeps⟩ := hstands.update
              dsimp only
              rw [hupdate]
              have hsame : db.migrate.2.store = storeIn place? disk := by
                rw [migrate_store, hstore]
                cases place? with
                | none => rfl
                | some place => exact hmade place
              refine ⟨hmade.trans hkeeps, fun opened hopened => ⟨place?, ?_⟩⟩
              cases herror : db.migrate.1 with
              | none =>
                  rw [herror] at hopened
                  cases hopened
                  exact ⟨hopen, hsame⟩
              | some e =>
                  rw [herror] at hopened
                  cases hopened
            · obtain ⟨e, he⟩ := hfail db.migrate.2
              dsimp only
              rw [update, outcome_bind, he]
              exact ⟨hmade, nofun⟩

/-- How a run ends whose command came to a result. -/
def Ending.ofResult : Except Failure Outcome → Ending
  | .ok (.printed lines) => .exit 0 (linesText lines) ""
  | .ok (.serving address site) => .listen address site
  | .ok .broken => .broken
  | .error failure => .exit 1 (linesText failure.printed) failure.report

theorem run_of_read [Libraries] {around : Surroundings} {words : List String}
    {invocation : CommandLine.Invocation} (h : CommandLine.read words = .ok invocation)
    (disk : Disk) :
    (run around words).run disk =
      (Ending.ofResult ((perform invocation around).outcome disk).1,
        ((perform invocation around).outcome disk).2) := by
  rw [run, h]
  show StateT.run (_ >>= _) disk = _
  rw [StateT.run_bind]
  show (match ((perform invocation around).outcome disk).1 with
    | .ok (.printed lines) => _
    | .ok (.serving address site) => _
    | .ok .broken => _
    | .error failure => _ : StateM Disk Ending).run _ = _
  cases ((perform invocation around).outcome disk).1 with
  | error failure => rfl
  | ok outcome => cases outcome <;> rfl

def configuration? (around : Surroundings) (words : List String) (disk : Disk) :
    Option Configuration := do
  let invocation ← (CommandLine.read words).toOption
  (Configuration.load (invocation.dataDirIn around.home) invocation disk).toOption

/-- Where the database is, is settled once the configuration is found. -/
theorem databasePath_of_load {invocation : CommandLine.Invocation} {config : Configuration}
    (h : Configuration.load dataDir invocation disk = .ok config) :
    config.databasePath = some (config.databaseIn dataDir) := by
  have hcompleted : ∀ found : Configuration, found.completed dataDir invocation = config →
      config.databasePath = some (config.databaseIn dataDir) := by
    rintro found rfl
    rfl
  unfold Configuration.load at h
  dsimp only at h
  split at h
  · split at h
    · cases h
    · split at h
      · exact hcompleted _ (Except.ok.inj h)
      · cases h
  · exact hcompleted _ (Except.ok.inj h)

end Gazette.Program
