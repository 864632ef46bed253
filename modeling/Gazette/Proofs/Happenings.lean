import Gazette.Proofs.Membership
import Gazette.Proofs.Scaffolding
import Gazette.Proofs.UserCommand

/-!
# What happens to a disk

The program runs again and again on one disk, and the sites that it serves answer requests. A run
asks an opened database for few calls: to enrol a user whose id is new, to create a session, or to
purge sessions. A project may be written over a database, but brings none with it. So every
database stays sound, and keeps each of its users until the user is deleted by a request or the
whole database is replaced.
-/
namespace Gazette
open Store

namespace Files
open DiskAction

namespace Disk
variable {before after disk : Disk} {place : Location}

def hasDatabase (place : Location) (disk : Disk) : Bool :=
  match disk.node? place with
  | some (.file (.database _)) => true
  | _ => false

theorem hasDatabase_iff :
    disk.hasDatabase place = true ↔ ∃ db, disk.node? place = some (.file (.database db)) := by
  unfold hasDatabase
  split
  · next db hnode => exact iff_of_true rfl ⟨db, hnode⟩
  · next hnone => exact iff_of_false Bool.false_ne_true fun ⟨db, hnode⟩ => hnone db hnode

theorem storeAt_of_database {db : Database}
    (h : disk.node? place = some (.file (.database db))) : disk.storeAt place = db.store := by
  rw [storeAt, h]

def databases (disk : Disk) : List Database :=
  disk.entries.filterMap fun
    | (_, .file (.database db)) => some db
    | _ => none

/-- What holds of nothing and of every database of a disk holds at every place. -/
theorem forall_storeAt {P : Store → Prop} (hnothing : P {})
    (h : ∀ db ∈ disk.databases, P db.store) (place : Location) : P (disk.storeAt place) := by
  unfold storeAt
  split
  · next db hnode =>
      unfold node? at hnode
      split at hnode
      · cases hnode
      · obtain ⟨before, after, hentries, -⟩ := List.lookup_eq_some_iff.1 hnode
        refine h db (List.mem_filterMap.2 ⟨(place, .file (.database db)), ?_, rfl⟩)
        rw [hentries]
        simp
  · exact hnothing

/-- Every database of one disk is there on another disk already. -/
def BringsNone (before after : Disk) : Prop :=
  ∀ place db, after.node? place = some (.file (.database db)) →
    before.node? place = some (.file (.database db))

theorem bringsNone_refl (disk : Disk) : disk.BringsNone disk :=
  fun _ _ h => h

theorem BringsNone.trans {third : Disk} (h : before.BringsNone after)
    (hrest : after.BringsNone third) : before.BringsNone third :=
  fun place db hthird => h place db (hrest place db hthird)

theorem bringsNone_put {node : Node} (hroot : place ≠ [])
    (hnode : ∀ db, node ≠ .file (.database db)) : disk.BringsNone (disk.put place node) := by
  intro there db h
  rw [node?_put hroot] at h
  split at h
  · exact absurd (Option.some.inj h) (hnode db)
  · exact h

theorem storeAt_of_not_hasDatabase (h : disk.hasDatabase place = false) :
    disk.storeAt place = {} := by
  unfold storeAt
  split
  · next db hnode =>
      rw [hasDatabase_iff.2 ⟨db, hnode⟩] at h
      cases h
  · rfl

theorem BringsNone.storeAt (h : before.BringsNone after) (hkept : after.hasDatabase place = true) :
    after.storeAt place = before.storeAt place := by
  obtain ⟨db, hafter⟩ := hasDatabase_iff.1 hkept
  rw [storeAt_of_database hafter, storeAt_of_database (h place db hafter)]

end Disk

theorem createDirectories_bringsNone (path : Path) :
    Moves Disk.BringsNone (createDirectories path) := by
  refine createDirectories_moves Disk.bringsNone_refl (fun _ _ _ => Disk.BringsNone.trans) ?_ path
  intro path before after h
  obtain ⟨place, hroot, -, rfl⟩ := Disk.createDirectory_ok h
  exact Disk.bringsNone_put hroot fun _ => nofun

end Files

namespace Scaffold
open Files DiskAction

theorem putFile_bringsNone {content : Content} (path : Path)
    (hcontent : ∀ db, content ≠ .database db) :
    Moves Disk.BringsNone (putFile path content) := by
  refine Moves.bind (fun _ _ _ => Disk.BringsNone.trans) ?_ fun _ disk => ?_
  · unfold makeParent
    split
    · intro disk
      rw [outcome_adapt]
      exact createDirectories_bringsNone _ disk
    · exact Disk.bringsNone_refl
  · rw [outcome_change, Disk.write]
    cases htarget : disk.target path with
    | error e => exact Disk.bringsNone_refl disk
    | ok place =>
        refine Disk.bringsNone_put (Disk.ne_nil_of_target htarget) fun db h => ?_
        exact hcontent db (Node.file.inj h)

theorem putFiles_bringsNone (output : Path) (files : List ProjectFile) :
    Moves Disk.BringsNone (putFiles output files) := by
  induction files with
  | nil => exact Disk.bringsNone_refl
  | cons file files ih =>
      exact Moves.bind (fun _ _ _ => Disk.BringsNone.trans)
        (putFile_bringsNone _ fun _ => nofun) fun _ => ih

theorem writeFiles_bringsNone (files : List ProjectFile) (output : Path) (force : Bool) :
    Moves Disk.BringsNone (writeFiles files output force) := by
  have hput : Moves Disk.BringsNone (putFiles output files >>= fun _ =>
      pure (files.map fun file => output.join file.path)) :=
    Moves.bind (fun _ _ _ => Disk.BringsNone.trans) (putFiles_bringsNone output files)
      fun _ => Disk.bringsNone_refl
  intro disk
  cases force with
  | true =>
      unfold writeFiles
      simp only [putFiles_eq]
      exact hput disk
  | false =>
      rcases writeFiles_cases files output disk with ⟨e, he⟩ | ⟨-, hwrite⟩
      · rw [he]
        exact Disk.bringsNone_refl disk
      · rw [hwrite]
        exact hput disk

theorem writeArchive_bringsNone (files : List ProjectFile) (archive : Path) (force : Bool) :
    Moves Disk.BringsNone (writeArchive files archive force) := by
  intro disk
  rw [writeArchive_outcome]
  split
  · exact Disk.bringsNone_refl disk
  · have hput : Moves Disk.BringsNone (putFile archive (.archive (packEntries [] files).1)) :=
      putFile_bringsNone archive fun _ => nofun
    refine Moves.bind (R := Disk.BringsNone) (fun _ _ _ => .trans) hput (fun _ => ?_) disk
    split <;> exact Disk.bringsNone_refl

end Scaffold

namespace Program
open Files DiskAction StoreProcedure

section
variable {around : Surroundings} {path : Path}

theorem scaffold_bringsNone [Libraries] (args : CommandLine.ProjectArgs) (config : Configuration) :
    Moves Disk.BringsNone (scaffold args config) := by
  intro disk
  rcases scaffold_cases args config disk with ⟨result, hsame⟩ | ⟨-, templates, files, -, -, hwrite⟩
  · rw [hsame]
    exact Disk.bringsNone_refl disk
  · rw [hwrite]
    split
    · rw [adapt_then_disk]
      exact Scaffold.writeArchive_bringsNone _ _ _ disk
    · rw [adapt_then_disk]
      exact Scaffold.writeFiles_bringsNone _ _ _ disk

theorem checkScaffold_disk (params : CommandLine.ProjectParams) (config : Configuration)
    (disk : Disk) : ((checkScaffold params config).outcome disk).2 = disk := by
  obtain ⟨hsame, -⟩ :=
    Scaffold.TemplateSet.load_outcome (params.templates <|> config.templatesDir) disk
  unfold checkScaffold loadTemplates
  rw [DiskAction.outcome_bind, DiskAction.outcome_adapt]
  generalize (Scaffold.TemplateSet.load (params.templates <|> config.templatesDir)).outcome disk =
    result at hsame
  obtain ⟨e | templates, same⟩ := result
  · exact hsame
  · obtain rfl : same = disk := hsame
    dsimp only [Except.mapError]
    split <;> rfl

/-- The calls that a run may make to the database that it opens. -/
def MayCall (around : Surroundings) : Call → Prop
  | .submit (.user user _) => user.id = around.freshId
  | .direct (.createSession _ _ _ _ _) | .direct (.purgeSessions _) => True
  | _ => False

/-- An action leaves an opened database as some calls of a run do. -/
def CallsOnly [Libraries] (around : Surroundings) (path : Path) (p : Database → Action Outcome) :
    Prop :=
  ∀ db place? disk, Stands path db place? disk →
    ∃ calls : List Call, (∀ call ∈ calls, MayCall around call) ∧
      Becomes place? (Call.run calls db.store) disk ((p db).outcome disk).2

theorem run_createSession [Libraries] (id token userId : String) (hours : Nat) (now : Timestamp)
    (s : Store) :
    Call.run [.direct (.createSession id token userId hours now)] s =
      (s.createSession id token userId hours now).toOption.getD s := rfl

theorem printToken_callsOnly [Libraries] (config : Configuration) (userId : String) :
    CallsOnly around path (printToken config path around userId) := by
  intro db place? disk h
  obtain ⟨after, hprint, hbecomes⟩ := printToken_outcome around config userId h
  refine ⟨[.direct (.createSession around.freshSessionId around.freshToken userId
    config.sessionHours around.now)], by simp [MayCall], ?_⟩
  rw [hprint, run_createSession]
  cases hcreate : db.store.createSession around.freshSessionId around.freshToken userId
      config.sessionHours around.now with
  | ok t =>
      rw [hcreate] at hbecomes
      exact hbecomes
  | error e =>
      rw [hcreate] at hbecomes
      exact hbecomes

theorem run_submitted [Libraries] (user : User) (now : Timestamp) (calls : List Call) (s : Store) :
    Call.run (.submit (.user user now) :: calls) s =
      Call.run calls ((Editor.saveUser user now).outcome s).2 := by
  rw [Call.run_cons, Call.after, Submission.after, Submission.outcome, Submission.outcome.unnamed]

def newcomer (username email : String) (admin : Bool) (around : Surroundings) : User where
  id := around.freshId
  username := username
  email := email
  bio := ""
  isAdmin := admin
  dateJoined := around.now
  updatedAt := around.now

theorem enrolIn_callsOnly [Libraries] (config : Configuration) (username email : String)
    (admin : Bool) :
    CallsOnly around path
      (enrolIn config path around (newcomer username email admin around)) := by
  intro db place? disk h
  generalize hid : newcomer username email admin around = user
  replace hid : user.id = around.freshId := hid ▸ rfl
  obtain ⟨stored, honDatabase, hstands, hstored⟩ :=
    h.onDatabase (.userRefused user.username) (Editor.saveUser user around.now)
  rw [enrolIn, DiskAction.outcome_bind, honDatabase]
  cases hsave : ((Editor.saveUser user around.now).outcome db.store).1 with
  | error e =>
      dsimp only
      refine ⟨[.submit (.user user around.now)], ?_, ?_⟩
      · exact List.forall_mem_singleton.2 hid
      · rw [run_submitted, Call.run_nil]
        exact hstored
  | ok saved =>
      dsimp only
      obtain ⟨calls, hcalls, hbecomes⟩ :=
        printToken_callsOnly config saved.id _ place? stored hstands
      dsimp only at hbecomes
      refine ⟨.submit (.user user around.now) :: calls, ?_, ?_⟩
      · exact List.forall_mem_cons.2 ⟨hid, hcalls⟩
      · rw [run_submitted]
        exact hstored.trans hbecomes

theorem addUser_eq (username email : String) (admin : Bool) (dataDir path : Path)
    (config : Configuration) :
    addUser username email admin dataDir config path around = openDatabase dataDir path >>=
      enrolIn config path around (newcomer username email admin around) := by
  unfold addUser enrolIn newcomer
  rfl

/-- What makes such calls once a database is open makes them to the store that is in the file. -/
theorem CallsOnly.after_open [Libraries] {p : Database → Action Outcome}
    (h : CallsOnly around path p) (dataDir : Path) (disk : Disk) (place : Location) :
    ∃ calls : List Call, (∀ call ∈ calls, MayCall around call) ∧
      (DiskAction.outcome (openDatabase dataDir path >>= p) disk).2.storeAt place =
        Call.run calls (disk.storeAt place) := by
  have hopen := openDatabase_cases dataDir path disk
  rw [DiskAction.outcome_bind]
  generalize (openDatabase dataDir path).outcome disk = opened at hopen
  obtain ⟨e | db, ready⟩ := opened
  · exact ⟨[], by simp, hopen.1 place⟩
  · obtain ⟨hkeeps, hstands⟩ := hopen
    obtain ⟨place?, hstands, hstore⟩ := hstands db rfl
    obtain ⟨calls, hcalls, hbecomes⟩ := h db place? ready hstands
    by_cases heq : place? = some place
    · subst heq
      refine ⟨calls, hcalls, ?_⟩
      dsimp only
      rw [hbecomes place, if_pos rfl, hstore]
      rfl
    · refine ⟨[], by simp, ?_⟩
      dsimp only
      rw [hbecomes place, if_neg heq]
      exact hkeeps place

def serveIn (config : Configuration) (path : Path) (around : Surroundings) (db : Database) :
    Action Outcome := do
  keepDatabase path { db with store := (db.store.purgeSessions around.now).2 }
  match Http.SocketAddress.read? (config.host ++ ":" ++ toString config.port) with
  | some address =>
    return if config.site.origins.contains "*" then .broken else .serving address config.site
  | none => throw .malformedAddress

theorem serveIn_callsOnly [Libraries] (config : Configuration) :
    CallsOnly around path (serveIn config path around) := by
  intro db place? disk h
  obtain ⟨after, hkeep, -, hbecomes⟩ :=
    h.keepDatabase { db with store := (db.store.purgeSessions around.now).2 }
  refine ⟨[.direct (.purgeSessions around.now)], by simp [MayCall], ?_⟩
  rw [serveIn, DiskAction.outcome_bind, hkeep]
  dsimp only
  split <;> exact hbecomes

theorem serve_eq (dataDir path : Path) (config : Configuration) :
    serve dataDir config path around =
      openDatabase dataDir path >>= serveIn config path around := by
  unfold serve serveIn
  rfl

def issueIn (username : String) (config : Configuration) (path : Path) (around : Surroundings)
    (db : Database) : Action Outcome :=
  match db.store.findUserNamed? username with
  | some user => printToken config path around user.id db
  | none => throw (.unknownUser username)

theorem issueToken_eq (username : String) (dataDir path : Path) (config : Configuration) :
    issueToken username dataDir config path around =
      openDatabase dataDir path >>= issueIn username config path around := by
  unfold issueToken issueIn
  rfl

theorem issueIn_callsOnly [Libraries] (username : String) (config : Configuration) :
    CallsOnly around path (issueIn username config path around) := by
  intro db place? disk h
  unfold issueIn
  split
  · exact printToken_callsOnly config _ db place? disk h
  · refine ⟨[], by simp, fun place => ?_⟩
    rw [Call.run_nil]
    split
    · next heq => exact (h.store_eq heq).symm
    · rfl

/-- A command changes a database as some calls do, or writes something else in its place. -/
theorem perform_cases [Libraries] (invocation : CommandLine.Invocation) (around : Surroundings)
    (disk : Disk) (place : Location) :
    (∃ calls : List Call, (∀ call ∈ calls, MayCall around call) ∧
      ((perform invocation around).outcome disk).2.storeAt place =
        Call.run calls (disk.storeAt place)) ∨
    disk.BringsNone ((perform invocation around).outcome disk).2 := by
  unfold perform
  rw [DiskAction.outcome_bind, outcome_look]
  cases Configuration.load (invocation.dataDirIn around.home) invocation disk with
  | error e => exact .inr (Disk.bringsNone_refl disk)
  | ok config =>
      dsimp only [Except.mapError]
      cases invocation.command with
      | serve =>
          dsimp only
          rw [serve_eq]
          exact .inl ((serveIn_callsOnly config).after_open _ disk place)
      | scaffold args => exact .inr (scaffold_bringsNone args config disk)
      | scaffoldCheck params =>
          refine .inr ?_
          dsimp only
          rw [checkScaffold_disk]
          exact Disk.bringsNone_refl disk
      | addUser username email admin =>
          dsimp only
          rw [addUser_eq]
          exact .inl ((enrolIn_callsOnly config username email admin).after_open _ disk place)
      | issueToken username =>
          dsimp only
          rw [issueToken_eq]
          exact .inl ((issueIn_callsOnly username config).after_open _ disk place)

/-- A run changes a database as some calls do, or writes something else in its place. -/
theorem run_cases [Libraries] (around : Surroundings) (words : List String) (disk : Disk)
    (place : Location) :
    (∃ calls : List Call, (∀ call ∈ calls, MayCall around call) ∧
      ((run around words).run disk).2.storeAt place = Call.run calls (disk.storeAt place)) ∨
    disk.BringsNone ((run around words).run disk).2 := by
  cases hread : CommandLine.read words with
  | error e =>
      have hsame : ((run around words).run disk).2 = disk := by
        rw [run, hread]
        rfl
      rw [hsame]
      exact .inr (Disk.bringsNone_refl disk)
  | ok invocation =>
      rw [run_of_read hread]
      exact perform_cases invocation around disk place

end

theorem fresh_of_databases {around : Surroundings} {disk : Disk}
    (h : ∀ db ∈ disk.databases, db.store.users.has around.freshId = false ∧
      ∀ session ∈ db.store.sessions,
        session.id ≠ around.freshSessionId ∧ session.token ≠ around.freshToken) :
    Fresh around disk where
  id := Disk.forall_storeAt (P := fun s => s.users.has around.freshId = false) rfl
    fun db hdb => (h db hdb).1
  session := Disk.forall_storeAt (P := fun s => ∀ session ∈ s.sessions,
    session.id ≠ around.freshSessionId ∧ session.token ≠ around.freshToken) nofun
    fun db hdb => (h db hdb).2

/-- The program runs, or a request comes to a site whose database is at some place. -/
inductive Happening
  | run (around : Surroundings) (words : List String)
  | request (place : Location) (x : Api.Exchange)

namespace Happening
variable {happening : Happening}

def after [Libraries] (happening : Happening) (disk : Disk) : Disk :=
  match happening with
  | run around words => ((Program.run around words).run disk).2
  | request place x =>
    match disk.node? place with
    | some (.file (.database db)) =>
      disk.put place (.file (.database { db with store := x.after db.store }))
    | _ => disk

/-- The ids and tokens that come with it are in no database of the disk. -/
def IsFresh (happening : Happening) (disk : Disk) : Prop :=
  match happening with
  | run around _ => Fresh around disk
  | request place x => (disk.storeAt place).Unused x.freshId

/-- Whether a user of a database is deleted, be it together with the database. -/
def Deletes [Libraries] (happening : Happening) (place : Location) (id : String) (disk : Disk) :
    Prop :=
  match happening with
  | run _ _ => (happening.after disk).hasDatabase place = false
  | request there x =>
    there = place ∧ x.Deletes (disk.storeAt place) (.user id) ∧ x.Succeeds (disk.storeAt place)

theorem storeAt_request [Libraries] (there : Location) (x : Api.Exchange) (disk : Disk)
    (place : Location) :
    ((request there x).after disk).storeAt place =
      if place = there ∧ disk.hasDatabase place = true then x.after (disk.storeAt place)
      else disk.storeAt place := by
  unfold after
  dsimp only
  split
  · next db hnode =>
      have hroot : there ≠ [] := by
        rintro rfl
        cases hnode
      rw [Disk.storeAt_put hroot]
      by_cases heq : place = there
      · subst heq
        rw [if_pos rfl, if_pos ⟨rfl, Disk.hasDatabase_iff.2 ⟨db, hnode⟩⟩,
          Disk.storeAt_of_database hnode]
      · rw [if_neg heq, if_neg fun h => heq h.1]
  · next hnone =>
      rw [if_neg]
      rintro ⟨rfl, hdatabase⟩
      obtain ⟨db, hnode⟩ := Disk.hasDatabase_iff.1 hdatabase
      exact hnone db hnode

/-- The calls that may be made to the database at a place. -/
def MayCall (happening : Happening) (call : Call) : Prop :=
  match happening with
  | run around _ => Program.MayCall around call
  | request _ x => call = .request x

/-- What happens to one database is that some calls are made to it, or that it stays as it is or
gives way to something else. -/
theorem after_cases [Libraries] (happening : Happening) (disk : Disk) (place : Location) :
    (∃ calls : List Call, (∀ call ∈ calls, happening.MayCall call) ∧
      (happening.after disk).storeAt place = Call.run calls (disk.storeAt place)) ∨
    disk.BringsNone (happening.after disk) := by
  cases happening with
  | run around words => exact run_cases around words disk place
  | request there x =>
      left
      rw [storeAt_request]
      split
      · exact ⟨[.request x], by simp [MayCall], rfl⟩
      · exact ⟨[], by simp, rfl⟩

theorem MayCall.ne_saveUser {call : Call} (h : happening.MayCall call) (user : User) :
    call ≠ .direct (.saveUser user) := by
  rintro rfl
  cases happening with
  | run => exact h
  | request => cases h

end Happening

end Program

namespace Files.Disk
open Program
variable {disk : Disk}

/-- Every database is sound, and has its users under names without white space around them. -/
def Orderly (disk : Disk) : Prop :=
  ∀ place, (disk.storeAt place).Sound ∧ (disk.storeAt place).NamesTrimmed

theorem Orderly.after [Libraries] (h : disk.Orderly) (happening : Happening) :
    (happening.after disk).Orderly := by
  intro place
  obtain ⟨hs, hnames⟩ := h place
  rcases happening.after_cases disk place with ⟨calls, hcalls, hafter⟩ | hnone
  · rw [hafter]
    refine ⟨Call.run_keeps_sound calls hs, ?_⟩
    refine Call.run_keeps_users (fun user hmem => ?_) hs (fun given _ _ _ => ?_) hnames
    · exact (hcalls _ hmem).ne_saveUser user rfl
    · exact Text.trim_trim given.username
  · cases hkept : (happening.after disk).hasDatabase place with
    | true =>
        rw [hnone.storeAt hkept]
        exact ⟨hs, hnames⟩
    | false =>
        rw [storeAt_of_not_hasDatabase hkept]
        exact ⟨Store.sound_empty, nofun⟩

end Files.Disk

namespace Program
open Files

variable {around : Surroundings} {words : List String} {disk before after : Disk}
  {place : Location} {user : User}

/-- A disk that the program and its sites lead to, from one on which no database holds anything. -/
inductive Reached [Libraries] : Disk → Prop
  | start {disk : Disk} : (∀ place, disk.storeAt place = {}) → Reached disk
  | step {disk : Disk} (happening : Happening) : Reached disk → Reached (happening.after disk)

section
variable [Libraries]

theorem reached_empty : Reached {} :=
  .start (Disk.forall_storeAt (P := fun s => s = {}) rfl nofun)

theorem Reached.orderly (h : Reached disk) : disk.Orderly := by
  induction h with
  | start hnothing =>
      intro place
      rw [hnothing]
      exact ⟨Store.sound_empty, nofun⟩
  | step happening _ ih => exact ih.after happening

theorem MayCall.retains {s : Store} {call : Call} (h : MayCall around call) (hs : s.Sound)
    (hid : around.freshId ≠ user.id) (hretains : s.Retains user) :
    (call.after s).Retains user := by
  refine (call.after_keeps_of_sound ?_ hs hretains :)
  intro change t u hmakes happly ht hkept
  cases call with
  | direct c =>
      obtain rfl := hmakes
      refine hkept.of_eq (Change.SparesUsers.users_eq ?_ happly ht)
      cases change with
      | createSession | purgeSessions => trivial
      | _ => exact h.elim
  | submit submission =>
      cases submission with
      | user given now =>
          replace hmakes : given.trimmed.validate.map (fun _ =>
            Change.saveUser { given.trimmed with updatedAt := now }) = .ok change := hmakes
          obtain ⟨_, -, rfl⟩ := Change.of_map_ok hmakes
          -- A run saves users under new ids only, so that none replaces the one in question.
          refine hkept.saveUser happly fun heq => absurd ?_ hid
          exact (Eq.symm h).trans heq
      | _ => exact h.elim
  | request x => exact h.elim

theorem run_retains (hs : (disk.storeAt place).Sound)
    (hid : (disk.storeAt place).users.has around.freshId = false)
    (hretains : (disk.storeAt place).Retains user)
    (hkept : (((run around words).run disk).2).hasDatabase place = true) :
    (((run around words).run disk).2.storeAt place).Retains user := by
  rcases run_cases around words disk place with ⟨calls, hcalls, hafter⟩ | hnone
  · rw [hafter]
    have hne : around.freshId ≠ user.id := by
      rintro heq
      obtain ⟨row, hrow, -⟩ := hretains
      exact Table.row?_ne_some (heq ▸ hid) hrow
    refine (Call.run_keeps (I := fun s => s.Sound ∧ s.Retains user) ?_ ⟨hs, hretains⟩).2
    intro call hcall s ⟨hsound, hkeeps⟩
    exact ⟨call.after_keeps_sound s hsound, (hcalls call hcall).retains hsound hne hkeeps⟩
  · rw [hnone.storeAt hkept]
    exact hretains

/-- A disk that another one leads to, while a user of one database is not deleted. -/
inductive Later (place : Location) (id : String) (disk : Disk) : Disk → Prop
  | refl : Later place id disk disk
  | step {after : Disk} (happening : Happening) : Later place id disk after →
      happening.IsFresh after → ¬ happening.Deletes place id after →
      Later place id disk (happening.after after)

theorem Happening.retains (happening : Happening) (horderly : disk.Orderly)
    (hfresh : happening.IsFresh disk) (hkept : ¬ happening.Deletes place user.id disk)
    (hretains : (disk.storeAt place).Retains user) :
    ((happening.after disk).storeAt place).Retains user := by
  obtain ⟨hs, hnames⟩ := horderly place
  cases happening with
  | run around words =>
      exact run_retains hs (hfresh.id place) hretains (Bool.not_eq_false _ ▸ hkept)
  | request there x =>
      rw [storeAt_request]
      split
      · next heq =>
          obtain ⟨rfl, -⟩ := heq
          exact Api.Exchange.after_retains hs hnames hfresh hretains fun h => hkept ⟨rfl, h⟩
      · exact hretains

theorem Later.retains (h : Later place user.id before after) (horderly : before.Orderly)
    (hretains : (before.storeAt place).Retains user) :
    after.Orderly ∧ (after.storeAt place).Retains user := by
  induction h with
  | refl => exact ⟨horderly, hretains⟩
  | step happening _ hfresh hkept ih =>
      obtain ⟨hnext, hstill⟩ := ih
      exact ⟨hnext.after happening, happening.retains hnext hfresh hkept hstill⟩

end

end Program
end Gazette
