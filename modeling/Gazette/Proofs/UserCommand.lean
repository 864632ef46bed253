import Gazette.Proofs.Program
import Gazette.Proofs.Registration

/-!
# Registration by command

A user who is added by command is stored in the database that the command opens, and the session
whose token is printed after that. The two steps are those of a registration by request, and so is
the way in which they can part.
-/
namespace Gazette
open Store

namespace Program
open Files DiskAction StoreProcedure

variable {around : Surroundings} {path : Path} {db : Database} {place? : Option Location}
  {disk after : Disk}

/-- Ids and a token that no database of a disk has. -/
structure Fresh (around : Surroundings) (disk : Disk) : Prop where
  id : ∀ place, (disk.storeAt place).users.has around.freshId = false
  session : ∀ place, ∀ session ∈ (disk.storeAt place).sessions,
    session.id ≠ around.freshSessionId ∧ session.token ≠ around.freshToken

def Reports (token : String) (answered : Option User) (r : Except Failure Outcome) : Prop :=
  match answered with
  | some _ => r = .ok (.printed [token])
  | none => ∃ e, r = .error e

theorem printToken_outcome (around : Surroundings) (config : Configuration) (userId : String)
    (h : Stands path db place? disk) :
    ∃ after, (printToken config path around userId db).outcome disk =
        (match db.store.createSession around.freshSessionId around.freshToken userId
            config.sessionHours around.now with
          | .ok _ => .ok (.printed [around.freshToken])
          | .error e => .error (.store e), after) ∧
      Becomes place? (match db.store.createSession around.freshSessionId around.freshToken userId
          config.sessionHours around.now with
        | .ok t => t
        | .error _ => db.store) disk after := by
  obtain ⟨after, honDatabase, -, hbecomes⟩ := h.onDatabase .store <|
    StoreProcedure.write id <|
      Store.createSession around.freshSessionId around.freshToken userId config.sessionHours
        around.now
  refine ⟨after, ?_, ?_⟩
  · rw [printToken, DiskAction.outcome_bind, honDatabase, outcome_write]
    cases db.store.createSession around.freshSessionId around.freshToken userId config.sessionHours
      around.now <;> rfl
  · rw [outcome_write] at hbecomes
    cases hcreate : db.store.createSession around.freshSessionId around.freshToken userId
      config.sessionHours around.now with
    | ok t => simpa [hcreate] using hbecomes
    | error e => simpa [hcreate] using hbecomes

def enrolIn (config : Configuration) (path : Path) (around : Surroundings) (user : User)
    (db : Database) : Action Outcome := do
  let (saved, db) ← onDatabase path db (.userRefused user.username)
    (Editor.saveUser user around.now)
  printToken config path around saved.id db

theorem enrolIn_registers (config : Configuration) (user : User) (h : Stands path db place? disk)
    (hfresh : db.store.users.has user.id = false)
    (hnew : ∀ session ∈ db.store.sessions,
      session.id ≠ around.freshSessionId ∧ session.token ≠ around.freshToken) :
    ∃ answered t, db.store.Registers around.freshSessionId around.freshToken
        (expiry around.now config.sessionHours) answered t ∧
      Becomes place? t disk ((enrolIn config path around user db).outcome disk).2 ∧
      Reports around.freshToken answered ((enrolIn config path around user db).outcome disk).1 := by
  obtain ⟨stored, honDatabase, hstands, hstored⟩ :=
    h.onDatabase (.userRefused user.username) (Editor.saveUser user around.now)
  rw [enrolIn, DiskAction.outcome_bind, honDatabase]
  cases hsave : (Editor.saveUser user around.now).outcome db.store with
  | mk r u =>
      rw [hsave] at hstands hstored
      cases r with
      | error e =>
          obtain rfl := Editor.saveUser_atomic _ _ db.store e u hsave
          exact ⟨none, db.store, .refused, hstored, _, rfl⟩
      | ok saved =>
          obtain ⟨hadded, hu⟩ := saveUser_new hfresh hsave
          obtain ⟨last, hprint, hlast⟩ := printToken_outcome around config saved.id hstands
          dsimp only
          rw [hprint]
          rcases registers_of_saved config.sessionHours around.now hnew hadded hu with
            ⟨t, hcreate, hcourse⟩ | ⟨hcreate, hcourse⟩
          · rw [hcreate] at hlast
            exact ⟨some saved, t, hcourse, hstored.trans hlast, by rw [hcreate]; rfl⟩
          · rw [hcreate] at hlast
            exact ⟨none, u, hcourse, hstored.trans hlast, _, by rw [hcreate]⟩

/-- A registration by command either fails before it has come to any database, or takes one of the
courses in the database that was opened. -/
theorem addUser_registers (username email : String) (admin : Bool) (dataDir path : Path)
    (config : Configuration) (hfresh : Fresh around disk) :
    let outcome := (addUser username email admin dataDir config path around).outcome disk
    (disk.KeepsStores outcome.2 ∧ ∃ e, outcome.1 = .error e) ∨
      ∃ place? answered t, (place? = none → isPassing path = true) ∧
        (storeIn place? disk).Registers around.freshSessionId around.freshToken
          (expiry around.now config.sessionHours) answered t ∧
        Becomes place? t disk outcome.2 ∧ Reports around.freshToken answered outcome.1 := by
  intro outcome
  have hopen := openDatabase_cases dataDir path disk
  let user : User :=
    { id := around.freshId, username := username, email := email, bio := "", isAdmin := admin
      dateJoined := around.now, updatedAt := around.now }
  have houtcome : outcome = DiskAction.outcome
      (openDatabase dataDir path >>= enrolIn config path around user) disk := rfl
  rw [DiskAction.outcome_bind] at houtcome
  generalize (openDatabase dataDir path).outcome disk = opened at hopen houtcome
  obtain ⟨e | db, ready⟩ := opened
  · rw [houtcome]
    exact .inl ⟨hopen.1, e, rfl⟩
  · obtain ⟨hkeeps, hstands⟩ := hopen
    obtain ⟨place?, hstands, hstore⟩ := hstands db rfl
    have hid : db.store.users.has around.freshId = false := by
      rw [hstore]
      cases place? with
      | none => rfl
      | some place => exact hfresh.id place
    have hnew : ∀ session ∈ db.store.sessions,
        session.id ≠ around.freshSessionId ∧ session.token ≠ around.freshToken := by
      rw [hstore]
      cases place? with
      | none => exact nofun
      | some place => exact hfresh.session place
    obtain ⟨answered, t, hcourse, hbecomes, hreports⟩ :=
      enrolIn_registers config user hstands hid hnew
    rw [houtcome]
    refine .inr ⟨place?, answered, t, ?_, hstore ▸ hcourse, hbecomes.after_keepsStores hkeeps,
      hreports⟩
    rintro rfl
    exact hstands

/-- A run that prints the token of a session, which a new user has from then on in the database that
was opened, or that fails and leaves the users and sessions of every database as they were. Only a
database that lasts as long as the run stands nowhere afterwards. -/
def RegistersWhole [Libraries] (around : Surroundings) (words : List String) (disk : Disk) : Prop :=
  (((run around words).run disk).1 = .exit 0 (around.freshToken ++ "\n") "" ∧
    ∃ place? user t, (storeIn place? disk).Enrolled around.freshToken user t ∧
      Becomes place? t disk ((run around words).run disk).2 ∧
      (place? = none → ∃ config ∈ configuration? around words disk,
        config.databasePath.any isPassing = true)) ∨
  (∃ output errors, ((run around words).run disk).1 = .exit 1 output errors) ∧
    ∀ place, (disk.storeAt place).SameMembers (((run around words).run disk).2.storeAt place)

/-- What holds of the one database that changed and of every one that did not, holds of all. -/
theorem Becomes.forall_iff {P : Store → Store → Prop} (hrefl : ∀ s, P s s) {t : Store}
    (h : Becomes place? t disk after) :
    (∀ place, P (disk.storeAt place) (after.storeAt place)) ↔
      ∀ place, place? = some place → P (disk.storeAt place) t := by
  refine forall_congr' fun place => ?_
  rw [h place]
  split
  · next heq => simp [heq]
  · next hne => simp [hne, hrefl]

def Ends (token : String) (answered : Option User) (ending : Ending) : Prop :=
  match answered with
  | some _ => ending = .exit 0 (token ++ "\n") ""
  | none => ∃ output errors, ending = .exit 1 output errors

theorem Reports.ends {token : String} {answered : Option User} {r : Except Failure Outcome}
    (h : Reports token answered r) : Ends token answered (Ending.ofResult r) := by
  cases answered with
  | some user =>
      obtain rfl : r = .ok (.printed [token]) := h
      simp [Ends, Ending.ofResult, linesText, String.join]
  | none =>
      obtain ⟨e, rfl⟩ : ∃ e, r = .error e := h
      exact ⟨_, _, rfl⟩

section
variable {words : List String} {invocation : CommandLine.Invocation} {username email : String}
  {admin : Bool}

theorem perform_addUser [Libraries] (hcommand : invocation.command = .addUser username email admin)
    (disk : Disk) :
    (perform invocation around).outcome disk =
      match Configuration.load (invocation.dataDirIn around.home) invocation disk with
      | .ok config => (addUser username email admin (invocation.dataDirIn around.home) config
          (config.databaseIn (invocation.dataDirIn around.home)) around).outcome disk
      | .error e => (.error (.configuration e), disk) := by
  rw [perform, DiskAction.outcome_bind, outcome_look]
  cases Configuration.load (invocation.dataDirIn around.home) invocation disk with
  | error e => rfl
  | ok config => simp only [mapError_ok, hcommand]

theorem run_registers [Libraries] (hread : CommandLine.read words = .ok invocation)
    (hcommand : invocation.command = .addUser username email admin) (hfresh : Fresh around disk) :
    let run := (run around words).run disk
    (disk.KeepsStores run.2 ∧ Ends around.freshToken none run.1) ∨
      ∃ config place? answered t, configuration? around words disk = some config ∧
        (place? = none → config.databasePath.any isPassing = true) ∧
        (storeIn place? disk).Registers around.freshSessionId around.freshToken
          (expiry around.now config.sessionHours) answered t ∧
        Becomes place? t disk run.2 ∧ Ends around.freshToken answered run.1 := by
  intro run
  have hrun : run = _ := run_of_read hread disk
  have hconfiguration : configuration? around words disk =
      (Configuration.load (invocation.dataDirIn around.home) invocation disk).toOption := by
    rw [configuration?, hread]
    rfl
  rw [perform_addUser hcommand] at hrun
  cases hload : Configuration.load (invocation.dataDirIn around.home) invocation disk with
  | error e =>
      rw [hrun, hload]
      exact .inl ⟨Disk.keepsStores_refl disk, _, _, rfl⟩
  | ok config =>
      rw [hload] at hrun hconfiguration
      rcases addUser_registers username email admin (invocation.dataDirIn around.home)
        (config.databaseIn (invocation.dataDirIn around.home)) config hfresh with
        ⟨hkeeps, e, he⟩ | ⟨place?, answered, t, hpassing, hcourse, hbecomes, hreports⟩
      · rw [hrun]
        dsimp only
        rw [he]
        exact .inl ⟨hkeeps, _, _, rfl⟩
      · rw [hrun]
        refine .inr ⟨config, place?, answered, t, hconfiguration, ?_, hcourse, hbecomes,
          hreports.ends⟩
        intro hnone
        rw [databasePath_of_load hload]
        exact hpassing hnone

theorem registersWhole_iff [Libraries] (hread : CommandLine.read words = .ok invocation)
    (hcommand : invocation.command = .addUser username email admin) (hfresh : Fresh around disk) :
    RegistersWhole around words disk ↔
      (∀ config ∈ configuration? around words disk,
        expiry around.now config.sessionHours ≤ lastSecond) ∨
      ∀ place, (((run around words).run disk).2.storeAt place).users =
        (disk.storeAt place).users := by
  rcases run_registers hread hcommand hfresh with
    ⟨hkeeps, hends⟩ | ⟨config, place?, answered, t, hconfig, hpassing, hcourse, hbecomes, hends⟩
  · have hsame : ∀ place, (disk.storeAt place).SameMembers
        (((run around words).run disk).2.storeAt place) := by
      intro place
      rw [hkeeps place]
      exact ⟨rfl, rfl⟩
    exact iff_of_true (.inr ⟨hends, hsame⟩) (.inr fun place => (hsame place).users)
  · have hexpiry : (∀ config ∈ configuration? around words disk,
        expiry around.now config.sessionHours ≤ lastSecond) ↔
          expiry around.now config.sessionHours ≤ lastSecond := by simp [hconfig]
    rw [hexpiry]
    cases answered with
    | some user =>
        have henrolled := hcourse.enrolled_of_some
        have hfits : expiry around.now config.sessionHours ≤ lastSecond := by
          cases hcourse
          assumption
        refine iff_of_true (.inl ⟨hends, place?, user, t, henrolled, hbecomes, ?_⟩) (.inl hfits)
        exact fun hnone => ⟨config, hconfig, hpassing hnone⟩
    | none =>
        obtain ⟨output, errors, hexit⟩ := hends
        have hwhole : RegistersWhole around words disk ↔ ∀ place, (disk.storeAt place).SameMembers
            (((run around words).run disk).2.storeAt place) := by
          refine ⟨?_, fun hsame => .inr ⟨⟨output, errors, hexit⟩, hsame⟩⟩
          rintro (⟨hprinted, -⟩ | ⟨-, hsame⟩)
          · rw [hexit] at hprinted
            cases hprinted
          · exact hsame
        rw [hwhole, hbecomes.forall_iff fun _ => ⟨rfl, rfl⟩,
          hbecomes.forall_iff (P := fun s t => t.users = s.users) fun _ => rfl]
        cases place? with
        | none => simp
        | some place => simpa [storeIn, Whole] using hcourse.whole_iff

end

end Program

/-- A registration, by request or by command, is all or nothing iff the session that comes with it
can be stored or the user was not stored either. Whatever else makes it fail leaves no user behind,
but a session that would last beyond the years that can be stored does. -/
theorem registration_is_whole_iff [Libraries] (x : Api.Exchange) (s : Store)
    (around : Program.Surroundings) (words : List String) (disk : Files.Disk) :
    (x.request.method = .post → x.request.path = "/api/users" →
      s.users.has x.freshId = false →
        (∀ session ∈ s.sessions, session.id ≠ x.freshSessionId ∧ session.token ≠ x.freshToken) →
      (x.RegistersWhole s ↔
        expiry x.now x.site.sessionHours ≤ lastSecond ∨ (x.after s).users = s.users)) ∧
    ∀ (invocation : CommandLine.Invocation) (username email : String) (admin : Bool),
      CommandLine.read words = .ok invocation →
      invocation.command = .addUser username email admin → Program.Fresh around disk →
      (Program.RegistersWhole around words disk ↔
        (∀ config ∈ Program.configuration? around words disk,
          expiry around.now config.sessionHours ≤ lastSecond) ∨
        ∀ place, (((Program.run around words).run disk).2.storeAt place).users =
          (disk.storeAt place).users) :=
  ⟨fun hmethod hpath hfresh htoken =>
      Api.Exchange.registersWhole_iff hmethod hpath hfresh htoken,
    fun _ _ _ _ hread hcommand hfresh =>
      Program.registersWhole_iff hread hcommand hfresh⟩

attribute [local instance] Libraries.bare

namespace Sample

def registration (hours : Nat) (freshId : String) : Api.Exchange where
  site := ⟨"session", hours, []⟩
  request := {
    method := .post
    path := "/api/users"
    headers := [("content-type", "application/json")]
    body := "\x7b\"username\":\"bob\",\"email\":\"bob@example.com\"\x7d" }
  now := .ofSeconds 0
  freshId := freshId
  freshSessionId := "fresh session"
  freshToken := "fresh"

def shell : Program.Surroundings where
  home := ⟨"/home"⟩
  now := .ofSeconds 0
  freshId := "u2"
  freshSessionId := "fresh session"
  freshToken := "fresh"

def addBob : List String :=
  ["user", "add", "--username", "bob", "--email", "bob@example.com"]

theorem fresh_shell : Program.Fresh shell {} := by
  have hempty : ∀ place, ({} : Files.Disk).storeAt place = {} := by
    intro place
    unfold Files.Disk.storeAt Files.Disk.node?
    by_cases h : place = [] <;> simp [h]
  constructor
  · intro place
    rw [hempty]
    rfl
  · intro place
    rw [hempty]
    simp

end Sample

/-- Sessions of a month are no obstacle, neither to a request nor to a command. -/
theorem registration_is_whole_of_month :
    ((Sample.registration 720 "u2").answer.run {}).1.status = 201 ∧
      (Sample.registration 720 "u2").RegistersWhole {} ∧
      Program.RegistersWhole Sample.shell Sample.addBob {} := by
  obtain ⟨hrequest, hcommand⟩ :=
    registration_is_whole_iff (Sample.registration 720 "u2") {} Sample.shell Sample.addBob {}
  refine ⟨by decide +kernel, (hrequest rfl rfl rfl (by simp)).2 (.inl (by decide)), ?_⟩
  refine (hcommand { command := .addUser "bob" "bob@example.com" false }
    "bob" "bob@example.com" false rfl rfl Sample.fresh_shell).2 (.inl ?_)
  decide +kernel

/-- A site may have its sessions last for ten thousand years and more. Then a registration is
refused after the user was stored, and refused for another reason when it is tried again. -/
theorem registration_not_whole :
    ¬ (Sample.registration 100000000 "u2").RegistersWhole {} ∧
      ((Sample.registration 100000000 "u2").after {}).users.map (·.username) = ["bob"] ∧
      ((Sample.registration 100000000 "u3").answer.run
        ((Sample.registration 100000000 "u2").after {})).1.status = 409 := by
  refine ⟨?_, by decide +kernel, by decide +kernel⟩
  rw [Api.Exchange.registersWhole_iff rfl rfl rfl (by simp)]
  decide +kernel

end Gazette
