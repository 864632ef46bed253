import Gazette.Proofs.Happenings
import Gazette.Proofs.Readback
import Gazette.Proofs.Sessions

/-!
# Tokens by command

A user is added by command under a name, and later a token is asked for by command under the same
name. The name is stored without white space around it, but looked up as it was given. So the user
gets a token iff there was no such space, as far as a session can be created at all. The token then
stands for this very user, whatever happened in between but the deletion of the user.
-/
namespace Gazette
open Store

namespace Program
open Files DiskAction StoreProcedure

/-- The configuration of a run that opens a database, and where the database stands. A database
that lasts as long as the run stands nowhere. -/
def opened? (around : Surroundings) (words : List String) (disk : Disk) :
    Option (Configuration × Location) := do
  let invocation ← (CommandLine.read words).toOption
  let dataDir := invocation.dataDirIn around.home
  let config ← (Configuration.load dataDir invocation disk).toOption
  let path := config.databaseIn dataDir
  match (openDatabase dataDir path).outcome disk with
  | (.ok _, ready) =>
    if isPassing path then none
    else (ready.target (databaseFile path)).toOption.map (config, ·)
  | (.error _, _) => none

def Ending.code? : Ending → Option Nat
  | .exit code _ _ => some code
  | .listen _ _ | .broken => none

/-- A run adds a user under a name to the database at a place, and succeeds. -/
structure Enrols [Libraries] (around : Surroundings) (words : List String) (username : String)
    (place : Location) (disk : Disk) : Prop where
  reads : ∃ invocation email admin, CommandLine.read words = .ok invocation ∧
    invocation.command = .addUser username email admin
  fresh : Fresh around disk
  opens : ∃ config, opened? around words disk = some (config, place)
  succeeds : ((run around words).run disk).1.code? = some 0

/-- A run asks the database at a place for a token, for the user of a name. -/
structure AsksToken (around : Surroundings) (words : List String) (username : String)
    (config : Configuration) (place : Location) (disk : Disk) : Prop where
  reads : ∃ invocation, CommandLine.read words = .ok invocation ∧
    invocation.command = .issueToken username
  fresh : Fresh around disk
  opens : opened? around words disk = some (config, place)

/-- If a session can be created for a user then a run prints the token of it, and every request with
this token is one of that user until the session ends. -/
def Issues [Libraries] (around : Surroundings) (words : List String) (config : Configuration)
    (place : Location) (disk : Disk) (id : String) : Prop :=
  ∀ t, (disk.storeAt place).createSession around.freshSessionId around.freshToken id
      config.sessionHours around.now = .ok t →
    ((run around words).run disk).1 = .exit 0 (around.freshToken ++ "\n") "" ∧
    ((run around words).run disk).2.storeAt place = t ∧
    ∀ x : Api.Exchange, x.request.token? x.site.cookieName = some around.freshToken →
      Timestamp.InFourDigits around.now.seconds → Timestamp.InFourDigits x.now.seconds →
      x.now.seconds < around.now.seconds + 3600 * config.sessionHours →
      ∃ user, t.users.row? id = some user ∧ x.callerIn t = some (.ofUser user)

variable {around adding issuing : Surroundings} {words addWords : List String}
  {username : String} {config : Configuration} {place : Location}
  {disk ready waiting : Disk} {dataDir path : Path} {db : Database}
  {invocation : CommandLine.Invocation}

/-- What was opened stands where its path leads to, and has the store that was there. -/
theorem stands_of_open
    (hopen : (openDatabase dataDir path).outcome disk = (.ok db, ready))
    (hpassing : isPassing path = false)
    (htarget : ready.target (databaseFile path) = .ok place) :
    Stands path db (some place) ready ∧ db.store = disk.storeAt place := by
  obtain ⟨-, hopened⟩ := openDatabase_cases dataDir path disk
  rw [hopen] at hopened
  obtain ⟨place?, hstands, hstore⟩ := hopened db rfl
  cases place? with
  | none =>
      have hpasses : isPassing path = true := hstands
      rw [hpassing] at hpasses
      cases hpasses
  | some other =>
      have hother : ready.target (databaseFile path) = .ok other := hstands.2.1
      rw [htarget] at hother
      obtain rfl : place = other := Except.ok.inj hother
      exact ⟨hstands, hstore⟩

theorem opened?_eq_some (hread : CommandLine.read words = .ok invocation)
    (h : opened? around words disk = some (config, place)) :
    Configuration.load (invocation.dataDirIn around.home) invocation disk = .ok config ∧
      ∃ db ready, (openDatabase (invocation.dataDirIn around.home)
          (config.databaseIn (invocation.dataDirIn around.home))).outcome disk = (.ok db, ready) ∧
        Stands (config.databaseIn (invocation.dataDirIn around.home)) db (some place) ready ∧
        db.store = disk.storeAt place := by
  unfold opened? at h
  rw [hread] at h
  cases hload : Configuration.load (invocation.dataDirIn around.home) invocation disk with
  | error e => simp [hload, Except.toOption] at h
  | ok found =>
      simp only [hload, Except.toOption, Option.bind_eq_bind, Option.bind_some] at h
      split at h
      · next db ready hopen =>
          split at h
          · cases h
          · next hpassing =>
              obtain ⟨there, htarget, heq⟩ := Option.map_eq_some_iff.1 h
              obtain ⟨rfl, rfl⟩ := Prod.mk.inj heq
              split at htarget
              · next hfound =>
                  cases htarget
                  exact ⟨rfl, db, ready, hopen,
                    stands_of_open hopen (Bool.eq_false_of_not_eq_true hpassing) hfound⟩
              · cases htarget
      · cases h

theorem Becomes.storeAt_self {t : Store} {before after : Disk}
    (h : Becomes (some place) t before after) : after.storeAt place = t :=
  (h place).trans (if_pos rfl)

/-- Whoever is added to an opened database is stored there under the trimmed name. -/
theorem enrolIn_retains {outcome : Outcome} {after : Disk} {user : User}
    (h : Stands path db (some place) ready) (hs : db.store.Sound)
    (hfresh : db.store.users.has user.id = false)
    (hok : (enrolIn config path around user db).outcome ready = (.ok outcome, after)) :
    (after.storeAt place).Retains user.trimmed := by
  obtain ⟨stored, honDatabase, hstands, -⟩ :=
    h.onDatabase (.userRefused user.username) (Editor.saveUser user around.now)
  rw [enrolIn, DiskAction.outcome_bind, honDatabase] at hok
  cases hsave : (Editor.saveUser user around.now).outcome db.store with
  | mk r u =>
      rw [hsave] at hok hstands
      cases r with
      | error e => cases hok
      | ok saved =>
          obtain ⟨-, hu, hsaved⟩ := Editor.saveUser_ok.1 hsave
          obtain ⟨-, hadded⟩ := saveUser_new hfresh hsave
          obtain ⟨last, hprint, hlast⟩ := printToken_outcome around config saved.id hstands
          dsimp only at hok
          rw [hprint] at hok
          obtain ⟨hresult, rfl⟩ := Prod.mk.inj hok
          have husers : (last.storeAt place).users = u.users := by
            rw [hlast.storeAt_self]
            split
            · next t hcreate =>
                obtain ⟨-, -, -, rfl⟩ := createSession_ok.1 hcreate
                rfl
            · rfl
          refine Retains.of_eq ⟨saved, ?_, ?_⟩ husers
          · have hsound : u.Sound := Change.keeps_sound (.saveUser _) _ _ hu hs
            rw [Table.row?_eq_some_iff hsound.user_ids, hadded, ← hsaved]
            exact ⟨by simp, rfl⟩
          · rw [← hsaved]

theorem Enrols.retains [Libraries] (h : Enrols adding addWords username place disk)
    (horderly : disk.Orderly) :
    ∃ user : User, user.id = adding.freshId ∧ user.username = Text.trim username ∧
      (((run adding addWords).run disk).2.storeAt place).Retains user := by
  obtain ⟨invocation, email, admin, hread, hcommand⟩ := h.reads
  obtain ⟨config, hopens⟩ := h.opens
  have hexit := h.succeeds
  obtain ⟨hload, db, ready, hopen, hstands, hstore⟩ := opened?_eq_some hread hopens
  have hrun : (run adding addWords).run disk = _ := run_of_read hread disk
  rw [perform_addUser hcommand, hload] at hrun
  dsimp only at hrun
  rw [addUser_eq, DiskAction.outcome_bind, hopen] at hrun
  dsimp only at hrun
  rw [hrun] at hexit ⊢
  refine ⟨(newcomer username email admin adding).trimmed, rfl, rfl, ?_⟩
  cases henrol : (enrolIn config (config.databaseIn (invocation.dataDirIn adding.home)) adding
      (newcomer username email admin adding) db).outcome ready with
  | mk r after =>
      rw [henrol] at hexit
      cases r with
      | error e => cases hexit
      | ok outcome =>
          refine enrolIn_retains hstands (hstore ▸ (horderly place).1) ?_ henrol
          rw [hstore]
          exact h.fresh.id place

theorem perform_issueToken [Libraries] (hcommand : invocation.command = .issueToken username)
    (hload : Configuration.load (invocation.dataDirIn around.home) invocation disk = .ok config) :
    (perform invocation around).outcome disk =
      (issueToken username (invocation.dataDirIn around.home) config
        (config.databaseIn (invocation.dataDirIn around.home)) around).outcome disk := by
  rw [perform, DiskAction.outcome_bind, outcome_look, hload]
  simp only [mapError_ok, hcommand]

theorem AsksToken.run_cases [Libraries]
    (h : AsksToken issuing words username config place waiting) :
    ((waiting.storeAt place).findUserNamed? username = none →
      ((run issuing words).run waiting).1 =
        .exit 1 "" (Failure.unknownUser username).report) ∧
    ∀ user t, (waiting.storeAt place).findUserNamed? username = some user →
      (waiting.storeAt place).createSession issuing.freshSessionId issuing.freshToken user.id
        config.sessionHours issuing.now = .ok t →
      ((run issuing words).run waiting).1 = .exit 0 (issuing.freshToken ++ "\n") "" ∧
        ((run issuing words).run waiting).2.storeAt place = t := by
  obtain ⟨invocation, hread, hcommand⟩ := h.reads
  obtain ⟨hload, db, ready, hopen, hstands, hstore⟩ := opened?_eq_some hread h.opens
  have hrun : (run issuing words).run waiting = _ := run_of_read hread waiting
  rw [perform_issueToken hcommand hload, issueToken_eq, DiskAction.outcome_bind, hopen] at hrun
  dsimp only at hrun
  rw [hrun, ← hstore, issueIn]
  constructor
  · intro hnone
    rw [hnone]
    rfl
  · intro user t hsome hcreate
    obtain ⟨last, hprint, hlast⟩ := printToken_outcome issuing config user.id hstands
    rw [hsome]
    dsimp only
    rw [hprint, hcreate]
    rw [hcreate] at hlast
    exact ⟨by simp [Ending.ofResult, linesText, String.join], hlast.storeAt_self⟩

theorem callerIn_created {s t : Store} {id token userId : String} {hours : Nat} {now : Timestamp}
    {x : Api.Exchange} (hs : s.Sound)
    (hcreate : s.createSession id token userId hours now = .ok t)
    (htoken : x.request.token? x.site.cookieName = some token)
    (hnow : Timestamp.InFourDigits now.seconds) (hthen : Timestamp.InFourDigits x.now.seconds)
    (hends : x.now.seconds < now.seconds + 3600 * hours) :
    ∃ user, t.users.row? userId = some user ∧ x.callerIn t = some (.ofUser user) := by
  have hsound : t.Sound :=
    Change.keeps_sound (.createSession id token userId hours now) s t hcreate hs
  have hcreates : Event.Creates (s, .change (.createSession id token userId hours now)) id token
      userId hours now := ⟨rfl, t, hcreate⟩
  have hlive := (Event.isLive_created hcreates hnow hthen).2 hends
  obtain ⟨-, -, huser, rfl⟩ := createSession_ok.1 hcreate
  obtain ⟨user, hrow⟩ := Table.exists_row?_of_has huser
  refine ⟨user, hrow, (Event.callerIn_eq_some hsound htoken).2 ⟨_, ?_, rfl, hlive, user, hrow, rfl⟩⟩
  exact List.mem_append_right _ (List.mem_singleton_self _)

/-- Whoever was added under a name and is not deleted gets a token under this name iff there is no
white space around it or a session would last too long to be stored. With such white space the name
is said to be unknown. -/
theorem issues_token_iff [Libraries] (hreached : Reached disk)
    (hadds : Enrols adding addWords username place disk)
    (hlater : Later place adding.freshId ((run adding addWords).run disk).2 waiting)
    (hasks : AsksToken issuing words username config place waiting) :
    (Issues issuing words config place waiting adding.freshId ↔
      Text.trim username = username ∨ lastSecond < expiry issuing.now config.sessionHours) ∧
    (Text.trim username ≠ username → ((run issuing words).run waiting).1 =
      .exit 1 "" (Failure.unknownUser username).report) := by
  obtain ⟨user, hid, hname, hretains⟩ := hadds.retains hreached.orderly
  obtain ⟨horderly, row, hrow, husername⟩ := (hid ▸ hlater).retains
    (hreached.step (.run adding addWords)).orderly hretains
  obtain ⟨hs, hnames⟩ := horderly place
  obtain ⟨hunknown, hknown⟩ := hasks.run_cases
  rw [hname] at husername
  rw [hid] at hrow
  have hkey : row.id = adding.freshId := Table.key_of_row? hrow
  have hrefused : Text.trim username ≠ username → ((run issuing words).run waiting).1 =
      .exit 1 "" (Failure.unknownUser username).report := by
    intro hspace
    -- Every name is stored trimmed, so that nobody has a name with white space around it.
    refine hunknown (Option.eq_none_iff_forall_ne_some.2 fun found hfound => hspace ?_)
    obtain ⟨rfl, hstored⟩ := ((looksUpAlike hs).user _ found).1 hfound
    exact hnames found (Table.mem_of_row? hstored)
  refine ⟨⟨fun hissues => ?_, ?_⟩, hrefused⟩
  · by_contra hneither
    obtain ⟨hspace, hfits⟩ := not_or.1 hneither
    have hcreate := createSession_new config.sessionHours issuing.now (hasks.fresh.session place)
      (Table.has_of_row? hrow)
    rw [if_pos (Int.not_lt.1 hfits)] at hcreate
    obtain ⟨hexit, -⟩ := hissues _ hcreate
    rw [hrefused hspace] at hexit
    cases hexit
  · rintro (htrimmed | hlate) t hcreate
    · have hfound : (waiting.storeAt place).findUserNamed? username = some row := by
        refine ((looksUpAlike hs).user _ row).2 ⟨husername.trans htrimmed, ?_⟩
        rw [hkey]
        exact hrow
      obtain ⟨hexit, hafter⟩ := hknown row t hfound (hkey ▸ hcreate)
      exact ⟨hexit, hafter, fun x htoken hnow hthen hends =>
        callerIn_created hs hcreate htoken hnow hthen hends⟩
    · obtain ⟨hfits, -⟩ := createSession_ok.1 hcreate
      exact absurd hlate (Int.not_lt.2 hfits)

end Program

attribute [local instance] Libraries.bare

namespace Sample
open Program

def enrolment (username : String) : List String :=
  ["user", "add", "--username", username, "--email", "bob@example.com"]

def tokenRequest (username : String) : List String :=
  ["user", "token", "--username", username]

def laterShell : Surroundings where
  home := ⟨"/home"⟩
  now := .ofSeconds 1800
  freshId := "u4"
  freshSessionId := "second session"
  freshToken := "second"

def settings : Configuration where
  databasePath := some ⟨"/home/.folio/folio.db"⟩

def folio : Files.Location :=
  ["home", ".folio", "folio.db"]

def enrolled (username : String) : Files.Disk :=
  ((run shell (enrolment username)).run {}).2

def carol : Api.Exchange where
  site := ⟨"session", 720, []⟩
  request := {
    method := .post
    path := "/api/users"
    headers := [("content-type", "application/json")]
    body := "\x7b\"username\":\"carol\",\"email\":\"carol@example.com\"\x7d" }
  now := .ofSeconds 60
  freshId := "u3"
  freshSessionId := "third session"
  freshToken := "third"

def withCarol : Files.Disk :=
  (Happening.request folio carol).after (enrolled "bob")

end Sample

/-- After carol registered, bob gets a token. -/
theorem Program.issues_token_to_bob :
    (Sample.withCarol.storeAt Sample.folio).users.map (·.username) = ["bob", "carol"] ∧
      Issues Sample.laterShell (Sample.tokenRequest "bob") Sample.settings Sample.folio
        Sample.withCarol "u2" := by
  obtain ⟨hopens, hends, hunused, husers, hfresh, hasks⟩ :
      opened? Sample.shell (Sample.enrolment "bob") {} = some (Sample.settings, Sample.folio) ∧
      ((run Sample.shell (Sample.enrolment "bob")).run {}).1.code? = some 0 ∧
      ((Sample.enrolled "bob").storeAt Sample.folio).Unused Sample.carol.freshId ∧
      (Sample.withCarol.storeAt Sample.folio).users.map (·.username) = ["bob", "carol"] ∧
      (∀ db ∈ Sample.withCarol.databases, db.store.users.has Sample.laterShell.freshId = false ∧
        ∀ session ∈ db.store.sessions, session.id ≠ Sample.laterShell.freshSessionId ∧
          session.token ≠ Sample.laterShell.freshToken) ∧
      opened? Sample.laterShell (Sample.tokenRequest "bob") Sample.withCarol =
        some (Sample.settings, Sample.folio) := by
    decide +kernel
  have hspares : ¬ (Happening.request Sample.folio Sample.carol).Deletes Sample.folio "u2"
      (Sample.enrolled "bob") := by
    rintro ⟨-, hdeletes, -⟩
    have hregisters : Sample.carol.operation? = some .register := by decide +kernel
    cases hdeletes with
    | user hoperation => cases hregisters.symm.trans hoperation
  refine ⟨husers, (issues_token_iff reached_empty
    ⟨⟨_, _, _, rfl, rfl⟩, Sample.fresh_shell, ⟨_, hopens⟩, hends⟩
    (.step (.request Sample.folio Sample.carol) .refl hunused hspares)
    ⟨⟨_, rfl, rfl⟩, fresh_of_databases hfresh, hasks⟩).1.2 (.inl ?_)⟩
  decide +kernel

/-- The name under which somebody was just added is unknown if there is white space around it. -/
theorem Program.issues_no_token :
    Reached {} ∧ Enrols Sample.shell (Sample.enrolment " bob ") " bob " Sample.folio {} ∧
      Later Sample.folio "u2" (Sample.enrolled " bob ") (Sample.enrolled " bob ") ∧
      AsksToken Sample.laterShell (Sample.tokenRequest " bob ") " bob " Sample.settings
        Sample.folio (Sample.enrolled " bob ") ∧
      ¬ Issues Sample.laterShell (Sample.tokenRequest " bob ") Sample.settings Sample.folio
        (Sample.enrolled " bob ") "u2" := by
  obtain ⟨hopens, hends, hfresh, hasks, hcreates, hfails⟩ :
      opened? Sample.shell (Sample.enrolment " bob ") {} = some (Sample.settings, Sample.folio) ∧
      ((run Sample.shell (Sample.enrolment " bob ")).run {}).1.code? = some 0 ∧
      (∀ db ∈ (Sample.enrolled " bob ").databases,
        db.store.users.has Sample.laterShell.freshId = false ∧
          ∀ session ∈ db.store.sessions, session.id ≠ Sample.laterShell.freshSessionId ∧
            session.token ≠ Sample.laterShell.freshToken) ∧
      opened? Sample.laterShell (Sample.tokenRequest " bob ") (Sample.enrolled " bob ") =
        some (Sample.settings, Sample.folio) ∧
      (((Sample.enrolled " bob ").storeAt Sample.folio).createSession "second session" "second"
        "u2" 720 (.ofSeconds 1800)).toOption.isSome = true ∧
      ((run Sample.laterShell (Sample.tokenRequest " bob ")).run
        (Sample.enrolled " bob ")).1.code? = some 1 := by
    decide +kernel
  refine ⟨reached_empty, ⟨⟨_, _, _, rfl, rfl⟩, Sample.fresh_shell, ⟨_, hopens⟩, hends⟩, .refl,
    ⟨⟨_, rfl, rfl⟩, fresh_of_databases hfresh, hasks⟩, fun hissues => ?_⟩
  cases hcreate : ((Sample.enrolled " bob ").storeAt Sample.folio).createSession "second session"
    "second" "u2" 720 (.ofSeconds 1800) with
  | error e =>
      rw [hcreate] at hcreates
      cases hcreates
  | ok t =>
      obtain ⟨hexit, -⟩ := hissues t hcreate
      rw [hexit] at hfails
      cases hfails

end Gazette
