import Gazette.CommandLine.Reader
import Gazette.Http.Address
import Gazette.Program.DatabasePath
import Gazette.Program.Failure
import Gazette.Store.Sessions

/-!
# Running the program

A run takes the words of a command line and works on a disk. It ends with an exit code and what it
printed, or it goes on to listen for requests.
-/
namespace Gazette.Program
open CommandLine Files Scaffold

/-- What a run finds outside of the disk. -/
structure Surroundings where
  home : Path
  now : Timestamp
  /-- An id that is not in use. -/
  freshId : String
  /-- An id of a session that is not in use. -/
  freshSessionId : String
  /-- A token that is not in use. -/
  freshToken : String
deriving Repr, Inhabited

/-- What is left when a command is done. -/
inductive Outcome
  /-- The lines were printed. -/
  | printed (lines : List String)
  /-- A site is served at an address. -/
  | serving (address : Http.SocketAddress) (site : Api.Site)
  /-- A library broke the command off. -/
  | broken
deriving Repr

/-- A command on its way. -/
abbrev Action (α : Type) := DiskAction Failure α

variable [Libraries]

/-- The database that a path leads to. A file that is missing or empty is a new database. -/
def databaseAt (path : Path) (disk : Disk) : Except Failure Database := do
  if !(DatabasePath.ofPath path).isLocal then
    .error (.foreignHost (DatabasePath.ofPath path).host)
  match disk.find (databaseFile path) with
  | .ok (_, .file (.database db)) => .ok db
  | .ok (_, .file (.text "")) | .ok (_, .file (.octets [])) => .ok {}
  | .ok (_, .file _) => .error .notDatabase
  | .ok (_, .directory) => .error (.databaseFile .isDirectory)
  | .error .notFound => .ok {}
  | .error e => .error (.databaseFile e)

def keepDatabase (path : Path) (db : Database) : Action Unit :=
  if isPassing path then return
  else DiskAction.change .databaseFile (Disk.write (databaseFile path) (.database db))

/-- Opens the database and brings it up to date. Directories that are missing are made. -/
def openDatabase (dataDir path : Path) : Action Database := do
  ExceptT.adapt .directory (DiskAction.createDirectories dataDir)
  if let some parent := path.parent? then
    ExceptT.adapt .directory (DiskAction.createDirectories parent)
  let db ← if isPassing path then pure {} else DiskAction.look (databaseAt path)
  -- Migrations that were applied before one failed are kept.
  let (error?, db) := db.migrate
  keepDatabase path db
  match error? with
  | none => return db
  | some e => throw (.migration e)

/-- Carries out a procedure on a database. What it changes is kept even if it fails. -/
def onDatabase {ε α : Type} (path : Path) (db : Database) (refuse : ε → Failure)
    (procedure : StoreProcedure ε α) : Action (α × Database) := do
  let (result, store) := procedure.run.run db.store
  let db := { db with store := store }
  keepDatabase path db
  match result with
  | .ok a => return (a, db)
  | .error e => throw (refuse e)

def serve (dataDir : Path) (config : Configuration) (path : Path) (around : Surroundings) :
    Action Outcome := do
  let db ← openDatabase dataDir path
  keepDatabase path { db with store := (db.store.purgeSessions around.now).2 }
  match Http.SocketAddress.read? (config.host ++ ":" ++ toString config.port) with
  | some address =>
    return if config.site.origins.contains "*" then .broken else .serving address config.site
  | none => throw .malformedAddress

/-- The templates that an invocation asks for, or else the configuration. -/
def loadTemplates (params : ProjectParams) (config : Configuration) : Action TemplateSet :=
  ExceptT.adapt .scaffold (TemplateSet.load (params.templates <|> config.templatesDir))

def scaffold (args : ProjectArgs) (config : Configuration) : Action Outcome := do
  let templates ← loadTemplates args.params config
  let params := Params.ofPairs args.params.set args.params.keywords
  match generate templates params args.strict with
  | .error e => throw (.scaffold e)
  | .ok files =>
    if args.dryRun then
      return .printed <| files.map fun file =>
        if args.zip then args.output.text ++ ": " ++ file.path.text
        else (args.output.join file.path).text
    else if args.zip then
      ExceptT.adapt .scaffold (writeArchive files args.output args.force)
      return .printed []
    else
      let _ ← ExceptT.adapt .scaffold (writeFiles files args.output args.force)
      return .printed []

/-- The lines that show a report. -/
def reportLines (report : CheckReport) : List String :=
  (report.unresolved.map fun (template, names) =>
      template ++ ": unresolved " ++ String.intercalate ", " names) ++
    report.unused.map ("unused parameter: " ++ ·) ++
    report.invalidNames.map ("invalid parameter name: " ++ ·)

def checkScaffold (params : ProjectParams) (config : Configuration) : Action Outcome := do
  let templates ← loadTemplates params config
  let report := check templates (Params.ofPairs params.set params.keywords)
  if report.isClean then return .printed ["ok"] else throw (.unclean report)

/-- Starts a session for a user and prints its token. -/
def printToken (config : Configuration) (path : Path) (around : Surroundings) (userId : String)
    (db : Database) : Action Outcome := do
  let _ ← onDatabase path db .store <| StoreProcedure.write id <|
    Store.createSession around.freshSessionId around.freshToken userId config.sessionHours
      around.now
  return .printed [around.freshToken]

def addUser (username email : String) (admin : Bool) (dataDir : Path) (config : Configuration)
    (path : Path) (around : Surroundings) : Action Outcome := do
  let db ← openDatabase dataDir path
  let user : User :=
    { id := around.freshId, username := username, email := email, bio := "", isAdmin := admin
      dateJoined := around.now, updatedAt := around.now }
  let (user, db) ← onDatabase path db (.userRefused username) (Editor.saveUser user around.now)
  printToken config path around user.id db

def issueToken (username : String) (dataDir : Path) (config : Configuration) (path : Path)
    (around : Surroundings) : Action Outcome := do
  let db ← openDatabase dataDir path
  match db.store.findUserNamed? username with
  | some user => printToken config path around user.id db
  | none => throw (.unknownUser username)

/-- Carries out what was asked for. -/
def perform (invocation : Invocation) (around : Surroundings) : Action Outcome := do
  let dataDir := invocation.dataDirIn around.home
  let config ← DiskAction.look fun disk =>
    (Configuration.load dataDir invocation disk).mapError .configuration
  let path := config.databaseIn dataDir
  match invocation.command with
  | .serve => serve dataDir config path around
  | .scaffold args => scaffold args config
  | .scaffoldCheck params => checkScaffold params config
  | .addUser username email admin => addUser username email admin dataDir config path around
  | .issueToken username => issueToken username dataDir config path around

/-- How a run ends. -/
inductive Ending
  | exit (code : Nat) (output errors : String)
  | listen (address : Http.SocketAddress) (site : Api.Site)
  | broken
deriving Repr

def linesText (lines : List String) : String :=
  String.join (lines.map (· ++ "\n"))

/-- What was printed before a command failed. -/
def Failure.printed : Failure → List String
  | .unclean report => reportLines report
  | _ => []

def Ending.ofUsage : UsageError → Ending
  | .helpAsked level => .exit 0 (UsageError.message (.helpAsked level) ++ "\n") ""
  | e => .exit 2 "" (e.message ++ "\n")

def run (around : Surroundings) (words : List String) : StateM Disk Ending := do
  match CommandLine.read words with
  | .error e => return .ofUsage e
  | .ok invocation =>
    match ← (perform invocation around).run with
    | .ok (.printed lines) => return .exit 0 (linesText lines) ""
    | .ok (.serving address site) => return .listen address site
    | .ok .broken => return .broken
    | .error failure => return .exit 1 (linesText failure.printed) failure.report

end Gazette.Program
