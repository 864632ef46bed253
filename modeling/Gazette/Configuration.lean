import Gazette.Api.Exchange
import Gazette.CommandLine.Basic
import Gazette.Files.Disk
import Gazette.Toml.Document

/-!
# The configuration

The configuration is read from a file if there is one. What the file does not say has a default,
and what the command line says counts more. Keys that are not known are ignored.
-/
namespace Gazette
open Files

structure Configuration where
  host : String := "0.0.0.0"
  port : Nat := 8000
  /-- The origins of the pages that may call the interface. -/
  allowedOrigins : List String := []
  databasePath : Option Path := none
  cookieName : String := "folio_session"
  /-- How long a new session lasts. -/
  sessionHours : Nat := 720
  templatesDir : Option Path := none
deriving DecidableEq, Repr, Inhabited

/-- Why there is no configuration. -/
inductive ConfigurationError
  | file (cause : FileError)
  | malformed
deriving DecidableEq, Repr, Inhabited

def ConfigurationError.message : ConfigurationError → String
  | file cause => cause.message
  | malformed => "TOML parse error"

namespace Configuration

/-- The entries of a section. A section is a table, or an array with the values of its fields in
order. A date stands for a section without fields. -/
def sectionEntries? (fields : List String) : Toml → Option Toml.Entries
  | .table _ _ entries => some entries
  | .array items | .tables items => some (fields.zip items)
  | .date => some []
  | .text _ | .integer _ | .boolean _ | .float => none

/-- The entries of a section that may be missing. -/
def findSection? (name : String) (fields : List String) (document : Toml.Entries) :
    Option Toml.Entries :=
  match document.lookup name with
  | none => some []
  | some s => sectionEntries? fields s

/-- The value of a field that may be missing. -/
def fieldOr {α : Type} (default : α) (read : Toml → Option α) (name : String)
    (entries : Toml.Entries) : Option α :=
  match entries.lookup name with
  | none => some default
  | some v => read v

def readText? : Toml → Option String
  | .text s => some s
  | _ => none

def readPath? (v : Toml) : Option (Option Path) :=
  (readText? v).map fun s => some ⟨s⟩

/-- A number from 0 up to a bound. -/
def readBelow? (bound : Nat) : Toml → Option Nat
  | .integer n => if 0 ≤ n ∧ n < bound then some n.toNat else none
  | _ => none

def readTexts? : Toml → Option (List String)
  | .array items => items.mapM readText?
  | _ => none

/-- The configuration that the entries of a document give. -/
def ofEntries? (document : Toml.Entries) : Option Configuration := do
  let initial : Configuration := {}
  let server ← findSection? "server" ["host", "port", "allowed_origins"] document
  let database ← findSection? "database" ["path"] document
  let auth ← findSection? "auth" ["cookie_name", "session_hours"] document
  let scaffold ← findSection? "scaffold" ["templates_dir"] document
  return {
    host := ← fieldOr initial.host readText? "host" server
    port := ← fieldOr initial.port (readBelow? 0x10000) "port" server
    allowedOrigins := ← fieldOr [] readTexts? "allowed_origins" server
    databasePath := ← fieldOr none readPath? "path" database
    cookieName := ← fieldOr initial.cookieName readText? "cookie_name" auth
    sessionHours :=
      ← fieldOr initial.sessionHours (readBelow? 0x10000000000000000) "session_hours" auth
    templatesDir := ← fieldOr none readPath? "templates_dir" scaffold }

def read? (document : String) : Option Configuration :=
  (Toml.read? document).bind ofEntries?

end Configuration

open CommandLine

/-- The directory in which the program keeps its data. -/
def CommandLine.Invocation.dataDirIn (home : Path) (invocation : Invocation) : Path :=
  invocation.dataDir.getD (home.join ⟨".folio"⟩)

namespace Configuration

def databaseIn (dataDir : Path) (config : Configuration) : Path :=
  config.databasePath.getD (dataDir.join ⟨"folio.db"⟩)

/-- What the command line says, and the place of the database if nothing is said about it. -/
def completed (config : Configuration) (dataDir : Path) (invocation : Invocation) :
    Configuration :=
  { config with
    host := invocation.host.getD config.host
    port := invocation.port.getD config.port
    databasePath := some (config.databaseIn dataDir) }

/-- Finds the configuration for an invocation. -/
def load (dataDir : Path) (invocation : Invocation) (disk : Disk) :
    Except ConfigurationError Configuration := do
  let path := invocation.config.getD (dataDir.join ⟨"config.toml"⟩)
  let config ←
    if disk.has path then
      match disk.readText path with
      | .error e => .error (.file e)
      | .ok document =>
        match read? document with
        | some config => .ok config
        | none => .error .malformed
    else .ok {}
  .ok (config.completed dataDir invocation)

/-- What the interface needs to know. -/
def site (config : Configuration) : Api.Site where
  cookieName := config.cookieName
  sessionHours := config.sessionHours
  allowedOrigins := config.allowedOrigins

end Configuration
end Gazette
