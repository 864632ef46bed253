import Gazette.Program.Places
import Std.Time.DateTime.Timestamp

/-!
# The program

The places that matter to a run are taken from the host, the run is carried out, and the
directories and texts that it wrote are written to the host. Archives and databases have no form
on the host.
-/
namespace Gazette.Program
open Files

/-- What a file of the host holds. -/
def contentOfBytes (bytes : ByteArray) : Content :=
  match String.fromUTF8? bytes with
  | some s => .text s
  | none => .octets bytes.toList

/-- What the host has at a place. -/
def nodeOnHost? (location : Location) : IO (Option Node) := do
  try
    return some (.file (contentOfBytes (← IO.FS.readBinFile ("/" ++ "/".intercalate location))))
  catch
    | .inappropriateType .. => return some .directory
    | _ => return none

/-- The names that lead to where a path leads, as far as its text tells. -/
def locationOf (workingDirectory : Location) (path : Path) : Location :=
  path.components.foldl
    (fun location => fun
      | .root => []
      | .current => location
      | .parent => location.dropLast
      | .name s => location ++ [s])
    workingDirectory

/-- Takes a place and those above it into a disk. -/
def takeIn (disk : Disk) (path : Path) : IO Disk := do
  let location := locationOf disk.workingDirectory path
  (List.range location.length).foldlM (fun disk n => do
    let location := location.take (n + 1)
    if (disk.node? location).isSome || !disk.isDirectoryAt location.dropLast then return disk
    match ← nodeOnHost? location with
    | some node => return disk.put location node
    | none => return disk) disk

/-- Writes to the host what has changed. -/
def bringOut (before after : Disk) : IO Unit :=
  after.entries.forM fun (location, node) => do
    let place := "/" ++ "/".intercalate location
    match before.node? location, node with
    | none, .directory => IO.FS.createDirAll place
    | old, .file content =>
      let oldText? := match old with
        | some (.file content) => content.text?
        | _ => none
      match content.text? with
      | some s => if oldText? ≠ some s then IO.FS.writeFile place s
      | none => return
    | some _, .directory => return

/-- The disk as far as it matters to a run. -/
def diskFor (home : Path) (words : List String) : IO Disk := do
  let here : Files.Path := ⟨(← IO.currentDir).toString⟩
  let disk ← takeIn { workingDirectory := here.names } ⟨"."⟩
  match CommandLine.read words with
  | .error _ => return disk
  | .ok invocation =>
    let disk ← (configurationPlaces home invocation).foldlM takeIn disk
    match Configuration.load (invocation.dataDirIn home) invocation disk with
    | .error _ => return disk
    | .ok config => (places home invocation config).foldlM takeIn disk

def surroundings : IO Surroundings := do
  let now ← Std.Time.Timestamp.now
  let bytes ← IO.getRandomBytes 64
  let hex := bytes.toList.flatMap fun b =>
    let digits := Text.hexDigits b.toNat
    List.replicate (2 - digits.length) '0' ++ digits
  return {
    home := ⟨(← IO.getEnv "HOME").getD "."⟩
    now :=
      { seconds := now.toSecondsSinceUnixEpoch.val
        nanos := now.toNanosecondsSinceUnixEpoch.val.toNat % 1000000000 }
    freshId := String.ofList ((hex.drop 64).take 32)
    freshSessionId := String.ofList (hex.drop 96)
    freshToken := String.ofList (hex.take 64) }

end Gazette.Program

open Gazette.Program in
def main (words : List String) : IO UInt32 := do
  let around ← surroundings
  let before ← diskFor around.home words
  let (ending, after) := (@run .bare around words).run before
  bringOut before after
  match ending with
  | .exit code output errors =>
    IO.print output
    IO.eprint errors
    return code.toUInt32
  | .broken => return 101
  | .listen _ _ =>
    IO.eprintln "There is nothing here that could listen."
    return 1
