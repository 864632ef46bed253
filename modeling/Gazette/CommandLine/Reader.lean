import Gazette.CommandLine.Basic
import Gazette.CommandLine.Value

/-!
# Reading command lines

The words of a command line are taken one at a time. An option whose value is the next word stays
pending until another option or the end is reached; only then it takes effect. The levels that were
left through a subcommand are closed at the end, the innermost first.
-/
namespace Gazette.CommandLine

structure LevelState where
  level : Level
  /-- The options that took effect, in order, with the long names of their specifications. -/
  values : List (String × Value) := []
  /-- An option that has not taken effect yet, and its value if there is one already. -/
  pending : Option (OptionSpec × Option String) := none
  /-- Whether two hyphens were given, after which there are no options. -/
  noOptions : Bool := false
deriving Repr

namespace LevelState

def has (long : String) (state : LevelState) : Bool :=
  state.values.any (·.1 == long)

def add (spec : OptionSpec) (value : Value) (state : LevelState) : LevelState :=
  { state with values := state.values ++ [(spec.long, value)] }

/-- Lets an option take effect, with its value if it has one. -/
def apply (spec : OptionSpec) (value : Option String) (state : LevelState) :
    Except UsageError LevelState := do
  match spec.kind, value with
  | .help, _ => .error (.helpAsked state.level)
  | .flag, _ => if state.has spec.long then .error (.repeated spec) else .ok (state.add spec .on)
  | .value _, none | .values _, none => .error (.missingValue spec)
  | .value kind, some s =>
    if state.has spec.long then .error (.repeated spec)
    else .ok (state.add spec (← readValue spec kind s))
  | .values kind, some s => .ok (state.add spec (← readValue spec kind s))

/-- Lets the pending option take effect. -/
def settle (state : LevelState) : Except UsageError LevelState :=
  match state.pending with
  | none => .ok state
  | some (spec, value) => { state with pending := none }.apply spec value

/-- Whether the next word may be the value of an option. -/
def awaitsValue (state : LevelState) : Bool :=
  match state.pending with
  | some (_, none) => true
  | _ => false

def takesValue (spec : OptionSpec) : Bool :=
  match spec.kind with
  | .value _ | .values _ => true
  | .flag | .help => false

/-- Takes an option that may have a value, which is either attached to it or still to come. -/
def takeOption (spec : OptionSpec) (attached : Option String) (state : LevelState) :
    Except UsageError LevelState := do
  let state ← state.settle
  match attached with
  | some s => state.apply spec (some s)
  | none => .ok { state with pending := some (spec, none) }

/-- Takes a word that starts with two hyphens, without these. -/
def takeLong (word : List Char) (state : LevelState) : Except UsageError LevelState :=
  let (name, attached) :=
    match Text.splitFirst '=' word with
    | some (name, value) => (name, some (String.ofList value))
    | none => (word, none)
  match state.level.long? (String.ofList name) with
  | none => .error (.unknownArgument ("--" ++ String.ofList name))
  | some spec =>
    if takesValue spec then state.takeOption spec attached
    else
      match attached with
      | some value => .error (.surplusValue value spec)
      | none => do (← state.settle).apply spec none

/-- Takes a word that starts with one hyphen, without it. Several letters can share a hyphen; what
follows the letter of an option with a value is the value. -/
def takeShorts : List Char → LevelState → Except UsageError LevelState
  | [], state => .ok state
  | c :: rest, state =>
    match state.level.short? c with
    | none => .error (.unknownArgument (String.ofList ['-', c]))
    | some spec =>
      if takesValue spec then
        match rest with
        | [] => state.takeOption spec none
        | '=' :: value => state.takeOption spec (some (String.ofList value))
        | value => state.takeOption spec (some (String.ofList value))
      else do
        let state ← (← state.settle).apply spec none
        takeShorts rest state

/-- Takes a word that is no option and does not name a subcommand. -/
def takeWord (word : String) (state : LevelState) : Except UsageError LevelState :=
  match state.pending, state.noOptions with
  | some (spec, none), false => .ok { state with pending := some (spec, some word) }
  | _, _ =>
    if state.level.subcommands.isEmpty then .error (.unknownArgument word)
    else if state.noOptions && (state.level.subcommand? word).isSome then
      .error (.unknownArgument word)
    else .error (.unknownSubcommand word)

/-- Closes a level. `left` says that it was left through a subcommand. -/
def close (left : Bool) (state : LevelState) : Except UsageError LevelState := do
  let state ← state.settle
  if !left && !state.level.subcommands.isEmpty then
    if state.values.isEmpty then .error (.nothingGiven state.level)
    else .error (.missingSubcommand state.level)
  else if state.level.options.any fun spec => spec.required && !state.has spec.long then
    .error .missingOptions
  else .ok state

end LevelState

/-- Where the reading of a command line stands. -/
inductive Reading
  /-- On a level, with the levels outside of it from the innermost to the root. -/
  | on (state : LevelState) (outer : List LevelState)
  /-- Help on a level was asked for by name. -/
  | helping (level : Level)
deriving Repr

namespace Reading

def take (reading : Reading) (word : String) : Except UsageError Reading :=
  match reading with
  | .helping level =>
    match level.subcommand? word with
    | some level => .ok (.helping level)
    | none => .error (.unknownSubcommand word)
  | .on state outer =>
    let next := fun state => Reading.on state outer
    if state.noOptions then (state.takeWord word).map next
    else
      match if state.awaitsValue then none else state.level.subcommand? word with
      | some .help => .ok (.helping state.level)
      | some level => .ok (.on { level := level } (state :: outer))
      | none =>
        match word.toList with
        | ['-', '-'] => .ok (next { state with noOptions := true })
        | '-' :: '-' :: rest => (state.takeLong rest).map next
        | ['-'] => (state.takeWord word).map next
        | '-' :: rest => (LevelState.takeShorts rest state).map next
        | _ => (state.takeWord word).map next

def takeAll (reading : Reading) : List String → Except UsageError Reading
  | [] => .ok reading
  | word :: words => do takeAll (← reading.take word) words

/-- Closes all levels, the innermost first. The result has the innermost level first, too. -/
def close : Reading → Except UsageError (List LevelState)
  | .helping level => .error (.helpAsked level)
  | .on state outer => do
    let state ← state.close false
    let outer ← outer.mapM (LevelState.close true)
    .ok (state :: outer)

end Reading

def text? (long : String) (values : List (String × Value)) : Option String :=
  values.findSome? fun
    | (name, .text s) => if name = long then some s else none
    | _ => none

def path? (long : String) (values : List (String × Value)) : Option Files.Path :=
  values.findSome? fun
    | (name, .path p) => if name = long then some p else none
    | _ => none

def port? (long : String) (values : List (String × Value)) : Option Nat :=
  values.findSome? fun
    | (name, .port n) => if name = long then some n else none
    | _ => none

def pairs (long : String) (values : List (String × Value)) : List (String × String) :=
  values.filterMap fun
    | (name, .pair key value) => if name = long then some (key, value) else none
    | _ => none

def texts (long : String) (values : List (String × Value)) : List String :=
  values.filterMap fun
    | (name, .text s) => if name = long then some s else none
    | _ => none

def isOn (long : String) (values : List (String × Value)) : Bool :=
  values.any (·.1 == long)

def projectParams (values : List (String × Value)) : ProjectParams where
  set := pairs "set" values
  keywords := texts "keyword" values
  templates := path? "templates" values

/-- The command of a closed level. -/
def command? (state : LevelState) : Option Command :=
  let values := state.values
  match state.level with
  | .serve => some .serve
  | .scaffold => do
    some (.scaffold
      { params := projectParams values
        output := ← path? "output" values
        zip := isOn "zip" values
        strict := isOn "strict" values
        force := isOn "force" values
        dryRun := isOn "dry-run" values })
  | .scaffoldCheck => some (.scaffoldCheck (projectParams values))
  | .addUser => do
    some (.addUser (← text? "username" values) (← text? "email" values) (isOn "admin" values))
  | .issueToken => do some (.issueToken (← text? "username" values))
  | .root | .user | .help => none

/-- Reads a command line, given as its words without the name of the program. An option that every
level has counts on the innermost level that it is given on. -/
def read (words : List String) : Except UsageError Invocation := do
  let reading ← (Reading.on { level := .root } []).takeAll words
  let levels ← reading.close
  let values := levels.flatMap (·.values)
  match levels.head?.bind command? with
  | some command =>
    .ok
      { config := path? "config" values
        host := text? "host" values
        port := port? "port" values
        dataDir := path? "data-dir" values
        command := command }
  | none => .error .missingOptions

end Gazette.CommandLine
