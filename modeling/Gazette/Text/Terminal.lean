/-!
# Control sequences

A terminal takes some characters as commands. They start with the escape character, and what
follows it decides where they end. A message that quotes a text leaves such commands out, and with
them every control character of ASCII other than white space.
-/
namespace Gazette.Text.Terminal

/-- Where a text stands. -/
inductive Phase
  /-- Outside of commands. -/
  | ground
  /-- After the escape character. -/
  | escape
  /-- In a command of several characters, before its last one. -/
  | middle
  /-- In a command with parameters. -/
  | parameters
  /-- In a command with a text that a bell ends. -/
  | command
  /-- In a command with a text that only another command ends. -/
  | string
deriving DecidableEq, Repr

/-- The white space among the control characters. A vertical tab is not part of it. -/
def isSpaceControl (c : Char) : Bool :=
  c == '\t' || c == '\n' || c == '\x0c' || c == '\r'

/-- The next phase inside of a command without a text, and whether the character is kept. A
character up to `last` continues the command, and one above it ends the command. -/
def Phase.nextWithin (phase : Phase) (last : Char) (c : Char) : Phase × Bool :=
  if isSpaceControl c then (.ground, true)
  else if c < ' ' || c == '\x7f' || '\x80' ≤ c then (phase, false)
  else if c ≤ last then (phase, false)
  else (.ground, false)

/-- The next phase, and whether the character is kept. -/
def Phase.next (phase : Phase) (c : Char) : Phase × Bool :=
  if c = '\x1b' then (.escape, false)
  else if c = '\x18' ∨ c = '\x1a' then (.ground, false)
  else
    match phase with
    | .ground => (.ground, isSpaceControl c || (' ' ≤ c && c != '\x7f'))
    | .escape =>
      if c = '[' then (.parameters, false)
      else if c = ']' then (.command, false)
      else if c = 'P' ∨ c = 'X' ∨ c = '^' ∨ c = '_' then (.string, false)
      else if ' ' ≤ c ∧ c ≤ '/' then (.middle, false)
      else Phase.escape.nextWithin '/' c
    | .middle => Phase.middle.nextWithin '/' c
    | .parameters => Phase.parameters.nextWithin '?' c
    | .command => (if c = '\x07' then .ground else .command, false)
    | .string => (.string, false)

/-- The characters that are kept from a phase on. -/
def keptFrom (phase : Phase) : List Char → List Char
  | [] => []
  | c :: cs =>
    let (phase, isKept) := phase.next c
    if isKept then c :: keptFrom phase cs else keptFrom phase cs

/-- What a text shows. -/
def shown (s : String) : String :=
  String.ofList (keptFrom .ground s.toList)

end Gazette.Text.Terminal
