import Gazette.CommandLine.Grammar
import Gazette.Text.Terminal

/-!
# Errors of command lines
-/
namespace Gazette.CommandLine

inductive UsageError
  /-- Help was asked for. -/
  | helpAsked (level : Level)
  /-- Nothing was given where a subcommand is needed. -/
  | nothingGiven (level : Level)
  | missingSubcommand (level : Level)
  | unknownSubcommand (word : String)
  | unknownArgument (shown : String)
  | missingOptions
  /-- An option was given more than once. -/
  | repeated (spec : OptionSpec)
  /-- An option was given without a value, or with an empty one. -/
  | missingValue (spec : OptionSpec)
  /-- A flag was given a value. -/
  | surplusValue (value : String) (spec : OptionSpec)
  | invalidValue (value : String) (spec : OptionSpec) (reason : String)
deriving DecidableEq, Repr

/-- The lines that a text starts with, up to its first end of a line. -/
def firstLine (s : String) : String :=
  let line := s.toList.takeWhile (· != '\n')
  if line.length < s.length ∧ line.getLast? = some '\r' then String.ofList line.dropLast
  else String.ofList line

/-- The first line of the message. Commands to a terminal are left out of it. -/
def UsageError.message (e : UsageError) : String :=
  firstLine <| Text.Terminal.shown <|
    match e with
    | helpAsked level | nothingGiven level => level.about
    | missingSubcommand level =>
      "error: '" ++ level.words ++ "' requires a subcommand but one was not provided"
    | unknownSubcommand word => "error: unrecognized subcommand '" ++ word ++ "'"
    | unknownArgument shown => "error: unexpected argument '" ++ shown ++ "' found"
    | missingOptions => "error: the following required arguments were not provided:"
    | repeated spec =>
      "error: the argument '" ++ spec.shown ++ "' cannot be used multiple times"
    | missingValue spec =>
      "error: a value is required for '" ++ spec.shown ++ "' but none was supplied"
    | surplusValue value spec =>
      "error: unexpected value '" ++ value ++ "' for '" ++ spec.shown ++
        "' found; no more were expected"
    | invalidValue value spec reason =>
      "error: invalid value '" ++ value ++ "' for '" ++ spec.shown ++ "': " ++ reason

end Gazette.CommandLine
