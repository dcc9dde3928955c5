import TypedStore.Migration.Plan

/-!
# Commands

What the words of a command line ask for: the path of a plan, and whether the
run is dry, verified and talkative.  A word is a long option, a cluster of
letters, or the path that an option before it waits for.  Each option may be
given once.  Words are read from left to right, and the first one that settles
the matter does, be it a fault or the wish for the usage.
-/

namespace TypedStore

/-- What the words of a command line ask for. -/
structure MigrationCommand where
  /-- The path of the plan, if it was given. -/
  plan : Option String := none
  dryRun : Bool := false
  verify : Bool := false
  verbose : Bool := false
  deriving DecidableEq, Repr

/-- Why there is nothing to carry out. -/
inductive CommandFault where
  /-- The usage was asked for. -/
  | usage
  /-- The words do not make a command. -/
  | misuse
  deriving DecidableEq, Repr

namespace MigrationCommand

/-- The path of the plan. -/
def planPath (command : MigrationCommand) : String :=
  command.plan.getD "migrate.toml"

/-- Read the path of the plan. -/
def withPlan (command : MigrationCommand) (path : String) :
    Except CommandFault MigrationCommand :=
  if command.plan.isSome || path.isEmpty then .error .misuse
  else .ok { command with plan := some path }

/-- Ask for a dry run. -/
def withDryRun (command : MigrationCommand) : Except CommandFault MigrationCommand :=
  if command.dryRun then .error .misuse else .ok { command with dryRun := true }

/-- Ask for each key to be read back. -/
def withVerify (command : MigrationCommand) : Except CommandFault MigrationCommand :=
  if command.verify then .error .misuse else .ok { command with verify := true }

/-- Ask for a talkative run. -/
def withVerbose (command : MigrationCommand) : Except CommandFault MigrationCommand :=
  if command.verbose then .error .misuse else .ok { command with verbose := true }

/-- Read a long option and the value behind its equals sign.  With the command
comes whether the next word has to be the path of the plan. -/
def readLong (command : MigrationCommand) (name : String) (value : Option String) :
    Except CommandFault (MigrationCommand × Bool) :=
  match name, value with
  | "config", none => .ok (command, true)
  | "config", some path => (command.withPlan path).map (·, false)
  | "dry-run", none => command.withDryRun.map (·, false)
  | "verify", none => command.withVerify.map (·, false)
  | "verbose", none => command.withVerbose.map (·, false)
  | "help", none => .error .usage
  | _, _ => .error .misuse

/-- Read a cluster of letters; the path of the plan may follow its letter at
once, with or without an equals sign. -/
def readLetters (command : MigrationCommand) :
    List Char → Except CommandFault (MigrationCommand × Bool)
  | [] => .ok (command, false)
  | 'h' :: _ => .error .usage
  | 'v' :: letters => do readLetters (← command.withVerbose) letters
  | ['c'] => .ok (command, true)
  | 'c' :: '=' :: path => (command.withPlan (String.ofList path)).map (·, false)
  | 'c' :: path => (command.withPlan (String.ofList path)).map (·, false)
  | _ :: _ => .error .misuse

/-- The name of a long option, and the value behind its equals sign. -/
def cutLong (characters : List Char) : String × Option String :=
  let name := characters.takeWhile (· != '=')
  match characters.dropWhile (· != '=') with
  | [] => (String.ofList name, none)
  | _ :: value => (String.ofList name, some (String.ofList value))

/-- Whether a word can be a value: it does not look like an option. -/
def isValue (word : String) : Bool :=
  !word.startsWith "-" || word == "-"

/-- Read words.  While a path is awaited, the next word has to be one; after
a double dash nothing may follow. -/
def readWords (command : MigrationCommand) (awaiting : Bool) :
    List String → Except CommandFault MigrationCommand
  | [] => if awaiting then .error .misuse else .ok command
  | word :: words =>
    if awaiting then
      if isValue word then do readWords (← command.withPlan word) false words
      else .error .misuse
    else
      match word.toList with
      | ['-', '-'] => if words.isEmpty then .ok command else .error .misuse
      | '-' :: '-' :: characters => do
        let (name, value) := cutLong characters
        let (command, awaiting) ← command.readLong name value
        readWords command awaiting words
      | '-' :: letter :: letters => do
        let (command, awaiting) ← command.readLetters (letter :: letters)
        readWords command awaiting words
      | _ => .error .misuse

/-- Read the words of a command line. -/
def ofWords (words : List String) : Except CommandFault MigrationCommand :=
  readWords {} false words

/-- The usage. -/
def usage : String :=
"Copy entries between tidemap storage engines

Usage: tidemap-migrate [OPTIONS]

Options:
  -c, --config <CONFIG>  Configuration file (TOML); created with defaults when missing [default: migrate.toml]
      --dry-run          Show what would be migrated without writing anything
      --verify           Read every key back from the target after writing it
  -v, --verbose          Debug logging
  -h, --help             Print help
"

end MigrationCommand

end TypedStore
