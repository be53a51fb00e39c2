import TeamOrders.Console.Subcommand
import TeamOrders.Number.Unsigned
import TeamOrders.Roster

/-!
# Arguments of the program

Options come before the subcommand or after it, each level having its own. An option that takes a
value takes it attached or as the next argument, unless that looks like an option. A value is only
looked at when the next option or word begins, or at the end: so of two faults, one in a subcommand
is found before one in the last value before it.
-/

namespace TeamOrders.Console

/-- Why arguments are refused, or that help is asked for instead. -/
inductive ArgumentError where
  | displayHelp
  | displayVersion
  | invalidValue
  | valueValidation
  | tooManyValues
  | unknownArgument
  | invalidSubcommand
  | argumentConflict
  | missingRequiredArgument
deriving DecidableEq

namespace ArgumentError

def name : ArgumentError → String
  | displayHelp => "DisplayHelp"
  | displayVersion => "DisplayVersion"
  | invalidValue => "InvalidValue"
  | valueValidation => "ValueValidation"
  | tooManyValues => "TooManyValues"
  | unknownArgument => "UnknownArgument"
  | invalidSubcommand => "InvalidSubcommand"
  | argumentConflict => "ArgumentConflict"
  | missingRequiredArgument => "MissingRequiredArgument"

def exitCode : ArgumentError → Nat
  | displayHelp | displayVersion => 0
  | _ => 2

end ArgumentError

/-- An option of the program or of a subcommand. -/
inductive Flag where
  | verbose
  | stateDir
  | context
  | repo
  | issue
  | title
  | teams
  | tasks
  | actor
  | format
  | strict
  | help
  | version
deriving DecidableEq

namespace Flag

def long : Flag → String
  | verbose => "verbose"
  | stateDir => "state-dir"
  | context => "context"
  | repo => "repo"
  | issue => "issue"
  | title => "title"
  | teams => "teams"
  | tasks => "tasks"
  | actor => "actor"
  | format => "format"
  | strict => "strict"
  | help => "help"
  | version => "version"

def short? : Flag → Option Char
  | verbose => some 'v'
  | stateDir => some 's'
  | format => some 'f'
  | help => some 'h'
  | version => some 'V'
  | _ => none

def takesValue : Flag → Bool
  | verbose | strict | help | version => false
  | _ => true

def repeats : Flag → Bool
  | verbose | teams | tasks => true
  | _ => false

def fault? (flag : Flag) (value : String) : Option ArgumentError :=
  match flag with
  | stateDir | context => if value.isEmpty then some .invalidValue else none
  | issue =>
    match Number.readUnsigned Number.wordLimit value.toList with
    | some _ => none
    | none => some .valueValidation
  | format => if value = "text" || value = "json" then none else some .invalidValue
  | _ => none

end Flag

/-- What can be given at a level: its options, its subcommands, and whether it takes words. -/
structure Level where
  flags : List Flag
  subcommands : List String
  takesWords : Bool

namespace Level

/-- What can be given before the subcommand. -/
def program : Level where
  flags := [.verbose, .stateDir, .context, .repo, .issue, .title, .teams, .tasks, .actor, .help,
    .version]
  subcommands := ["parse", "validate", "dispatch", "patterns", "repl", "help"]
  takesWords := false

def ofSubcommand : String → Level
  | "parse" | "validate" => ⟨[.format, .help], [], true⟩
  | "dispatch" => ⟨[.format, .strict, .help], [], true⟩
  | _ => ⟨[.help], [], false⟩

end Level

/-- What has been given so far. An option whose value has not been looked at is pending. -/
structure Given where
  flags : List (Flag × String)
  words : List String
  pending : Option (Flag × Option String)

namespace Given

def nothing : Given := ⟨[], [], none⟩

def has (given : Given) (flag : Flag) : Bool := given.flags.any fun f => f.1 = flag

def value? (given : Given) (flag : Flag) : Option String :=
  (given.flags.find? fun f => f.1 = flag).map Prod.snd

def values (given : Given) (flag : Flag) : List String :=
  (given.flags.filter fun f => f.1 = flag).map Prod.snd

def record (given : Given) (flag : Flag) (value : String) : Except ArgumentError Given :=
  if !flag.repeats && given.has flag then .error .argumentConflict
  else match flag.fault? value with
    | some fault => .error fault
    | none => .ok { given with flags := given.flags ++ [(flag, value)] }

/-- Looks at the pending value. -/
def settle (given : Given) : Except ArgumentError Given :=
  match given.pending with
  | none => .ok given
  | some (_, none) => .error .invalidValue
  | some (flag, some value) => record { given with pending := none } flag value

def switch (given : Given) (flag : Flag) : Except ArgumentError Given := do
  let given ← given.settle
  match flag with
  | .help => .error .displayHelp
  | .version => .error .displayVersion
  | _ => given.record flag ""

/-- Takes an option that takes a value, which may be attached. -/
def option (given : Given) (flag : Flag) (attached : Option String) :
    Except ArgumentError Given := do
  let given ← given.settle
  match attached with
  | some value => given.record flag value
  | none => .ok { given with pending := some (flag, none) }

/-- An option waits for its value. -/
def awaitsValue (given : Given) : Bool :=
  match given.pending with
  | some (_, none) => true
  | _ => false

/-- Takes an option by its long name, with what stands behind an equals sign. -/
def long (level : Level) (given : Given) (s : List Char) : Except ArgumentError Given :=
  let (name, attached) := match Text.cutAt '=' s with
    | some (name, value) => (name, some (String.ofList value))
    | none => (s, none)
  match level.flags.find? fun flag => flag.long = String.ofList name with
  | none => .error .unknownArgument
  | some flag =>
    if flag.takesValue then given.option flag attached
    else if attached.isSome then .error .tooManyValues
    else given.switch flag

/-- Takes options by their short names. The first that takes a value has the rest attached. -/
def shorts (level : Level) (given : Given) : List Char → Except ArgumentError Given
  | [] => .ok given
  | c :: rest =>
    match level.flags.find? fun flag => flag.short? = some c with
    | none => .error .unknownArgument
    | some flag =>
      if flag.takesValue then
        let attached := match rest with
          | [] => none
          | '=' :: value => some (String.ofList value)
          | value => some (String.ofList value)
        given.option flag attached
      else do
        let given ← given.switch flag
        shorts level given rest

/-- Takes a word. `trailing` says that words only follow. -/
def word (level : Level) (trailing : Bool) (given : Given) (arg : String) :
    Except ArgumentError Given :=
  if level.takesWords then do
    let given ← given.settle
    .ok { given with words := given.words ++ [arg] }
  else if level.subcommands.isEmpty || (trailing && level.subcommands.contains arg) then
    .error .unknownArgument
  else .error .invalidSubcommand

/-- Takes one argument that is neither a subcommand nor the mark behind which words only follow. -/
def argument (level : Level) (given : Given) (arg : String) : Except ArgumentError Given :=
  match arg.toList with
  | '-' :: '-' :: rest => given.long level rest
  | '-' :: c :: rest => given.shorts level (c :: rest)
  | _ =>
    match given.pending with
    | some (flag, none) => .ok { given with pending := some (flag, some arg) }
    | _ => given.word level false arg

/-- Takes the arguments of a level, up to a subcommand, which is returned with the rest. -/
def take (level : Level) (trailing : Bool) (given : Given) :
    List String → Except ArgumentError (Given × Option (String × List String))
  | [] => .ok (given, none)
  | arg :: rest =>
    if trailing then do
      let given ← given.word level true arg
      take level true given rest
    else if !given.awaitsValue && level.subcommands.contains arg then
      .ok (given, some (arg, rest))
    else if arg = "--" then take level true given rest
    else do
      let given ← given.argument level arg
      take level false given rest

end Given

/-- The options that say where the context comes from. -/
structure ContextFlags where
  file : Option String
  repo : String
  issue : Nat
  title : Option String
  teams : List String
  tasks : List String
  actor : Option String
deriving DecidableEq

structure Arguments where
  verbose : Nat
  stateDir : Option String
  context : ContextFlags
  subcommand : Option Subcommand
deriving DecidableEq

namespace Arguments

def separated (values : List String) : List String :=
  values.flatMap fun value => (Text.fields (· == ',') value.toList).map String.ofList

def subcommandOf (name : String) (given : Given) : Except ArgumentError Subcommand :=
  let format := if given.value? .format = some "json" then Format.json else .text
  match name with
  | "patterns" => .ok .patterns
  | "repl" => .ok .repl
  | _ =>
    if given.words.isEmpty then .error .missingRequiredArgument
    else if name = "parse" then .ok (.parse given.words format)
    else if name = "validate" then .ok (.validate given.words format)
    else .ok (.dispatch given.words format (given.has .strict))

/-- The answer to a request for help on something. -/
def helpOn : List String → ArgumentError
  | [] => .displayHelp
  | [name] => if Level.program.subcommands.contains name then .displayHelp else .invalidSubcommand
  | _ => .invalidSubcommand

/-- Reads a subcommand and its arguments. -/
def readSubcommand (name : String) (args : List String) : Except ArgumentError Subcommand :=
  if name = "help" then .error (helpOn args)
  else do
    let (given, _) ← Given.nothing.take (Level.ofSubcommand name) false args
    let given ← given.settle
    subcommandOf name given

/-- The directory for what is kept between conversations: as given, else from the environment. -/
def stateDirOf (given : Given) (lookUp : String → Option String) :
    Except ArgumentError (Option String) :=
  match given.value? .stateDir, lookUp "WAVE_STATE_DIR" with
  | some dir, _ => .ok (some dir)
  | none, none => .ok none
  | none, some dir =>
    match Flag.stateDir.fault? dir with
    | some fault => .error fault
    | none => .ok (some dir)

def read (lookUp : String → Option String) (args : List String) :
    Except ArgumentError Arguments := do
  let (given, next) ← Given.nothing.take .program false args
  let subcommand ← match next with
    | some (name, rest) => (readSubcommand name rest).map some
    | none => .ok none
  let given ← given.settle
  let stateDir ← stateDirOf given lookUp
  let issue := (given.value? .issue).bind fun v => Number.readUnsigned Number.wordLimit v.toList
  return {
    verbose := min (given.values .verbose).length 255
    stateDir
    context := {
      file := given.value? .context
      repo := (given.value? .repo).getD "local/waves"
      issue := issue.getD 1
      title := given.value? .title
      teams := separated (given.values .teams)
      tasks := separated (given.values .tasks)
      actor := given.value? .actor }
    subcommand }

/-- How the program is called. -/
def usage : String := "Usage: wavectl [OPTIONS] [COMMAND]"

def logLevel (arguments : Arguments) : String :=
  match arguments.verbose with
  | 0 => "WARN"
  | 1 => "INFO"
  | 2 => "DEBUG"
  | _ => "TRACE"

end Arguments

namespace ContextFlags

def toContext (flags : ContextFlags) : Context :=
  let teams := (flags.teams.filter fun t => !Text.isBlankText t).map fun t =>
    String.ofList (Roster.teamName t.toList)
  let tasks := (flags.tasks.map Text.trimmed).filter (!·.isEmpty)
  let context := ((Context.new flags.repo flags.issue).withTeams teams).withTasks tasks
  let context := flags.title.elim context context.withTitle
  flags.actor.elim context context.withActor

end ContextFlags

end TeamOrders.Console
