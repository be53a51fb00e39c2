import TeamOrders.Console.Arguments
import TeamOrders.Console.Conversation
import TeamOrders.Console.Environment
import TeamOrders.Console.Folder
import TeamOrders.Context.Format

/-!
# The program

A run of the program, as a function of its arguments, its environment, the files it can read and the
lines it is given. It reads the settings file beside it, then its arguments, then the context, and
only then looks at the settings that a subcommand needs.
-/

namespace TeamOrders.Console

/-- Why a run fails. -/
inductive ProgramError where
  | unreadableContext (path : String) (error : FileError)
  | invalidContext (path : String)
  | settings (error : SettingsError)
  | stateDirectory (error : FileError)
deriving DecidableEq

def ProgramError.message : ProgramError → String
  | unreadableContext path error =>
    "Failed to read context file " ++ path ++ ": " ++ error.message
  | invalidContext path => "Invalid context file " ++ path
  | settings error => Subcommand.settingsMessage error
  | stateDirectory error => error.message

/-- The file that adds to the environment. -/
def settingsFile : String := ".env.local"

def contextOfFile (path : String) (content : Except FileError String) :
    Except ProgramError Context :=
  match content with
  | .error e => .error (.unreadableContext path e)
  | .ok raw =>
    match Context.ofText? raw with
    | some context => .ok context
    | none => .error (.invalidContext path)

def contextOf (fileText : String → Except FileError String) (flags : ContextFlags) :
    Except ProgramError Context :=
  match flags.file with
  | some path => contextOfFile path (fileText path)
  | none => .ok flags.toContext

/-- What a run comes to before any line is read: a text, or a conversation. -/
inductive Task where
  | print (text : String)
  | converse (dispatcher : Dispatcher) (context : Context)

/-- What the arguments ask for. -/
def taskOf (env : Environment) (arguments : Arguments) (context : Context) (now : Timestamp) :
    Except ProgramError Task :=
  let settings := Settings.ofEnvironment env.find?
  let policy := Policy.ofEnvironment env.find?
  match arguments.subcommand with
  | none | some .repl =>
    match Dispatcher.new settings policy with
    | .ok dispatcher => .ok (.converse dispatcher context)
    | .error e => .error (.settings e)
  | some subcommand =>
    match subcommand.run settings policy context now with
    | .ok text => .ok (.print text)
    | .error e => .error (.settings e)

/-- The variables that the program looks at. -/
def consulted : List String :=
  ["WAVE_CONFIDENCE_THRESHOLD", "WAVE_MAX_ALTERNATIVES", "WAVE_FUZZY_MATCHING", "WAVE_VOCABULARY",
    "WAVE_SUCCESS_POLICY", "WAVE_STATE_DIR", "HOME", "TERM"]

/-- The directory for what is kept between conversations, unless another is given. -/
def defaultStateDir (env : Environment) : String :=
  match env.find? "HOME" with
  | some home => home ++ "/.wave-commander"
  | none => ".wave-commander"

/-- Kinds of terminals on which a line cannot be edited. On them a conversation asks for every line,
wherever the lines come from. -/
def plainTerminals : List String := ["dumb", "cons25", "emacs"]

/-- The terminal is of a kind on which every line is asked for. -/
def asksForLines (env : Environment) : Bool :=
  match env.find? "TERM" with
  | some kind => plainTerminals.any (Text.sameIgnoringCase kind)
  | none => false

/-- Everything that a run depends on. The input can also stand among the files, at the places of
`inputPlaces`; who reads it there leaves nothing of it. -/
structure World where
  args : List String
  env : Environment
  input : String
  disk : Disk
  inputPlaces : List Place
  now : Timestamp

/-- How a run ends: what has been printed, and an error or refused arguments. -/
structure Ending where
  exitCode : Nat
  output : String
  error? : Option ProgramError

/-- The exit code of a run that cannot set up its environment. -/
def brokenOff : Nat := 101

namespace World

/-- The environment with what the settings file adds. -/
def fullEnv? (world : World) : Option Environment :=
  match world.disk.fileText settingsFile with
  | .ok file => world.env.withFile? file
  | .error _ => some world.env

/-- The path leads to the input. -/
def isInput (world : World) (path : String) : Bool :=
  match world.disk.follow path with
  | .ok place => world.inputPlaces.contains place
  | .error _ => false

/-- The lines that a conversation is given: none when the context has been read from the input. -/
def lines (world : World) (flags : ContextFlags) : List String :=
  if flags.file.any world.isInput then [] else Conversation.linesOf world.input

/-- A run that has read its arguments. -/
def answer (world : World) (env : Environment) (arguments : Arguments) :
    Except ProgramError String := do
  let context ← contextOf world.disk.fileText arguments.context
  match ← taskOf env arguments context world.now with
  | .print text => return text
  | .converse dispatcher context =>
    match world.disk.makeFolders (arguments.stateDir.getD (defaultStateDir env)) with
    | .error e => .error (.stateDirectory e)
    | .ok _ =>
      return Conversation.transcript (asksForLines env) dispatcher context world.now
        (world.lines arguments.context)

/-- A run of the program. -/
def run (world : World) : Ending :=
  match world.fullEnv? with
  | none => ⟨brokenOff, "", none⟩
  | some env =>
    match Arguments.read env.find? world.args with
    | .error e => ⟨e.exitCode, "", none⟩
    | .ok arguments =>
      match world.answer env arguments with
      | .ok text => ⟨0, text, none⟩
      | .error e => ⟨1, "", some e⟩

end World

end TeamOrders.Console
