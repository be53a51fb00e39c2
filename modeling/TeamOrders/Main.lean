import Std.Time.DateTime.Timestamp
import TeamOrders.Console.Program

/-!
# The command line

The outer layer: it fetches the environment, the files and the time that a run depends on, and prints
what the run comes to. A conversation is held line by line, so that every line is answered before the
next is read.
-/

namespace TeamOrders.Console

/-- The number of a system error, which some calls give with its sign turned. -/
def errorNumber (code : UInt32) : Nat := min code.toNat (0 - code).toNat

/-- The cause of a failed file operation. -/
def FileError.ofSystem (e : IO.Error) : FileError :=
  match e with
  | .noFileOrDirectory .. => .notFound
  | .alreadyExists .. => .alreadyThere
  | .permissionDenied .. => .denied
  | .invalidArgument _ code _ => if errorNumber code = 36 then .nameTooLong else .other (toString e)
  | .inappropriateType _ code _ =>
    if errorNumber code = 20 then .notDirectory
    else if errorNumber code = 21 then .isDirectory
    else .other (toString e)
  | e => .other (toString e)

def fetchFile (path : String) : IO (Except FileError String) := do
  try
    match String.fromUTF8? (← IO.FS.readBinFile path) with
    | some text => return .ok text
    | none => return .error (.other "stream did not contain valid UTF-8")
  catch e => return .error (FileError.ofSystem e)

/-- The variables with these names that are set. -/
def fetchVariables (names : List String) : IO Environment := do
  let mut env : Environment := []
  for name in names do
    if let some value ← IO.getEnv name then env := env ++ [(name, value)]
  return env

/-- The environment with what the settings file adds. -/
def fetchEnvironment : IO (Option Environment) := do
  match ← fetchFile settingsFile with
  | .ok file => return (← fetchVariables (consulted ++ Environment.namesIn file)).withFile? file
  | .error _ => return some (← fetchVariables consulted)

def fetchTime : IO Timestamp := do
  let nanos := (← Std.Time.Timestamp.now).toNanosecondsSinceUnixEpoch.val
  return ⟨nanos.fdiv 1000000000, (nanos.fmod 1000000000).toNat⟩

def createFolder (path : String) : IO (Except FileError Unit) := do
  try
    IO.FS.createDir path
    return .ok ()
  catch e => return .error (FileError.ofSystem e)

/-- The path leads to a folder: only then does something stand at its dot, where nothing can be
made. -/
def leadsToFolder (path : String) : IO Bool := do
  match ← createFolder (path ++ "/.") with
  | .error .alreadyThere => return true
  | _ => return false

def say (text : String) : IO Unit := do
  let output ← IO.getStdout
  output.putStr text
  output.flush

/-- Answers line by line up to the end of a conversation. -/
partial def converse (asked : Bool) (dispatcher : Dispatcher) (context : Context) : IO Unit := do
  let input ← IO.getStdin
  say (Conversation.question (asked || (← input.isTty)))
  let line ← input.getLine
  if line.isEmpty then say Conversation.endOfInput
  else
    let line := (Conversation.linesOf line).headD ""
    match Conversation.answer dispatcher context (← fetchTime) line with
    | some text =>
      say text
      converse asked dispatcher context
    | none => return

def fail (e : ProgramError) : IO UInt32 := do
  IO.eprintln ("Error: " ++ e.message)
  return 1

def runWith (env : Environment) (arguments : Arguments) : IO UInt32 := do
  let content ← match arguments.context.file with
    | some path => fetchFile path
    | none => pure (.error .notFound)
  match contextOf (fun _ => content) arguments.context with
  | .error e => fail e
  | .ok context =>
    match taskOf env arguments context (← fetchTime) with
    | .error e => fail e
    | .ok (.print text) =>
      say text
      return 0
    | .ok (.converse dispatcher context) =>
      let place := arguments.stateDir.getD (defaultStateDir env)
      match ← makeFolders createFolder leadsToFolder place with
      | .error e => fail (.stateDirectory e)
      | .ok () =>
        say Conversation.greeting
        converse (asksForLines env) dispatcher context
        say Conversation.farewell
        return 0

end TeamOrders.Console

open TeamOrders.Console in
def main (args : List String) : IO UInt32 := do
  let some env ← fetchEnvironment | return brokenOff.toUInt32
  match Arguments.read env.find? args with
  | .ok arguments => runWith env arguments
  | .error e =>
    if e.exitCode = 0 then say (Arguments.usage ++ "\n")
    else IO.eprintln ("error: " ++ e.name ++ "\n\n" ++ Arguments.usage)
    return e.exitCode.toUInt32
