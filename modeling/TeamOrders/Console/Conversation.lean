import TeamOrders.Console.Text
import TeamOrders.Report.Markdown

/-!
# Conversations

A conversation answers line by line against one context. A line that starts with a slash is an
instruction to the program, any other is a comment to be answered.
-/

namespace TeamOrders.Console

/-- What a line of a conversation asks for. -/
inductive Utterance where
  | help (topic? : Option String)
  | context
  | patterns
  | parse (comment : String)
  | quit
  | unknown (what : String)
  | comment (text : String)
deriving DecidableEq

namespace Utterance

/-- The text behind the first blank, if there is any. -/
def argument? (s : List Char) : Option String :=
  match Text.cutAt ' ' s with
  | some (_, rest) =>
    let argument := Text.trim rest
    if argument.isEmpty then none else some (String.ofList argument)
  | none => none

def ofLine (line : String) : Utterance :=
  match Text.trim line.toList with
  | '/' :: rest =>
    let name := String.ofList (Text.lower (rest.takeWhile (· != ' ')))
    match name with
    | "help" | "h" | "?" => help (argument? rest)
    | "context" | "ctx" => context
    | "patterns" | "p" => patterns
    | "parse" =>
      match argument? rest with
      | some text => parse text
      | none => unknown "parse requires a comment"
    | "quit" | "q" | "exit" => quit
    | other => unknown other
  | text => comment (String.ofList text)

end Utterance

namespace Conversation

def greeting : String :=
  ended ["wavectl REPL v0.3.0", "Type a comment to dispatch it, /help for commands, /quit to exit",
    ""]

/-- What a person is asked for a line with. -/
def prompt : String := "wave> "

def farewell : String := ended ["Goodbye!"]

def endOfInput : String := ended ["^D"]

def helpText : String :=
  ended
    ["Commands:",
      "  /help [kind]     Show help, or templates for one command kind",
      "  /context         Show the loaded repository, wave, teams and tasks",
      "  /patterns        List every template and grammar",
      "  /parse <text>    Parse a comment without running it",
      "  /quit            Exit the REPL",
      "",
      "Anything else is dispatched as a comment, e.g. \"start wave 3 with teams 1-4\".",
      "Command kinds: " ++ listed (Help.entries.map (·.kind.name))]

/-- The help on a topic, which is the name of a kind or one of its keywords. -/
def topic? (topic : String) : Option HelpEntry :=
  let topic := String.ofList (Text.lower (Text.trim topic.toList))
  (Help.entries.find? fun entry => entry.kind.name == topic).or
    (Help.entries.find? fun entry => entry.keywords.contains topic)

/-- The answer to a line, or nothing if it ends the conversation. -/
def reply (dispatcher : Dispatcher) (context : Context) (now : Timestamp) :
    Utterance → Option String
  | .help none => some helpText
  | .help (some topic) =>
    some <| match topic? topic with
      | some entry => topicText entry
      | none => "No help for '" ++ topic ++ "'. Try /patterns for every command."
  | .context => some (contextText context)
  | .patterns => some patternsText
  | .parse text => some (readingText (Reading.ofComment dispatcher.settings context now text))
  | .quit => none
  | .unknown what => some ("Unknown command: " ++ what ++ ". Type /help")
  | .comment text => some (dispatcher.respond context now text).markdown

/-- What is printed for a line, or nothing if it ends the conversation. Blank lines are passed
over. -/
def answer (dispatcher : Dispatcher) (context : Context) (now : Timestamp) (line : String) :
    Option String :=
  if Text.isBlankText line then some ""
  else (reply dispatcher context now (Utterance.ofLine line)).map fun text =>
    String.ofList (Text.trimEndBy Text.isBlank text.toList) ++ "\n"

/-- What is printed before a line is read. -/
def question (asked : Bool) : String := if asked then prompt else ""

/-- What is printed for the lines of a conversation, up to its end. -/
def answers (asked : Bool) (dispatcher : Dispatcher) (context : Context) (now : Timestamp) :
    List String → String
  | [] => question asked ++ endOfInput
  | line :: rest =>
    match answer dispatcher context now line with
    | some text => question asked ++ text ++ answers asked dispatcher context now rest
    | none => question asked

/-- All that is printed in a conversation, in which a person may be asked for every line. -/
def transcript (asked : Bool) (dispatcher : Dispatcher) (context : Context) (now : Timestamp)
    (lines : List String) : String :=
  greeting ++ answers asked dispatcher context now lines ++ farewell

/-- A line without a carriage return at its end. -/
def withoutReturn (line : List Char) : List Char :=
  if line.getLast? = some '\r' then line.dropLast else line

/-- The lines of an input. A return is taken off a line that is ended, and nothing follows the last
line break. -/
def linesOf (input : String) : List String :=
  match (Text.fields (· == '\n') input.toList).reverse with
  | [] => []
  | last :: others =>
    let whole := others.reverse.map fun line => String.ofList (withoutReturn line)
    if last.isEmpty then whole else whole ++ [String.ofList last]

end Conversation

end TeamOrders.Console
