import TeamOrders.Text.Letter
import TeamOrders.Text.Trim

/-!
# Environments and their files

An environment gives values to variables. A file may add variables to it, one `NAME=value` a line,
but never changes one that is set. Values may be quoted, weakly with escapes or strongly without,
may span lines while a quote is open, and refer to other variables as `$name` or in braces. The first
line that cannot be read ends the file; what stands before it counts. A value that cannot be set ends
the run.
-/

namespace TeamOrders.Console

/-- The variables that are set. -/
abbrev Environment := List (String × String)

namespace Environment

def find? (env : Environment) (name : String) : Option String :=
  (List.find? (fun v => v.1 == name) env).map Prod.snd

/-- Where a scan for the end of a line stands. -/
inductive Scan where
  | plain
  | escaped
  | strong
  | strongEscaped
  | weak
  | weakEscaped
  | blank
  | comment
deriving DecidableEq

def Scan.step (state : Scan) (c : Char) : Scan :=
  match state with
  | blank =>
    if c = '#' then comment else if c = '\\' then escaped else if c = '"' then weak
    else if c = '\'' then strong else plain
  | escaped => plain
  | plain =>
    if Text.isBlank c && c != '\n' && c != '\r' then blank else if c = '\\' then escaped
    else if c = '"' then weak else if c = '\'' then strong else plain
  | weak => if c = '\\' then weakEscaped else if c = '"' then plain else weak
  | weakEscaped => weak
  | strong => if c = '\\' then strongEscaped else if c = '\'' then plain else strong
  | strongEscaped => strong
  | comment => comment

/-- Scans one line. A comment is cut off; the characters that are kept come with the last state. -/
def scanLine (state : Scan) : List Char → List Char × Scan
  | [] => ([], state)
  | c :: rest =>
    match state.step c with
    | .comment => ([], .comment)
    | next =>
      let (kept, last) := scanLine next rest
      (c :: kept, last)

/-- The text up to a line break, which is included, and the rest. -/
def splitLine : List Char → List Char × List Char
  | [] => ([], [])
  | c :: rest =>
    if c = '\n' then ([c], rest)
    else
      let (line, rest) := splitLine rest
      (c :: line, rest)

/-- A line without the line break at its end. -/
def withoutBreak (line : List Char) : List Char :=
  if line.getLast? = some '\n' then
    let line := line.dropLast
    if line.getLast? = some '\r' then line.dropLast else line
  else line

/-- The next logical line of a file, which goes on while a quote is open, and the rest. At the end of
the file there is none; a line that is still open there is an error. The fuel bounds the number of
lines. -/
def nextLine : Nat → Scan → List Char → List Char → Option (Option (List Char × List Char))
  | 0, _, _, _ => none
  | _ + 1, state, _, [] => if state = .plain then some none else none
  | fuel + 1, state, before, s =>
    let (line, rest) := splitLine s
    if (Text.trimStartBy Text.isBlank (before ++ line)).head? = some '#' then some (some ([], rest))
    else
      let (kept, last) := scanLine state line
      match last with
      | .plain => some (some (withoutBreak (before ++ kept), rest))
      | .comment => some (some (before ++ kept, rest))
      | open' => nextLine fuel open' (before ++ kept) rest

/-- What is known while a file is read: the environment, and what the file has set so far. -/
structure Known where
  env : Environment
  fromFile : Environment

/-- The value that a reference stands for. -/
def Known.refer (known : Known) (name : List Char) : List Char :=
  let name := String.ofList name
  (((known.env.find? name).or (known.fromFile.find? name)).getD "").toList

/-- How far a reference to a variable has been read. -/
inductive Reference where
  | none
  | bare (name : List Char)
  | braced (name : List Char)

/-- Where the reading of a value stands: the open quote, an escape, a reference, or behind the
end. -/
structure ValueState where
  strong : Bool
  weak : Bool
  escaped : Bool
  atEnd : Bool
  reference : Reference
  value : List Char

namespace ValueState

def start : ValueState := ⟨false, false, false, false, .none, []⟩

/-- Adds characters to the value, which is kept in reverse. -/
def push (state : ValueState) (s : List Char) : ValueState :=
  { state with value := s.reverse ++ state.value }

/-- Takes a character behind an escape mark. -/
def unescape (state : ValueState) (c : Char) : Option ValueState :=
  let state := { state with escaped := false }
  if c = '\\' || c = '\'' || c = '"' || c = '$' || c = ' ' then some (state.push [c])
  else if c = 'n' then some (state.push ['\n'])
  else none

/-- Takes a character outside quotes, references and escapes, or inside a weak quote. -/
def plain (state : ValueState) (c : Char) : ValueState :=
  if c = '$' then { state with reference := .bare [] }
  else if state.weak then
    if c = '"' then { state with weak := false }
    else if c = '\\' then { state with escaped := true }
    else state.push [c]
  else if c = '\'' then { state with strong := true }
  else if c = '"' then { state with weak := true }
  else if c = '\\' then { state with escaped := true }
  else if c = ' ' || c = '\t' then { state with atEnd := true }
  else state.push [c]

/-- Takes a character of a reference; names are kept in reverse. -/
def refer (known : Known) (state : ValueState) (c : Char) : ValueState :=
  match state.reference with
  | .none => state
  | .bare name =>
    if Text.isAlphanumeric c then { state with reference := .bare (c :: name) }
    else if c = '\x7b' && name.isEmpty then { state with reference := .braced [] }
    else
      let state := state.push (known.refer name.reverse)
      if c = '$' then { state with reference := .bare [] }
      else { state with reference := .none }.push [c]
  | .braced name =>
    if Text.isAlphanumeric c then { state with reference := .braced (c :: name) }
    else if c = '\x7d' then { state with reference := .none }.push (known.refer name.reverse)
    else { state with reference := .braced (c :: name) }

def isReferring (state : ValueState) : Bool :=
  match state.reference with
  | .none => false
  | _ => true

end ValueState

def readValue (known : Known) (state : ValueState) : List Char → Option (List Char)
  | [] =>
    match state.reference with
    | .braced _ => none
    | .bare name =>
      if state.strong || state.weak then none
      else some (state.push (known.refer name.reverse)).value.reverse
    | .none =>
      if state.strong || state.weak then none
      else some (state.push (known.refer [])).value.reverse
  | c :: rest =>
    if state.atEnd then
      if c = ' ' || c = '\t' then readValue known state rest
      else if c = '#' then readValue known state []
      else none
    else if state.escaped then
      match state.unescape c with
      | some state => readValue known state rest
      | none => none
    else if state.strong then
      if c = '\'' then readValue known { state with strong := false } rest
      else readValue known (state.push [c]) rest
    else if state.isReferring then readValue known (state.refer known c) rest
    else readValue known (state.plain c) rest

def skip (s : List Char) : List Char := Text.trimStartBy Text.isBlank s

def readName (s : List Char) : Option (List Char × List Char) :=
  match s with
  | c :: _ =>
    if c.isAlpha || c == '_' then
      let inName := fun c : Char => c.isAlphanum || c == '_' || c == '.'
      some (s.takeWhile inName, s.dropWhile inName)
    else none
  | [] => none

def readEquals : List Char → Option (List Char)
  | '=' :: rest => some rest
  | _ => none

/-- Reads the name of a variable up to its value, where `export` may stand in front. -/
def readAssignment (s : List Char) : Option (List Char × List Char) := do
  let (name, rest) ← readName s
  let rest := skip rest
  if name = "export".toList then
    match readEquals rest with
    | some rest => some (name, rest)
    | none =>
      let (name, rest) ← readName rest
      let rest ← readEquals (skip rest)
      some (name, rest)
  else
    let rest ← readEquals rest
    some (name, rest)

/-- Reads a line: an error, nothing, or a variable, which may be given without a value. -/
def readLine (known : Known) (line : List Char) : Option (Option (String × Option String)) :=
  let line := skip (Text.trimEndBy Text.isBlank line)
  if line.isEmpty || line.head? = some '#' then some none
  else do
    let (name, rest) ← readAssignment line
    let rest := skip rest
    let name := String.ofList name
    if rest.isEmpty || rest.head? = some '#' then some (some (name, none))
    else
      let value ← readValue known .start rest
      some (some (name, some (String.ofList value)))

/-- Sets a variable that is not set. A value that holds the null character cannot be set. -/
def set? (env : Environment) (name value : String) : Option Environment :=
  if (env.find? name).isSome then some env
  else if value.toList.contains '\x00' then none
  else some (env ++ [(name, value)])

/-- Adds the variables of a file, unless one of them cannot be set. The fuel bounds the number of
lines. -/
def addLines : Nat → Known → List Char → Option Environment
  | 0, known, _ => some known.env
  | fuel + 1, known, s =>
    match nextLine (s.length + 1) .plain [] s with
    | none | some none => some known.env
    | some (some (line, rest)) =>
      match readLine known line with
      | none => some known.env
      | some none => addLines fuel known rest
      | some (some (name, value?)) =>
        let fromFile := match value? with
          | some value => (name, value) :: known.fromFile
          | none => known.fromFile.filter fun v => v.1 != name
        match known.env.set? name (value?.getD "") with
        | some env => addLines fuel ⟨env, fromFile⟩ rest
        | none => none

/-- The environment with the variables of a file that are not set in it; there is none if one of them
cannot be set. -/
def withFile? (env : Environment) (file : String) : Option Environment :=
  let s := match file.toList with
    | '\ufeff' :: rest => rest
    | s => s
  addLines (s.length + 1) ⟨env, []⟩ s

/-- The words of a file that may name variables, be it to set them or to refer to them. -/
def namesIn (file : String) : List String :=
  let words (inWord : Char → Bool) : List String :=
    ((Text.fields (fun c => !inWord c) file.toList).filter (!·.isEmpty)).map String.ofList
  (words Text.isAlphanumeric ++ words fun c => Text.isAlphanumeric c || c == '_' || c == '.').eraseDups

end Environment

end TeamOrders.Console
