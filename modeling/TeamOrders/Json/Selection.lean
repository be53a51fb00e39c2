import TeamOrders.Json.Reader

/-!
# Reading selected members

A record is read from a text for the sake of the members that its reader knows. The values of all
others are passed over: they have to be well formed, but a number among them may be of any size, a
text may hold half of a surrogate pair, and collections may be nested to any depth.
-/

namespace TeamOrders.Json

/-- Passes over a number whose sign has been read. -/
def passNumber (s : List Char) : Option (List Char) := (readNumeral s).map Prod.snd

def passWord (word : String) (s : List Char) : Option (List Char) :=
  (readWord word .null s).map Prod.snd

/-- Passes over a text up to its closing quote. -/
def passText : List Char → Option (List Char)
  | [] => none
  | c :: rest =>
    if c = '"' then some rest
    else if c = '\\' then
      match rest with
      | 'u' :: a :: b :: c :: d :: rest =>
        if [a, b, c, d].all fun digit => (hexValue digit).isSome then passText rest else none
      | letter :: rest => if (unescape letter).isSome then passText rest else none
      | [] => none
    else if c.toNat < 0x20 then none
    else passText rest

mutual

/-- Passes over one value. The fuel bounds the number of steps. -/
def passValue (fuel : Nat) (s : List Char) : Option (List Char) :=
  match fuel with
  | 0 => none
  | fuel + 1 =>
    match skipBlanks s with
    | 'n' :: rest => passWord "ull" rest
    | 't' :: rest => passWord "rue" rest
    | 'f' :: rest => passWord "alse" rest
    | '"' :: rest => passText rest
    | '-' :: rest => passNumber rest
    | '[' :: rest =>
      match skipBlanks rest with
      | ']' :: rest => some rest
      | rest => passItems fuel rest
    | '\x7b' :: rest =>
      match skipBlanks rest with
      | '\x7d' :: rest => some rest
      | rest => passMembers fuel rest
    | rest => passNumber rest

def passItems (fuel : Nat) (s : List Char) : Option (List Char) :=
  match fuel with
  | 0 => none
  | fuel + 1 => do
    let rest ← passValue fuel s
    match skipBlanks rest with
    | ']' :: rest => some rest
    | ',' :: rest => passItems fuel rest
    | _ => none

def passMembers (fuel : Nat) (s : List Char) : Option (List Char) :=
  match fuel with
  | 0 => none
  | fuel + 1 =>
    match skipBlanks s with
    | '"' :: rest => do
      let rest ← passText rest
      match skipBlanks rest with
      | ':' :: rest =>
        let rest ← passValue fuel rest
        match skipBlanks rest with
        | '\x7d' :: rest => some rest
        | ',' :: rest => passMembers fuel rest
        | _ => none
      | _ => none
    | _ => none

end

/-- Reads a value if it is wanted, and passes over it otherwise. -/
def readWanted (fuel depth : Nat) (wanted : Bool) (s : List Char) :
    Option (Option Json × List Char) :=
  if wanted then (readValue fuel depth s).map fun (value, rest) => (some value, rest)
  else (passValue fuel s).map fun rest => (none, rest)

/-- Reads the members of an object up to its end, and keeps those with one of the names. -/
def readSelected (names : List String) (depth : Nat) :
    Nat → List Char → Option (List (String × Json) × List Char)
  | 0, _ => none
  | fuel + 1, s =>
    match skipBlanks s with
    | '"' :: rest => do
      let (name, rest) ← readText (rest.length + 1) [] rest
      match skipBlanks rest with
      | ':' :: rest =>
        let (value?, rest) ← readWanted fuel depth (names.contains name) rest
        let member := (value?.map fun value => (name, value)).toList
        match skipBlanks rest with
        | '\x7d' :: rest => some (member, rest)
        | ',' :: rest =>
          let (members, rest) ← readSelected names depth fuel rest
          some (member ++ members, rest)
        | _ => none
      | _ => none
    | _ => none

/-- Reads a text that holds one record and nothing else: an object, of which the members with these
names are kept, or any other value. -/
def readRecord (names : List String) (s : String) : Option Json :=
  match skipBlanks s.toList with
  | '\x7b' :: rest =>
    match skipBlanks rest with
    | '\x7d' :: _ => read s
    | rest => do
      let (members, rest) ← readSelected names 127 (2 * s.length + 2) rest
      if (skipBlanks rest).isEmpty then some (.object members) else none
  | _ => read s

end TeamOrders.Json
