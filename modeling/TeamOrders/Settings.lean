import TeamOrders.Number.Decimal
import TeamOrders.Table
import TeamOrders.Text.Lowercase
import TeamOrders.Text.Trim

/-!
# Settings

What can be tuned: how sure a reading must be, how many other readings are kept, whether near misses
are hinted at, which further words are understood, and when a comment counts as carried out. All can
be set by environment variables; a value that cannot be read leaves the default in place.
-/

namespace TeamOrders

/-- How comments are read. -/
structure Settings where
  threshold : Double
  maxAlternatives : Nat
  nearMisses : Bool
  vocabulary : Table String
deriving DecidableEq

/-- Why settings cannot be used. -/
inductive SettingsError where
  | thresholdOutside (threshold : Double)
  | emptySide (word : String)
deriving DecidableEq

def SettingsError.message : SettingsError → String
  | thresholdOutside threshold =>
    "invalid parser configuration: confidence threshold " ++ threshold.plain
      ++ " is outside [0, 1]"
  | emptySide word =>
    "invalid parser configuration: vocabulary entry '" ++ word ++ "' has an empty side"

namespace Settings

/-- The settings that hold unless others are given. -/
def default : Settings :=
  { threshold := Double.ofDecimal false 7 (-1), maxAlternatives := 3, nearMisses := true
    vocabulary := .empty }

instance : Inhabited Settings := ⟨default⟩

/-- Text in small letters. -/
def small (s : String) : String := String.ofList (Text.lower s.toList)

/-- Adds a word that is understood as another. -/
def withSynonym (settings : Settings) (word meaning : String) : Settings :=
  { settings with vocabulary := settings.vocabulary.insert (small word) (small meaning) }

def check (settings : Settings) : Except SettingsError Unit :=
  if !(Double.zero.atMost settings.threshold && settings.threshold.atMost .one) then
    .error (.thresholdOutside settings.threshold)
  else
    match settings.vocabulary.entries.find? fun (word, meaning) =>
      Text.isBlankText word || Text.isBlankText meaning with
    | some (word, _) => .error (.emptySide word)
    | none => .ok ()

/-- Reads `word=meaning` pairs separated by commas, passing over what is none. -/
def readVocabulary (raw : String) : List (String × String) :=
  (Text.fields (· == ',') raw.toList).filterMap fun pair =>
    match Text.cutAt '=' pair with
    | none => none
    | some (word, meaning) =>
      let word := Text.lower (Text.trim word)
      let meaning := Text.lower (Text.trim meaning)
      if word.isEmpty || meaning.isEmpty then none
      else some (String.ofList word, String.ofList meaning)

/-- Reads a switch. -/
def readSwitch (raw : String) : Option Bool :=
  match Text.asciiLowered (Text.trimmed raw) with
  | "1" | "true" | "yes" | "on" => some true
  | "0" | "false" | "no" | "off" => some false
  | _ => none

/-- The defaults, overridden by the variables of an environment. -/
def ofEnvironment (lookUp : String → Option String) : Settings :=
  let threshold := (lookUp "WAVE_CONFIDENCE_THRESHOLD").bind fun raw =>
    Double.read (Text.trim raw.toList)
  let maxAlternatives := (lookUp "WAVE_MAX_ALTERNATIVES").bind fun raw =>
    Number.readUnsigned Number.wordLimit (Text.trim raw.toList)
  let nearMisses := (lookUp "WAVE_FUZZY_MATCHING").bind readSwitch
  let vocabulary := ((lookUp "WAVE_VOCABULARY").map readVocabulary).getD []
  { threshold := threshold.getD default.threshold
    maxAlternatives := maxAlternatives.getD default.maxAlternatives
    nearMisses := nearMisses.getD default.nearMisses
    vocabulary := Table.ofList vocabulary }

end Settings

/-- When a comment counts as carried out. -/
inductive Policy where
  /-- At least one command succeeded. -/
  | any
  /-- There was a command, and every one succeeded. -/
  | all
deriving DecidableEq, Inhabited

namespace Policy

def name : Policy → String
  | any => "any"
  | all => "all"

/-- The policy is met by these numbers of commands. -/
def isMet (policy : Policy) (successful total : Nat) : Bool :=
  match policy with
  | any => 0 < successful
  | all => 0 < total && successful == total

/-- Reads a policy; the error names the word in small letters. -/
def read (raw : String) : Except String Policy :=
  match Text.asciiLowered (Text.trimmed raw) with
  | "any" | "any_succeeded" | "lenient" => .ok any
  | "all" | "all_succeeded" | "strict" => .ok all
  | other => .error ("unknown success policy: " ++ other)

/-- The default, overridden by a variable of the environment. -/
def ofEnvironment (lookUp : String → Option String) : Policy :=
  match (lookUp "WAVE_SUCCESS_POLICY").map read with
  | some (.ok policy) => policy
  | _ => any

end Policy

end TeamOrders
