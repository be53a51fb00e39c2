import TeamOrders.Comment.Normal
import TeamOrders.Comment.Segment
import TeamOrders.Context.Basic
import TeamOrders.Reading.Segment
import TeamOrders.Report.Outcome

/-!
# Reading a comment

A comment is brought into its normal form, cut into segments, and every segment is read by itself.
Segments that cannot be read are reported and do not disturb the others. Several commands are
wrapped into one batch.
-/

namespace TeamOrders

/-- The words of the settings, ready to be applied. -/
def Settings.words (settings : Settings) : Comment.Vocabulary :=
  Comment.Vocabulary.ofTable settings.vocabulary

namespace Reading

/-- What one segment adds to a reading. -/
structure Part where
  command? : Option Command
  error? : Option String
  warnings : List String

def Part.ofSegment (settings : Settings) (actor : String) (now : Timestamp)
    (segment : List Char) : Part :=
  match readSegment settings actor now segment with
  | .ok (command, notes) => ⟨some command, none, notes⟩
  | .error e => ⟨none, some e.message, [e.hint]⟩

/-- Several commands become one. -/
def wrap (actor : String) (now : Timestamp) (commands : List Command) : List Command :=
  if 1 < commands.length then [Command.ofMembers commands actor now] else commands

/-- The reading that the parts of a comment make up. -/
def ofParts (actor : String) (now : Timestamp) (parts : List Part) : Reading :=
  let commands := parts.filterMap (·.command?)
  { commands := wrap actor now commands
    errors := parts.filterMap (·.error?)
    warnings := parts.flatMap (·.warnings)
    milliseconds := .zero
    confidence := Double.mean (commands.map (·.confidence))
    ambiguity := Double.mean (commands.map fun c => Double.ofNat c.alternatives.length) }

def ofComment (settings : Settings) (context : Context) (now : Timestamp) (comment : String) :
    Reading :=
  let segments := Comment.segments (Comment.normalize settings.words comment.toList)
  if segments.isEmpty then failed [ReadingError.emptyInput.message]
  else
    let actor := context.sender
    ofParts actor now (segments.map (Part.ofSegment settings actor now))

end Reading

/-- Reads a text that holds one instruction, which is not cut into segments. -/
def readInstruction (settings : Settings) (context : Context) (now : Timestamp) (text : String) :
    Except ReadingError Command :=
  let segment := Comment.normalize settings.words text.toList
  if segment.isEmpty then .error .emptyInput
  else (readSegment settings context.sender now segment).map Prod.fst

end TeamOrders
