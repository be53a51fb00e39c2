import TeamOrders.Main
import TeamOrders.Proofs.Dispatch.Account
import TeamOrders.Proofs.Dispatch.KnownTeams
import TeamOrders.Proofs.Comment.Junction
import TeamOrders.Proofs.Comment.Segments
import TeamOrders.Proofs.Dispatch.Stamps
import TeamOrders.Proofs.Dispatch.Independence
import TeamOrders.Proofs.Phrase.Preference
import TeamOrders.Proofs.Sentence.Clean
import TeamOrders.Proofs.Sentence.Normal
import TeamOrders.Proofs.Sentence.ListPattern
import TeamOrders.Proofs.Number.Numeral
import TeamOrders.Proofs.Sentence.Sentence
import TeamOrders.Proofs.Sentence.Phrases
import TeamOrders.Proofs.Sentence.Rivals
import TeamOrders.Proofs.Sentence.Meant
import TeamOrders.Proofs.Sentence.Understood
import TeamOrders.Proofs.Dispatch.Strictness
import TeamOrders.Proofs.Dispatch.Advice
import TeamOrders.Proofs.Dispatch.Batch
import TeamOrders.Proofs.Timestamp.Calendar
import TeamOrders.Proofs.Timestamp.Text
import TeamOrders.Proofs.Json.Faithful
import TeamOrders.Proofs.Json.Records
import TeamOrders.Proofs.Format.Command
import TeamOrders.Proofs.Format.Report
import TeamOrders.Proofs.Dispatch.OneLine
import TeamOrders.Proofs.Reading.Tidy
import TeamOrders.Proofs.Roster.Agreement
import TeamOrders.Proofs.Dispatch.SmallTeams
import TeamOrders.Proofs.Dispatch.Shares
import TeamOrders.Proofs.Reading.Chosen
import TeamOrders.Proofs.Reading.Instruction
import TeamOrders.Proofs.Distribution.Unweighted
import TeamOrders.Proofs.Reading.StatedBound
import TeamOrders.Proofs.Validation.Faults
import TeamOrders.Proofs.Comment.Canonical
import TeamOrders.Proofs.Comment.Cover
import TeamOrders.Proofs.Reading.TeamlessLists
import TeamOrders.Proofs.Spelling.Suggestions
import TeamOrders.Proofs.Roster.Ranges
import TeamOrders.Proofs.Sentence.Blocks
import TeamOrders.Proofs.Comment.QuotesInPlace
import TeamOrders.Proofs.Comment.WholeWords
import TeamOrders.Proofs.Help
