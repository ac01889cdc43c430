import Disclosure.Main
import Disclosure.Proofs.Acceptance
import Disclosure.Proofs.Accord
import Disclosure.Proofs.Account
import Disclosure.Proofs.Alignment
import Disclosure.Proofs.AnsweredRuns
import Disclosure.Proofs.Choosable
import Disclosure.Proofs.Colours
import Disclosure.Proofs.Denotation
import Disclosure.Proofs.ExactAnswers
import Disclosure.Proofs.Explained
import Disclosure.Proofs.FirstOccurrences
import Disclosure.Proofs.Grouped
import Disclosure.Proofs.Growth
import Disclosure.Proofs.IdAlphabet
import Disclosure.Proofs.Ignored
import Disclosure.Proofs.Inquiries
import Disclosure.Proofs.JsonRequest
import Disclosure.Proofs.JsonText
import Disclosure.Proofs.JsonWriter
import Disclosure.Proofs.Knots
import Disclosure.Proofs.LoadFailures
import Disclosure.Proofs.Lookups
import Disclosure.Proofs.OptionalSets
import Disclosure.Proofs.Outputs
import Disclosure.Proofs.PlainData
import Disclosure.Proofs.Rearrangement
import Disclosure.Proofs.Referenced
import Disclosure.Proofs.Rejection
import Disclosure.Proofs.Renaming
import Disclosure.Proofs.Resolved
import Disclosure.Proofs.RoundTrip
import Disclosure.Proofs.Runs
import Disclosure.Proofs.SameQueries
import Disclosure.Proofs.SelfContained
import Disclosure.Proofs.Sessions
import Disclosure.Proofs.ShownTypes
import Disclosure.Proofs.Spelling
import Disclosure.Proofs.StepByStep
import Disclosure.Proofs.Supported
import Disclosure.Proofs.Switches
import Disclosure.Proofs.Table
import Disclosure.Proofs.TypedAnswers
import Disclosure.Proofs.Unambiguous
import Disclosure.Proofs.Ungrouped
import Disclosure.Proofs.WalletEntries
import Disclosure.Proofs.Withdrawal
import Disclosure.Request.Writer
