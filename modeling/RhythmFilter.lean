import RhythmFilter.Main
import RhythmFilter.Preferences.Store
import RhythmFilter.Session
import RhythmFilter.Proofs.ModFilter.Agreement
import RhythmFilter.Proofs.ModFilter.ExactLine
import RhythmFilter.Proofs.ModFilter.Membership
import RhythmFilter.Proofs.Query.Clauses
import RhythmFilter.Proofs.Query.Subject
import RhythmFilter.Proofs.ModFilter.Rendering
import RhythmFilter.Proofs.Query.ClauseText
import RhythmFilter.Proofs.Query.ReadBack
import RhythmFilter.Proofs.Session.Invariant
import RhythmFilter.Proofs.Command.Options
import RhythmFilter.Proofs.Command.Words
import RhythmFilter.Proofs.Json.Quoted
import RhythmFilter.Proofs.Json.ReadBack
import RhythmFilter.Proofs.Query.Shown
import RhythmFilter.Proofs.Command.Listing
import RhythmFilter.Proofs.Command.Lossless
import RhythmFilter.Proofs.Text.Decimal
import RhythmFilter.Proofs.Command.UserIds
import RhythmFilter.Proofs.Json.Compact
import RhythmFilter.Proofs.Json.Grammar
import RhythmFilter.Proofs.Command.Rendering
import RhythmFilter.Proofs.Command.Sorting
import RhythmFilter.Proofs.Mode.Naming
import RhythmFilter.Proofs.Preferences.Defaults
import RhythmFilter.Proofs.Preferences.Members
import RhythmFilter.Proofs.Command.Endings
import RhythmFilter.Proofs.Storage.Route
import RhythmFilter.Proofs.Storage.Growth
import RhythmFilter.Proofs.Storage.Writing
import RhythmFilter.Proofs.Preferences.Saving
import RhythmFilter.Proofs.Mode.Positions
import RhythmFilter.Proofs.Modifier.Delivered
import RhythmFilter.Proofs.Modifier.Kept
import RhythmFilter.Proofs.Query.Offending
import RhythmFilter.Proofs.Text.LetterCase
import RhythmFilter.Proofs.Query.EntryLists
import RhythmFilter.Proofs.Query.Layout
import RhythmFilter.Proofs.Query.RankLists
import RhythmFilter.Proofs.ModFilter.Layout
import RhythmFilter.Proofs.ModFilter.Patterns
import RhythmFilter.Proofs.Modifier.Spelling
