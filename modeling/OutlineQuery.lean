import OutlineQuery.Main
import OutlineQuery.Outline.Handle
import OutlineQuery.Proofs.Coherence
import OutlineQuery.Proofs.Growth
import OutlineQuery.Proofs.Discipline
import OutlineQuery.Proofs.Lexemes
import OutlineQuery.Proofs.Productions
import OutlineQuery.Proofs.Backtracking
import OutlineQuery.Proofs.Layout
import OutlineQuery.Proofs.Mentions
import OutlineQuery.Proofs.Telling
import OutlineQuery.Proofs.TokenStory
import OutlineQuery.Proofs.Reading
import OutlineQuery.Proofs.Scanning
import OutlineQuery.Proofs.ReadingBack
import OutlineQuery.Proofs.RoundTrip
import OutlineQuery.Proofs.Yielding
import OutlineQuery.Proofs.Ancestry
import OutlineQuery.Proofs.DocumentOrder
import OutlineQuery.Proofs.Indexing
import OutlineQuery.Proofs.Axes
import OutlineQuery.Proofs.Editing
import OutlineQuery.Proofs.Traversal
import OutlineQuery.Proofs.Selection
import OutlineQuery.Proofs.InverseAxes
import OutlineQuery.Proofs.Composition
import OutlineQuery.Proofs.AbsolutePaths
import OutlineQuery.Proofs.Renumbering
import OutlineQuery.Proofs.CallDepth
import OutlineQuery.Proofs.Returning
import OutlineQuery.Proofs.Parsed
import OutlineQuery.Proofs.NestingLimit
import OutlineQuery.Proofs.Uncovered
import OutlineQuery.Proofs.Coverage
import OutlineQuery.Proofs.Parentheses
import OutlineQuery.Proofs.Embedding
import OutlineQuery.Proofs.InContext
import OutlineQuery.Proofs.StringsInContext
import OutlineQuery.Proofs.Alongside
import OutlineQuery.Proofs.Joining
import OutlineQuery.Proofs.OuterBlanks
import OutlineQuery.Proofs.FailureReports
import OutlineQuery.Proofs.LetterCase
import OutlineQuery.Proofs.Outcomes
import OutlineQuery.Proofs.Leading
import OutlineQuery.Proofs.Groups
import OutlineQuery.Proofs.JoiningWords
import OutlineQuery.Proofs.WordsAsNames
import OutlineQuery.Proofs.Support
import OutlineQuery.Proofs.Questions
import OutlineQuery.Proofs.Rearranging
import OutlineQuery.Proofs.JsonReading
import OutlineQuery.Proofs.Agreement
import OutlineQuery.Proofs.OutsideStrings
import OutlineQuery.Proofs.SlashGap
import OutlineQuery.Proofs.SlashGapInPaths
import OutlineQuery.Proofs.PathSeparators
import OutlineQuery.Proofs.Slices
import OutlineQuery.Proofs.OperatorChains
import OutlineQuery.Proofs.Tracking
import OutlineQuery.Proofs.Advancing
import OutlineQuery.Proofs.Progress
import OutlineQuery.Proofs.SingleStep
import OutlineQuery.Proofs.RedundantParentheses
import OutlineQuery.Proofs.ImpliedText
import OutlineQuery.Proofs.LoneStrings
import OutlineQuery.Proofs.Quoting
import OutlineQuery.Proofs.SearchWords
import OutlineQuery.Proofs.JoinedStrings
import OutlineQuery.Proofs.SliceNumbers
import OutlineQuery.Proofs.Underlining
import OutlineQuery.Proofs.CursorHistory
import OutlineQuery.Proofs.LongestMatch
import OutlineQuery.Proofs.RangeLookup
import OutlineQuery.Proofs.Keywords
