import Concordance.Analysis.Analyzer
import Concordance.Analysis.Filter
import Concordance.Analysis.Stem
import Concordance.Analysis.Token
import Concordance.Binary.Double
import Concordance.Binary.Format
import Concordance.Binary.Single
import Concordance.Bytes
import Concordance.Decimal.Notation
import Concordance.Decimal.Reader
import Concordance.Decimal.Shortest
import Concordance.DocId
import Concordance.Engine.Basic
import Concordance.Engine.Flush
import Concordance.Error
import Concordance.Json.Basic
import Concordance.Json.Number
import Concordance.Json.Printer
import Concordance.Json.Reader
import Concordance.OrderedMap
import Concordance.Positional
import Concordance.PostingList
import Concordance.Query.Basic
import Concordance.Query.Display
import Concordance.Query.Lexeme
import Concordance.Query.Normal
import Concordance.Query.Parser
import Concordance.Record.Basic
import Concordance.Record.Kinds
import Concordance.RecordFile.Basic
import Concordance.RecordFile.Change
import Concordance.RecordFile.Search
import Concordance.RecordFile.Snapshot
import Concordance.RecordFile.StateMark
import Concordance.Schema
import Concordance.Search.Evaluate
import Concordance.Search.Hit
import Concordance.Search.ResultSet
import Concordance.Search.Scoring
import Concordance.Store.Basic
import Concordance.Store.Change
import Concordance.Store.Lookup
import Concordance.Store.Session
import Concordance.Text.Case
import Concordance.Text.Letters
import Concordance.Text.Marks
import Concordance.Text.Ranges
import Concordance.Text.WordBreak
import Concordance.Text.Words
import Concordance.Typo.Alphabet
import Concordance.Typo.Automaton
import Concordance.Typo.Budget
import Concordance.Typo.EditDistance
import Concordance.Typo.StateSet
import Concordance.Value
import Concordance.Proofs.Encoding
import Concordance.Proofs.Digits
import Concordance.Proofs.DocIds
import Concordance.Proofs.Json.Numerals
import Concordance.Proofs.Binary.Rounding
import Concordance.Proofs.Json.Doubles
import Concordance.Proofs.Json.Objects
import Concordance.Proofs.Record.Lines
import Concordance.Proofs.OrderedMaps
import Concordance.Proofs.Record.Codec
import Concordance.Proofs.ByteOrder
import Concordance.Proofs.RecordFile.Table
import Concordance.Proofs.RecordFile.Layout
import Concordance.Proofs.RecordFile.Search
import Concordance.Proofs.Operations
import Concordance.Proofs.RecordFile.Lookup
import Concordance.Proofs.RecordFile.EvenLines
import Concordance.Proofs.RecordFile.Change
import Concordance.Proofs.RecordFile.Refinement
import Concordance.Proofs.PostingLists
import Concordance.Proofs.Typo.StateSets
import Concordance.Proofs.Typo.States
import Concordance.Proofs.RecordFile.StateMarks
import Concordance.Proofs.RecordFile.Postings
import Concordance.Proofs.RecordFile.SavedStates
import Concordance.Proofs.Schemas
import Concordance.Proofs.Store.Files
import Concordance.Proofs.Store.Sessions
import Concordance.Proofs.Store.Changes
import Concordance.Proofs.Engine.Flushing
import Concordance.Proofs.Store.Directories
import Concordance.Proofs.Engine.TypoStates
import Concordance.Proofs.Engine.Replacing
import Concordance.Proofs.Engine.Inversion
import Concordance.Proofs.Typo.Levenshtein
import Concordance.Proofs.Typo.Rows
import Concordance.Proofs.Typo.Candidates
import Concordance.Proofs.Engine.TypoLookup
import Concordance.Proofs.Search.ResultSets
import Concordance.Proofs.Search.Evaluation
import Concordance.Proofs.Search.Conjunctions
import Concordance.Proofs.Search.Failures
import Concordance.Proofs.Search.Disjunctions
import Concordance.Proofs.Search.Evidence
import Concordance.Proofs.Search.Ranking
import Concordance.Proofs.Query.RoundTrip
import Concordance.Proofs.Engine.FreeIds
import Concordance.Proofs.Engine.UniqueValues
import Concordance.Proofs.Engine.Tasks
import Concordance.Proofs.Engine.Batches
import Concordance.Proofs.Engine.Rejections
import Concordance.Proofs.Engine.FirstFree
import Concordance.Proofs.RecordFile.PrefixScan
import Concordance.Proofs.Store.Triples
import Concordance.Proofs.Store.Untouched
import Concordance.Proofs.Engine.Searching
import Concordance.Proofs.Store.Steps
import Concordance.Proofs.Store.Undoing
import Concordance.Proofs.RecordFile.LineLayout
import Concordance.Proofs.RecordFile.EvenStates
import Concordance.Proofs.Store.Closing
import Concordance.Proofs.Engine.Calls
import Concordance.Proofs.Store.Pairs
import Concordance.Proofs.Engine.Generators
import Concordance.Proofs.RecordFile.Readers
import Concordance.Proofs.RecordFile.Arithmetic
import Concordance.Proofs.Typo.Deltas
import Concordance.Proofs.Typo.Reachability
import Concordance.Proofs.Analysis.Terms
import Concordance.Proofs.Engine.Phrases
import Concordance.Proofs.Search.Repetitions
import Concordance.Proofs.Search.Exclusions
import Concordance.Proofs.Query.Lexemes
import Concordance.Proofs.Query.Shapes
import Concordance.Proofs.Search.Justifications
import Concordance.Proofs.Query.Parentheses
import Concordance.Proofs.Query.NormalForms
import Concordance.Proofs.Search.Places
import Concordance.Proofs.Store.Keys
import Concordance.Proofs.Typo.Numbering
import Concordance.Proofs.RecordFile.Unions
import Concordance.Proofs.Record.Patterns
