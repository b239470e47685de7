import TypedQuery.Text.Space
import TypedQuery.Text.Name
import TypedQuery.Text.DecimalDigit
import TypedQuery.Text.Quoted
import TypedQuery.Number.Numeral
import TypedQuery.Number.Shortest
import TypedQuery.Table
import TypedQuery.Value.Literal
import TypedQuery.Value.Supplied
import TypedQuery.Literal.Reading
import TypedQuery.Header
import TypedQuery.Body
import TypedQuery.Rendering.Basic
import TypedQuery.Arguments
import TypedQuery.Report
import TypedQuery.Journal
import TypedQuery.Proofs.Agreement
import TypedQuery.Proofs.Shape
import TypedQuery.Proofs.Typing
import TypedQuery.Proofs.Keys
import TypedQuery.Proofs.Template
import TypedQuery.Proofs.NamedFilling
import TypedQuery.Proofs.Automaton
import TypedQuery.Proofs.Splitting
import TypedQuery.Proofs.HeaderLines
import TypedQuery.Proofs.Stability
import TypedQuery.Proofs.PrintedHeader
import TypedQuery.Proofs.Soundness
import TypedQuery.Proofs.Resolution
import TypedQuery.Proofs.ArgumentBinding
import TypedQuery.Proofs.Renaming
import TypedQuery.Proofs.Reordering
import TypedQuery.Proofs.FirstFault
import TypedQuery.Proofs.LineEndings
import TypedQuery.Proofs.Gaps
import TypedQuery.Proofs.DeclarationGrammar
import TypedQuery.Proofs.LiteralOffsets
import TypedQuery.Proofs.ReferenceSpans
import TypedQuery.Proofs.FaultyLines
import TypedQuery.Proofs.StrictReading
import TypedQuery.Proofs.NumberLiterals
import TypedQuery.Proofs.KeyAllocation
import TypedQuery.Proofs.PlaceholderReading
import TypedQuery.Proofs.Misreading
import TypedQuery.Proofs.Normalization
import TypedQuery.Proofs.LiteralFaults
import TypedQuery.Proofs.NumberReaders
import TypedQuery.Proofs.ArgumentOrder
import TypedQuery.Proofs.KeySearch
import TypedQuery.Proofs.PlainData
import TypedQuery.Proofs.OneLineReports
