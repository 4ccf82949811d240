import ThreeAddress.Main
import ThreeAddress.Proofs.Grammar
import ThreeAddress.Proofs.Lexeme
import ThreeAddress.Proofs.Semantics
import ThreeAddress.Proofs.Emission
import ThreeAddress.Proofs.Spelling
import ThreeAddress.Proofs.Simulation
import ThreeAddress.Proofs.Symbolic
import ThreeAddress.Proofs.Initialization
import ThreeAddress.Proofs.Lines
import ThreeAddress.Proofs.LongestMatch
import ThreeAddress.Proofs.Operands
import ThreeAddress.Proofs.Listing
import ThreeAddress.Proofs.Readers
import ThreeAddress.Proofs.Concatenation
import ThreeAddress.Proofs.Printing
import ThreeAddress.Proofs.RelatedRuns
import ThreeAddress.Proofs.Reconstruction
import ThreeAddress.Proofs.SourceText
import ThreeAddress.Proofs.Lookahead
import ThreeAddress.Proofs.Resumption
import ThreeAddress.Proofs.Session
import ThreeAddress.Proofs.Reports
import ThreeAddress.Proofs.Layout
import ThreeAddress.Proofs.RecordedValues
import ThreeAddress.Proofs.Renaming
import ThreeAddress.Proofs.FirstFault
import ThreeAddress.Proofs.Conservation
import ThreeAddress.Proofs.PipedInput
import ThreeAddress.Proofs.LogRecords
import ThreeAddress.Proofs.InPlace
import ThreeAddress.Proofs.Temporaries
import ThreeAddress.Proofs.Spacing
import ThreeAddress.Proofs.TreeText
import ThreeAddress.Proofs.ListingText
import ThreeAddress.Proofs.Literals
import ThreeAddress.Proofs.Matchers
import ThreeAddress.Proofs.ByteScan
