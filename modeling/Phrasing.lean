import Phrasing.Expansion.Session
import Phrasing.Files.Tree
import Phrasing.Main
import Phrasing.Text.Splice
import Phrasing.Proofs.Grammar
import Phrasing.Proofs.Precedence
import Phrasing.Proofs.Recursion
import Phrasing.Proofs.Holes
import Phrasing.Proofs.Iteration
import Phrasing.Proofs.Denotation
import Phrasing.Proofs.Sentences
import Phrasing.Proofs.Conservation
import Phrasing.Proofs.Ledger
import Phrasing.Proofs.Lockstep
import Phrasing.Proofs.Enumeration
import Phrasing.Proofs.References
import Phrasing.Proofs.Substitution
import Phrasing.Proofs.Cycles
import Phrasing.Proofs.Provenance
import Phrasing.Proofs.Undefined
import Phrasing.Proofs.Frames
import Phrasing.Proofs.Opacity
import Phrasing.Proofs.Assignments
import Phrasing.Proofs.Commands
import Phrasing.Proofs.Sessions
import Phrasing.Proofs.Reports
import Phrasing.Proofs.SlotSearch
import Phrasing.Proofs.Lookups
import Phrasing.Proofs.LetterCase
import Phrasing.Proofs.Lines
import Phrasing.Proofs.Overrides
import Phrasing.Proofs.Alternatives
import Phrasing.Proofs.Spans
