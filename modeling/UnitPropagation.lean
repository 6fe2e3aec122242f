import UnitPropagation.Assignment
import UnitPropagation.Branching
import UnitPropagation.Branching.Generator
import UnitPropagation.Clause
import UnitPropagation.Clause.Evaluation
import UnitPropagation.CommandLine.Host
import UnitPropagation.CommandLine.Options
import UnitPropagation.CommandLine.Report
import UnitPropagation.CommandLine.Request
import UnitPropagation.CommandLine.Run
import UnitPropagation.Database
import UnitPropagation.Dimacs.Formula
import UnitPropagation.Dimacs.Reader
import UnitPropagation.Dimacs.Writer
import UnitPropagation.Fault
import UnitPropagation.FileError
import UnitPropagation.FileTree
import UnitPropagation.Journal
import UnitPropagation.Literal
import UnitPropagation.Main
import UnitPropagation.Proofs.Agreement
import UnitPropagation.Proofs.Assignment
import UnitPropagation.Proofs.Branching
import UnitPropagation.Proofs.Clause
import UnitPropagation.Proofs.Coherence
import UnitPropagation.Proofs.Comments
import UnitPropagation.Proofs.Confluence
import UnitPropagation.Proofs.Continuity
import UnitPropagation.Proofs.Defences
import UnitPropagation.Proofs.Dimacs
import UnitPropagation.Proofs.Disturbance
import UnitPropagation.Proofs.Evaluation
import UnitPropagation.Proofs.Export
import UnitPropagation.Proofs.Faultless
import UnitPropagation.Proofs.Fixpoint
import UnitPropagation.Proofs.Frame
import UnitPropagation.Proofs.FullScan
import UnitPropagation.Proofs.Grammar
import UnitPropagation.Proofs.Headerless
import UnitPropagation.Proofs.History
import UnitPropagation.Proofs.Interchange
import UnitPropagation.Proofs.Ledger
import UnitPropagation.Proofs.Lines
import UnitPropagation.Proofs.Loading
import UnitPropagation.Proofs.OpenSession
import UnitPropagation.Proofs.Passes
import UnitPropagation.Proofs.Propagator
import UnitPropagation.Proofs.Quiescence
import UnitPropagation.Proofs.Rebase
import UnitPropagation.Proofs.Reload
import UnitPropagation.Proofs.RoundTrip
import UnitPropagation.Proofs.Session
import UnitPropagation.Proofs.SharedSession
import UnitPropagation.Proofs.Slots
import UnitPropagation.Proofs.Solver
import UnitPropagation.Proofs.Soundness
import UnitPropagation.Proofs.State
import UnitPropagation.Proofs.WatchTable
import UnitPropagation.Proofs.Watched.Filing
import UnitPropagation.Proofs.Watched.Lists
import UnitPropagation.Proofs.Watched.Memory
import UnitPropagation.Proofs.Watched.Propagation
import UnitPropagation.Proofs.Work
import UnitPropagation.Propagator
import UnitPropagation.Propagator.FullScan
import UnitPropagation.Propagator.Watched
import UnitPropagation.Session
import UnitPropagation.Solver
import UnitPropagation.State
import UnitPropagation.Text.Blank
import UnitPropagation.Text.Lines
import UnitPropagation.Text.Name
import UnitPropagation.Text.Numeral
import UnitPropagation.Text.Terminal
import UnitPropagation.WatchTable
import UnitPropagation.Work
