import PlotLisp.Arity
import PlotLisp.Atom
import PlotLisp.Environment
import PlotLisp.Evaluation
import PlotLisp.Evaluation.Depth
import PlotLisp.Expression.Agreement
import PlotLisp.Expression.Basic
import PlotLisp.Expression.Display
import PlotLisp.Host.Arguments
import PlotLisp.Host.CommandLine
import PlotLisp.Host.Files
import PlotLisp.Host.Lines
import PlotLisp.Host.Output
import PlotLisp.Host.ProgramSource
import PlotLisp.Host.Repl
import PlotLisp.Host.Settings
import PlotLisp.Host.Startup
import PlotLisp.Kernel.Basic
import PlotLisp.Kernel.Message
import PlotLisp.Kernel.Settling
import PlotLisp.Main
import PlotLisp.NameMap
import PlotLisp.Number.Binary
import PlotLisp.Number.ComplexNumber
import PlotLisp.Number.Decimal
import PlotLisp.Number.Numeral
import PlotLisp.Number.Scalar
import PlotLisp.Procedure.Arithmetic
import PlotLisp.Procedure.Builtin
import PlotLisp.Procedure.Lists
import PlotLisp.Procedure.Plots
import PlotLisp.Queue
import PlotLisp.SemanticError
import PlotLisp.Session
import PlotLisp.Source.Form
import PlotLisp.Source.Lexeme
import PlotLisp.Source.Program
import PlotLisp.Source.Token
import PlotLisp.Store
import PlotLisp.Toml.Document
import PlotLisp.Toml.Reader
import PlotLisp.Toml.Scalars
import PlotLisp.Toml.Strings
import PlotLisp.Toml.Value
import PlotLisp.Proofs.Evaluation.Effects
import PlotLisp.Proofs.Evaluation.Frames
import PlotLisp.Proofs.Kernel.Delivery
import PlotLisp.Proofs.Kernel.Replay
import PlotLisp.Proofs.Source.Forms
import PlotLisp.Proofs.Source.Peg
import PlotLisp.Proofs.Source.Scanning
import PlotLisp.Proofs.Source.Grammar
import PlotLisp.Proofs.Source.Nesting
import PlotLisp.Proofs.Source.Parsing
import PlotLisp.Proofs.NameMap.Order
import PlotLisp.Proofs.Evaluation.Outcomes
import PlotLisp.Proofs.Evaluation.Values
import PlotLisp.Proofs.Evaluation.Soundness
import PlotLisp.Proofs.Evaluation.Protection
import PlotLisp.Proofs.Kernel.Settled
import PlotLisp.Proofs.Host.Dialogue
import PlotLisp.Proofs.Kernel.Completion
import PlotLisp.Proofs.Host.Refinement
import PlotLisp.Proofs.Evaluation.UserBindings
import PlotLisp.Proofs.Kernel.Publication
import PlotLisp.Proofs.Evaluation.Lockstep
import PlotLisp.Proofs.Evaluation.Likeness
import PlotLisp.Proofs.Evaluation.AlikeCalls
import PlotLisp.Proofs.Evaluation.AlikeRuns
import PlotLisp.Proofs.Evaluation.Coincidence
import PlotLisp.Proofs.Evaluation.PropertyMaps
import PlotLisp.Proofs.Source.Printing
import PlotLisp.Proofs.Evaluation.Batch
import PlotLisp.Proofs.Evaluation.Application
import PlotLisp.Proofs.Evaluation.Purity
import PlotLisp.Proofs.Evaluation.Unreachable
import PlotLisp.Proofs.Source.Margins
import PlotLisp.Proofs.Host.OneShot
import PlotLisp.Proofs.Evaluation.Roles
import PlotLisp.Proofs.Evaluation.Definition
import PlotLisp.Proofs.Evaluation.Mapping
import PlotLisp.Proofs.Expression.Agreement
import PlotLisp.Proofs.Procedure.Promotion
import PlotLisp.Proofs.Procedure.Plots
import PlotLisp.Proofs.Host.Drawings
import PlotLisp.Proofs.Store.History
import PlotLisp.Proofs.Number.Numeral
import PlotLisp.Proofs.Source.Token
import PlotLisp.Proofs.Number.Parts
import PlotLisp.Proofs.Procedure.Snapping
import PlotLisp.Proofs.Procedure.Range
