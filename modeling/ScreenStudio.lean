import ScreenStudio.Main
import ScreenStudio.Proofs.Dictionary
import ScreenStudio.Proofs.Text.Pieces
import ScreenStudio.Proofs.Number.Digits
import ScreenStudio.Proofs.Number.Positional
import ScreenStudio.Proofs.Json.NumberText
import ScreenStudio.Proofs.Json.Text
import ScreenStudio.Proofs.Json.Document
import ScreenStudio.Proofs.Json.Shape
import ScreenStudio.Proofs.Record
import ScreenStudio.Proofs.Value.Confined
import ScreenStudio.Proofs.Evaluation.Confined
import ScreenStudio.Proofs.Action
import ScreenStudio.Proofs.Action.Composition
import ScreenStudio.Proofs.Action.Assignment
import ScreenStudio.Proofs.Action.ReadBack
import ScreenStudio.Proofs.Action.Unrelated
import ScreenStudio.Proofs.History
import ScreenStudio.Proofs.History.Zipper
import ScreenStudio.Proofs.Project
import ScreenStudio.Proofs.Workspace.Operation
import ScreenStudio.Proofs.Workspace.Transition
import ScreenStudio.Proofs.Workspace.Invariant
import ScreenStudio.Proofs.Workspace.Opening
import ScreenStudio.Proofs.Storage
import ScreenStudio.Proofs.Workspace.Restart
import ScreenStudio.Proofs.Workspace.Acceptance
import ScreenStudio.Proofs.Workspace.Consistent
import ScreenStudio.Proofs.Workspace.Undo
import ScreenStudio.Proofs.Workspace.FailedWrites
import ScreenStudio.Proofs.Workspace.Reporting
import ScreenStudio.Proofs.Workspace.Dispatching
import ScreenStudio.Proofs.Storage.FileTree
import ScreenStudio.Proofs.Storage.Path
import ScreenStudio.Proofs.Storage.Writing
import ScreenStudio.Proofs.Export
import ScreenStudio.Proofs.Export.Paths
import ScreenStudio.Proofs.Value.Renaming
import ScreenStudio.Proofs.Value.InStep
import ScreenStudio.Proofs.Value.Reach
import ScreenStudio.Proofs.Value.Coincidence
import ScreenStudio.Proofs.Evaluation.Point
import ScreenStudio.Proofs.Evaluation.Passes
import ScreenStudio.Proofs.Evaluation.Passage
import ScreenStudio.Proofs.Evaluation.Bounded
import ScreenStudio.Proofs.Evaluation.Alike
import ScreenStudio.Proofs.Evaluation.Renamed
import ScreenStudio.Proofs.Evaluation.RenamedCalls
import ScreenStudio.Proofs.Evaluation.Interchangeable
import ScreenStudio.Proofs.Evaluation.Collected
import ScreenStudio.Proofs.Evaluation.Bracketed
import ScreenStudio.Proofs.Evaluation.Powerless
import ScreenStudio.Proofs.Evaluation.Law
import ScreenStudio.Proofs.Evaluation.Lawful
import ScreenStudio.Proofs.Evaluation.Isolated
import ScreenStudio.Proofs.Evaluation.Lexical
import ScreenStudio.Proofs.Evaluation.Assembled
import ScreenStudio.Proofs.Evaluation.Coincidence
import ScreenStudio.Proofs.Evaluation.UnreadKey
import ScreenStudio.Proofs.Surface.Html
import ScreenStudio.Proofs.Surface.Materialized
import ScreenStudio.Proofs.Surface.Renamed
import ScreenStudio.Proofs.Source.Canonical
import ScreenStudio.Proofs.Source.Layout
import ScreenStudio.Proofs.Source.Grouping
import ScreenStudio.Proofs.Source.Members
import ScreenStudio.Proofs.Source.FreeNames
import ScreenStudio.Proofs.Number.Bits
import ScreenStudio.Proofs.Number.Whole
import ScreenStudio.Proofs.Value.Data
import ScreenStudio.Proofs.Value.Same
import ScreenStudio.Proofs.Surface.Interaction
import ScreenStudio.Proofs.Source.Template
import ScreenStudio.Proofs.Evaluation.Template
import ScreenStudio.Proofs.Source.Parts
import ScreenStudio.Proofs.Source.Places
import ScreenStudio.Proofs.Evaluation.Arrows
import ScreenStudio.Proofs.Number.Rounding
import ScreenStudio.Proofs.Number.Shortest
import ScreenStudio.Proofs.Number.Printed
import ScreenStudio.Proofs.Action.PrintedNumber
import ScreenStudio.Proofs.Source.Tiling
import ScreenStudio.Proofs.Source.Position
import ScreenStudio.Proofs.Source.Escapes
import ScreenStudio.Proofs.Storage.Making
import ScreenStudio.Proofs.Storage.Entries
import ScreenStudio.Proofs.Storage.Opening
import ScreenStudio.Proofs.Storage.Saving
