import DesignGraph.Main
import DesignGraph.Proofs.Compile.Defaults
import DesignGraph.Proofs.Compile.Refinement
import DesignGraph.Proofs.Graph.Cycle
import DesignGraph.Proofs.Compile.Ending
import DesignGraph.Proofs.Compile.Guard
import DesignGraph.Proofs.Compile.Presence
import DesignGraph.Proofs.Compile.Class
import DesignGraph.Proofs.Compile.Assembly
import DesignGraph.Proofs.Compile.Frame
import DesignGraph.Proofs.Compile.Run
import DesignGraph.Proofs.Compile.Rerun
import DesignGraph.Proofs.Compile.Contents
import DesignGraph.Proofs.FileTree
import DesignGraph.Proofs.Literal
import DesignGraph.Proofs.Style.Promotion
import DesignGraph.Proofs.Compile.Kind
import DesignGraph.Proofs.Compile.Typing
import DesignGraph.Proofs.Compile.Unreached
import DesignGraph.Proofs.Compile.Targets
import DesignGraph.Proofs.Compile.Trace
import DesignGraph.Proofs.Template.Kinds
import DesignGraph.Proofs.Stock
import DesignGraph.Proofs.Compile.Plan
import DesignGraph.Proofs.Compile.Visits
import DesignGraph.Proofs.Compile.Decoration
import DesignGraph.Proofs.Compile.Room
import DesignGraph.Proofs.Compile.Completion
import DesignGraph.Proofs.Compile.StyleVariables
import DesignGraph.Proofs.Compile.NumberVariables
import DesignGraph.Proofs.Compile.Assets
import DesignGraph.Proofs.Text.Percent
import DesignGraph.Proofs.Compile.Fonts
import DesignGraph.Proofs.Compile.IosNames
import DesignGraph.Proofs.Links
import DesignGraph.Proofs.Stores
import DesignGraph.Proofs.Compile.Containment
import DesignGraph.Proofs.Compile.KeptAssets
import DesignGraph.Proofs.Compile.Omissions
import DesignGraph.Proofs.Graph.Entries
import DesignGraph.Proofs.Graph.Refusals
import DesignGraph.Proofs.Json.Cost
import DesignGraph.Proofs.Json.Layout
import DesignGraph.Proofs.Compile.Dependencies
import DesignGraph.Proofs.Compile.Manifest
import DesignGraph.Proofs.Compile.StringLiterals
import DesignGraph.Proofs.Compile.StyleSheets
import DesignGraph.Proofs.Compile.Collections
import DesignGraph.Proofs.Compile.SheetNumbers
import DesignGraph.Proofs.Number.Numeral
import DesignGraph.Proofs.Number.Rounding
import DesignGraph.Proofs.Number.Text
import DesignGraph.Proofs.Style.Color
import DesignGraph.Proofs.Graph.Declaration
import DesignGraph.Proofs.Number.DecimalText
import DesignGraph.Proofs.Text.NumberLiteral
import DesignGraph.Proofs.Compile.IntLiterals
import DesignGraph.Proofs.Directories
import DesignGraph.Proofs.Places
import DesignGraph.Proofs.Template.Skeleton
import DesignGraph.Proofs.Template.Filling
import DesignGraph.Proofs.Text.Trimmed
import DesignGraph.Proofs.Compile.DeploymentTarget
import DesignGraph.Proofs.Export.Commands
import DesignGraph.Proofs.Export.Protocol
import DesignGraph.Proofs.Export.Source
import DesignGraph.Proofs.Naming.NormalForm
import DesignGraph.Proofs.OrderedSet.History
