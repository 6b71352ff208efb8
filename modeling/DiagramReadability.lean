import DiagramReadability.Graph.Export
import DiagramReadability.Graph.Reachability
import DiagramReadability.Graph.Visit
import DiagramReadability.Main
import DiagramReadability.Proofs.Graph.Steps
import DiagramReadability.Proofs.Graph.Discovery
import DiagramReadability.Proofs.Graph.Enumeration
import DiagramReadability.Proofs.Graph.Cycle
import DiagramReadability.Proofs.Graph.Acyclic
import DiagramReadability.Proofs.Graph.Component
import DiagramReadability.Proofs.Graph.Memoised
import DiagramReadability.Proofs.Graph.LongestPath
import DiagramReadability.Proofs.Graph.Connected
import DiagramReadability.Proofs.Graph.LinearRun
import DiagramReadability.Proofs.Graph.MainPath
import DiagramReadability.Proofs.Graph.TopologicalOrder
import DiagramReadability.Proofs.Graph.Partition
import DiagramReadability.Proofs.Graph.Reordering
import DiagramReadability.Proofs.Graph.ComponentOrder
import DiagramReadability.Proofs.Line.Pieces
import DiagramReadability.Proofs.Statement.Node
import DiagramReadability.Proofs.Statement.Link
import DiagramReadability.Proofs.Statement.Starts
import DiagramReadability.Proofs.Statement.Chain
import DiagramReadability.Proofs.Text.Lines
import DiagramReadability.Proofs.Label.Definitions
import DiagramReadability.Proofs.Report.Findings
import DiagramReadability.Proofs.Report.Agreement
import DiagramReadability.Proofs.Report.Header
import DiagramReadability.Proofs.Report.Comment
import DiagramReadability.Proofs.Graph.Growth
import DiagramReadability.Proofs.Source.Document
import DiagramReadability.Proofs.Config.Layers
import DiagramReadability.Proofs.Number.Range
import DiagramReadability.Proofs.Report.Total
import DiagramReadability.Proofs.Report.LayoutHint
import DiagramReadability.Proofs.Graph.CircuitRank
import DiagramReadability.Proofs.Graph.LinearChain
import DiagramReadability.Proofs.Graph.Depth
import DiagramReadability.Proofs.Graph.Visits
import DiagramReadability.Proofs.Graph.AcyclicSpine
import DiagramReadability.Proofs.Statement.Rest
import DiagramReadability.Proofs.Statement.Origin
import DiagramReadability.Proofs.Statement.Semicolon
import DiagramReadability.Proofs.Graph.StateMarker
import DiagramReadability.Proofs.Statement.ShapeText
import DiagramReadability.Proofs.Statement.QuotedLabel
import DiagramReadability.Proofs.Statement.Seam
import DiagramReadability.Proofs.Label.Search
import DiagramReadability.Proofs.Label.Statistics
import DiagramReadability.Proofs.Label.LineBreak
import DiagramReadability.Proofs.Label.Nested
import DiagramReadability.Proofs.Label.Written
import DiagramReadability.Proofs.Graph.Representation
import DiagramReadability.Proofs.Number.Whole
import DiagramReadability.Proofs.Config.Order
import DiagramReadability.Proofs.Config.Environment
import DiagramReadability.Proofs.Report.Summary
import DiagramReadability.Proofs.Source.Collect
import DiagramReadability.Proofs.Config.EnvFile
import DiagramReadability.Proofs.Graph.MemoKey
import DiagramReadability.Proofs.Graph.Searches
