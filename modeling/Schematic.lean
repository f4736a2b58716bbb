import Schematic.Artifact.Constraints
import Schematic.Artifact.Generate
import Schematic.Artifact.Target
import Schematic.Artifact.Testbench
import Schematic.Board.Rules
import Schematic.BoardDefault.Request
import Schematic.BoardDefault.Wiring
import Schematic.Calendar
import Schematic.CommandLine.Argument
import Schematic.CommandLine.Basic
import Schematic.CommandLine.Words
import Schematic.Config.Basic
import Schematic.Config.Format
import Schematic.Decimal.Shortest
import Schematic.Design.Block
import Schematic.Design.Format
import Schematic.Design.Graph
import Schematic.Design.Project
import Schematic.Fingerprint.Basic
import Schematic.Fingerprint.Digest
import Schematic.Fingerprint.Format
import Schematic.Fingerprint.Mixing
import Schematic.Identifier
import Schematic.Interface
import Schematic.Json.Basic
import Schematic.Json.Document
import Schematic.Json.Numeral
import Schematic.Json.Printer
import Schematic.Json.Record
import Schematic.Json.Token
import Schematic.Log
import Schematic.Main
import Schematic.Netlist.Body
import Schematic.Netlist.Connections
import Schematic.Netlist.FanOut
import Schematic.Netlist.Fault
import Schematic.Netlist.Hierarchy
import Schematic.Netlist.Module
import Schematic.Netlist.Statement
import Schematic.Summary
import Schematic.Summary.Report
import Schematic.Text.Hidden
import Schematic.Text.Lines
import Schematic.Text.Plain
import Schematic.Text.Quoted
import Schematic.Toml.Basic
import Schematic.Toml.Document
import Schematic.Toml.Quoted
import Schematic.Toml.Record
import Schematic.Toml.Scalar
import Schematic.Toml.Table
import Schematic.Top
import Schematic.Workspace.Files
import Schematic.Workspace.Path
import Schematic.Workspace.Run
import Schematic.Workspace.Session
import Schematic.Workspace.Tree
import Schematic.Proofs.Outcome
import Schematic.Proofs.Text.Lines
import Schematic.Proofs.Netlist.Connections
import Schematic.Proofs.Netlist.FanOut
import Schematic.Proofs.Netlist.Statements
import Schematic.Proofs.Design.Ids
import Schematic.Proofs.Netlist.Connectivity
import Schematic.Proofs.BoardDefault.FreeId
import Schematic.Proofs.BoardDefault.Growth
import Schematic.Proofs.Hierarchy.Walk
import Schematic.Proofs.Hierarchy.Compiled
import Schematic.Proofs.BoardDefault.PinReach
import Schematic.Proofs.Hierarchy.Closure
import Schematic.Proofs.Hierarchy.Recursion
import Schematic.Proofs.Hierarchy.Entries
import Schematic.Proofs.Hierarchy.Traversal
import Schematic.Proofs.Hierarchy.Resolution
import Schematic.Proofs.Netlist.ModuleText
import Schematic.Proofs.Artifact.PlaceLines
import Schematic.Proofs.Artifact.BenchText
import Schematic.Proofs.Artifact.Interface
import Schematic.Proofs.Config.Validation
import Schematic.Proofs.Artifact.HeldPins
import Schematic.Proofs.BoardDefault.Settled
import Schematic.Proofs.Netlist.Faults
import Schematic.Proofs.Artifact.Prepared
import Schematic.Proofs.Hierarchy.AfterMain
import Schematic.Proofs.Workspace.Tree
import Schematic.Proofs.Workspace.Job
import Schematic.Proofs.Workspace.Delivery
import Schematic.Proofs.Hierarchy.CodeNames
import Schematic.Proofs.Hierarchy.Faults
import Schematic.Proofs.Artifact.SignalNames
import Schematic.Proofs.Artifact.ConstantValues
import Schematic.Proofs.BoardDefault.Extension
import Schematic.Proofs.Config.Usable
import Schematic.Proofs.Json.Record
import Schematic.Proofs.Design.Representation
import Schematic.Proofs.Design.Reading
import Schematic.Proofs.Json.Readable
import Schematic.Proofs.Json.Variant
import Schematic.Proofs.Design.Records
import Schematic.Proofs.Design.FieldOrder
import Schematic.Proofs.Netlist.Declarations
import Schematic.Proofs.Netlist.Lines
import Schematic.Proofs.Netlist.Drivers
import Schematic.Proofs.Netlist.References
import Schematic.Proofs.Artifact.ConstraintLines
import Schematic.Proofs.BoardDefault.Undisturbed
import Schematic.Proofs.Artifact.HoldPort
import Schematic.Proofs.Artifact.ParameterNames
import Schematic.Proofs.Netlist.Excerpt
import Schematic.Proofs.Netlist.Roots
import Schematic.Proofs.Netlist.InstancePorts
import Schematic.Proofs.Json.Tokens
import Schematic.Proofs.Json.Respelling
import Schematic.Proofs.Json.InPlace
import Schematic.Proofs.Design.ScalarFields
import Schematic.Proofs.Netlist.BlankLines
