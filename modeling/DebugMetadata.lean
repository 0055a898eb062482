import DebugMetadata.Answer
import DebugMetadata.Assembly.Function
import DebugMetadata.Assembly.Module
import DebugMetadata.Assembly.Node
import DebugMetadata.Code.Instruction
import DebugMetadata.Code.Type
import DebugMetadata.Event
import DebugMetadata.Fault
import DebugMetadata.Graph.Basic
import DebugMetadata.Graph.Edit
import DebugMetadata.Graph.NamedLists
import DebugMetadata.Graph.Node
import DebugMetadata.Handle
import DebugMetadata.Keyed
import DebugMetadata.Module.Basic
import DebugMetadata.Module.Cursor
import DebugMetadata.Module.Lemmas
import DebugMetadata.Proofs.Code.Renaming
import DebugMetadata.Proofs.Arenas.Consistency
import DebugMetadata.Proofs.Arenas.Filing
import DebugMetadata.Proofs.Graph.Search
import DebugMetadata.Proofs.Graph.Lists
import DebugMetadata.Proofs.Graph.Named
import DebugMetadata.Proofs.Graph.NamedLists
import DebugMetadata.Proofs.Graph.References
import DebugMetadata.Proofs.Graph.Trees
import DebugMetadata.Proofs.Keyed
import DebugMetadata.Proofs.Lists
import DebugMetadata.Proofs.Graph.Sharing
import DebugMetadata.Proofs.History.Basic
import DebugMetadata.Proofs.History.Markers
import DebugMetadata.Proofs.History.Recorders
import DebugMetadata.Proofs.Lines.Agreement
import DebugMetadata.Proofs.Lines.Markers
import DebugMetadata.Proofs.Lines.Progress
import DebugMetadata.Proofs.Lines.TaggedRun
import DebugMetadata.Proofs.Lines.TypedRun
import DebugMetadata.Proofs.Module.Growth
import DebugMetadata.Proofs.Permanence.Arenas
import DebugMetadata.Proofs.Permanence.Printing
import DebugMetadata.Proofs.Recorder.Calls
import DebugMetadata.Proofs.Recorder.Cases
import DebugMetadata.Proofs.References.Building
import DebugMetadata.Proofs.References.Graph
import DebugMetadata.Proofs.References.Module
import DebugMetadata.Proofs.References.Recorders
import DebugMetadata.Proofs.Report.Agreement
import DebugMetadata.Proofs.Report.Basic
import DebugMetadata.Proofs.Report.Reading
import DebugMetadata.Proofs.Report.TaggedRun
import DebugMetadata.Proofs.Report.TypedRun
import DebugMetadata.Proofs.Script.Basic
import DebugMetadata.Proofs.Script.Outline
import DebugMetadata.Proofs.Script.Steps
import DebugMetadata.Proofs.Script.View
import DebugMetadata.Proofs.Session.Commands
import DebugMetadata.Proofs.Transparency.Code
import DebugMetadata.Proofs.Transparency.Locations
import DebugMetadata.Proofs.Transparency.Printing
import DebugMetadata.Proofs.Transparency.Selection
import DebugMetadata.Proofs.Transparency.TaggedRun
import DebugMetadata.Proofs.Transparency.TypedRun
import DebugMetadata.Recorder.Basic
import DebugMetadata.Recorder.Flag
import DebugMetadata.Recorder.Tagged
import DebugMetadata.Recorder.Typed
import DebugMetadata.Session.Basic
import DebugMetadata.Session.Command
import DebugMetadata.Settings.Basic
import DebugMetadata.Settings.Reading
import DebugMetadata.Source.File
import DebugMetadata.Source.Path
import DebugMetadata.Text.Blank
import DebugMetadata.Text.Decimal
import DebugMetadata.Text.Quoted
import DebugMetadata.Text.Utf8
import DebugMetadata.Proofs.Session.Origins
import DebugMetadata.Proofs.Session.Runs
import DebugMetadata.Proofs.Session.Steps
import DebugMetadata.Proofs.Scopes.Typed
import DebugMetadata.Proofs.Scopes.Ownership
import DebugMetadata.Proofs.Layout.Conformance
import DebugMetadata.Proofs.Isolation.Ledger
import DebugMetadata.Proofs.Isolation.Recorders
import DebugMetadata.Proofs.Isolation.Sessions
import DebugMetadata.Proofs.Isolation.LeftOut
import DebugMetadata.Proofs.Isolation.Accounts
import DebugMetadata.Proofs.References.Sessions
import DebugMetadata.Proofs.Printing.Failure
import DebugMetadata.Proofs.Printing.Numbers
import DebugMetadata.Proofs.Commits.Flags
import DebugMetadata.Proofs.Commits.Runs
import DebugMetadata.Proofs.Footprint.Recorders
import DebugMetadata.Proofs.Footprint.Sessions
import DebugMetadata.Proofs.Text.Quoted
import DebugMetadata.Proofs.Text.Separation
import DebugMetadata.Proofs.Text.Utf8
import DebugMetadata.Proofs.Printing.Nodes
import DebugMetadata.Proofs.Printing.Values
import DebugMetadata.Proofs.Source.Passes
import DebugMetadata.Proofs.Source.Paths
import DebugMetadata.Proofs.Source.Files
import DebugMetadata.Proofs.Source.Spellings
import DebugMetadata.Proofs.Cursors.Locations
import DebugMetadata.Proofs.Journal.Identity
import DebugMetadata.Proofs.Journal.Purposes
import DebugMetadata.Proofs.Journal.Coverage
import DebugMetadata.Proofs.Journal.Census
import DebugMetadata.Proofs.Atomicity.Calls
import DebugMetadata.Proofs.Atomicity.Choice
import DebugMetadata.Proofs.Atomicity.Creation
import DebugMetadata.Proofs.Atomicity.Marks
import DebugMetadata.Proofs.History.Tracking
import DebugMetadata.Proofs.Commits.FlagSet
import DebugMetadata.Proofs.Module.Declarations
import DebugMetadata.Proofs.Text.Escapes
import DebugMetadata.Proofs.Text.Strict
import DebugMetadata.Proofs.Text.Blank
import DebugMetadata.Proofs.Settings.Reading
import DebugMetadata.Proofs.Attachments.Keys
import DebugMetadata.Proofs.Attachments.Log
import DebugMetadata.Proofs.Chronicle.Sequences
import DebugMetadata.Proofs.Chronicle.Turns
import DebugMetadata.Proofs.Chronicle.Log
