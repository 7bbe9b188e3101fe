import DebugSession.Text.Letter
import DebugSession.Text.Escape
import DebugSession.Decimal.Reader
import DebugSession.Error
import DebugSession.Literal
import DebugSession.TypeNames
import DebugSession.AccessPath
import DebugSession.Toml.Reader
import DebugSession.Location
import DebugSession.Config
import DebugSession.Event
import DebugSession.Observers
import DebugSession.Output
import DebugSession.BindingTable
import DebugSession.BreakpointStore
import DebugSession.Evaluator
import DebugSession.Session.State
import DebugSession.World
import DebugSession.Host
import DebugSession.Value.Description
import DebugSession.Value.Tree
import DebugSession.Session.Dispatch
import DebugSession.Session.Inspection
import DebugSession.Session.Frames
import DebugSession.Session.Reporter
import DebugSession.Simulation.Memory
import DebugSession.Simulation.Happening
import DebugSession.Simulation.Debuggee
import DebugSession.Simulation.Engine
import DebugSession.Simulation.Host
import DebugSession.Simulation.Journal
import DebugSession.Proofs.Operation
import DebugSession.Proofs.Quiet
import DebugSession.Proofs.Binding
import DebugSession.Proofs.Keyed
import DebugSession.Proofs.Table
import DebugSession.Proofs.EditScopes
import DebugSession.Proofs.Announcement
import DebugSession.Proofs.Attachment
import DebugSession.Proofs.Turn
import DebugSession.Proofs.Sound
import DebugSession.Proofs.Coherence
import DebugSession.Proofs.Scripted
import DebugSession.Proofs.Lease
import DebugSession.Proofs.Leak
import DebugSession.Proofs.Backing
import DebugSession.Proofs.Retry
import DebugSession.Proofs.Rule
import DebugSession.Proofs.Law
import DebugSession.Proofs.Conduct
import DebugSession.Proofs.Deferral
import DebugSession.Proofs.Acceptance
import DebugSession.Proofs.Track
import DebugSession.Proofs.Dispatch
import DebugSession.Proofs.Crew
import DebugSession.Proofs.Lock
import DebugSession.Proofs.Milestone
import DebugSession.Proofs.PendingCommands
import DebugSession.Proofs.Discipline
import DebugSession.Proofs.HostBehavior
import DebugSession.Proofs.AfterDisposal
import DebugSession.Proofs.Finality
import DebugSession.Proofs.Disposal
import DebugSession.Proofs.Timing
import DebugSession.Proofs.Numeral
import DebugSession.Proofs.RoundTrip
import DebugSession.Proofs.Quotation
import DebugSession.Proofs.Paging
import DebugSession.Proofs.Recall
import DebugSession.Proofs.LifecycleHistory
import DebugSession.Proofs.Provenance
import DebugSession.Proofs.Resolution
import DebugSession.Proofs.Provider
import DebugSession.Proofs.Yield
import DebugSession.Proofs.Mirror
import DebugSession.Proofs.Logbook
import DebugSession.Proofs.Parting
import DebugSession.Proofs.Swap
import DebugSession.Proofs.StoreNews
import DebugSession.Proofs.ProcessLog
import DebugSession.Proofs.ProcessList
import DebugSession.Proofs.Relocation
import DebugSession.Proofs.Rounds
import DebugSession.Proofs.Completion
import DebugSession.Proofs.Recovery
import DebugSession.Proofs.Monitor
import DebugSession.Proofs.BindingTask
import DebugSession.Proofs.Containment
import DebugSession.Proofs.Reload
import DebugSession.Proofs.Notice
import DebugSession.Proofs.PanickingCommand
import DebugSession.Proofs.Restoration
import DebugSession.Proofs.Veto
import DebugSession.Proofs.BulkAccess
import DebugSession.Proofs.Settling
import DebugSession.Proofs.Blanks
import DebugSession.Proofs.Pieces
import DebugSession.Proofs.Inquiry
import DebugSession.Proofs.Spelling
import DebugSession.Proofs.Subscript
import DebugSession.Proofs.Route
import DebugSession.Proofs.Indexing
import DebugSession.Proofs.Assignment
