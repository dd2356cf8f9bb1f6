import StrongIpc.Library.StepMachine
import StrongIpc.Library.Roster
import StrongIpc.Library.BoundedChannel
import StrongIpc.Library.Interaction
import StrongIpc.Library.Unwinding
import StrongIpc.Library.Introductions
import StrongIpc.Library.Mailbox
import StrongIpc.Library.Pool
import StrongIpc.Wire
import StrongIpc.Outbox
import StrongIpc.Backlog
import StrongIpc.Sender
import StrongIpc.SenderInvariants
import StrongIpc.Line
import StrongIpc.Ordering
import StrongIpc.Delivery
import StrongIpc.Binding
import StrongIpc.Registry
import StrongIpc.LocalHandlers
import StrongIpc.LocalLookups
import StrongIpc.LocalFilings
import StrongIpc.Capability
import StrongIpc.Holdings
import StrongIpc.RefCounts
import StrongIpc.Views
import StrongIpc.Lifetime
import StrongIpc.Succession
import StrongIpc.Death
import StrongIpc.Hangup
import StrongIpc.NodeTask
import StrongIpc.BacklogBounds
import StrongIpc.Unfiled
import StrongIpc.Receive
import StrongIpc.RecvLoop
import StrongIpc.Runtimes
import StrongIpc.Serving
import StrongIpc.ServingInvariants
import StrongIpc.Service
import StrongIpc.SendProgram
import StrongIpc.Atomicity
import StrongIpc.Directory
import StrongIpc.BindingProgram
import StrongIpc.Rollback
import StrongIpc.Neighbours
import StrongIpc.Collisions
import StrongIpc.RoundTrip
import StrongIpc.Network
import StrongIpc.Claims
import StrongIpc.Strangers
import StrongIpc.Mailboxes
import StrongIpc.WindingDown
import StrongIpc.SocketMailbox
import StrongIpc.Peers
import StrongIpc.SenderBooks
import StrongIpc.Settling
import StrongIpc.Confinement
import StrongIpc.Contention
import StrongIpc.Handshake
import StrongIpc.OnePath
import StrongIpc.Reached
import StrongIpc.FdLimits
