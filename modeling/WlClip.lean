import WlClip.ScriptedProgram
import WlClip.Framing
import WlClip.LittleEndian
import WlClip.Wire
import WlClip.Marshal
import WlClip.MachineReader
import WlClip.Requests
import WlClip.Protocol
import WlClip.Mime
import WlClip.Process
import WlClip.Transfer
import WlClip.Daemon
import WlClip.Consumers
import WlClip.Connection
import WlClip.ConnectionSteps
import WlClip.Client
import WlClip.DispatchStream
import WlClip.DispatchSteps
import WlClip.Handcrafted
import WlClip.HandcraftedScript
import WlClip.CopyScript
import WlClip.HandcraftedDaemon
import WlClip.State
import WlClip.Registry
import WlClip.LibwaylandCopy
import WlClip.LibwaylandPaste
import WlClip.LibwaylandDaemon
import WlClip.CopyDaemons
import WlClip.X11
import WlClip.Oneshot
import WlClip.X11Targets
import WlClip.X11Replies
import WlClip.X11Advertising
import WlClip.Offers
import WlClip.PasteScript
import WlClip.HandcraftedPaste
import WlClip.DataControlPaste
import WlClip.PasteAgreement
import WlClip.X11Paste
import WlClip.CopyCommand
import WlClip.RequestFraming
import WlClip.MalformedHeaders
import WlClip.Interruptions
import WlClip.HandcraftedSteps
import WlClip.RequestedTypes
import WlClip.SendDescriptors
import WlClip.Outgoing
import WlClip.Ledger
import WlClip.DescriptorLedger
import WlClip.Flushing
import WlClip.LibwaylandIsolation
import WlClip.Isolation
import WlClip.CopyThenPaste
import WlClip.X11Conversions
import WlClip.Seats
import WlClip.X11Properties
import WlClip.PipeTransfer
import WlClip.TruncatedEvents
import WlClip.Deliveries
import WlClip.WriteEnds
import WlClip.FailedReads
import WlClip.PasteCommand
import WlClip.PasteOutput
import WlClip.ExplicitTypes
import WlClip.UsableTypes
import WlClip.Interleaving
import WlClip.XServer
import WlClip.SyncWait
import WlClip.X11Peers
import WlClip.X11Conversation
import WlClip.X11Clipboard
import WlClip.Words
import WlClip.Progress
import WlClip.ProtocolsCommand
import WlClip.GlobalOptions
import WlClip.CommandLine
import WlClip.X11Ownership
import WlClip.X11Commands
