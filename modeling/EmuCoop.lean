import EmuCoop.Lib.Run
import EmuCoop.Lib.Dict
import EmuCoop.Lib.Side
import EmuCoop.Lib.Replica
import EmuCoop.Lib.Counter
import EmuCoop.Lib.TwosComplement
import EmuCoop.Lib.Framing
import EmuCoop.Lib.Incremental
import EmuCoop.Lib.PartialWrites
import EmuCoop.Lib.Periods
import EmuCoop.Lib.PyJson
import EmuCoop.Bridge.Record
import EmuCoop.Bridge.Endpoint
import EmuCoop.Bridge.MapWriteGate
import EmuCoop.Bridge.Engine
import EmuCoop.Bridge.EngineSpec
import EmuCoop.Bridge.GateOutcome
import EmuCoop.Bridge.ResyncQueue
import EmuCoop.Bridge.Link
import EmuCoop.Bridge.LinkBitOr
import EmuCoop.Bridge.LinkDelta
import EmuCoop.Bridge.LinkHigh
import EmuCoop.Bridge.Session
import EmuCoop.Bridge.Echo
import EmuCoop.Bridge.CcClient
import EmuCoop.Bridge.CcResponse
import EmuCoop.Fceux.Driver
import EmuCoop.Fceux.Parity
import EmuCoop.Fceux.LinkHigh
import EmuCoop.Fceux.Pipe
import EmuCoop.Fceux.Wake
import EmuCoop.Fceux.FrameReader
import EmuCoop.Fceux.ClosedSocket
import EmuCoop.Relay.Wire
import EmuCoop.Relay.Tracer
import EmuCoop.Relay.State
import EmuCoop.Relay.Server
import EmuCoop.Relay.Table
import EmuCoop.Relay.Sessions
import EmuCoop.Relay.Registry
import EmuCoop.Relay.Tasks
import EmuCoop.Relay.Forwarding
import EmuCoop.Relay.Progress
import EmuCoop.Relay.Readers
import EmuCoop.Relay.Timers
import EmuCoop.Relay.Cleanup
import EmuCoop.Relay.Orphans
import EmuCoop.Relay.Bookkeeping
import EmuCoop.Relay.Streams
import EmuCoop.Relay.Frames
import EmuCoop.Relay.Notices
import EmuCoop.Bridge.PipeClient
import EmuCoop.Bridge.PipeTick
import EmuCoop.Bridge.Reconnecting
import EmuCoop.Coop.Protocol
import EmuCoop.Coop.Lines
import EmuCoop.Coop.Clients
import EmuCoop.Coop.Network
import EmuCoop.Coop.WireFormat
import EmuCoop.Coop.OneProtocol
import EmuCoop.Mister.Mailbox
import EmuCoop.Mister.Acknowledged
import EmuCoop.Bridge.PartnerInput
import EmuCoop.Bridge.ReceiveProgress
import EmuCoop.Bridge.PipeCalls
import EmuCoop.Bridge.OneHello
import EmuCoop.Bridge.EndOfStream
import EmuCoop.Bridge.TornFrames
import EmuCoop.Bridge.Loops
import EmuCoop.Bridge.AppHello
import EmuCoop.Bridge.ModeMismatch
import EmuCoop.Fceux.Emulator
import EmuCoop.Fceux.Refusal
import EmuCoop.Relay.Parts
import EmuCoop.Relay.Isolation
import EmuCoop.Mister.Provenance
import EmuCoop.Mister.TimedOut
import EmuCoop.Mister.FreshRequest
import EmuCoop.Mister.SmartCache
import EmuCoop.Mister.Snapshot
import EmuCoop.Mister.ScanReads
import EmuCoop.Mister.SameHelper
import EmuCoop.Fceux.SameReceive
import EmuCoop.Bridge.ArrivalOrder
import EmuCoop.Bridge.ParkedUpdates
import EmuCoop.Bridge.AwakeWrites
import EmuCoop.Bridge.PlausibleTraffic
import EmuCoop.Bridge.StaleResponses
import EmuCoop.Fceux.HostAccept
import EmuCoop.Lib.Records
import EmuCoop.Bridge.CcFraming
import EmuCoop.Lib.Patching
import EmuCoop.Lib.Json
import EmuCoop.Lib.HexText
import EmuCoop.Rom.Ips
import EmuCoop.Rom.IpsBuild
import EmuCoop.Rom.RoundTrip
import EmuCoop.Rom.Manifest
import EmuCoop.Rom.Validated
import EmuCoop.Rom.Detection
import EmuCoop.Rom.Grammar
import EmuCoop.Lib.Coalescing
import EmuCoop.Bridge.FairGate
import EmuCoop.Bridge.MaskedBits
import EmuCoop.Bridge.Atomicity
import EmuCoop.Bridge.Throttled
import EmuCoop.Lib.Observations
import EmuCoop.Bridge.Observed
import EmuCoop.Bridge.Commuting
import EmuCoop.Lib.Sweep
import EmuCoop.Rom.Relocate
import EmuCoop.Rom.Relocated
import EmuCoop.Lib.Reliance
import EmuCoop.Bridge.Lane
import EmuCoop.Bridge.CutLink
import EmuCoop.Bridge.LossyLanes
import EmuCoop.Bridge.LoopLane
import EmuCoop.Coop.SameJson
import EmuCoop.Fceux.DriverLane
import EmuCoop.Coop.MixedLink
import EmuCoop.Coop.MixedHigh
import EmuCoop.Coop.MixedRounds
import EmuCoop.Lib.JsonLines
import EmuCoop.Bridge.ReadOnly
import EmuCoop.Mister.Remote
import EmuCoop.Relay.Attention
import EmuCoop.Coop.CutHigh
