import Qubox.Library.Checked
import Qubox.Library.History
import Qubox.Library.Interaction
import Qubox.Library.Pool
import Qubox.Library.Site
import Qubox.Library.Table
import Qubox.Library.Protocol
import Qubox.Library.Triple
import Qubox.Library.UnixPath
import Qubox.Library.Disk
import Qubox.Proto
import Qubox.Signaling.JtiCache
import Qubox.Signaling.State
import Qubox.Signaling.Action
import Qubox.Signaling.Effect
import Qubox.Signaling.Operations
import Qubox.Signaling.Socket
import Qubox.Signaling.Contract
import Qubox.Signaling.Call
import Qubox.Signaling.Revocation
import Qubox.Signaling.Pairing
import Qubox.Signaling.Hub
import Qubox.Signaling.Journal
import Qubox.Signaling.Relay
import Qubox.Signaling.Tenancy
import Qubox.Signaling.World
import Qubox.Signaling.Presence
import Qubox.Signaling.Withdrawal
import Qubox.Library.Bytes
import Qubox.Library.Broadcast
import Qubox.Media.Datagram
import Qubox.Media.Chunker
import Qubox.Media.Recovery
import Qubox.Media.Sender
import Qubox.Media.JitterBuffer
import Qubox.Media.Reception
import Qubox.Media.Collection
import Qubox.Media.Reassembly
import Qubox.Media.SingleLoss
import Qubox.Media.Delivery
import Qubox.Signaling.SingleUse
import Qubox.Media.Bounds
import Qubox.Media.ReedSolomon
import Qubox.Media.FecDecoder
import Qubox.Media.Erasure
import Qubox.Media.FecDelivery
import Qubox.Media.FecReassembly
import Qubox.FileSync.Transfer
import Qubox.FileSync.Receive
import Qubox.FileSync.Installation
import Qubox.FileSync.Integrity
import Qubox.FileSync.Acceptance
import Qubox.Signaling.PairingFile
import Qubox.Signaling.KeyBinding
import Qubox.Signaling.Ownership
import Qubox.Signaling.Cleanup
import Qubox.Signaling.IceAllowlist
import Qubox.Media.FecController
import Qubox.Sync.VectorClock
import Qubox.Sync.Plan
import Qubox.Sync.Database
import Qubox.Sync.Drain
import Qubox.Sync.DrainContract
import Qubox.Sync.Claiming
import Qubox.Sync.Locking
import Qubox.Sync.Delivery
import Qubox.Update.Checker
import Qubox.Update.Staging
import Qubox.Update.Rollback
import Qubox.Sync.Overwriting
import Qubox.Sync.Sensors
import Qubox.Sync.Reporting
import Qubox.Sync.Resolution
import Qubox.Host.Enforcement
import Qubox.Host.Replay
import Qubox.Library.Framing
import Qubox.Transport.Wire
import Qubox.Transport.Reliable
import Qubox.Transport.Truncation
import Qubox.RemoteInput
import Qubox.Transport.StreamRouter
import Qubox.Transport.Routing
import Qubox.Transport.Legacy
import Qubox.Host.Input
import Qubox.Host.InputMask
import Qubox.Host.InputOrder
import Qubox.Host.Sessions
import Qubox.Host.Killing
import Qubox.Host.SignalingLoop
import Qubox.Host.ToastRate
import Qubox.Host.AudienceBinding
import Qubox.Host.PinGate
import Qubox.Gamepad.Wire
import Qubox.Gamepad.Mirror
import Qubox.Media.StreamFramer
import Qubox.Library.Blame
import Qubox.Host.Handler
import Qubox.Host.IdleKills
import Qubox.Host.ControlChannels
import Qubox.Clipboard.Echo
import Qubox.Identity.Migration
import Qubox.Library.Interference
import Qubox.Identity.Device
import Qubox.Identity.Sharing
import Qubox.Identity.Enduring
import Qubox.Identity.OneIdentity
import Qubox.Host.Rotation
import Qubox.Host.PinStore
import Qubox.Daemon.SoleChild
import Qubox.Daemon.Restarts
import Qubox.Signaling.Bystanders
import Qubox.Host.DatagramLoop
import Qubox.Host.Consent
import Qubox.Host.DisplayPrivacy
import Qubox.Host.SessionPrivacy
import Qubox.Transport.Admission
import Qubox.Signaling.Persistence
import Qubox.Signaling.Bundles
import Qubox.Signaling.IceFilter
import Qubox.Signaling.SessionTerms
import Qubox.Signaling.CanonicalBundle
import Qubox.Media.Inflight
import Qubox.Media.ErasureRoundTrip
import Qubox.Media.ChunkEncoder
import Qubox.Media.Completeness
import Qubox.Media.LossFree
import Qubox.Library.UnixTree
import Qubox.FileSync.Header
import Qubox.FileSync.RelativePath
import Qubox.Sync.TransferHeader
import Qubox.Sync.Confinement
import Qubox.Signaling.Jwks
import Qubox.Update.Failing
import Qubox.Library.Timeline
import Qubox.Daemon.History
import Qubox.Daemon.Ipc
import Qubox.Daemon.Subscription
import Qubox.Sync.Selection
import Qubox.Sync.Tracking
import Qubox.Host.Injectors
import Qubox.Host.BrowserInput
import Qubox.Host.BrowserVideo
import Qubox.Library.Superseding
import Qubox.Media.PenCoalescer
import Qubox.Mic.Pipeline
import Qubox.Mic.Ring
import Qubox.Library.Numeral
import Qubox.Client.InputPath
import Qubox.Client.TiledView
import Qubox.Client.WindowInput
import Qubox.Signaling.ReplayCache
import Qubox.Media.PenRoundTrip
import Qubox.Daemon.Pidfile
import Qubox.Host.RateControl
import Qubox.Host.RateFeedback
import Qubox.Signaling.TurnCredentials
import Qubox.Host.CaptureOrchestrator
import Qubox.Host.SessionEnds
import Qubox.Media.Av1Framer
