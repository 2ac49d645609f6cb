import LiveRelay.Bytes
import LiveRelay.Binary64
import LiveRelay.ShortestDecimal
import LiveRelay.Table
import LiveRelay.Errors
import LiveRelay.AmfValue
import LiveRelay.CharacterClass
import LiveRelay.AmfText
import LiveRelay.AmfReader
import LiveRelay.Amf3Reading
import LiveRelay.Amf0Reading
import LiveRelay.Amf0Writing
import LiveRelay.ChunkHeader
import LiveRelay.ChunkDecoder
import LiveRelay.ChunkFeed
import LiveRelay.ChunkEncoder
import LiveRelay.Message
import LiveRelay.Command
import LiveRelay.ProtocolControl
import LiveRelay.Inbound
import LiveRelay.Sha256
import LiveRelay.Handshake
import LiveRelay.ServerBlocks
import LiveRelay.MediaFrame
import LiveRelay.BufferPool
import LiveRelay.GroupCache
import LiveRelay.StreamPath
import LiveRelay.Outbound
import LiveRelay.StreamCounters
import LiveRelay.Activity
import LiveRelay.SocketAddress
import LiveRelay.Configuration
import LiveRelay.Settings
import LiveRelay.SessionContext
import LiveRelay.Policy
import LiveRelay.Notice
import LiveRelay.StreamDirectory
import LiveRelay.StatusCode
import LiveRelay.Subscription
import LiveRelay.Publication
import LiveRelay.Relay
import LiveRelay.Registration
import LiveRelay.Distribution
import LiveRelay.SessionState
import LiveRelay.Connection
import LiveRelay.Server
import LiveRelay.Loopback
import LiveRelay.Proofs.ChunkHeaderRoundTrip
import LiveRelay.Proofs.ChunkRoundTrip
import LiveRelay.Proofs.Streams
import LiveRelay.Proofs.StreamOperations
import LiveRelay.Proofs.Outlines
import LiveRelay.Proofs.Register
import LiveRelay.Proofs.Ownership
import LiveRelay.Proofs.Tenure
import LiveRelay.Proofs.Ledger
import LiveRelay.Proofs.Standing
import LiveRelay.Proofs.ServerRun
import LiveRelay.Proofs.SessionEnd
import LiveRelay.Proofs.Permission
import LiveRelay.Proofs.LifecycleEvents
import LiveRelay.Proofs.OnAir
import LiveRelay.Proofs.Airing
import LiveRelay.Proofs.PlayMessages
import LiveRelay.Proofs.Viewer
import LiveRelay.Proofs.SubscriberFeed
import LiveRelay.Proofs.BroadcastSchedule
import LiveRelay.Proofs.JoinInterleaving
import LiveRelay.Proofs.InboundPieces
import LiveRelay.Proofs.ControlMessages
import LiveRelay.Proofs.OutboundDelivery
import LiveRelay.Proofs.AmfTrees
import LiveRelay.Proofs.AmfRoundTrip
import LiveRelay.Proofs.AmfDecoded
import LiveRelay.Proofs.AmfForwarding
import LiveRelay.Proofs.AmfNesting
import LiveRelay.Proofs.AmfChains
import LiveRelay.Proofs.AmfTaking
import LiveRelay.Proofs.AmfLeniency
import LiveRelay.Proofs.AmfReferences
import LiveRelay.Proofs.Amf3Sending
import LiveRelay.Proofs.Amf3RoundTrip
import LiveRelay.Proofs.AmfCuts
import LiveRelay.Proofs.AmfSequences
import LiveRelay.Proofs.MessageRoundTrip
import LiveRelay.Proofs.CommandFields
import LiveRelay.Proofs.CutCommands
import LiveRelay.Proofs.RelayRun
import LiveRelay.Proofs.Stocks
import LiveRelay.Proofs.KeyFrameGroup
import LiveRelay.Proofs.LateViewers
import LiveRelay.Proofs.StreamListing
import LiveRelay.Proofs.StreamMap
import LiveRelay.Proofs.BufferClaims
import LiveRelay.Proofs.BufferHolders
import LiveRelay.Proofs.HandshakeBlocks
import LiveRelay.Proofs.HandshakePieces
import LiveRelay.Proofs.HandshakeDigests
import LiveRelay.Proofs.ChunkInterleaving
import LiveRelay.Proofs.ChunkLengths
import LiveRelay.Proofs.ChunkResynchronisation
import LiveRelay.Proofs.HeldUpChunks
import LiveRelay.Proofs.AcknowledgedBytes
import LiveRelay.Proofs.OthersView
import LiveRelay.Proofs.OwnHoldings
import LiveRelay.Proofs.SessionIsolation
import LiveRelay.Proofs.Faults
import LiveRelay.Proofs.GuardedHandshake
import LiveRelay.Proofs.GuardedChunks
import LiveRelay.Proofs.GuardedReaders
import LiveRelay.Proofs.GuardedValues
import LiveRelay.Proofs.GuardedMessages
import LiveRelay.Proofs.GuardedConnection
import LiveRelay.Proofs.GuardedServer
import LiveRelay.Proofs.StreamNumbers
import LiveRelay.Proofs.Letters
import LiveRelay.Proofs.EndOfStream
import LiveRelay.Proofs.ClosedQueues
import LiveRelay.Proofs.SessionTraffic
import LiveRelay.Proofs.RefusedRequests
import LiveRelay.Proofs.PolicyNesting
import LiveRelay.Proofs.StreamKeys
import LiveRelay.Proofs.ChunkReassembly
import LiveRelay.Proofs.AmfNodes
import LiveRelay.Proofs.AmfPayment
import LiveRelay.Proofs.AmfPaidReading
import LiveRelay.Proofs.AmfSharing
