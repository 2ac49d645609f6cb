import LiveRelay.ChunkEncoder
import LiveRelay.Errors
import LiveRelay.SocketAddress

/-!
# Configuration

The settings of a server, with their defaults.  Settings that are made through
an operation stay inside their range; fields can also be set to anything, and
`validate` finds the settings with which a server cannot run.
-/

namespace LiveRelay

structure RelayConfiguration where
  /-- How many parts the directory of streams has. -/
  shardCount : Nat := 64
  /-- Zero turns the group cache off. -/
  maximumGroupBytes : Nat := 4194304
  /-- With more pending messages than this, ordinary frames are left out. -/
  skipThreshold : Nat := 300
  deriving DecidableEq, Inhabited, Repr

def RelayConfiguration.withShardCount (configuration : RelayConfiguration)
    (count : Nat) : RelayConfiguration :=
  { configuration with shardCount := max count 1 }

structure ServerConfiguration where
  /-- Where clients are awaited; all octets zero for every address of the host. -/
  address : SocketAddress := ⟨.four ⟨0, 0, 0, 0⟩, 1935⟩
  /-- Zero means that there is no limit. -/
  maximumConnections : Nat := 0
  /-- The chunk size for what the server sends. -/
  chunkSize : UInt32 := 4096
  /-- The largest chunk size that a client may set. -/
  maximumChunkSize : UInt32 := 65536
  maximumMessageSize : UInt32 := 16777216
  windowAckSize : UInt32 := 2500000
  peerBandwidth : UInt32 := 2500000
  /-- Milliseconds for the handshake, and for the last messages at the end. -/
  connectionTimeout : Nat := 10000
  /-- Milliseconds without reading or writing. -/
  idleTimeout : Nat := 60000
  /-- Whether small pieces are sent without delay. -/
  sendsWithoutDelay : Bool := true
  readBufferSize : Nat := 65536
  writeBufferSize : Nat := 65536
  bufferPoolSize : Nat := 1024
  relay : RelayConfiguration := {}
  deriving DecidableEq, Inhabited, Repr

namespace ServerConfiguration

def smallestMaximumChunkSize : UInt32 := 128

def clamped (size : UInt32) : UInt32 :=
  min (max size 1) ChunkEncoder.largestChunkSize

def withChunkSize (configuration : ServerConfiguration) (size : UInt32) :
    ServerConfiguration :=
  { configuration with chunkSize := clamped size }

def withMaximumChunkSize (configuration : ServerConfiguration) (size : UInt32) :
    ServerConfiguration :=
  { configuration with maximumChunkSize := clamped size }

def withoutGroupCache (configuration : ServerConfiguration) :
    ServerConfiguration :=
  { configuration with
    relay := { configuration.relay with maximumGroupBytes := 0 } }

/-- The first thing that is wrong, if anything is. -/
def validate (configuration : ServerConfiguration) : Except Error Unit :=
  let chunkSize := configuration.chunkSize
  let messageSize := configuration.maximumMessageSize
  let maximum := configuration.maximumChunkSize
  if chunkSize = 0 then
    .error (.configuration "chunk size must be non-zero")
  else if messageSize < chunkSize then
    .error (.configuration
      s!"chunk size {chunkSize} exceeds max message size {messageSize}")
  else if maximum < smallestMaximumChunkSize then
    .error (.configuration
      s!"max chunk size {maximum} is below the protocol default {smallestMaximumChunkSize}")
  else if configuration.readBufferSize = 0 ∨ configuration.writeBufferSize = 0 then
    .error (.configuration "buffer sizes must be non-zero")
  else .ok ()

end ServerConfiguration

end LiveRelay
