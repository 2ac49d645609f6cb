import LiveRelay.Configuration

/-!
# Settings by name

Settings that are numbers can be made and listed under a name.  A plain name
stands for the operation that keeps the setting inside its range, and a name
that starts with `set_` for the field as it is.  The limits of the relay are
listed but not made one by one.  The address is made from its text.
-/

namespace LiveRelay

namespace ServerConfiguration

/-- A name that is not known changes nothing. -/
def set (configuration : ServerConfiguration) (name : String) (value : Nat) :
    ServerConfiguration :=
  let word := UInt32.ofNat value
  match name with
  | "max_connections" => { configuration with maximumConnections := value }
  | "chunk_size" => configuration.withChunkSize word
  | "max_chunk_size" => configuration.withMaximumChunkSize word
  | "window_ack_size" => { configuration with windowAckSize := word }
  | "connection_timeout_ms" => { configuration with connectionTimeout := value }
  | "idle_timeout_ms" => { configuration with idleTimeout := value }
  | "buffer_pool_size" => { configuration with bufferPoolSize := value }
  | "disable_gop_cache" => configuration.withoutGroupCache
  | "set_chunk_size" => { configuration with chunkSize := word }
  | "set_max_message_size" => { configuration with maximumMessageSize := word }
  | "set_max_chunk_size" => { configuration with maximumChunkSize := word }
  | "set_peer_bandwidth" => { configuration with peerBandwidth := word }
  | "set_read_buffer_size" => { configuration with readBufferSize := value }
  | "set_write_buffer_size" => { configuration with writeBufferSize := value }
  | _ => configuration

/-- A text that stands for no address changes nothing. -/
def setAddress (configuration : ServerConfiguration) (text : String) :
    ServerConfiguration :=
  match SocketAddress.ofText? text with
  | some address => { configuration with address }
  | none => configuration

def settings (configuration : ServerConfiguration) : Fields Nat :=
  [("max_connections", configuration.maximumConnections),
    ("chunk_size", configuration.chunkSize.toNat),
    ("max_chunk_size", configuration.maximumChunkSize.toNat),
    ("max_message_size", configuration.maximumMessageSize.toNat),
    ("window_ack_size", configuration.windowAckSize.toNat),
    ("peer_bandwidth", configuration.peerBandwidth.toNat),
    ("connection_timeout_ms", configuration.connectionTimeout),
    ("idle_timeout_ms", configuration.idleTimeout),
    ("read_buffer_size", configuration.readBufferSize),
    ("write_buffer_size", configuration.writeBufferSize),
    ("buffer_pool_size", configuration.bufferPoolSize),
    ("shard_count", configuration.relay.shardCount),
    ("max_gop_size", configuration.relay.maximumGroupBytes),
    ("skip_threshold", configuration.relay.skipThreshold)]

end ServerConfiguration

end LiveRelay
