/-!
# Errors

Errors are split by the layer that raises them.  An `Error` that surfaces from
a session's loop ends the session.  A `RegistryError` never does: it is
reported to the client as a status.
-/

namespace LiveRelay

/-- What is wrong with a sequence of encoded values. -/
inductive AmfError where
  | unknownMarker (marker : UInt8)
  | unexpectedEnd
  | invalidText
  | invalidReference (index : UInt16)
  | nestingTooDeep
  | invalidObjectEnd
  deriving DecidableEq, Repr

inductive ProtocolError where
  | invalidChunkHeader
  /-- A compressed header on a chunk stream that never had a full one. -/
  | missingChunkHeader (chunkStream : UInt32)
  | messageTooLarge (size maximum : UInt32)
  | invalidChunkStream (chunkStream : UInt32)
  | chunkSizeTooLarge (size maximum : UInt32)
  | invalidChunkSize (size : UInt32)
  | unexpectedMessage (what : String)
  | invalidCommand (what : String)
  deriving DecidableEq, Repr

inductive HandshakeError where
  | invalidState
  | invalidPacketSize (expected actual : Nat)
  deriving DecidableEq, Repr

inductive RegistryError where
  | alreadyPublishing (path : String)
  | streamNotFound (path : String)
  | alreadySubscribing (path : String)
  deriving DecidableEq, Repr

inductive Error where
  /-- The peer's end of the connection is gone. -/
  | brokenPipe
  | protocol (cause : ProtocolError)
  | amf (cause : AmfError)
  | handshake (cause : HandshakeError)
  | registry (cause : RegistryError)
  | rejected (reason : String)
  | timedOut
  | connectionClosed
  | configuration (what : String)
  deriving DecidableEq, Repr

/-- Whether two errors have the same cause, whatever its details. -/
def Error.isLike : Error → Error → Bool
  | .protocol left, .protocol right => left.ctorIdx == right.ctorIdx
  | .amf left, .amf right => left.ctorIdx == right.ctorIdx
  | .handshake left, .handshake right => left.ctorIdx == right.ctorIdx
  | .registry left, .registry right => left.ctorIdx == right.ctorIdx
  | left, right => left.ctorIdx == right.ctorIdx

/-- Two lower-case digits. -/
def hexByte (byte : UInt8) : String :=
  String.ofList
    [Nat.digitChar (byte.toNat / 16), Nat.digitChar (byte.toNat % 16)]

def AmfError.message : AmfError → String
  | .unknownMarker marker => "Unknown AMF marker: 0x" ++ hexByte marker
  | .unexpectedEnd => "Unexpected end of AMF data"
  | .invalidText => "Invalid UTF-8 in AMF string"
  | .invalidReference index => s!"Invalid AMF reference: {index}"
  | .nestingTooDeep => "AMF nesting too deep"
  | .invalidObjectEnd => "Invalid object end marker"

def ProtocolError.message : ProtocolError → String
  | .invalidChunkHeader => "Invalid chunk header"
  | .missingChunkHeader chunkStream =>
      s!"No previous header for chunk stream {chunkStream}"
  | .messageTooLarge size maximum =>
      s!"Message too large: {size} bytes (max {maximum})"
  | .invalidChunkStream chunkStream =>
      s!"Invalid chunk stream ID: {chunkStream}"
  | .chunkSizeTooLarge size maximum =>
      s!"Chunk size too large: {size} (max {maximum})"
  | .invalidChunkSize size => s!"Invalid chunk size: {size}"
  | .unexpectedMessage what => s!"Unexpected message: {what}"
  | .invalidCommand what => s!"Invalid command: {what}"

def HandshakeError.message : HandshakeError → String
  | .invalidState => "Invalid handshake state"
  | .invalidPacketSize expected actual =>
      s!"Invalid handshake packet: {actual} bytes (expected {expected})"

def RegistryError.message : RegistryError → String
  | .alreadyPublishing path => s!"Stream already exists: {path}"
  | .streamNotFound path => s!"Stream doesn't exist: {path}"
  | .alreadySubscribing path => s!"Already subscribing to {path}"

def Error.message : Error → String
  | .brokenPipe => "I/O error: broken pipe"
  | .protocol cause => "Protocol error: " ++ cause.message
  | .amf cause => "AMF error: " ++ cause.message
  | .handshake cause => "Handshake error: " ++ cause.message
  | .registry cause => "Registry error: " ++ cause.message
  | .rejected reason => s!"Connection rejected: {reason}"
  | .timedOut => "Operation timed out"
  | .connectionClosed => "Connection closed"
  | .configuration what => s!"Configuration error: {what}"

/-- Only a failure of the connection has a cause of its own underneath. -/
def Error.hasSource : Error → Bool
  | .brokenPipe => true
  | _ => false

end LiveRelay
