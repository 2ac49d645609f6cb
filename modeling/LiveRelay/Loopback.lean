import LiveRelay.Activity
import LiveRelay.Server

/-!
# Loopback

Clients in the same process as the server, each with its own chunk streams in
both directions.  A client passes through the handshake when it is opened, and
from then on sends messages and reads what the server has written for it.  The
server's clock stands still, so only a session that may not be idle at all
times out.

The server's acknowledgements depend on how the bytes between the two ends are
split, and are passed over when a client reads.
-/

namespace LiveRelay

structure LoopbackClient where
  /-- Zero, which no session has, if the connection was not taken. -/
  session : Nat := 0
  encoder : ChunkEncoder := {}
  /-- What the server has written behind the handshake. -/
  inbound : Inbound := {}

structure Loopback where
  server : Server
  /-- Whether the ends of a loopback can send small pieces without delay. -/
  canSendWithoutDelay : Bool := false
  keyed : KeyedDigest
  fill : Handshake.Fill
  clients : Fields LoopbackClient := []

namespace LoopbackClient

/-- A client puts up with messages and chunks of any size. -/
def patient : Inbound where
  decoder := { maximum := 0xFFFFFFFF }
  control := { maximumChunkSize := 0xFFFFFFFF }

/-- Version byte and two blocks. -/
def responseSize : Nat := 1 + 2 * HandshakeSchema.blockSize

/-- Messages from the server, and the client after reading them. -/
def read (client : LoopbackClient) : List WireMessage × LoopbackClient :=
  let outcome := client.inbound.drain
  let messages := outcome.arrivals.map Arrival.wire
  (messages.filter (·.typeId ≠ 3), { client with inbound := outcome.inbound })

def receive (client : LoopbackClient) (bytes : Bytes) : LoopbackClient :=
  { client with
    inbound := { client.inbound with unread := client.inbound.unread ++ bytes } }

end LoopbackClient

namespace Loopback

def isRunning (loopback : Loopback) (session : Nat) : Bool :=
  loopback.server.sessions.contains session

/-- A session whose handshake is over may not be idle for longer than
configured. -/
def expire (loopback : Loopback) (session : Nat) : Bytes × Loopback :=
  let limit := loopback.server.configuration.idleTimeout
  let isServed :=
    (loopback.server.sessions.get? session).any fun running =>
      running.handshake.isDone
  if isServed && ({} : Activity).isExpired limit 0 then
    let (bytes, server) := loopback.server.endSession session
    (bytes, { loopback with server := server })
  else ([], loopback)

/-- Bytes for the server, and what it writes at once. -/
def deliver (loopback : Loopback) (session : Nat) (bytes : Bytes) :
    Bytes × Loopback :=
  let (written, server) :=
    loopback.server.receive loopback.keyed loopback.fill session bytes
  let (last, loopback) := { loopback with server := server }.expire session
  (written ++ last, loopback)

/-- A new client: the start of what it sends up to the end of its first block,
the rest of which is zeros, and what it sends behind its second block, which is
all zeros. -/
def connect (loopback : Loopback) (name : String) (hello behind : Bytes) :
    Loopback :=
  match loopback.server.accept loopback.canSendWithoutDelay with
  | (none, server) =>
      { loopback with
        server := server, clients := loopback.clients.put name {} }
  | (some session, server) =>
      let zeros : Bytes :=
        List.replicate (1 + HandshakeSchema.blockSize - hello.length) 0
      let second := List.replicate HandshakeSchema.blockSize 0 ++ behind
      let (first, loopback) :=
        { loopback with server := server }.deliver session (hello ++ zeros)
      let (last, loopback) := loopback.deliver session second
      let client : LoopbackClient :=
        { session := session, inbound := LoopbackClient.patient }
      let written := (first ++ last).drop LoopbackClient.responseSize
      { loopback with
        clients := loopback.clients.put name (client.receive written) }

/-- Bytes from a client. -/
def sendBytes (loopback : Loopback) (name : String) (client : LoopbackClient)
    (bytes : Bytes) : Loopback :=
  let (written, loopback) := loopback.deliver client.session bytes
  { loopback with clients := loopback.clients.put name (client.receive written) }

/-- A message from a client, who keeps to the chunk size that it announces. -/
def sendMessage (loopback : Loopback) (name : String) (client : LoopbackClient)
    (message : WireMessage) : Loopback :=
  let (bytes, encoder) := client.encoder.encode message
  let encoder :=
    match message.typeId, message.payload.split? 4 with
    | 1, some (size, _) => encoder.setChunkSize (Message.masked (Bytes.word32 size))
    | _, _ => encoder
  loopback.sendBytes name { client with encoder := encoder } bytes

def hangUp (loopback : Loopback) (name : String) : Loopback :=
  match loopback.clients.get? name with
  | some client =>
      { loopback with
        server := (loopback.server.endSession client.session).2
        clients := loopback.clients.erase name }
  | none => loopback

/-- How many bytes someone gets who sends no more than these bytes and is
dropped for it. -/
def stall (loopback : Loopback) (bytes : Bytes) : Nat × Loopback :=
  match loopback.server.accept loopback.canSendWithoutDelay with
  | (none, server) => (0, { loopback with server := server })
  | (some session, server) =>
      let (written, loopback) :=
        { loopback with server := server }.deliver session bytes
      let (last, server) := loopback.server.endSession session
      (written.length + last.length, { loopback with server := server })

/-- One client reads all that waits for it. -/
def readFor (loopback : Loopback) (name : String) (client : LoopbackClient) :
    List WireMessage × Loopback :=
  let (bytes, server) := loopback.server.flush client.session
  let (messages, client) := (client.receive bytes).read
  (messages,
    { loopback with
      server := server, clients := loopback.clients.put name client })

/-- What each client reads. -/
def readAll (loopback : Loopback) : Fields (List WireMessage) × Loopback :=
  loopback.clients.foldl
    (fun (read, loopback) (name, client) =>
      let (messages, loopback) := loopback.readFor name client
      (read ++ [(name, messages)], loopback))
    ([], loopback)

/-- Clients whose session is over are dropped and named. -/
def dropClosed (loopback : Loopback) : List String × Loopback :=
  let (running, closed) :=
    List.partition (fun client => loopback.isRunning client.2.session)
      loopback.clients
  (closed.map Prod.fst, { loopback with clients := running })

/-- What there is to see at a moment: what each client reads, which of them are
found closed, and the notices since the last time. -/
structure Glance where
  messages : Fields (List WireMessage)
  closed : List String
  notices : List Notice

def look (loopback : Loopback) : Glance × Loopback :=
  let (messages, loopback) := loopback.readAll
  let (closed, loopback) := loopback.dropClosed
  let (notices, relay) := loopback.server.relay.takeLog
  (⟨messages.filter (!·.2.isEmpty), closed, notices⟩,
    { loopback with server := { loopback.server with relay := relay } })

end Loopback

end LiveRelay
