import LiveRelay.Connection

/-!
# Server

The server numbers connections as they come in and serves each as a session
until the client goes away, an error ends it, or it has been idle for too long.
A connection beyond the limit is dropped unseen.  So is one whose socket cannot
be set up as configured, but it has taken a number.

When a session ends, what is left in its queue is still written.  Then all that
it published or played is given up.
-/

namespace LiveRelay

structure Server where
  configuration : ServerConfiguration := {}
  policy : PolicyChain
  relay : Relay
  /-- The running sessions by their numbers. -/
  sessions : Table Nat Session := []
  nextSession : Nat := 1
  /-- How many connections were served, the running ones included. -/
  served : Nat := 0

/-! ## One connection -/

namespace Connection

/-- The longest message and chunk size that a session puts up with. -/
def freshInbound (configuration : ServerConfiguration) : Inbound where
  decoder := { maximum := configuration.maximumMessageSize }
  control := { maximumChunkSize := configuration.maximumChunkSize }

/-- All that waits in the queue is written. -/
def flush (connection : Connection) : Bytes × Connection :=
  let session := connection.session
  let relay := connection.relay
  let queue := relay.queues[session.queue]?.getD {}
  let (bytes, writer) := session.writer.writeAll queue.messages
  let emptied :=
    { queue with
      messages := [], pending := queue.pending - queue.messages.length }
  (bytes,
    { session := { session with writer := writer }
      relay :=
        { relay with
          queues := relay.queues.set session.queue emptied
          pool := relay.pool.releaseAll queue.buffers } })

/-- The session gives up all its streams, without notifying itself. -/
def giveUpStreams (order : TeardownOrder) (connection : Connection) :
    Connection :=
  let (streams, state) := connection.session.state.drainStreams
  (order.arrange streams).foldl
    (fun connection (streamId, mode) =>
      connection.stopStream streamId mode false)
    (connection.updateState fun _ => { state with phase := .closing })

/-- The end of a session: its last messages are written, its queue goes, and it
gives up what it had. -/
def finish (policy : PolicyChain) (order : TeardownOrder)
    (connection : Connection) : Bytes × Connection :=
  let queue := connection.session.queue
  let connection :=
    { connection with relay := connection.relay.closeQueue queue }
  let (bytes, connection) := connection.flush
  let connection :=
    { connection with relay := connection.relay.hangUpQueue queue }
  let connection := (connection.giveUpStreams order).tell .disconnected
  (bytes, connection.noteAsked .disconnect policy.names)

/-- What the bytes read so far hold is handled; the error is the one that ends
the session. -/
def work (configuration : ServerConfiguration) (policy : PolicyChain)
    (connection : Connection) : Option Error × Connection :=
  let outcome := connection.session.inbound.drain
  let session := { connection.session with inbound := outcome.inbound }
  match receiveAll configuration policy outcome.arrivals
      { connection with session := session } with
  | (some error, connection) => (some error, connection)
  | (none, connection) => (outcome.error, connection)

/-- Bytes that have come in are counted once they have been handled. -/
def acknowledge (count : Nat) (connection : Connection) : Connection :=
  let session := connection.session
  let control := session.inbound.control
  let (due, acknowledgements) := control.acknowledgements.receive count
  let control := { control with acknowledgements := acknowledgements }
  let inbound := { session.inbound with control := control }
  let connection := { connection with session := { session with inbound := inbound } }
  match due with
  | some sequence => connection.sendControl (.acknowledgement sequence)
  | none => connection

/-- The handshake is over: the server announces its chunk size, and what came
behind the handshake is handled. -/
def beginSession (configuration : ServerConfiguration) (policy : PolicyChain)
    (connection : Connection) : Option Error × Connection :=
  let chunkSize := configuration.chunkSize
  let connection := connection.updateState SessionState.completeHandshake
  let connection := connection.tell .handshakeCompleted
  let connection := connection.sendControl (.setChunkSize chunkSize)
  let connection :=
    connection.updateState ({ · with outboundChunkSize := chunkSize })
  connection.work configuration policy

/-- The answer to a piece of the handshake comes first. -/
def receiveHandshake (configuration : ServerConfiguration) (policy : PolicyChain)
    (keyed : KeyedDigest) (fill : Handshake.Fill) (connection : Connection) :
    Bytes × Option Error × Connection :=
  let session := connection.session
  let outcome := session.handshake.process keyed fill session.inbound.unread
  let inbound := { session.inbound with unread := outcome.rest }
  let session :=
    { session with handshake := outcome.handshake, inbound := inbound }
  let connection := { connection with session := session }
  match outcome.response with
  | .error error => ([], some (.handshake error), connection)
  | .ok response =>
      (response.getD [],
        if outcome.handshake.isDone then
          connection.beginSession configuration policy
        else (none, connection))

/-- What a piece of bytes from the client leads to: bytes written at once, the
error that ends the session if one does, and the connection. -/
def receive (configuration : ServerConfiguration) (policy : PolicyChain)
    (keyed : KeyedDigest) (fill : Handshake.Fill) (piece : Bytes)
    (connection : Connection) : Bytes × Option Error × Connection :=
  let session := connection.session
  let inbound :=
    { session.inbound with unread := session.inbound.unread ++ piece }
  let connection := { connection with session := { session with inbound := inbound } }
  if session.handshake.isDone then
    match connection.work configuration policy with
    | (some error, connection) => ([], some error, connection)
    | (none, connection) => ([], none, connection.acknowledge piece.length)
  else connection.receiveHandshake configuration policy keyed fill

end Connection

/-! ## All connections -/

namespace Server

def ofConfiguration (configuration : ServerConfiguration) (policy : PolicyChain)
    (observers : List Observer) (spread : StreamPath → Nat) : Server where
  configuration := configuration
  policy := policy
  relay :=
    .ofConfiguration configuration.relay spread
      { maximumPooled := configuration.bufferPoolSize } observers

def active (server : Server) : Nat :=
  server.sessions.length

def connection? (server : Server) (session : Nat) : Option Connection :=
  (server.sessions.get? session).map (⟨·, server.relay⟩)

/-- The server after its connection with a running session has changed. -/
def keep (server : Server) (connection : Connection) : Server :=
  let session := connection.session
  { server with
    relay := connection.relay
    sessions := server.sessions.put session.id session }

/-- What is written at the end of a session, which gives up its streams in the
given order. -/
def endSessionIn (order : TeardownOrder) (server : Server) (session : Nat) :
    Bytes × Server :=
  match server.connection? session with
  | some connection =>
      let (bytes, connection) := connection.finish server.policy order
      (bytes,
        { server with
          relay := connection.relay, sessions := server.sessions.erase session })
  | none => ([], server)

def endSession (server : Server) (session : Nat) : Bytes × Server :=
  server.endSessionIn .asListed session

/-- What waits for the client of a session is written. -/
def flush (server : Server) (session : Nat) : Bytes × Server :=
  match server.connection? session with
  | some connection =>
      let (bytes, connection) := connection.flush
      (bytes, server.keep connection)
  | none => ([], server)

/-- No more connections are served for now. -/
def isFull (server : Server) : Bool :=
  let maximum := server.configuration.maximumConnections
  0 < maximum && maximum ≤ server.active

/-- A connection that policies let in becomes a session. -/
def letIn (server : Server) (session : Nat) : Option Nat × Server :=
  let context : SessionContext := { sessionId := session }
  let (admitted, names) := server.policy.admits context
  let (queue, relay) := server.relay.openQueue
  let fresh : Session :=
    { context := context, queue := queue,
      inbound := Connection.freshInbound server.configuration }
  let connection := Connection.noteAsked ⟨fresh, relay⟩ .connection names
  let server := { server with served := server.served + 1 }
  if admitted then (some session, server.keep (connection.tell .connected))
  else (none, { server with relay := connection.relay })

/-- The number of a new session.  The flag tells whether the socket can send
small pieces without delay. -/
def accept (server : Server) (canSendWithoutDelay : Bool) :
    Option Nat × Server :=
  if server.isFull then (none, server)
  else
    let session := server.nextSession
    let server := { server with nextSession := session + 1 }
    if server.configuration.sendsWithoutDelay && !canSendWithoutDelay then
      (none, server)
    else server.letIn session

/-- What is written when a piece of bytes has come in for a session. -/
def receive (server : Server) (keyed : KeyedDigest) (fill : Handshake.Fill)
    (session : Nat) (piece : Bytes) : Bytes × Server :=
  match server.connection? session with
  | some connection =>
      let (bytes, error, connection) :=
        connection.receive server.configuration server.policy keyed fill piece
      let server := server.keep connection
      if error.isSome then
        let (last, server) := server.endSession session
        (bytes ++ last, server)
      else (bytes, server)
  | none => ([], server)

/-- The publication under a path. -/
def stream? (server : Server) (path : StreamPath) : Option Publication :=
  (server.relay.directory.get? path).bind (server.relay.publications[·]?)

end Server

end LiveRelay
