import LiveRelay.Distribution
import LiveRelay.Handshake
import LiveRelay.Inbound
import LiveRelay.Registration
import LiveRelay.SessionState

/-!
# Connections

A connection is a session together with the relay that it shares with the
others.  Each message of the client changes the session, the relay, or both,
and every answer goes through the session's queue.

Nothing but `connect` is accepted before a connect was accepted, and whoever
asks for something else first is turned away.  Requests to publish or play that
are refused are answered with an error status, and the session goes on.  An
error ends it.
-/

namespace LiveRelay

structure Session where
  context : SessionContext
  state : SessionState := {}
  handshake : Handshake := {}
  inbound : Inbound := {}
  /-- The place of its queue. -/
  queue : Nat
  writer : OutboundWriter := {}

def Session.id (session : Session) : Nat :=
  session.context.sessionId

structure Connection where
  session : Session
  relay : Relay

namespace Connection

/-! ## Answers, notices and questions -/

def send (connection : Connection) (message : OutboundMessage) : Connection :=
  { connection with
    relay := (connection.relay.send connection.session.queue message).2 }

def sendControl (connection : Connection) (message : Message) : Connection :=
  connection.send (.control message)

def status (connection : Connection) (streamId : UInt32)
    (code description : String) : Connection :=
  connection.send (.status streamId "status" code description)

def refuse (connection : Connection) (streamId : UInt32)
    (code description : String) : Connection :=
  connection.send (.status streamId "error" code description)

def tell (connection : Connection) (event : SessionEvent) : Connection :=
  { connection with
    relay := connection.relay.note (.event connection.session.context event) }

/-- The question is noted for each policy that was asked. -/
def noteAsked (connection : Connection) (question : Question)
    (names : List String) : Connection :=
  { connection with
    relay :=
      names.foldl
        (fun relay name =>
          relay.note (.asked name connection.session.context question))
        connection.relay }

def ask (connection : Connection) (policy : PolicyChain) (request : Request) :
    Decision × Connection :=
  let (decision, names) := policy.decide connection.session.context request
  (decision, connection.noteAsked (.request request) names)

def updateState (connection : Connection)
    (change : SessionState → SessionState) : Connection :=
  { connection with
    session :=
      { connection.session with state := change connection.session.state } }

def setMode (connection : Connection) (streamId : UInt32) (mode : StreamMode) :
    Connection :=
  connection.updateState (·.setMode streamId mode)

/-! ## Connecting -/

def serverProperties : AmfValue :=
  .object
    [("fmsVer", .text "FMS/3,5,7,7009"), ("capabilities", .number (.ofNat 31)),
      ("mode", .number (.ofNat 1))]

def connectionInfo (level code description : String) : Properties :=
  [("level", .text level), ("code", .text code),
    ("description", .text description)]

/-- A second connect is passed over. -/
def connect (configuration : ServerConfiguration) (policy : PolicyChain)
    (transaction : Binary64) (parameters : ConnectParameters)
    (connection : Connection) : Option Error × Connection :=
  if connection.session.state.isConnected then (none, connection)
  else
    let (decision, connection) := connection.ask policy (.connect parameters)
    match decision with
    | .reject reason =>
        let info :=
          connectionInfo "error" StatusCode.connectRejected reason
        (some (.rejected reason),
          connection.send (.reply (.failure transaction .null (.object info))))
    | _ =>
        let session := connection.session
        let state := session.state.connect
        let session :=
          { session with
            state := { state with outboundWindow := configuration.windowAckSize }
            context := session.context.withConnect parameters }
        let info :=
          connectionInfo "status" StatusCode.connectSuccess "Connection succeeded."
            ++ [("objectEncoding", .number parameters.objectEncoding)]
        let connection := { connection with session := session }
        let connection :=
          connection.sendControl (.windowAckSize configuration.windowAckSize)
        let connection :=
          connection.sendControl (.setPeerBandwidth configuration.peerBandwidth 2)
        let connection :=
          connection.sendControl (.userControl (.streamBegin 0))
        (none,
          connection.send
            (.reply (.result transaction serverProperties (.object info))))

/-! ## Streams of a session -/

def createStream (transaction : Binary64) (connection : Connection) :
    Connection :=
  let (streamId, state) := connection.session.state.allocate
  let number := AmfValue.number (.ofNat streamId.toNat)
  (connection.updateState fun _ => state).send
    (.reply (.result transaction .null number))

/-- What a stream did is given up; the session itself is told only if
`notifies`. -/
def stopStream (streamId : UInt32) (mode : StreamMode) (notifies : Bool)
    (connection : Connection) : Connection :=
  match mode with
  | .idle => connection
  | .publishing publication =>
      let path := connection.relay.pathOf publication
      let (stopped, relay) := connection.relay.stopPublishing publication
      let connection := { connection with relay := relay }
      let connection :=
        if stopped then
          { connection with relay := relay.observe path .groupCleared }.tell
            (.unpublished path)
        else connection
      if notifies then
        connection.status streamId StatusCode.unpublishSuccess
          s!"{path.text} is now unpublished."
      else connection
  | .playing publication subscription =>
      let path := connection.relay.pathOf publication
      let (stopped, relay) :=
        connection.relay.stopSubscribing publication subscription
      let connection := { connection with relay := relay }
      let connection :=
        if stopped then connection.tell (.unsubscribed path) else connection
      if notifies then
        connection.status streamId StatusCode.playStop
          s!"Stopped playing {path.text}."
      else connection

def closeStream (streamId : UInt32) (connection : Connection) : Connection :=
  let (mode, state) := connection.session.state.takeMode streamId
  (connection.updateState fun _ => state).stopStream streamId mode true

def deleteStream (streamId : UInt32) (connection : Connection) : Connection :=
  match connection.session.state.removeStream streamId with
  | (some mode, state) =>
      (connection.updateState fun _ => state).stopStream streamId mode true
  | (none, _) => connection

/-- A stream plays something that has ended. -/
def hasEnded (connection : Connection) (streamId : UInt32) : Bool :=
  match connection.session.state.playing? streamId with
  | some place =>
      (connection.relay.subscriptions[place]?.map Subscription.hasEnded).getD false
  | none => false

/-- Whether a stream is free to publish or play.  A play that has ended is
given up first. -/
def claimStream (streamId : UInt32) (connection : Connection) :
    Bool × Connection :=
  let connection :=
    if connection.hasEnded streamId then
      let (mode, state) := connection.session.state.takeMode streamId
      (connection.updateState fun _ => state).stopStream streamId mode false
    else connection
  let isFree :=
    ((connection.session.state.stream? streamId).map StreamMode.isIdle).getD true
  (isFree, connection)

/-! ## Publishing and playing -/

/-- The request has been allowed, under this path. -/
def publishAs (streamId : UInt32) (request : PublishRequest)
    (connection : Connection) : Connection :=
  match connection.relay.startPublishing request with
  | .error error =>
      connection.refuse streamId StatusCode.publishBadName error.message
  | .ok (publication, relay) =>
      let connection := { connection with relay := relay }
      let connection := connection.setMode streamId (.publishing publication)
      let connection :=
        connection.sendControl (.userControl (.streamBegin streamId))
      let connection :=
        connection.status streamId StatusCode.publishStart
          s!"{request.path.text} is now published."
      connection.tell (.published request.path request.arguments)

def publish (policy : PolicyChain) (streamId : UInt32)
    (parameters : PublishParameters) (connection : Connection) : Connection :=
  let (isFree, connection) := connection.claimStream streamId
  let context := connection.session.context
  let publishType := parameters.publishType
  if !isFree then
    connection.refuse streamId StatusCode.publishBadName
      "Stream id already in use"
  else
    match StreamPath.parse? context.app parameters.streamName with
    | none =>
        connection.refuse streamId StatusCode.publishBadName
          "Missing stream name"
    | some (path, arguments) =>
        let (decision, connection) :=
          connection.ask policy (.publish path arguments publishType)
        match decision.path path with
        | .error reason =>
            connection.refuse streamId StatusCode.publishUnauthorized reason
        | .ok path =>
            connection.publishAs streamId
              ⟨context.sessionId, path, arguments, publishType⟩

/-- The request has been allowed, under this path. -/
def playAs (streamId : UInt32) (path : StreamPath) (arguments : StreamArguments)
    (connection : Connection) : Connection :=
  let session := connection.session
  let request : SubscribeRequest :=
    ⟨session.id, streamId, path, arguments, session.queue⟩
  match connection.relay.startSubscribing request with
  | .error error =>
      let code := match error with
        | .streamNotFound _ => StatusCode.playStreamNotFound
        | _ => StatusCode.failed
      connection.refuse streamId code error.message
  | .ok ((publication, subscription), relay) =>
      let connection := { connection with relay := relay }
      let connection :=
        connection.setMode streamId (.playing publication subscription)
      connection.tell (.subscribed path arguments)

def play (policy : PolicyChain) (streamId : UInt32)
    (parameters : PlayParameters) (connection : Connection) : Connection :=
  let (isFree, connection) := connection.claimStream streamId
  if !isFree then
    connection.refuse streamId StatusCode.failed "Stream id already in use"
  else
    match StreamPath.parse? connection.session.context.app
        parameters.streamName with
    | none =>
        connection.refuse streamId StatusCode.playStreamNotFound
          "Missing stream name"
    | some (path, arguments) =>
        let (decision, connection) :=
          connection.ask policy (.play path arguments)
        match decision.path path with
        | .error reason =>
            connection.refuse streamId StatusCode.playUnauthorized reason
        | .ok path => connection.playAs streamId path arguments

/-- A change of the subscription that a stream plays, if it plays one. -/
def updatePlay (streamId : UInt32) (change : Subscription → Subscription)
    (connection : Connection) : Connection :=
  match connection.session.state.playing? streamId with
  | some place =>
      { connection with relay := connection.relay.updateSubscription place change }
  | none => connection

def pause (streamId : UInt32) (paused : Bool) (connection : Connection) :
    Connection :=
  match connection.session.state.playing? streamId with
  | none => connection
  | some _ =>
      let connection :=
        connection.updatePlay streamId ({ · with isPaused := paused })
      if paused then
        connection.status streamId StatusCode.pauseNotify "Paused live"
      else connection.status streamId StatusCode.unpauseNotify "Unpaused live"

/-- The announcements that some encoders wait for. -/
def announce (name code streamName : String) (connection : Connection) :
    Connection :=
  let info : AmfValue :=
    .object [("code", .text code), ("description", .text streamName)]
  connection.send (.reply ⟨name, .zero, .null, [info], 0⟩)

/-! ## Commands -/

/-- The effect of a command on a session that may use it. -/
def run (configuration : ServerConfiguration) (policy : PolicyChain)
    (call : CommandCall) (connection : Connection) :
    Option Error × Connection :=
  let streamId := call.streamId
  match call.command with
  | .connect parameters =>
      connection.connect configuration policy call.transaction parameters
  | .createStream => (none, connection.createStream call.transaction)
  | .publish parameters => (none, connection.publish policy streamId parameters)
  | .play parameters => (none, connection.play policy streamId parameters)
  | .closeStream => (none, connection.closeStream streamId)
  | .deleteStream target => (none, connection.deleteStream target)
  | .pause paused _ => (none, connection.pause streamId paused)
  | .receiveAudio enabled =>
      (none, connection.updatePlay streamId ({ · with receivesAudio := enabled }))
  | .receiveVideo enabled =>
      (none, connection.updatePlay streamId ({ · with receivesVideo := enabled }))
  | .releaseStream _ => (none, connection)
  | .announcePublish name =>
      (none, connection.announce "onFCPublish" StatusCode.publishStart name)
  | .announceUnpublish name =>
      (none, connection.announce "onFCUnpublish" StatusCode.unpublishSuccess name)

def isConnect : Command → Bool
  | .connect _ => true
  | _ => false

def call (configuration : ServerConfiguration) (policy : PolicyChain)
    (called : CommandCall) (connection : Connection) :
    Option Error × Connection :=
  if !connection.session.state.isConnected && !isConnect called.command then
    (some (.protocol (.unexpectedMessage s!"{called.name} before connect")),
      connection)
  else connection.run configuration policy called

/-! ## Data and media -/

/-- A description of a stream counts only from the session that publishes the
stream. -/
def receiveData (message : DataMessage) (connection : Connection) : Connection :=
  match connection.session.state.publishing? message.streamId with
  | none => connection
  | some place =>
      match message.metadata? with
      | some metadata =>
          let path := connection.relay.pathOf place
          let connection := connection.tell (.describedStream path metadata)
          { connection with
            relay := (connection.relay.distributeMetadata place metadata).2 }
      | none =>
          if message.name = DataMessage.clearDataFrame then
            { connection with relay := connection.relay.clearMetadata place }
          else connection

def receiveMedia (kind : MediaKind) (streamId timestamp : UInt32)
    (payload : Bytes) (connection : Connection) : Connection :=
  match payload, connection.session.state.publishing? streamId with
  | _ :: _, some place =>
      { connection with
        relay := (connection.relay.distribute place kind timestamp payload).2 }
  | _, _ => connection

/-! ## Messages -/

/-- Control messages have been acted upon already, but for the answer. -/
def receiveControl (reply : Option Message) (connection : Connection) :
    Connection :=
  let inbound := connection.session.inbound
  let connection := reply.toList.foldl sendControl connection
  connection.updateState fun state =>
    { state with
      inboundChunkSize := inbound.decoder.chunkSize
      inboundWindow := inbound.control.acknowledgements.window }

def receiveCommand (configuration : ServerConfiguration) (policy : PolicyChain)
    (streamId : UInt32) (payload : Bytes) (connection : Connection) :
    Option Error × Connection :=
  match CommandCall.read streamId payload with
  | .error error => (some error, connection)
  | .ok none => (none, connection)
  | .ok (some called) => connection.call configuration policy called

def receiveArrival (configuration : ServerConfiguration) (policy : PolicyChain)
    (arrival : Arrival) (connection : Connection) : Option Error × Connection :=
  match arrival.message with
  | .command streamId payload =>
      connection.receiveCommand configuration policy streamId payload
  | .data message => (none, connection.receiveData message)
  | .audio timestamp payload =>
      (none,
        connection.receiveMedia .audio arrival.wire.streamId timestamp payload)
  | .video timestamp payload =>
      (none,
        connection.receiveMedia .video arrival.wire.streamId timestamp payload)
  | .unknown _ _ => (none, connection)
  | _ => (none, connection.receiveControl arrival.reply)

def countMessage (connection : Connection) : Connection :=
  connection.updateState fun state =>
    { state with
      traffic :=
        { state.traffic with
          messagesReceived := state.traffic.messagesReceived + 1 } }

/-- Messages are handled in order until one of them ends the session. -/
def receiveAll (configuration : ServerConfiguration) (policy : PolicyChain) :
    List Arrival → Connection → Option Error × Connection
  | [], connection => (none, connection)
  | arrival :: arrivals, connection =>
      match connection.countMessage.receiveArrival configuration policy arrival with
      | (some error, connection) => (some error, connection)
      | (none, connection) =>
          receiveAll configuration policy arrivals connection

end Connection

end LiveRelay
