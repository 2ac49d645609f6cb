import LiveRelay.Proofs.GuardedChunks
import LiveRelay.Proofs.GuardedHandshake
import LiveRelay.Proofs.GuardedMessages
import LiveRelay.Server

/-!
# Connections without faults

What a connection does with the bytes that come in: the handshake, the chunks behind
it, the messages in them and what is read from their payloads.  Each step that can
fail is taken where the connection takes it.

From one piece to the next it has to hold that no chunk stream has collected more
than its header asks for.  Only the reader changes what has been collected; handling
a message, whatever it does, leaves the reader alone.
-/

namespace LiveRelay

open Partial

/-! ## Inbound messages -/

theorem ProtocolControl.isUnfinished_handle {control next : ProtocolControl}
    {decoder after : ChunkDecoder} {message : Message} {reply : Option Message}
    (hunfinished : decoder.IsUnfinished)
    (hhandle : control.handle decoder message = .ok (reply, next, after)) :
    after.IsUnfinished := by
  unfold handle at hhandle
  split at hhandle
  · split at hhandle
    · cases hhandle
    · split at hhandle
      · cases hhandle
      · cases hhandle
        exact hunfinished
  all_goals cases hhandle
  · exact hunfinished.abort _
  all_goals exact hunfinished

namespace Inbound

def guardedAccept (inbound : Inbound) (wire : WireMessage) :
    Partial (Except Error Arrival × Inbound) := do
  match ← Message.guardedRead wire with
  | .error error => return (.error error, inbound)
  | .ok message =>
      match inbound.control.handle inbound.decoder message with
      | .error error => return (.error (.protocol error), inbound)
      | .ok (reply, control, decoder) =>
          return (.ok ⟨wire, message, reply⟩,
            { inbound with control := control, decoder := decoder })

def guardedNext (inbound : Inbound) : Partial (Except Error (Option Arrival) × Inbound) := do
  let (taken, decoder, unread) ← inbound.decoder.guardedDecode inbound.unread
  let inbound := { inbound with decoder := decoder, unread := unread }
  match taken with
  | .error error => return (.error (.protocol error), inbound)
  | .ok none => return (.ok none, inbound)
  | .ok (some wire) =>
      let (accepted, inbound) ← inbound.guardedAccept wire
      return (accepted.map some, inbound)

def guardedDrainOnto (inbound : Inbound) (done : List Arrival) : Partial Outcome :=
  match inbound.guardedNext with
  | .error fault => .error fault
  | .ok (.ok (some arrival), after) =>
      if after.unread.length < inbound.unread.length then
        after.guardedDrainOnto (arrival :: done)
      else .error .noProgress
  | .ok (.ok none, after) => .ok ⟨done.reverse, none, after⟩
  | .ok (.error error, after) => .ok ⟨done.reverse, some error, after⟩
termination_by inbound.unread.length

def guardedDrain (inbound : Inbound) : Partial Outcome :=
  inbound.guardedDrainOnto []

variable {inbound : Inbound}

theorem guardedAccept_eq (inbound : Inbound) (wire : WireMessage) :
    inbound.guardedAccept wire = .ok (inbound.accept wire) := by
  unfold guardedAccept accept
  rw [Message.guardedRead_eq, ok_bind]
  cases Message.read wire with
  | error error => rfl
  | ok message =>
      cases hhandle : inbound.control.handle inbound.decoder message with
      | error error => simp [hhandle]
      | ok handled => simp [hhandle]

theorem guardedNext_eq (hunfinished : inbound.decoder.IsUnfinished) :
    inbound.guardedNext = .ok inbound.next := by
  unfold guardedNext next
  rw [ChunkDecoder.guardedDecode_eq hunfinished, ok_bind]
  obtain ⟨taken, decoder, unread⟩ := inbound.decoder.decode inbound.unread
  cases taken with
  | error error => rfl
  | ok found =>
      cases found with
      | none => rfl
      | some wire =>
          simp only [guardedAccept_eq]
          rfl

theorem isUnfinished_accept (hunfinished : inbound.decoder.IsUnfinished)
    (wire : WireMessage) : (inbound.accept wire).2.decoder.IsUnfinished := by
  unfold accept
  split
  · exact hunfinished
  · split
    · exact hunfinished
    · rename_i hhandle
      exact ProtocolControl.isUnfinished_handle hunfinished hhandle

theorem isUnfinished_next (hunfinished : inbound.decoder.IsUnfinished) :
    inbound.next.2.decoder.IsUnfinished := by
  have hdecoded := hunfinished.decode inbound.unread
  unfold next
  generalize inbound.decoder.decode inbound.unread = decoded at hdecoded ⊢
  obtain ⟨taken, decoder, unread⟩ := decoded
  cases taken with
  | error error => exact hdecoded
  | ok found =>
      cases found with
      | none => exact hdecoded
      | some wire => exact @isUnfinished_accept ⟨decoder, inbound.control, unread⟩ hdecoded wire

theorem guardedDrainOnto_eq (hunfinished : inbound.decoder.IsUnfinished)
    (done : List Arrival) :
    inbound.guardedDrainOnto done = .ok (inbound.drainOnto done) := by
  fun_induction drainOnto inbound done with
  | case1 inbound done arrival after hnext ih =>
      have hafter := isUnfinished_next hunfinished
      rw [hnext] at hafter
      rw [guardedDrainOnto, guardedNext_eq hunfinished, hnext]
      simp only [if_pos (length_next hnext), ih hafter]
  | case2 inbound done after hnext =>
      rw [guardedDrainOnto, guardedNext_eq hunfinished, hnext]
  | case3 inbound done error after hnext =>
      rw [guardedDrainOnto, guardedNext_eq hunfinished, hnext]

theorem guardedDrain_eq (hunfinished : inbound.decoder.IsUnfinished) :
    inbound.guardedDrain = .ok inbound.drain :=
  guardedDrainOnto_eq hunfinished []

theorem isUnfinished_drainOnto (hunfinished : inbound.decoder.IsUnfinished)
    (done : List Arrival) : (inbound.drainOnto done).inbound.decoder.IsUnfinished := by
  fun_induction drainOnto inbound done with
  | case1 inbound done arrival after hnext ih =>
      have hafter := isUnfinished_next hunfinished
      rw [hnext] at hafter
      exact ih hafter
  | case2 inbound done after hnext =>
      have hafter := isUnfinished_next hunfinished
      rwa [hnext] at hafter
  | case3 inbound done error after hnext =>
      have hafter := isUnfinished_next hunfinished
      rwa [hnext] at hafter

end Inbound

namespace Connection

/-! ## Handling a message leaves the reader alone -/

variable {connection : Connection}

theorem inbound_stopStream (streamId : UInt32) (mode : StreamMode) (notifies : Bool)
    (connection : Connection) :
    (connection.stopStream streamId mode notifies).session.inbound =
      connection.session.inbound := by
  cases mode with
  | idle => rfl
  | publishing publication =>
      simp only [stopStream]
      split <;> split <;> rfl
  | playing publication subscription =>
      simp only [stopStream]
      split <;> split <;> rfl

theorem inbound_deleteStream (streamId : UInt32) (connection : Connection) :
    (connection.deleteStream streamId).session.inbound = connection.session.inbound := by
  unfold deleteStream
  split
  · rw [inbound_stopStream]
    rfl
  · rfl

theorem inbound_claimStream (streamId : UInt32) (connection : Connection) :
    (connection.claimStream streamId).2.session.inbound = connection.session.inbound := by
  simp only [claimStream]
  split
  · rw [inbound_stopStream]
    rfl
  · rfl

theorem inbound_publishAs (streamId : UInt32) (request : PublishRequest)
    (connection : Connection) :
    (connection.publishAs streamId request).session.inbound =
      connection.session.inbound := by
  unfold publishAs
  split <;> rfl

theorem inbound_publish (policy : PolicyChain) (streamId : UInt32)
    (parameters : PublishParameters) (connection : Connection) :
    (connection.publish policy streamId parameters).session.inbound =
      connection.session.inbound := by
  have hclaimed := inbound_claimStream streamId connection
  simp only [publish]
  generalize connection.claimStream streamId = claimed at hclaimed ⊢
  obtain ⟨isFree, claimed⟩ := claimed
  split
  · exact hclaimed
  · split
    · exact hclaimed
    · simp only [ask]
      split
      · exact hclaimed
      · rw [inbound_publishAs]
        exact hclaimed

theorem inbound_playAs (streamId : UInt32) (path : StreamPath)
    (arguments : StreamArguments) (connection : Connection) :
    (connection.playAs streamId path arguments).session.inbound =
      connection.session.inbound := by
  simp only [playAs]
  split <;> rfl

theorem inbound_play (policy : PolicyChain) (streamId : UInt32)
    (parameters : PlayParameters) (connection : Connection) :
    (connection.play policy streamId parameters).session.inbound =
      connection.session.inbound := by
  have hclaimed := inbound_claimStream streamId connection
  simp only [play]
  generalize connection.claimStream streamId = claimed at hclaimed ⊢
  obtain ⟨isFree, claimed⟩ := claimed
  split
  · exact hclaimed
  · split
    · exact hclaimed
    · simp only [ask]
      split
      · exact hclaimed
      · rw [inbound_playAs]
        exact hclaimed

theorem inbound_updatePlay (streamId : UInt32) (change : Subscription → Subscription)
    (connection : Connection) :
    (connection.updatePlay streamId change).session.inbound =
      connection.session.inbound := by
  unfold updatePlay
  split <;> rfl

theorem inbound_pause (streamId : UInt32) (paused : Bool) (connection : Connection) :
    (connection.pause streamId paused).session.inbound = connection.session.inbound := by
  unfold pause
  split
  · rfl
  · simp only
    split <;> exact inbound_updatePlay ..

theorem inbound_connect (configuration : ServerConfiguration) (policy : PolicyChain)
    (transaction : Binary64) (parameters : ConnectParameters) (connection : Connection) :
    (connection.connect configuration policy transaction parameters).2.session.inbound =
      connection.session.inbound := by
  unfold connect
  split
  · rfl
  · simp only [ask]
    split <;> rfl

theorem inbound_call (configuration : ServerConfiguration) (policy : PolicyChain)
    (called : CommandCall) (connection : Connection) :
    (connection.call configuration policy called).2.session.inbound =
      connection.session.inbound := by
  unfold call
  split
  · rfl
  · unfold run
    split
    · exact inbound_connect ..
    · rfl
    · exact inbound_publish ..
    · exact inbound_play ..
    · exact inbound_stopStream ..
    · exact inbound_deleteStream ..
    · exact inbound_pause ..
    · exact inbound_updatePlay ..
    · exact inbound_updatePlay ..
    · rfl
    · rfl
    · rfl

theorem inbound_receiveCommand (configuration : ServerConfiguration) (policy : PolicyChain)
    (streamId : UInt32) (payload : Bytes) (connection : Connection) :
    (connection.receiveCommand configuration policy streamId payload).2.session.inbound =
      connection.session.inbound := by
  unfold receiveCommand
  split
  · rfl
  · rfl
  · exact inbound_call ..

theorem inbound_receiveData (message : DataMessage) (connection : Connection) :
    (connection.receiveData message).session.inbound = connection.session.inbound := by
  unfold receiveData
  split
  · rfl
  · split
    · rfl
    · split <;> rfl

theorem inbound_receiveMedia (kind : MediaKind) (streamId timestamp : UInt32)
    (payload : Bytes) (connection : Connection) :
    (connection.receiveMedia kind streamId timestamp payload).session.inbound =
      connection.session.inbound := by
  unfold receiveMedia
  split <;> rfl

theorem inbound_receiveControl (reply : Option Message) (connection : Connection) :
    (connection.receiveControl reply).session.inbound = connection.session.inbound := by
  cases reply <;> rfl

theorem inbound_receiveArrival (configuration : ServerConfiguration) (policy : PolicyChain)
    (arrival : Arrival) (connection : Connection) :
    (connection.receiveArrival configuration policy arrival).2.session.inbound =
      connection.session.inbound := by
  unfold receiveArrival
  split
  · exact inbound_receiveCommand ..
  · exact inbound_receiveData ..
  · exact inbound_receiveMedia ..
  · exact inbound_receiveMedia ..
  · rfl
  · exact inbound_receiveControl ..

theorem inbound_receiveAll (configuration : ServerConfiguration) (policy : PolicyChain)
    (arrivals : List Arrival) (connection : Connection) :
    (receiveAll configuration policy arrivals connection).2.session.inbound =
      connection.session.inbound := by
  induction arrivals generalizing connection with
  | nil => rfl
  | cons arrival arrivals ih =>
      have hreceived :=
        inbound_receiveArrival configuration policy arrival connection.countMessage
      unfold receiveAll
      split
      · rename_i error ended houtcome
        rw [houtcome] at hreceived
        exact hreceived
      · rename_i received houtcome
        rw [houtcome] at hreceived
        exact (ih received).trans hreceived

/-! ## A connection -/

def guardedReceiveCommand (configuration : ServerConfiguration) (policy : PolicyChain)
    (streamId : UInt32) (payload : Bytes) (connection : Connection) :
    Partial (Option Error × Connection) := do
  match ← CommandCall.guardedRead streamId payload with
  | .error error => return (some error, connection)
  | .ok none => return (none, connection)
  | .ok (some called) => return connection.call configuration policy called

def guardedReceiveData (message : DataMessage) (connection : Connection) :
    Partial Connection :=
  match connection.session.state.publishing? message.streamId with
  | none => .ok connection
  | some place => do
      match ← message.guardedMetadata? with
      | some metadata =>
          let path := connection.relay.pathOf place
          let connection := connection.tell (.describedStream path metadata)
          return { connection with
            relay := (connection.relay.distributeMetadata place metadata).2 }
      | none =>
          if message.name = DataMessage.clearDataFrame then
            return { connection with relay := connection.relay.clearMetadata place }
          else return connection

/-- Of the messages only commands and data have something in them to be read. -/
def guardedReceiveArrival (configuration : ServerConfiguration) (policy : PolicyChain)
    (arrival : Arrival) (connection : Connection) : Partial (Option Error × Connection) :=
  match arrival.message with
  | .command streamId payload =>
      connection.guardedReceiveCommand configuration policy streamId payload
  | .data message => do
      let connection ← connection.guardedReceiveData message
      return (none, connection)
  | _ => .ok (connection.receiveArrival configuration policy arrival)

def guardedReceiveAll (configuration : ServerConfiguration) (policy : PolicyChain) :
    List Arrival → Connection → Partial (Option Error × Connection)
  | [], connection => .ok (none, connection)
  | arrival :: arrivals, connection => do
      match ← connection.countMessage.guardedReceiveArrival configuration policy arrival with
      | (some error, connection) => return (some error, connection)
      | (none, connection) => guardedReceiveAll configuration policy arrivals connection

def guardedWork (configuration : ServerConfiguration) (policy : PolicyChain)
    (connection : Connection) : Partial (Option Error × Connection) := do
  let outcome ← connection.session.inbound.guardedDrain
  let session := { connection.session with inbound := outcome.inbound }
  match ← guardedReceiveAll configuration policy outcome.arrivals
      { connection with session := session } with
  | (some error, connection) => return (some error, connection)
  | (none, connection) => return (outcome.error, connection)

def guardedBeginSession (configuration : ServerConfiguration) (policy : PolicyChain)
    (connection : Connection) : Partial (Option Error × Connection) :=
  let chunkSize := configuration.chunkSize
  let connection := connection.updateState SessionState.completeHandshake
  let connection := connection.tell .handshakeCompleted
  let connection := connection.sendControl (.setChunkSize chunkSize)
  let connection :=
    connection.updateState ({ · with outboundChunkSize := chunkSize })
  connection.guardedWork configuration policy

def guardedReceiveHandshake (configuration : ServerConfiguration) (policy : PolicyChain)
    (keyed : KeyedDigest) (fill : Handshake.Fill) (connection : Connection) :
    Partial (Bytes × Option Error × Connection) := do
  let session := connection.session
  let outcome ← session.handshake.guardedProcess keyed fill session.inbound.unread
  let inbound := { session.inbound with unread := outcome.rest }
  let session :=
    { session with handshake := outcome.handshake, inbound := inbound }
  let connection := { connection with session := session }
  match outcome.response with
  | .error error => return ([], some (.handshake error), connection)
  | .ok response =>
      let begun ←
        if outcome.handshake.isDone then
          connection.guardedBeginSession configuration policy
        else .ok (none, connection)
      return (response.getD [], begun)

/-- What comes in is counted with the sums of the wire, which go round, so the count
is nothing that could fail. -/
def guardedReceive (configuration : ServerConfiguration) (policy : PolicyChain)
    (keyed : KeyedDigest) (fill : Handshake.Fill) (piece : Bytes)
    (connection : Connection) : Partial (Bytes × Option Error × Connection) :=
  let session := connection.session
  let inbound :=
    { session.inbound with unread := session.inbound.unread ++ piece }
  let connection := { connection with session := { session with inbound := inbound } }
  if session.handshake.isDone then do
    match ← connection.guardedWork configuration policy with
    | (some error, connection) => return ([], some error, connection)
    | (none, connection) => return ([], none, connection.acknowledge piece.length)
  else connection.guardedReceiveHandshake configuration policy keyed fill

theorem guardedReceiveCommand_eq (configuration : ServerConfiguration)
    (policy : PolicyChain) (streamId : UInt32) (payload : Bytes)
    (connection : Connection) :
    connection.guardedReceiveCommand configuration policy streamId payload =
      .ok (connection.receiveCommand configuration policy streamId payload) := by
  unfold guardedReceiveCommand receiveCommand
  rw [CommandCall.guardedRead_eq, ok_bind]
  cases CommandCall.read streamId payload with
  | error error => rfl
  | ok called => cases called <;> rfl

theorem guardedReceiveData_eq (message : DataMessage) (connection : Connection) :
    connection.guardedReceiveData message = .ok (connection.receiveData message) := by
  unfold guardedReceiveData receiveData
  cases connection.session.state.publishing? message.streamId with
  | none => rfl
  | some place =>
      simp only [DataMessage.guardedMetadata?_eq, ok_bind]
      cases message.metadata? with
      | some metadata => rfl
      | none => exact (apply_ite Except.ok _ _ _).symm

theorem guardedReceiveArrival_eq (configuration : ServerConfiguration)
    (policy : PolicyChain) (arrival : Arrival) (connection : Connection) :
    connection.guardedReceiveArrival configuration policy arrival =
      .ok (connection.receiveArrival configuration policy arrival) := by
  unfold guardedReceiveArrival
  split
  · rename_i hmessage
    simp only [receiveArrival, hmessage, guardedReceiveCommand_eq]
  · rename_i hmessage
    simp only [receiveArrival, hmessage, guardedReceiveData_eq, ok_bind, pure_eq]
  · rfl

theorem guardedReceiveAll_eq (configuration : ServerConfiguration) (policy : PolicyChain)
    (arrivals : List Arrival) (connection : Connection) :
    guardedReceiveAll configuration policy arrivals connection =
      .ok (receiveAll configuration policy arrivals connection) := by
  induction arrivals generalizing connection with
  | nil => rfl
  | cons arrival arrivals ih =>
      rw [guardedReceiveAll, receiveAll, guardedReceiveArrival_eq, ok_bind]
      obtain ⟨error, received⟩ :=
        connection.countMessage.receiveArrival configuration policy arrival
      cases error with
      | some error => rfl
      | none => exact ih received

/-! ## A piece of bytes -/

/-- No chunk stream of the connection has more than its header asks for. -/
abbrev IsUnfinished (connection : Connection) : Prop :=
  connection.session.inbound.decoder.IsUnfinished

theorem guardedWork_eq (hunfinished : connection.IsUnfinished)
    (configuration : ServerConfiguration) (policy : PolicyChain) :
    connection.guardedWork configuration policy =
      .ok (connection.work configuration policy) := by
  unfold guardedWork work
  rw [Inbound.guardedDrain_eq hunfinished, ok_bind]
  simp only [guardedReceiveAll_eq, ok_bind]
  generalize receiveAll configuration policy _ _ = handled
  obtain ⟨error, handled⟩ := handled
  cases error <;> rfl

theorem IsUnfinished.receiveAll (hunfinished : connection.IsUnfinished)
    (configuration : ServerConfiguration) (policy : PolicyChain) (arrivals : List Arrival) :
    (Connection.receiveAll configuration policy arrivals connection).2.IsUnfinished := by
  unfold IsUnfinished
  rwa [inbound_receiveAll]

theorem IsUnfinished.work (hunfinished : connection.IsUnfinished)
    (configuration : ServerConfiguration) (policy : PolicyChain) :
    (connection.work configuration policy).2.IsUnfinished := by
  unfold Connection.work
  simp only
  generalize hdrained : Connection.mk _ connection.relay = drained
  have hkept : drained.IsUnfinished := by
    rw [← hdrained]
    exact Inbound.isUnfinished_drainOnto hunfinished []
  have hhandled := hkept.receiveAll configuration policy
    connection.session.inbound.drain.arrivals
  split
  · rename_i error ended houtcome
    rwa [houtcome] at hhandled
  · rename_i handled houtcome
    rwa [houtcome] at hhandled

theorem guardedBeginSession_eq (hunfinished : connection.IsUnfinished)
    (configuration : ServerConfiguration) (policy : PolicyChain) :
    connection.guardedBeginSession configuration policy =
      .ok (connection.beginSession configuration policy) := by
  refine guardedWork_eq ?_ configuration policy
  exact hunfinished

theorem IsUnfinished.beginSession (hunfinished : connection.IsUnfinished)
    (configuration : ServerConfiguration) (policy : PolicyChain) :
    (connection.beginSession configuration policy).2.IsUnfinished := by
  refine IsUnfinished.work ?_ configuration policy
  exact hunfinished

theorem guardedReceiveHandshake_eq (hunfinished : connection.IsUnfinished)
    (configuration : ServerConfiguration) (policy : PolicyChain) (keyed : KeyedDigest)
    (fill : Handshake.Fill) :
    connection.guardedReceiveHandshake configuration policy keyed fill =
      .ok (connection.receiveHandshake configuration policy keyed fill) := by
  simp only [guardedReceiveHandshake, receiveHandshake, Handshake.guardedProcess_eq, ok_bind]
  generalize connection.session.handshake.process keyed fill _ = outcome
  generalize hprocessed : Connection.mk _ connection.relay = processed
  have hkept : processed.IsUnfinished := by
    rw [← hprocessed]
    exact hunfinished
  cases outcome.response with
  | error error => rfl
  | ok response =>
      cases outcome.handshake.isDone with
      | false => rfl
      | true =>
          simp only [if_true, guardedBeginSession_eq hkept, ok_bind, pure_eq]

theorem IsUnfinished.receiveHandshake (hunfinished : connection.IsUnfinished)
    (configuration : ServerConfiguration) (policy : PolicyChain) (keyed : KeyedDigest)
    (fill : Handshake.Fill) :
    (connection.receiveHandshake configuration policy keyed fill).2.2.IsUnfinished := by
  unfold Connection.receiveHandshake
  simp only
  generalize hprocessed : Connection.mk _ connection.relay = processed
  have hkept : processed.IsUnfinished := by
    rw [← hprocessed]
    exact hunfinished
  split
  · exact hkept
  · split
    · exact hkept.beginSession configuration policy
    · exact hkept

theorem IsUnfinished.acknowledge (hunfinished : connection.IsUnfinished) (count : Nat) :
    (connection.acknowledge count).IsUnfinished := by
  unfold Connection.acknowledge
  simp only
  split <;> exact hunfinished

theorem guardedReceive_eq (hunfinished : connection.IsUnfinished)
    (configuration : ServerConfiguration) (policy : PolicyChain) (keyed : KeyedDigest)
    (fill : Handshake.Fill) (piece : Bytes) :
    connection.guardedReceive configuration policy keyed fill piece =
      .ok (connection.receive configuration policy keyed fill piece) := by
  unfold guardedReceive receive
  simp only
  generalize hwaiting : Connection.mk _ connection.relay = waiting
  have hkept : waiting.IsUnfinished := by
    rw [← hwaiting]
    exact hunfinished
  split
  · rw [guardedWork_eq hkept, ok_bind]
    obtain ⟨error, worked⟩ := waiting.work configuration policy
    cases error <;> rfl
  · exact guardedReceiveHandshake_eq hkept configuration policy keyed fill

theorem IsUnfinished.receive (hunfinished : connection.IsUnfinished)
    (configuration : ServerConfiguration) (policy : PolicyChain) (keyed : KeyedDigest)
    (fill : Handshake.Fill) (piece : Bytes) :
    (connection.receive configuration policy keyed fill piece).2.2.IsUnfinished := by
  unfold Connection.receive
  simp only
  generalize hwaiting : Connection.mk _ connection.relay = waiting
  have hkept : waiting.IsUnfinished := by
    rw [← hwaiting]
    exact hunfinished
  split
  · have hworked := hkept.work configuration policy
    split
    · rename_i error ended houtcome
      rwa [houtcome] at hworked
    · rename_i worked houtcome
      rw [houtcome] at hworked
      exact hworked.acknowledge _
  · exact hkept.receiveHandshake configuration policy keyed fill

end Connection

end LiveRelay
