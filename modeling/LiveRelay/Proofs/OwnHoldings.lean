import LiveRelay.Server
import LiveRelay.Proofs.OthersView

/-!
# Sessions keep to their own

What a stream of a session does, it does with a publication or a subscription of
its own session.  This holds when the stream starts, and since nobody takes over
a publication or a subscription of somebody else, it holds from then on.  So all
that a message of the session leads to is done to its own publications, its own
subscriptions and its own queue, and to the audience of its publications.  The
same goes for a piece of bytes, and for the end of the session.
-/

namespace LiveRelay

/-- What a stream does, it does with something of its session. -/
def StreamMode.BelongsTo (relay : Relay) (session queue : Nat) : StreamMode → Prop
  | .idle => True
  | .publishing publication => relay.publisher? publication = some session
  | .playing _ subscription => relay.seat? subscription = some (session, queue)

theorem StreamMode.BelongsTo.after {mode : StreamMode} {session queue : Nat}
    {acting own : Nat} {reaches : Nat → Prop} {before after : Relay}
    (hbelongs : mode.BelongsTo before session queue)
    (hkeeps : before.KeepsTo acting own reaches after) :
    mode.BelongsTo after session queue := by
  cases mode with
  | idle => trivial
  | publishing publication => exact hkeeps.publisher hbelongs
  | playing publication subscription => exact hkeeps.seat hbelongs

namespace Connection

/-- All streams of the session do what they do with something of their own. -/
def HoldsOwn (connection : Connection) : Prop :=
  ∀ entry ∈ connection.session.state.streams,
    entry.2.BelongsTo connection.relay connection.session.id connection.session.queue

/-- The session has kept to its own, and to the audience it had. -/
structure KeepsToOwn (before after : Connection) : Prop where
  id_eq : after.session.id = before.session.id
  queue_eq : after.session.queue = before.session.queue
  keepsTo : before.relay.KeepsTo before.session.id before.session.queue
    (before.relay.IsAudience before.session.id) after.relay
  holdsOwn : after.HoldsOwn

variable {connection before middle after : Connection}

theorem KeepsToOwn.refl (hown : connection.HoldsOwn) : KeepsToOwn connection connection where
  id_eq := rfl
  queue_eq := rfl
  keepsTo := .refl _ _ _ _
  holdsOwn := hown

theorem KeepsToOwn.trans (hfirst : KeepsToOwn before middle)
    (hsecond : KeepsToOwn middle after) : KeepsToOwn before after where
  id_eq := hsecond.id_eq.trans hfirst.id_eq
  queue_eq := hsecond.queue_eq.trans hfirst.queue_eq
  keepsTo := by
    have hkeeps := hsecond.keepsTo
    rw [hfirst.id_eq, hfirst.queue_eq] at hkeeps
    exact hfirst.keepsTo.trans (hkeeps.mono hfirst.keepsTo.isAudience)
  holdsOwn := hsecond.holdsOwn

/-- Only the relay has changed. -/
theorem keepsToOwn_of_relay (hown : connection.HoldsOwn) {relay : Relay}
    (hkeeps : connection.relay.KeepsTo connection.session.id connection.session.queue
      (connection.relay.IsAudience connection.session.id) relay) :
    KeepsToOwn connection { connection with relay := relay } where
  id_eq := rfl
  queue_eq := rfl
  keepsTo := hkeeps
  holdsOwn entry hentry := (hown entry hentry).after hkeeps

/-- Only the session has changed, and its streams do at most something new with
something of its own. -/
theorem keepsToOwn_of_session (hown : connection.HoldsOwn) (session : Session)
    (hid : session.id = connection.session.id)
    (hqueue : session.queue = connection.session.queue)
    (hstreams : ∀ entry ∈ session.state.streams,
      entry ∈ connection.session.state.streams ∨
        entry.2.BelongsTo connection.relay connection.session.id connection.session.queue) :
    KeepsToOwn connection { connection with session := session } where
  id_eq := hid
  queue_eq := hqueue
  keepsTo := .refl _ _ _ _
  holdsOwn entry hentry := by
    show entry.2.BelongsTo connection.relay session.id session.queue
    rw [hid, hqueue]
    exact (hstreams entry hentry).elim (hown entry) id

theorem keepsToOwn_updateState (hown : connection.HoldsOwn)
    (change : SessionState → SessionState)
    (hstreams : ∀ entry ∈ (change connection.session.state).streams,
      entry ∈ connection.session.state.streams ∨
        entry.2.BelongsTo connection.relay connection.session.id connection.session.queue) :
    KeepsToOwn connection (connection.updateState change) :=
  keepsToOwn_of_session hown _ rfl rfl hstreams

/-! ## Answers and notices -/

theorem keepsToOwn_send (hown : connection.HoldsOwn) (message : OutboundMessage) :
    KeepsToOwn connection (connection.send message) :=
  keepsToOwn_of_relay hown (Relay.keepsTo_send _ message (.inl rfl))

theorem keepsToOwn_sendControl (hown : connection.HoldsOwn) (message : Message) :
    KeepsToOwn connection (connection.sendControl message) :=
  keepsToOwn_send hown _

theorem keepsToOwn_status (hown : connection.HoldsOwn) (streamId : UInt32)
    (code description : String) :
    KeepsToOwn connection (connection.status streamId code description) :=
  keepsToOwn_send hown _

theorem keepsToOwn_refuse (hown : connection.HoldsOwn) (streamId : UInt32)
    (code description : String) :
    KeepsToOwn connection (connection.refuse streamId code description) :=
  keepsToOwn_send hown _

theorem keepsToOwn_tell (hown : connection.HoldsOwn) (event : SessionEvent) :
    KeepsToOwn connection (connection.tell event) :=
  keepsToOwn_of_relay hown (Relay.keepsTo_note _ _)

theorem keepsToOwn_noteAsked (hown : connection.HoldsOwn) (question : Question)
    (names : List String) :
    KeepsToOwn connection (connection.noteAsked question names) :=
  keepsToOwn_of_relay hown (Relay.keepsTo_foldl (fun _ _ => Relay.keepsTo_note _ _) _ names)

theorem exists_log_noteAsked (connection : Connection) (question : Question)
    (names : List String) :
    ∃ log, connection.noteAsked question names =
      { connection with relay := { connection.relay with log := log } } := by
  obtain ⟨session, relay⟩ := connection
  simp only [noteAsked, Connection.mk.injEq, true_and]
  induction names generalizing relay with
  | nil => exact ⟨relay.log, rfl⟩
  | cons name names ih => exact ih (relay.note _)

theorem keepsToOwn_ask (hown : connection.HoldsOwn) (policy : PolicyChain)
    (request : Request) : KeepsToOwn connection (connection.ask policy request).2 :=
  keepsToOwn_noteAsked hown _ _

theorem keepsToOwn_connect (hown : connection.HoldsOwn)
    (configuration : ServerConfiguration) (policy : PolicyChain) (transaction : Binary64)
    (parameters : ConnectParameters) :
    KeepsToOwn connection
      (connection.connect configuration policy transaction parameters).2 := by
  unfold connect
  split
  · exact .refl hown
  · have hasked := keepsToOwn_ask hown policy (.connect parameters)
    simp only
    generalize connection.ask policy (.connect parameters) = asked at hasked
    obtain ⟨decision, asked⟩ := asked
    simp only at hasked ⊢
    have haccepted := hasked.trans (keepsToOwn_of_session hasked.holdsOwn
      { asked.session with
        state := { asked.session.state.connect with
          outboundWindow := configuration.windowAckSize }
        context := asked.session.context.withConnect parameters }
      rfl rfl fun _ => .inl)
    split
    · exact hasked.trans (keepsToOwn_send hasked.holdsOwn _)
    · have hwindow := haccepted.trans (keepsToOwn_sendControl haccepted.holdsOwn
        (.windowAckSize configuration.windowAckSize))
      have hbandwidth := hwindow.trans (keepsToOwn_sendControl hwindow.holdsOwn
        (.setPeerBandwidth configuration.peerBandwidth 2))
      have hbegun := hbandwidth.trans (keepsToOwn_sendControl hbandwidth.holdsOwn
        (.userControl (.streamBegin 0)))
      exact hbegun.trans (keepsToOwn_send hbegun.holdsOwn _)

/-! ## Streams -/

theorem keepsToOwn_setMode (hown : connection.HoldsOwn) (streamId : UInt32)
    {mode : StreamMode}
    (hbelongs : mode.BelongsTo connection.relay connection.session.id
      connection.session.queue) :
    KeepsToOwn connection (connection.setMode streamId mode) := by
  apply keepsToOwn_updateState hown _
  intro entry hentry
  rcases Table.mem_of_mem_put hentry with hnew | hold
  · rw [hnew]
    exact .inr hbelongs
  · exact .inl hold

theorem keepsToOwn_createStream (hown : connection.HoldsOwn) (transaction : Binary64) :
    KeepsToOwn connection (connection.createStream transaction) := by
  have hallocated : KeepsToOwn connection
      (connection.updateState fun _ => connection.session.state.allocate.2) := by
    apply keepsToOwn_updateState hown _
    intro entry hentry
    rcases Table.mem_of_mem_put hentry with hnew | hold
    · rw [hnew]
      exact .inr trivial
    · exact .inl hold
  exact hallocated.trans (keepsToOwn_send hallocated.holdsOwn _)

theorem keepsToOwn_stopStream (hown : connection.HoldsOwn) (streamId : UInt32)
    {mode : StreamMode}
    (hbelongs : mode.BelongsTo connection.relay connection.session.id
      connection.session.queue) (notifies : Bool) :
    KeepsToOwn connection (connection.stopStream streamId mode notifies) := by
  cases mode with
  | idle => exact .refl hown
  | publishing publication =>
      have hstopped := keepsToOwn_of_relay hown (Relay.keepsTo_stopPublishing hbelongs)
      simp only [stopStream]
      generalize connection.relay.stopPublishing publication = stop at hstopped
      obtain ⟨stopped, relay⟩ := stop
      simp only at hstopped ⊢
      have htold : KeepsToOwn connection
          (if stopped then
            { connection with
              relay := relay.observe (connection.relay.pathOf publication)
                .groupCleared }.tell (.unpublished (connection.relay.pathOf publication))
          else { connection with relay := relay }) := by
        split
        · have hobserved := hstopped.trans (keepsToOwn_of_relay hstopped.holdsOwn
            (Relay.keepsTo_observe _ (connection.relay.pathOf publication) .groupCleared))
          exact hobserved.trans (keepsToOwn_tell hobserved.holdsOwn _)
        · exact hstopped
      split
      · exact htold.trans (keepsToOwn_status htold.holdsOwn _ _ _)
      · exact htold
  | playing publication subscription =>
      have hstopped := keepsToOwn_of_relay hown
        (Relay.keepsTo_stopSubscribing publication hbelongs)
      simp only [stopStream]
      generalize connection.relay.stopSubscribing publication subscription = stop
        at hstopped
      obtain ⟨stopped, relay⟩ := stop
      simp only at hstopped ⊢
      have htold : KeepsToOwn connection
          (if stopped then
            { connection with relay := relay }.tell
              (.unsubscribed (connection.relay.pathOf publication))
          else { connection with relay := relay }) := by
        split
        · exact hstopped.trans (keepsToOwn_tell hstopped.holdsOwn _)
        · exact hstopped
      split
      · exact htold.trans (keepsToOwn_status htold.holdsOwn _ _ _)
      · exact htold

theorem HoldsOwn.belongs (hown : connection.HoldsOwn) {streamId : UInt32}
    {mode : StreamMode} (hmode : connection.session.state.stream? streamId = some mode) :
    mode.BelongsTo connection.relay connection.session.id connection.session.queue :=
  hown (streamId, mode) (Table.mem_of_get? hmode)

/-- A stream is idle from now on, and what it did is given up. -/
theorem keepsToOwn_takeMode (hown : connection.HoldsOwn) (streamId : UInt32)
    (notifies : Bool) :
    let taken := connection.session.state.takeMode streamId
    KeepsToOwn connection
      ((connection.updateState fun _ => taken.2).stopStream streamId taken.1 notifies) := by
  simp only [SessionState.takeMode]
  cases hmode : connection.session.state.stream? streamId with
  | none => exact .refl hown
  | some mode =>
      have hidle : KeepsToOwn connection
          (connection.updateState fun _ => connection.session.state.setMode streamId .idle) :=
        keepsToOwn_setMode hown streamId trivial
      exact hidle.trans (keepsToOwn_stopStream hidle.holdsOwn streamId
        (hown.belongs hmode) notifies)

theorem keepsToOwn_closeStream (hown : connection.HoldsOwn) (streamId : UInt32) :
    KeepsToOwn connection (connection.closeStream streamId) :=
  keepsToOwn_takeMode hown streamId true

theorem keepsToOwn_deleteStream (hown : connection.HoldsOwn) (streamId : UInt32) :
    KeepsToOwn connection (connection.deleteStream streamId) := by
  simp only [deleteStream, SessionState.removeStream]
  cases hmode : connection.session.state.stream? streamId with
  | none => exact .refl hown
  | some mode =>
      have hremoved : KeepsToOwn connection (connection.updateState fun state =>
          { state with streams := state.streams.erase streamId }) :=
        keepsToOwn_updateState hown _ fun entry hentry =>
          .inl ((Table.erase_sublist _ streamId).subset hentry)
      exact hremoved.trans (keepsToOwn_stopStream hremoved.holdsOwn streamId
        (hown.belongs hmode) true)

theorem keepsToOwn_claimStream (hown : connection.HoldsOwn) (streamId : UInt32) :
    KeepsToOwn connection (connection.claimStream streamId).2 := by
  simp only [claimStream]
  split
  · exact keepsToOwn_takeMode hown streamId false
  · exact .refl hown

/-! ## Publishing and playing -/

theorem keepsToOwn_publishAs (hown : connection.HoldsOwn) (streamId : UInt32)
    {request : PublishRequest} (hsession : request.session = connection.session.id) :
    KeepsToOwn connection (connection.publishAs streamId request) := by
  unfold publishAs
  split
  · exact keepsToOwn_refuse hown _ _ _
  · rename_i publication relay hstarted
    obtain ⟨hkeeps, hpublisher⟩ := Relay.keepsTo_startPublishing hsession hstarted
    have hrelay : KeepsToOwn connection { connection with relay := relay } :=
      keepsToOwn_of_relay hown hkeeps
    have hmode := hrelay.trans
      (@keepsToOwn_setMode _ hrelay.holdsOwn streamId (.publishing publication) hpublisher)
    have hbegun := hmode.trans (keepsToOwn_sendControl hmode.holdsOwn
      (.userControl (.streamBegin streamId)))
    have hanswered := hbegun.trans (keepsToOwn_status hbegun.holdsOwn streamId
      StatusCode.publishStart s!"{request.path.text} is now published.")
    exact hanswered.trans (keepsToOwn_tell hanswered.holdsOwn _)

theorem keepsToOwn_publish (hown : connection.HoldsOwn) (policy : PolicyChain)
    (streamId : UInt32) (parameters : PublishParameters) :
    KeepsToOwn connection (connection.publish policy streamId parameters) := by
  have hclaimed := keepsToOwn_claimStream hown streamId
  unfold publish
  generalize connection.claimStream streamId = claimed at hclaimed
  obtain ⟨isFree, claimed⟩ := claimed
  simp only at hclaimed ⊢
  split
  · exact hclaimed.trans (keepsToOwn_refuse hclaimed.holdsOwn _ _ _)
  · split
    · exact hclaimed.trans (keepsToOwn_refuse hclaimed.holdsOwn _ _ _)
    · rename_i path arguments hpath
      have hasked := hclaimed.trans (keepsToOwn_ask hclaimed.holdsOwn policy
        (.publish path arguments parameters.publishType))
      split
      · exact hasked.trans (keepsToOwn_refuse hasked.holdsOwn _ _ _)
      · exact hasked.trans (keepsToOwn_publishAs hasked.holdsOwn streamId rfl)

theorem keepsToOwn_playAs (hown : connection.HoldsOwn) (streamId : UInt32)
    (path : StreamPath) (arguments : StreamArguments) :
    KeepsToOwn connection (connection.playAs streamId path arguments) := by
  unfold playAs
  simp only
  split
  · exact keepsToOwn_refuse hown _ _ _
  · rename_i publication subscription relay hstarted
    obtain ⟨hkeeps, hseat⟩ := Relay.keepsTo_startSubscribing rfl rfl hstarted
    have hrelay : KeepsToOwn connection { connection with relay := relay } :=
      keepsToOwn_of_relay hown hkeeps
    have hmode := hrelay.trans (@keepsToOwn_setMode _ hrelay.holdsOwn streamId
      (.playing publication subscription) hseat)
    exact hmode.trans (keepsToOwn_tell hmode.holdsOwn _)

theorem keepsToOwn_play (hown : connection.HoldsOwn) (policy : PolicyChain)
    (streamId : UInt32) (parameters : PlayParameters) :
    KeepsToOwn connection (connection.play policy streamId parameters) := by
  have hclaimed := keepsToOwn_claimStream hown streamId
  unfold play
  generalize connection.claimStream streamId = claimed at hclaimed
  obtain ⟨isFree, claimed⟩ := claimed
  simp only at hclaimed ⊢
  split
  · exact hclaimed.trans (keepsToOwn_refuse hclaimed.holdsOwn _ _ _)
  · split
    · exact hclaimed.trans (keepsToOwn_refuse hclaimed.holdsOwn _ _ _)
    · rename_i path arguments hpath
      have hasked := hclaimed.trans (keepsToOwn_ask hclaimed.holdsOwn policy
        (.play path arguments))
      split
      · exact hasked.trans (keepsToOwn_refuse hasked.holdsOwn _ _ _)
      · exact hasked.trans (keepsToOwn_playAs hasked.holdsOwn streamId _ _)

/-- The subscription that a stream plays is one of the session. -/
theorem HoldsOwn.seat (hown : connection.HoldsOwn) {streamId : UInt32} {place : Nat}
    (hplaying : connection.session.state.playing? streamId = some place) :
    connection.relay.seat? place =
      some (connection.session.id, connection.session.queue) := by
  unfold SessionState.playing? at hplaying
  split at hplaying
  · rename_i publication subscription hmode
    rw [← Option.some.inj hplaying]
    exact hown.belongs hmode
  · cases hplaying

/-- The publication that a stream publishes is one of the session. -/
theorem HoldsOwn.publisher (hown : connection.HoldsOwn) {streamId : UInt32} {place : Nat}
    (hpublishing : connection.session.state.publishing? streamId = some place) :
    connection.relay.publisher? place = some connection.session.id := by
  unfold SessionState.publishing? at hpublishing
  split at hpublishing
  · rename_i publication hmode
    rw [← Option.some.inj hpublishing]
    exact hown.belongs hmode
  · cases hpublishing

theorem keepsToOwn_updatePlay (hown : connection.HoldsOwn) (streamId : UInt32)
    {change : Subscription → Subscription}
    (hsession : ∀ subscription, (change subscription).session = subscription.session)
    (hqueue : ∀ subscription, (change subscription).queue = subscription.queue) :
    KeepsToOwn connection (connection.updatePlay streamId change) := by
  unfold updatePlay
  split
  · rename_i place hplaying
    refine keepsToOwn_of_relay hown
      (Relay.keepsTo_updateSubscription _ place hsession hqueue fun subscription hfound => ?_)
    have hseat := hown.seat hplaying
    simp only [Relay.seat?, hfound, Option.map_some, Option.some.injEq, Prod.mk.injEq]
      at hseat
    exact .inl hseat.1
  · exact .refl hown

theorem keepsToOwn_pause (hown : connection.HoldsOwn) (streamId : UInt32) (paused : Bool) :
    KeepsToOwn connection (connection.pause streamId paused) := by
  have hpaused : KeepsToOwn connection
      (connection.updatePlay streamId ({ · with isPaused := paused })) :=
    keepsToOwn_updatePlay hown streamId (fun _ => rfl) fun _ => rfl
  unfold pause
  split
  · exact .refl hown
  · simp only
    split <;> exact hpaused.trans (keepsToOwn_status hpaused.holdsOwn _ _ _)

/-! ## Messages -/

theorem keepsToOwn_run (hown : connection.HoldsOwn) (configuration : ServerConfiguration)
    (policy : PolicyChain) (called : CommandCall) :
    KeepsToOwn connection (connection.run configuration policy called).2 := by
  unfold run
  simp only
  split
  · exact keepsToOwn_connect hown configuration policy _ _
  · exact keepsToOwn_createStream hown _
  · exact keepsToOwn_publish hown policy _ _
  · exact keepsToOwn_play hown policy _ _
  · exact keepsToOwn_closeStream hown _
  · exact keepsToOwn_deleteStream hown _
  · exact keepsToOwn_pause hown _ _
  · exact keepsToOwn_updatePlay hown _ (fun _ => rfl) fun _ => rfl
  · exact keepsToOwn_updatePlay hown _ (fun _ => rfl) fun _ => rfl
  · exact .refl hown
  · exact keepsToOwn_send hown _
  · exact keepsToOwn_send hown _

theorem keepsToOwn_receiveCommand (hown : connection.HoldsOwn)
    (configuration : ServerConfiguration) (policy : PolicyChain) (streamId : UInt32)
    (payload : Bytes) :
    KeepsToOwn connection
      (connection.receiveCommand configuration policy streamId payload).2 := by
  unfold receiveCommand
  split
  · exact .refl hown
  · exact .refl hown
  · unfold call
    split
    · exact .refl hown
    · exact keepsToOwn_run hown configuration policy _

theorem keepsToOwn_receiveData (hown : connection.HoldsOwn) (message : DataMessage) :
    KeepsToOwn connection (connection.receiveData message) := by
  unfold receiveData
  split
  · exact .refl hown
  · rename_i place hpublishing
    split
    · rename_i metadata hmetadata
      have htold := keepsToOwn_tell hown
        (.describedStream (connection.relay.pathOf place) metadata)
      exact htold.trans (keepsToOwn_of_relay htold.holdsOwn
        (Relay.keepsTo_distributeMetadata (htold.holdsOwn.publisher hpublishing) metadata))
    · split
      · exact keepsToOwn_of_relay hown
          (Relay.keepsTo_clearMetadata (hown.publisher hpublishing))
      · exact .refl hown

theorem keepsToOwn_receiveMedia (hown : connection.HoldsOwn) (kind : MediaKind)
    (streamId timestamp : UInt32) (payload : Bytes) :
    KeepsToOwn connection (connection.receiveMedia kind streamId timestamp payload) := by
  unfold receiveMedia
  split
  · rename_i place hpublishing
    exact keepsToOwn_of_relay hown
      (Relay.keepsTo_distribute (hown.publisher hpublishing) kind timestamp _)
  · exact .refl hown

theorem keepsToOwn_receiveControl (hown : connection.HoldsOwn) (reply : Option Message) :
    KeepsToOwn connection (connection.receiveControl reply) := by
  have hanswered : KeepsToOwn connection (reply.toList.foldl sendControl connection) := by
    cases reply with
    | none => exact .refl hown
    | some message => exact keepsToOwn_sendControl hown message
  exact hanswered.trans (keepsToOwn_updateState hanswered.holdsOwn
    (fun state =>
      { state with
        inboundChunkSize := connection.session.inbound.decoder.chunkSize
        inboundWindow := connection.session.inbound.control.acknowledgements.window })
    fun _ => .inl)

/-- Whatever a message is, the session keeps to its own. -/
theorem keepsToOwn_receiveArrival (hown : connection.HoldsOwn)
    (configuration : ServerConfiguration) (policy : PolicyChain) (arrival : Arrival) :
    KeepsToOwn connection (connection.receiveArrival configuration policy arrival).2 := by
  unfold receiveArrival
  split
  · exact keepsToOwn_receiveCommand hown configuration policy _ _
  · exact keepsToOwn_receiveData hown _
  · exact keepsToOwn_receiveMedia hown .audio _ _ _
  · exact keepsToOwn_receiveMedia hown .video _ _ _
  · exact .refl hown
  · exact keepsToOwn_receiveControl hown _

theorem keepsToOwn_countMessage (hown : connection.HoldsOwn) :
    KeepsToOwn connection connection.countMessage :=
  keepsToOwn_updateState hown _ fun _ => .inl

theorem keepsToOwn_receiveAll (hown : connection.HoldsOwn)
    (configuration : ServerConfiguration) (policy : PolicyChain)
    (arrivals : List Arrival) :
    KeepsToOwn connection (receiveAll configuration policy arrivals connection).2 := by
  induction arrivals generalizing connection with
  | nil => exact .refl hown
  | cons arrival arrivals ih =>
      have hcounted := keepsToOwn_countMessage hown
      have hreceived := hcounted.trans
        (keepsToOwn_receiveArrival hcounted.holdsOwn configuration policy arrival)
      unfold receiveAll
      split
      · rename_i error ended houtcome
        rw [houtcome] at hreceived
        exact hreceived
      · rename_i received houtcome
        rw [houtcome] at hreceived
        exact hreceived.trans (ih hreceived.holdsOwn)

/-! ## Pieces of bytes -/

theorem keepsToOwn_work (hown : connection.HoldsOwn) (configuration : ServerConfiguration)
    (policy : PolicyChain) :
    KeepsToOwn connection (connection.work configuration policy).2 := by
  have hread : KeepsToOwn connection
      { connection with
        session :=
          { connection.session with inbound := connection.session.inbound.drain.inbound } } :=
    keepsToOwn_of_session hown _ rfl rfl fun _ => .inl
  have hhandled := hread.trans (keepsToOwn_receiveAll hread.holdsOwn configuration policy
    connection.session.inbound.drain.arrivals)
  unfold work
  simp only
  split
  · rename_i error ended houtcome
    rwa [houtcome] at hhandled
  · rename_i handled houtcome
    rwa [houtcome] at hhandled

theorem keepsToOwn_acknowledge (hown : connection.HoldsOwn) (count : Nat) :
    KeepsToOwn connection (connection.acknowledge count) := by
  unfold acknowledge
  simp only
  generalize hcounted : Connection.mk _ connection.relay = counted
  have hkept : KeepsToOwn connection counted := by
    rw [← hcounted]
    exact keepsToOwn_of_session hown _ rfl rfl fun _ => .inl
  split
  · exact hkept.trans (keepsToOwn_sendControl hkept.holdsOwn _)
  · exact hkept

theorem keepsToOwn_beginSession (hown : connection.HoldsOwn)
    (configuration : ServerConfiguration) (policy : PolicyChain) :
    KeepsToOwn connection (connection.beginSession configuration policy).2 := by
  have hcompleted : KeepsToOwn connection
      (connection.updateState SessionState.completeHandshake) :=
    keepsToOwn_updateState hown _ fun _ => .inl
  have htold := hcompleted.trans (keepsToOwn_tell hcompleted.holdsOwn .handshakeCompleted)
  have hannounced := htold.trans (keepsToOwn_sendControl htold.holdsOwn
    (.setChunkSize configuration.chunkSize))
  have hnoted := hannounced.trans (keepsToOwn_updateState hannounced.holdsOwn
    ({ · with outboundChunkSize := configuration.chunkSize }) fun _ => .inl)
  exact hnoted.trans (keepsToOwn_work hnoted.holdsOwn configuration policy)

theorem keepsToOwn_receiveHandshake (hown : connection.HoldsOwn)
    (configuration : ServerConfiguration) (policy : PolicyChain) (keyed : KeyedDigest)
    (fill : Handshake.Fill) :
    KeepsToOwn connection
      (connection.receiveHandshake configuration policy keyed fill).2.2 := by
  unfold receiveHandshake
  simp only
  generalize hprocessed : Connection.mk _ connection.relay = processed
  have hkept : KeepsToOwn connection processed := by
    rw [← hprocessed]
    exact keepsToOwn_of_session hown _ rfl rfl fun _ => .inl
  split
  · exact hkept
  · split
    · exact hkept.trans (keepsToOwn_beginSession hkept.holdsOwn configuration policy)
    · exact hkept

theorem keepsToOwn_receive (hown : connection.HoldsOwn)
    (configuration : ServerConfiguration) (policy : PolicyChain) (keyed : KeyedDigest)
    (fill : Handshake.Fill) (piece : Bytes) :
    KeepsToOwn connection
      (connection.receive configuration policy keyed fill piece).2.2 := by
  unfold receive
  simp only
  generalize hwaiting : Connection.mk _ connection.relay = waiting
  have hkept : KeepsToOwn connection waiting := by
    rw [← hwaiting]
    exact keepsToOwn_of_session hown _ rfl rfl fun _ => .inl
  split
  · have hworked := hkept.trans (keepsToOwn_work hkept.holdsOwn configuration policy)
    split
    · rename_i error ended houtcome
      rwa [houtcome] at hworked
    · rename_i worked houtcome
      rw [houtcome] at hworked
      exact hworked.trans (keepsToOwn_acknowledge hworked.holdsOwn _)
  · exact hkept.trans (keepsToOwn_receiveHandshake hkept.holdsOwn configuration policy _ _)

/-! ## The end -/

theorem keepsToOwn_flush (hown : connection.HoldsOwn) :
    KeepsToOwn connection connection.flush.2 := by
  have hwritten := keepsToOwn_of_session hown
    { connection.session with
      writer :=
        (connection.session.writer.writeAll
          (connection.relay.queues[connection.session.queue]?.getD {}).messages).2 }
    rfl rfl fun _ => .inl
  refine hwritten.trans (keepsToOwn_of_relay hwritten.holdsOwn ?_)
  exact Relay.keepsTo_of_queues rfl rfl rfl (List.length_set ..) fun _ hother _ =>
    List.getElem?_set_ne hother.symm

/-- What streams did is given up, one after the other. -/
theorem keepsToOwn_stopAll (hown : connection.HoldsOwn)
    (streams : List (UInt32 × StreamMode))
    (hbelongs : ∀ entry ∈ streams,
      entry.2.BelongsTo connection.relay connection.session.id connection.session.queue) :
    KeepsToOwn connection
      (streams.foldl
        (fun connection (streamId, mode) => connection.stopStream streamId mode false)
        connection) := by
  induction streams generalizing connection with
  | nil => exact .refl hown
  | cons entry streams ih =>
      have hstopped := keepsToOwn_stopStream hown entry.1
        (hbelongs entry List.mem_cons_self) false
      refine hstopped.trans (ih hstopped.holdsOwn fun other hother => ?_)
      rw [hstopped.id_eq, hstopped.queue_eq]
      exact (hbelongs other (List.mem_cons_of_mem _ hother)).after hstopped.keepsTo

theorem keepsToOwn_giveUpStreams (hown : connection.HoldsOwn) (order : TeardownOrder) :
    KeepsToOwn connection (connection.giveUpStreams order) := by
  unfold giveUpStreams
  simp only [SessionState.drainStreams]
  generalize hdrained : connection.updateState _ = drained
  have hkept : KeepsToOwn connection drained := by
    rw [← hdrained]
    exact keepsToOwn_updateState hown _ fun _ hentry => by cases hentry
  refine hkept.trans (keepsToOwn_stopAll hkept.holdsOwn _ fun entry hentry => ?_)
  rw [hkept.id_eq, hkept.queue_eq]
  exact (hown entry ((order.perm _).mem_iff.mp hentry)).after hkept.keepsTo

theorem keepsToOwn_finish (hown : connection.HoldsOwn) (policy : PolicyChain)
    (order : TeardownOrder) :
    KeepsToOwn connection (connection.finish policy order).2 := by
  have hclosed := keepsToOwn_of_relay hown
    (Relay.keepsTo_closeQueue connection.relay)
  have hflushed := hclosed.trans (keepsToOwn_flush hclosed.holdsOwn)
  have hhungUp := hflushed.trans (keepsToOwn_of_relay hflushed.holdsOwn
    (Relay.keepsTo_hangUpQueue _))
  have hgivenUp := hhungUp.trans (keepsToOwn_giveUpStreams hhungUp.holdsOwn order)
  have htold := hgivenUp.trans (keepsToOwn_tell hgivenUp.holdsOwn .disconnected)
  exact htold.trans (keepsToOwn_noteAsked htold.holdsOwn .disconnect policy.names)

end Connection

end LiveRelay
