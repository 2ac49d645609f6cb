import LiveRelay.Proofs.Ledger
import LiveRelay.Proofs.Tenure
import LiveRelay.Server

/-!
# The standing of a session

The standing of a session is who it is, whether it is connected, what its
streams do, and the ledger.  It is its tenure seen closer: a stream that starts
to publish or to play does so on the strength of a command that has come in and
of a decision about just this request, and the session is told of it.

Each step says what allowed it.  A session that is not connected takes no step
but to connect.
-/

namespace LiveRelay

/-- A request for one path is allowed under another, or under the same. -/
def Decision.Allows (decision : Decision) (requested path : StreamPath) : Prop :=
  decision = .accept ∧ path = requested ∨ decision = .acceptAs path

theorem Decision.allows_of_path {decision : Decision} {requested path : StreamPath}
    (hpath : decision.path requested = .ok path) : decision.Allows requested path := by
  cases decision with
  | accept => exact .inl ⟨rfl, (Except.ok.inj hpath).symm⟩
  | acceptAs other => exact .inr (congrArg Decision.acceptAs (Except.ok.inj hpath))
  | reject reason => cases hpath

def PolicyChain.decision (policy : PolicyChain) (context : SessionContext)
    (request : Request) : Decision :=
  (policy.decide context request).1

/-- The command that a message is read as, if it is one of those that are known. -/
def Arrival.call? (arrival : Arrival) : Option CommandCall :=
  match arrival.message with
  | .command streamId payload =>
      match CommandCall.read streamId payload with
      | .ok called => called
      | .error _ => none
  | _ => none

structure Standing where
  context : SessionContext
  isConnected : Bool
  streams : Table UInt32 StreamMode
  ledger : Ledger

namespace Standing

def tenure (standing : Standing) : Tenure :=
  ⟨standing.context.sessionId, standing.streams, standing.ledger.register⟩

def put (standing : Standing) (streamId : UInt32) (mode : StreamMode) : Standing :=
  { standing with streams := standing.streams.put streamId mode }

def stop (standing : Standing) (mode : StreamMode) : Standing :=
  { standing with ledger := standing.ledger.stop standing.context.sessionId mode }

def tell (standing : Standing) (event : SessionEvent) : Standing :=
  { standing with ledger := standing.ledger.tell standing.context.sessionId event }

def publish (standing : Standing) (streamId : UInt32) (path : StreamPath) : Standing :=
  let register := standing.ledger.register
  { standing with
    streams := standing.streams.put streamId (.publishing register.publications.length)
    ledger :=
      { standing.ledger with register := register.publish path standing.context.sessionId } }

def play (standing : Standing) (streamId : UInt32) (place : Nat) (path : StreamPath) :
    Standing :=
  let register := standing.ledger.register
  { standing with
    streams := standing.streams.put streamId (.playing place register.subscriptions.length)
    ledger :=
      { standing.ledger with
        register := register.subscribe place standing.context.sessionId
        plays := standing.ledger.plays ++ [⟨standing.context.sessionId, path, false⟩] } }

/-- One step, with what is lost in it. -/
inductive Step (decide : SessionContext → Request → Decision) (command? : Option Command) :
    Standing → List StreamMode → Standing → Prop
  | connected (standing : Standing) (parameters : ConnectParameters)
      (hcommand : command? = some (.connect parameters))
      (hfresh : standing.isConnected = false)
      (haccepted : (decide standing.context (.connect parameters)).isAccept = true) :
      Step decide command? standing []
        { standing with
          context := standing.context.withConnect parameters, isConnected := true }
  | allocated (standing : Standing) (streamId : UInt32)
      (hconnected : standing.isConnected = true) :
      Step decide command? standing (standing.tenure.mode streamId).owned
        (standing.put streamId .idle)
  | closed (standing : Standing) (streamId : UInt32)
      (hconnected : standing.isConnected = true) :
      Step decide command? standing []
        ((standing.put streamId .idle).stop (standing.tenure.mode streamId))
  | deleted (standing : Standing) (streamId : UInt32)
      (hconnected : standing.isConnected = true) :
      Step decide command? standing []
        ({ standing with streams := standing.streams.erase streamId }.stop
          (standing.tenure.mode streamId))
  | published (standing : Standing) (streamId : UInt32) (parameters : PublishParameters)
      (requested path : StreamPath) (arguments : StreamArguments)
      (hconnected : standing.isConnected = true)
      (hcommand : command? = some (.publish parameters))
      (hrequested : StreamPath.parse? standing.context.app parameters.streamName =
        some (requested, arguments))
      (hallowed :
        (decide standing.context
          (.publish requested arguments parameters.publishType)).Allows requested path)
      (hidle : standing.tenure.mode streamId = .idle)
      (hfree : standing.ledger.register.directory.get? path = none) :
      Step decide command? standing []
        ((standing.publish streamId path).tell (.published path arguments))
  | played (standing : Standing) (streamId : UInt32) (parameters : PlayParameters)
      (requested path : StreamPath) (arguments : StreamArguments) (place : Nat)
      (hconnected : standing.isConnected = true)
      (hcommand : command? = some (.play parameters))
      (hrequested : StreamPath.parse? standing.context.app parameters.streamName =
        some (requested, arguments))
      (hallowed :
        (decide standing.context (.play requested arguments)).Allows requested path)
      (hidle : standing.tenure.mode streamId = .idle)
      (hplace : standing.ledger.register.directory.get? path = some place) :
      Step decide command? standing []
        ((standing.play streamId place path).tell (.subscribed path arguments))

/-- Steps in a row, with all that is lost in them. -/
inductive Steps (decide : SessionContext → Request → Decision) (command? : Option Command) :
    Standing → List StreamMode → Standing → Prop
  | refl (standing : Standing) : Steps decide command? standing [] standing
  | head {first second last : Standing} {lost others : List StreamMode}
      (hstep : Step decide command? first lost second)
      (hsteps : Steps decide command? second others last) :
      Steps decide command? first (lost ++ others) last

variable {decide : SessionContext → Request → Decision} {command? : Option Command}
  {first second last : Standing} {lost others : List StreamMode}

theorem Steps.of_eq (hsame : last = first) : Steps decide command? first [] last := by
  subst hsame
  exact Steps.refl last

theorem Step.steps (hstep : Step decide command? first lost last) :
    Steps decide command? first lost last := by
  have hsteps := Steps.head hstep (Steps.refl last)
  rwa [List.append_nil] at hsteps

theorem Steps.trans (hfirst : Steps decide command? first lost second)
    (hsecond : Steps decide command? second others last) :
    Steps decide command? first (lost ++ others) last := by
  induction hfirst with
  | refl => exact hsecond
  | head hstep _ ih =>
      rw [List.append_assoc]
      exact Steps.head hstep (ih hsecond)

theorem Steps.silent_trans (hfirst : Steps decide command? first [] second)
    (hsecond : Steps decide command? second [] last) :
    Steps decide command? first [] last :=
  hfirst.trans hsecond

theorem tenure_stop (standing : Standing) (mode : StreamMode) :
    (standing.stop mode).tenure = standing.tenure.stop mode := by
  simp only [tenure, stop, Ledger.register_stop]
  rfl

/-- Seen from farther away, a step is one of the tenure, or none. -/
theorem Step.tenure (hstep : Step decide command? first lost last) :
    Tenure.Steps first.tenure lost last.tenure := by
  cases hstep with
  | connected => exact Tenure.Steps.refl _
  | allocated streamId => exact (Tenure.Step.allocated first.tenure streamId).steps
  | closed streamId =>
      rw [tenure_stop]
      exact (Tenure.Step.closed first.tenure streamId).steps
  | deleted streamId =>
      rw [tenure_stop]
      exact (Tenure.Step.deleted first.tenure streamId).steps
  | published streamId parameters requested path arguments _ _ _ _ hidle hfree =>
      exact (Tenure.Step.published first.tenure streamId path hidle hfree).steps
  | played streamId parameters requested path arguments place _ _ _ _ hidle hplace =>
      exact (Tenure.Step.played first.tenure streamId path place hidle hplace).steps

theorem Steps.tenure (hsteps : Steps decide command? first lost last) :
    Tenure.Steps first.tenure lost last.tenure := by
  induction hsteps with
  | refl standing => exact Tenure.Steps.refl standing.tenure
  | head hstep _ ih => exact hstep.tenure.trans ih

end Standing

namespace Connection

def standing (connection : Connection) : Standing :=
  ⟨connection.session.context, connection.session.state.isConnected,
    connection.session.state.streams, connection.relay.ledger⟩

variable (connection : Connection)

/-! ## Operations that leave the standing as it is -/

theorem standing_of_relay {relay : Relay} (hledger : relay.ledger = connection.relay.ledger) :
    ({ connection with relay := relay } : Connection).standing = connection.standing := by
  simp only [standing, hledger]

@[simp] theorem standing_send (message : OutboundMessage) :
    (connection.send message).standing = connection.standing := rfl

@[simp] theorem standing_sendControl (message : Message) :
    (connection.sendControl message).standing = connection.standing := rfl

@[simp] theorem standing_status (streamId : UInt32) (code description : String) :
    (connection.status streamId code description).standing = connection.standing := rfl

@[simp] theorem standing_refuse (streamId : UInt32) (code description : String) :
    (connection.refuse streamId code description).standing = connection.standing := rfl

theorem standing_tell (event : SessionEvent) :
    (connection.tell event).standing = connection.standing.tell event := by
  have htold := connection.relay.told_note (.event connection.session.context event)
  simp only [tell, standing, Standing.tell, Ledger.tell, Relay.ledger, htold]
  rfl

@[simp] theorem standing_noteAsked (question : Question) (names : List String) :
    (connection.noteAsked question names).standing = connection.standing := by
  refine standing_of_relay connection ?_
  exact foldl_keeps Relay.ledger (fun relay _ => Relay.ledger_note relay rfl) names _

theorem tenure_noteAsked (question : Question) (names : List String) :
    (connection.noteAsked question names).tenure = connection.tenure :=
  congrArg Standing.tenure (standing_noteAsked connection question names)

@[simp] theorem standing_ask (policy : PolicyChain) (request : Request) :
    (connection.ask policy request).2.standing = connection.standing :=
  standing_noteAsked connection _ _

theorem standing_updatePlay (streamId : UInt32) {change : Subscription → Subscription}
    (hchange : ∀ subscription, (change subscription).asPlay = subscription.asPlay) :
    (connection.updatePlay streamId change).standing = connection.standing := by
  unfold updatePlay
  split
  · exact standing_of_relay connection
      (Relay.ledger_updateSubscription connection.relay _ hchange)
  · rfl

theorem standing_pause (streamId : UInt32) (paused : Bool) :
    (connection.pause streamId paused).standing = connection.standing := by
  unfold pause
  split
  · rfl
  · simp only
    split
    · rw [standing_status]
      exact standing_updatePlay connection streamId (fun _ => rfl)
    · rw [standing_status]
      exact standing_updatePlay connection streamId (fun _ => rfl)

theorem standing_receiveData (message : DataMessage) :
    (connection.receiveData message).standing = connection.standing := by
  unfold receiveData
  split
  · rfl
  · rename_i place _
    split
    · rename_i metadata _
      let told := connection.tell (.describedStream (connection.relay.pathOf place) metadata)
      have htold : told.standing = connection.standing :=
        standing_of_relay connection (Relay.ledger_note _ rfl)
      exact (standing_of_relay told
        (Relay.ledger_distributeMetadata told.relay place metadata)).trans htold
    · split
      · exact standing_of_relay connection (Relay.ledger_clearMetadata connection.relay place)
      · rfl

theorem standing_receiveMedia (kind : MediaKind) (streamId timestamp : UInt32)
    (payload : Bytes) :
    (connection.receiveMedia kind streamId timestamp payload).standing =
      connection.standing := by
  unfold receiveMedia
  split
  · exact standing_of_relay connection
      (Relay.ledger_distribute connection.relay _ kind timestamp _)
  · rfl

theorem standing_receiveControl (reply : Option Message) :
    (connection.receiveControl reply).standing = connection.standing := by
  cases reply <;> rfl

/-! ## Operations that change it -/

theorem standing_stopStream (streamId : UInt32) (mode : StreamMode) (notifies : Bool) :
    (connection.stopStream streamId mode notifies).standing =
      connection.standing.stop mode := by
  cases mode with
  | idle => rfl
  | publishing place =>
      cases hstop : connection.relay.stopPublishing place with
      | mk stopped relay =>
          have hstanding : (if stopped then
              { connection with
                relay := relay.observe (connection.relay.pathOf place) .groupCleared }.tell
                (.unpublished (connection.relay.pathOf place))
            else ({ connection with relay := relay } : Connection)).standing =
              connection.standing.stop (.publishing place) := by
            cases stopped with
            | true =>
                rw [if_pos rfl, standing_tell]
                have hledger := Relay.ledger_stopPublishing_of_true connection.relay hstop
                  connection.session.context.sessionId
                simp only [Standing.stop, standing, Standing.tell]
                rw [Relay.ledger_observe, hledger]
            | false =>
                have hledger := Relay.ledger_stopPublishing_of_false connection.relay hstop
                  connection.session.context.sessionId
                simp only [Bool.false_eq_true, if_false, Standing.stop, standing, hledger]
          simp only [stopStream, hstop]
          split
          · exact hstanding
          · exact hstanding
  | playing place subscription =>
      cases hstop : connection.relay.stopSubscribing place subscription with
      | mk stopped relay =>
          have hstanding : (if stopped then
              { connection with relay := relay }.tell
                (.unsubscribed (connection.relay.pathOf place))
            else ({ connection with relay := relay } : Connection)).standing =
              connection.standing.stop (.playing place subscription) := by
            cases stopped with
            | true =>
                rw [if_pos rfl, standing_tell]
                have hledger := Relay.ledger_stopSubscribing_of_true connection.relay hstop
                  connection.session.context.sessionId
                simp only [Standing.stop, standing, Standing.tell, hledger]
            | false =>
                have hledger := Relay.ledger_stopSubscribing_of_false connection.relay hstop
                  connection.session.context.sessionId
                simp only [Bool.false_eq_true, if_false, Standing.stop, standing, hledger]
          simp only [stopStream, hstop]
          split
          · exact hstanding
          · exact hstanding

section

variable {decide : SessionContext → Request → Decision} {command? : Option Command}

theorem standing_takeMode (streamId : UInt32) (notifies : Bool)
    (hconnected : connection.session.state.isConnected = true) :
    let taken := connection.session.state.takeMode streamId
    Standing.Steps decide command? connection.standing []
      ((connection.updateState fun _ => taken.2).stopStream streamId taken.1
        notifies).standing := by
  simp only [SessionState.takeMode, SessionState.stream?]
  cases hmode : connection.session.state.streams.get? streamId with
  | none => exact Standing.Steps.refl _
  | some mode =>
      have hclosed : Standing.Steps decide command? connection.standing [] _ :=
        (Standing.Step.closed connection.standing streamId hconnected).steps
      have htaken : connection.standing.tenure.mode streamId = mode := by
        simp [Tenure.mode, Standing.tenure, standing, hmode]
      rw [htaken] at hclosed
      rw [standing_stopStream]
      exact hclosed

theorem standing_deleteStream (streamId : UInt32)
    (hconnected : connection.session.state.isConnected = true) :
    Standing.Steps decide command? connection.standing []
      (connection.deleteStream streamId).standing := by
  unfold deleteStream
  simp only [SessionState.removeStream, SessionState.stream?]
  cases hmode : connection.session.state.streams.get? streamId with
  | none => exact Standing.Steps.refl _
  | some mode =>
      have hdeleted : Standing.Steps decide command? connection.standing [] _ :=
        (Standing.Step.deleted connection.standing streamId hconnected).steps
      have htaken : connection.standing.tenure.mode streamId = mode := by
        simp [Tenure.mode, Standing.tenure, standing, hmode]
      rw [htaken] at hdeleted
      rw [standing_stopStream]
      exact hdeleted

theorem mode_of_claimStream {streamId : UInt32}
    (hfree : (connection.claimStream streamId).1 = true) :
    (connection.claimStream streamId).2.tenure.mode streamId = .idle := by
  unfold claimStream at hfree ⊢
  revert hfree
  simp only
  generalize (if connection.hasEnded streamId = true then _ else connection) = claimed
  intro hfree
  show (claimed.session.state.stream? streamId).getD .idle = .idle
  cases hmode : claimed.session.state.stream? streamId with
  | none => rfl
  | some mode =>
      rw [hmode] at hfree
      cases mode with
      | idle => rfl
      | publishing publication => simp [StreamMode.isIdle] at hfree
      | playing publication subscription => simp [StreamMode.isIdle] at hfree

/-- A play that has ended may be given up; who the session is stays the same. -/
theorem standing_claimStream (streamId : UInt32)
    (hconnected : connection.session.state.isConnected = true) :
    Standing.Steps decide command? connection.standing []
        (connection.claimStream streamId).2.standing ∧
      (connection.claimStream streamId).2.session.context = connection.session.context ∧
      (connection.claimStream streamId).2.session.state.isConnected = true := by
  unfold claimStream
  simp only
  split
  · refine ⟨standing_takeMode connection streamId false hconnected, ?_, ?_⟩
    · exact congrArg Standing.context (standing_stopStream _ streamId _ false)
    · refine (congrArg Standing.isConnected (standing_stopStream _ streamId _ false)).trans ?_
      unfold SessionState.takeMode
      split <;> exact hconnected
  · exact ⟨Standing.Steps.refl _, rfl, hconnected⟩

theorem standing_publishAs {streamId : UInt32} {parameters : PublishParameters}
    {requested path : StreamPath} {arguments : StreamArguments}
    (hconnected : connection.session.state.isConnected = true)
    (hrequested : StreamPath.parse? connection.session.context.app parameters.streamName =
      some (requested, arguments))
    (hallowed :
      (decide connection.session.context
        (.publish requested arguments parameters.publishType)).Allows requested path)
    (hidle : connection.tenure.mode streamId = .idle) :
    Standing.Steps decide (some (.publish parameters)) connection.standing []
      (connection.publishAs streamId
        ⟨connection.session.id, path, arguments, parameters.publishType⟩).standing := by
  unfold publishAs
  split
  · exact Standing.Steps.refl _
  · rename_i place relay hstart
    obtain ⟨hfree, hplace, -⟩ := Relay.register_startPublishing connection.relay hstart
    have hledger := Relay.ledger_startPublishing connection.relay hstart
    have hpublished := (Standing.Step.published connection.standing streamId parameters requested
      path arguments hconnected rfl hrequested hallowed hidle hfree).steps
    simp only [standing_tell, standing_status, standing_sendControl]
    simp only [standing, setMode, updateState, SessionState.setMode, hledger, hplace]
    exact hpublished

theorem standing_playAs {streamId : UInt32} {parameters : PlayParameters}
    {requested path : StreamPath} {arguments : StreamArguments}
    (hconnected : connection.session.state.isConnected = true)
    (hrequested : StreamPath.parse? connection.session.context.app parameters.streamName =
      some (requested, arguments))
    (hallowed :
      (decide connection.session.context
        (.play requested arguments)).Allows requested path)
    (hidle : connection.tenure.mode streamId = .idle) :
    Standing.Steps decide (some (.play parameters)) connection.standing []
      (connection.playAs streamId path arguments).standing := by
  unfold playAs
  simp only
  split
  · exact Standing.Steps.refl _
  · rename_i place subscription relay hstart
    obtain ⟨hplace, hsubscription, -⟩ :=
      Relay.register_startSubscribing connection.relay hstart
    have hledger := Relay.ledger_startSubscribing connection.relay hstart
    have hplayed := (Standing.Step.played connection.standing streamId parameters requested
      path arguments place hconnected rfl hrequested hallowed hidle hplace).steps
    simp only [standing_tell]
    simp only [standing, setMode, updateState, SessionState.setMode, hledger, hsubscription]
    exact hplayed

end

theorem standing_publish (policy : PolicyChain) (streamId : UInt32)
    (parameters : PublishParameters)
    (hconnected : connection.session.state.isConnected = true) :
    Standing.Steps policy.decision (some (.publish parameters)) connection.standing []
      (connection.publish policy streamId parameters).standing := by
  unfold publish
  have hidle : (connection.claimStream streamId).1 = true →
      (connection.claimStream streamId).2.tenure.mode streamId = .idle :=
    mode_of_claimStream connection
  obtain ⟨hclaim, hcontext, hstill⟩ : Standing.Steps policy.decision (some (.publish parameters))
    connection.standing [] _ ∧ _ := standing_claimStream connection streamId hconnected
  revert hidle hclaim hcontext hstill
  generalize connection.claimStream streamId = claimed
  obtain ⟨isFree, claimed⟩ := claimed
  intro hidle hclaim hcontext hstill
  cases isFree with
  | false => exact hclaim
  | true =>
      simp only [Bool.not_true, Bool.false_eq_true, if_false]
      split
      · exact hclaim
      · rename_i requested arguments hrequested
        let request : Request := .publish requested arguments parameters.publishType
        have hasked : (claimed.ask policy request).2.standing = claimed.standing :=
          standing_ask claimed policy request
        split
        · rw [standing_refuse, hasked]
          exact hclaim
        · rename_i path hpath
          refine hclaim.silent_trans ?_
          rw [← hasked]
          refine standing_publishAs (claimed.ask policy request).2 hstill hrequested
            (Decision.allows_of_path hpath) ?_
          rw [show (claimed.ask policy request).2.tenure = claimed.tenure from
            tenure_noteAsked claimed _ _]
          exact hidle rfl

theorem standing_play (policy : PolicyChain) (streamId : UInt32)
    (parameters : PlayParameters)
    (hconnected : connection.session.state.isConnected = true) :
    Standing.Steps policy.decision (some (.play parameters)) connection.standing []
      (connection.play policy streamId parameters).standing := by
  unfold play
  have hidle : (connection.claimStream streamId).1 = true →
      (connection.claimStream streamId).2.tenure.mode streamId = .idle :=
    mode_of_claimStream connection
  obtain ⟨hclaim, hcontext, hstill⟩ : Standing.Steps policy.decision (some (.play parameters))
    connection.standing [] _ ∧ _ := standing_claimStream connection streamId hconnected
  revert hidle hclaim hcontext hstill
  generalize connection.claimStream streamId = claimed
  obtain ⟨isFree, claimed⟩ := claimed
  intro hidle hclaim hcontext hstill
  cases isFree with
  | false => exact hclaim
  | true =>
      simp only [Bool.not_true, Bool.false_eq_true, if_false]
      split
      · exact hclaim
      · rename_i requested arguments hrequested
        let request : Request := .play requested arguments
        have hasked : (claimed.ask policy request).2.standing = claimed.standing :=
          standing_ask claimed policy request
        split
        · rw [standing_refuse, hasked]
          exact hclaim
        · rename_i path hpath
          refine hclaim.silent_trans ?_
          rw [← hasked]
          refine standing_playAs (claimed.ask policy request).2 hstill hrequested
            (Decision.allows_of_path hpath) ?_
          rw [show (claimed.ask policy request).2.tenure = claimed.tenure from
            tenure_noteAsked claimed _ _]
          exact hidle rfl

theorem standing_connect (configuration : ServerConfiguration) (policy : PolicyChain)
    (transaction : Binary64) (parameters : ConnectParameters) :
    Standing.Steps policy.decision (some (.connect parameters)) connection.standing []
      (connection.connect configuration policy transaction parameters).2.standing := by
  unfold connect
  split
  · exact Standing.Steps.refl _
  · rename_i hfresh
    cases hdecide : policy.decide connection.session.context (.connect parameters) with
    | mk decision names =>
        let asked := connection.noteAsked (.request (.connect parameters)) names
        have hasked : asked.standing = connection.standing := standing_noteAsked connection _ _
        have hstep (haccepted : decision.isAccept = true) :
            Standing.Steps policy.decision (some (.connect parameters)) connection.standing []
              { asked.standing with
                context := connection.session.context.withConnect parameters
                isConnected := true } := by
          rw [hasked]
          refine (Standing.Step.connected connection.standing parameters rfl
            (eq_false_of_ne_true hfresh) ?_).steps
          simpa only [PolicyChain.decision, standing, hdecide] using haccepted
        simp only [ask, hdecide]
        cases decision with
        | reject reason => exact Standing.Steps.of_eq hasked
        | accept =>
            simp only [standing_send, standing_sendControl]
            exact hstep rfl
        | acceptAs path =>
            simp only [standing_send, standing_sendControl]
            exact hstep rfl

/-! ## Messages -/

theorem standing_run (configuration : ServerConfiguration) (policy : PolicyChain)
    (called : CommandCall) (hconnected : connection.session.state.isConnected = true) :
    Standing.Steps policy.decision (some called.command) connection.standing
      (connection.lostByRun called) (connection.run configuration policy called).2.standing := by
  unfold run lostByRun
  cases called.command with
  | createStream =>
      exact (Standing.Step.allocated connection.standing
        connection.session.state.nextStreamId hconnected).steps
  | publish parameters => exact standing_publish connection policy _ parameters hconnected
  | play parameters => exact standing_play connection policy _ parameters hconnected
  | closeStream => exact standing_takeMode connection _ true hconnected
  | deleteStream target => exact standing_deleteStream connection target hconnected
  | connect parameters => exact standing_connect connection configuration policy _ parameters
  | pause paused milliseconds => exact Standing.Steps.of_eq (standing_pause connection _ _)
  | receiveAudio enabled =>
      exact Standing.Steps.of_eq (standing_updatePlay connection _ (fun _ => rfl))
  | receiveVideo enabled =>
      exact Standing.Steps.of_eq (standing_updatePlay connection _ (fun _ => rfl))
  | releaseStream streamName => exact Standing.Steps.refl _
  | announcePublish streamName => exact Standing.Steps.refl _
  | announceUnpublish streamName => exact Standing.Steps.refl _

theorem standing_call (configuration : ServerConfiguration) (policy : PolicyChain)
    (called : CommandCall) :
    Standing.Steps policy.decision (some called.command) connection.standing
      (connection.lostByCall called)
      (connection.call configuration policy called).2.standing := by
  unfold call lostByCall
  cases hconnected : connection.session.state.isConnected with
  | true => exact standing_run connection configuration policy called hconnected
  | false =>
      cases hcommand : called.command with
      | connect parameters =>
          simp only [isConnect, Bool.not_false, Bool.not_true, Bool.and_false, run, hcommand]
          exact standing_connect connection configuration policy _ parameters
      | _ => exact Standing.Steps.refl _

/-- A message is handled in steps that its command and the policy account for. -/
theorem standing_receiveArrival (configuration : ServerConfiguration) (policy : PolicyChain)
    (arrival : Arrival) :
    Standing.Steps policy.decision (arrival.call?.map CommandCall.command) connection.standing
      (connection.lostBy arrival)
      (connection.receiveArrival configuration policy arrival).2.standing := by
  unfold receiveArrival lostBy Arrival.call?
  cases arrival.message with
  | command streamId payload =>
      simp only [receiveCommand]
      cases CommandCall.read streamId payload with
      | error error => exact Standing.Steps.refl _
      | ok found =>
          cases found with
          | none => exact Standing.Steps.refl _
          | some called => exact standing_call connection configuration policy called
  | data message => exact Standing.Steps.of_eq (standing_receiveData connection message)
  | audio timestamp payload =>
      exact Standing.Steps.of_eq (standing_receiveMedia connection _ _ _ _)
  | video timestamp payload =>
      exact Standing.Steps.of_eq (standing_receiveMedia connection _ _ _ _)
  | unknown typeId payload => exact Standing.Steps.refl _
  | _ => exact Standing.Steps.of_eq (standing_receiveControl connection _)

theorem steps_receiveArrival (configuration : ServerConfiguration) (policy : PolicyChain)
    (arrival : Arrival) :
    Tenure.Steps connection.tenure (connection.lostBy arrival)
      (connection.receiveArrival configuration policy arrival).2.tenure :=
  (connection.standing_receiveArrival configuration policy arrival).tenure

/-! ## The end -/

theorem ledger_giveUp (streams : List (UInt32 × StreamMode)) :
    (streams.foldl
        (fun connection (streamId, mode) => connection.stopStream streamId mode false)
        connection).relay.ledger =
      streams.foldl (fun ledger (_, mode) => ledger.stop connection.session.id mode)
        connection.relay.ledger := by
  induction streams generalizing connection with
  | nil => rfl
  | cons stream streams ih =>
      obtain ⟨streamId, mode⟩ := stream
      have hstopped := standing_stopStream connection streamId mode false
      have hledger : (connection.stopStream streamId mode false).relay.ledger =
          connection.relay.ledger.stop connection.session.id mode :=
        congrArg Standing.ledger hstopped
      have hid : (connection.stopStream streamId mode false).session.id =
          connection.session.id :=
        congrArg (·.context.sessionId) hstopped
      rw [List.foldl_cons, List.foldl_cons, ih]
      simp only [hledger, hid]

/-- At the end of a session the ledger loses all that the session owns. -/
theorem ledger_finish (policy : PolicyChain) (order : TeardownOrder) :
    (connection.finish policy order).2.relay.ledger =
      (order.arrange connection.session.state.streams).foldl
        (fun ledger (_, mode) => ledger.stop connection.session.id mode)
        connection.relay.ledger := by
  simp only [finish]
  generalize hhungUp : Connection.mk _ (Relay.hangUpQueue _ _) = hungUp
  have hstreams : hungUp.session.state.streams = connection.session.state.streams := by
    rw [← hhungUp]
    rfl
  have hid : hungUp.session.id = connection.session.id := by
    rw [← hhungUp]
    rfl
  have hledger : hungUp.relay.ledger = connection.relay.ledger := by
    rw [← hhungUp]
    exact Relay.ledger_of_streams (Relay.streams_hangUpQueue _ _)
  have hasked := congrArg Standing.ledger
    (standing_noteAsked ((hungUp.giveUpStreams order).tell .disconnected) .disconnect
      policy.names)
  refine hasked.trans ((Relay.ledger_note _ rfl).trans ?_)
  rw [← hstreams, ← hid, ← hledger]
  exact ledger_giveUp _ _

end Connection

/-! ## Between the messages -/

namespace Server

variable (server : Server)

theorem ledger_letIn (session : Nat) :
    (server.letIn session).2.relay.ledger = server.relay.ledger := by
  unfold letIn
  simp only
  generalize hasked : Connection.noteAsked _ .connection _ = asked
  have hledger : asked.relay.ledger = server.relay.ledger := by
    rw [← hasked]
    exact congrArg Standing.ledger (Connection.standing_noteAsked _ _ _)
  split
  · exact (Relay.ledger_note asked.relay rfl).trans hledger
  · exact hledger

theorem ledger_accept (canSendWithoutDelay : Bool) :
    (server.accept canSendWithoutDelay).2.relay.ledger = server.relay.ledger := by
  unfold accept
  simp only
  split
  · rfl
  · split
    · rfl
    · exact ledger_letIn _ _

theorem ledger_flush (session : Nat) :
    (server.flush session).2.relay.ledger = server.relay.ledger := by
  unfold flush
  cases hconnection : server.connection? session with
  | none => rfl
  | some connection =>
      obtain ⟨found, -, rfl⟩ := Option.map_eq_some_iff.mp hconnection
      rfl

end Server

end LiveRelay
