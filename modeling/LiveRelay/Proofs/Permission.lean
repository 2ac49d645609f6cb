import LiveRelay.Proofs.SessionEnd
import LiveRelay.Proofs.Standing
import Mathlib.Data.List.Induction

/-!
# Permission

Nothing is published or played without permission.  Until a policy has let a
session connect, its messages change no stream and no list of streams, nothing
is told of streams on its behalf, and all it is ever sent are answers to pings
and the refusal of its connect.  Any other command ends the session.

After that, each path that the session publishes or plays goes back to one
command of the session and one decision of a policy about just that command.
-/

namespace LiveRelay

/-- Pings are all that is answered of control messages. -/
theorem ProtocolControl.reply_of_handle {control after : ProtocolControl}
    {decoder next : ChunkDecoder} {message reply : Message}
    (hhandle : control.handle decoder message = .ok (some reply, after, next)) :
    ∃ timestamp, reply = .userControl (.pingResponse timestamp) := by
  unfold handle at hhandle
  split at hhandle
  · split at hhandle
    · cases hhandle
    · split at hhandle <;> simp at hhandle
  · simp at hhandle
  · simp at hhandle
  · simp at hhandle
  · rename_i timestamp
    simp only [Except.ok.injEq, Prod.mk.injEq, Option.some.injEq] at hhandle
    exact ⟨timestamp, hhandle.1.symm⟩
  · simp at hhandle

/-! ## Before a connect is accepted -/

/-- Streams stay as they are, and nothing is told of any. -/
structure Relay.LeavesAlone (before after : Relay) : Prop where
  directory : after.directory = before.directory
  publications : after.publications = before.publications
  subscriptions : after.subscriptions = before.subscriptions
  silent : ∃ notices, after.log = before.log ++ notices ∧
    ∀ context event, .event context event ∈ notices → event.path? = none

namespace Relay

variable {before middle after : Relay}

theorem LeavesAlone.refl (relay : Relay) : LeavesAlone relay relay :=
  ⟨rfl, rfl, rfl, [], (List.append_nil _).symm, fun _ _ hmem => by cases hmem⟩

theorem LeavesAlone.trans (hfirst : LeavesAlone before middle)
    (hsecond : LeavesAlone middle after) : LeavesAlone before after := by
  obtain ⟨notices, hlog, hnotices⟩ := hfirst.silent
  obtain ⟨others, hlogOthers, hothers⟩ := hsecond.silent
  refine ⟨hsecond.directory.trans hfirst.directory,
    hsecond.publications.trans hfirst.publications,
    hsecond.subscriptions.trans hfirst.subscriptions, notices ++ others, ?_, ?_⟩
  · rw [hlogOthers, hlog, List.append_assoc]
  · intro context event hmem
    rcases List.mem_append.mp hmem with hold | hnew
    · exact hnotices context event hold
    · exact hothers context event hnew

theorem LeavesAlone.of_eq (hdirectory : after.directory = before.directory)
    (hpublications : after.publications = before.publications)
    (hsubscriptions : after.subscriptions = before.subscriptions)
    (hlog : after.log = before.log) : LeavesAlone before after :=
  ⟨hdirectory, hpublications, hsubscriptions, [], by rw [hlog, List.append_nil],
    fun _ _ hmem => by cases hmem⟩

theorem leavesAlone_note (relay : Relay) {notice : Notice}
    (hnotice : ∀ context event, notice = .event context event → event.path? = none) :
    LeavesAlone relay (relay.note notice) :=
  ⟨rfl, rfl, rfl, [notice], rfl, fun context event hmem =>
    hnotice context event (List.mem_singleton.mp hmem).symm⟩

theorem leavesAlone_hangUpQueue (relay : Relay) (queue : Nat) :
    LeavesAlone relay (relay.hangUpQueue queue) := by
  unfold hangUpQueue
  split
  · exact .of_eq rfl rfl rfl rfl
  · exact .refl relay

end Relay

namespace Connection

variable (connection : Connection)

theorem leavesAlone_noteAsked (question : Question) (names : List String) :
    connection.relay.LeavesAlone (connection.noteAsked question names).relay := by
  unfold noteAsked
  generalize connection.relay = relay
  simp only
  induction names generalizing relay with
  | nil => exact .refl relay
  | cons name names ih =>
      exact (relay.leavesAlone_note fun context event hsame => by cases hsame).trans (ih _)

theorem queueAt_noteAsked (question : Question) (names : List String) (queue : Nat) :
    (connection.noteAsked question names).relay.queueAt queue =
      connection.relay.queueAt queue := by
  unfold noteAsked
  generalize connection.relay = relay
  simp only
  induction names generalizing relay with
  | nil => rfl
  | cons name names ih => exact ih (relay.note _)

/-- The end of a session without streams. -/
theorem leavesAlone_finish (policy : PolicyChain) (order : TeardownOrder)
    (hstreams : connection.session.state.streams = []) :
    connection.relay.LeavesAlone (connection.finish policy order).2.relay := by
  have harranged : order.arrange connection.session.state.streams = [] := by
    rw [hstreams]
    exact List.perm_nil.mp (order.perm [])
  simp only [finish]
  generalize hhungUp : Connection.mk _ (Relay.hangUpQueue _ _) = hungUp
  have halone : connection.relay.LeavesAlone hungUp.relay := by
    have hflushed : connection.relay.LeavesAlone
        { connection with
          relay := connection.relay.closeQueue connection.session.queue }.flush.2.relay :=
      .of_eq rfl rfl rfl rfl
    rw [← hhungUp]
    exact hflushed.trans (Relay.leavesAlone_hangUpQueue _ _)
  have hnone : order.arrange hungUp.session.state.streams = [] := by
    rw [← hhungUp]
    exact harranged
  have hgivenUp : (hungUp.giveUpStreams order).relay = hungUp.relay := by
    simp only [giveUpStreams, SessionState.drainStreams, hnone]
    rfl
  have htold : hungUp.relay.LeavesAlone
      ((hungUp.giveUpStreams order).tell .disconnected).relay := by
    rw [← hgivenUp]
    refine Relay.leavesAlone_note _ fun context event hsame => ?_
    cases hsame
    rfl
  exact (halone.trans htold).trans (leavesAlone_noteAsked _ _ _)

/-- The answer to a ping, or the refusal of a connect. -/
def IsFormality (answer : OutboundMessage) : Prop :=
  (∃ timestamp, answer = .userControl (.pingResponse timestamp)) ∨
    ∃ transaction reason,
      answer = .reply (.failure transaction .null
        (.object (connectionInfo "error" StatusCode.connectRejected reason)))

/-- What is left of a session that is not served. -/
structure Unserved (before after : Connection) : Prop where
  alone : before.relay.LeavesAlone after.relay
  streams : after.session.state.streams = before.session.state.streams
  answered : ∃ answers, (∀ answer ∈ answers, IsFormality answer) ∧
    after.relay.queueAt before.session.queue =
      (before.relay.queueAt before.session.queue).pushAll answers

theorem Unserved.refl : Unserved connection connection :=
  ⟨.refl connection.relay, rfl, [], fun _ hmem => (by cases hmem), rfl⟩

theorem unserved_send {answer : OutboundMessage} (hanswer : IsFormality answer) :
    Unserved connection (connection.send answer) := by
  have hsends : Relay.Sends connection.session.queue _ connection.relay
      (connection.send answer).relay := Relay.sends_send connection.relay _ answer
  refine ⟨.of_eq rfl rfl rfl rfl, rfl, [answer], ?_, ?_⟩
  · intro other hother
    rwa [List.mem_singleton.mp hother]
  · simpa using hsends.queueAt

/-- Only pings are answered at once. -/
theorem reply_of_accept {inbound after : Inbound} {arrival : Arrival} {reply : Message}
    (haccept : inbound.accept arrival.wire = (.ok arrival, after))
    (hreply : arrival.reply = some reply) :
    ∃ timestamp, reply = .userControl (.pingResponse timestamp) := by
  unfold Inbound.accept at haccept
  split at haccept
  · cases haccept
  · rename_i message _
    split at haccept
    · cases haccept
    · rename_i answer control decoder hhandle
      obtain ⟨hsame, -⟩ := Prod.mk.inj haccept
      rw [← Except.ok.inj hsame] at hreply
      subst hreply
      exact ProtocolControl.reply_of_handle hhandle

theorem unserved_receiveControl {reply : Option Message}
    (hreply : ∀ message, reply = some message →
      ∃ timestamp, message = .userControl (.pingResponse timestamp)) :
    Unserved connection (connection.receiveControl reply) := by
  cases reply with
  | none => exact { Unserved.refl connection with }
  | some message =>
      obtain ⟨timestamp, rfl⟩ := hreply message rfl
      have hsent := unserved_send connection (.inl ⟨timestamp, rfl⟩)
      exact { hsent with }

theorem unserved_connect (configuration : ServerConfiguration) {policy : PolicyChain}
    (transaction : Binary64) {parameters : ConnectParameters}
    (hrefused :
      (policy.decision connection.session.context (.connect parameters)).isAccept = false) :
    Unserved connection
      (connection.connect configuration policy transaction parameters).2 := by
  unfold connect
  split
  · exact Unserved.refl connection
  · cases hdecide : policy.decide connection.session.context (.connect parameters) with
    | mk decision names =>
        have hreject : decision.isAccept = false := by
          simpa only [PolicyChain.decision, hdecide] using hrefused
        simp only [ask, hdecide]
        cases decision with
        | accept => cases hreject
        | acceptAs path => cases hreject
        | reject reason =>
            let asked := connection.noteAsked (.request (.connect parameters)) names
            have hasked := leavesAlone_noteAsked connection (.request (.connect parameters)) names
            have hqueue : asked.relay.queueAt connection.session.queue =
                connection.relay.queueAt connection.session.queue :=
              queueAt_noteAsked connection _ names _
            obtain ⟨halone, hstreams, answers, hanswers, hanswered⟩ :=
              unserved_send asked (.inr ⟨transaction, reason, rfl⟩)
            refine ⟨hasked.trans halone, hstreams, answers, hanswers, hanswered.trans ?_⟩
            exact congrArg (OutboundQueue.pushAll · answers) hqueue

/-- A session that is not connected is not served. -/
theorem unserved_receiveArrival (configuration : ServerConfiguration) (policy : PolicyChain)
    {arrival : Arrival} (hfresh : connection.session.state.isConnected = false)
    (hstreams : connection.session.state.streams = [])
    (hrefused : ∀ called parameters, arrival.call? = some called →
      called.command = .connect parameters →
        (policy.decision connection.session.context (.connect parameters)).isAccept = false)
    (hreply : ∀ message, arrival.reply = some message →
      ∃ timestamp, message = .userControl (.pingResponse timestamp)) :
    Unserved connection (connection.receiveArrival configuration policy arrival).2 := by
  have hidle (streamId : UInt32) : connection.session.state.publishing? streamId = none := by
    simp [SessionState.publishing?, SessionState.stream?, hstreams]
  unfold receiveArrival
  unfold Arrival.call? at hrefused
  cases hmessage : arrival.message with
  | command streamId payload =>
      simp only [hmessage] at hrefused
      simp only [receiveCommand]
      cases hread : CommandCall.read streamId payload with
      | error error => exact Unserved.refl connection
      | ok found =>
          cases found with
          | none => exact Unserved.refl connection
          | some called =>
              simp only [hread] at hrefused
              simp only [call, hfresh]
              cases hcommand : called.command with
              | connect parameters =>
                  simp only [isConnect, Bool.not_false, Bool.not_true, Bool.and_false, run, hcommand]
                  exact unserved_connect connection configuration _
                    (hrefused called parameters rfl hcommand)
              | _ => exact Unserved.refl connection
  | data message =>
      simp only [receiveData, hidle]
      exact Unserved.refl connection
  | audio timestamp payload =>
      simp only [receiveMedia, hidle]
      exact Unserved.refl connection
  | video timestamp payload =>
      simp only [receiveMedia, hidle]
      exact Unserved.refl connection
  | unknown typeId payload => exact Unserved.refl connection
  | _ => exact unserved_receiveControl connection hreply

theorem receiveArrival_of_call (configuration : ServerConfiguration) (policy : PolicyChain)
    {arrival : Arrival} {called : CommandCall} (hcalled : arrival.call? = some called) :
    connection.receiveArrival configuration policy arrival =
      connection.call configuration policy called := by
  unfold Arrival.call? at hcalled
  split at hcalled
  · rename_i streamId payload hmessage
    split at hcalled
    · rename_i found hread
      subst hcalled
      simp only [receiveArrival, hmessage, receiveCommand, hread]
    · cases hcalled
  · cases hcalled

/-- The first command that is not a connect ends the session. -/
theorem error_receiveArrival (configuration : ServerConfiguration) (policy : PolicyChain)
    {arrival : Arrival} {called : CommandCall}
    (hfresh : connection.session.state.isConnected = false)
    (hcalled : arrival.call? = some called) (hcommand : isConnect called.command = false) :
    (connection.receiveArrival configuration policy arrival).1 =
      some (.protocol (.unexpectedMessage s!"{called.name} before connect")) := by
  rw [receiveArrival_of_call connection configuration policy hcalled]
  simp [call, hfresh, hcommand]

end Connection

/-! ## Asking for a path -/

/-- A command asks for a path, in the name of an app. -/
inductive Command.Asks (app : String) : Command → StreamPath → Request → Prop
  | publish {parameters : PublishParameters} {path : StreamPath} {arguments : StreamArguments}
      (hpath : StreamPath.parse? app parameters.streamName = some (path, arguments)) :
      Asks app (.publish parameters) path (.publish path arguments parameters.publishType)
  | play {parameters : PlayParameters} {path : StreamPath} {arguments : StreamArguments}
      (hpath : StreamPath.parse? app parameters.streamName = some (path, arguments)) :
      Asks app (.play parameters) path (.play path arguments)

inductive StreamRole where
  | publisher
  | viewer

/-- The requests that lead to a role. -/
def StreamRole.isWanted : StreamRole → Request → Bool
  | .publisher, .publish _ _ _ => true
  | .viewer, .play _ _ => true
  | _, _ => false

/-- The sessions that have come to have a role, each with its path, in the order
in which they came to it. -/
def Relay.titles (relay : Relay) : StreamRole → List (Nat × StreamPath)
  | .publisher =>
      relay.publications.map fun publication => (publication.session, publication.path)
  | .viewer =>
      relay.subscriptions.map fun subscription => (subscription.session, subscription.path)

namespace Ledger

def titles (ledger : Ledger) : StreamRole → List (Nat × StreamPath)
  | .publisher => ledger.register.publications.map fun record => (record.session, record.path)
  | .viewer => ledger.plays.map fun play => (play.session, play.path)

theorem titles_ledger (relay : Relay) (role : StreamRole) :
    relay.ledger.titles role = relay.titles role := by
  cases role with
  | publisher =>
      simp only [titles, Relay.titles, Relay.ledger, Relay.register, List.map_map]
      rfl
  | viewer =>
      simp only [titles, Relay.titles, Relay.ledger, Relay.plays, List.map_map]
      rfl

theorem titles_modifySubscribers (register : Register) (place : Nat)
    (change : List Nat → List Nat) :
    (register.modifySubscribers place change).publications.map
        (fun record => (record.session, record.path)) =
      register.publications.map fun record => (record.session, record.path) := by
  unfold Register.modifySubscribers
  apply map_modify_of_unseen
  exact fun _ => rfl

/-- Who gives something up has had it all the same. -/
theorem titles_stop (ledger : Ledger) (session : Nat) (mode : StreamMode) (role : StreamRole) :
    (ledger.stop session mode).titles role = ledger.titles role := by
  cases role with
  | publisher =>
      simp only [titles, register_stop]
      cases mode with
      | idle => rfl
      | publishing place =>
          simp only [Register.stop, Register.unpublish]
          split
          · split
            · exact titles_modifySubscribers _ place _
            · rfl
          · rfl
      | playing place subscription => exact titles_modifySubscribers _ place _
  | viewer =>
      cases mode with
      | idle => rfl
      | publishing place =>
          simp only [stop]
          split
          · split
            · exact map_closePlays (fun _ => rfl) _ _
            · rfl
          · rfl
      | playing place subscription =>
          simp only [stop]
          split
          · split <;> rfl
          · rfl

end Ledger

namespace Standing

variable {decide : SessionContext → Request → Decision} {command? : Option Command}
  {first second last : Standing} {lost : List StreamMode}

/-- What is asked of a connected session entitles it to a path in a role. -/
def Entitles (decide : SessionContext → Request → Decision) (command? : Option Command)
    (standing : Standing) (role : StreamRole) (title : Nat × StreamPath) : Prop :=
  title.1 = standing.context.sessionId ∧ standing.isConnected = true ∧
    ∃ command requested request, command? = some command ∧
      command.Asks standing.context.app requested request ∧ role.isWanted request = true ∧
      (decide standing.context request).Allows requested title.2

/-- Either nothing changes, or a connect has been accepted. -/
def Introduces (decide : SessionContext → Request → Decision) (command? : Option Command)
    (before after : Standing) : Prop :=
  after.context = before.context ∧ after.isConnected = before.isConnected ∨
    ∃ parameters, command? = some (.connect parameters) ∧ before.isConnected = false ∧
      (decide before.context (.connect parameters)).isAccept = true ∧
      after.context = before.context.withConnect parameters ∧ after.isConnected = true

theorem Step.introduces (hstep : Step decide command? first lost last) :
    Introduces decide command? first last := by
  cases hstep with
  | connected parameters hcommand hfresh haccepted =>
      exact .inr ⟨parameters, hcommand, hfresh, haccepted, rfl, rfl⟩
  | _ => exact .inl ⟨rfl, rfl⟩

theorem Steps.introduces (hsteps : Steps decide command? first lost last) :
    Introduces decide command? first last := by
  induction hsteps with
  | refl => exact .inl ⟨rfl, rfl⟩
  | head hstep _ ih =>
      rcases hstep.introduces with ⟨hcontext, hconnected⟩ | hintroduced
      · unfold Introduces at ih ⊢
        rwa [hcontext, hconnected] at ih
      · obtain ⟨parameters, hcommand, hfresh, haccepted, hcontext, hconnected⟩ := hintroduced
        rcases ih with ⟨hlater, hstill⟩ | ⟨_, _, hagain, _⟩
        · exact .inr ⟨parameters, hcommand, hfresh, haccepted, hlater.trans hcontext,
            hstill.trans hconnected⟩
        · rw [hconnected] at hagain
          cases hagain

/-- A session that is not connected, and stays so, stays as it is. -/
theorem Steps.eq_of_unconnected (hsteps : Steps decide command? first lost last)
    (hfresh : last.isConnected = false) :
    first.isConnected = false → last = first := by
  intro hbefore
  cases hsteps with
  | refl => rfl
  | head hstep hsteps =>
      have hconnected := hsteps.introduces
      cases hstep with
      | connected parameters =>
          rcases hconnected with ⟨-, hsame⟩ | ⟨_, _, hagain, _⟩
          · rw [hfresh] at hsame
            cases hsame
          · cases hagain
      | _ => simp_all

theorem titles_stop (standing : Standing) (mode : StreamMode) (role : StreamRole) :
    (standing.stop mode).ledger.titles role = standing.ledger.titles role :=
  Ledger.titles_stop _ _ mode role

theorem Step.titles (hstep : Step decide command? first lost last) (role : StreamRole) :
    ∃ news, last.ledger.titles role = first.ledger.titles role ++ news ∧
      ∀ title ∈ news, first.Entitles decide command? role title := by
  have hnone (hsame : last.ledger.titles role = first.ledger.titles role) :
      ∃ news, last.ledger.titles role = first.ledger.titles role ++ news ∧
        ∀ title ∈ news, first.Entitles decide command? role title :=
    ⟨[], by rw [hsame, List.append_nil], fun _ hmem => by cases hmem⟩
  cases hstep with
  | connected => exact hnone rfl
  | allocated => exact hnone rfl
  | closed streamId => exact hnone (titles_stop _ _ role)
  | deleted streamId => exact hnone (titles_stop _ _ role)
  | published streamId parameters requested path arguments hconnected hcommand hrequested
      hallowed =>
      cases role with
      | publisher =>
          refine ⟨[(first.context.sessionId, path)], List.map_append, fun title hmem => ?_⟩
          rw [List.mem_singleton.mp hmem]
          exact ⟨rfl, hconnected, _, requested, _, hcommand, .publish hrequested, rfl, hallowed⟩
      | viewer => exact hnone rfl
  | played streamId parameters requested path arguments place hconnected hcommand hrequested
      hallowed =>
      cases role with
      | publisher => exact hnone (Ledger.titles_modifySubscribers _ place _)
      | viewer =>
          refine ⟨[(first.context.sessionId, path)], List.map_append, fun title hmem => ?_⟩
          rw [List.mem_singleton.mp hmem]
          exact ⟨rfl, hconnected, _, requested, _, hcommand, .play hrequested, rfl, hallowed⟩

theorem Entitles.of_introduces {role : StreamRole} {title : Nat × StreamPath}
    (hintroduces : Introduces decide command? first second)
    (hentitles : second.Entitles decide command? role title) :
    first.Entitles decide command? role title := by
  obtain ⟨hsession, hconnected, command, requested, request, hcommand, hasks, hwanted, hallowed⟩ :=
    hentitles
  rcases hintroduces with ⟨hcontext, hsame⟩ | ⟨parameters, hconnect, -⟩
  · rw [hcontext] at hsession hasks hallowed
    exact ⟨hsession, hsame ▸ hconnected, command, requested, request, hcommand, hasks, hwanted,
      hallowed⟩
  · rw [hconnect] at hcommand
    rw [← Option.some.inj hcommand] at hasks
    cases hasks

/-- Whatever a message adds, it is entitled to from the start. -/
theorem Steps.titles (hsteps : Steps decide command? first lost last) (role : StreamRole) :
    ∃ news, last.ledger.titles role = first.ledger.titles role ++ news ∧
      ∀ title ∈ news, first.Entitles decide command? role title := by
  induction hsteps with
  | refl standing =>
      exact ⟨[], (List.append_nil _).symm, fun _ hmem => by cases hmem⟩
  | head hstep _ ih =>
      obtain ⟨news, hnews, hentitled⟩ := hstep.titles role
      obtain ⟨later, hlater, hentitledLater⟩ := ih
      refine ⟨news ++ later, by rw [hlater, hnews, List.append_assoc], fun title hmem => ?_⟩
      rcases List.mem_append.mp hmem with hnew | hnewer
      · exact hentitled title hnew
      · exact (hentitledLater title hnewer).of_introduces hstep.introduces

end Standing

/-! ## Messages of a server -/

namespace Server

variable {server : Server} {lost : List (Nat × StreamMode)} {number : Nat} {session : Session}

/-- A message of a session is read as a command. -/
def Commands (server : Server) (number : Nat) (command : Command) (event : ServerEvent)
    (connection : Connection) : Prop :=
  ∃ inbound arrival order called, event = .received number inbound arrival order ∧
    server.reading? number inbound = some connection ∧ arrival.call? = some called ∧
    called.command = command

/-- A session that is not connected asks to connect, and is accepted. -/
def AcceptsConnect (server : Server) (number : Nat) (parameters : ConnectParameters)
    (event : ServerEvent) : Prop :=
  ∃ connection, server.Commands number (.connect parameters) event connection ∧
    connection.session.state.isConnected = false ∧
    (server.policy.decision connection.session.context (.connect parameters)).isAccept = true

/-- A session asks for a path, and what it asks for is allowed under this path. -/
def Grants (server : Server) (app : String) (role : StreamRole) (title : Nat × StreamPath)
    (event : ServerEvent) : Prop :=
  ∃ connection command requested request,
    server.Commands title.1 command event connection ∧
    command.Asks app requested request ∧ role.isWanted request = true ∧
    (server.policy.decision connection.session.context request).Allows requested title.2

/-- A connect of the session has been accepted. -/
def HasAccepted (start : Server) (events : List ServerEvent) (number : Nat)
    (parameters : ConnectParameters) : Prop :=
  ∃ before event after, events = before ++ event :: after ∧
    (start.run before).AcceptsConnect number parameters event

/-- The title at a place goes back to the message with which it came up: its
session was connected, and asked for just this. -/
def IsGranted (start : Server) (events : List ServerEvent) (role : StreamRole) (place : Nat)
    (title : Nat × StreamPath) : Prop :=
  ∃ before event after parameters, events = before ++ event :: after ∧
    start.HasAccepted before title.1 parameters ∧
    (start.run before).Grants parameters.app role title event ∧
    ((start.run before).relay.titles role).length ≤ place ∧
    place < ((start.run (before ++ [event])).relay.titles role).length

theorem HasAccepted.append {start : Server} {events : List ServerEvent}
    {parameters : ConnectParameters} (haccepted : start.HasAccepted events number parameters)
    (others : List ServerEvent) : start.HasAccepted (events ++ others) number parameters := by
  obtain ⟨before, event, after, rfl, haccepts⟩ := haccepted
  exact ⟨before, event, after ++ others, by simp, haccepts⟩

theorem IsGranted.append {start : Server} {events : List ServerEvent} {role : StreamRole}
    {place : Nat} {title : Nat × StreamPath} (hgranted : start.IsGranted events role place title)
    (others : List ServerEvent) : start.IsGranted (events ++ others) role place title := by
  obtain ⟨before, event, after, parameters, rfl, hgrants⟩ := hgranted
  exact ⟨before, event, after ++ others, parameters, by simp, hgrants⟩

/-! ### What one event does -/

theorem session_of_endSessionIn {order : TeardownOrder} {ended : Nat}
    (hfound : (server.endSessionIn order ended).2.sessions.get? number = some session) :
    server.sessions.get? number = some session := by
  unfold endSessionIn at hfound
  split at hfound
  · simp only [Table.get?_erase] at hfound
    split at hfound
    · cases hfound
    · exact hfound
  · exact hfound

theorem titles_endSessionIn (server : Server) (order : TeardownOrder) (ended : Nat)
    (role : StreamRole) :
    (server.endSessionIn order ended).2.relay.titles role = server.relay.titles role := by
  unfold endSessionIn
  cases hconnection : server.connection? ended with
  | none => rfl
  | some connection =>
      obtain ⟨found, -, rfl⟩ := Option.map_eq_some_iff.mp hconnection
      simp only [← Ledger.titles_ledger, Connection.ledger_finish]
      generalize order.arrange _ = streams
      generalize server.relay.ledger = ledger
      induction streams generalizing ledger with
      | nil => rfl
      | cons stream streams ih => exact (ih _).trans (Ledger.titles_stop _ _ _ role)

theorem id_receiveArrival (connection : Connection) (configuration : ServerConfiguration)
    (policy : PolicyChain) (arrival : Arrival) :
    (connection.receiveArrival configuration policy arrival).2.session.id =
      connection.session.id := by
  have hsteps := connection.standing_receiveArrival configuration policy arrival
  rcases hsteps.introduces with ⟨hcontext, -⟩ | ⟨parameters, -, -, -, hcontext, -⟩
  · exact congrArg SessionContext.sessionId hcontext
  · exact (congrArg SessionContext.sessionId hcontext).trans rfl

/-- A session goes on as it was, or begins, or gets a message. -/
inductive Descends (server : Server) (event : ServerEvent) (number : Nat)
    (session : Session) : Prop
  | kept (old : Session) (hfound : server.sessions.get? number = some old)
      (hcontext : session.context = old.context) (hstate : session.state = old.state)
  | fresh (hconnected : session.state.isConnected = false)
      (hstreams : session.state.streams = [])
  | served (inbound : Inbound) (arrival : Arrival) (order : TeardownOrder)
      (connection : Connection) (hevent : event = .received number inbound arrival order)
      (hreading : server.reading? number inbound = some connection)
      (hsession : session =
        (connection.receiveArrival server.configuration server.policy arrival).2.session)

theorem descends_accept {canSendWithoutDelay : Bool}
    (hfound : (server.accept canSendWithoutDelay).2.sessions.get? number = some session)
    (event : ServerEvent) : server.Descends event number session := by
  unfold accept at hfound
  simp only at hfound
  split at hfound
  · exact .kept session hfound rfl rfl
  · split at hfound
    · exact .kept session hfound rfl rfl
    · simp only [letIn] at hfound
      split at hfound
      · simp only [keep, Table.get?_put] at hfound
        split at hfound
        · obtain rfl := Option.some.inj hfound
          exact .fresh rfl rfl
        · exact .kept session hfound rfl rfl
      · exact .kept session hfound rfl rfl

theorem Settled.descends_received (hsettled : server.Settled lost) {target : Nat}
    {inbound : Inbound} {arrival : Arrival} {order : TeardownOrder}
    (hfound : (server.step (.received target inbound arrival order)).sessions.get? number =
      some session) :
    server.Descends (.received target inbound arrival order) number session := by
  cases hreading : server.reading? target inbound with
  | none =>
      simp only [step, receiveArrival, hreading] at hfound
      exact .kept session hfound rfl rfl
  | some connection =>
      have htarget : connection.session.id = target := by
        obtain ⟨old, hold, hcontext, -⟩ := session_of_reading hreading
        exact (congrArg SessionContext.sessionId hcontext).trans (hsettled.number target old hold)
      rw [step_received hreading] at hfound
      have hkept : (server.keep (connection.receiveArrival server.configuration server.policy
          arrival).2).sessions.get? number = some session := by
        split at hfound
        · exact session_of_endSessionIn hfound
        · exact hfound
      simp only [keep, Table.get?_put, id_receiveArrival, htarget] at hkept
      split at hkept
      · rename_i hnumber
        subst hnumber
        exact .served inbound arrival order connection rfl hreading (Option.some.inj hkept).symm
      · exact .kept session hkept rfl rfl

theorem Settled.descends_flush (hsettled : server.Settled lost) {target : Nat}
    (hfound : (server.flush target).2.sessions.get? number = some session)
    (event : ServerEvent) : server.Descends event number session := by
  unfold flush at hfound
  cases hconnection : server.connection? target with
  | none =>
      rw [hconnection] at hfound
      exact .kept session hfound rfl rfl
  | some connection =>
      obtain ⟨old, hold, rfl⟩ := Option.map_eq_some_iff.mp hconnection
      have hid : old.id = target := hsettled.number target old hold
      rw [hconnection] at hfound
      simp only [keep, Table.get?_put] at hfound
      split at hfound
      · rename_i hnumber
        obtain rfl : target = number := hid.symm.trans hnumber
        obtain rfl := Option.some.inj hfound
        exact .kept old hold rfl rfl
      · exact .kept session hfound rfl rfl

theorem Settled.descends_step (hsettled : server.Settled lost) {event : ServerEvent}
    (hfound : (server.step event).sessions.get? number = some session) :
    server.Descends event number session := by
  cases event with
  | policyChanged policy => exact .kept session hfound rfl rfl
  | accepted canSendWithoutDelay => exact descends_accept hfound _
  | received target inbound arrival order => exact hsettled.descends_received hfound
  | flushed target => exact hsettled.descends_flush hfound _
  | ended target order => exact .kept session (session_of_endSessionIn hfound) rfl rfl

/-- Titles come up with messages only. -/
theorem titles_step (server : Server) (event : ServerEvent) (role : StreamRole) :
    (server.step event).relay.titles role = server.relay.titles role ∨
      ∃ number inbound arrival order connection,
        event = .received number inbound arrival order ∧
        server.reading? number inbound = some connection ∧
        (server.step event).relay.titles role =
          (connection.receiveArrival server.configuration server.policy
            arrival).2.relay.titles role := by
  cases event with
  | policyChanged policy => exact .inl rfl
  | accepted canSendWithoutDelay =>
      refine .inl ?_
      rw [← Ledger.titles_ledger, ← Ledger.titles_ledger]
      exact congrArg (Ledger.titles · role) (ledger_accept server canSendWithoutDelay)
  | received number inbound arrival order =>
      cases hreading : server.reading? number inbound with
      | none => simp [step, receiveArrival, hreading]
      | some connection =>
          refine .inr ⟨number, inbound, arrival, order, connection, rfl, hreading, ?_⟩
          rw [step_received hreading]
          split
          · exact titles_endSessionIn _ order number role
          · rfl
  | flushed number =>
      refine .inl ?_
      rw [← Ledger.titles_ledger, ← Ledger.titles_ledger]
      exact congrArg (Ledger.titles · role) (ledger_flush server number)
  | ended number order => exact .inl (titles_endSessionIn server order number role)

/-! ### Runs -/

/-- Sessions are connected, and have their titles, with permission only. -/
structure Permitted (start : Server) (events : List ServerEvent) : Prop where
  connected : ∀ number session, (start.run events).sessions.get? number = some session →
    session.state.isConnected = true →
      ∃ parameters, start.HasAccepted events number parameters ∧
        session.context.app = parameters.app
  fresh : ∀ number session, (start.run events).sessions.get? number = some session →
    session.state.isConnected = false → session.state.streams = []
  granted : ∀ role place title, ((start.run events).relay.titles role)[place]? = some title →
    start.IsGranted events role place title

theorem permitted_ofConfiguration (configuration : ServerConfiguration) (policy : PolicyChain)
    (observers : List Observer) (spread : StreamPath → Nat) :
    (ofConfiguration configuration policy observers spread).Permitted [] where
  connected number session hsession := by cases hsession
  fresh number session hsession := by cases hsession
  granted role place title htitle := by cases role <;> cases htitle

variable {start : Server} {events : List ServerEvent}

theorem command_of_call {arrival : Arrival} {command : Command}
    (hcommand : arrival.call?.map CommandCall.command = some command) {inbound : Inbound}
    {order : TeardownOrder} {connection : Connection}
    (hreading : server.reading? number inbound = some connection) :
    server.Commands number command (.received number inbound arrival order) connection := by
  obtain ⟨called, hcalled, hsame⟩ := Option.map_eq_some_iff.mp hcommand
  exact ⟨inbound, arrival, order, called, rfl, hreading, hcalled, hsame⟩

/-- The session behind a message that was connected or is so now. -/
theorem Permitted.connectedAfter (hpermitted : start.Permitted events) {inbound : Inbound}
    {arrival : Arrival} {order : TeardownOrder} {connection : Connection}
    (hreading : (start.run events).reading? number inbound = some connection)
    (hafter : (connection.receiveArrival (start.run events).configuration
      (start.run events).policy arrival).2.session.state.isConnected = true) :
    ∃ parameters,
      start.HasAccepted (events ++ [.received number inbound arrival order]) number parameters ∧
      (connection.receiveArrival (start.run events).configuration
        (start.run events).policy arrival).2.session.context.app = parameters.app := by
  obtain ⟨session, hsession, hcontext, hconnected, -⟩ := session_of_reading hreading
  have hsteps := connection.standing_receiveArrival (start.run events).configuration
    (start.run events).policy arrival
  rcases hsteps.introduces with ⟨hsame, hstill⟩ | hintroduced
  · have hbefore : session.state.isConnected = true :=
      hconnected.symm.trans (hstill.symm.trans hafter)
    obtain ⟨parameters, haccepted, happ⟩ := hpermitted.connected number session hsession hbefore
    refine ⟨parameters, haccepted.append _, ?_⟩
    exact (congrArg SessionContext.app (hsame.trans hcontext)).trans happ
  · obtain ⟨parameters, hcommand, hfresh, haccepted, hintroduced, -⟩ := hintroduced
    refine ⟨parameters, ⟨events, _, [], rfl, connection, ?_, hfresh, haccepted⟩, ?_⟩
    · exact command_of_call hcommand hreading
    · exact (congrArg SessionContext.app hintroduced).trans rfl

theorem Permitted.freshAfter (hpermitted : start.Permitted events) {inbound : Inbound}
    {arrival : Arrival} {connection : Connection}
    (hreading : (start.run events).reading? number inbound = some connection)
    (hafter : (connection.receiveArrival (start.run events).configuration
      (start.run events).policy arrival).2.session.state.isConnected = false) :
    (connection.receiveArrival (start.run events).configuration
      (start.run events).policy arrival).2.session.state.streams = [] := by
  obtain ⟨session, hsession, -, hconnected, hstreams, -⟩ := session_of_reading hreading
  have hsteps := connection.standing_receiveArrival (start.run events).configuration
    (start.run events).policy arrival
  have hbefore : connection.session.state.isConnected = false := by
    rcases hsteps.introduces with ⟨-, hstill⟩ | ⟨_, _, hfresh, -⟩
    · exact hstill.symm.trans hafter
    · exact hfresh
  have hsame := hsteps.eq_of_unconnected hafter hbefore
  refine (congrArg Standing.streams hsame).trans (hstreams.trans ?_)
  exact hpermitted.fresh number session hsession (hconnected.symm.trans hbefore)

/-- What a message entitles a session to is granted with it. -/
theorem Permitted.isGranted_of_entitles (hpermitted : start.Permitted events)
    (hsettled : (start.run events).Settled lost) {inbound : Inbound} {arrival : Arrival}
    {order : TeardownOrder} {connection : Connection}
    (hreading : (start.run events).reading? number inbound = some connection)
    {role : StreamRole} {place : Nat} {title : Nat × StreamPath}
    (hentitles : connection.standing.Entitles (start.run events).policy.decision
      (arrival.call?.map CommandCall.command) role title)
    (hlow : ((start.run events).relay.titles role).length ≤ place)
    (hhigh : place < ((start.run
      (events ++ [.received number inbound arrival order])).relay.titles role).length) :
    start.IsGranted (events ++ [.received number inbound arrival order]) role place title := by
  obtain ⟨session, hsession, hcontext, hconnected, -⟩ := session_of_reading hreading
  obtain ⟨hnumber, hwas, command, requested, request, hcommand, hasks, hwanted, hallowed⟩ :=
    hentitles
  have hid : title.1 = number :=
    (hnumber.trans (congrArg SessionContext.sessionId hcontext)).trans
      (hsettled.number number session hsession)
  obtain ⟨parameters, haccepted, happ⟩ :=
    hpermitted.connected number session hsession (hconnected.symm.trans hwas)
  have happ' : connection.standing.context.app = parameters.app :=
    (congrArg SessionContext.app hcontext).trans happ
  rw [happ'] at hasks
  subst hid
  exact ⟨events, _, [], parameters, rfl, haccepted,
    ⟨connection, command, requested, request, command_of_call hcommand hreading, hasks, hwanted,
      hallowed⟩, hlow, hhigh⟩

theorem Permitted.grantedAfter (hpermitted : start.Permitted events)
    (hsettled : (start.run events).Settled lost) {event : ServerEvent} {role : StreamRole}
    {place : Nat} {title : Nat × StreamPath}
    (htitle : ((start.run (events ++ [event])).relay.titles role)[place]? = some title) :
    start.IsGranted (events ++ [event]) role place title := by
  have hbound := (List.getElem?_eq_some_iff.mp htitle).1
  have hold (hfound : ((start.run events).relay.titles role)[place]? = some title) :
      start.IsGranted (events ++ [event]) role place title :=
    (hpermitted.granted role place title hfound).append [event]
  have hnext : start.run (events ++ [event]) = (start.run events).step event :=
    run_append start events [event]
  rcases (start.run events).titles_step event role with hsame | hmessage
  · rw [hnext, hsame] at htitle
    exact hold htitle
  · obtain ⟨number, inbound, arrival, order, connection, rfl, hreading, hafter⟩ := hmessage
    obtain ⟨news, hnews, hentitled⟩ := (connection.standing_receiveArrival
      (start.run events).configuration (start.run events).policy arrival).titles role
    have hbefore : connection.standing.ledger.titles role =
        (start.run events).relay.titles role := by
      obtain ⟨session, -, -, -, -, hrelay⟩ := session_of_reading hreading
      rw [← Ledger.titles_ledger, ← hrelay]
      rfl
    have htitles : (start.run (events ++ [.received number inbound arrival order])).relay.titles
        role = (start.run events).relay.titles role ++ news := by
      rw [hnext, hafter, ← Ledger.titles_ledger, ← hbefore]
      exact hnews
    rw [htitles] at htitle
    by_cases hplace : place < ((start.run events).relay.titles role).length
    · rw [List.getElem?_append_left hplace] at htitle
      exact hold htitle
    · -- The title is one of those that this message has brought.
      have hlow := Nat.le_of_not_lt hplace
      rw [List.getElem?_append_right hlow] at htitle
      have hentitles := hentitled title (List.mem_of_getElem? htitle)
      exact hpermitted.isGranted_of_entitles hsettled hreading hentitles hlow hbound

theorem Permitted.afterEvent (hpermitted : start.Permitted events)
    (hsettled : (start.run events).Settled lost) (event : ServerEvent) :
    start.Permitted (events ++ [event]) where
  connected number session hsession hconnected := by
    rw [run_append] at hsession
    cases hsettled.descends_step hsession with
    | kept old hfound hcontext hstate =>
        obtain ⟨parameters, haccepted, happ⟩ :=
          hpermitted.connected number old hfound (hstate ▸ hconnected)
        exact ⟨parameters, haccepted.append _, (congrArg SessionContext.app hcontext).trans happ⟩
    | fresh hfresh =>
        rw [hfresh] at hconnected
        cases hconnected
    | served inbound arrival order connection hevent hreading hserved =>
        subst hevent hserved
        exact hpermitted.connectedAfter hreading hconnected
  fresh number session hsession hconnected := by
    rw [run_append] at hsession
    cases hsettled.descends_step hsession with
    | kept old hfound hcontext hstate =>
        rw [hstate]
        exact hpermitted.fresh number old hfound (hstate ▸ hconnected)
    | fresh hfresh hstreams => exact hstreams
    | served inbound arrival order connection hevent hreading hserved =>
        subst hserved
        exact hpermitted.freshAfter hreading hconnected
  granted role place title htitle := hpermitted.grantedAfter hsettled htitle

theorem permitted_run (configuration : ServerConfiguration) (policy : PolicyChain)
    (observers : List Observer) (spread : StreamPath → Nat) (events : List ServerEvent) :
    (ofConfiguration configuration policy observers spread).Permitted events := by
  have hstart := settled_ofConfiguration configuration policy observers spread
  induction events using List.reverseRecOn with
  | nil => exact permitted_ofConfiguration configuration policy observers spread
  | append_singleton events event ih => exact ih.afterEvent (hstart.afterRun events) event

/-- What happens to a message of a session that is not connected, where the
message does not change that: its streams and those of others stay as they are,
and a command ends it. -/
structure Turned (server : Server) (number : Nat) (inbound : Inbound) (arrival : Arrival)
    (order : TeardownOrder) (connection : Connection) : Prop where
  streams : connection.session.state.streams = []
  unserved : connection.Unserved
    (connection.receiveArrival server.configuration server.policy arrival).2
  alone : server.relay.LeavesAlone
    (server.step (.received number inbound arrival order)).relay
  ends : ∀ called, arrival.call? = some called →
    Connection.isConnect called.command = false →
      (connection.receiveArrival server.configuration server.policy arrival).1 =
          some (.protocol (.unexpectedMessage s!"{called.name} before connect")) ∧
        number ∉ (server.step (.received number inbound arrival order)).sessions.keys

theorem leavesAlone_endSessionIn (server : Server) (order : TeardownOrder) (number : Nat)
    (hstreams : ∀ session, server.sessions.get? number = some session →
      session.state.streams = []) :
    server.relay.LeavesAlone (server.endSessionIn order number).2.relay := by
  unfold endSessionIn
  cases hconnection : server.connection? number with
  | none => exact .refl server.relay
  | some connection =>
      obtain ⟨found, hfound, rfl⟩ := Option.map_eq_some_iff.mp hconnection
      exact Connection.leavesAlone_finish ⟨found, server.relay⟩ server.policy order
        (hstreams found hfound)

theorem Permitted.turned (hpermitted : start.Permitted events)
    (hsettled : (start.run events).Settled lost) {inbound : Inbound} {arrival : Arrival}
    {order : TeardownOrder} {connection : Connection}
    (hreading : (start.run events).reading? number inbound = some connection)
    (hread : ∃ reader left, Inbound.accept reader arrival.wire = (.ok arrival, left))
    (hnone : ∀ parameters,
      ¬ start.HasAccepted (events ++ [.received number inbound arrival order]) number
        parameters) :
    (start.run events).Turned number inbound arrival order connection := by
  obtain ⟨session, hsession, hcontext, hconnected, hstreams, hrelay⟩ := session_of_reading hreading
  have hfresh : session.state.isConnected = false := by
    refine eq_false_of_ne_true fun hconnected => ?_
    obtain ⟨parameters, haccepted, -⟩ := hpermitted.connected number session hsession hconnected
    exact hnone parameters (haccepted.append _)
  have hidle : connection.session.state.streams = [] :=
    hstreams.trans (hpermitted.fresh number session hsession hfresh)
  have hid : connection.session.id = number :=
    (congrArg SessionContext.sessionId hcontext).trans (hsettled.number number session hsession)
  obtain ⟨reader, left, haccept⟩ := hread
  have hunserved := connection.unserved_receiveArrival (start.run events).configuration
    (start.run events).policy (hconnected.trans hfresh) hidle
    (fun called parameters hcalled hcommand => by
      refine eq_false_of_ne_true fun haccepted => hnone parameters ?_
      refine ⟨events, _, [], rfl, connection, ?_, hconnected.trans hfresh, haccepted⟩
      exact ⟨inbound, arrival, order, called, rfl, hreading, hcalled, hcommand⟩)
    (fun message hreply => Connection.reply_of_accept haccept hreply)
  have hstep := step_received hreading arrival order
  refine ⟨hidle, hunserved, ?_, ?_⟩
  · rw [hstep, ← hrelay]
    split
    · let kept := (start.run events).keep (connection.receiveArrival
        (start.run events).configuration (start.run events).policy arrival).2
      have hended : kept.relay.LeavesAlone (kept.endSessionIn order number).2.relay := by
        refine leavesAlone_endSessionIn kept order number fun last hlast => ?_
        simp only [kept, keep, Table.get?_put, id_receiveArrival, hid, if_pos] at hlast
        rw [← Option.some.inj hlast]
        exact hunserved.streams.trans hidle
      exact hunserved.alone.trans hended
    · exact hunserved.alone
  · intro called hcalled hcommand
    have herror := connection.error_receiveArrival (start.run events).configuration
      (start.run events).policy (hconnected.trans hfresh) hcalled hcommand
    refine ⟨herror, ?_⟩
    rw [hstep, if_pos (by rw [herror]; rfl)]
    exact notMem_keys_endSessionIn order number

/-- Until a connect has been accepted nothing comes of what a session sends, and
later nothing is published or played but what has been allowed. -/
theorem nothing_without_permission (configuration : ServerConfiguration) (policy : PolicyChain)
    (observers : List Observer) (spread : StreamPath → Nat) (events : List ServerEvent) :
    let start := ofConfiguration configuration policy observers spread
    let server := start.run events
    (∀ number inbound arrival order connection,
        server.reading? number inbound = some connection →
        (∃ reader left, Inbound.accept reader arrival.wire = (.ok arrival, left)) →
        (∀ parameters,
          ¬ start.HasAccepted (events ++ [.received number inbound arrival order]) number
            parameters) →
        server.Turned number inbound arrival order connection) ∧
      ∀ role place title, (server.relay.titles role)[place]? = some title →
        start.IsGranted events role place title := by
  intro start server
  have hsettled := (settled_ofConfiguration configuration policy observers spread).afterRun events
  have hpermitted := permitted_run configuration policy observers spread events
  refine ⟨fun number inbound arrival order connection hreading hread hnone => ?_,
    hpermitted.granted⟩
  exact hpermitted.turned hsettled hreading hread hnone

/-- A client asks for a stream before it has connected, and another one publishes
after it has. -/
theorem nothing_without_permission_of_twoClients :
    let start := ofConfiguration {} (.single "policy" {}) [] fun _ => 0
    let hasty := commandOf 0 [.text "createStream", .number .zero]
    (∃ connection,
        (start.run [.accepted true]).Turned 1 {} hasty .asListed connection) ∧
      start.IsGranted publishingUnasked .publisher 0 (1, ⟨"//demo"⟩) := by
  intro start hasty
  have hall := nothing_without_permission {} (.single "policy" {}) [] fun _ => 0
  refine ⟨⟨_, (hall [.accepted true]).1 1 {} hasty .asListed _ rfl ⟨{}, {}, rfl⟩ ?_⟩,
    (hall publishingUnasked).2 .publisher 0 _ rfl⟩
  rintro parameters ⟨before, event, after, hevents, connection, hasked, -⟩
  obtain ⟨inbound, arrival, order, called, rfl, -, hcalled, hcommand⟩ := hasked
  have hmem : ServerEvent.received 1 inbound arrival order ∈
      [.accepted true] ++ [.received 1 {} hasty .asListed] := by
    rw [hevents]
    exact List.mem_append_right before List.mem_cons_self
  rcases List.mem_append.mp hmem with hfirst | hsecond
  · cases List.mem_singleton.mp hfirst
  · obtain ⟨-, -, rfl, -⟩ := ServerEvent.received.inj (List.mem_singleton.mp hsecond)
    cases hcalled
    cases hcommand

end Server

end LiveRelay
