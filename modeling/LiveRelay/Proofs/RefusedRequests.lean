import LiveRelay.Proofs.Permission
import LiveRelay.Proofs.SessionTraffic

/-!
# Refused requests

A session bids for a role on one of its streams: to publish under a path, or to
view what is published there.  A bid is refused when the stream is busy, when it
names no path, when a policy is against it, when the path is published already,
when nothing is published there, or when the session views it already.

A bid that is refused changes nothing.  The session is told why, on the stream it
bid for, and goes on.  A play of that stream that has ended is given up on the way,
and that changes nothing for anybody else, because a play that has ended is on no
list.
-/

namespace LiveRelay

/-! ## Why a bid is refused -/

/-- What a command to publish or to play asks for. -/
structure Bid where
  role : StreamRole
  streamName : String
  /-- What policies are asked once the name has been read. -/
  request : StreamPath → StreamArguments → Request

def Command.bid? : Command → Option Bid
  | .publish parameters =>
      some ⟨.publisher, parameters.streamName,
        fun path arguments => .publish path arguments parameters.publishType⟩
  | .play parameters => some ⟨.viewer, parameters.streamName, .play⟩
  | _ => none

namespace StreamRole

def busyCode : StreamRole → String
  | .publisher => StatusCode.publishBadName
  | .viewer => StatusCode.failed

def unnamedCode : StreamRole → String
  | .publisher => StatusCode.publishBadName
  | .viewer => StatusCode.playStreamNotFound

def rejectedCode : StreamRole → String
  | .publisher => StatusCode.publishUnauthorized
  | .viewer => StatusCode.playUnauthorized

/-- What a stream does once a bid for the role was granted. -/
def IsTakenUp (relay : Relay) : StreamRole → StreamMode → Prop
  | .publisher, .publishing place => place = relay.publications.length
  | .viewer, .playing _ place => place = relay.subscriptions.length
  | _, _ => False

end StreamRole

/-- The registry is against a role under a path, for the session that wants it. -/
inductive Relay.Bars (relay : Relay) (session : Nat) (path : StreamPath) :
    StreamRole → (code description : String) → Prop
  | taken (place : Nat) (htaken : relay.directory.get? path = some place) :
      Bars relay session path .publisher StatusCode.publishBadName
        s!"Stream already exists: {path.text}"
  | missing (hmissing : relay.directory.get? path = none) :
      Bars relay session path .viewer StatusCode.playStreamNotFound
        s!"Stream doesn't exist: {path.text}"
  | twice (place : Nat) (publication : Publication)
      (hplace : relay.directory.get? path = some place)
      (hfound : relay.publications[place]? = some publication)
      (hseated : relay.hasSubscriber publication session = true) :
      Bars relay session path .viewer StatusCode.failed s!"Already subscribing to {path.text}"

/-- What has been taken down does not count for the registry. -/
theorem Relay.Bars.noted {relay : Relay} {session : Nat} {path : StreamPath} {role : StreamRole}
    {code description : String} (hbars : relay.Bars session path role code description)
    (log : List Notice) :
    { relay with log := log }.Bars session path role code description := by
  cases hbars with
  | taken place htaken => exact .taken place htaken
  | missing hmissing => exact .missing hmissing
  | twice place publication hplace hfound hseated =>
      exact .twice place publication hplace hfound hseated

theorem Decision.Allows.path_eq {decision : Decision} {requested path : StreamPath}
    (hallowed : decision.Allows requested path) : decision.path requested = .ok path := by
  rcases hallowed with ⟨rfl, rfl⟩ | rfl <;> rfl

namespace Connection

/-- The stream does something, other than a play that has ended. -/
def isBusy (connection : Connection) (streamId : UInt32) : Bool :=
  !connection.hasEnded streamId &&
    !((connection.session.state.stream? streamId).map StreamMode.isIdle).getD true

/-- The stream is free, the bid names a path, and policies allow it under this one. -/
def Clears (policy : PolicyChain) (connection : Connection) (streamId : UInt32) (bid : Bid)
    (path : StreamPath) : Prop :=
  connection.isBusy streamId = false ∧
    ∃ requested arguments,
      StreamPath.parse? connection.session.context.app bid.streamName =
          some (requested, arguments) ∧
        (policy.decision connection.session.context (bid.request requested arguments)).Allows
          requested path

/-- A bid is refused, with this code and description. -/
inductive Refuses (policy : PolicyChain) (connection : Connection) (streamId : UInt32)
    (bid : Bid) : (code description : String) → Prop
  | busy (hbusy : connection.isBusy streamId = true) :
      Refuses policy connection streamId bid bid.role.busyCode "Stream id already in use"
  | unnamed (hfree : connection.isBusy streamId = false)
      (hname : StreamPath.parse? connection.session.context.app bid.streamName = none) :
      Refuses policy connection streamId bid bid.role.unnamedCode "Missing stream name"
  | rejected (path : StreamPath) (arguments : StreamArguments) (reason : String)
      (hfree : connection.isBusy streamId = false)
      (hname : StreamPath.parse? connection.session.context.app bid.streamName =
        some (path, arguments))
      (hrejected : policy.decision connection.session.context (bid.request path arguments) =
        .reject reason) :
      Refuses policy connection streamId bid bid.role.rejectedCode reason
  | barred (path : StreamPath) (code description : String)
      (hclears : Clears policy connection streamId bid path)
      (hbars : connection.relay.Bars connection.session.id path bid.role code description) :
      Refuses policy connection streamId bid code description

variable {policy : PolicyChain} {connection : Connection} {streamId : UInt32}

/-! ## Giving up a play that has ended -/

/-- The stream is idle if it played something that has ended. -/
def released (connection : Connection) (streamId : UInt32) : Connection :=
  connection.updateState fun state =>
    if connection.hasEnded streamId then state.setMode streamId .idle else state

end Connection

theorem Relay.IsOrderly.exists_publication {relay : Relay} (horderly : relay.IsOrderly)
    {path : StreamPath} {place : Nat} (hplace : relay.directory.get? path = some place) :
    ∃ publication, relay.publications[place]? = some publication := by
  obtain ⟨record, hrecord, -⟩ := horderly.isSound.found path place hplace
  rw [getElem?_register] at hrecord
  obtain ⟨publication, hfound, -⟩ := Option.map_eq_some_iff.mp hrecord
  exact ⟨publication, hfound⟩

/-- A play that has ended is on no list. -/
theorem Relay.stopSubscribing_of_hasEnded {relay : Relay} (horderly : relay.IsOrderly)
    {subscription : Nat}
    (hended : relay.subscriptions[subscription]?.map Subscription.hasEnded = some true)
    (publication : Nat) :
    relay.stopSubscribing publication subscription = (false, relay) := by
  refine stopSubscribing_of_notMem fun record hrecord hmember => ?_
  obtain ⟨play, hplay, -, hrunning⟩ := horderly.seated.playing publication subscription record.path
    ⟨record, hrecord, hmember, rfl⟩
  obtain ⟨ended, hfound, hmark⟩ := Option.map_eq_some_iff.mp hended
  simp only [ledger, plays, List.getElem?_map, hfound, Option.map_some, Option.some.injEq] at hplay
  rw [← hplay] at hrunning
  exact absurd (hmark.symm.trans hrunning) (by decide)

namespace Connection

variable {policy : PolicyChain} {connection : Connection} {streamId : UInt32}

/-- What a stream did that has ended. -/
theorem exists_playing_of_hasEnded (hended : connection.hasEnded streamId = true) :
    ∃ publication subscription,
      connection.session.state.stream? streamId = some (.playing publication subscription) ∧
        connection.relay.subscriptions[subscription]?.map Subscription.hasEnded = some true := by
  unfold hasEnded SessionState.playing? at hended
  cases hmode : connection.session.state.stream? streamId with
  | none => simp [hmode] at hended
  | some mode =>
      cases mode with
      | idle => simp [hmode] at hended
      | publishing publication => simp [hmode] at hended
      | playing publication subscription =>
          refine ⟨publication, subscription, rfl, ?_⟩
          simp only [hmode] at hended
          cases hmark : connection.relay.subscriptions[subscription]?.map Subscription.hasEnded with
          | none => simp [hmark] at hended
          | some mark =>
              rw [hmark, Option.getD_some] at hended
              rw [hended]

theorem claimStream_eq (horderly : connection.relay.IsOrderly) (streamId : UInt32) :
    connection.claimStream streamId =
      (!connection.isBusy streamId, connection.released streamId) := by
  by_cases hended : connection.hasEnded streamId = true
  · obtain ⟨publication, subscription, hmode, hmark⟩ := exists_playing_of_hasEnded hended
    have hunlisted := Relay.stopSubscribing_of_hasEnded horderly hmark publication
    have hidle : (connection.session.state.setMode streamId .idle).stream? streamId =
        some .idle := by
      simp [SessionState.setMode, SessionState.stream?, Table.get?_put]
    simp [claimStream, isBusy, released, hended, SessionState.takeMode, hmode, stopStream,
      updateState, hunlisted, hidle, StreamMode.isIdle]
  · simp [claimStream, isBusy, released, hended, updateState]

/-! ## What comes of a bid -/

/-- Policies may have been asked, and a message was sent to the session. -/
def Tells (before : Connection) (message : OutboundMessage) (after : Connection) : Prop :=
  ∃ notices : List Notice,
    (∀ notice ∈ notices, ∃ name request,
      notice = .asked name before.session.context (.request request)) ∧
    after =
      { before with
        relay := { before.relay with log := before.relay.log ++ notices } }.send message

theorem noteAsked_eq (connection : Connection) (question : Question) (names : List String) :
    connection.noteAsked question names =
      { connection with
        relay :=
          { connection.relay with
            log := connection.relay.log ++
              names.map fun name => .asked name connection.session.context question } } := by
  obtain ⟨session, relay⟩ := connection
  simp only [noteAsked, Connection.mk.injEq, true_and]
  induction names generalizing relay with
  | nil => simp
  | cons name names ih =>
      rw [List.foldl_cons, ih]
      simp [Relay.note]

theorem tells_refuse (connection : Connection) (streamId : UInt32) (code description : String) :
    Tells connection (.status streamId "error" code description)
      (connection.refuse streamId code description) := by
  refine ⟨[], fun notice hmember => (by cases hmember), ?_⟩
  rw [List.append_nil]
  rfl

theorem tells_refuse_noteAsked (connection : Connection) (request : Request)
    (names : List String) (streamId : UInt32) (code description : String) :
    Tells connection (.status streamId "error" code description)
      ((connection.noteAsked (.request request) names).refuse streamId code description) := by
  refine ⟨names.map fun name => .asked name connection.session.context (.request request),
    fun notice hmember => ?_, ?_⟩
  · obtain ⟨name, -, rfl⟩ := List.mem_map.mp hmember
    exact ⟨name, request, rfl⟩
  · rw [noteAsked_eq]
    rfl

/-- A bid that no check holds up comes before the registry. -/
theorem exists_clears {bid : Bid}
    (hgranted : ∀ code description, ¬ Refuses policy connection streamId bid code description) :
    ∃ path, Clears policy connection streamId bid path := by
  cases hfree : connection.isBusy streamId with
  | true => exact absurd (.busy hfree) (hgranted _ _)
  | false =>
      cases hname : StreamPath.parse? connection.session.context.app bid.streamName with
      | none => exact absurd (.unnamed hfree hname) (hgranted _ _)
      | some named =>
          obtain ⟨requested, arguments⟩ := named
          cases hdecision : policy.decision connection.session.context
              (bid.request requested arguments) with
          | reject reason =>
              exact absurd (.rejected requested arguments reason hfree hname hdecision)
                (hgranted _ _)
          | accept =>
              exact ⟨requested, hfree, requested, arguments, hname, .inl ⟨hdecision, rfl⟩⟩
          | acceptAs path => exact ⟨path, hfree, requested, arguments, hname, .inr hdecision⟩

/-- How a bid is settled.  What the registry makes of it is left open here. -/
def settle (policy : PolicyChain) (streamId : UInt32) (bid : Bid)
    (enter : StreamPath → StreamArguments → Connection → Connection) (connection : Connection) :
    Connection :=
  let free := connection.released streamId
  let context := connection.session.context
  if connection.isBusy streamId then
    free.refuse streamId bid.role.busyCode "Stream id already in use"
  else
    match StreamPath.parse? context.app bid.streamName with
    | none => free.refuse streamId bid.role.unnamedCode "Missing stream name"
    | some (path, arguments) =>
        let request := bid.request path arguments
        let asked := free.noteAsked (.request request) (policy.decide context request).2
        match (policy.decision context request).path path with
        | .error reason => asked.refuse streamId bid.role.rejectedCode reason
        | .ok path => enter path arguments asked

/-- The registry refuses what it bars, and grants everything else. -/
structure Enters (role : StreamRole) (streamId : UInt32)
    (enter : StreamPath → StreamArguments → Connection → Connection) : Prop where
  barred : ∀ (connection : Connection) path arguments code description,
    connection.relay.Bars connection.session.id path role code description →
      enter path arguments connection = connection.refuse streamId code description
  granted : ∀ (connection : Connection) path arguments, connection.relay.IsOrderly →
    (∀ code description,
        ¬ connection.relay.Bars connection.session.id path role code description) →
      ∃ mode, (enter path arguments connection).session.state.stream? streamId = some mode ∧
        role.IsTakenUp connection.relay mode

section

variable {bid : Bid} {enter : StreamPath → StreamArguments → Connection → Connection}

theorem settle_of_clears {path : StreamPath}
    (hclears : Clears policy connection streamId bid path) :
    ∃ (request : Request) (names : List String) (arguments : StreamArguments),
      connection.settle policy streamId bid enter =
        enter path arguments
          ((connection.released streamId).noteAsked (.request request) names) := by
  obtain ⟨hfree, requested, arguments, hname, hallowed⟩ := hclears
  let request := bid.request requested arguments
  refine ⟨request, (policy.decide connection.session.context request).2, arguments, ?_⟩
  simp only [settle, hfree, hname, hallowed.path_eq]
  rfl

theorem settle_of_refuses (henters : Enters bid.role streamId enter) {code description : String}
    (hrefuses : Refuses policy connection streamId bid code description) :
    Tells (connection.released streamId) (.status streamId "error" code description)
      (connection.settle policy streamId bid enter) := by
  cases hrefuses with
  | busy hbusy =>
      simp only [settle, hbusy]
      exact tells_refuse _ _ _ _
  | unnamed hfree hname =>
      simp only [settle, hfree, hname]
      exact tells_refuse _ _ _ _
  | rejected path arguments reason hfree hname hrejected =>
      simp only [settle, hfree, hname, hrejected]
      exact tells_refuse_noteAsked _ _ _ _ _ _
  | barred path code description hclears hbars =>
      obtain ⟨request, names, arguments, hsettle⟩ := settle_of_clears hclears
      rw [hsettle, henters.barred _ _ _ _ _ (by rw [noteAsked_eq]; exact hbars.noted _)]
      exact tells_refuse_noteAsked _ _ _ _ _ _

theorem settle_of_granted (henters : Enters bid.role streamId enter)
    (horderly : connection.relay.IsOrderly)
    (hgranted : ∀ code description, ¬ Refuses policy connection streamId bid code description) :
    ∃ mode,
      (connection.settle policy streamId bid enter).session.state.stream? streamId = some mode ∧
        bid.role.IsTakenUp connection.relay mode := by
  obtain ⟨path, hclears⟩ := exists_clears hgranted
  obtain ⟨request, names, arguments, hsettle⟩ :
      ∃ request names arguments, connection.settle policy streamId bid enter = _ :=
    settle_of_clears hclears
  rw [hsettle]
  have hasked : (connection.released streamId).relay.RunsTo (fun _ => False)
      ((connection.released streamId).noteAsked (.request request) names).relay :=
    runsTo_noteAsked _ _ _
  have hunbarred := henters.granted _ path arguments (hasked.isOrderly horderly)
    fun code description hbars => by
      rw [noteAsked_eq] at hbars
      exact hgranted code description
        (.barred path code description hclears (hbars.noted connection.relay.log))
  rw [noteAsked_eq] at hunbarred ⊢
  exact hunbarred

end

/-! ## Bids to publish -/

theorem publish_eq_settle (horderly : connection.relay.IsOrderly)
    (parameters : PublishParameters) :
    connection.publish policy streamId parameters =
      connection.settle policy streamId
        ⟨.publisher, parameters.streamName,
          fun path arguments => .publish path arguments parameters.publishType⟩
        fun path arguments asked => asked.publishAs streamId
          ⟨asked.session.id, path, arguments, parameters.publishType⟩ := by
  simp only [publish, claimStream_eq horderly, settle, Bool.not_not]
  rfl

theorem enters_publishAs (streamId : UInt32) (publishType : String) :
    Enters .publisher streamId fun path arguments connection =>
      connection.publishAs streamId ⟨connection.session.id, path, arguments, publishType⟩ where
  barred connection path arguments code description hbars := by
    cases hbars with
    | taken place htaken =>
        simp only [publishAs, Relay.startPublishing, htaken]
        rfl
  granted connection path arguments _ hgranted := by
    cases hfree : connection.relay.directory.get? path with
    | some place => exact absurd (.taken place hfree) (hgranted _ _)
    | none =>
        refine ⟨.publishing connection.relay.publications.length, ?_, rfl⟩
        simp only [publishAs, Relay.startPublishing, hfree]
        exact (Table.get?_put _ _ _ _).trans (if_pos rfl)

/-! ## Bids to play -/

theorem play_eq_settle (horderly : connection.relay.IsOrderly) (parameters : PlayParameters) :
    connection.play policy streamId parameters =
      connection.settle policy streamId ⟨.viewer, parameters.streamName, .play⟩
        fun path arguments asked => asked.playAs streamId path arguments := by
  simp only [play, claimStream_eq horderly, settle, Bool.not_not]
  rfl

theorem enters_playAs (streamId : UInt32) :
    Enters .viewer streamId fun path arguments connection =>
      connection.playAs streamId path arguments where
  barred connection path arguments code description hbars := by
    cases hbars with
    | missing hmissing =>
        simp only [playAs, Relay.startSubscribing, hmissing]
        rfl
    | twice place publication hplace hfound hseated =>
        simp only [playAs, Relay.startSubscribing, hplace, hfound, Option.bind_some,
          Option.map_some, hseated]
        rfl
  granted connection path arguments horderly hgranted := by
    cases hplace : connection.relay.directory.get? path with
    | none => exact absurd (.missing hplace) (hgranted _ _)
    | some place =>
        obtain ⟨publication, hfound⟩ := horderly.exists_publication hplace
        cases hseated : connection.relay.hasSubscriber publication connection.session.id with
        | true => exact absurd (.twice place publication hplace hfound hseated) (hgranted _ _)
        | false =>
            refine ⟨.playing place connection.relay.subscriptions.length, ?_, rfl⟩
            simp only [playAs, Relay.startSubscribing, hplace, hfound, Option.bind_some,
              Option.map_some, hseated]
            exact (Table.get?_put _ _ _ _).trans (if_pos rfl)

/-! ## A bid that comes in -/

theorem run_eq_settle (horderly : connection.relay.IsOrderly)
    (configuration : ServerConfiguration) {called : CommandCall} {bid : Bid}
    (hbid : called.command.bid? = some bid) :
    ∃ enter, Enters bid.role called.streamId enter ∧
      connection.run configuration policy called =
        (none, connection.settle policy called.streamId bid enter) := by
  unfold run
  cases hcommand : called.command with
  | publish parameters =>
      rw [hcommand] at hbid
      obtain rfl := Option.some.inj hbid
      exact ⟨_, enters_publishAs _ _, congrArg _ (publish_eq_settle horderly parameters)⟩
  | play parameters =>
      rw [hcommand] at hbid
      obtain rfl := Option.some.inj hbid
      exact ⟨_, enters_playAs _, congrArg _ (play_eq_settle horderly parameters)⟩
  | _ =>
      rw [hcommand] at hbid
      cases hbid

theorem Tells.session_eq {before after : Connection} {message : OutboundMessage}
    (htells : Tells before message after) : after.session = before.session := by
  obtain ⟨notices, -, rfl⟩ := htells
  rfl

/-- A queue that is open takes the message, and nothing else changes but the log. -/
theorem Tells.relay_eq {before after : Connection} {message : OutboundMessage}
    (htells : Tells before message after) {queue : OutboundQueue}
    (hqueue : before.relay.queues[before.session.queue]? = some queue)
    (hopen : queue.isOpen = true) :
    ∃ notices : List Notice,
      (∀ notice ∈ notices, ∃ name request,
        notice = .asked name before.session.context (.request request)) ∧
      after.relay =
        { before.relay with
          queues :=
            before.relay.queues.set before.session.queue
              { queue with
                messages := queue.messages ++ [message], pending := queue.pending + 1 }
          log := before.relay.log ++ notices } := by
  obtain ⟨notices, hnotices, rfl⟩ := htells
  refine ⟨notices, hnotices, ?_⟩
  simp [send, Relay.send, OutboundQueue.send, hqueue, hopen]

theorem isConnected_released :
    (connection.released streamId).session.state.isConnected =
      connection.session.state.isConnected := by
  simp only [released, updateState]
  split <;> rfl

theorem stream?_released (connection : Connection) (streamId other : UInt32) :
    (connection.released streamId).session.state.stream? other =
      if other = streamId ∧ connection.hasEnded streamId = true then some .idle
      else connection.session.state.stream? other := by
  by_cases hended : connection.hasEnded streamId = true
  · simp [released, updateState, hended, SessionState.setMode, SessionState.stream?,
      Table.get?_put, eq_comm]
  · simp [released, updateState, hended]

/-- What a session has read does not count for a bid. -/
theorem Refuses.reading {session : Session} {relay : Relay} {bid : Bid}
    {code description : String}
    (hrefuses : Refuses policy ⟨session, relay⟩ streamId bid code description)
    (inbound : Inbound) (traffic : SessionTraffic) :
    Refuses policy
      ⟨{ session with
          inbound := inbound, state := { session.state with traffic := traffic } }, relay⟩
      streamId bid code description := by
  cases hrefuses with
  | busy hbusy => exact .busy hbusy
  | unnamed hfree hname => exact .unnamed hfree hname
  | rejected path arguments _ hfree hname hrejected =>
      exact .rejected path arguments _ hfree hname hrejected
  | barred path _ _ hclears hbars => exact .barred path _ _ hclears hbars

end Connection

namespace Server

/-- The session is told that its bid is refused.  It has not changed but for a play
of that stream that has ended, and nothing else has changed at all. -/
structure DeclinesBid (before : Server) (number : Nat) (session : Session) (streamId : UInt32)
    (code description : String) (after : Server) : Prop where
  relay : ∃ (queue : OutboundQueue) (notices : List Notice),
    before.relay.queues[session.queue]? = some queue ∧
      (∀ notice ∈ notices, ∃ name request,
        notice = .asked name session.context (.request request)) ∧
      after.relay =
        { before.relay with
          queues :=
            before.relay.queues.set session.queue
              { queue with
                messages := queue.messages ++ [.status streamId "error" code description]
                pending := queue.pending + 1 }
          log := before.relay.log ++ notices }
  others : ∀ other, other ≠ number → after.sessions.get? other = before.sessions.get? other
  goesOn : ∃ left, after.sessions.get? number = some left ∧ left.queue = session.queue ∧
    left.context = session.context ∧ left.state.isConnected = true ∧
      ∀ other, left.state.stream? other =
        if other = streamId ∧ Connection.hasEnded ⟨session, before.relay⟩ streamId = true then
          some .idle
        else session.state.stream? other
  server : after = { before with relay := after.relay, sessions := after.sessions }

/-- The stream has taken up the role that the bid was for. -/
def GrantsBid (before : Server) (number : Nat) (streamId : UInt32) (bid : Bid)
    (after : Server) : Prop :=
  ∃ left mode, after.sessions.get? number = some left ∧
    left.state.stream? streamId = some mode ∧ bid.role.IsTakenUp before.relay mode

variable {server : Server} {number : Nat} {session : Session} {handled : Connection}
  {inbound : Inbound} {streamId : UInt32} {code description : String}

/-- The bid is settled, and the session is kept. -/
theorem IsServing.act_of_bid (hserving : server.IsServing)
    (hrunning : server.sessions.get? number = some session)
    (hconnected : session.state.isConnected = true) {arrival : Arrival} {called : CommandCall}
    (hcalled : arrival.call? = some called) {bid : Bid} (hbid : called.command.bid? = some bid)
    (inbound : Inbound) (order : TeardownOrder) :
    let reading := Connection.countMessage ⟨{ session with inbound := inbound }, server.relay⟩
    ∃ enter, Connection.Enters bid.role called.streamId enter ∧
      server.act number (.message inbound arrival order) =
        server.keep (reading.settle server.policy called.streamId bid enter) ∧
      Connection.KeepsToOwn ⟨session, server.relay⟩
        (reading.settle server.policy called.streamId bid enter) := by
  intro reading
  obtain ⟨enter, henters, hrun⟩ :
      ∃ enter, Connection.Enters bid.role called.streamId enter ∧
        reading.run server.configuration server.policy called = _ :=
    Connection.run_eq_settle hserving.isOrderly server.configuration hbid
  have hhandled : reading.receiveArrival server.configuration server.policy arrival =
      (none, reading.settle server.policy called.streamId bid enter) := by
    have hstill : reading.session.state.isConnected = true := hconnected
    rw [reading.receiveArrival_of_call _ _ hcalled, Connection.call, hstill]
    exact hrun
  have hkeeps := Connection.keepsToOwn_reading (hserving.apart.holdsOwn number session hrunning)
    inbound server.configuration server.policy arrival
  rw [hhandled] at hkeeps
  refine ⟨enter, henters, ?_, hkeeps⟩
  have hread : server.reading? number inbound = some reading := by
    simp [reading?, connection?, hrunning, reading]
  simp [act, receiveArrival, hread, hhandled]

/-- The queue of a running session is open, so the session is told indeed. -/
theorem IsServing.declinesBid_keep (hserving : server.IsServing)
    (hrunning : server.sessions.get? number = some session)
    (hconnected : session.state.isConnected = true)
    (hkeeps : Connection.KeepsToOwn ⟨session, server.relay⟩ handled)
    (htells : Connection.Tells
      (Connection.released
        (Connection.countMessage ⟨{ session with inbound := inbound }, server.relay⟩) streamId)
      (.status streamId "error" code description) handled) :
    DeclinesBid server number session streamId code description (server.keep handled) := by
  obtain ⟨queue, hqueue, hopen⟩ := hserving.exists_queue hrunning
  obtain ⟨notices, hnotices, hrelay⟩ := htells.relay_eq hqueue hopen
  have hacts := actsAs_keep hserving.apart hrunning hkeeps
  have hown := own_keep hserving.apart hrunning hkeeps
  refine ⟨⟨queue, notices, hqueue, hnotices, hrelay⟩, hacts.others_eq,
    ⟨handled.session, hown, hkeeps.queue_eq, ?_, ?_, fun other => ?_⟩, rfl⟩
  · rw [htells.session_eq]
    rfl
  · rw [htells.session_eq, Connection.isConnected_released]
    exact hconnected
  · rw [htells.session_eq, Connection.stream?_released]
    rfl

/-- A bid that is refused changes nothing, and the session is told why and goes on.
A bid that is not refused is granted. -/
theorem refused_or_granted (configuration : ServerConfiguration) (policy : PolicyChain)
    (observers : List Observer) (spread : StreamPath → Nat) (occurrences : List Occurrence)
    (number : Nat) (inbound : Inbound) (arrival : Arrival) (order : TeardownOrder) :
    let before := (ofConfiguration configuration policy observers spread).afterAll occurrences
    let after := before.act number (.message inbound arrival order)
    ∀ session called bid, before.sessions.get? number = some session →
      session.state.isConnected = true → arrival.call? = some called →
      called.command.bid? = some bid →
        (∀ code description,
          Connection.Refuses before.policy ⟨session, before.relay⟩ called.streamId bid code
              description →
            DeclinesBid before number session called.streamId code description after) ∧
        ((∀ code description,
            ¬ Connection.Refuses before.policy ⟨session, before.relay⟩ called.streamId bid code
              description) →
          GrantsBid before number called.streamId bid after) := by
  intro before after session called bid hrunning hconnected hcalled hbid
  have hserving : before.IsServing :=
    (isServing_ofConfiguration configuration policy observers spread).afterAll occurrences
  obtain ⟨enter, henters, hafter, hkeeps⟩ :=
    hserving.act_of_bid hrunning hconnected hcalled hbid inbound order
  rw [show after = _ from hafter]
  refine ⟨fun code description hrefuses => ?_, fun hfree => ?_⟩
  · exact hserving.declinesBid_keep hrunning hconnected hkeeps
      (Connection.settle_of_refuses henters (hrefuses.reading inbound _))
  · let reading := Connection.countMessage ⟨{ session with inbound := inbound }, before.relay⟩
    have hunrefused (code description : String) :
        ¬ reading.Refuses before.policy called.streamId bid code description := fun hrefuses =>
      hfree code description (hrefuses.reading session.inbound session.state.traffic)
    obtain ⟨mode, hmode, htaken⟩ :=
      Connection.settle_of_granted henters hserving.isOrderly hunrefused
    exact ⟨_, mode, own_keep hserving.apart hrunning hkeeps, hmode, htaken⟩

/-- A client plays what another one publishes, until that one leaves. -/
def leftBehind : List Occurrence :=
  let received (session : Nat) (values : List AmfValue) : Occurrence :=
    .acted session (.message {} (commandOf 1 values) .asListed)
  [.accepted true, .accepted true,
    received 1 [.text "connect", .number .zero],
    received 1 [.text "publish", .number .zero, .null, .text "demo"],
    received 2 [.text "connect", .number .zero],
    received 2 [.text "play", .number .zero, .null, .text "demo"],
    .acted 1 (.leave .asListed)]

/-- Playing it once more is refused, and the play that has ended is given up. -/
theorem refused_of_leftBehind :
    let before := (ofConfiguration {} (.single "policy" {}) [] fun _ => 0).afterAll leftBehind
    let again := commandOf 1 [.text "play", .number .zero, .null, .text "demo"]
    ∃ session, before.sessions.get? 2 = some session ∧
      Connection.hasEnded ⟨session, before.relay⟩ 1 = true ∧
      DeclinesBid before 2 session 1 StatusCode.playStreamNotFound
        "Stream doesn't exist: //demo" (before.act 2 (.message {} again .asListed)) := by
  intro before again
  refine ⟨_, rfl, rfl, ?_⟩
  exact (refused_or_granted {} (.single "policy" {}) [] (fun _ => 0) leftBehind 2 {} again
    .asListed _ _ _ rfl rfl rfl rfl).1 _ _
      (.barred ⟨"//demo"⟩ _ _ ⟨rfl, ⟨"//demo"⟩, [], rfl, .inl ⟨rfl, rfl⟩⟩ (.missing rfl))

end Server

end LiveRelay
