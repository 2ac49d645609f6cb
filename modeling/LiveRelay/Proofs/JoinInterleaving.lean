import LiveRelay.Proofs.BroadcastSchedule
import LiveRelay.Proofs.SubscriberFeed

/-!
# Joining in the middle of a broadcast

A viewer may join after an ordinary frame got its number and before it is
delivered.  If the frame was cached, the replay has it, and the number keeps
the viewer from getting it again.  If it was not, the viewer gets it live.
Either way no frame is lost, repeated or out of order.
-/

namespace LiveRelay

structure Interleaving where
  airing : Airing
  /-- Numbered and cached, but not delivered yet. -/
  inFlight : Option NumberedFrame := none

namespace Interleaving

/-- An ordinary frame only enters the cache in this turn.  While a frame is in
flight the publisher does not start another one. -/
def publish (published : Nat) (state : Interleaving) (kind : MediaKind)
    (timestamp : UInt32) (payload : Bytes) : Interleaving :=
  let frame := MediaFrame.classify kind payload
  match state.inFlight with
  | some _ => state
  | none =>
      if frame.isSkippable then
        match state.airing.relay.enter published frame timestamp payload with
        | some (_, numbered, relay) =>
            { airing := { state.airing with relay := relay }
              inFlight := some numbered }
        | none => state
      else
        { state with
          airing := state.airing.step published (.frame kind timestamp payload) }

/-- The frame in flight goes to the subscriptions that are on the list now. -/
def deliver (published : Nat) (state : Interleaving) : Interleaving :=
  match state.inFlight with
  | some numbered =>
      let path := state.airing.relay.pathOf published
      let (tally, relay) := state.airing.relay.broadcast published numbered
      { airing :=
          { state.airing with
            relay := relay.finish published path numbered tally } }
  | none => state

def step (published : Nat) (state : Interleaving) : Turn → Interleaving
  | .event (.frame kind timestamp payload) =>
      state.publish published kind timestamp payload
  | .event event =>
      { state with airing := state.airing.step published event }
  | .delivered => state.deliver published

def run (published : Nat) (state : Interleaving) (turns : List Turn) :
    Interleaving :=
  turns.foldl (step published) state

variable {threshold published : Nat} {schedule : Schedule}
  {publication : Publication} {state : Interleaving}

theorem run_append (first second : List Turn) :
    state.run published (first ++ second) =
      (state.run published first).run published second :=
  List.foldl_append

theorem enter_change_of_isSkippable {relay : Relay} {place : Nat}
    {frame : MediaFrame} (hordinary : frame.isSkippable = true)
    {timestamp : UInt32} {payload : Bytes} {change : CacheChange}
    {numbered : NumberedFrame} {entered : Relay}
    (henter : relay.enter place frame timestamp payload =
      some (change, numbered, entered)) :
    change = .unnoticed := by
  simp only [MediaFrame.isSkippable, Bool.and_eq_true, Bool.not_eq_true']
    at hordinary
  unfold Relay.enter at henter
  split at henter
  · cases henter
  · simp only [Option.some.injEq, Prod.mk.injEq] at henter
    rw [← henter.1]
    simp [MediaCache.enter, hordinary.1, hordinary.2]

/-- With nothing between them, the two turns of an ordinary frame are one
distribution. -/
theorem deliver_publish (hidle : state.inFlight = none) {kind : MediaKind}
    {payload : Bytes}
    (hordinary : (MediaFrame.classify kind payload).isSkippable = true)
    (timestamp : UInt32) :
    (state.publish published kind timestamp payload).deliver published =
      { state with
        airing :=
          state.airing.step published (.frame kind timestamp payload) } := by
  obtain ⟨airing, inFlight⟩ := state
  subst hidle
  unfold publish
  simp only [hordinary, if_true]
  cases henter : airing.relay.enter published
      (MediaFrame.classify kind payload) timestamp payload with
  | none =>
      have hdistribute :
          (airing.relay.distribute published kind timestamp payload).2 =
            airing.relay := by
        simp [Relay.distribute, henter]
      simp only [deliver, Airing.step, hdistribute]
  | some result =>
      obtain ⟨change, numbered, entered⟩ := result
      have hchange := enter_change_of_isSkippable hordinary henter
      subst hchange
      simp only [deliver, Airing.step, Relay.distribute, henter, Relay.showChange]

/-! ## The stream -/

/-- The stream is on the air as the schedule says. -/
structure Tracks (threshold published : Nat) (schedule : Schedule)
    (publication : Publication) (state : Interleaving) : Prop where
  airs : Airing.Airs threshold published schedule.programme publication
    state.airing.relay
  inFlight : schedule.inFlight = state.inFlight.map (·.entry.published)

theorem Tracks.afterPublish
    (htracks : Tracks threshold published schedule publication state)
    (kind : MediaKind) (timestamp : UInt32) (payload : Bytes) :
    ∃ changed,
      Tracks threshold published
        (schedule.after (.event (.frame kind timestamp payload))) changed
        (state.publish published kind timestamp payload) := by
  cases hinFlight : state.inFlight with
  | some numbered =>
      have hbusy : schedule.inFlight.isSome = true := by
        simp [htracks.inFlight, hinFlight]
      refine ⟨publication, ?_⟩
      simp only [publish, hinFlight, Schedule.after, hbusy, if_true]
      exact htracks
  | none =>
      have hidle : schedule.inFlight.isSome = false := by
        simp [htracks.inFlight, hinFlight]
      simp only [publish, hinFlight, Schedule.after, hidle, Bool.false_eq_true,
        if_false]
      cases hordinary : (MediaFrame.classify kind payload).isSkippable with
      | false =>
          obtain ⟨changed, hairs⟩ := htracks.airs.afterFrame kind timestamp payload
          exact ⟨changed, hairs, by simp⟩
      | true =>
          obtain ⟨change, numbered, entered, henter, hnext, henters⟩ :=
            Relay.enter_spec htracks.airs.onAir.found htracks.airs.isClean
              (MediaFrame.classify kind payload) timestamp payload
          simp only [if_true, henter]
          refine ⟨_, htracks.airs.afterEnter hnext henters, ?_⟩
          simp [hnext.published, htracks.airs.onAir.sequence, Schedule.next]

theorem Tracks.afterDeliver
    (htracks : Tracks threshold published schedule publication state) :
    Tracks threshold published (schedule.after .delivered) publication
      (state.deliver published) := by
  unfold deliver
  cases hinFlight : state.inFlight with
  | none =>
      refine ⟨htracks.airs, ?_⟩
      simp [Schedule.after, hinFlight]
  | some numbered =>
      refine ⟨?_, rfl⟩
      apply htracks.airs.afterSends
      intro queue
      obtain ⟨messages, hsends⟩ :=
        state.airing.relay.exists_sends_broadcast published numbered
      exact ⟨messages, hsends.trans_silent (Relay.sends_finish _ _ _ _ _)⟩

theorem Tracks.afterStep
    (htracks : Tracks threshold published schedule publication state)
    (turn : Turn) :
    ∃ changed,
      Tracks threshold published (schedule.after turn) changed
        (state.step published turn) := by
  cases turn with
  | delivered => exact ⟨publication, htracks.afterDeliver⟩
  | event event =>
      obtain ⟨changed, hairs⟩ := htracks.airs.afterStep event
      cases event with
      | frame kind timestamp payload =>
          exact htracks.afterPublish kind timestamp payload
      | _ => exact ⟨changed, hairs, htracks.inFlight⟩

theorem Tracks.afterRun
    (htracks : Tracks threshold published schedule publication state)
    (turns : List Turn) :
    ∃ changed,
      Tracks threshold published (turns.foldl Schedule.after schedule) changed
        (state.run published turns) := by
  induction turns generalizing schedule publication state with
  | nil => exact ⟨publication, htracks⟩
  | cons turn turns ih =>
      obtain ⟨changed, hchanged⟩ := htracks.afterStep turn
      exact ih hchanged

/-! ## One turn of a viewer -/

/-- The viewer's queue is open and its own, nothing is held back, and it keeps
up. -/
structure Attends (state : Interleaving)
    (published queue session place : Nat) : Prop where
  isWatched : state.airing.IsWatched published queue session place
  keepsUp : state.airing.relay.pending queue ≤ state.airing.relay.skipThreshold
  isPlaying : ∀ subscription,
    state.airing.relay.subscriptions[place]? = some subscription →
      subscription.isPaused = false
  isWanted : ∀ subscription,
    state.airing.relay.subscriptions[place]? = some subscription →
      ∀ kind, subscription.receives kind = true

end Interleaving

namespace Viewer

variable {viewer : Viewer} {published : Nat} {schedule : Schedule}
  {publication : Publication} {state after : Interleaving} {turn : Turn}

theorem Follows.accepts_of_attends
    (hfollows : viewer.Follows published state.airing.relay)
    (htracks : Interleaving.Tracks viewer.skipThreshold published schedule
      publication state)
    (hattends :
      state.Attends published viewer.queue viewer.session viewer.place)
    (frame : MediaFrame) :
    viewer.accepts frame = true := by
  obtain ⟨subscription, hsubscription, hmatches⟩ := hfollows.subscribed
  rw [Relay.getElem?_streams_subscriptions] at hsubscription
  obtain ⟨counted, hcounted, rfl⟩ := Option.map_eq_some_iff.mp hsubscription
  have hplaying : viewer.isPaused = false := by
    rw [← hmatches.isPaused]
    exact hattends.isPlaying counted hcounted
  have hwanted : viewer.receives frame.kind = true := by
    rw [← hmatches.receives]
    exact hattends.isWanted counted hcounted frame.kind
  have hkeepsUp : viewer.waiting ≤ viewer.skipThreshold := by
    have hpending := hattends.keepsUp
    rw [Relay.pending_eq,
      htracks.airs.isCounted viewer.queue hfollows.isOpen, hfollows.waiting,
      htracks.airs.skipThreshold] at hpending
    exact hpending
  simp [accepts, hplaying, hwanted, Nat.not_lt.mpr hkeepsUp]

/-- What a turn sends to the viewer: what is broadcast, if it is on the list
and the replay has not covered it. -/
def turnGets (viewer : Viewer) (schedule : Schedule) (turn : Turn) :
    List WireMessage :=
  ((if viewer.isListed then schedule.broadcasts turn else []).filter
    (·.isAfter viewer.primedThrough)).map (·.toWire viewer.streamId)

theorem turnGets_of_frame {frame : PublishedFrame}
    (hframe : schedule.broadcasts turn = [.frame frame]) :
    viewer.turnGets schedule turn =
      if viewer.isListed && decide (viewer.primedThrough < frame.sequence) then
        [.media viewer.streamId frame.kind frame.timestamp frame.payload]
      else [] := by
  unfold turnGets
  rw [hframe]
  cases viewer.isListed with
  | false => rfl
  | true =>
      by_cases hafter : viewer.primedThrough < frame.sequence
      · simp [Sending.isAfter, Sending.toWire, hafter]
      · simp [Sending.isAfter, hafter]

/-- The viewer gets what the turn sends it. -/
structure Advances (viewer : Viewer) (published : Nat) (schedule : Schedule)
    (turn : Turn) (before after : Interleaving) (later : Viewer) : Prop where
  samePlay : viewer.SamePlay later
  isListed : later.isListed = (viewer.isListed && !turn.removes viewer.place)
  follows : later.Follows published after.airing.relay
  sentTo : after.airing.sentTo viewer.queue =
    before.airing.sentTo viewer.queue ++ viewer.turnGets schedule turn

theorem isListed_after (viewer : Viewer) (event : StreamEvent) :
    (viewer.after event).isListed =
      (viewer.isListed && !(Turn.event event).removes viewer.place) := by
  cases event with
  | left place => simp [Viewer.after, Turn.removes]
  | paused place isPaused =>
      simp only [Viewer.after, Turn.removes, Bool.not_false, Bool.and_true]
      split <;> rfl
  | chosen place kind isWanted =>
      simp only [Viewer.after, Turn.removes, Bool.not_false, Bool.and_true]
      split
      · cases kind <;> rfl
      · rfl
  | drained queue count =>
      simp only [Viewer.after, Turn.removes, Bool.not_false, Bool.and_true]
      split <;> rfl
  | _ => exact (Bool.and_true _).symm

theorem Continues.advances {event : StreamEvent}
    (hcontinues : viewer.Continues published event state.airing after.airing)
    (hgets : viewer.gets event = viewer.turnGets schedule (.event event)) :
    viewer.Advances published schedule (.event event) state after
      (viewer.after event) where
  samePlay := viewer.samePlay_after event
  isListed := viewer.isListed_after event
  follows := hcontinues.follows
  sentTo := by rw [hcontinues.sentTo, hgets]

theorem Follows.advances_silently
    (hfollows : viewer.Follows published after.airing.relay)
    (hsent : after.airing.sentTo viewer.queue = state.airing.sentTo viewer.queue)
    (hremoves : turn.removes viewer.place = false)
    (hnothing : schedule.broadcasts turn = []) :
    viewer.Advances published schedule turn state after viewer where
  samePlay := ⟨rfl, rfl, rfl, rfl, rfl, rfl⟩
  isListed := by rw [hremoves, Bool.not_false, Bool.and_true]
  follows := hfollows
  sentTo := by simp [turnGets, hsent, hnothing]

theorem Follows.primedThrough_le
    (hfollows : viewer.Follows published state.airing.relay)
    (htracks : Interleaving.Tracks viewer.skipThreshold published schedule
      publication state) :
    viewer.primedThrough ≤ schedule.programme.frames.length := by
  obtain ⟨subscription, hsubscription, hmatches⟩ := hfollows.subscribed
  have hprimed := htracks.airs.onAir.primed _ _ hsubscription
  rw [hmatches.primedThrough, htracks.airs.onAir.sequence] at hprimed
  exact hprimed

theorem Follows.afterEnter (hfollows : viewer.Follows published state.airing.relay)
    {numbered : NumberedFrame} {entered : Relay}
    (hfound :
      state.airing.relay.streams.publications[published]? = some publication)
    (henters : Relay.Enters published publication numbered state.airing.relay
      entered) :
    viewer.Follows published entered := by
  have hsubscriptions : entered.streams.subscriptions =
      state.airing.relay.streams.subscriptions := by
    rw [henters.streams]
    rfl
  have hsubscribers : entered.streams.subscribers published =
      state.airing.relay.streams.subscribers published := by
    rw [henters.streams, Streams.subscribers_putPublication hfound,
      Streams.subscribers_eq hfound]
  refine ⟨?_, ?_, ?_, ?_, ?_⟩
  · rw [hsubscriptions]
    exact hfollows.subscribed
  · rw [hsubscribers]
    exact hfollows.listed
  · unfold Streams.IsSole
    rw [hsubscribers, hsubscriptions]
    exact hfollows.sole
  · rw [henters.queueAt]
    exact hfollows.isOpen
  · rw [henters.queueAt]
    exact hfollows.waiting

theorem Follows.advances_publish
    (hfollows : viewer.Follows published state.airing.relay)
    (htracks : Interleaving.Tracks viewer.skipThreshold published schedule
      publication state)
    (hattends : state.Attends published viewer.queue viewer.session viewer.place) (kind : MediaKind)
    (timestamp : UInt32) (payload : Bytes) :
    ∃ later,
      viewer.Advances published schedule (.event (.frame kind timestamp payload))
        state (state.publish published kind timestamp payload) later := by
  cases hinFlight : state.inFlight with
  | some numbered =>
      have hbusy : schedule.inFlight.isSome = true := by
        simp [htracks.inFlight, hinFlight]
      have hpublish : state.publish published kind timestamp payload = state := by
        simp [Interleaving.publish, hinFlight]
      rw [hpublish]
      exact
        ⟨viewer,
          hfollows.advances_silently rfl rfl (by simp [Schedule.broadcasts, hbusy])⟩
  | none =>
      have hidle : schedule.inFlight.isSome = false := by
        simp [htracks.inFlight, hinFlight]
      cases hordinary : (MediaFrame.classify kind payload).isSkippable with
      | true =>
          obtain ⟨change, numbered, entered, henter, -, henters⟩ :=
            Relay.enter_spec htracks.airs.onAir.found htracks.airs.isClean
              (MediaFrame.classify kind payload) timestamp payload
          have hpublish : state.publish published kind timestamp payload =
              { airing := { state.airing with relay := entered }
                inFlight := some numbered } := by
            simp [Interleaving.publish, hinFlight, hordinary, henter]
          rw [hpublish]
          refine ⟨viewer, Follows.advances_silently ?_ ?_ rfl ?_⟩
          · exact hfollows.afterEnter htracks.airs.onAir.found henters
          · unfold Airing.sentTo
            rw [henters.queueAt]
          · simp [Schedule.broadcasts, hordinary]
      | false =>
          have hcontinues :=
            hfollows.continues_frame htracks.airs kind timestamp payload
          have hpublish : state.publish published kind timestamp payload =
              { state with
                airing :=
                  state.airing.step published (.frame kind timestamp payload) } := by
            simp [Interleaving.publish, hinFlight, hordinary]
          rw [hpublish]
          refine ⟨_, Continues.advances hcontinues ?_⟩
          have hprimed := hfollows.primedThrough_le htracks
          have haccepts := hfollows.accepts_of_attends htracks hattends
          have hlater : viewer.primedThrough <
              (schedule.next kind timestamp payload).sequence :=
            Nat.lt_succ_of_le hprimed
          have hframe :
              schedule.broadcasts (.event (.frame kind timestamp payload)) =
                [.frame (schedule.next kind timestamp payload)] := by
            simp [Schedule.broadcasts, hidle, hordinary]
          rw [turnGets_of_frame hframe, decide_eq_true hlater, gets, haccepts]
          rfl

theorem Follows.advances_deliver
    (hfollows : viewer.Follows published state.airing.relay)
    (htracks : Interleaving.Tracks viewer.skipThreshold published schedule
      publication state)
    (hattends : state.Attends published viewer.queue viewer.session viewer.place) :
    ∃ later,
      viewer.Advances published schedule .delivered state
        (state.deliver published) later := by
  cases hinFlight : state.inFlight with
  | none =>
      have hdeliver : state.deliver published = state := by
        simp [Interleaving.deliver, hinFlight]
      rw [hdeliver]
      refine ⟨viewer, hfollows.advances_silently rfl rfl ?_⟩
      simp [Schedule.broadcasts, htracks.inFlight, hinFlight]
  | some numbered =>
      have hfound := htracks.airs.onAir.found
      have hsubscribers := Streams.subscribers_eq hfound
      have hsole : state.airing.relay.streams.IsSole viewer.queue viewer.place
          publication.subscribers := by
        rw [← hsubscribers]
        exact hfollows.sole
      have hsends :=
        (Relay.sends_broadcast hfound htracks.airs.onAir.nodup hsole
          numbered).trans_silent
          (Relay.sends_finish _ published (state.airing.relay.pathOf published)
            numbered (state.airing.relay.broadcast published numbered).1)
      rw [← hsubscribers] at hsends
      have hdeliver : (state.deliver published).airing.relay =
          (state.airing.relay.broadcast published numbered).2.finish published
            (state.airing.relay.pathOf published) numbered
            (state.airing.relay.broadcast published numbered).1 := by
        simp [Interleaving.deliver, hinFlight]
      have hreceived :
          (state.deliver published).airing.received = state.airing.received := by
        simp [Interleaving.deliver, hinFlight]
      rw [← hdeliver] at hsends
      have hframe : schedule.broadcasts .delivered =
          [.frame numbered.entry.published] := by
        simp [Schedule.broadcasts, htracks.inFlight, hinFlight]
      have hmessages := hfollows.map_messagesTo htracks.airs numbered
      rw [hfollows.accepts_of_attends htracks hattends, Bool.and_true] at hmessages
      refine
        ⟨_,
          { samePlay := ?_
            isListed := ?_
            follows := hfollows.afterSends ?_ ?_ ?_ hsends.queueAt
            sentTo := ?_ }⟩
      · exact ⟨rfl, rfl, rfl, rfl, rfl, rfl⟩
      · exact (Bool.and_true _).symm
      · rw [hsends.streams]
      · rw [hsends.streams]
      · rw [hsends.streams]
        exact hfollows.sole
      · rw [turnGets_of_frame hframe,
          Airing.sentTo_of_pushAll hfollows.isOpen hreceived hsends.queueAt,
          hmessages]
        rfl

/-- Every turn sends the viewer what it should, as long as the viewer attends. -/
theorem Follows.advances_step
    (hfollows : viewer.Follows published state.airing.relay)
    (htracks : Interleaving.Tracks viewer.skipThreshold published schedule
      publication state)
    (hattends : state.Attends published viewer.queue viewer.session viewer.place)
    (hafter : (state.step published turn).Attends published viewer.queue
      viewer.session viewer.place) :
    ∃ later,
      viewer.Advances published schedule turn state (state.step published turn)
        later := by
  cases turn with
  | delivered => exact hfollows.advances_deliver htracks hattends
  | event event =>
      have hcontinues := hfollows.continues_step htracks.airs event
      cases event with
      | frame kind timestamp payload =>
          exact
            hfollows.advances_publish htracks hattends kind timestamp payload
      | described metadata =>
          refine ⟨_, (hcontinues hafter.isWatched).advances ?_⟩
          unfold turnGets gets Schedule.broadcasts
          cases viewer.isListed <;> rfl
      | _ =>
          refine ⟨_, (hcontinues hafter.isWatched).advances ?_⟩
          unfold turnGets gets Schedule.broadcasts
          rw [ite_self]
          rfl

/-! ## Whole runs -/

theorem Follows.sentTo_turns
    (hfollows : viewer.Follows published state.airing.relay)
    (htracks : Interleaving.Tracks viewer.skipThreshold published schedule
      publication state)
    {turns : List Turn}
    (hattends : ∀ shown, shown <+: turns →
      (state.run published shown).Attends published viewer.queue viewer.session
        viewer.place) :
    (state.run published turns).airing.sentTo viewer.queue =
      state.airing.sentTo viewer.queue ++
        ((schedule.shown viewer.place viewer.isListed turns).filter
          (·.isAfter viewer.primedThrough)).map (·.toWire viewer.streamId) := by
  induction turns generalizing viewer schedule publication state with
  | nil => exact (List.append_nil _).symm
  | cons turn turns ih =>
      have hfirst : [turn] <+: turn :: turns := ⟨turns, rfl⟩
      obtain ⟨later, hadvances⟩ :=
        hfollows.advances_step htracks (hattends [] List.nil_prefix)
          (hattends [turn] hfirst)
      have hsame := hadvances.samePlay
      obtain ⟨changed, hchanged⟩ := htracks.afterStep turn
      rw [← hsame.skipThreshold] at hchanged
      have hrest := ih hadvances.follows hchanged (by
        intro shown hshown
        rw [hsame.place, hsame.session, hsame.queue]
        exact hattends (turn :: shown)
          (List.cons_prefix_cons.mpr ⟨rfl, hshown⟩))
      rw [hsame.queue, hadvances.sentTo, hsame.place, hadvances.isListed,
        hsame.primedThrough, hsame.streamId] at hrest
      rw [Schedule.shown, List.filter_append, List.map_append,
        ← List.append_assoc]
      exact hrest

end Viewer

namespace Interleaving

variable {configuration : RelayConfiguration} {spread : StreamPath → Nat}
  {maximumPooled maximumCapacity : Nat} {observers : List Observer}
  {publish : PublishRequest} {published : Nat} {airing : Airing}
  {before rest : List Turn} {request : SubscribeRequest} {found place : Nat}
  {joined : Relay} {state : Interleaving}

theorem run_joined
    (hjoin :
      (state.run published before).airing.relay.startSubscribing request =
        .ok ((found, place), joined))
    (rest : List Turn) :
    let reached := state.run published before
    state.run published (before ++ .event (.joined request) :: rest) =
      ({ reached with airing := { reached.airing with relay := joined } } :
        Interleaving).run published rest := by
  intro reached
  have haccepted : reached.step published (.event (.joined request)) =
      { reached with airing := { reached.airing with relay := joined } } := by
    simp [step, Airing.step, reached, hjoin]
  rw [run_append, ← haccepted]
  rfl

/-- A viewer that attends gets every frame that is cached when it joins, and
every frame that is broadcast while it is on the list and was not cached, in
the order of their numbers and each of them once. -/
theorem sentTo_run_attended
    (hpublish :
      (Relay.ofConfiguration configuration spread
          { maximumPooled, maximumCapacity } observers).startPublishing publish =
        .ok (published, airing.relay))
    (hjoin :
      (({ airing := airing } : Interleaving).run published
          before).airing.relay.startSubscribing request =
        .ok ((found, place), joined))
    (hattends : ∀ shown, shown <+: rest →
      (({ airing := airing } : Interleaving).run published
        (before ++ .event (.joined request) :: shown)).Attends published
          request.queue request.session place) :
    let state : Interleaving := { airing := airing }
    let reached := state.run published before
    let schedule : Schedule := before.foldl Schedule.after {}
    ∃ cache,
      (reached.airing.relay.publications[published]?).map Publication.cache =
          some cache ∧
        cache.Reflects schedule.programme ∧
        let live :=
          (schedule.shown place true rest).filter (!·.isReplayed cache)
        (state.run published
              (before ++ .event (.joined request) :: rest)).airing.sentTo
            request.queue =
          reached.airing.sentTo request.queue ++ request.opening cache ++
            live.map (·.toWire request.streamId) ∧
        (cache.group.entries.map GroupEntry.published ++
            live.filterMap Sending.frame?).Pairwise
          fun first second => first.sequence < second.sequence := by
  intro state reached schedule
  obtain ⟨publication, hstart⟩ := Airing.airs_startPublishing hpublish
  have htracksStart : Tracks configuration.skipThreshold published {} publication
      state := ⟨hstart, rfl⟩
  obtain ⟨current, htracks⟩ := htracksStart.afterRun before
  have hsound : schedule.IsSound := Schedule.isSound_empty.afterRun before
  have hfirst := hattends [] List.nil_prefix
  rw [run_joined hjoin] at hfirst
  obtain ⟨hfollows, hopening⟩ :=
    Viewer.follows_startSubscribing htracks.airs hjoin hfirst.isWatched
  let accepted : Interleaving :=
    { reached with airing := { reached.airing with relay := joined } }
  have htracksAccepted : Tracks configuration.skipThreshold published schedule _
      accepted := ⟨htracks.airs.afterSubscribing hjoin, htracks.inFlight⟩
  have hattendsAccepted : ∀ shown, shown <+: rest →
      (accepted.run published shown).Attends published request.queue
        request.session place := by
    intro shown hshown
    have hshownAttends := hattends shown hshown
    rw [run_joined hjoin] at hshownAttends
    exact hshownAttends
  have hreflects := htracks.airs.onAir.reflects
  refine ⟨current.cache, htracks.airs.cache_eq, hreflects, ?_, ?_⟩
  · let viewer : Viewer :=
      .ofRequest request current.cache place configuration.skipThreshold
        (joined.queueAt request.queue).messages.length
    have hrun : (accepted.run published rest).airing.sentTo request.queue =
        accepted.airing.sentTo request.queue ++
          ((schedule.shown place true rest).filter
            (·.isAfter current.cache.replayedThrough)).map
              (·.toWire request.streamId) := by
      have hfollowsAccepted : viewer.Follows published accepted.airing.relay :=
        hfollows
      have htracksViewer : Tracks viewer.skipThreshold published schedule _
          accepted := htracksAccepted
      exact hfollowsAccepted.sentTo_turns htracksViewer hattendsAccepted
    rw [hsound.filter_shown hreflects] at hrun
    rw [run_joined hjoin, ← hopening]
    exact hrun
  · exact hsound.pairwise_replay hreflects place true rest

/-! ## An example -/

/-- A key frame was published, and an ordinary frame is in flight. -/
def secondScene : List Turn :=
  [.event .opened, .event (.frame .video 0 [0x17, 1, 5]),
    .event (.frame .audio 20 [0x2f, 1, 7])]

theorem attends_secondScene {shown : List Turn} (hshown : shown <+: [.delivered]) :
    (({ airing := Airing.premiere } : Interleaving).run 0
      (secondScene ++ .event (.joined Airing.firstRequest) :: shown)).Attends
        0 0 2 0 := by
  have hcases : shown = [] ∨ shown = [.delivered] := by
    rcases List.prefix_cons_iff.mp hshown with hnone | ⟨more, hall, hmore⟩
    · exact Or.inl hnone
    · rw [List.prefix_nil.mp hmore] at hall
      exact Or.inr hall
  generalize hlater : ({ airing := Airing.premiere } : Interleaving).run 0
    (secondScene ++ .event (.joined Airing.firstRequest) :: shown) = later
  have hterms : later.airing.relay.subscriptions.map
        (fun listed =>
          (listed.session, listed.isPaused, listed.receivesAudio,
            listed.receivesVideo)) =
      [(2, false, true, true)] := by
    rw [← hlater]
    rcases hcases with rfl | rfl
    · exact rfl
    · exact rfl
  have hqueue : (later.airing.relay.queueAt 0).isOpen = true ∧
      later.airing.relay.pending 0 = 6 ∧
      later.airing.relay.skipThreshold = 300 := by
    rw [← hlater]
    rcases hcases with rfl | rfl
    · exact ⟨rfl, rfl, rfl⟩
    · exact ⟨rfl, rfl, rfl⟩
  obtain ⟨hopen, hpending, hthreshold⟩ := hqueue
  have hfirst : ∀ (other : Nat) (listed : Subscription),
      later.airing.relay.subscriptions[other]? = some listed →
        other = 0 ∧ listed.session = 2 ∧ listed.isPaused = false ∧
          listed.receivesAudio = true ∧ listed.receivesVideo = true := by
    intro other listed hlisted
    have hmap := congrArg (·[other]?) hterms
    simp only [List.getElem?_map, hlisted, Option.map_some,
      List.getElem?_singleton] at hmap
    split at hmap
    · rename_i hzero
      simp only [Option.some.injEq, Prod.mk.injEq] at hmap
      exact ⟨hzero, hmap⟩
    · cases hmap
  refine ⟨⟨hopen, ?_, ?_⟩, by omega, ?_, ?_⟩
  · intro other listed hlisted _
    obtain ⟨-, hsession, -⟩ := hfirst other listed hlisted
    exact hsession
  · intro _ other listed hother hlisted
    obtain ⟨hzero, -⟩ := hfirst other listed hlisted
    omega
  · intro listed hlisted
    obtain ⟨-, -, hplays, -⟩ := hfirst 0 listed hlisted
    exact hplays
  · intro listed hlisted kind
    obtain ⟨-, -, -, haudio, hvideo⟩ := hfirst 0 listed hlisted
    cases kind with
    | audio => exact haudio
    | video => exact hvideo

theorem sentTo_run_secondScene :
    let state : Interleaving := { airing := Airing.premiere }
    let request := Airing.firstRequest
    let schedule : Schedule := secondScene.foldl Schedule.after {}
    ∃ cache,
      cache.Reflects schedule.programme ∧
        let live :=
          (schedule.shown 0 true [.delivered]).filter (!·.isReplayed cache)
        (state.run 0
              (secondScene ++ [.event (.joined request), .delivered])).airing.sentTo
            0 =
          (state.run 0 secondScene).airing.sentTo 0 ++ request.opening cache ++
            live.map (·.toWire 1) ∧
        (cache.group.entries.map GroupEntry.published ++
            live.filterMap Sending.frame?).Pairwise
          fun first second => first.sequence < second.sequence := by
  have hpublish :
      (Relay.ofConfiguration {} (fun _ => 0) {} []).startPublishing
          ⟨1, ⟨"/live/demo"⟩, [], "live"⟩ = .ok (0, Airing.premiere.relay) := rfl
  obtain ⟨joined, hjoin⟩ : ∃ joined,
      (({ airing := Airing.premiere } : Interleaving).run 0
          secondScene).airing.relay.startSubscribing Airing.firstRequest =
        .ok ((0, 0), joined) := ⟨_, rfl⟩
  obtain ⟨cache, -, hreflects, hsent⟩ :=
    sentTo_run_attended hpublish hjoin
      (fun _ hshown => attends_secondScene hshown)
  exact ⟨cache, hreflects, hsent⟩

end Interleaving

end LiveRelay
