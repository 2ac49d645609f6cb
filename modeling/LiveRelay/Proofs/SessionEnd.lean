import LiveRelay.Proofs.Ownership
import LiveRelay.Proofs.ServerRun
import LiveRelay.Proofs.Standing

/-!
# What is left of a session

When a session ends, it gives up what its streams do, in whatever order.  After
that nothing in the register is down for the session, unless a stream number
was handed out that the session had been using already.  What that stream did
is forgotten without being given up, so nobody will ever give it up: the path
stays published, or the play stays on the list until its publisher stops.

Both directions hold, so this is the only way in which something is left.
-/

namespace LiveRelay

/-! ## The books of one session -/

namespace Tenure

/-- What a session owns through its streams. -/
def ownedBy (session : Nat) (streams : List (UInt32 × StreamMode)) :
    List (Nat × StreamMode) :=
  streams.flatMap fun (_, mode) => mode.owned.map (session, ·)

theorem ownedBy_cons (session : Nat) (streamId : UInt32) (mode : StreamMode)
    (streams : List (UInt32 × StreamMode)) :
    ownedBy session ((streamId, mode) :: streams) =
      mode.owned.map (session, ·) ++ ownedBy session streams := rfl

theorem ownedBy_perm (session : Nat) {streams others : List (UInt32 × StreamMode)}
    (hperm : streams.Perm others) :
    (ownedBy session streams).Perm (ownedBy session others) :=
  (hperm.map _).flatten

theorem ownedBy_perm_mode {tenure : Tenure}
    (hnodup : tenure.streams.keys.Nodup) (session : Nat) (streamId : UInt32) :
    (ownedBy session tenure.streams).Perm
      ((tenure.mode streamId).owned.map (session, ·) ++
        ownedBy session (tenure.streams.erase streamId)) := by
  unfold mode
  cases hmode : tenure.streams.get? streamId with
  | none =>
      have habsent := Table.get?_eq_none_iff.mp hmode
      rw [Table.erase_of_notMem habsent]
      exact List.Perm.refl _
  | some mode =>
      rw [Option.getD_some, ← ownedBy_cons session streamId mode]
      exact ownedBy_perm session (Table.perm_of_get? hnodup hmode)

theorem ownedBy_perm_put {tenure : Tenure}
    (hnodup : tenure.streams.keys.Nodup) (session : Nat) (streamId : UInt32)
    (mode : StreamMode) :
    (ownedBy session (tenure.streams.put streamId mode)).Perm
      (mode.owned.map (session, ·) ++
        ownedBy session (tenure.streams.erase streamId)) := by
  rw [← ownedBy_cons session streamId mode]
  exact ownedBy_perm session (Table.perm_put hnodup streamId mode)

/-- The streams of a session and the register agree, given what belongs to
others. -/
structure Settled (tenure : Tenure) (others : List (Nat × StreamMode)) : Prop where
  nodup : tenure.streams.keys.Nodup
  accounted :
    tenure.register.Accounted (ownedBy tenure.session tenure.streams ++ others)

theorem ownedBy_perm_begin {tenure : Tenure}
    (hnodup : tenure.streams.keys.Nodup) (session : Nat) {streamId : UInt32}
    (hidle : tenure.mode streamId = .idle) (mode : StreamMode) :
    (ownedBy session (tenure.streams.put streamId mode)).Perm
      (mode.owned.map (session, ·) ++ ownedBy session tenure.streams) := by
  have hbefore := ownedBy_perm_mode hnodup session streamId
  rw [hidle] at hbefore
  have hafter := ownedBy_perm_put hnodup session streamId mode
  exact hafter.trans (hbefore.symm.append_left _)

/-- What one stream owns comes first. -/
theorem Settled.accountedMode {tenure : Tenure} {others : List (Nat × StreamMode)}
    (hsettled : tenure.Settled others) (streamId : UInt32) :
    tenure.register.Accounted
      ((tenure.mode streamId).owned.map (tenure.session, ·) ++
        (ownedBy tenure.session (tenure.streams.erase streamId) ++ others)) := by
  have hperm := ownedBy_perm_mode hsettled.nodup tenure.session streamId
  have haccounted := hsettled.accounted.perm (hperm.append_right others)
  rwa [List.append_assoc] at haccounted

theorem accounted_stop {register : Register} {session : Nat} {mode : StreamMode}
    {others : List (Nat × StreamMode)}
    (haccounted : register.Accounted (mode.owned.map (session, ·) ++ others)) :
    (register.stop mode).Accounted others := by
  cases mode with
  | idle => exact haccounted
  | publishing place => exact haccounted.stop
  | playing place subscription => exact haccounted.stop

theorem Settled.afterStop {tenure : Tenure} {others : List (Nat × StreamMode)}
    (hsettled : tenure.Settled others) (streamId : UInt32) :
    (tenure.register.stop (tenure.mode streamId)).Accounted
      (ownedBy tenure.session (tenure.streams.erase streamId) ++ others) := by
  exact accounted_stop (hsettled.accountedMode streamId)

theorem Settled.afterStep {first last : Tenure} {lost : List StreamMode}
    {others : List (Nat × StreamMode)} (hsettled : first.Settled others)
    (hstep : Step first lost last) :
    last.session = first.session ∧
      last.Settled (lost.map (first.session, ·) ++ others) := by
  cases hstep with
  | allocated streamId =>
      refine ⟨rfl, Table.nodup_keys_put hsettled.nodup _ _, ?_⟩
      have hmode := ownedBy_perm_mode hsettled.nodup first.session streamId
      have hidle := ownedBy_perm_put hsettled.nodup first.session streamId .idle
      have hperm := hmode.trans (hidle.symm.append_left _)
      refine (hsettled.accounted.perm (hperm.append_right others)).perm ?_
      rw [List.append_assoc]
      exact List.perm_append_comm_assoc _ _ _
  | closed streamId =>
      refine ⟨rfl, Table.nodup_keys_put hsettled.nodup _ _, ?_⟩
      have hidle := ownedBy_perm_put hsettled.nodup first.session streamId .idle
      exact (hsettled.afterStop streamId).perm (hidle.symm.append_right others)
  | deleted streamId =>
      exact
        ⟨rfl, Table.nodup_keys_erase hsettled.nodup _, hsettled.afterStop streamId⟩
  | published streamId path hidle hfree =>
      refine ⟨rfl, Table.nodup_keys_put hsettled.nodup _ _, ?_⟩
      have hbegin := ownedBy_perm_begin hsettled.nodup first.session hidle
        (.publishing first.register.publications.length)
      exact
        (hsettled.accounted.publish first.session hfree).perm
          (hbegin.symm.append_right others)
  | played streamId path place hidle hplace =>
      refine ⟨rfl, Table.nodup_keys_put hsettled.nodup _ _, ?_⟩
      have hbegin := ownedBy_perm_begin hsettled.nodup first.session hidle
        (.playing place first.register.subscriptions.length)
      exact
        (hsettled.accounted.subscribe first.session hplace).perm
          (hbegin.symm.append_right others)

theorem Settled.afterSteps {first last : Tenure} {lost : List StreamMode}
    {others : List (Nat × StreamMode)} (hsettled : first.Settled others)
    (hsteps : Steps first lost last) :
    last.session = first.session ∧
      last.Settled (lost.map (first.session, ·) ++ others) := by
  induction hsteps generalizing others with
  | refl => exact ⟨rfl, hsettled⟩
  | head hstep _ ih =>
      obtain ⟨hsession, hnext⟩ := hsettled.afterStep hstep
      obtain ⟨hlast, hsettledLast⟩ := ih hnext
      refine ⟨hlast.trans hsession, hsettledLast.nodup, ?_⟩
      refine hsettledLast.accounted.perm (List.Perm.append_left _ ?_)
      rw [hsession, List.map_append, List.append_assoc]
      exact List.perm_append_comm_assoc _ _ _

theorem Settled.accountedArranged {tenure : Tenure} {others : List (Nat × StreamMode)}
    (hsettled : tenure.Settled others) (order : TeardownOrder) :
    tenure.register.Accounted
      (ownedBy tenure.session (order.arrange tenure.streams) ++ others) := by
  have hperm := ownedBy_perm tenure.session (order.perm tenure.streams)
  exact hsettled.accounted.perm (hperm.symm.append_right others)

/-- All streams of a session are given up, one after the other. -/
theorem accounted_stopAll {register : Register} {session : Nat}
    {streams : List (UInt32 × StreamMode)} {others : List (Nat × StreamMode)}
    (haccounted : register.Accounted (ownedBy session streams ++ others)) :
    (streams.foldl (fun register (_, mode) => register.stop mode)
      register).Accounted others := by
  induction streams generalizing register with
  | nil => exact haccounted
  | cons stream streams ih =>
      obtain ⟨streamId, mode⟩ := stream
      rw [ownedBy_cons, List.append_assoc] at haccounted
      rw [List.foldl_cons]
      exact ih (accounted_stop haccounted)

end Tenure

namespace Connection

/-- At the end of a session the register loses all that the session owns. -/
theorem register_finish (connection : Connection) (policy : PolicyChain)
    (order : TeardownOrder) :
    (connection.finish policy order).2.relay.register =
      (order.arrange connection.session.state.streams).foldl
        (fun register (_, mode) => register.stop mode)
        connection.relay.register := by
  have hledger := congrArg Ledger.register (connection.ledger_finish policy order)
  refine hledger.trans ?_
  generalize order.arrange connection.session.state.streams = streams
  show _ = streams.foldl _ connection.relay.ledger.register
  generalize connection.relay.ledger = ledger
  induction streams generalizing ledger with
  | nil => rfl
  | cons stream streams ih =>
      rw [List.foldl_cons, List.foldl_cons, ih, Ledger.register_stop]

end Connection

/-! ## The books of a server -/

namespace Server

/-- What sessions own through their streams. -/
def ownedIn (sessions : List (Nat × Session)) : List (Nat × StreamMode) :=
  sessions.flatMap fun (number, session) =>
    Tenure.ownedBy number session.state.streams

/-- What is lost in an event, with the session that loses it. -/
def lostBy (server : Server) : ServerEvent → List (Nat × StreamMode)
  | .received session inbound arrival _ =>
      match server.reading? session inbound with
      | some connection => (connection.lostBy arrival).map (session, ·)
      | none => []
  | _ => []

def lost (server : Server) : List ServerEvent → List (Nat × StreamMode)
  | [] => []
  | event :: events => server.lostBy event ++ (server.step event).lost events

/-- Sessions and register agree, but for what has been lost. -/
structure Settled (server : Server) (lost : List (Nat × StreamMode)) : Prop where
  number : ∀ number session, server.sessions.get? number = some session →
    session.id = number
  streams : ∀ number session, server.sessions.get? number = some session →
    session.state.streams.keys.Nodup
  nodup : server.sessions.keys.Nodup
  below : ∀ number ∈ server.sessions.keys, number < server.nextSession
  accounted :
    server.relay.register.Accounted (ownedIn server.sessions ++ lost)

theorem ownedIn_perm {sessions others : List (Nat × Session)}
    (hperm : sessions.Perm others) :
    (ownedIn sessions).Perm (ownedIn others) :=
  (hperm.map _).flatten

variable {server : Server} {lost : List (Nat × StreamMode)}

theorem Settled.ownedIn_perm_session (hsettled : server.Settled lost)
    {number : Nat} {session : Session}
    (hsession : server.sessions.get? number = some session) :
    (ownedIn server.sessions).Perm
      (Tenure.ownedBy number session.state.streams ++
        ownedIn (server.sessions.erase number)) :=
  ownedIn_perm (Table.perm_of_get? hsettled.nodup hsession)

theorem Settled.tenure (hsettled : server.Settled lost) {number : Nat}
    {connection : Connection}
    (hconnection : server.connection? number = some connection) :
    connection.session.id = number ∧
      connection.tenure.Settled
        (ownedIn (server.sessions.erase number) ++ lost) := by
  obtain ⟨session, hsession, rfl⟩ := Option.map_eq_some_iff.mp hconnection
  have hnumber := hsettled.number number session hsession
  refine ⟨hnumber, hsettled.streams number session hsession, ?_⟩
  have hperm := hsettled.ownedIn_perm_session hsession
  have haccounted := hsettled.accounted.perm (hperm.append_right lost)
  rw [List.append_assoc, ← hnumber] at haccounted
  rw [← hnumber]
  exact haccounted

theorem Settled.afterKeep (hsettled : server.Settled lost)
    {connection : Connection} {others : List (Nat × StreamMode)}
    (hbelow : connection.session.id < server.nextSession)
    (htenure : connection.tenure.Settled
      (others ++
        (ownedIn (server.sessions.erase connection.session.id) ++ lost))) :
    (server.keep connection).Settled (others ++ lost) where
  number other session hother := by
    simp only [keep, Table.get?_put] at hother
    split at hother
    · rename_i hsame
      rw [← hsame, Option.some.inj hother]
    · exact hsettled.number other session hother
  streams other session hother := by
    simp only [keep, Table.get?_put] at hother
    split at hother
    · rw [← Option.some.inj hother]
      exact htenure.nodup
    · exact hsettled.streams other session hother
  nodup := Table.nodup_keys_put hsettled.nodup _ _
  below other hother := by
    simp only [keep, Table.keys_put] at hother
    split at hother
    · exact hsettled.below other hother
    · rcases List.mem_append.mp hother with hold | hnew
      · exact hsettled.below other hold
      · rw [List.mem_singleton.mp hnew]
        exact hbelow
  accounted := by
    have hput := ownedIn_perm
      (Table.perm_put hsettled.nodup connection.session.id connection.session)
    refine htenure.accounted.perm ?_
    refine List.Perm.trans ?_ (hput.symm.append_right (others ++ lost))
    show (_ ++ (others ++ _)).Perm ((_ ++ _) ++ (others ++ lost))
    rw [List.append_assoc]
    exact List.Perm.append_left _ (List.perm_append_comm_assoc _ _ _)

theorem Settled.below_of_connection (hsettled : server.Settled lost)
    {number : Nat} {connection : Connection}
    (hconnection : server.connection? number = some connection) :
    number < server.nextSession := by
  obtain ⟨session, hsession, -⟩ := Option.map_eq_some_iff.mp hconnection
  apply hsettled.below
  apply Decidable.byContradiction
  intro habsent
  have hnone := Table.get?_eq_none_iff.mpr habsent
  rw [hsession] at hnone
  cases hnone

theorem Settled.afterSteps (hsettled : server.Settled lost) {number : Nat}
    {before after : Connection} {forgotten : List StreamMode}
    (hconnection : server.connection? number = some before)
    (hsteps : Tenure.Steps before.tenure forgotten after.tenure) :
    (server.keep after).Settled (forgotten.map (number, ·) ++ lost) := by
  obtain ⟨hnumber, htenure⟩ := hsettled.tenure hconnection
  obtain ⟨hsession, hafter⟩ := htenure.afterSteps hsteps
  have hid : after.session.id = number := hsession.trans hnumber
  have hbefore : before.tenure.session = number := hnumber
  rw [hbefore] at hafter
  apply hsettled.afterKeep
  · rw [hid]
    exact hsettled.below_of_connection hconnection
  · rw [hid]
    exact hafter

theorem Settled.afterFlush (hsettled : server.Settled lost) (number : Nat) :
    (server.flush number).2.Settled lost := by
  unfold flush
  cases hconnection : server.connection? number with
  | none => exact hsettled
  | some connection =>
      have hflushed : Tenure.Steps connection.tenure [] connection.flush.2.tenure :=
        Tenure.Steps.refl connection.tenure
      exact hsettled.afterSteps hconnection hflushed

theorem Settled.of_same (hsettled : server.Settled lost) {other : Server}
    (hsessions : other.sessions = server.sessions)
    (hregister : other.relay.register = server.relay.register)
    (hnext : server.nextSession ≤ other.nextSession) :
    other.Settled lost where
  number := by
    rw [hsessions]
    exact hsettled.number
  streams := by
    rw [hsessions]
    exact hsettled.streams
  nodup := by
    rw [hsessions]
    exact hsettled.nodup
  below number hnumber := by
    rw [hsessions] at hnumber
    exact Nat.lt_of_lt_of_le (hsettled.below number hnumber) hnext
  accounted := by
    rw [hsessions, hregister]
    exact hsettled.accounted

theorem Settled.afterLetIn (hsettled : server.Settled lost) {number : Nat}
    (hbelow : number < server.nextSession)
    (habsent : number ∉ server.sessions.keys) :
    (server.letIn number).2.Settled lost := by
  unfold letIn
  simp only
  generalize hasked : Connection.noteAsked _ .connection _ = asked
  have hopened : asked.tenure =
      ⟨number, [], server.relay.register⟩ := by
    rw [← hasked, Connection.tenure_noteAsked]
    rfl
  have hregister : asked.relay.register = server.relay.register :=
    congrArg Tenure.register hopened
  have hid : asked.session.id = number := congrArg Tenure.session hopened
  have hserved : { server with served := server.served + 1 }.Settled lost :=
    hsettled.of_same rfl rfl (Nat.le_refl _)
  split
  · have hkept : ({ server with served := server.served + 1 }.keep
        (asked.tell .connected)).Settled ([] ++ lost) := by
      apply hserved.afterKeep
      · show asked.session.id < server.nextSession
        rw [hid]
        exact hbelow
      · show asked.tenure.Settled _
        rw [hopened]
        show Tenure.Settled _ ([] ++ (ownedIn
          (server.sessions.erase asked.session.id) ++ lost))
        rw [hid, Table.erase_of_notMem habsent]
        exact ⟨List.nodup_nil, hsettled.accounted⟩
    exact hkept
  · exact hsettled.of_same rfl hregister (Nat.le_refl _)

theorem Settled.afterAccept (hsettled : server.Settled lost)
    (canSendWithoutDelay : Bool) :
    (server.accept canSendWithoutDelay).2.Settled lost := by
  unfold accept
  simp only
  have hnumbered : { server with nextSession := server.nextSession + 1 }.Settled
      lost :=
    hsettled.of_same rfl rfl (Nat.le_succ _)
  split
  · exact hsettled
  · split
    · exact hnumbered
    · apply hnumbered.afterLetIn
      · exact Nat.lt_succ_self _
      · intro hmember
        exact Nat.lt_irrefl _ (hsettled.below _ hmember)

theorem Settled.afterEnd (hsettled : server.Settled lost) (number : Nat)
    (order : TeardownOrder) :
    (server.endSessionIn order number).2.Settled lost := by
  unfold endSessionIn
  cases hconnection : server.connection? number with
  | none => exact hsettled
  | some connection =>
      obtain ⟨hnumber, htenure⟩ := hsettled.tenure hconnection
      have herased (other : Nat) (session : Session)
          (hother : (server.sessions.erase number).get? other = some session) :
          server.sessions.get? other = some session := by
        rw [Table.get?_erase] at hother
        split at hother
        · cases hother
        · exact hother
      refine ⟨?_, ?_, ?_, ?_, ?_⟩
      · intro other session hother
        exact hsettled.number other session (herased other session hother)
      · intro other session hother
        exact hsettled.streams other session (herased other session hother)
      · exact Table.nodup_keys_erase hsettled.nodup number
      · intro other hother
        rw [Table.keys_erase] at hother
        exact hsettled.below other (List.mem_filter.mp hother).1
      · show Register.Accounted
          (connection.finish server.policy order).2.relay.register _
        rw [Connection.register_finish]
        exact Tenure.accounted_stopAll (htenure.accountedArranged order)

theorem Settled.afterReceive (hsettled : server.Settled lost) (number : Nat)
    (inbound : Inbound) (arrival : Arrival) (order : TeardownOrder) :
    (server.receiveArrival number inbound arrival order).Settled
      (server.lostBy (.received number inbound arrival order) ++ lost) := by
  simp only [receiveArrival, lostBy]
  cases hreading : server.reading? number inbound with
  | none => exact hsettled
  | some reading =>
      obtain ⟨connection, hconnection, hsame⟩ :=
        Option.map_eq_some_iff.mp hreading
      have hsteps :=
        Connection.steps_receiveArrival reading server.configuration
          server.policy arrival
      have htenure : reading.tenure = connection.tenure := by
        rw [← hsame]
        rfl
      rw [htenure] at hsteps
      have hkept := hsettled.afterSteps hconnection hsteps
      simp only
      split
      · exact hkept.afterEnd number order
      · exact hkept

theorem Settled.afterEvent (hsettled : server.Settled lost)
    (event : ServerEvent) :
    (server.step event).Settled (server.lostBy event ++ lost) := by
  cases event with
  | policyChanged policy => exact hsettled.of_same rfl rfl (Nat.le_refl _)
  | accepted canSendWithoutDelay => exact hsettled.afterAccept canSendWithoutDelay
  | received number inbound arrival order =>
      exact hsettled.afterReceive number inbound arrival order
  | flushed number => exact hsettled.afterFlush number
  | ended number order => exact hsettled.afterEnd number order

theorem Settled.afterRun (hsettled : server.Settled lost)
    (events : List ServerEvent) :
    (server.run events).Settled (server.lost events ++ lost) := by
  induction events generalizing server lost with
  | nil => exact hsettled
  | cons event events ih =>
      have hrun := ih (hsettled.afterEvent event)
      rw [run_cons]
      refine ⟨hrun.number, hrun.streams, hrun.nodup, hrun.below, ?_⟩
      refine hrun.accounted.perm (List.Perm.append_left _ ?_)
      rw [Server.lost, List.append_assoc]
      exact List.perm_append_comm_assoc _ _ _

theorem settled_ofConfiguration (configuration : ServerConfiguration)
    (policy : PolicyChain) (observers : List Observer)
    (spread : StreamPath → Nat) :
    (ofConfiguration configuration policy observers spread).Settled [] where
  number number session hsession := by cases hsession
  streams number session hsession := by cases hsession
  nodup := List.nodup_nil
  below number hnumber := by cases hnumber
  accounted := Register.accounted_empty spread configuration.relay.shardCount

theorem Settled.lists_iff_lost (hsettled : server.Settled lost) {number : Nat}
    (habsent : number ∉ server.sessions.keys) (mode : StreamMode) :
    server.relay.register.Lists number mode ↔
      (number, mode) ∈ lost ∧ server.relay.register.Matters mode := by
  have hothers : (number, mode) ∉ ownedIn server.sessions := by
    intro howned
    obtain ⟨⟨other, session⟩, hsession, hmode⟩ := List.mem_flatMap.mp howned
    obtain ⟨stream, -, hstream⟩ := List.mem_flatMap.mp hmode
    obtain ⟨second, -, hsame⟩ := List.mem_map.mp hstream
    apply habsent
    rw [← (Prod.mk.inj hsame).1]
    exact List.mem_map_of_mem hsession
  rw [hsettled.accounted.lists_iff, List.mem_append]
  simp [hothers]

theorem notMem_keys_endSessionIn (order : TeardownOrder) (number : Nat) :
    number ∉ (server.endSessionIn order number).2.sessions.keys := by
  unfold endSessionIn
  cases hconnection : server.connection? number with
  | none =>
      have hnone : server.sessions.get? number = none := by
        simpa [connection?] using hconnection
      exact Table.get?_eq_none_iff.mp hnone
  | some connection =>
      show number ∉ (server.sessions.erase number).keys
      simp [Table.keys_erase]

end Server

/-! ## What remains -/

namespace Relay

/-- The session is the publisher of a stream. -/
def HasPublisher (relay : Relay) (session : Nat) : Prop :=
  ∃ path place publication, relay.directory.get? path = some place ∧
    relay.publications[place]? = some publication ∧
    publication.session = session

/-- The session is on the list of a stream. -/
def HasSubscriber (relay : Relay) (session : Nat) : Prop :=
  ∃ publication ∈ relay.publications, ∃ place ∈ publication.subscribers,
    ∃ subscription, relay.subscriptions[place]? = some subscription ∧
      subscription.session = session

/-- The publication is found under its path. -/
def IsRegistered (relay : Relay) (place : Nat) : Prop :=
  ∃ publication, relay.publications[place]? = some publication ∧
    relay.directory.get? publication.path = some place

variable (relay : Relay)

theorem isRegistered_iff (place : Nat) :
    relay.IsRegistered place ↔ relay.register.IsCurrent place := by
  unfold IsRegistered Register.IsCurrent
  rw [getElem?_register]
  cases relay.publications[place]? with
  | none => simp
  | some publication => simp [Publication.record, register]

theorem hasPublisher_iff {owned : List (Nat × StreamMode)}
    (haccounted : relay.register.Accounted owned) (session : Nat) :
    relay.HasPublisher session ↔
      ∃ place, relay.register.Lists session (.publishing place) := by
  constructor
  · rintro ⟨path, place, publication, hplace, hpublication, hsession⟩
    obtain ⟨record, hrecord, hpath⟩ := haccounted.found path place hplace
    refine ⟨place, record, hrecord, ?_, ?_⟩
    · rw [getElem?_register, hpublication] at hrecord
      rw [← Option.some.inj hrecord]
      exact hsession
    · rw [hpath]
      exact hplace
  · rintro ⟨place, record, hrecord, hsession, hplace⟩
    rw [getElem?_register] at hrecord
    obtain ⟨publication, hpublication, rfl⟩ := Option.map_eq_some_iff.mp hrecord
    exact ⟨publication.path, place, publication, hplace, hpublication, hsession⟩

theorem hasSubscriber_iff (session : Nat) :
    relay.HasSubscriber session ↔
      ∃ place subscription,
        relay.register.Lists session (.playing place subscription) := by
  have hsubscriptions (place : Nat) :
      relay.register.subscriptions[place]? =
        relay.subscriptions[place]?.map Subscription.session := by
    simp [register]
  constructor
  · rintro ⟨publication, hpublication, place, hplace, subscription,
      hsubscription, hsession⟩
    obtain ⟨index, hindex⟩ := List.getElem?_of_mem hpublication
    refine ⟨index, place, publication.record, ?_, hplace, ?_⟩
    · rw [getElem?_register, hindex]
      rfl
    · rw [hsubscriptions, hsubscription, Option.map_some, hsession]
  · rintro ⟨index, place, record, hrecord, hplace, hsession⟩
    rw [getElem?_register] at hrecord
    obtain ⟨publication, hpublication, rfl⟩ := Option.map_eq_some_iff.mp hrecord
    rw [hsubscriptions] at hsession
    obtain ⟨subscription, hsubscription, hsame⟩ :=
      Option.map_eq_some_iff.mp hsession
    exact
      ⟨publication, List.mem_of_getElem? hpublication, place, hplace,
        subscription, hsubscription, hsame⟩

end Relay

namespace Server

/-- A session that is over leaves behind what it has lost, if that still
matters, and nothing else. -/
theorem remains_iff_lost (configuration : ServerConfiguration)
    (policy : PolicyChain) (observers : List Observer)
    (spread : StreamPath → Nat) (events : List ServerEvent) (session : Nat)
    (order : TeardownOrder) :
    let server := ofConfiguration configuration policy observers spread
    let relay := ((server.run events).endSessionIn order session).2.relay
    (relay.HasPublisher session ↔
        ∃ place, (session, .publishing place) ∈ server.lost events) ∧
      (relay.HasSubscriber session ↔
        ∃ place subscription,
          (session, .playing place subscription) ∈ server.lost events ∧
            relay.IsRegistered place) := by
  intro server relay
  have hstart := settled_ofConfiguration configuration policy observers spread
  have hrun := hstart.afterRun events
  rw [List.append_nil] at hrun
  have hended := hrun.afterEnd session order
  have hlists (mode : StreamMode) :
      relay.register.Lists session mode ↔
        (session, mode) ∈ server.lost events ∧ relay.register.Matters mode :=
    hended.lists_iff_lost (notMem_keys_endSessionIn order session) mode
  constructor
  · rw [relay.hasPublisher_iff hended.accounted]
    simp only [hlists, Register.Matters, and_true]
  · rw [relay.hasSubscriber_iff]
    simp only [hlists, Register.Matters, relay.isRegistered_iff]

/-! ## A stream that was never asked for -/

/-- A command as it comes in. -/
def commandOf (streamId : UInt32) (values : List AmfValue) : Arrival :=
  let payload := Amf0.writeItems values
  ⟨⟨3, 0, 20, streamId, payload⟩, .command streamId payload, none⟩

/-- A client publishes on stream one without asking, and asks afterwards. -/
def publishingUnasked : List ServerEvent :=
  let received (arrival : Arrival) : ServerEvent :=
    .received 1 {} arrival .asListed
  [.accepted true,
    received (commandOf 0 [.text "connect", .number .zero]),
    received (commandOf 1 [.text "publish", .number .zero, .null, .text "demo"]),
    received (commandOf 0 [.text "createStream", .number .zero])]

/-- The publisher is gone, and the stream is still there. -/
theorem hasPublisher_of_publishingUnasked :
    let server := ofConfiguration {} (.single "policy" {}) [] fun _ => 0
    let ended := (server.run publishingUnasked).endSession 1
    ended.2.relay.HasPublisher 1 := by
  exact ⟨⟨"//demo"⟩, 0, _, rfl, rfl, rfl⟩

end Server

end LiveRelay
