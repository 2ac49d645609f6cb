import LiveRelay.Proofs.OwnHoldings
import LiveRelay.Proofs.ServerRun

/-!
# Sessions do not interfere

Each session keeps to its own.  Running sessions have different queues, and each
subscription sends to the queue of its own session.  The audience of a session
are therefore the sessions that play what it publishes, and to every other one
nothing happens at all.
-/

namespace LiveRelay

/-! ## All sessions -/

/-- What a session does, or what is done to it. -/
inductive SessionAct where
  /-- A message is handled.  The reader is the one that is left behind it, and the
  order is the one in which the session ends if the message ends it. -/
  | message (inbound : Inbound) (arrival : Arrival) (order : TeardownOrder)
  /-- A piece of bytes comes in, which may hold any number of messages. -/
  | bytes (keyed : KeyedDigest) (fill : Handshake.Fill) (piece : Bytes)
  | flush
  | leave (order : TeardownOrder)

/-- What happens to a server. -/
inductive Occurrence where
  | policyChanged (policy : PolicyChain)
  | accepted (canSendWithoutDelay : Bool)
  | acted (session : Nat) (act : SessionAct)

/-- A message has been read and is handled. -/
theorem Connection.keepsToOwn_reading {session : Session} {relay : Relay}
    (hown : HoldsOwn ⟨session, relay⟩) (inbound : Inbound) (configuration : ServerConfiguration)
    (policy : PolicyChain) (arrival : Arrival) :
    KeepsToOwn ⟨session, relay⟩
      ((countMessage ⟨{ session with inbound := inbound }, relay⟩).receiveArrival configuration
        policy arrival).2 := by
  have hread := keepsToOwn_of_session hown { session with inbound := inbound } rfl rfl fun _ => .inl
  have hcounted := hread.trans (keepsToOwn_countMessage hread.holdsOwn)
  exact hcounted.trans (keepsToOwn_receiveArrival hcounted.holdsOwn configuration policy arrival)

namespace Server

def act (server : Server) (session : Nat) : SessionAct → Server
  | .message inbound arrival order => server.receiveArrival session inbound arrival order
  | .bytes keyed fill piece => (server.receive keyed fill session piece).2
  | .flush => (server.flush session).2
  | .leave order => (server.endSessionIn order session).2

def after (server : Server) : Occurrence → Server
  | .policyChanged policy => { server with policy := policy }
  | .accepted canSendWithoutDelay => (server.accept canSendWithoutDelay).2
  | .acted session act => server.act session act

def afterAll (server : Server) (occurrences : List Occurrence) : Server :=
  occurrences.foldl after server

/-- Sessions hold what is theirs, on queues of their own. -/
structure Apart (server : Server) : Prop where
  id_eq : ∀ number session, server.sessions.get? number = some session →
    session.id = number
  holdsOwn : ∀ number session, server.sessions.get? number = some session →
    Connection.HoldsOwn ⟨session, server.relay⟩
  queue_lt : ∀ number session, server.sessions.get? number = some session →
    session.queue < server.relay.queues.length
  queue_ne : ∀ number session other running,
    server.sessions.get? number = some session → server.sessions.get? other = some running →
      session.queue = running.queue → number = other
  seat_lt : ∀ place owner queue, server.relay.seat? place = some (owner, queue) →
    queue < server.relay.queues.length
  owner_eq : ∀ place owner queue, server.relay.seat? place = some (owner, queue) →
    ∀ number session, server.sessions.get? number = some session →
      session.queue = queue → owner = number

variable {before after server : Server} {number : Nat}

/-! ## What a session does -/

/-- A running session has become this connection, or has ended with it, and all
other sessions run on as they were. -/
structure ActsAs (number : Nat) (before after : Server) (session : Session)
    (connection : Connection) : Prop where
  running : before.sessions.get? number = some session
  keepsToOwn : Connection.KeepsToOwn ⟨session, before.relay⟩ connection
  relay_eq : after.relay = connection.relay
  others_eq : ∀ other, other ≠ number →
    after.sessions.get? other = before.sessions.get? other
  own_eq : after.sessions.get? number = some connection.session ∨
    after.sessions.get? number = none

theorem own_keep {session : Session} {connection : Connection}
    (hapart : server.Apart) (hrunning : server.sessions.get? number = some session)
    (hkeeps : Connection.KeepsToOwn ⟨session, server.relay⟩ connection) :
    (server.keep connection).sessions.get? number = some connection.session := by
  have hid : connection.session.id = number :=
    hkeeps.id_eq.trans (hapart.id_eq number session hrunning)
  show (server.sessions.put connection.session.id connection.session).get? number = _
  rw [Table.get?_put, if_pos hid]

theorem actsAs_keep {session : Session} {connection : Connection}
    (hapart : server.Apart) (hrunning : server.sessions.get? number = some session)
    (hkeeps : Connection.KeepsToOwn ⟨session, server.relay⟩ connection) :
    ActsAs number server (server.keep connection) session connection := by
  have hid : connection.session.id = number :=
    hkeeps.id_eq.trans (hapart.id_eq number session hrunning)
  refine ⟨hrunning, hkeeps, rfl, fun other hother => ?_,
    .inl (own_keep hapart hrunning hkeeps)⟩
  show (server.sessions.put connection.session.id connection.session).get? other = _
  rw [hid, Table.get?_put, if_neg hother.symm]

/-- A session that has done something may end with it. -/
theorem ActsAs.ended {session : Session} {connection : Connection}
    (hacts : ActsAs number before after session connection)
    (hown : after.sessions.get? number = some connection.session) (order : TeardownOrder) :
    ActsAs number before (after.endSessionIn order number).2 session
      (connection.finish after.policy order).2 := by
  have hsame : (⟨connection.session, after.relay⟩ : Connection) = connection := by
    rw [hacts.relay_eq]
  simp only [endSessionIn, connection?, hown, Option.map_some, hsame]
  refine ⟨hacts.running, hacts.keepsToOwn.trans
    (Connection.keepsToOwn_finish hacts.keepsToOwn.holdsOwn _ order), rfl,
    fun other hother => ?_, .inr ?_⟩
  · rw [Table.get?_erase, if_neg hother.symm, hacts.others_eq other hother]
  · rw [Table.get?_erase, if_pos rfl]

/-- Whatever a running session does, it keeps to its own. -/
theorem exists_actsAs (hapart : server.Apart) {session : Session}
    (hrunning : server.sessions.get? number = some session) (act : SessionAct) :
    ∃ connection, ActsAs number server (server.act number act) session connection := by
  have hown := hapart.holdsOwn number session hrunning
  have hfound : server.connection? number = some ⟨session, server.relay⟩ := by
    simp [connection?, hrunning]
  cases act with
  | message inbound arrival order =>
      have hreceived := Connection.keepsToOwn_reading hown inbound server.configuration
        server.policy arrival
      have hkept := actsAs_keep hapart hrunning hreceived
      simp only [act, receiveArrival, reading?, hfound, Option.map_some]
      split
      · exact ⟨_, hkept.ended (own_keep hapart hrunning hreceived) order⟩
      · exact ⟨_, hkept⟩
  | bytes keyed fill piece =>
      have hreceived := Connection.keepsToOwn_receive hown server.configuration
        server.policy keyed fill piece
      have hkept := actsAs_keep hapart hrunning hreceived
      simp only [act, receive, hfound]
      split
      · exact ⟨_, hkept.ended (own_keep hapart hrunning hreceived) .asListed⟩
      · exact ⟨_, hkept⟩
  | flush =>
      have hflushed := actsAs_keep hapart hrunning (Connection.keepsToOwn_flush hown)
      simp only [act, flush, hfound]
      exact ⟨_, hflushed⟩
  | leave order =>
      have hfirst : ActsAs number server server session ⟨session, server.relay⟩ :=
        ⟨hrunning, .refl hown, rfl, fun _ _ => rfl, .inl hrunning⟩
      exact ⟨_, hfirst.ended hrunning order⟩

/-! ## Sessions stay apart -/

/-- A session that still runs has the queue that it had. -/
theorem ActsAs.exists_before {session : Session} {connection : Connection}
    (hacts : ActsAs number before after session connection) {other : Nat}
    {running : Session} (hrunning : after.sessions.get? other = some running) :
    ∃ earlier, before.sessions.get? other = some earlier ∧
      running.queue = earlier.queue ∧ running.id = earlier.id := by
  by_cases hother : other = number
  · subst hother
    rcases hacts.own_eq with hkept | hgone
    · rw [hkept] at hrunning
      obtain rfl := Option.some.inj hrunning
      exact ⟨session, hacts.running, hacts.keepsToOwn.queue_eq, hacts.keepsToOwn.id_eq⟩
    · rw [hgone] at hrunning
      cases hrunning
  · rw [hacts.others_eq other hother] at hrunning
    exact ⟨running, hrunning, rfl, rfl⟩

theorem ActsAs.apart {session : Session} {connection : Connection}
    (hacts : ActsAs number before after session connection) (hapart : before.Apart) :
    after.Apart := by
  have hkeeps := hacts.keepsToOwn.keepsTo
  rw [← hacts.relay_eq] at hkeeps
  have hid : session.id = number := hapart.id_eq number session hacts.running
  refine ⟨fun other running hrunning => ?_, fun other running hrunning => ?_,
    fun other running hrunning => ?_, fun first one second two hfirst hsecond hsame => ?_,
    fun place owner queue hseat => ?_, fun place owner queue hseat other running hrunning
      hqueue => ?_⟩
  · obtain ⟨earlier, hearlier, -, hsame⟩ := hacts.exists_before hrunning
    exact hsame.trans (hapart.id_eq other earlier hearlier)
  · by_cases hother : other = number
    · subst hother
      rcases hacts.own_eq with hkept | hgone
      · rw [hkept] at hrunning
        rw [← Option.some.inj hrunning, hacts.relay_eq]
        exact hacts.keepsToOwn.holdsOwn
      · rw [hgone] at hrunning
        cases hrunning
    · rw [hacts.others_eq other hother] at hrunning
      exact fun entry hentry =>
        (hapart.holdsOwn other running hrunning entry hentry).after hkeeps
  · obtain ⟨earlier, hearlier, hqueue, -⟩ := hacts.exists_before hrunning
    rw [hqueue, hkeeps.length_queues]
    exact hapart.queue_lt other earlier hearlier
  · obtain ⟨earlier, hearlier, hqueue, -⟩ := hacts.exists_before hfirst
    obtain ⟨former, hformer, hother, -⟩ := hacts.exists_before hsecond
    rw [hqueue, hother] at hsame
    exact hapart.queue_ne first earlier second former hearlier hformer hsame
  · rw [hkeeps.length_queues]
    rcases hkeeps.seat_eq place with hsame | ⟨-, hnew⟩
    · rw [hsame] at hseat
      exact hapart.seat_lt place owner queue hseat
    · rw [hnew] at hseat
      rw [← (Prod.mk.inj (Option.some.inj hseat)).2]
      exact hapart.queue_lt number session hacts.running
  · obtain ⟨earlier, hearlier, hsame, -⟩ := hacts.exists_before hrunning
    rw [hsame] at hqueue
    rcases hkeeps.seat_eq place with hkept | ⟨-, hnew⟩
    · rw [hkept] at hseat
      exact hapart.owner_eq place owner queue hseat other earlier hearlier hqueue
    · rw [hnew] at hseat
      have hboth := Prod.mk.inj (Option.some.inj hseat)
      rw [← hboth.1, hid]
      exact hapart.queue_ne number session other earlier hacts.running hearlier
        (hboth.2.trans hqueue.symm)

/-- What is done by a session that does not run changes nothing. -/
theorem act_of_absent (habsent : server.sessions.get? number = none) (act : SessionAct) :
    server.act number act = server := by
  cases act <;>
    simp [Server.act, receiveArrival, reading?, receive, flush, endSessionIn, connection?,
      habsent]

theorem Apart.afterAct (hapart : server.Apart) (number : Nat) (act : SessionAct) :
    (server.act number act).Apart := by
  cases hrunning : server.sessions.get? number with
  | none => rwa [act_of_absent hrunning]
  | some session =>
      obtain ⟨connection, hacts⟩ := exists_actsAs hapart hrunning act
      exact hacts.apart hapart

/-- A new queue is one that nobody sends to, and a new session does nothing yet. -/
theorem Apart.afterOpening (hapart : server.Apart) {opened : Server} {log : List Notice}
    (hrelay : opened.relay =
      { server.relay with queues := server.relay.queues ++ [{}], log := log })
    (fresh : Nat)
    (hsessions : ∀ number running, opened.sessions.get? number = some running →
      server.sessions.get? number = some running ∨
        number = fresh ∧ running.id = number ∧
          running.queue = server.relay.queues.length ∧ running.state.streams = []) :
    opened.Apart := by
  have hlength : opened.relay.queues.length = server.relay.queues.length + 1 := by
    simp [hrelay]
  have hseat : opened.relay.seat? = server.relay.seat? := by
    rw [hrelay]
    rfl
  refine ⟨fun number running hrunning => ?_, fun number running hrunning => ?_,
    fun number running hrunning => ?_, fun first one second two hfirst hsecond hsame => ?_,
    fun place owner queue hplace => ?_, fun place owner queue hplace number running hrunning
      hqueue => ?_⟩
  · rcases hsessions number running hrunning with hold | ⟨-, hid, -⟩
    · exact hapart.id_eq number running hold
    · exact hid
  · rcases hsessions number running hrunning with hold | ⟨-, -, -, hnone⟩
    · have hown := hapart.holdsOwn number running hold
      rw [hrelay]
      exact hown
    · intro entry hentry
      rw [hnone] at hentry
      cases hentry
  · rw [hlength]
    rcases hsessions number running hrunning with hold | ⟨-, -, hqueue, -⟩
    · exact Nat.lt_succ_of_lt (hapart.queue_lt number running hold)
    · omega
  · rcases hsessions first one hfirst with hold | ⟨hnew, -, hqueue, -⟩
    · rcases hsessions second two hsecond with hother | ⟨-, -, hqueue, -⟩
      · exact hapart.queue_ne first one second two hold hother hsame
      · have := hapart.queue_lt first one hold
        omega
    · rcases hsessions second two hsecond with hother | ⟨hsecondNew, -⟩
      · have := hapart.queue_lt second two hother
        omega
      · rw [hnew, hsecondNew]
  · rw [hseat] at hplace
    have := hapart.seat_lt place owner queue hplace
    omega
  · rw [hseat] at hplace
    rcases hsessions number running hrunning with hold | ⟨-, -, hnew, -⟩
    · exact hapart.owner_eq place owner queue hplace number running hold hqueue
    · have := hapart.seat_lt place owner queue hplace
      omega

theorem Apart.afterLetIn (hapart : server.Apart) (number : Nat) :
    (server.letIn number).2.Apart := by
  simp only [letIn, Relay.openQueue]
  generalize hasked : Connection.noteAsked _ _ _ = asked
  obtain ⟨log, hlog⟩ := Connection.exists_log_noteAsked _ _ _
  rw [hasked] at hlog
  subst hlog
  split
  · refine hapart.afterOpening rfl number fun other running hrunning => ?_
    simp only [keep, Connection.tell, Session.id, Table.get?_put] at hrunning
    split at hrunning
    · rename_i hsame
      obtain rfl := Option.some.inj hrunning
      exact .inr ⟨hsame.symm, hsame, rfl, rfl⟩
    · exact .inl hrunning
  · exact hapart.afterOpening rfl number fun other running hrunning => .inl hrunning

theorem Apart.afterOccurrence (hapart : server.Apart) (occurrence : Occurrence) :
    (server.after occurrence).Apart := by
  cases occurrence with
  | policyChanged policy =>
      exact ⟨hapart.id_eq, hapart.holdsOwn, hapart.queue_lt, hapart.queue_ne,
        hapart.seat_lt, hapart.owner_eq⟩
  | accepted canSendWithoutDelay =>
      have hnumbered : Apart { server with nextSession := server.nextSession + 1 } :=
        ⟨hapart.id_eq, hapart.holdsOwn, hapart.queue_lt, hapart.queue_ne,
          hapart.seat_lt, hapart.owner_eq⟩
      simp only [Server.after, accept]
      split
      · exact hapart
      · split
        · exact hnumbered
        · exact hnumbered.afterLetIn _
  | acted session act => exact hapart.afterAct session act

theorem Apart.afterAll (hapart : server.Apart) (occurrences : List Occurrence) :
    (server.afterAll occurrences).Apart := by
  induction occurrences generalizing server with
  | nil => exact hapart
  | cons occurrence occurrences ih => exact ih (hapart.afterOccurrence occurrence)

theorem apart_ofConfiguration (configuration : ServerConfiguration) (policy : PolicyChain)
    (observers : List Observer) (spread : StreamPath → Nat) :
    (ofConfiguration configuration policy observers spread).Apart where
  id_eq _ _ hrunning := by cases hrunning
  holdsOwn _ _ hrunning := by cases hrunning
  queue_lt _ _ hrunning := by cases hrunning
  queue_ne _ _ _ _ hrunning := by cases hrunning
  seat_lt _ _ _ hseat := by cases hseat
  owner_eq _ _ _ hseat := by cases hseat

/-! ## What the others see of it -/

/-- A session keeps to its own, and no other running session has its queue. -/
theorem Apart.exists_keepsTo (hapart : server.Apart) (number : Nat) (act : SessionAct) :
    ∃ queue,
      server.relay.KeepsTo number queue (server.relay.IsAudience number)
          (server.act number act).relay ∧
        (∀ other, other ≠ number →
          (server.act number act).sessions.get? other = server.sessions.get? other) ∧
        ∀ other running, other ≠ number → server.sessions.get? other = some running →
          running.queue ≠ queue := by
  cases hrunning : server.sessions.get? number with
  | none =>
      rw [act_of_absent hrunning]
      refine ⟨server.relay.queues.length, .refl _ _ _ _, fun _ _ => rfl,
        fun other running _ hother => ?_⟩
      exact Nat.ne_of_lt (hapart.queue_lt other running hother)
  | some session =>
      obtain ⟨connection, hacts⟩ := exists_actsAs hapart hrunning act
      have hkeeps := hacts.keepsToOwn.keepsTo
      have hid : session.id = number := hapart.id_eq number session hrunning
      rw [← hacts.relay_eq] at hkeeps
      simp only [hid] at hkeeps
      refine ⟨session.queue, hkeeps, hacts.others_eq, fun other running hne hother hsame => ?_⟩
      exact hne (hapart.queue_ne other running number session hother hrunning hsame)

end Server

/-- Sessions do not interfere, however a server came to be as it is.  Whatever a
session does or has done to it, by a message of any kind, by any bytes or by its
end, the publications of other sessions stay as they are but for its own places on
their lists, under the paths they had.  Other sessions do not change at all, and
the terms of their subscriptions do not.  Nothing comes to the queue of another
session or goes from it unless that session has a subscription on the list of a
publication of the acting one. -/
theorem Server.act_leaves_others (configuration : ServerConfiguration)
    (policy : PolicyChain) (observers : List Observer) (spread : StreamPath → Nat)
    (occurrences : List Occurrence) (session : Nat) (act : SessionAct) :
    let before :=
      (ofConfiguration configuration policy observers spread).afterAll occurrences
    let after := before.act session act
    (∀ (place : Nat) (publication : Publication),
      before.relay.publications[place]? = some publication →
      publication.session ≠ session →
        (∃ subscribers,
          after.relay.publications[place]? =
              some { publication with subscribers := subscribers } ∧
            subscribers.filter (after.relay.isOthers session) =
              publication.subscribers.filter (before.relay.isOthers session)) ∧
        ∀ path, after.relay.directory.get? path = some place ↔
          before.relay.directory.get? path = some place) ∧
      (∀ other, other ≠ session →
        after.sessions.get? other = before.sessions.get? other) ∧
      (∀ (place : Nat) (subscription : Subscription),
        before.relay.subscriptions[place]? = some subscription →
        subscription.session ≠ session →
          ∃ hasEnded dropped, after.relay.subscriptions[place]? =
            some { subscription with hasEnded := hasEnded, dropped := dropped }) ∧
      ∀ other running, before.sessions.get? other = some running → other ≠ session →
        after.relay.queues[running.queue]? ≠ before.relay.queues[running.queue]? →
          ∃ (place : Nat) (publication : Publication),
            before.relay.publications[place]? = some publication ∧
              publication.session = session ∧
              before.relay.hasSubscriber publication other = true := by
  intro before after
  have hapart : before.Apart :=
    (apart_ofConfiguration configuration policy observers spread).afterAll occurrences
  obtain ⟨queue, hkeeps, hothers, hqueues⟩ := hapart.exists_keepsTo session act
  refine ⟨fun place publication hfound hother => ⟨hkeeps.publication hfound hother, ?_⟩,
    hothers, fun place subscription hfound hother => hkeeps.subscription hfound hother, ?_⟩
  · exact hkeeps.registration
      (by simp [Relay.publisher?, hfound] : before.relay.publisher? place = _) hother
  · intro other running hrunning hother hchanged
    by_cases haudience : before.relay.IsAudience session running.queue
    · obtain ⟨place, publication, hfound, hown, subscriber, hlisted, owner, hseat⟩ :=
        haudience
      have howner : owner = other :=
        hapart.owner_eq subscriber owner running.queue hseat other running hrunning rfl
      refine ⟨place, publication, hfound, hown, ?_⟩
      obtain ⟨subscription, hsubscription, hsame⟩ := Option.map_eq_some_iff.mp hseat
      have hsession : subscription.session = other :=
        (congrArg Prod.fst hsame).trans howner
      exact List.any_eq_true.mpr ⟨subscriber, hlisted, by simp [hsubscription, hsession]⟩
    · exact absurd (hkeeps.queue_eq _ (hqueues other running hother hrunning) haudience)
        hchanged

end LiveRelay
