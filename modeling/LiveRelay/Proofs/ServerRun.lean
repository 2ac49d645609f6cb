import LiveRelay.Server

/-!
# Runs of a server

A server is followed message by message.  What its readers make of the bytes
does not matter here, so each message comes with the reader that is left behind
it.  The answers of policies may change from one event to the next.  A session
ends at its first error or at any other time, and gives up its streams in any
order.  Events of sessions that are not running change nothing.
-/

namespace LiveRelay

inductive ServerEvent where
  | policyChanged (policy : PolicyChain)
  | accepted (canSendWithoutDelay : Bool)
  /-- The order is the one in which the session ends if the message ends it. -/
  | received (session : Nat) (inbound : Inbound) (arrival : Arrival)
      (order : TeardownOrder)
  | flushed (session : Nat)
  | ended (session : Nat) (order : TeardownOrder)

namespace Server

/-- The connection with a session once a message has been read. -/
def reading? (server : Server) (session : Nat) (inbound : Inbound) :
    Option Connection :=
  (server.connection? session).map fun connection =>
    let session := { connection.session with inbound := inbound }
    { connection with session := session }.countMessage

def receiveArrival (server : Server) (session : Nat) (inbound : Inbound)
    (arrival : Arrival) (order : TeardownOrder) : Server :=
  match server.reading? session inbound with
  | some connection =>
      let (error, connection) :=
        connection.receiveArrival server.configuration server.policy arrival
      let server := server.keep connection
      if error.isSome then (server.endSessionIn order session).2 else server
  | none => server

def step (server : Server) : ServerEvent → Server
  | .policyChanged policy => { server with policy := policy }
  | .accepted canSendWithoutDelay => (server.accept canSendWithoutDelay).2
  | .received session inbound arrival order =>
      server.receiveArrival session inbound arrival order
  | .flushed session => (server.flush session).2
  | .ended session order => (server.endSessionIn order session).2

def run (server : Server) (events : List ServerEvent) : Server :=
  events.foldl step server

theorem run_cons (server : Server) (event : ServerEvent)
    (events : List ServerEvent) :
    server.run (event :: events) = (server.step event).run events := rfl

theorem run_append (server : Server) (events others : List ServerEvent) :
    server.run (events ++ others) = (server.run events).run others :=
  List.foldl_append

variable {server : Server} {number : Nat} {inbound : Inbound} {connection : Connection}

/-- What a connection was before its last message was read. -/
theorem session_of_reading (hreading : server.reading? number inbound = some connection) :
    ∃ session, server.sessions.get? number = some session ∧
      connection.session.context = session.context ∧
      connection.session.state.isConnected = session.state.isConnected ∧
      connection.session.state.streams = session.state.streams ∧
      connection.relay = server.relay := by
  obtain ⟨found, hfound, rfl⟩ := Option.map_eq_some_iff.mp hreading
  obtain ⟨session, hsession, rfl⟩ := Option.map_eq_some_iff.mp hfound
  exact ⟨session, hsession, rfl, rfl, rfl, rfl⟩

theorem step_received (hreading : server.reading? number inbound = some connection)
    (arrival : Arrival) (order : TeardownOrder) :
    let outcome :=
      connection.receiveArrival server.configuration server.policy arrival
    let kept := server.keep outcome.2
    server.step (.received number inbound arrival order) =
      if outcome.1.isSome then (kept.endSessionIn order number).2 else kept := by
  simp only [step, receiveArrival, hreading]

end Server

end LiveRelay
