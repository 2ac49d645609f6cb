import LiveRelay.Proofs.GuardedConnection

/-!
# Clients cannot stop the server

A server serves many connections, lets clients in and ends their sessions in between,
and its policies change.  From its start on no chunk stream of any session ever has
more than its header asks for, so no step that it takes with the bytes of a client
comes outside its domain: each piece ends in an answer or in an error that ends the
session.
-/

namespace LiveRelay

open Partial

/-! ## All that comes in -/

/-- What comes in from clients, and what happens to a server in between. -/
inductive Traffic where
  | policyChanged (policy : PolicyChain)
  | accepted (canSendWithoutDelay : Bool)
  | received (session : Nat) (keyed : KeyedDigest) (fill : Handshake.Fill) (piece : Bytes)
  | flushed (session : Nat)
  | ended (session : Nat) (order : TeardownOrder)

namespace Server

def serve (server : Server) : Traffic → Server
  | .policyChanged policy => { server with policy := policy }
  | .accepted canSendWithoutDelay => (server.accept canSendWithoutDelay).2
  | .received session keyed fill piece => (server.receive keyed fill session piece).2
  | .flushed session => (server.flush session).2
  | .ended session order => (server.endSessionIn order session).2

def serveAll (server : Server) (traffic : List Traffic) : Server :=
  traffic.foldl serve server

def guardedReceive (server : Server) (keyed : KeyedDigest) (fill : Handshake.Fill)
    (session : Nat) (piece : Bytes) : Partial (Bytes × Server) :=
  match server.connection? session with
  | some connection => do
      let (bytes, error, connection) ←
        connection.guardedReceive server.configuration server.policy keyed fill piece
      let server := server.keep connection
      if error.isSome then
        let (last, server) := server.endSession session
        return (bytes ++ last, server)
      else return (bytes, server)
  | none => .ok ([], server)

def guardedServe (server : Server) : Traffic → Partial Server
  | .received session keyed fill piece => do
      let (_, server) ← server.guardedReceive keyed fill session piece
      return server
  | event => .ok (server.serve event)

def guardedServeAll (server : Server) (traffic : List Traffic) : Partial Server :=
  traffic.foldlM guardedServe server

/-- No chunk stream of a running session has more than its header asks for. -/
def AllUnfinished (server : Server) : Prop :=
  ∀ number session, server.sessions.get? number = some session →
    session.inbound.decoder.IsUnfinished

variable {server : Server}

theorem AllUnfinished.connection (hunfinished : server.AllUnfinished) {number : Nat}
    {connection : Connection} (hfound : server.connection? number = some connection) :
    connection.IsUnfinished := by
  obtain ⟨session, hrunning, rfl⟩ := Option.map_eq_some_iff.mp hfound
  exact hunfinished number session hrunning

theorem allUnfinished_ofConfiguration (configuration : ServerConfiguration)
    (policy : PolicyChain) (observers : List Observer) (spread : StreamPath → Nat) :
    (ofConfiguration configuration policy observers spread).AllUnfinished :=
  fun _ _ hrunning => nomatch hrunning

theorem AllUnfinished.keep (hunfinished : server.AllUnfinished) {connection : Connection}
    (hconnection : connection.IsUnfinished) : (server.keep connection).AllUnfinished := by
  intro number session hrunning
  simp only [Server.keep, Table.get?_put] at hrunning
  split at hrunning
  · cases hrunning
    exact hconnection
  · exact hunfinished number session hrunning

theorem AllUnfinished.endSessionIn (hunfinished : server.AllUnfinished)
    (order : TeardownOrder) (number : Nat) :
    (server.endSessionIn order number).2.AllUnfinished := by
  unfold Server.endSessionIn
  split
  · intro other session hrunning
    simp only [Table.get?_erase] at hrunning
    split at hrunning
    · cases hrunning
    · exact hunfinished other session hrunning
  · exact hunfinished

theorem AllUnfinished.flush (hunfinished : server.AllUnfinished) (number : Nat) :
    (server.flush number).2.AllUnfinished := by
  unfold Server.flush
  split
  · rename_i connection hfound
    have hread : connection.IsUnfinished := hunfinished.connection hfound
    have hflushed : connection.flush.2.IsUnfinished := hread
    exact hunfinished.keep hflushed
  · exact hunfinished

theorem AllUnfinished.letIn (hunfinished : server.AllUnfinished) (number : Nat) :
    (server.letIn number).2.AllUnfinished := by
  have hserved : AllUnfinished { server with served := server.served + 1 } := hunfinished
  simp only [Server.letIn, Relay.openQueue]
  split
  · exact hserved.keep (ChunkDecoder.isUnfinished_of_streams rfl)
  · exact hunfinished

theorem AllUnfinished.accept (hunfinished : server.AllUnfinished)
    (canSendWithoutDelay : Bool) :
    (server.accept canSendWithoutDelay).2.AllUnfinished := by
  have hnumbered : AllUnfinished { server with nextSession := server.nextSession + 1 } :=
    hunfinished
  unfold Server.accept
  split
  · exact hunfinished
  · simp only
    split
    · exact hnumbered
    · exact hnumbered.letIn server.nextSession

theorem AllUnfinished.receive (hunfinished : server.AllUnfinished) (keyed : KeyedDigest)
    (fill : Handshake.Fill) (number : Nat) (piece : Bytes) :
    (server.receive keyed fill number piece).2.AllUnfinished := by
  unfold Server.receive
  split
  · rename_i connection hfound
    have hkept := hunfinished.keep ((hunfinished.connection hfound).receive
      server.configuration server.policy keyed fill piece)
    generalize connection.receive _ _ _ _ _ = received at hkept ⊢
    obtain ⟨bytes, error, received⟩ := received
    simp only
    split
    · exact hkept.endSessionIn .asListed number
    · exact hkept
  · exact hunfinished

theorem AllUnfinished.serve (hunfinished : server.AllUnfinished) (event : Traffic) :
    (server.serve event).AllUnfinished := by
  cases event with
  | policyChanged policy => exact hunfinished
  | accepted canSendWithoutDelay => exact hunfinished.accept canSendWithoutDelay
  | received number keyed fill piece => exact hunfinished.receive keyed fill number piece
  | flushed number => exact hunfinished.flush number
  | ended number order => exact hunfinished.endSessionIn order number

theorem AllUnfinished.serveAll (hunfinished : server.AllUnfinished)
    (traffic : List Traffic) : (server.serveAll traffic).AllUnfinished := by
  induction traffic generalizing server with
  | nil => exact hunfinished
  | cons event traffic ih => exact ih (hunfinished.serve event)

theorem guardedReceive_eq (hunfinished : server.AllUnfinished) (keyed : KeyedDigest)
    (fill : Handshake.Fill) (number : Nat) (piece : Bytes) :
    server.guardedReceive keyed fill number piece =
      .ok (server.receive keyed fill number piece) := by
  unfold guardedReceive receive
  cases hfound : server.connection? number with
  | none => rfl
  | some connection =>
      simp only
      rw [Connection.guardedReceive_eq (hunfinished.connection hfound), ok_bind]
      obtain ⟨bytes, error, received⟩ := connection.receive _ _ _ _ _
      cases error <;> rfl

theorem guardedServe_eq (hunfinished : server.AllUnfinished) (event : Traffic) :
    server.guardedServe event = .ok (server.serve event) := by
  cases event with
  | received number keyed fill piece =>
      simp only [guardedServe, guardedReceive_eq hunfinished, ok_bind, pure_eq, serve]
  | _ => rfl

theorem guardedServeAll_eq (hunfinished : server.AllUnfinished)
    (traffic : List Traffic) :
    server.guardedServeAll traffic = .ok (server.serveAll traffic) := by
  induction traffic generalizing server with
  | nil => rfl
  | cons event traffic ih =>
      rw [guardedServeAll, List.foldlM_cons, guardedServe_eq hunfinished, ok_bind]
      exact ih (hunfinished.serve event)

end Server

/-- Clients cannot stop a server, whatever they send it in which pieces and whatever
sizes it is configured for.  None of the steps by which it takes in their bytes ever
comes outside its domain, and what comes in next for any of its sessions ends in what
the session makes of it or in the error that ends the session. -/
theorem Server.guardedServeAll_ofConfiguration (configuration : ServerConfiguration)
    (policy : PolicyChain) (observers : List Observer) (spread : StreamPath → Nat)
    (traffic : List Traffic) (session : Nat) (keyed : KeyedDigest) (fill : Handshake.Fill)
    (piece : Bytes) :
    let start := ofConfiguration configuration policy observers spread
    let server := start.serveAll traffic
    start.guardedServeAll traffic = .ok server ∧
      (server.connection? session).map
          (Connection.guardedReceive server.configuration server.policy keyed fill piece) =
        (server.connection? session).map fun connection =>
          .ok (connection.receive server.configuration server.policy keyed fill piece) := by
  intro start server
  have hstart : start.AllUnfinished :=
    allUnfinished_ofConfiguration configuration policy observers spread
  refine ⟨guardedServeAll_eq hstart traffic, Option.map_congr fun connection hfound => ?_⟩
  exact Connection.guardedReceive_eq ((hstart.serveAll traffic).connection hfound) ..

end LiveRelay
