import LiveRelay.ProtocolControl

/-!
# Inbound messages

What comes in over a connection is cut into messages.  Control messages are
acted upon before anything behind them is read, so that a new chunk size holds
from the next chunk on.  The first error ends the reading.

How the connection splits the bytes does not matter: bytes that do not make up
a whole chunk wait for what follows them.
-/

namespace LiveRelay

/-- A message that has come in, and the answer that it asks for. -/
structure Arrival where
  wire : WireMessage
  message : Message
  reply : Option Message

structure Inbound where
  decoder : ChunkDecoder := {}
  control : ProtocolControl := {}
  /-- Bytes that were not read yet. -/
  unread : Bytes := []

namespace Inbound

/-- A message off the wire is read and, if it is a control message, acted
upon. -/
def accept (inbound : Inbound) (wire : WireMessage) :
    Except Error Arrival × Inbound :=
  match Message.read wire with
  | .error error => (.error error, inbound)
  | .ok message =>
      match inbound.control.handle inbound.decoder message with
      | .error error => (.error (.protocol error), inbound)
      | .ok (reply, control, decoder) =>
          (.ok ⟨wire, message, reply⟩,
            { inbound with control := control, decoder := decoder })

/-- The next message, `none` if it is not complete. -/
def next (inbound : Inbound) : Except Error (Option Arrival) × Inbound :=
  let (taken, decoder, unread) := inbound.decoder.decode inbound.unread
  let inbound := { inbound with decoder := decoder, unread := unread }
  match taken with
  | .error error => (.error (.protocol error), inbound)
  | .ok none => (.ok none, inbound)
  | .ok (some wire) =>
      let (accepted, inbound) := inbound.accept wire
      (accepted.map some, inbound)

theorem length_decode {decoder next : ChunkDecoder} {buffer rest : Bytes}
    {message : WireMessage}
    (hdecode : decoder.decode buffer = (.ok (some message), next, rest)) :
    rest.length < buffer.length := by
  fun_induction ChunkDecoder.decode decoder buffer with
  | case1 decoder buffer skipped middle htaken ih =>
      have := ih hdecode
      have := ChunkDecoder.length_takeChunk htaken
      omega
  | case2 decoder buffer found skipped middle htaken =>
      have := ChunkDecoder.length_takeChunk htaken
      simp only [Prod.mk.injEq] at hdecode
      rw [← hdecode.2.2]
      exact this
  | case3 => simp at hdecode
  | case4 => simp at hdecode

theorem unread_accept (inbound : Inbound) (wire : WireMessage) :
    (inbound.accept wire).2.unread = inbound.unread := by
  unfold accept
  split
  · rfl
  · split <;> rfl

/-- A message that is handed out leaves fewer unread bytes. -/
theorem length_next {inbound after : Inbound} {arrival : Arrival}
    (hnext : inbound.next = (.ok (some arrival), after)) :
    after.unread.length < inbound.unread.length := by
  unfold next at hnext
  split at hnext
  rename_i taken decoder unread hdecode
  cases taken with
  | error error => simp at hnext
  | ok found =>
      cases found with
      | none => simp at hnext
      | some wire =>
          have hlength := length_decode hdecode
          simp only [Prod.mk.injEq] at hnext
          rw [← hnext.2, unread_accept]
          exact hlength

/-- What the unread bytes hold: the messages, the error that ends them if one
does, and what is left. -/
structure Outcome where
  arrivals : List Arrival
  error : Option Error
  inbound : Inbound

/-- All messages, put before those already taken, last first. -/
def drainOnto (inbound : Inbound) (done : List Arrival) : Outcome :=
  match _hnext : inbound.next with
  | (.ok (some arrival), after) => after.drainOnto (arrival :: done)
  | (.ok none, after) => ⟨done.reverse, none, after⟩
  | (.error error, after) => ⟨done.reverse, some error, after⟩
termination_by inbound.unread.length
decreasing_by exact length_next _hnext

def drain (inbound : Inbound) : Outcome :=
  inbound.drainOnto []

/-- What is read when a piece of bytes has come in. -/
def feed (inbound : Inbound) (piece : Bytes) : Outcome :=
  { inbound with unread := inbound.unread ++ piece }.drain

end Inbound

end LiveRelay
