import LiveRelay.Connection
import LiveRelay.Proofs.Register

/-!
# What a session holds

The tenure of a session is what its streams do together with the register.
However a message is handled, the tenure passes through a few kinds of steps: a
stream that does something gives it up, a stream that does nothing publishes or
plays, or a stream number is handed out.

Handing out a number is where something can be lost.  The stream with that
number is idle from then on, and what it did before is not given up.
-/

namespace LiveRelay

/-- A stream that does nothing owns nothing. -/
def StreamMode.owned : StreamMode → List StreamMode
  | .idle => []
  | mode => [mode]

structure Tenure where
  session : Nat
  streams : Table UInt32 StreamMode
  register : Register

namespace Tenure

/-- What a stream does; a stream that is not known does nothing. -/
def mode (tenure : Tenure) (streamId : UInt32) : StreamMode :=
  (tenure.streams.get? streamId).getD .idle

def put (tenure : Tenure) (streamId : UInt32) (mode : StreamMode) : Tenure :=
  { tenure with streams := tenure.streams.put streamId mode }

def stop (tenure : Tenure) (mode : StreamMode) : Tenure :=
  { tenure with register := tenure.register.stop mode }

/-- One step, with what is lost in it. -/
inductive Step : Tenure → List StreamMode → Tenure → Prop
  | allocated (tenure : Tenure) (streamId : UInt32) :
      Step tenure (tenure.mode streamId).owned (tenure.put streamId .idle)
  | closed (tenure : Tenure) (streamId : UInt32) :
      Step tenure []
        ((tenure.put streamId .idle).stop (tenure.mode streamId))
  | deleted (tenure : Tenure) (streamId : UInt32) :
      Step tenure []
        ({ tenure with streams := tenure.streams.erase streamId }.stop
          (tenure.mode streamId))
  | published (tenure : Tenure) (streamId : UInt32) (path : StreamPath)
      (hidle : tenure.mode streamId = .idle)
      (hfree : tenure.register.directory.get? path = none) :
      Step tenure []
        { tenure with
          streams :=
            tenure.streams.put streamId
              (.publishing tenure.register.publications.length)
          register := tenure.register.publish path tenure.session }
  | played (tenure : Tenure) (streamId : UInt32) (path : StreamPath)
      (place : Nat) (hidle : tenure.mode streamId = .idle)
      (hplace : tenure.register.directory.get? path = some place) :
      Step tenure []
        { tenure with
          streams :=
            tenure.streams.put streamId
              (.playing place tenure.register.subscriptions.length)
          register := tenure.register.subscribe place tenure.session }

/-- Steps in a row, with all that is lost in them. -/
inductive Steps : Tenure → List StreamMode → Tenure → Prop
  | refl (tenure : Tenure) : Steps tenure [] tenure
  | head {first second last : Tenure} {lost others : List StreamMode}
      (hstep : Step first lost second) (hsteps : Steps second others last) :
      Steps first (lost ++ others) last

theorem Step.steps {first last : Tenure} {lost : List StreamMode}
    (hstep : Step first lost last) : Steps first lost last := by
  have hsteps := Steps.head hstep (Steps.refl last)
  rwa [List.append_nil] at hsteps

theorem Steps.trans {first second last : Tenure} {lost others : List StreamMode}
    (hfirst : Steps first lost second) (hsecond : Steps second others last) :
    Steps first (lost ++ others) last := by
  induction hfirst with
  | refl => exact hsecond
  | head hstep _ ih =>
      rw [List.append_assoc]
      exact Steps.head hstep (ih hsecond)

end Tenure

namespace Connection

def tenure (connection : Connection) : Tenure :=
  ⟨connection.session.id, connection.session.state.streams,
    connection.relay.register⟩

/-- What is lost when a stream number is handed out. -/
def lostByAllocation (connection : Connection) : List StreamMode :=
  (connection.tenure.mode connection.session.state.nextStreamId).owned

/-- What is lost when a command takes effect. -/
def lostByRun (called : CommandCall) (connection : Connection) :
    List StreamMode :=
  match called.command with
  | .createStream => connection.lostByAllocation
  | _ => []

/-- What is lost when a command is handled. -/
def lostByCall (called : CommandCall) (connection : Connection) :
    List StreamMode :=
  if connection.session.state.isConnected then connection.lostByRun called
  else []

/-- What is lost when a message is handled. -/
def lostBy (arrival : Arrival) (connection : Connection) : List StreamMode :=
  match arrival.message with
  | .command streamId payload =>
      match CommandCall.read streamId payload with
      | .ok (some called) => connection.lostByCall called
      | _ => []
  | _ => []

end Connection

end LiveRelay
