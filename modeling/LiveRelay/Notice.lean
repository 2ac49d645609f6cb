import LiveRelay.MediaFrame
import LiveRelay.Policy

/-!
# Notices

What happens on a server is told to those who watch it: the questions that
policies are asked, the events in the life of sessions and streams, and, to
observers, the media of all streams.  The notices form one list, in the order
in which they were given.
-/

namespace LiveRelay

inductive SessionEvent where
  | connected
  | handshakeCompleted
  | disconnected
  | published (path : StreamPath) (arguments : StreamArguments)
  | unpublished (path : StreamPath)
  | subscribed (path : StreamPath) (arguments : StreamArguments)
  | unsubscribed (path : StreamPath)
  | describedStream (path : StreamPath) (metadata : Properties)

namespace SessionEvent

/-- What an event is called where notices are written down. -/
def name : SessionEvent → String
  | .connected => "client_connected"
  | .handshakeCompleted => "handshake_complete"
  | .disconnected => "client_disconnected"
  | .published .. => "published"
  | .unpublished _ => "unpublished"
  | .subscribed .. => "subscribed"
  | .unsubscribed _ => "unsubscribed"
  | .describedStream .. => "metadata"

/-- The stream that an event is about. -/
def path? : SessionEvent → Option StreamPath
  | .published path _ => some path
  | .unpublished path => some path
  | .subscribed path _ => some path
  | .unsubscribed path => some path
  | .describedStream path _ => some path
  | _ => none

def arguments? : SessionEvent → Option StreamArguments
  | .published _ arguments => some arguments
  | .subscribed _ arguments => some arguments
  | _ => none

def metadata? : SessionEvent → Option Properties
  | .describedStream _ metadata => some metadata
  | _ => none

end SessionEvent

inductive Observation where
  | header (kind : MediaKind) (payload : Bytes)
  /-- The claims are those at that moment, the observer's own included. -/
  | keyFrame (kind : MediaKind) (payload : Bytes) (timestamp : UInt32)
      (claims : Nat)
  | groupCleared
  | frame (kind : MediaKind) (payload : Bytes) (timestamp : UInt32)
      (isSkippable : Bool)
  deriving DecidableEq, Repr

/-- Someone who is shown the media of all streams. -/
structure Observer where
  name : String
  /-- Whether the claims on key frames are kept. -/
  keeps : Bool := false
  deriving DecidableEq, Inhabited, Repr

inductive Notice where
  | asked (name : String) (context : SessionContext) (question : Question)
  | event (context : SessionContext) (event : SessionEvent)
  | observed (observer : String) (path : StreamPath) (observation : Observation)

end LiveRelay
