import LiveRelay.Table

/-!
# Session state

A session passes from the handshake over waiting for a connect to being
connected, and closes at the end.  Once connected it has numbered streams, each
idle, publishing or playing.

The server hands out stream numbers in order, starting with one and leaving out
zero.  A client may also use numbers that it was never given.
-/

namespace LiveRelay

inductive SessionPhase where
  | handshake
  | awaitingConnect
  | connected
  | closing
  deriving DecidableEq, Repr

/-- What a stream of a session does, with the places of what it does it to. -/
inductive StreamMode where
  | idle
  | publishing (publication : Nat)
  | playing (publication subscription : Nat)
  deriving DecidableEq, Inhabited, Repr

def StreamMode.isIdle : StreamMode → Bool
  | .idle => true
  | _ => false

/-- The streams of a session are given up in some order. -/
structure TeardownOrder where
  arrange : List (UInt32 × StreamMode) → List (UInt32 × StreamMode)
  perm : ∀ streams, (arrange streams).Perm streams

def TeardownOrder.asListed : TeardownOrder where
  arrange := id
  perm _ := List.Perm.refl _

structure SessionTraffic where
  bytesReceived : UInt64 := 0
  bytesSent : UInt64 := 0
  messagesReceived : UInt64 := 0
  deriving DecidableEq, Repr

structure SessionState where
  phase : SessionPhase := .handshake
  inboundChunkSize : UInt32 := 128
  outboundChunkSize : UInt32 := 128
  inboundWindow : UInt32 := 0
  outboundWindow : UInt32 := 0
  traffic : SessionTraffic := {}
  nextStreamId : UInt32 := 1
  streams : Table UInt32 StreamMode := []
  deriving DecidableEq, Repr

namespace SessionState

def completeHandshake (state : SessionState) : SessionState :=
  { state with phase := .awaitingConnect }

def connect (state : SessionState) : SessionState :=
  { state with phase := .connected }

def isConnected (state : SessionState) : Bool :=
  state.phase == .connected

def stream? (state : SessionState) (streamId : UInt32) : Option StreamMode :=
  state.streams.get? streamId

/-- The next stream number; zero is left out when the numbers wrap. -/
def allocate (state : SessionState) : UInt32 × SessionState :=
  let streamId := state.nextStreamId
  (streamId,
    { state with
      nextStreamId := max (streamId + 1) 1
      streams := state.streams.put streamId .idle })

def setMode (state : SessionState) (streamId : UInt32) (mode : StreamMode) :
    SessionState :=
  { state with streams := state.streams.put streamId mode }

/-- What a stream did; it is idle from then on, if it is known at all. -/
def takeMode (state : SessionState) (streamId : UInt32) :
    StreamMode × SessionState :=
  match state.stream? streamId with
  | some mode => (mode, state.setMode streamId .idle)
  | none => (.idle, state)

def removeStream (state : SessionState) (streamId : UInt32) :
    Option StreamMode × SessionState :=
  (state.stream? streamId,
    { state with streams := state.streams.erase streamId })

def publishing? (state : SessionState) (streamId : UInt32) : Option Nat :=
  match state.stream? streamId with
  | some (.publishing publication) => some publication
  | _ => none

/-- The subscription of a stream that plays. -/
def playing? (state : SessionState) (streamId : UInt32) : Option Nat :=
  match state.stream? streamId with
  | some (.playing _ subscription) => some subscription
  | _ => none

/-- All streams, none of which is known any more. -/
def drainStreams (state : SessionState) :
    List (UInt32 × StreamMode) × SessionState :=
  (state.streams, { state with streams := [] })

end SessionState

end LiveRelay
