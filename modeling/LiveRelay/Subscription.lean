import LiveRelay.Outbound
import LiveRelay.StatusCode
import LiveRelay.StreamPath

/-!
# Subscriptions

A subscription is one session's play of one stream.  It says which frames the
session wants, and what it is sent when the play starts and when the stream
ends.  Sequence numbers settle what the replay at the start has covered
already.
-/

namespace LiveRelay

/-- A frame on its way to the subscriptions of a stream. -/
structure NumberedFrame where
  frame : MediaFrame
  sequence : Nat
  timestamp : UInt32
  buffer : RentedBuffer
  deriving DecidableEq, Repr

inductive Delivery where
  | sent
  /-- Left out, because the session does not keep up. -/
  | skipped
  /-- Not wanted. -/
  | filtered
  /-- The queue takes no more messages. -/
  | closed
  deriving DecidableEq, Repr

structure Subscription where
  session : Nat
  /-- The session's own number for the play. -/
  streamId : UInt32
  path : StreamPath
  arguments : StreamArguments
  /-- The place of the session's queue. -/
  queue : Nat
  isPaused : Bool := false
  receivesAudio : Bool := true
  receivesVideo : Bool := true
  isInitialized : Bool := false
  /-- The last frame of the replay, zero without one.  Like all numbers of frames it
  does not wrap. -/
  primedThrough : Nat := 0
  hasEnded : Bool := false
  dropped : UInt64 := 0
  deriving DecidableEq, Repr

namespace Subscription

def receives (subscription : Subscription) : MediaKind → Bool
  | .audio => subscription.receivesAudio
  | .video => subscription.receivesVideo

/-- Frames that the replay has not covered; codec configurations even while
the play is paused or the kind is turned off. -/
def wants (subscription : Subscription) (numbered : NumberedFrame) : Bool :=
  subscription.isInitialized &&
    subscription.primedThrough < numbered.sequence &&
    (numbered.frame.isHeader ||
      (subscription.receives numbered.frame.kind && !subscription.isPaused))

def messageFor (subscription : Subscription) (numbered : NumberedFrame) :
    OutboundMessage :=
  .media numbered.frame.kind subscription.streamId numbered.timestamp
    numbered.buffer

/-- What comes before anything of the stream itself. -/
def startMessages (subscription : Subscription) : List OutboundMessage :=
  let streamId := subscription.streamId
  let path := subscription.path.text
  [.userControl (.streamBegin streamId),
    .status streamId "status" StatusCode.playReset
      s!"Playing and resetting {path}.",
    .status streamId "status" StatusCode.playStart s!"Started playing {path}.",
    .data ⟨"|RtmpSampleAccess", [.boolean true, .boolean true], streamId⟩ 0]

def metadataMessage (subscription : Subscription) (metadata : Properties) :
    OutboundMessage :=
  .data (.ofMetadata metadata subscription.streamId) 0

/-- What comes after all else of the stream. -/
def endMessages (subscription : Subscription) : List OutboundMessage :=
  let path := subscription.path.text
  [.userControl (.streamEnd subscription.streamId),
    .status subscription.streamId "status" StatusCode.playUnpublishNotify
      s!"{path} is now unpublished."]

end Subscription

end LiveRelay
