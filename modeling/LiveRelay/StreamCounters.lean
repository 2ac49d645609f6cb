import LiveRelay.Binary64
import LiveRelay.MediaFrame

/-!
# Stream counters

Each publication counts what it was sent.  The counters are words that wrap.
Rates relate them to the time since the publication started.
-/

namespace LiveRelay

structure StreamCounters where
  bytes : UInt64 := 0
  videoFrames : UInt64 := 0
  audioFrames : UInt64 := 0
  keyFrames : UInt64 := 0
  /-- Deliveries that were left out, one for each viewer. -/
  dropped : UInt64 := 0
  deriving DecidableEq, Inhabited, Repr

/-- Fewer than a thousand million nanoseconds beside the whole seconds. -/
structure ElapsedTime where
  seconds : UInt64
  nanoseconds : UInt32
  deriving DecidableEq, Repr

namespace ElapsedTime

def nanosecondsInSecond : Nat := 1000000000

def ofParts (seconds : UInt64) (nanoseconds : Nat) : ElapsedTime where
  seconds := seconds + UInt64.ofNat (nanoseconds / nanosecondsInSecond)
  nanoseconds := UInt32.ofNat (nanoseconds % nanosecondsInSecond)

/-- Rounded when the two parts are added, as well as in each part. -/
def inSeconds (time : ElapsedTime) : Binary64 :=
  Binary64.addMagnitudes (Binary64.ofNat time.seconds.toNat)
    (Binary64.ofRatio time.nanoseconds.toNat nanosecondsInSecond)

end ElapsedTime

namespace StreamCounters

def recordFrame (counters : StreamCounters) (kind : MediaKind) (bytes : UInt64)
    (isKeyFrame : Bool) : StreamCounters :=
  let counters :=
    { counters with
      bytes := counters.bytes + bytes
      keyFrames := counters.keyFrames + (if isKeyFrame then 1 else 0) }
  match kind with
  | .audio => { counters with audioFrames := counters.audioFrames + 1 }
  | .video => { counters with videoFrames := counters.videoFrames + 1 }

def recordDropped (counters : StreamCounters) (frames : UInt64) :
    StreamCounters :=
  { counters with dropped := counters.dropped + frames }

/-- Bits in a second, by whole seconds; nothing in the first one. -/
def bitrate (counters : StreamCounters) (time : ElapsedTime) : UInt64 :=
  if 0 < time.seconds then counters.bytes * 8 / time.seconds else 0

/-- Video frames in a second. -/
def framerate (counters : StreamCounters) (time : ElapsedTime) : Binary64 :=
  let seconds := time.inSeconds
  if seconds.isZero then .zero
  else
    Binary64.divideMagnitudes (Binary64.ofNat counters.videoFrames.toNat) seconds

end StreamCounters

end LiveRelay
