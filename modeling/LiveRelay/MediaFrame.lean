import LiveRelay.Bytes

/-!
# Media frames

Audio and video payloads are looked at only as far as needed to tell a codec's
configuration and a random access point from an ordinary frame.  That takes
the first two bytes.  Ordinary frames may be left out for a viewer that does
not keep up.
-/

namespace LiveRelay

inductive MediaKind where
  | audio
  | video
  deriving DecidableEq, Repr

structure MediaFrame where
  kind : MediaKind
  /-- The payload is a codec's configuration. -/
  isHeader : Bool
  /-- Decoding can start here; never so for audio. -/
  isKeyFrame : Bool
  deriving DecidableEq, Repr

namespace MediaFrame

def isSkippable (frame : MediaFrame) : Bool :=
  !frame.isHeader && !frame.isKeyFrame

/-- Key frames proper and those a server makes. -/
def isKeyType (frameType : Nat) : Bool :=
  frameType == 1 || frameType == 4

/-- The codecs whose frames have a packet type in the second byte. -/
def hasPacketType (codec : Nat) : Bool :=
  codec == 7 || codec == 12 || codec == 13

/-- The top bit of the first byte marks the enhanced form: three bits of frame
type and four of packet type.  The older form has four bits of frame type and
four of codec.  Packet type zero is a configuration. -/
def ofVideo : Bytes → MediaFrame
  | [] => ⟨.video, false, false⟩
  | first :: rest =>
      let high := first.toNat / 16
      let low := first.toNat % 16
      if 8 ≤ high then ⟨.video, low == 0, isKeyType (high - 8)⟩
      else ⟨.video, hasPacketType low && rest.head? == some 0, isKeyType high⟩

/-- The high half of the first byte is the format: ten has a packet type in the
second byte, nine has it in the low half of the first. -/
def ofAudio : Bytes → MediaFrame
  | [] => ⟨.audio, false, false⟩
  | first :: rest =>
      let format := first.toNat / 16
      let isHeader :=
        (format == 10 && rest.head? == some 0) ||
          (format == 9 && first.toNat % 16 == 0)
      ⟨.audio, isHeader, false⟩

def classify (kind : MediaKind) (payload : Bytes) : MediaFrame :=
  match kind with
  | .audio => ofAudio payload
  | .video => ofVideo payload

end MediaFrame

end LiveRelay
