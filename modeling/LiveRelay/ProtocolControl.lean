import LiveRelay.ChunkDecoder
import LiveRelay.Message

/-!
# Protocol control

Control messages are acted upon as soon as they are read: they set the chunk
size, give up unfinished messages, and set the window after which received
bytes are acknowledged.

The count of received bytes is a 32-bit word.  When it reaches `rebase`, that
much is taken off both the count and the last acknowledged value, so their
difference stays what it was.  What falls due for pieces of equal size is
counted without a list of them.
-/

namespace LiveRelay

/-! ## Acknowledgements -/

structure Acknowledgements where
  /-- Zero turns acknowledgements off. -/
  window : UInt32 := 0
  received : UInt32 := 0
  lastSent : UInt32 := 0
  deriving DecidableEq, Inhabited, Repr

namespace Acknowledgements

def rebase : UInt32 := 0xF0000000

/-- The tracker after `count` more bytes. -/
def add (tracker : Acknowledgements) (count : Nat) : Acknowledgements :=
  let received := tracker.received + UInt32.ofNat count
  if rebase ≤ received then
    { tracker with
      received := received - rebase, lastSent := tracker.lastSent - rebase }
  else { tracker with received := received }

/-- A full window has come in since the last acknowledgement. -/
def isDue (tracker : Acknowledgements) : Bool :=
  tracker.window != 0 && tracker.window ≤ tracker.received - tracker.lastSent

/-- The number to acknowledge after `count` more bytes, if it is due. -/
def receive (tracker : Acknowledgements) (count : Nat) :
    Option UInt32 × Acknowledgements :=
  let tracker := tracker.add count
  if tracker.isDue then
    (some tracker.received, { tracker with lastSent := tracker.received })
  else (none, tracker)

/-- The numbers to acknowledge while pieces of these sizes come in, put before
those already due, last first. -/
def receiveOnto (tracker : Acknowledgements) (done : List UInt32) :
    (counts : List Nat) → List UInt32 × Acknowledgements
  | [] => (done.reverse, tracker)
  | count :: counts =>
      let (due, tracker) := tracker.receive count
      tracker.receiveOnto (due.toList ++ done) counts

def receiveAll (tracker : Acknowledgements) (counts : List Nat) :
    List UInt32 × Acknowledgements :=
  tracker.receiveOnto [] counts

/-- How many acknowledgements fell due, and the number in the last of them. -/
structure Due where
  last : Option UInt32 := none
  count : Nat := 0
  deriving DecidableEq, Inhabited, Repr

namespace Due

def ofNumbers (numbers : List UInt32) : Due :=
  ⟨numbers.getLast?, numbers.length⟩

def push (due : Due) : Option UInt32 → Due
  | none => due
  | some number => ⟨some number, due.count + 1⟩

theorem push_ofNumbers_reverse (numbers : List UInt32) (number : Option UInt32) :
    (ofNumbers numbers.reverse).push number =
      ofNumbers (number.toList ++ numbers).reverse := by
  cases number <;> simp [push, ofNumbers]

end Due

/-- What falls due, besides what already did, while `times` pieces of the same
size come in. -/
def receiveEqual (tracker : Acknowledgements) (due : Due) (count : Nat) :
    (times : Nat) → Due × Acknowledgements
  | 0 => (due, tracker)
  | times + 1 =>
      let (next, tracker) := tracker.receive count
      tracker.receiveEqual (due.push next) count times

theorem receiveEqual_ofNumbers (tracker : Acknowledgements) (done : List UInt32)
    (count times : Nat) :
    tracker.receiveEqual (.ofNumbers done.reverse) count times =
      (tracker.receiveOnto done (List.replicate times count)).map .ofNumbers id := by
  induction times generalizing tracker done with
  | zero => rfl
  | succ times ih =>
      rw [List.replicate_succ, receiveOnto, receiveEqual]
      simp only [Due.push_ofNumbers_reverse, ih]

/-- Pieces of the same size are pieces like any others. -/
theorem receiveEqual_eq_receiveAll (tracker : Acknowledgements) (count times : Nat) :
    tracker.receiveEqual {} count times =
      (tracker.receiveAll (List.replicate times count)).map .ofNumbers id :=
  receiveEqual_ofNumbers tracker [] count times

end Acknowledgements

/-! ## Control messages -/

structure ProtocolControl where
  maximumChunkSize : UInt32 := 65536
  acknowledgements : Acknowledgements := {}
  /-- What the peer last announced; it has no effect. -/
  peerBandwidth : Option UInt32 := none
  deriving DecidableEq, Inhabited, Repr

namespace ProtocolControl

/-- The answer to a message, if it asks for one, and what it sets. -/
def handle (control : ProtocolControl) (decoder : ChunkDecoder) :
    Message → Except ProtocolError (Option Message × ProtocolControl × ChunkDecoder)
  | .setChunkSize size =>
      if size = 0 then .error (.invalidChunkSize size)
      else if control.maximumChunkSize < size then
        .error (.chunkSizeTooLarge size control.maximumChunkSize)
      else .ok (none, control, { decoder with chunkSize := size })
  | .abort chunkStream => .ok (none, control, decoder.abort chunkStream)
  | .windowAckSize size =>
      let acknowledgements := { control.acknowledgements with window := size }
      .ok (none, { control with acknowledgements := acknowledgements }, decoder)
  | .setPeerBandwidth size _ =>
      .ok (none, { control with peerBandwidth := some size }, decoder)
  | .userControl (.pingRequest timestamp) =>
      .ok (some (.userControl (.pingResponse timestamp)), control, decoder)
  | _ => .ok (none, control, decoder)

end ProtocolControl

end LiveRelay
