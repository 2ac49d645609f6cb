import LiveRelay.Bytes

/-!
# Operations that can fail

Some operations are not defined everywhere: to take more bytes than there are, to
cut a range that does not lie in its bytes, to fill a slot that a table does not
have, to subtract from something smaller.  A program that does such a thing stops.
Here each of these is a fault that ends the computation, and inside its domain the
operation finds what the total one finds.

Sums and differences that go round, and look-ups that may find nothing, cannot fail
and stay what they are.  How much memory a value takes is not counted.
-/

namespace LiveRelay

inductive Fault where
  /-- More bytes were taken than there are. -/
  | beyondEnd
  /-- A range does not lie in what it is a range of. -/
  | outOfRange
  /-- Bytes were copied over a range of another length. -/
  | unequalLengths
  /-- A table does not have the slot. -/
  | noSlot
  /-- A number was taken from a smaller one. -/
  | underflow
  /-- A text was cut inside a character. -/
  | insideCharacter
  /-- A reader called itself more often than its nesting allows. -/
  | tooDeep
  /-- A loop went round without taking anything off its input. -/
  | noProgress
  deriving DecidableEq, Repr

/-- A computation that stops at the first fault. -/
abbrev Partial := Except Fault

namespace Partial

/-! ## Operations -/

/-- The first `count` bytes and what follows them. -/
def splitAt (count : Nat) (bytes : Bytes) : Partial (Bytes × Bytes) :=
  if count ≤ bytes.length then .ok (bytes.take count, bytes.drop count)
  else .error .beyondEnd

def splitByte : Bytes → Partial (UInt8 × Bytes)
  | first :: rest => .ok (first, rest)
  | [] => .error .beyondEnd

/-- What stands from `start` up to `stop`. -/
def slice {α : Type} (items : List α) (start stop : Nat) : Partial (List α) :=
  if start ≤ stop ∧ stop ≤ items.length then
    .ok ((items.drop start).take (stop - start))
  else .error .outOfRange

/-- The piece is copied over the bytes from `start` up to `stop`. -/
def copyInto (bytes : Bytes) (start stop : Nat) (piece : Bytes) : Partial Bytes :=
  if start ≤ stop ∧ stop ≤ bytes.length then
    if piece.length = stop - start then
      .ok (bytes.take start ++ piece ++ bytes.drop stop)
    else .error .unequalLengths
  else .error .outOfRange

def setSlot {α : Type} (slots : Array α) (slot : Nat) (content : α) :
    Partial (Array α) :=
  if slot < slots.size then .ok (slots.setIfInBounds slot content) else .error .noSlot

/-- The first characters, as many as take `size` bytes; a text that is shorter stays
as it is. -/
def truncate : List Char → (size : Nat) → Partial (List Char)
  | [], _ => .ok []
  | first :: rest, size =>
      if size = 0 then .ok []
      else if first.utf8Size ≤ size then do
        let kept ← truncate rest (size - first.utf8Size)
        return first :: kept
      else .error .insideCharacter

def subtract (total taken : UInt32) : Partial UInt32 :=
  if taken ≤ total then .ok (total - taken) else .error .underflow

def decrement : Nat → Partial Nat
  | 0 => .error .underflow
  | count + 1 => .ok count

/-! ## Steps in a row -/

@[simp] theorem ok_bind {α β : Type} (found : α) (next : α → Partial β) :
    (Except.ok found : Partial α) >>= next = next found := rfl

@[simp] theorem pure_eq {α : Type} (found : α) :
    (pure found : Partial α) = .ok found := rfl

/-! ## Inside their domains -/

variable {bytes piece : Bytes} {start stop count : Nat}

theorem splitAt_of_le (hcount : count ≤ bytes.length) :
    splitAt count bytes = .ok (bytes.take count, bytes.drop count) :=
  if_pos hcount

theorem slice_of_le {α : Type} {items : List α} (hstart : start ≤ stop)
    (hstop : stop ≤ items.length) :
    slice items start stop = .ok ((items.drop start).take (stop - start)) :=
  if_pos ⟨hstart, hstop⟩

theorem copyInto_of_length (hpiece : start + piece.length = stop)
    (hstop : stop ≤ bytes.length) :
    copyInto bytes start stop piece = .ok (bytes.take start ++ piece ++ bytes.drop stop) := by
  rw [copyInto, if_pos (by omega), if_pos (by omega)]

/-- What stands between two parts is replaced. -/
theorem copyInto_between (front back : Bytes) {old piece : Bytes}
    (hpiece : piece.length = old.length) :
    copyInto (front ++ old ++ back) front.length (front.length + old.length) piece =
      .ok (front ++ piece ++ back) := by
  have hfront : (front ++ old ++ back).take front.length = front := by
    rw [List.append_assoc, List.take_left]
  have hback : (front ++ old ++ back).drop (front.length + old.length) = back := by
    rw [← List.length_append, List.drop_left]
  rw [copyInto_of_length (congrArg (front.length + ·) hpiece) (by simp), hfront, hback]

theorem setSlot_of_lt {α : Type} {slots : Array α} {slot : Nat}
    (hslot : slot < slots.size) (content : α) :
    setSlot slots slot content = .ok (slots.setIfInBounds slot content) :=
  if_pos hslot

/-- Between two characters a text may be cut. -/
theorem truncate_append (kept rest : List Char) :
    truncate (kept ++ rest) (String.ofList kept).utf8ByteSize = .ok kept := by
  induction kept with
  | nil => cases rest <;> rfl
  | cons first kept ih =>
      have hpos := first.utf8Size_pos
      rw [String.ofList_cons, String.utf8ByteSize_append, String.utf8ByteSize_singleton,
        List.cons_append, truncate, if_neg (by omega), if_pos (Nat.le_add_right ..),
        Nat.add_sub_cancel_left, ih]
      rfl

theorem subtract_of_le {total taken : UInt32} (htaken : taken ≤ total) :
    subtract total taken = .ok (total - taken) :=
  if_pos htaken

end Partial

end LiveRelay
