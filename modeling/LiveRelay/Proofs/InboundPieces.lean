import LiveRelay.Inbound
import LiveRelay.Proofs.ChunkRoundTrip

/-!
# Bytes that come in pieces

A connection may cut what it carries anywhere: inside a header, inside the
extension of a time, inside the payload of a chunk.  A chunk that is not
complete leaves at most one trace, that the message before it has been given
up, and the chunk leaves that trace again when it is looked at again.  So what
is decoded from a longer buffer is what is decoded from the shorter one, and
then what the bytes behind it complete.

Control messages are acted upon between two messages, wherever the cuts are,
and an error ends the reading at the same byte.  Pieces that come in one after
the other are therefore read as if they had come in at once.
-/

namespace LiveRelay

/-! ## One chunk -/

namespace ChunkDecoder

/-- A chunk that is refused is refused, whatever follows it. -/
theorem takeChunk_append_of_refused {decoder next : ChunkDecoder} {buffer : Bytes}
    {error : ProtocolError}
    (htake : decoder.takeChunk buffer = (.refused error, next)) (more : Bytes) :
    decoder.takeChunk (buffer ++ more) = (.refused error, next) := by
  cases hread : ChunkHeader.read decoder.lastHeader buffer with
  | error other =>
      simp only [takeChunk, hread] at htake
      simp only [takeChunk, ChunkHeader.read_append_error hread more, htake]
  | ok found =>
      cases found with
      | none => simp [takeChunk, hread] at htake
      | some found =>
          obtain ⟨chunkStream, change, behind⟩ := found
          rw [takeChunk_of_read hread] at htake
          obtain ⟨hsize, hsame⟩ := takePiece_eq_refused htake
          rw [takeChunk_of_read (ChunkHeader.read_append hread more),
            takePiece_of_error hsize, hsame]

/-- Having looked at an incomplete chunk makes no difference to what is taken
once more bytes are there. -/
theorem takeChunk_append_of_starved {decoder next : ChunkDecoder} {buffer : Bytes}
    (htake : decoder.takeChunk buffer = (.starved, next)) (more : Bytes) :
    decoder.takeChunk (buffer ++ more) = next.takeChunk (buffer ++ more) := by
  cases hread : ChunkHeader.read decoder.lastHeader buffer with
  | error error => simp [takeChunk, hread] at htake
  | ok found =>
      cases found with
      | none =>
          simp only [takeChunk, hread, Prod.mk.injEq, true_and] at htake
          rw [htake]
      | some found =>
          obtain ⟨chunkStream, change, behind⟩ := found
          rw [takeChunk_of_read hread] at htake
          rw [takePiece_eq_starved htake,
            takeChunk_afterHeader (ChunkHeader.read_append hread more)]

/-! ## One message -/

theorem decode_of_starved {decoder next : ChunkDecoder} {buffer : Bytes}
    (htake : decoder.takeChunk buffer = (.starved, next)) :
    decoder.decode buffer = (.ok none, next, buffer) := by
  rw [decode]
  split <;> simp_all

theorem decode_of_refused {decoder next : ChunkDecoder} {buffer : Bytes}
    {error : ProtocolError}
    (htake : decoder.takeChunk buffer = (.refused error, next)) :
    decoder.decode buffer = (.error error, next, buffer) := by
  rw [decode]
  split <;> simp_all

theorem decode_congr {decoder other : ChunkDecoder} {buffer : Bytes}
    (htake : decoder.takeChunk buffer = other.takeChunk buffer) :
    decoder.decode buffer = other.decode buffer := by
  match hother : other.takeChunk buffer with
  | (.taken none rest, next) =>
      rw [decode_of_taken_none (htake.trans hother), decode_of_taken_none hother]
  | (.taken (some message) rest, next) =>
      rw [decode_of_taken_some (htake.trans hother), decode_of_taken_some hother]
  | (.starved, next) =>
      rw [decode_of_starved (htake.trans hother), decode_of_starved hother]
  | (.refused error, next) =>
      rw [decode_of_refused (htake.trans hother), decode_of_refused hother]

/-- A longer buffer gives what the shorter one gives; if that is nothing, the
decoder goes on where it stopped. -/
theorem decode_append (decoder : ChunkDecoder) (buffer more : Bytes) :
    decoder.decode (buffer ++ more) =
      match decoder.decode buffer with
      | (.ok none, next, rest) => next.decode (rest ++ more)
      | (taken, next, rest) => (taken, next, rest ++ more) := by
  fun_induction decode decoder buffer with
  | case1 decoder buffer rest next htake ih =>
      rw [decode_of_taken_none (takeChunk_append_of_taken htake more), ih]
  | case2 decoder buffer message rest next htake =>
      exact decode_of_taken_some (takeChunk_append_of_taken htake more)
  | case3 decoder buffer next htake =>
      exact decode_congr (takeChunk_append_of_starved htake more)
  | case4 decoder buffer error next htake =>
      exact decode_of_refused (takeChunk_append_of_refused htake more)

/-- A decoder that has found nothing finds nothing when it looks again. -/
theorem decode_of_decode_none {decoder next : ChunkDecoder} {buffer rest : Bytes}
    (hdecode : decoder.decode buffer = (.ok none, next, rest)) :
    next.decode rest = (.ok none, next, rest) := by
  fun_induction decode decoder buffer with
  | case1 decoder buffer skipped middle htake ih => exact ih hdecode
  | case2 => simp at hdecode
  | case3 decoder buffer stopped htake =>
      simp only [Prod.mk.injEq, true_and] at hdecode
      rw [← hdecode.1, ← hdecode.2]
      exact decode_of_starved (takeChunk_of_starved htake)
  | case4 => simp at hdecode

end ChunkDecoder

/-! ## The messages of a buffer -/

namespace Inbound

/-- More bytes have come in. -/
def withMore (inbound : Inbound) (more : Bytes) : Inbound :=
  { inbound with unread := inbound.unread ++ more }

theorem withMore_withMore (inbound : Inbound) (first second : Bytes) :
    (inbound.withMore first).withMore second = inbound.withMore (first ++ second) := by
  simp [withMore]

theorem accept_withMore (inbound : Inbound) (wire : WireMessage) (more : Bytes) :
    (inbound.withMore more).accept wire =
      ((inbound.accept wire).1, (inbound.accept wire).2.withMore more) := by
  simp only [accept, withMore]
  split
  · rfl
  · split <;> rfl

theorem next_withMore (inbound : Inbound) (more : Bytes) :
    (inbound.withMore more).next =
      match inbound.next with
      | (.ok none, after) => (after.withMore more).next
      | (taken, after) => (taken, after.withMore more) := by
  have hdecode := inbound.decoder.decode_append inbound.unread more
  rcases hfound : inbound.decoder.decode inbound.unread with ⟨taken, decoder, unread⟩
  simp only [hfound] at hdecode
  match taken with
  | .error error => simp [next, withMore, hfound, hdecode]
  | .ok none => simp [next, withMore, hfound, hdecode]
  | .ok (some wire) =>
      have haccept := accept_withMore
        { inbound with decoder := decoder, unread := unread } wire more
      simp only [withMore] at haccept
      simp only [next, withMore, hfound, hdecode, haccept]
      cases (accept { inbound with decoder := decoder, unread := unread } wire).1 <;> rfl

/-- Nothing more is found in what a connection has left. -/
def IsIdle (inbound : Inbound) : Prop :=
  inbound.next = (.ok none, inbound)

theorem isIdle_of_next {inbound after : Inbound}
    (hnext : inbound.next = (.ok none, after)) : after.IsIdle := by
  rcases hfound : inbound.decoder.decode inbound.unread with ⟨taken, decoder, unread⟩
  match taken with
  | .error error => simp [next, hfound] at hnext
  | .ok (some wire) =>
      simp only [next, hfound, Prod.mk.injEq] at hnext
      cases haccept : (accept { inbound with decoder := decoder, unread := unread } wire).1
        <;> simp [haccept, Except.map] at hnext
  | .ok none =>
      simp only [next, hfound, Prod.mk.injEq, true_and] at hnext
      subst hnext
      simp [IsIdle, next, ChunkDecoder.decode_of_decode_none hfound]

theorem drainOnto_of_some {inbound after : Inbound} {arrival : Arrival}
    (hnext : inbound.next = (.ok (some arrival), after)) (done : List Arrival) :
    inbound.drainOnto done = after.drainOnto (arrival :: done) := by
  conv => lhs; rw [drainOnto]
  split <;> simp_all

theorem drainOnto_of_none {inbound after : Inbound}
    (hnext : inbound.next = (.ok none, after)) (done : List Arrival) :
    inbound.drainOnto done = ⟨done.reverse, none, after⟩ := by
  rw [drainOnto]
  split <;> simp_all

theorem drainOnto_of_error {inbound after : Inbound} {error : Error}
    (hnext : inbound.next = (.error error, after)) (done : List Arrival) :
    inbound.drainOnto done = ⟨done.reverse, some error, after⟩ := by
  rw [drainOnto]
  split <;> simp_all

theorem drainOnto_congr {inbound other : Inbound} (hnext : inbound.next = other.next)
    (done : List Arrival) : inbound.drainOnto done = other.drainOnto done := by
  match hother : other.next with
  | (.ok (some arrival), after) =>
      rw [drainOnto_of_some (hnext.trans hother), drainOnto_of_some hother]
  | (.ok none, after) =>
      rw [drainOnto_of_none (hnext.trans hother), drainOnto_of_none hother]
  | (.error error, after) =>
      rw [drainOnto_of_error (hnext.trans hother), drainOnto_of_error hother]

/-- Messages put before what else was read. -/
def Outcome.precededBy (outcome : Outcome) (arrivals : List Arrival) : Outcome :=
  { outcome with arrivals := arrivals ++ outcome.arrivals }

theorem drainOnto_eq_precededBy (inbound : Inbound) (done : List Arrival) :
    inbound.drainOnto done = inbound.drain.precededBy done.reverse := by
  suffices hsuffix : ∀ late, inbound.drainOnto (late ++ done) =
      (inbound.drainOnto late).precededBy done.reverse from hsuffix []
  intro late
  fun_induction drainOnto inbound late with
  | case1 inbound late arrival after hnext ih =>
      rw [drainOnto_of_some hnext]
      exact ih
  | case2 inbound late after hnext =>
      rw [drainOnto_of_none hnext]
      simp [Outcome.precededBy]
  | case3 inbound late error after hnext =>
      rw [drainOnto_of_error hnext]
      simp [Outcome.precededBy]

/-- What is read when a further piece comes in.  After an error nothing is. -/
def Outcome.andThen (outcome : Outcome) (piece : Bytes) : Outcome :=
  match outcome.error with
  | none => (outcome.inbound.feed piece).precededBy outcome.arrivals
  | some _ => { outcome with inbound := outcome.inbound.withMore piece }

theorem drain_withMore (inbound : Inbound) (more : Bytes) :
    (inbound.withMore more).drain = inbound.drain.andThen more := by
  suffices honto : ∀ done, (inbound.withMore more).drainOnto done =
      (inbound.drainOnto done).andThen more from honto []
  intro done
  fun_induction drainOnto inbound done with
  | case1 inbound done arrival after hnext ih =>
      have hlonger := inbound.next_withMore more
      rw [hnext] at hlonger
      rw [drainOnto_of_some hlonger, ih]
  | case2 inbound done after hnext =>
      have hlonger := inbound.next_withMore more
      rw [hnext] at hlonger
      rw [drainOnto_congr hlonger, drainOnto_eq_precededBy]
      rfl
  | case3 inbound done error after hnext =>
      have hlonger := inbound.next_withMore more
      rw [hnext] at hlonger
      rw [drainOnto_of_error hlonger]
      rfl

theorem isIdle_drain {inbound : Inbound} (herror : inbound.drain.error = none) :
    inbound.drain.inbound.IsIdle := by
  suffices honto : ∀ done, (inbound.drainOnto done).error = none →
      (inbound.drainOnto done).inbound.IsIdle from honto [] herror
  clear herror
  intro done hnone
  fun_induction drainOnto inbound done with
  | case1 inbound done arrival after hnext ih => exact ih hnone
  | case2 inbound done after hnext => exact isIdle_of_next hnext
  | case3 => cases hnone

/-! ## Pieces -/

/-- What is read while pieces come in one after the other, and the pieces that
come in no more because of an error. -/
def feedAll (inbound : Inbound) : (pieces : List Bytes) → Outcome × List Bytes
  | [] => (⟨[], none, inbound⟩, [])
  | piece :: pieces =>
      let outcome := inbound.feed piece
      match outcome.error with
      | none =>
          let (others, behind) := outcome.inbound.feedAll pieces
          (others.precededBy outcome.arrivals, behind)
      | some _ => (outcome, pieces)

theorem feed_of_isIdle {inbound : Inbound} (hidle : inbound.IsIdle) :
    inbound.feed [] = ⟨[], none, inbound⟩ := by
  have hsame : inbound.withMore [] = inbound := by simp [withMore]
  show (inbound.withMore []).drainOnto [] = _
  rw [hsame, drainOnto_of_none hidle]
  rfl

theorem feedAll_of_isIdle {inbound : Inbound} (hidle : inbound.IsIdle)
    (pieces : List Bytes) :
    let (outcome, behind) := inbound.feedAll pieces
    { outcome with inbound := outcome.inbound.withMore behind.flatten } =
      inbound.feed pieces.flatten := by
  induction pieces generalizing inbound with
  | nil =>
      rw [List.flatten_nil, feed_of_isIdle hidle]
      simp [feedAll, withMore]
  | cons piece pieces ih =>
      have hwhole : inbound.feed (piece :: pieces).flatten =
          (inbound.feed piece).andThen pieces.flatten := by
        rw [List.flatten_cons]
        show (inbound.withMore (piece ++ pieces.flatten)).drain = _
        rw [← withMore_withMore, drain_withMore]
        rfl
      rw [hwhole]
      cases herror : (inbound.feed piece).error with
      | some error => simp [feedAll, Outcome.andThen, herror]
      | none =>
          have hothers : _ = (inbound.feed piece).inbound.feed pieces.flatten :=
            ih (isIdle_drain herror)
          simp only [feedAll, herror, Outcome.andThen]
          rw [← hothers]
          rfl

theorem isIdle_of_unread_nil (decoder : ChunkDecoder) (control : ProtocolControl) :
    IsIdle ⟨decoder, control, []⟩ := by
  have hdecode : decoder.decode [] = (.ok none, decoder, []) :=
    ChunkDecoder.decode_of_starved rfl
  simp [IsIdle, next, hdecode]

/-- However a byte string is cut into pieces, the same messages are read with
the same answers, up to the same error if there is one.  Decoder and control
end in the same state, with the same chunk size and the same window, and the
same bytes are left, if those are counted that come in no more. -/
theorem feedAll_eq_feed_flatten (decoder : ChunkDecoder) (control : ProtocolControl)
    (pieces : List Bytes) :
    let start : Inbound := ⟨decoder, control, []⟩
    let whole := start.feed pieces.flatten
    let (cut, behind) := start.feedAll pieces
    cut.arrivals = whole.arrivals ∧
      cut.error = whole.error ∧
      cut.inbound.decoder = whole.inbound.decoder ∧
      cut.inbound.control = whole.inbound.control ∧
      cut.inbound.unread ++ behind.flatten = whole.inbound.unread := by
  intro start whole
  have hwhole : _ = whole :=
    feedAll_of_isIdle (isIdle_of_unread_nil decoder control) pieces
  rw [← hwhole]
  exact ⟨rfl, rfl, rfl, rfl, rfl⟩

end Inbound

end LiveRelay
