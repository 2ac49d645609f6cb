import LiveRelay.Proofs.Viewer

/-!
# Broadcast schedules

An ordinary frame is published in two turns: first it gets its number and
enters the cache, then it is delivered.  Other things can happen between the
two.  Codec configurations and key frames take a single turn.

The schedule of a stream says what is broadcast in each turn, whoever listens.
Frames are broadcast in the order of their numbers.
-/

namespace LiveRelay

inductive Turn where
  | event (event : StreamEvent)
  /-- The frame in flight is delivered. -/
  | delivered

def Turn.removes (turn : Turn) (place : Nat) : Bool :=
  match turn with
  | .event (.left other) => other = place
  | _ => false

inductive Sending where
  | frame (frame : PublishedFrame)
  | described (metadata : Properties)

namespace Sending

def frame? : Sending → Option PublishedFrame
  | .frame published => some published
  | .described _ => none

def toWire (streamId : UInt32) : Sending → WireMessage
  | .frame published =>
      .media streamId published.kind published.timestamp published.payload
  | .described metadata => .description streamId metadata

/-- Only frames can be too old. -/
def isAfter (sequence : Nat) : Sending → Bool
  | .frame published => sequence < published.sequence
  | .described _ => true

/-- The frame is in the cache. -/
def isReplayed (cache : MediaCache) : Sending → Bool
  | .frame published =>
      cache.group.entries.any fun entry => entry.sequence = published.sequence
  | .described _ => false

end Sending

structure Schedule where
  programme : Programme := {}
  /-- Numbered, but not delivered yet. -/
  inFlight : Option PublishedFrame := none

namespace Schedule

def next (schedule : Schedule) (kind : MediaKind) (timestamp : UInt32)
    (payload : Bytes) : PublishedFrame :=
  ⟨schedule.programme.frames.length + 1, kind, timestamp, payload⟩

/-- While a frame is in flight the publisher does not start another one. -/
def broadcasts (schedule : Schedule) : Turn → List Sending
  | .event (.frame kind timestamp payload) =>
      if schedule.inFlight.isSome ||
          (MediaFrame.classify kind payload).isSkippable then []
      else [.frame (schedule.next kind timestamp payload)]
  | .event (.described metadata) => [.described metadata]
  | .event _ => []
  | .delivered => schedule.inFlight.toList.map .frame

def after (schedule : Schedule) : Turn → Schedule
  | .event (.frame kind timestamp payload) =>
      if schedule.inFlight.isSome then schedule
      else
        { programme := schedule.programme.addFrame kind timestamp payload
          inFlight :=
            if (MediaFrame.classify kind payload).isSkippable then
              some (schedule.next kind timestamp payload)
            else none }
  | .event event =>
      { schedule with programme := schedule.programme.after event }
  | .delivered => { schedule with inFlight := none }

/-- What is broadcast while a subscription is on the list. -/
def shown (schedule : Schedule) (place : Nat) (isListed : Bool) :
    List Turn → List Sending
  | [] => []
  | turn :: turns =>
      (if isListed then schedule.broadcasts turn else []) ++
        (schedule.after turn).shown place (isListed && !turn.removes place) turns

/-- The frame in flight is the last one that was numbered. -/
def IsSound (schedule : Schedule) : Prop :=
  ∀ frame, schedule.inFlight = some frame →
    frame.sequence = schedule.programme.frames.length ∧ 0 < frame.sequence

/-- The number of the next frame to be broadcast. -/
def nextSequence (schedule : Schedule) : Nat :=
  match schedule.inFlight with
  | some frame => frame.sequence
  | none => schedule.programme.frames.length + 1

variable {schedule : Schedule}

theorem isSound_empty : IsSound {} := by
  intro frame hframe
  cases hframe

theorem IsSound.after (hsound : schedule.IsSound) (turn : Turn) :
    (schedule.after turn).IsSound := by
  cases turn with
  | delivered =>
      intro frame hframe
      cases hframe
  | event event =>
      cases event with
      | frame kind timestamp payload =>
          simp only [Schedule.after]
          split
          · exact hsound
          · intro frame hframe
            simp only at hframe
            split at hframe
            · rw [← Option.some.inj hframe]
              simp [next, Programme.addFrame]
            · cases hframe
      | _ => exact hsound

theorem IsSound.afterRun (hsound : schedule.IsSound) (turns : List Turn) :
    (turns.foldl Schedule.after schedule).IsSound := by
  induction turns generalizing schedule with
  | nil => exact hsound
  | cons turn turns ih => exact ih (hsound.after turn)

theorem IsSound.length_le_nextSequence (hsound : schedule.IsSound) :
    schedule.programme.frames.length ≤ schedule.nextSequence ∧
      0 < schedule.nextSequence := by
  unfold nextSequence
  split
  · rename_i frame hframe
    obtain ⟨hsequence, hpositive⟩ := hsound frame hframe
    exact ⟨Nat.le_of_eq hsequence.symm, hpositive⟩
  · exact ⟨Nat.le_succ _, Nat.succ_pos _⟩

/-- Numbers never go back, and a broadcast takes the next one. -/
theorem IsSound.nextSequence_after (hsound : schedule.IsSound) (turn : Turn) :
    schedule.nextSequence ≤ (schedule.after turn).nextSequence ∧
      ∀ frame ∈ (schedule.broadcasts turn).filterMap Sending.frame?,
        frame.sequence = schedule.nextSequence ∧
          schedule.nextSequence < (schedule.after turn).nextSequence := by
  cases turn with
  | delivered =>
      cases hinFlight : schedule.inFlight with
      | none => simp [broadcasts, Schedule.after, nextSequence, hinFlight]
      | some frame =>
          obtain ⟨hsequence, -⟩ := hsound frame hinFlight
          simp [broadcasts, Schedule.after, nextSequence, hinFlight, hsequence,
            Sending.frame?]
  | event event =>
      cases event with
      | frame kind timestamp payload =>
          cases hinFlight : schedule.inFlight with
          | some frame => simp [broadcasts, Schedule.after, nextSequence, hinFlight]
          | none =>
              cases hordinary :
                  (MediaFrame.classify kind payload).isSkippable with
              | true =>
                  simp [broadcasts, Schedule.after, nextSequence, hinFlight,
                    hordinary, next]
              | false =>
                  simp [broadcasts, Schedule.after, nextSequence, hinFlight,
                    hordinary, next, Sending.frame?, Programme.addFrame]
      | described metadata =>
          exact ⟨Nat.le_refl _, fun frame hframe => by cases hframe⟩
      | _ => exact ⟨Nat.le_refl _, fun frame hframe => by cases hframe⟩

theorem length_broadcasts (schedule : Schedule) (turn : Turn) :
    (schedule.broadcasts turn).length ≤ 1 := by
  cases turn with
  | delivered =>
      cases hinFlight : schedule.inFlight <;> simp [broadcasts, hinFlight]
  | event event =>
      cases event with
      | frame kind timestamp payload =>
          simp only [broadcasts]
          split <;> simp
      | _ => simp [broadcasts]

/-- What is broadcast from now on is numbered upwards from the next number. -/
theorem IsSound.pairwise_shown (hsound : schedule.IsSound) (place : Nat)
    (isListed : Bool) (turns : List Turn) :
    (((schedule.shown place isListed turns).filterMap Sending.frame?).Pairwise
        fun first second => first.sequence < second.sequence) ∧
      ∀ frame ∈ (schedule.shown place isListed turns).filterMap Sending.frame?,
        schedule.nextSequence ≤ frame.sequence := by
  induction turns generalizing schedule isListed with
  | nil => exact ⟨List.Pairwise.nil, fun frame hframe => by cases hframe⟩
  | cons turn turns ih =>
      obtain ⟨hordered, hbound⟩ :=
        ih (hsound.after turn) (isListed && !turn.removes place)
      obtain ⟨hgrows, hfirst⟩ := hsound.nextSequence_after turn
      have hlength :
          ((if isListed then schedule.broadcasts turn else []).filterMap
            Sending.frame?).length ≤ 1 := by
        refine Nat.le_trans (List.length_filterMap_le _ _) ?_
        split
        · exact schedule.length_broadcasts turn
        · exact Nat.zero_le 1
      have hnow : ∀ frame ∈
          (if isListed then schedule.broadcasts turn else []).filterMap
            Sending.frame?,
          frame.sequence = schedule.nextSequence ∧
            schedule.nextSequence < (schedule.after turn).nextSequence := by
        intro frame hframe
        split at hframe
        · exact hfirst frame hframe
        · cases hframe
      rw [shown, List.filterMap_append]
      constructor
      · rw [List.pairwise_append]
        refine ⟨?_, hordered, ?_⟩
        · match hnowFrames :
            (if isListed then schedule.broadcasts turn else []).filterMap
              Sending.frame? with
          | [] => exact List.Pairwise.nil
          | [frame] => exact List.pairwise_singleton _ frame
          | first :: second :: others =>
              rw [hnowFrames] at hlength
              simp at hlength
        · intro frame hframe later hlater
          have hframeBound := hnow frame hframe
          have hlaterBound := hbound later hlater
          omega
      · intro frame hframe
        rcases List.mem_append.mp hframe with hnowFrame | hlater
        · exact Nat.le_of_eq (hnow frame hnowFrame).1.symm
        · exact Nat.le_trans hgrows (hbound frame hlater)

/-- A viewer that joins gets live what the replay has not covered. -/
theorem IsSound.filter_shown (hsound : schedule.IsSound) {cache : MediaCache}
    (hreflects : cache.Reflects schedule.programme) (place : Nat)
    (isListed : Bool) (turns : List Turn) :
    (schedule.shown place isListed turns).filter
        (·.isAfter cache.replayedThrough) =
      (schedule.shown place isListed turns).filter (!·.isReplayed cache) := by
  obtain ⟨-, hbound⟩ := hsound.pairwise_shown place isListed turns
  obtain ⟨hlength, hpositive⟩ := hsound.length_le_nextSequence
  apply List.filter_congr
  intro sending hsending
  cases sending with
  | described metadata => rfl
  | frame frame =>
      have hnext := hbound frame (List.mem_filterMap.mpr ⟨_, hsending, rfl⟩)
      have hcovered := hreflects.replayedThrough_lt_iff
        (Nat.le_trans hlength hnext) (Nat.lt_of_lt_of_le hpositive hnext)
      rw [Bool.eq_iff_iff]
      simpa [Sending.isAfter, Sending.isReplayed] using hcovered

theorem IsSound.pairwise_replay (hsound : schedule.IsSound) {cache : MediaCache}
    (hreflects : cache.Reflects schedule.programme) (place : Nat)
    (isListed : Bool) (turns : List Turn) :
    (cache.group.entries.map GroupEntry.published ++
        ((schedule.shown place isListed turns).filter
          (!·.isReplayed cache)).filterMap Sending.frame?).Pairwise
      fun first second => first.sequence < second.sequence := by
  obtain ⟨hordered, -⟩ := hsound.pairwise_shown place isListed turns
  rw [List.pairwise_append]
  refine ⟨?_, ?_, ?_⟩
  · rw [List.pairwise_map]
    exact hreflects.pairwise_entries
  · exact hordered.sublist (List.filter_sublist.filterMap _)
  · intro replayed hreplayed frame hframe
    obtain ⟨entry, hentry, rfl⟩ := List.mem_map.mp hreplayed
    rw [← hsound.filter_shown hreflects] at hframe
    obtain ⟨sending, hsending, hsame⟩ := List.mem_filterMap.mp hframe
    have hafter := (List.mem_filter.mp hsending).2
    have hcovered := hreflects.le_replayedThrough hentry
    cases sending with
    | described metadata => cases hsame
    | frame live =>
        rw [← Option.some.inj hsame]
        have hlater : cache.replayedThrough < live.sequence := by
          simpa [Sending.isAfter] using hafter
        exact Nat.lt_of_le_of_lt hcovered hlater

end Schedule

end LiveRelay
