import LiveRelay.SessionState
import Mathlib.Data.List.Induction

/-!
# Stream numbers

Stream numbers come from two sides.  The server hands them out one after the
other, starting again behind the last, and a client may use any number without
having been given it.

A number is handed out without a look at the streams.  So it may be in use
already: the client was first to use it, or all numbers have been handed out
since the session was last given this one.  These are the only two ways, and the
streams with other numbers are never touched.
-/

namespace LiveRelay

/-- What is done to the streams of a session. -/
inductive StreamAct where
  | allocated
  | modeSet (streamId : UInt32) (mode : StreamMode)
  | modeTaken (streamId : UInt32)
  | removed (streamId : UInt32)

def StreamAct.isAllocation : StreamAct → Bool
  | .allocated => true
  | _ => false

namespace SessionState

def perform (state : SessionState) : StreamAct → SessionState
  | .allocated => state.allocate.2
  | .modeSet streamId mode => state.setMode streamId mode
  | .modeTaken streamId => (state.takeMode streamId).2
  | .removed streamId => (state.removeStream streamId).2

def performAll (state : SessionState) (acts : List StreamAct) : SessionState :=
  acts.foldl perform state

/-- The stream with the number exists after the act, whatever was before. -/
def TakesUp (state : SessionState) (streamId : UInt32) : StreamAct → Prop
  | .allocated => state.nextStreamId = streamId
  | .modeSet used _ => used = streamId
  | .modeTaken _ => False
  | .removed _ => False

/-- An act has taken the number into use, and it was not removed since then. -/
def InUse (acts : List StreamAct) (streamId : UInt32) : Prop :=
  ∃ earlier act later, acts = earlier ++ act :: later ∧
    (performAll {} earlier).TakesUp streamId act ∧ .removed streamId ∉ later

/-- No number is used that the session does not have. -/
def AsksFirst (acts : List StreamAct) : Prop :=
  ∀ earlier streamId mode later, acts = earlier ++ .modeSet streamId mode :: later →
    (performAll {} earlier).stream? streamId ≠ none

variable {state : SessionState} {acts : List StreamAct} {streamId : UInt32}

theorem performAll_concat (state : SessionState) (acts : List StreamAct) (act : StreamAct) :
    state.performAll (acts ++ [act]) = (state.performAll acts).perform act :=
  List.foldl_append

/-! ## One act -/

theorem stream?_setMode (state : SessionState) (streamId other : UInt32) (mode : StreamMode) :
    (state.setMode streamId mode).stream? other =
      if streamId = other then some mode else state.stream? other :=
  Table.get?_put ..

theorem stream?_allocate (state : SessionState) (other : UInt32) :
    state.allocate.2.stream? other =
      if state.nextStreamId = other then some .idle else state.stream? other :=
  Table.get?_put ..

theorem stream?_takeMode_eq_none_iff (state : SessionState) (streamId other : UInt32) :
    (state.takeMode streamId).2.stream? other = none ↔ state.stream? other = none := by
  unfold takeMode
  split
  · rename_i mode hmode
    rw [stream?_setMode]
    split
    · rename_i hsame
      simp [← hsame, hmode]
    · rfl
  · rfl

theorem stream?_removeStream (state : SessionState) (streamId other : UInt32) :
    (state.removeStream streamId).2.stream? other =
      if streamId = other then none else state.stream? other :=
  Table.get?_erase ..

theorem stream?_perform_eq_none_iff (state : SessionState) (act : StreamAct)
    (streamId : UInt32) :
    (state.perform act).stream? streamId = none ↔
      ¬ state.TakesUp streamId act ∧
        (act = .removed streamId ∨ state.stream? streamId = none) := by
  cases act with
  | allocated =>
      by_cases hsame : state.nextStreamId = streamId <;>
        simp [perform, TakesUp, stream?_allocate, hsame]
  | modeSet used mode =>
      by_cases hsame : used = streamId <;> simp [perform, TakesUp, stream?_setMode, hsame]
  | modeTaken taken => simp [perform, TakesUp, stream?_takeMode_eq_none_iff]
  | removed gone =>
      by_cases hsame : gone = streamId <;>
        simp [perform, TakesUp, stream?_removeStream, hsame]

theorem nextStreamId_perform (state : SessionState) (act : StreamAct) :
    (state.perform act).nextStreamId =
      if act.isAllocation then max (state.nextStreamId + 1) 1 else state.nextStreamId := by
  cases act with
  | allocated => rfl
  | modeSet used mode => rfl
  | modeTaken taken =>
      simp only [perform, takeMode]
      split <;> rfl
  | removed gone => rfl

/-- Zero is left out. -/
theorem toNat_max_succ (number : UInt32) :
    (max (number + 1) 1).toNat = number.toNat % 4294967295 + 1 := by
  have hlt := number.toNat_lt
  rw [show max (number + 1) 1 = if number + 1 ≤ 1 then 1 else number + 1 from rfl]
  split
  · rename_i hle
    rw [UInt32.le_iff_toNat_le] at hle
    simp only [UInt32.toNat_add, UInt32.reduceToNat] at hle ⊢
    omega
  · rename_i hle
    rw [UInt32.le_iff_toNat_le] at hle
    simp only [UInt32.toNat_add, UInt32.reduceToNat] at hle ⊢
    omega

/-! ## All acts -/

/-- Numbers are handed out in order, and after the last one comes the first. -/
theorem toNat_nextStreamId_performAll (acts : List StreamAct) :
    (performAll {} acts).nextStreamId.toNat =
      acts.countP StreamAct.isAllocation % 4294967295 + 1 := by
  induction acts using List.reverseRecOn with
  | nil => rfl
  | append_singleton acts act ih =>
      rw [performAll_concat, nextStreamId_perform, List.countP_append, List.countP_singleton]
      split
      · rw [toNat_max_succ, ih]
        omega
      · exact ih

theorem inUse_concat_iff (acts : List StreamAct) (act : StreamAct) (streamId : UInt32) :
    InUse (acts ++ [act]) streamId ↔
      (performAll {} acts).TakesUp streamId act ∨
        InUse acts streamId ∧ act ≠ .removed streamId := by
  constructor
  · rintro ⟨earlier, first, later, hacts, htakes, hkept⟩
    rcases List.eq_nil_or_concat later with rfl | ⟨later, last, rfl⟩
    · obtain ⟨rfl, hsame⟩ := List.append_inj' hacts rfl
      rw [List.singleton_inj.mp hsame]
      exact .inl htakes
    · rw [List.concat_eq_append, ← List.cons_append, ← List.append_assoc] at hacts
      obtain ⟨rfl, hsame⟩ := List.append_inj' hacts rfl
      obtain rfl := List.singleton_inj.mp hsame
      rw [List.concat_eq_append, List.mem_append, List.mem_singleton, not_or] at hkept
      exact .inr ⟨⟨earlier, first, later, rfl, htakes, hkept.1⟩, Ne.symm hkept.2⟩
  · rintro (htakes | ⟨⟨earlier, first, later, rfl, htakes, hkept⟩, hstays⟩)
    · exact ⟨acts, act, [], rfl, htakes, List.not_mem_nil⟩
    · refine ⟨earlier, first, later ++ [act], by simp, htakes, ?_⟩
      rw [List.mem_append, List.mem_singleton, not_or]
      exact ⟨hkept, Ne.symm hstays⟩

theorem stream?_performAll_eq_none_iff (acts : List StreamAct) (streamId : UInt32) :
    (performAll {} acts).stream? streamId = none ↔ ¬ InUse acts streamId := by
  induction acts using List.reverseRecOn with
  | nil =>
      have hunused : ¬ InUse [] streamId := by
        rintro ⟨earlier, act, later, hacts, -⟩
        simp at hacts
      exact iff_of_true rfl hunused
  | append_singleton acts act ih =>
      rw [performAll_concat, stream?_perform_eq_none_iff, inUse_concat_iff, ih, not_or,
        not_and_or, not_not, or_comm]

theorem AsksFirst.of_concat {act : StreamAct} (hasks : AsksFirst (acts ++ [act])) :
    AsksFirst acts :=
  fun earlier streamId mode later hacts =>
    hasks earlier streamId mode (later ++ [act]) (by simp [hacts])

/-- Numbers that a session has were handed out, if it asks for them first. -/
theorem toNat_le_of_asksFirst (hasks : AsksFirst acts)
    (hcount : acts.countP StreamAct.isAllocation < 4294967295)
    (hused : (performAll {} acts).stream? streamId ≠ none) :
    streamId.toNat ≤ acts.countP StreamAct.isAllocation := by
  induction acts using List.reverseRecOn with
  | nil => exact absurd rfl hused
  | append_singleton acts act ih =>
      rw [List.countP_append, List.countP_singleton] at hcount ⊢
      have hearlier (hbefore : (performAll {} acts).stream? streamId ≠ none) :
          streamId.toNat ≤ acts.countP StreamAct.isAllocation :=
        ih hasks.of_concat (by omega) hbefore
      rw [performAll_concat, ne_eq, stream?_perform_eq_none_iff, not_and_or, not_not] at hused
      rcases hused with htakes | hstays
      · cases act with
        | allocated =>
            have hnext := toNat_nextStreamId_performAll acts
            rw [show (performAll {} acts).nextStreamId = streamId from htakes] at hnext
            simp only [StreamAct.isAllocation, if_true] at hcount ⊢
            omega
        | modeSet used mode =>
            have hsame : used = streamId := htakes
            have hknown := hearlier (hsame ▸ hasks acts used mode [] rfl)
            omega
        | modeTaken taken => exact htakes.elim
        | removed gone => exact htakes.elim
      · have hknown := hearlier fun hnone => hstays (.inr hnone)
        omega

/-- The number that is handed out next, and when nobody uses it yet. -/
theorem allocate_unused_iff (acts : List StreamAct) :
    let state := performAll {} acts
    let (streamId, after) := state.allocate
    streamId ≠ 0 ∧
      streamId.toNat = acts.countP StreamAct.isAllocation % 4294967295 + 1 ∧
      after.stream? streamId = some .idle ∧
      (∀ other, other ≠ streamId → after.stream? other = state.stream? other) ∧
      (state.stream? streamId = none ↔ ¬ InUse acts streamId) ∧
      (AsksFirst acts → acts.countP StreamAct.isAllocation < 4294967295 →
        state.stream? streamId = none) := by
  intro state
  have hnumber := toNat_nextStreamId_performAll acts
  refine ⟨fun hzero => ?_, hnumber, ?_, fun other hother => ?_,
    stream?_performAll_eq_none_iff acts _, fun hasks hcount => ?_⟩
  · rw [show (performAll {} acts).nextStreamId = 0 from hzero] at hnumber
    exact absurd hnumber (by simp)
  · exact (stream?_allocate state _).trans (if_pos rfl)
  · exact (stream?_allocate state other).trans (if_neg hother.symm)
  · refine Decidable.byContradiction fun hused => ?_
    have hle := toNat_le_of_asksFirst hasks hcount hused
    have hnext : state.nextStreamId.toNat = _ := hnumber
    omega

/-- A client publishes on stream one, and is given this number afterwards. -/
theorem stream?_allocate_of_unasked :
    let state := performAll {} [.modeSet 1 (.publishing 0)]
    state.allocate.1 = 1 ∧ state.stream? 1 = some (.publishing 0) ∧
      state.allocate.2.stream? 1 = some .idle := by
  decide

end SessionState

end LiveRelay
