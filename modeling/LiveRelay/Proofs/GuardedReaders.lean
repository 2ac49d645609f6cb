import LiveRelay.Proofs.AmfDecoded
import LiveRelay.Proofs.Faults
import Mathlib.Logic.Function.Basic

/-!
# Readers of values without faults

A reader tests for the bytes that it wants before it takes them, counts how deep it
is nested, and fills slots of its tables that it took before it read what goes into
them.  Here these are steps that can fail: bytes are taken, the count goes down, and
a slot is filled, each with a fault outside its domain.

A guarded reader follows a reader if, at its depth and with at least so many slots
in the tables, it finds the same without a fault and leaves as many slots.  Tables
never shrink while the members of a value are read, also when reading them fails.
-/

namespace LiveRelay

open Partial

/-- Each of the two value formats counts its own nesting. -/
inductive AmfFormat where
  | older
  | newer
  deriving DecidableEq, Repr

abbrev AmfDepths := AmfFormat → Nat

namespace AmfDepths

def enter (format : AmfFormat) (depths : AmfDepths) : AmfDepths :=
  Function.update depths format (depths format + 1)

def leave (format : AmfFormat) (depths : AmfDepths) : Partial AmfDepths := do
  let depth ← decrement (depths format)
  return Function.update depths format depth

theorem leave_enter (format : AmfFormat) (depths : AmfDepths) :
    (depths.enter format).leave format = .ok depths := by
  simp [leave, enter, decrement]

theorem enter_self (format : AmfFormat) (depths : AmfDepths) :
    depths.enter format format = depths format + 1 :=
  Function.update_self ..

theorem enter_of_ne {format other : AmfFormat} (hne : other ≠ format) (depths : AmfDepths) :
    depths.enter format other = depths other :=
  Function.update_of_ne hne ..

end AmfDepths

structure NestedCursor (Tables : Type) where
  depths : AmfDepths
  cursor : AmfCursor Tables

/-- A reader that may stop with a fault; an error of the format is no fault. -/
abbrev GuardedReader (Tables : Type) :=
  ExceptT AmfError (StateT (NestedCursor Tables) Partial)

namespace AmfReader

variable {Tables α β : Type}

/-! ## Steps -/

/-- A reader that has no step that can fail. -/
def total (reader : AmfReader Tables α) : GuardedReader Tables α := fun ⟨depths, cursor⟩ =>
  match reader cursor with
  | .ok found after => .ok (.ok found, ⟨depths, after⟩)
  | .error error after => .ok (.error error, ⟨depths, after⟩)

def guardedTake (count : Nat) : GuardedReader Tables Bytes := fun ⟨depths, cursor⟩ =>
  if cursor.rest.length < count then .ok (.error .unexpectedEnd, ⟨depths, cursor⟩)
  else do
    let (taken, rest) ← splitAt count cursor.rest
    return (.ok taken, ⟨depths, { cursor with rest := rest }⟩)

def guardedByte : GuardedReader Tables UInt8 := fun ⟨depths, cursor⟩ =>
  if cursor.rest.isEmpty then .ok (.error .unexpectedEnd, ⟨depths, cursor⟩)
  else do
    let (first, rest) ← splitByte cursor.rest
    return (.ok first, ⟨depths, { cursor with rest := rest }⟩)

def guardedBinary64 : GuardedReader Tables Binary64 := do
  let bytes ← guardedTake 8
  return ⟨Bytes.word64 bytes⟩

def guardedText (count : Nat) : GuardedReader Tables String := do
  let bytes ← guardedTake count
  match Bytes.toText? bytes with
  | some content => return content
  | none => throw .invalidText

/-- The next value.  The marker is taken once the nesting has been counted, and the
count goes down again whether the value could be read or not. -/
def guardedMarked (format : AmfFormat) (read : UInt8 → GuardedReader Tables AmfValue) :
    GuardedReader Tables AmfValue := fun ⟨depths, cursor⟩ =>
  if cursor.rest.isEmpty then .ok (.error .unexpectedEnd, ⟨depths, cursor⟩)
  else
    let entered := depths.enter format
    if AmfValue.maximumNesting < entered format then do
      let depths ← entered.leave format
      return (.error .nestingTooDeep, ⟨depths, cursor⟩)
    else do
      let (marker, rest) ← splitByte cursor.rest
      let (found, after) ← read marker ⟨entered, { cursor with rest := rest }⟩
      let depths ← after.depths.leave format
      return (found, ⟨depths, after.cursor⟩)

/-- What nobody calls is not reached. -/
def unreached : GuardedReader Tables α := fun _ => .error .tooDeep

def guardedItems (child : GuardedReader Tables AmfValue) :
    (count : Nat) → List AmfValue → GuardedReader Tables (List AmfValue)
  | 0, done => return done.reverse
  | count + 1, done => do
      let value ← child
      guardedItems child count (value :: done)

/-! ## Following a reader -/

/-- What a guarded reader does if the reader has this result. -/
def Follows (size : Tables → Nat) (depths : AmfDepths) (least : Nat)
    (run : Partial (Except AmfError α × NestedCursor Tables)) :
    EStateM.Result AmfError (AmfCursor Tables) α → Prop
  | .ok found after => run = .ok (.ok found, ⟨depths, after⟩) ∧ least ≤ size after.tables
  | .error error after =>
      run = .ok (.error error, ⟨depths, after⟩) ∧ least ≤ size after.tables

/-- At these depths, and from tables with at least `least` slots. -/
def Guards (size : Tables → Nat) (depths : AmfDepths) (least : Nat)
    (guarded : GuardedReader Tables α) (reader : AmfReader Tables α) : Prop :=
  ∀ cursor, least ≤ size cursor.tables →
    Follows size depths least (guarded ⟨depths, cursor⟩) (reader cursor)

section Guards

variable {size : Tables → Nat} {depths : AmfDepths} {least : Nat}

theorem guards_pure (found : α) : Guards size depths least (pure found) (pure found) :=
  fun _ hleast => ⟨rfl, hleast⟩

theorem guards_throw (error : AmfError) :
    Guards size depths least (throw error : GuardedReader Tables α) (throw error) :=
  fun _ hleast => ⟨rfl, hleast⟩

theorem Guards.bind {guarded : GuardedReader Tables α} {reader : AmfReader Tables α}
    {next : α → GuardedReader Tables β} {behind : α → AmfReader Tables β}
    (hfirst : Guards size depths least guarded reader)
    (hnext : ∀ found, Guards size depths least (next found) (behind found)) :
    Guards size depths least (guarded >>= next) (reader >>= behind) := by
  intro cursor hleast
  have hreader := hfirst cursor hleast
  change Follows size depths least
    (guarded ⟨depths, cursor⟩ >>= fun run => ExceptT.bindCont next run.1 run.2)
    (EStateM.bind reader behind cursor)
  unfold EStateM.bind
  cases hrun : reader cursor with
  | ok found after =>
      rw [hrun] at hreader
      rw [hreader.1]
      exact hnext found after hreader.2
  | error error after =>
      rw [hrun] at hreader
      rw [hreader.1]
      exact ⟨rfl, hreader.2⟩

theorem guards_total {reader : AmfReader Tables α}
    (hkeeps : Keeps (least ≤ size ·) (fun _ => True) reader) :
    Guards size depths least (total reader) reader := by
  intro cursor hleast
  have hreader := hkeeps cursor hleast
  simp only [total]
  cases hrun : reader cursor with
  | ok found after =>
      rw [hrun] at hreader
      exact ⟨rfl, hreader.1⟩
  | error error after =>
      rw [hrun] at hreader
      exact ⟨rfl, hreader⟩

theorem Follows.mono {more : Nat} (hmore : least ≤ more)
    {run : Partial (Except AmfError α × NestedCursor Tables)}
    {result : EStateM.Result AmfError (AmfCursor Tables) α}
    (hfollows : Follows size depths more run result) :
    Follows size depths least run result := by
  cases result <;> exact ⟨hfollows.1, Nat.le_trans hmore hfollows.2⟩

/-- What follows on a slot that has been taken may rely on it. -/
theorem guards_taking {guarded : GuardedReader Tables Nat} {reader : AmfReader Tables Nat}
    {next : Nat → GuardedReader Tables β} {behind : Nat → AmfReader Tables β}
    (htaken : ∀ cursor, ∃ after,
      reader cursor = .ok (size cursor.tables) after ∧
        size after.tables = size cursor.tables + 1 ∧
        guarded ⟨depths, cursor⟩ = .ok (.ok (size cursor.tables), ⟨depths, after⟩))
    (hnext : ∀ slot, Guards size depths (slot + 1) (next slot) (behind slot)) :
    Guards size depths least (guarded >>= next) (reader >>= behind) := by
  intro cursor hleast
  obtain ⟨after, hreader, hsize, hguarded⟩ := htaken cursor
  have hbehind := hnext (size cursor.tables) after (Nat.le_of_eq hsize.symm)
  change Follows size depths least
    (guarded ⟨depths, cursor⟩ >>= fun run => ExceptT.bindCont next run.1 run.2)
    (EStateM.bind reader behind cursor)
  unfold EStateM.bind
  rw [hreader, hguarded]
  exact hbehind.mono (Nat.le_succ_of_le hleast)

/-! ## Fields -/

theorem guards_take (count : Nat) :
    Guards size depths least (guardedTake count) (take count) := by
  intro cursor hleast
  simp only [guardedTake, take, Bytes.split?_eq]
  by_cases hshort : cursor.rest.length < count
  · rw [if_pos hshort, if_neg (Nat.not_le_of_lt hshort)]
    exact ⟨rfl, hleast⟩
  · have hwhole := Nat.le_of_not_lt hshort
    rw [if_neg hshort, if_pos hwhole, splitAt_of_le hwhole]
    exact ⟨rfl, hleast⟩

theorem guards_byte : Guards size depths least guardedByte byte := by
  rintro ⟨tables, rest⟩ hleast
  cases rest <;> exact ⟨rfl, hleast⟩

theorem guards_binary64 : Guards size depths least guardedBinary64 binary64 :=
  (guards_take 8).bind fun _ => guards_pure _

theorem guards_text (count : Nat) :
    Guards size depths least (guardedText count) (text count) := by
  refine (guards_take count).bind fun bytes => ?_
  cases Bytes.toText? bytes with
  | some content => exact guards_pure _
  | none => exact guards_throw _

theorem guards_items {guarded : GuardedReader Tables AmfValue}
    {child : AmfReader Tables AmfValue} (hchild : Guards size depths least guarded child)
    (count : Nat) (done : List AmfValue) :
    Guards size depths least (guardedItems guarded count done) (items child count done) := by
  induction count generalizing done with
  | zero => exact guards_pure _
  | succ count ih => exact hchild.bind fun value => ih (value :: done)

/-! ## Nesting -/

/-- Where the budget is used up, nothing is read. -/
theorem guards_marked_none {format : AmfFormat}
    (hdepth : AmfValue.maximumNesting ≤ depths format)
    (read : UInt8 → GuardedReader Tables AmfValue) :
    Guards size depths least (guardedMarked format read) (marked none) := by
  rintro ⟨tables, rest⟩ hleast
  cases rest with
  | nil => exact ⟨rfl, hleast⟩
  | cons marker rest =>
      have hdeep : AmfValue.maximumNesting < depths.enter format format := by
        rw [depths.enter_self]
        exact Nat.lt_succ_of_le hdepth
      refine ⟨?_, hleast⟩
      simp only [guardedMarked, List.isEmpty_cons, Bool.false_eq_true, if_false, if_pos hdeep,
        depths.leave_enter, ok_bind]
      rfl

theorem guards_marked {format : AmfFormat} (hdepth : depths format < AmfValue.maximumNesting)
    {guarded : UInt8 → GuardedReader Tables AmfValue}
    {read : UInt8 → AmfReader Tables AmfValue}
    (hread : ∀ marker, Guards size (depths.enter format) least (guarded marker) (read marker)) :
    Guards size depths least (guardedMarked format guarded) (marked (some read)) := by
  rintro ⟨tables, rest⟩ hleast
  cases rest with
  | nil => exact ⟨rfl, hleast⟩
  | cons marker rest =>
      have hallowed : ¬AmfValue.maximumNesting < depths.enter format format := by
        rw [depths.enter_self]
        exact Nat.not_lt_of_le hdepth
      have hvalue := hread marker ⟨tables, rest⟩ hleast
      change Follows size depths least _ (read marker ⟨tables, rest⟩)
      simp only [guardedMarked, List.isEmpty_cons, Bool.false_eq_true, if_false,
        if_neg hallowed, splitByte, ok_bind]
      cases hrun : read marker ⟨tables, rest⟩ with
      | ok found after =>
          rw [hrun] at hvalue
          rw [hvalue.1, ok_bind, depths.leave_enter]
          exact ⟨rfl, hvalue.2⟩
      | error error after =>
          rw [hrun] at hvalue
          rw [hvalue.1, ok_bind, depths.leave_enter]
          exact ⟨rfl, hvalue.2⟩

end Guards

end AmfReader

end LiveRelay
