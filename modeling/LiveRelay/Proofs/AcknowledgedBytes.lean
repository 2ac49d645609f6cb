import LiveRelay.ProtocolControl

/-!
# Received bytes are accounted for

A tracker keeps two words where an account would keep two numbers.  Counts of
bytes are cut to 32 bits, their sum wraps at 32 bits, and rebasing takes the
same constant, which is no power of two, off both words.  The difference of the
two words goes through all of this: it is the number of bytes since the last
acknowledgement, up to 32 bits.  The received word itself is the number of all
bytes up to the rebase constant, unless a single count is so large that the sum
wraps before it is rebased.
-/

namespace LiveRelay

namespace Acknowledgements

/-! ## One count of bytes -/

/-- Rebasing takes the same off both words. -/
theorem difference_add (tracker : Acknowledgements) (count : Nat) :
    (tracker.add count).received - (tracker.add count).lastSent =
      tracker.received - tracker.lastSent + UInt32.ofNat count := by
  simp only [add]
  split <;> grind

theorem window_add (tracker : Acknowledgements) (count : Nat) :
    (tracker.add count).window = tracker.window := by
  simp only [add]
  split <;> rfl

theorem toNat_rebase : rebase.toNat = 0xF0000000 := rfl

/-- Rebasing once is enough: what is left is less than a sixteenth of the words. -/
theorem received_add_lt (tracker : Acknowledgements) (count : Nat) :
    (tracker.add count).received < rebase := by
  simp only [add]
  split
  · rename_i hreached
    have hword := (tracker.received + UInt32.ofNat count).toNat_lt
    rw [UInt32.lt_iff_toNat_lt, UInt32.toNat_sub_of_le _ _ hreached, toNat_rebase]
    omega
  · rename_i hbelow
    exact UInt32.not_le.mp hbelow

/-- A count that fits between the rebase constant and the end of the words does
not wrap. -/
theorem toNat_received_add {tracker : Acknowledgements} {count : Nat}
    (hbelow : tracker.received < rebase) (hcount : count ≤ 0x10000000) :
    (tracker.add count).received.toNat =
      (tracker.received.toNat + count) % rebase.toNat := by
  rw [UInt32.lt_iff_toNat_lt, toNat_rebase] at hbelow
  have hsum : (tracker.received + UInt32.ofNat count).toNat =
      tracker.received.toNat + count := by
    rw [UInt32.toNat_add, UInt32.toNat_ofNat']
    omega
  simp only [add]
  split
  · rename_i hreached
    have hlarge := UInt32.le_iff_toNat_le.mp hreached
    rw [UInt32.toNat_sub_of_le _ _ hreached]
    rw [hsum, toNat_rebase] at hlarge ⊢
    omega
  · rename_i hshort
    have hsmall := UInt32.lt_iff_toNat_lt.mp (UInt32.not_le.mp hshort)
    rw [hsum] at hsmall ⊢
    exact (Nat.mod_eq_of_lt hsmall).symm

theorem isDue_iff (tracker : Acknowledgements) :
    tracker.isDue = true ↔
      tracker.window ≠ 0 ∧
        tracker.window.toNat ≤ (tracker.received - tracker.lastSent).toNat := by
  simp [isDue, UInt32.le_iff_toNat_le]

theorem receive_of_isDue {tracker : Acknowledgements} {count : Nat}
    (hdue : (tracker.add count).isDue = true) :
    tracker.receive count =
      (some (tracker.add count).received,
        { tracker.add count with lastSent := (tracker.add count).received }) :=
  if_pos hdue

theorem receive_of_not_isDue {tracker : Acknowledgements} {count : Nat}
    (hdue : ¬ (tracker.add count).isDue = true) :
    tracker.receive count = (none, tracker.add count) :=
  if_neg hdue

theorem received_receive (tracker : Acknowledgements) (count : Nat) :
    (tracker.receive count).2.received = (tracker.add count).received := by
  by_cases hdue : (tracker.add count).isDue = true
  · rw [receive_of_isDue hdue]
  · rw [receive_of_not_isDue hdue]

/-! ## The account -/

/-- Bytes that came in at once, and the number acknowledged for them if one fell
due. -/
structure Receipt where
  count : Nat
  due : Option UInt32
  deriving DecidableEq, Repr

def counted : List Receipt → Nat
  | [] => 0
  | receipt :: receipts => receipt.count + counted receipts

/-- What a tracker is told. -/
inductive Call where
  | bytes (count : Nat)
  | window (size : UInt32)
  deriving DecidableEq, Repr

/-- A tracker, and the receipts for all bytes that it was told of, last first. -/
structure Account where
  tracker : Acknowledgements
  receipts : List Receipt := []
  deriving DecidableEq, Repr

namespace Account

/-- A new tracker with this window. -/
def ofWindow (window : UInt32) : Account where
  tracker := { window := window }

def serve (account : Account) : Call → Account
  | .bytes count =>
      let (due, tracker) := account.tracker.receive count
      ⟨tracker, ⟨count, due⟩ :: account.receipts⟩
  | .window size => { account with tracker := { account.tracker with window := size } }

def serveAll (account : Account) (calls : List Call) : Account :=
  calls.foldl serve account

/-- All bytes that came in since the last acknowledgement, or since the start. -/
def sinceLast (account : Account) : Nat :=
  counted (account.receipts.takeWhile fun receipt => receipt.due.isNone)

/-- All bytes that ever came in. -/
def total (account : Account) : Nat :=
  counted account.receipts

/-- The words of the tracker say what the receipts add up to. -/
structure IsBalanced (account : Account) : Prop where
  received_lt : account.tracker.received < rebase
  difference_eq :
    (account.tracker.received - account.tracker.lastSent).toNat =
      account.sinceLast % UInt32.size
  received_eq :
    (∀ receipt ∈ account.receipts, receipt.count ≤ 0x10000000) →
      account.tracker.received.toNat = account.total % rebase.toNat

theorem isBalanced_ofWindow (window : UInt32) : (ofWindow window).IsBalanced where
  received_lt := (by decide : (0 : UInt32) < rebase)
  difference_eq := (by decide : ((0 : UInt32) - 0).toNat = 0 % UInt32.size)
  received_eq _ := (by decide : (0 : UInt32).toNat = 0 % rebase.toNat)

namespace IsBalanced

variable {account : Account}

theorem difference_add (hbalanced : account.IsBalanced) (count : Nat) :
    ((account.tracker.add count).received - (account.tracker.add count).lastSent).toNat =
      (account.sinceLast + count) % UInt32.size := by
  have hsize : UInt32.size = 2 ^ 32 := rfl
  have hbefore := hbalanced.difference_eq
  rw [hsize] at hbefore ⊢
  rw [Acknowledgements.difference_add, UInt32.toNat_add, UInt32.toNat_ofNat', hbefore]
  omega

theorem received_add (hbalanced : account.IsBalanced) {count : Nat}
    (hcounts : ∀ receipt ∈ account.receipts, receipt.count ≤ 0x10000000)
    (hcount : count ≤ 0x10000000) :
    (account.tracker.add count).received.toNat =
      (count + account.total) % rebase.toNat := by
  rw [toNat_received_add hbalanced.received_lt hcount, hbalanced.received_eq hcounts,
    Nat.mod_add_mod, Nat.add_comm]

theorem serve_bytes (hbalanced : account.IsBalanced) (count : Nat) :
    (account.serve (.bytes count)).IsBalanced where
  received_lt := by
    simp only [serve, received_receive]
    exact received_add_lt account.tracker count
  difference_eq := by
    by_cases hdue : (account.tracker.add count).isDue = true
    · -- the acknowledgement takes the difference and the sum to zero
      simp [serve, receive_of_isDue hdue, sinceLast, counted]
    · simp only [serve, receive_of_not_isDue hdue, sinceLast, Option.isNone_none,
        List.takeWhile_cons, if_true, counted]
      rw [hbalanced.difference_add, Nat.add_comm]
      rfl
  received_eq hcounts := by
    simp only [serve] at hcounts ⊢
    rw [received_receive]
    exact hbalanced.received_add
      (fun receipt hreceipt => hcounts receipt (List.mem_cons_of_mem _ hreceipt))
      (hcounts _ List.mem_cons_self)

theorem serve_window (hbalanced : account.IsBalanced) (size : UInt32) :
    (account.serve (.window size)).IsBalanced where
  received_lt := hbalanced.received_lt
  difference_eq := hbalanced.difference_eq
  received_eq := hbalanced.received_eq

theorem serveAll (hbalanced : account.IsBalanced) (calls : List Call) :
    (account.serveAll calls).IsBalanced := by
  induction calls generalizing account with
  | nil => exact hbalanced
  | cons call calls ih =>
      cases call with
      | bytes count => exact ih (hbalanced.serve_bytes count)
      | window size => exact ih (hbalanced.serve_window size)

/-- As long as the sum since the last acknowledgement fits a word, a number falls
due exactly when the sum has reached the window. -/
theorem due_eq (hbalanced : account.IsBalanced) {count : Nat}
    (hfits : account.sinceLast + count < UInt32.size) :
    (account.tracker.receive count).1 =
      if account.tracker.window ≠ 0 ∧
          account.tracker.window.toNat ≤ account.sinceLast + count then
        some (account.tracker.receive count).2.received
      else none := by
  have hsum := hbalanced.difference_add count
  rw [Nat.mod_eq_of_lt hfits] at hsum
  have hiff := (account.tracker.add count).isDue_iff
  rw [hsum, window_add] at hiff
  by_cases hdue : (account.tracker.add count).isDue = true
  · rw [if_pos (hiff.mp hdue), receive_of_isDue hdue]
  · rw [if_neg fun hreached => hdue (hiff.mpr hreached), receive_of_not_isDue hdue]

end IsBalanced

/-- A number that falls due is the received word, and is remembered as sent. -/
theorem eq_received_of_due {tracker : Acknowledgements} {count : Nat} {number : UInt32}
    (hnumber : (tracker.receive count).1 = some number) :
    number = (tracker.receive count).2.received ∧
      (tracker.receive count).2.lastSent = number := by
  by_cases hdue : (tracker.add count).isDue = true
  · rw [receive_of_isDue hdue] at hnumber ⊢
    obtain rfl := Option.some.inj hnumber
    exact ⟨rfl, rfl⟩
  · rw [receive_of_not_isDue hdue] at hnumber
    cases hnumber

/-- Whatever a new tracker is told, its words say what has come in: the received
word stays below the rebase constant and is the total up to that constant if no
count is above a sixteenth of the words, and the difference of the words is the
sum since the last acknowledgement up to 32 bits.  So if the next count leaves
that sum below 32 bits, a number falls due for it exactly when the window is on
and the sum has reached it.  What falls due is the received word, which is then
remembered as sent. -/
theorem isBalanced_and_due (window : UInt32) (calls : List Call) :
    let account := (ofWindow window).serveAll calls
    account.IsBalanced ∧
      ∀ count,
        let sum := account.sinceLast + count
        let (due, tracker) := account.tracker.receive count
        (sum < UInt32.size →
          due =
            if account.tracker.window ≠ 0 ∧ account.tracker.window.toNat ≤ sum then
              some tracker.received
            else none) ∧
          ∀ number, due = some number →
            number = tracker.received ∧ tracker.lastSent = number := by
  intro account
  have hbalanced : account.IsBalanced := (isBalanced_ofWindow window).serveAll calls
  exact ⟨hbalanced, fun count =>
    ⟨hbalanced.due_eq, fun number hnumber => eq_received_of_due hnumber⟩⟩

/-- Across the rebase constant, with the remembered word below zero in between. -/
example :
    let account := (ofWindow 100).serveAll
      [.window 0, .bytes 0xEFFFFFCE, .window 1, .bytes 20, .window 100, .bytes 40]
    account.tracker = { window := 100, received := 10, lastSent := 0xFFFFFFE2 } ∧
      account.sinceLast = 40 ∧ account.tracker.receive 60 =
        (some 70, { window := 100, received := 70, lastSent := 70 }) := by
  decide

end Account

end Acknowledgements

end LiveRelay
