import LiveRelay.Message
import LiveRelay.Proofs.AmfDecoded
import LiveRelay.Proofs.AmfReferences

/-!
# Values in a sequence

Commands and data messages are read value by value, up to a number of values, and
a payload that ends before gives fewer.  Written values come back in their order.
As each of them takes its own bytes and no others, what stands behind them matters
only if more values are wanted than were written.
-/

namespace LiveRelay

namespace Amf0

open AmfReader

theorem valuesUpTo_of_ok {cursor after : AmfCursor Amf0Tables} {found : AmfValue}
    (hvalue : value true cursor = .ok found after) (count : Nat) (done : List AmfValue) :
    valuesUpTo (count + 1) done cursor = valuesUpTo count (found :: done) after := by
  simp only [valuesUpTo, hvalue]

theorem valuesUpTo_of_end {cursor after : AmfCursor Amf0Tables}
    (hvalue : value true cursor = .error .unexpectedEnd after) (count : Nat)
    (done : List AmfValue) :
    valuesUpTo (count + 1) done cursor = .ok done.reverse after := by
  simp only [valuesUpTo, hvalue]

theorem valuesUpTo_nil (count : Nat) (done : List AmfValue) (known : Amf0Tables) :
    valuesUpTo count done ⟨known, []⟩ = .ok done.reverse ⟨known, []⟩ := by
  cases count with
  | zero => rfl
  | succ count => exact valuesUpTo_of_end rfl count done

/-! ## Written values -/

theorem takes_value {value : AmfValue} (hwritable : value.IsWritable)
    (hheight : value.height ≤ AmfValue.maximumNesting) (known : Amf0Tables) :
    Takes (Amf0.value true) known (write value) value.asWritten
      (known.add (value.holders.map AmfValue.asWritten)) :=
  standsFor_write hwritable known AmfValue.maximumNesting hheight

theorem takes_value_of_isLeaf {value : AmfValue} (hleaf : value.IsLeaf)
    (hregular : value.IsRegular) (known : Amf0Tables) :
    Takes (Amf0.value true) known (write value) value.asWritten known :=
  takes_leaf (valueWithin true 63) hleaf hregular known

section Values

variable {values : List AmfValue} (hwritable : ∀ value ∈ values, value.IsWritable)
  (hheight : ∀ value ∈ values, value.height ≤ AmfValue.maximumNesting)
include hwritable hheight

theorem valuesUpTo_append (count : Nat) (done : List AmfValue) (known : Amf0Tables)
    {rest : Bytes} (hrest : values.length < count → rest = []) :
    ∃ after, valuesUpTo count done ⟨known, writeItems values ++ rest⟩ =
      .ok (done.reverse ++ (values.take count).map AmfValue.asWritten) after := by
  induction values generalizing count done known with
  | nil =>
      rw [List.take_nil, List.map_nil, List.append_nil]
      cases count with
      | zero => exact ⟨_, rfl⟩
      | succ count =>
          rw [hrest (Nat.succ_pos count)]
          exact ⟨_, valuesUpTo_nil (count + 1) done known⟩
  | cons first values ih =>
      cases count with
      | zero => exact ⟨_, by rw [List.take_zero, List.map_nil, List.append_nil]; rfl⟩
      | succ count =>
          have hfirst := takes_value (hwritable first List.mem_cons_self)
            (hheight first List.mem_cons_self) known (writeItems values ++ rest)
          obtain ⟨after, hothers⟩ := ih
            (fun other hother => hwritable other (List.mem_cons_of_mem _ hother))
            (fun other hother => hheight other (List.mem_cons_of_mem _ hother))
            count (first.asWritten :: done)
            (known.add (first.holders.map AmfValue.asWritten))
            (fun hmore => hrest (Nat.succ_lt_succ hmore))
          refine ⟨after, ?_⟩
          rw [writeItems, List.append_assoc, valuesUpTo_of_ok hfirst, hothers]
          simp

theorem valuesUpTo_writeItems (count : Nat) (done : List AmfValue) (known : Amf0Tables) :
    ∃ after, valuesUpTo count done ⟨known, writeItems values⟩ =
      .ok (done.reverse ++ (values.take count).map AmfValue.asWritten) after := by
  have hread := valuesUpTo_append hwritable hheight count done known fun _ => rfl
  rwa [List.append_nil] at hread

end Values

/-! ## Regular values -/

theorem keeps_valuesUpTo (count : Nat) {done : List AmfValue}
    (hdone : ∀ value ∈ done, value.Everywhere AmfValue.IsRegular) :
    Keeps Amf0Tables.IsSound
      (fun found => ∀ value ∈ found, value.Everywhere AmfValue.IsRegular)
      (valuesUpTo count done) := by
  have hreversed : ∀ {done : List AmfValue}, (∀ value ∈ done, value.Everywhere AmfValue.IsRegular) →
      ∀ value ∈ done.reverse, value.Everywhere AmfValue.IsRegular :=
    fun hdone value hvalue => hdone value (List.mem_reverse.mp hvalue)
  induction count generalizing done with
  | zero => exact keeps_pure (hreversed hdone)
  | succ count ih =>
      intro cursor hsound
      have hvalue := findsRegular_valueWithin true AmfValue.maximumNesting cursor hsound
      have hread : Amf0.value true cursor = valueWithin true AmfValue.maximumNesting cursor := rfl
      cases hrun : valueWithin true AmfValue.maximumNesting cursor with
      | ok found after =>
          rw [hrun] at hvalue
          rw [valuesUpTo_of_ok (hread.trans hrun)]
          exact ih (List.forall_mem_cons.mpr ⟨hvalue.2, hdone⟩) after hvalue.1
      | error error after =>
          rw [hrun] at hvalue
          simp only [valuesUpTo, hread, hrun]
          split
          · cases ‹_ = _›
          · rename_i hended
            cases hended
            exact ⟨hvalue, hreversed hdone⟩
          · rename_i hended
            cases hended
            exact hvalue

end Amf0

end LiveRelay
