import LiveRelay.Proofs.AmfDecoded
import LiveRelay.Proofs.AmfRoundTrip

/-!
# Forwarded values

What a message held is written again for every viewer.  All that was read is
regular, so only two things can go wrong on the way: a name that the older
format cannot write, and a value that references have made higher than a
reader will go.  With names that can be written, the height alone decides.
-/

namespace LiveRelay

namespace AmfReader

variable {Tables : Type}

/-- The values of a row that ended with the input. -/
def Row.outcome (row : Row Tables) : Except AmfError (List AmfValue) :=
  match row.error with
  | none => .ok row.values
  | some error => .error error

end AmfReader

namespace Amf0

open AmfReader

theorem valuesOf_eq_outcome (bytes : Bytes) :
    valuesOf bytes = (row (value true) ⟨{}, bytes⟩).outcome := rfl

theorem length_le_length_writeItems (items : List AmfValue) :
    items.length ≤ (writeItems items).length := by
  induction items with
  | nil => exact Nat.zero_le _
  | cons item items ih =>
      have hitem := List.length_pos_iff.mpr (write_ne_nil item)
      simp only [writeItems, List.length_append, List.length_cons]
      omega

theorem outcome_rowWithin {child : Amf0Reader AmfValue} {budget : Nat}
    {items : List AmfValue} (hchild : ∀ item ∈ items, ReadsBack child budget item)
    {bound : Bytes} (hbound : items.length ≤ bound.length) (done : List AmfValue)
    (tables : Amf0Tables) :
    (rowWithin child bound done ⟨tables, writeItems items⟩).outcome =
      within budget (AmfValue.heightAmong items)
        (done.reverse ++ items.map AmfValue.asWritten) := by
  -- Every value takes at least one of the bytes that bound the row.
  induction items generalizing bound done tables with
  | nil =>
      rw [AmfValue.heightAmong, within_of_le (Nat.zero_le _), List.map_nil,
        List.append_nil]
      cases bound <;> rfl
  | cons item items ih =>
      obtain ⟨first, bound, rfl⟩ := List.exists_cons_of_length_pos
        (Nat.lt_of_lt_of_le (Nat.succ_pos _) hbound)
      have hrest : (writeItems (item :: items)).isEmpty = false := by
        simp [writeItems, write_ne_nil]
      have hitem := hchild item List.mem_cons_self
      rw [rowWithin, hrest]
      by_cases hheight : item.height ≤ budget
      · rw [ReadsBack, within_of_le hheight] at hitem
        obtain ⟨after, hread⟩ := hitem tables (writeItems items)
        have hmax : within budget (AmfValue.heightAmong (item :: items))
            (done.reverse ++ (item :: items).map AmfValue.asWritten) =
              within budget (AmfValue.heightAmong items)
                ((item.asWritten :: done).reverse ++ items.map AmfValue.asWritten) := by
          simp only [within, AmfValue.heightAmong, Nat.max_le, hheight, true_and,
            List.map_cons, List.reverse_cons, List.append_assoc, List.singleton_append]
        rw [hmax, ← ih (fun other hother => hchild other (List.mem_cons_of_mem _ hother))
          (Nat.le_of_succ_le_succ hbound) (item.asWritten :: done) after.tables]
        simp [writeItems, hread, ended]
      · have hlt : budget < item.height := Nat.lt_of_not_le hheight
        rw [ReadsBack, within_of_lt hlt] at hitem
        obtain ⟨after, hread⟩ := hitem tables (writeItems items)
        rw [AmfValue.heightAmong,
          within_of_lt (Nat.lt_of_lt_of_le hlt (Nat.le_max_left _ _))]
        simp [writeItems, hread, ended, Row.outcome]

theorem valuesOf_writeItems {items : List AmfValue}
    (hwritable : ∀ item ∈ items, item.IsWritable) :
    valuesOf (writeItems items) =
      within AmfValue.maximumNesting (AmfValue.heightAmong items)
        (items.map AmfValue.asWritten) := by
  rw [valuesOf_eq_outcome, row]
  exact outcome_rowWithin
    (fun item hitem => readsBack_valueWithin true _ (hwritable item hitem))
    (length_le_length_writeItems items) [] {}

/-- What was read survives being written again, in whatever order, if no value
is too high; otherwise the reader says so. -/
theorem valuesOf_forwarded {bytes : Bytes} {values arranged : List AmfValue}
    (hread : valuesOf bytes = .ok values)
    (harranged : List.Forall₂ AmfValue.Alike values arranged)
    (hnamed : ∀ value ∈ values, value.Everywhere AmfValue.IsNamed) :
    ∃ decoded, List.Forall₂ AmfValue.Alike (values.map AmfValue.asWritten) decoded ∧
      valuesOf (writeItems arranged) =
        if ∀ value ∈ values, value.height ≤ AmfValue.maximumNesting then .ok decoded
        else .error .nestingTooDeep := by
  have hwritable : ∀ written ∈ arranged, written.IsWritable := by
    intro written hwritten
    obtain ⟨original, horiginal, halike⟩ := AmfValue.exists_alike harranged hwritten
    exact halike.isWritable
      ⟨everywhere_of_valuesOf hread horiginal, hnamed original horiginal⟩
  refine ⟨_, AmfValue.forall₂_asWritten harranged, ?_⟩
  rw [valuesOf_writeItems hwritable, ← AmfValue.heightAmong_alike harranged]
  simp only [within, AmfValue.heightAmong_le_iff]

/-- An object of the newer format, whose second value refers to a name. -/
theorem valuesOf_forwarded_of_object :
    ∃ decoded, List.Forall₂ AmfValue.Alike
        [.object [("width", .number (.ofInt 5)), ("codec", .text "width")]] decoded ∧
      valuesOf (writeItems [.object [("codec", .text "width"), ("width", .integer 5)]]) =
        .ok decoded := by
  have hread : valuesOf
      [0x11, 0x0A, 0x23, 0x01, 0x0B, 0x77, 0x69, 0x64, 0x74, 0x68,
        0x0B, 0x63, 0x6F, 0x64, 0x65, 0x63, 0x04, 0x05, 0x06, 0x00] =
      .ok [.object [("width", .integer 5), ("codec", .text "width")]] := by rfl
  have harranged : List.Forall₂ AmfValue.Alike
      [.object [("width", .integer 5), ("codec", .text "width")]]
      [.object [("codec", .text "width"), ("width", .integer 5)]] :=
    .cons (.reordered .object (List.Perm.swap _ _ _)) .nil
  have hnamed : AmfValue.Everywhere AmfValue.IsNamed
      (.object [("width", .integer 5), ("codec", .text "width")]) := by
    refine .node (by decide) ?_
    simp only [AmfValue.parts, List.map_cons, List.forall_mem_cons]
    exact ⟨.leaf trivial rfl, .leaf trivial rfl, List.forall_mem_nil _⟩
  exact valuesOf_forwarded hread harranged (List.forall_mem_singleton.mpr hnamed)

/-- The newer format has a member with the empty name, which ends an object of
the older one.  What follows it is read as further values. -/
theorem valuesOf_writeItems_of_emptyName :
    valuesOf [0x11, 0x0A, 0x13, 0x01, 0x01, 0x01] = .ok [.object [("", .null)]] ∧
      valuesOf (writeItems [.object [("", .null)]]) = .error .unexpectedEnd :=
  ⟨rfl, rfl⟩

end Amf0

end LiveRelay
