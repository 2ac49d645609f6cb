import LiveRelay.Proofs.AmfForwarding
import LiveRelay.Proofs.AmfSequences
import LiveRelay.Proofs.ControlMessages

/-!
# Messages that are written again

A message that was read and is written again is read as the same message.  What
reading leaves out is gone the first time: the reserved bit of a chunk size, the
bytes behind the fields of a control message, the format byte of the newer variants,
and in a data message a value that is not complete.

The values of a data message come back as far as the older format can write them.
-/

namespace LiveRelay

/-- The message with another type and payload. -/
def WireMessage.carrying (wire : WireMessage) (written : UInt8 × Bytes) : WireMessage :=
  { wire with typeId := written.1, payload := written.2 }

/-! ## Data messages -/

namespace Message

open Amf0

section Data

variable {streamId : UInt32} {payload : Bytes} {data : DataMessage}

theorem readData_eq_ok_iff :
    readData streamId payload = .ok data ↔
      ∃ first between after, Amf0.value true ⟨{}, payload⟩ = .ok first between ∧
        valuesUpTo between.rest.length [] between = .ok data.values after ∧
        data = ⟨first.text?.getD "", data.values, streamId⟩ := by
  unfold readData
  dsimp only
  constructor
  · intro hread
    split at hread
    · rename_i found after hrun
      cases hread
      obtain ⟨first, between, hfirst, hrest⟩ := AmfReader.exists_of_bind_ok hrun
      obtain ⟨others, ended, hothers, hdone⟩ := AmfReader.exists_of_bind_ok hrest
      cases hdone
      exact ⟨first, between, after, hfirst, hothers, rfl⟩
    · cases hread
  · rintro ⟨first, between, after, hfirst, hothers, hdata⟩
    simp only [bind, EStateM.bind, hfirst, hothers]
    exact congrArg Except.ok hdata.symm

/-- The name and the values of a data message have no more bytes than the older
format can count. -/
theorem isRegular_of_readData (hread : readData streamId payload = .ok data) :
    (AmfValue.text data.name).IsRegular ∧
      ∀ value ∈ data.values, value.Everywhere AmfValue.IsRegular := by
  obtain ⟨first, between, after, hfirst, hothers, hdata⟩ := readData_eq_ok_iff.mp hread
  have hfound := findsRegular_valueWithin true AmfValue.maximumNesting ⟨{}, payload⟩
    isSound_empty
  rw [show valueWithin true AmfValue.maximumNesting ⟨{}, payload⟩ = _ from hfirst] at hfound
  have hvalues := keeps_valuesUpTo between.rest.length (List.forall_mem_nil _) between hfound.1
  rw [hothers] at hvalues
  refine ⟨?_, hvalues.2⟩
  rw [hdata]
  cases first with
  | text content => exact hfound.2.here
  | _ => exact (by decide : (AmfValue.text "").IsRegular)

theorem readData_write (hread : readData streamId payload = .ok data)
    (hnamed : ∀ value ∈ data.values, value.Everywhere AmfValue.IsNamed)
    (hheight : ∀ value ∈ data.values, value.height ≤ AmfValue.maximumNesting)
    {arranged : List AmfValue} (harranged : List.Forall₂ AmfValue.Alike data.values arranged) :
    readData streamId (DataMessage.write { data with values := arranged }) =
      .ok { data with values := arranged.map AmfValue.asWritten } := by
  obtain ⟨hname, hregular⟩ := isRegular_of_readData hread
  obtain ⟨_, _, _, _, _, hdata⟩ := readData_eq_ok_iff.mp hread
  have hstream : data.streamId = streamId := congrArg DataMessage.streamId hdata
  have hwritable : ∀ written ∈ arranged, written.IsWritable := by
    intro written hwritten
    obtain ⟨original, horiginal, halike⟩ := AmfValue.exists_alike harranged hwritten
    exact halike.isWritable ⟨hregular original horiginal, hnamed original horiginal⟩
  have hlow : ∀ written ∈ arranged, written.height ≤ AmfValue.maximumNesting := by
    intro written hwritten
    obtain ⟨original, horiginal, halike⟩ := AmfValue.exists_alike harranged hwritten
    exact halike.height_eq ▸ hheight original horiginal
  have hleaf : (AmfValue.text data.name).IsLeaf := trivial
  obtain ⟨after, hothers⟩ := valuesUpTo_writeItems hwritable hlow
    (writeItems arranged).length [] {}
  rw [List.take_of_length_le (length_le_length_writeItems arranged)] at hothers
  refine readData_eq_ok_iff.mpr ⟨.text data.name, ⟨{}, writeItems arranged⟩, after,
    takes_value_of_isLeaf hleaf hname {} (writeItems arranged), hothers, ?_⟩
  rw [← hstream]
  rfl

end Data

theorem exists_readData {wire : WireMessage} (htype : wire.typeId = 15 ∨ wire.typeId = 18) :
    ∃ payload, read wire = ((readData wire.streamId payload).map .data).mapError .amf := by
  rcases htype with htype | htype
  · exact ⟨dropFormatByte wire.payload, by simp only [read, htype]⟩
  · exact ⟨wire.payload, by simp only [read, htype]⟩

/-! ## All messages -/

theorem read_write_of_not_data {wire : WireMessage} {message : Message}
    (hread : read wire = .ok message) (hnotNewer : wire.typeId ≠ 15)
    (hnotOlder : wire.typeId ≠ 18) :
    read (wire.carrying message.write) = .ok message := by
  have hsame := hread
  unfold read at hread
  dsimp only at hread
  -- One case for each type, in the order of `read`.
  split at hread
  case h_1 =>
    obtain ⟨size, -, rfl⟩ := map_eq_ok.mp (mapError_eq_ok.mp hread)
    simp only [read, WireMessage.carrying, write, argument_ofWord32, Except.map, masked_masked]
    rfl
  case h_4 =>
    obtain ⟨event, hevent, rfl⟩ := map_eq_ok.mp (mapError_eq_ok.mp hread)
    simp only [read, WireMessage.carrying, write, UserControlEvent.read_write_of_read hevent]
    rfl
  case h_6 =>
    obtain ⟨size, limit, rfl⟩ := exists_of_readBandwidth (mapError_eq_ok.mp hread)
    simp only [read, WireMessage.carrying, write, readBandwidth_write]
    rfl
  case h_2 | h_3 | h_5 =>
    obtain ⟨number, -, rfl⟩ := map_eq_ok.mp (mapError_eq_ok.mp hread)
    simp only [read, WireMessage.carrying, write, argument_ofWord32]
    rfl
  case h_9 htype => exact absurd htype hnotNewer
  case h_11 htype => exact absurd htype hnotOlder
  case h_13 =>
    -- The type is not one of those above, and is written as it was.
    cases hread
    exact hsame
  all_goals
    cases hread
    rfl

/-- What was read and is written again is read as the same message.  A data message
keeps its name, and its values come back as the older format writes them, in
whatever order their properties are written. -/
theorem read_carrying_write {wire : WireMessage} {message : Message}
    (hread : read wire = .ok message) :
    (wire.typeId ≠ 15 → wire.typeId ≠ 18 →
      read (wire.carrying message.write) = .ok message) ∧
    (wire.typeId = 15 ∨ wire.typeId = 18 →
      ∃ data, message = .data data ∧
        ((∀ value ∈ data.values, value.height ≤ AmfValue.maximumNesting) →
          (∀ value ∈ data.values, value.Everywhere AmfValue.IsNamed) →
          ∀ arranged, List.Forall₂ AmfValue.Alike data.values arranged →
            ∃ decoded,
              List.Forall₂ AmfValue.Alike (data.values.map AmfValue.asWritten) decoded ∧
              read (wire.carrying (write (.data { data with values := arranged }))) =
                .ok (.data { data with values := decoded }))) := by
  refine ⟨read_write_of_not_data hread, fun htype => ?_⟩
  obtain ⟨payload, hpayload⟩ := exists_readData htype
  rw [hpayload] at hread
  obtain ⟨data, hdata, rfl⟩ := map_eq_ok.mp (mapError_eq_ok.mp hread)
  refine ⟨data, rfl, fun hheight hnamed arranged harranged => ?_⟩
  refine ⟨_, AmfValue.forall₂_asWritten harranged, ?_⟩
  have hagain := readData_write hdata hnamed hheight harranged
  simp only [read, WireMessage.carrying, write, hagain]
  rfl

/-- A chunk size with its reserved bit and another byte behind it, and a data message
of the newer variant with an integer. -/
theorem read_carrying_write_of_two :
    read (WireMessage.carrying ⟨2, 0, 1, 0, [0x80, 0x00, 0x10, 0x00, 0x2A]⟩
        (write (.setChunkSize 4096))) = .ok (.setChunkSize 4096) ∧
      ∃ decoded, List.Forall₂ AmfValue.Alike [.number (.ofInt 5), .null] decoded ∧
        read (WireMessage.carrying
            ⟨4, 0, 15, 1, [0x00, 0x02, 0x00, 0x01, 0x61, 0x11, 0x04, 0x05, 0x05]⟩
            (write (.data ⟨"a", [.integer 5, .null], 1⟩))) =
          .ok (.data ⟨"a", decoded, 1⟩) := by
  have hsize : read ⟨2, 0, 1, 0, [0x80, 0x00, 0x10, 0x00, 0x2A]⟩ =
      .ok (.setChunkSize 4096) := rfl
  have hdata : read ⟨4, 0, 15, 1, [0x00, 0x02, 0x00, 0x01, 0x61, 0x11, 0x04, 0x05, 0x05]⟩ =
      .ok (.data ⟨"a", [.integer 5, .null], 1⟩) := rfl
  have hnamed : ∀ value ∈ [AmfValue.integer 5, .null],
      value.Everywhere AmfValue.IsNamed := by
    simp only [List.forall_mem_cons]
    exact ⟨.leaf trivial rfl, .leaf trivial rfl, List.forall_mem_nil _⟩
  refine ⟨(read_carrying_write hsize).1 (by decide) (by decide), ?_⟩
  obtain ⟨data, hsame, hagain⟩ := (read_carrying_write hdata).2 (.inl rfl)
  cases hsame
  exact hagain (by decide) hnamed _ (.cons (.refl _) (.cons (.refl _) .nil))

end Message

end LiveRelay
