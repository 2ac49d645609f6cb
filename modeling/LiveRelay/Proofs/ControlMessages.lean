import LiveRelay.Message
import LiveRelay.Proofs.ChunkHeaderRoundTrip
import Mathlib.Data.List.Basic

/-!
# Control messages

The fields of a control message have fixed widths, so writing them and reading them
back is a matter of cutting the payload at the right places.  What stands behind the
fields is not read.  An event of an unknown kind has no fields: it keeps all of its
bytes, and is written as it came.
-/

namespace LiveRelay

namespace Bytes

theorem split?_of_length {count : Nat} {taken : Bytes} (hcount : taken.length = count) :
    split? count taken = some (taken, []) :=
  split?_eq_some_iff.mpr ⟨(List.append_nil taken).symm, hcount⟩

theorem length_ofWord32 (word : UInt32) : (ofWord32 word).length = 4 :=
  length_ofNumber 4 word.toNat

theorem ofWord16_word16 {bytes : Bytes} (hlength : bytes.length = 2) :
    ofWord16 (word16 bytes) = bytes := by
  obtain ⟨high, low, rfl⟩ := List.length_eq_two.mp hlength
  have hhigh := high.toNat_lt
  have hlow := low.toNat_lt
  have hnumber : number [high, low] = high.toNat * 256 + low.toNat := by simp [number]
  have hword : (word16 [high, low]).toNat = high.toNat * 256 + low.toNat := by
    rw [word16, hnumber, UInt16.toNat_ofNat_of_lt' (by change _ < 65536; omega)]
  have hfirst : (high.toNat * 256 + low.toNat) / 256 = high.toNat := by omega
  have hsecond : UInt8.ofNat (high.toNat * 256 + low.toNat) = low := by
    apply UInt8.toNat_inj.mp
    rw [UInt8.toNat_ofNat']
    omega
  simp [ofWord16, ofNumber, hword, capacity, hfirst, hsecond]

end Bytes

/-! ## User control events -/

namespace UserControlEvent

/-- An event of one of the known kinds. -/
def IsKnown : UserControlEvent → Prop
  | .unknown _ _ => False
  | _ => True

theorem read_write_of_isKnown {event : UserControlEvent} (hknown : event.IsKnown) :
    read event.write = .ok event := by
  have hkind : ∀ kind, (Bytes.ofNumber 2 kind).length = 2 := Bytes.length_ofNumber 2
  have hnumber : ∀ kind, kind < 8 → Bytes.number (Bytes.ofNumber 2 kind) = kind :=
    fun kind hlt => Bytes.number_ofNumber_of_lt (Nat.lt_trans hlt (by decide))
  cases event with
  | unknown number content => exact hknown.elim
  | setBufferLength streamId milliseconds =>
      rw [write, List.append_assoc, read, Bytes.split?_append_of_length (hkind 3)]
      dsimp only
      rw [Bytes.split?_append_of_length (Bytes.length_ofWord32 streamId)]
      dsimp only
      rw [hnumber 3 (by decide)]
      simp only [Bytes.split?_of_length (Bytes.length_ofWord32 _), Bytes.word32_ofWord32]
  | _ =>
      rw [write, read, Bytes.split?_append_of_length (hkind _)]
      dsimp only
      rw [Bytes.split?_of_length (Bytes.length_ofWord32 _)]
      dsimp only
      rw [hnumber _ (by decide)]
      simp only [Bytes.word32_ofWord32]

theorem isKnown_or_write_eq {payload : Bytes} {event : UserControlEvent}
    (hread : read payload = .ok event) : event.IsKnown ∨ event.write = payload := by
  unfold read at hread
  split at hread
  · cases hread
  · rename_i kind fields hkind
    obtain ⟨rfl, hlength⟩ := Bytes.split?_eq_some_iff.mp hkind
    split at hread
    · cases hread
    · dsimp only at hread
      split at hread
      case h_4 =>
        -- The length of a buffer is the one kind with a second field.
        split at hread
        · cases hread
        · cases hread
          exact .inl trivial
      case h_8 =>
        cases hread
        exact .inr (congrArg (· ++ fields) (Bytes.ofWord16_word16 hlength))
      all_goals
        cases hread
        exact .inl trivial

theorem read_write_of_read {payload : Bytes} {event : UserControlEvent}
    (hread : read payload = .ok event) : read event.write = .ok event := by
  obtain hknown | hsame := isKnown_or_write_eq hread
  · exact read_write_of_isKnown hknown
  · rw [hsame, hread]

end UserControlEvent

/-! ## Fields of protocol control -/

namespace Message

theorem mapError_eq_ok {ε ε' α : Type} {result : Except ε α} {change : ε → ε'}
    {value : α} : result.mapError change = .ok value ↔ result = .ok value := by
  cases result with
  | ok found =>
      change (Except.ok found : Except ε' α) = Except.ok value ↔ _
      simp
  | error error =>
      change Except.error (change error) = Except.ok value ↔ _
      simp

theorem map_eq_ok {ε α β : Type} {result : Except ε α} {change : α → β} {value : β} :
    result.map change = .ok value ↔
      ∃ found, result = .ok found ∧ change found = value := by
  cases result <;> simp [Except.map]

theorem argument_ofWord32 (word : UInt32) : argument (Bytes.ofWord32 word) = .ok word := by
  simp only [argument, Bytes.split?_of_length (Bytes.length_ofWord32 word),
    Bytes.word32_ofWord32]

theorem masked_masked (size : UInt32) : masked (masked size) = masked size := by
  have hsmall : size.toNat % 0x80000000 < 2 ^ 32 :=
    Nat.lt_trans (Nat.mod_lt _ (by decide)) (by decide)
  rw [masked, masked, UInt32.toNat_ofNat_of_lt' hsmall, Nat.mod_mod]

theorem readBandwidth_write (size : UInt32) (limit : UInt8) :
    readBandwidth (Bytes.ofWord32 size ++ [limit]) = .ok (.setPeerBandwidth size limit) := by
  simp only [readBandwidth, Bytes.split?_append_of_length (Bytes.length_ofWord32 size),
    Bytes.word32_ofWord32]

theorem exists_of_readBandwidth {payload : Bytes} {message : Message}
    (hread : readBandwidth payload = .ok message) :
    ∃ size limit, message = .setPeerBandwidth size limit := by
  unfold readBandwidth at hread
  split at hread
  · cases hread
    exact ⟨_, _, rfl⟩
  · cases hread

end Message

end LiveRelay
