import LiveRelay.ChunkDecoder
import LiveRelay.ChunkEncoder

/-!
# Headers are read as they were written

Format and chunk stream come back for every chunk stream that one to three
bytes can name.  A time comes back whether it fits its three bytes or travels
in the extension.  What follows a header is never touched.

Two things have to fit for a header to be written in full: its time field is
extended exactly when the three bytes cannot hold the time, and its length
needs no more than three bytes.
-/

namespace LiveRelay

namespace Bytes

theorem split?_append_of_length {count : Nat} {taken : Bytes}
    (hcount : taken.length = count) (rest : Bytes) :
    split? count (taken ++ rest) = some (taken, rest) :=
  split?_eq_some_iff.mpr ⟨rfl, hcount⟩

theorem number_ofNumber_of_lt {width value : Nat} (hlt : value < capacity width) :
    number (ofNumber width value) = value := by
  rw [number_ofNumber, Nat.mod_eq_of_lt hlt]

theorem word32_ofWord24 {word : UInt32} (hlt : word.toNat < capacity 3) :
    word32 (ofWord24 word) = word := by
  simp only [word32, ofWord24, number_ofNumber_of_lt hlt, UInt32.ofNat_toNat]

end Bytes

namespace TimeField

@[simp] theorem length_short (field : TimeField) : field.short.length = 3 :=
  Bytes.length_ofNumber 3 _

theorem length_extension (field : TimeField) :
    field.extension.length = if field.isExtended then 4 else 0 := by
  unfold extension
  split
  · exact Bytes.length_ofNumber 4 _
  · rfl

theorem number_short_ofValue (value : UInt32) :
    Bytes.number (ofValue value).short = min value.toNat threshold := by
  have hcapacity : Bytes.capacity 3 = 16777216 := rfl
  by_cases hlong : threshold ≤ value.toNat
  · simp only [short, ofValue, hlong, decide_true, if_true]
    rw [Bytes.number_ofNumber_of_lt (by decide)]
    exact (Nat.min_eq_right hlong).symm
  · have hlt : value.toNat < threshold := Nat.lt_of_not_le hlong
    simp only [short, ofValue, hlong, decide_false, Bool.false_eq_true, if_false]
    rw [Bytes.number_ofNumber_of_lt (by unfold threshold at hlt; omega)]
    exact (Nat.min_eq_left (Nat.le_of_lt hlt)).symm

end TimeField

namespace ChunkHeader

/-! ## Format and chunk stream -/

/-- The chunk streams that a basic header can name. -/
def CanName (chunkStream : UInt32) : Prop :=
  2 ≤ chunkStream.toNat ∧ chunkStream.toNat ≤ 65599

instance (chunkStream : UInt32) : Decidable (CanName chunkStream) :=
  inferInstanceAs (Decidable (_ ∧ _))

theorem basic?_writeBasic {format : Nat} {chunkStream : UInt32}
    (hformat : format < 4) (hname : CanName chunkStream) (rest : Bytes) :
    basic? (writeBasic format chunkStream ++ rest) =
      some (format, chunkStream, rest) := by
  obtain ⟨hlow, hhigh⟩ := hname
  have hback : UInt32.ofNat chunkStream.toNat = chunkStream := UInt32.ofNat_toNat
  simp only [writeBasic]
  split
  · -- three bytes
    rename_i hlong
    have hfirst : (UInt8.ofNat (64 * format) + 1).toNat = 64 * format + 1 := by
      simp only [UInt8.toNat_add, UInt8.toNat_ofNat', UInt8.reduceToNat]
      omega
    have hshown : 64 + (UInt8.ofNat (chunkStream.toNat - 64)).toNat +
        256 * (UInt8.ofNat ((chunkStream.toNat - 64) / 256)).toNat =
          chunkStream.toNat := by
      simp only [UInt8.toNat_ofNat']
      omega
    have hkind : (64 * format + 1) % 64 = 1 := by omega
    have hquotient : (64 * format + 1) / 64 = format := by omega
    simp only [List.cons_append, List.nil_append, basic?, hfirst, hkind, hquotient]
    rw [hshown, hback]
  · split
    · -- two bytes
      rename_i hshort hlong
      have hfirst : (UInt8.ofNat (64 * format)).toNat = 64 * format := by
        rw [UInt8.toNat_ofNat']
        omega
      have hshown : 64 + (UInt8.ofNat (chunkStream.toNat - 64)).toNat =
          chunkStream.toNat := by
        rw [UInt8.toNat_ofNat']
        omega
      have hkind : 64 * format % 64 = 0 := by omega
      have hquotient : 64 * format / 64 = format := by omega
      simp only [List.cons_append, List.nil_append, basic?, hfirst, hkind, hquotient]
      rw [hshown, hback]
    · -- one byte
      rename_i hshort
      have hfirst : (UInt8.ofNat (64 * format) + UInt8.ofNat chunkStream.toNat).toNat =
          64 * format + chunkStream.toNat := by
        simp only [UInt8.toNat_add, UInt8.toNat_ofNat']
        omega
      have hkind : (64 * format + chunkStream.toNat) % 64 = chunkStream.toNat := by
        omega
      have hquotient : (64 * format + chunkStream.toNat) / 64 = format := by omega
      simp only [List.cons_append, List.nil_append, basic?, hfirst, hkind, hquotient]
      split
      · omega
      · omega
      · rw [hback]

/-! ## Times -/

theorem time?_ofValue (value : UInt32) (rest : Bytes) :
    time? (TimeField.ofValue value).short
        ((TimeField.ofValue value).extension ++ rest) =
      some (.ofValue value, rest) := by
  unfold time?
  simp only [TimeField.number_short_ofValue]
  by_cases hlong : TimeField.threshold ≤ value.toNat
  · have hextension : (TimeField.ofValue value).extension = Bytes.ofWord32 value := by
      simp [TimeField.extension, TimeField.ofValue, hlong]
    have hlength : (Bytes.ofWord32 value).length = 4 := Bytes.length_ofNumber 4 _
    rw [if_pos (by omega), hextension, Bytes.split?_append_of_length hlength]
    simp [TimeField.ofValue, hlong, Bytes.word32_ofWord32]
  · have hextension : (TimeField.ofValue value).extension = [] := by
      simp [TimeField.extension, TimeField.ofValue, hlong]
    rw [if_neg (by omega), hextension, Nat.min_eq_left (by omega)]
    simp [TimeField.ofValue, hlong]

end ChunkHeader

/-! ## Headers -/

namespace HeaderChange

/-- Nothing of the header is lost when it is written. -/
def IsWritable : HeaderChange → Prop
  | .full time length _ _ =>
      time = .ofValue time.value ∧ length.toNat < Bytes.capacity 3
  | .sameStream delta length _ =>
      delta = .ofValue delta.value ∧ length.toNat < Bytes.capacity 3
  | .sameLength delta => delta = .ofValue delta.value
  | .continued => True

/-- The bytes behind the fields that a reader expects.  A continued header has
as many as the last header on the chunk stream had. -/
def ExtendedBy (change : HeaderChange) (lastExtended : Bool) (extension : Bytes) :
    Prop :=
  match change with
  | .full time _ _ _ => extension = time.extension
  | .sameStream delta _ _ => extension = delta.extension
  | .sameLength delta => extension = delta.extension
  | .continued => extension.length = if lastExtended then 4 else 0

theorem format_lt (change : HeaderChange) : change.format < 4 := by
  cases change <;> simp [format]

end HeaderChange

theorem LastHeader.length_apply (last : LastHeader) (starts : Bool)
    (change : HeaderChange) :
    (last.apply starts change).length = change.length?.getD last.length := by
  cases change <;> cases starts <;> rfl

namespace ChunkHeader

theorem fields_of_front (field : TimeField) (length : UInt32) (typeId : UInt8)
    (behind : Bytes) :
    let fields := field.short ++ Bytes.ofWord24 length ++ [typeId] ++ behind
    fields.length = 7 + behind.length ∧ fields.take 3 = field.short ∧
      (fields.drop 3).take 3 = Bytes.ofWord24 length ∧
      fields.drop 6 = typeId :: behind ∧ fields.drop 7 = behind := by
  intro fields
  have hthree : (Bytes.ofWord24 length).length = 3 := Bytes.length_ofNumber 3 _
  have hsix : (field.short ++ Bytes.ofWord24 length).length = 6 := by
    rw [List.length_append, field.length_short, hthree]
  have hseven : (field.short ++ Bytes.ofWord24 length ++ [typeId]).length = 7 := by
    rw [List.length_append, hsix]
    rfl
  refine ⟨?_, ?_, ?_, ?_, List.drop_left' hseven⟩
  · rw [List.length_append, hseven]
  · simp only [fields, List.append_assoc]
    exact List.take_left' field.length_short
  · simp only [fields, List.append_assoc]
    rw [List.drop_left' field.length_short]
    exact List.take_left' hthree
  · simp only [fields, List.append_assoc _ [typeId]]
    exact List.drop_left' hsix

theorem change?_writeFields {change : HeaderChange} {lastExtended : Bool}
    {extension : Bytes} (hwritable : change.IsWritable)
    (hextended : change.ExtendedBy lastExtended extension) (rest : Bytes) :
    change? change.format lastExtended (writeFields change ++ extension ++ rest) =
      some (change, rest) := by
  cases change with
  | full time length typeId streamId =>
      obtain ⟨htime, hlength⟩ := hwritable
      have hextension : extension = time.extension := hextended
      obtain ⟨hsize, htake, hmiddle, hkind, hlast⟩ :=
        fields_of_front time length typeId (Bytes.ofWord32 streamId).reverse
      have heleven : (writeFields (.full time length typeId streamId)).length = 11 := by
        rw [writeFields, hsize, List.length_reverse]
        exact congrArg (7 + ·) (Bytes.length_ofNumber 4 _)
      have hread : time? time.short (time.extension ++ rest) = some (time, rest) := by
        rw [htime]
        exact time?_ofValue time.value rest
      rw [List.append_assoc]
      simp only [HeaderChange.format, change?,
        Bytes.split?_append_of_length heleven, hextension, Option.bind_eq_bind,
        Option.bind_some]
      simp only [writeFields, htake, hmiddle, hkind, hlast, hread,
        List.reverse_reverse, Bytes.word32_ofWord24 hlength, Bytes.word32_ofWord32]
      simp [Bytes.number]
  | sameStream delta length typeId =>
      obtain ⟨hdelta, hlength⟩ := hwritable
      have hextension : extension = delta.extension := hextended
      obtain ⟨hsize, htake, hmiddle, hkind, -⟩ :=
        fields_of_front delta length typeId []
      simp only [List.append_nil] at hsize htake hmiddle hkind
      have hseven : (writeFields (.sameStream delta length typeId)).length = 7 := hsize
      have hread : time? delta.short (delta.extension ++ rest) = some (delta, rest) := by
        rw [hdelta]
        exact time?_ofValue delta.value rest
      rw [List.append_assoc]
      simp only [HeaderChange.format, change?,
        Bytes.split?_append_of_length hseven, hextension, Option.bind_eq_bind,
        Option.bind_some]
      simp only [writeFields, htake, hmiddle, hkind, hread,
        Bytes.word32_ofWord24 hlength]
      simp [Bytes.number]
  | sameLength delta =>
      have hdelta : delta = .ofValue delta.value := hwritable
      have hextension : extension = delta.extension := hextended
      have hread : time? delta.short (delta.extension ++ rest) = some (delta, rest) := by
        rw [hdelta]
        exact time?_ofValue delta.value rest
      rw [List.append_assoc]
      simp only [HeaderChange.format, change?, writeFields,
        Bytes.split?_append_of_length delta.length_short, hextension,
        Option.bind_eq_bind, Option.bind_some, hread]
      rfl
  | continued =>
      have hlength : extension.length = if lastExtended then 4 else 0 := hextended
      simp only [HeaderChange.format, change?, writeFields, List.nil_append,
        Bytes.split?_append_of_length hlength, Option.bind_eq_bind,
        Option.bind_some]
      rfl

/-- A compressed header can only be read where the chunk stream has had a full
one. -/
theorem read_writeHeader {last : UInt32 → Option LastHeader} {chunkStream : UInt32}
    {change : HeaderChange} {extension : Bytes} (hname : CanName chunkStream)
    (hwritable : change.IsWritable)
    (hextended :
      change.ExtendedBy ((last chunkStream).getD {}).isExtended extension)
    (hknown : change.format = 0 ∨ (last chunkStream).isSome) (rest : Bytes) :
    read last (ChunkEncoder.writeHeader chunkStream change extension ++ rest) =
      .ok (some (chunkStream, change, rest)) := by
  have hbasic :
      basic? (ChunkEncoder.writeHeader chunkStream change extension ++ rest) =
        some (change.format, chunkStream, writeFields change ++ extension ++ rest) := by
    simp only [ChunkEncoder.writeHeader, List.append_assoc]
    exact basic?_writeBasic change.format_lt hname _
  have hpresent : ¬ (change.format ≠ 0 ∧ (last chunkStream).isNone) := by
    rintro ⟨hformat, hnone⟩
    rcases hknown with hzero | hsome
    · exact hformat hzero
    · simp [Option.isNone_iff_eq_none.mp hnone] at hsome
  simp only [read, hbasic]
  rw [if_neg hpresent, change?_writeFields hwritable hextended]
  rfl

end ChunkHeader

end LiveRelay
