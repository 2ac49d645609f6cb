import LiveRelay.Proofs.GuardedReaders

/-!
# Values without faults

Both value formats, reader by reader.  A value that has members takes its slot before
the members are read and fills it when they have been read.  In between, other values
take slots of their own, and references may fail, but no slot is ever given back.
-/

namespace LiveRelay

open Partial

namespace Amf3

open AmfReader

/-! ## The newer format -/

def guardedCompactBits : (more : Nat) → Nat → GuardedReader Amf3Tables Nat
  | 0, value => do
      let last ← guardedByte
      return value * 256 + last.toNat
  | more + 1, value => do
      let next ← guardedByte
      let value := value * 128 + next.toNat % 128
      if next < 128 then return value else guardedCompactBits more value

def guardedCompact : GuardedReader Amf3Tables Nat :=
  guardedCompactBits 3 0

def guardedText : GuardedReader Amf3Tables String := do
  let header ← guardedCompact
  if header % 2 = 0 then
    match (← total tables).texts[header / 2]? with
    | some content => return content
    | none => total (badReference (header / 2))
  else
    let content ← AmfReader.guardedText (header / 2)
    if content.isEmpty then return content
    else
      total (update fun known =>
        (content, { known with texts := known.texts.push content }))

def guardedOrReference (inlined : (header : Nat) → GuardedReader Amf3Tables AmfValue) :
    GuardedReader Amf3Tables AmfValue := do
  let header ← guardedCompact
  if header % 2 = 0 then
    match (← total tables).objects[header / 2]? with
    | some value => return value
    | none => total (badReference (header / 2))
  else inlined header

def guardedReserve : GuardedReader Amf3Tables Nat := fun ⟨depths, ⟨known, rest⟩⟩ => do
  let objects := known.objects.push .null
  let slot ← decrement objects.size
  return (.ok slot, ⟨depths, ⟨{ known with objects := objects }, rest⟩⟩)

def guardedComplete (slot : Nat) (value : AmfValue) :
    GuardedReader Amf3Tables AmfValue := fun ⟨depths, ⟨known, rest⟩⟩ => do
  let objects ← setSlot known.objects slot value
  return (.ok value, ⟨depths, ⟨{ known with objects := objects }, rest⟩⟩)

def guardedMembers (child : GuardedReader Amf3Tables AmfValue) :
    (bound : Bytes) → Properties → GuardedReader Amf3Tables Properties
  | [], _ => throw .unexpectedEnd
  | _ :: bound, properties => do
      let name ← guardedText
      if name.isEmpty then return properties
      else
        let value ← child
        guardedMembers child bound (properties.put name value)

def guardedDynamicMembers (child : GuardedReader Amf3Tables AmfValue)
    (properties : Properties) : GuardedReader Amf3Tables Properties := fun nested =>
  guardedMembers child nested.cursor.rest properties nested

def guardedSealedMembers (child : GuardedReader Amf3Tables AmfValue) :
    (names : List String) → Properties → GuardedReader Amf3Tables Properties
  | [], properties => return properties
  | name :: names, properties => do
      let value ← child
      guardedSealedMembers child names (properties.put name value)

def guardedNames : (count : Nat) → List String → GuardedReader Amf3Tables (List String)
  | 0, done => return done.reverse
  | count + 1, done => do
      let name ← guardedText
      guardedNames count (name :: done)

def guardedTraits (header : Nat) : GuardedReader Amf3Tables Amf3Traits := do
  if header / 2 % 2 = 0 then
    match (← total tables).traits[header / 4]? with
    | some traits => return traits
    | none => total (badReference (header / 4))
  else if header / 4 % 2 = 1 then throw (.unknownMarker 0x0A)
  else
    let className ← guardedText
    let sealedNames ← guardedNames (header / 16) []
    let traits : Amf3Traits := ⟨className, header / 8 % 2 == 1, sealedNames⟩
    total (update fun known =>
      (traits, { known with traits := known.traits.push traits }))

def guardedArray (child : GuardedReader Amf3Tables AmfValue) (header : Nat) :
    GuardedReader Amf3Tables AmfValue := do
  let slot ← guardedReserve
  let named ← guardedDynamicMembers child []
  let dense ← guardedItems child (header / 2) []
  guardedComplete slot
    (if named.isEmpty then .strictArray dense
      else .ecmaArray (numbered named dense))

def guardedObject (child : GuardedReader Amf3Tables AmfValue) (header : Nat) :
    GuardedReader Amf3Tables AmfValue := do
  let slot ← guardedReserve
  let traits ← guardedTraits header
  let fixed ← guardedSealedMembers child traits.sealedNames []
  let properties ←
    if traits.isDynamic then guardedDynamicMembers child fixed else pure fixed
  guardedComplete slot
    (if traits.className.isEmpty then .object properties
      else .typedObject traits.className properties)

def guardedXml (header : Nat) : GuardedReader Amf3Tables AmfValue := do
  let content ← AmfReader.guardedText (header / 2)
  total (remember (.xml content))

def guardedDate (_ : Nat) : GuardedReader Amf3Tables AmfValue := do
  let milliseconds ← guardedBinary64
  total (remember (.date milliseconds))

def guardedByteArray (header : Nat) : GuardedReader Amf3Tables AmfValue := do
  let content ← guardedTake (header / 2)
  total (remember (.byteArray content))

def guardedBody (child : GuardedReader Amf3Tables AmfValue) (marker : UInt8) :
    GuardedReader Amf3Tables AmfValue :=
  match marker with
  | 0x00 => return .undefined
  | 0x01 => return .null
  | 0x02 => return .boolean false
  | 0x03 => return .boolean true
  | 0x04 => return .integer (signed29 (← guardedCompact))
  | 0x05 => return .number (← guardedBinary64)
  | 0x06 => return .text (← guardedText)
  | 0x07 => guardedOrReference guardedXml
  | 0x08 => guardedOrReference guardedDate
  | 0x09 => guardedOrReference (guardedArray child)
  | 0x0A => guardedOrReference (guardedObject child)
  | 0x0B => guardedOrReference guardedXml
  | 0x0C => guardedOrReference guardedByteArray
  | other => throw (.unknownMarker other)

def guardedValueWithin : (budget : Nat) → GuardedReader Amf3Tables AmfValue
  | 0 => guardedMarked .newer fun _ => unreached
  | budget + 1 => guardedMarked .newer (guardedBody (guardedValueWithin budget))

def guardedValue : GuardedReader Amf3Tables AmfValue :=
  guardedValueWithin AmfValue.maximumNesting

/-! ### The same values -/

/-- The slots of the newer format are its complex values. -/
def slots (known : Amf3Tables) : Nat :=
  known.objects.size

variable {depths : AmfDepths} {least : Nat}

theorem guards_compactBits (more value : Nat) :
    Guards slots depths least (guardedCompactBits more value) (compactBits more value) := by
  induction more generalizing value with
  | zero => exact guards_byte.bind fun _ => guards_pure _
  | succ more ih =>
      refine guards_byte.bind fun next => ?_
      by_cases hlast : next < 128
      · rw [if_pos hlast, if_pos hlast]
        exact guards_pure _
      · rw [if_neg hlast, if_neg hlast]
        exact ih _

theorem guards_compact : Guards slots depths least guardedCompact compact :=
  guards_compactBits 3 0

theorem guards_tables : Guards slots depths least (total tables) tables :=
  guards_total fun _ hleast => ⟨hleast, trivial⟩

theorem guards_badReference {α : Type} (index : Nat) :
    Guards slots depths least (total (badReference index : Amf3Reader α))
      (badReference index) :=
  guards_total (keeps_throw _)

theorem guards_text : Guards slots depths least guardedText text := by
  refine guards_compact.bind fun header => ?_
  by_cases hreference : header % 2 = 0
  · rw [if_pos hreference, if_pos hreference]
    refine guards_tables.bind fun known => ?_
    cases known.texts[header / 2]? with
    | some content => exact guards_pure _
    | none => exact guards_badReference _
  · rw [if_neg hreference, if_neg hreference]
    refine (AmfReader.guards_text _).bind fun content => ?_
    by_cases hempty : content.isEmpty
    · rw [if_pos hempty, if_pos hempty]
      exact guards_pure _
    · rw [if_neg hempty, if_neg hempty]
      exact guards_total (keeps_update fun _ hleast => ⟨hleast, trivial⟩)

theorem guards_orReference {guarded : Nat → GuardedReader Amf3Tables AmfValue}
    {inlined : Nat → Amf3Reader AmfValue}
    (hinlined : ∀ header, Guards slots depths least (guarded header) (inlined header)) :
    Guards slots depths least (guardedOrReference guarded) (orReference inlined) := by
  refine guards_compact.bind fun header => ?_
  by_cases hreference : header % 2 = 0
  · rw [if_pos hreference, if_pos hreference]
    refine guards_tables.bind fun known => ?_
    cases known.objects[header / 2]? with
    | some value => exact guards_pure _
    | none => exact guards_badReference _
  · rw [if_neg hreference, if_neg hreference]
    exact hinlined header

theorem guards_remember (value : AmfValue) :
    Guards slots depths least (total (remember value)) (remember value) := by
  refine guards_total (keeps_update fun known hleast => ⟨?_, trivial⟩)
  rw [slots, Array.size_push]
  exact Nat.le_succ_of_le hleast

theorem guards_reserving {next : Nat → GuardedReader Amf3Tables AmfValue}
    {behind : Nat → Amf3Reader AmfValue}
    (hnext : ∀ slot, Guards slots depths (slot + 1) (next slot) (behind slot)) :
    Guards slots depths least (guardedReserve >>= next) (reserve >>= behind) := by
  refine guards_taking (fun ⟨known, rest⟩ => ?_) hnext
  refine ⟨⟨{ known with objects := known.objects.push .null }, rest⟩, rfl,
    Array.size_push .., ?_⟩
  simp [guardedReserve, decrement, slots]

theorem guards_complete {slot : Nat} (hslot : slot < least) (value : AmfValue) :
    Guards slots depths least (guardedComplete slot value) (complete slot value) := by
  rintro ⟨known, rest⟩ hleast
  refine ⟨?_, ?_⟩
  · simp only [guardedComplete, setSlot_of_lt (Nat.lt_of_lt_of_le hslot hleast), ok_bind]
    rfl
  · exact Nat.le_trans hleast (Nat.le_of_eq Array.size_setIfInBounds.symm)

section Members

variable {guarded : GuardedReader Amf3Tables AmfValue} {child : Amf3Reader AmfValue}

theorem guards_members (hchild : Guards slots depths least guarded child) (bound : Bytes)
    (properties : Properties) :
    Guards slots depths least (guardedMembers guarded bound properties)
      (members child bound properties) := by
  induction bound generalizing properties with
  | nil => exact guards_throw _
  | cons first bound ih =>
      refine guards_text.bind fun name => ?_
      by_cases hend : name.isEmpty
      · rw [if_pos hend, if_pos hend]
        exact guards_pure _
      · rw [if_neg hend, if_neg hend]
        exact hchild.bind fun value => ih _

theorem guards_dynamicMembers (hchild : Guards slots depths least guarded child)
    (properties : Properties) :
    Guards slots depths least (guardedDynamicMembers guarded properties)
      (dynamicMembers child properties) :=
  fun cursor => guards_members hchild cursor.rest properties cursor

theorem guards_sealedMembers (hchild : Guards slots depths least guarded child)
    (names : List String) (properties : Properties) :
    Guards slots depths least (guardedSealedMembers guarded names properties)
      (sealedMembers child names properties) := by
  induction names generalizing properties with
  | nil => exact guards_pure _
  | cons name names ih => exact hchild.bind fun value => ih _

theorem guards_names (count : Nat) (done : List String) :
    Guards slots depths least (guardedNames count done) (names count done) := by
  induction count generalizing done with
  | zero => exact guards_pure _
  | succ count ih => exact guards_text.bind fun name => ih _

theorem guards_traits (header : Nat) :
    Guards slots depths least (guardedTraits header) (traits header) := by
  unfold guardedTraits traits
  by_cases hreference : header / 2 % 2 = 0
  · rw [if_pos hreference, if_pos hreference]
    refine guards_tables.bind fun known => ?_
    cases known.traits[header / 4]? with
    | some traits => exact guards_pure _
    | none => exact guards_badReference _
  · rw [if_neg hreference, if_neg hreference]
    by_cases hopaque : header / 4 % 2 = 1
    · rw [if_pos hopaque, if_pos hopaque]
      exact guards_throw _
    · rw [if_neg hopaque, if_neg hopaque]
      exact guards_text.bind fun className => (guards_names _ _).bind fun sealedNames =>
        guards_total (keeps_update fun _ hleast => ⟨hleast, trivial⟩)

/-- The members of an array come between its taking a slot and its filling it. -/
theorem guards_array (hchild : ∀ least, Guards slots depths least guarded child)
    (header : Nat) :
    Guards slots depths least (guardedArray guarded header) (array child header) :=
  guards_reserving fun slot =>
    (guards_dynamicMembers (hchild _) []).bind fun _ =>
      (guards_items (hchild _) _ []).bind fun _ =>
        guards_complete (Nat.lt_succ_self slot) _

/-- So do the shape and the members of an object. -/
theorem guards_object (hchild : ∀ least, Guards slots depths least guarded child)
    (header : Nat) :
    Guards slots depths least (guardedObject guarded header) (object child header) := by
  refine guards_reserving fun slot => (guards_traits header).bind fun traits =>
    (guards_sealedMembers (hchild _) _ []).bind fun fixed => ?_
  by_cases hdynamic : traits.isDynamic
  · simp only [if_pos hdynamic]
    exact (guards_dynamicMembers (hchild _) fixed).bind fun _ =>
      guards_complete (Nat.lt_succ_self slot) _
  · simp only [if_neg hdynamic]
    exact (guards_pure fixed).bind fun _ => guards_complete (Nat.lt_succ_self slot) _

theorem guards_body (hchild : ∀ least, Guards slots depths least guarded child)
    (marker : UInt8) :
    Guards slots depths least (guardedBody guarded marker) (body child marker) := by
  have hxml : ∀ header, Guards slots depths least (guardedXml header) (xml header) :=
    fun header => (AmfReader.guards_text _).bind fun _ => guards_remember _
  fun_cases body child marker
  · exact guards_pure _
  · exact guards_pure _
  · exact guards_pure _
  · exact guards_pure _
  · exact guards_compact.bind fun _ => guards_pure _
  · exact guards_binary64.bind fun _ => guards_pure _
  · exact guards_text.bind fun _ => guards_pure _
  · exact guards_orReference hxml
  · exact guards_orReference fun _ => guards_binary64.bind fun _ => guards_remember _
  · exact guards_orReference (guards_array hchild)
  · exact guards_orReference (guards_object hchild)
  · exact guards_orReference hxml
  · exact guards_orReference fun _ => (guards_take _).bind fun _ => guards_remember _
  · simp only [guardedBody]
    exact guards_throw _

end Members

/-- Depth and budget always add up, so the budget ends where the count of the nesting
does. -/
theorem guards_valueWithin (budget : Nat) (depths : AmfDepths) (least : Nat)
    (hdepth : depths .newer + budget = AmfValue.maximumNesting) :
    Guards slots depths least (guardedValueWithin budget) (valueWithin budget) := by
  induction budget generalizing depths least with
  | zero => exact guards_marked_none (Nat.le_of_eq hdepth.symm) _
  | succ budget ih =>
      refine guards_marked (by omega) (guards_body fun least => ih _ least ?_)
      rw [depths.enter_self]
      omega

theorem guards_value (hdepth : depths .newer = 0) :
    Guards slots depths least guardedValue value :=
  guards_valueWithin _ _ _ (by rw [hdepth, Nat.zero_add])

end Amf3

namespace Amf0

open AmfReader

/-! ## The older format -/

def guardedCount16 : GuardedReader Amf0Tables Nat := do
  let bytes ← guardedTake 2
  return Bytes.number bytes

def guardedCount32 : GuardedReader Amf0Tables Nat := do
  let bytes ← guardedTake 4
  return Bytes.number bytes

def guardedShortText : GuardedReader Amf0Tables String := do
  let count ← guardedCount16
  AmfReader.guardedText count

def guardedLongText : GuardedReader Amf0Tables String := do
  let count ← guardedCount32
  AmfReader.guardedText count

def guardedReserve : GuardedReader Amf0Tables Nat := fun ⟨depths, ⟨known, rest⟩⟩ => do
  let references := known.references.push .null
  let slot ← decrement references.size
  return (.ok slot, ⟨depths, ⟨{ known with references := references }, rest⟩⟩)

def guardedComplete (slot : Nat) (value : AmfValue) :
    GuardedReader Amf0Tables AmfValue := fun ⟨depths, ⟨known, rest⟩⟩ => do
  let references ← setSlot known.references slot value
  return (.ok value, ⟨depths, ⟨{ known with references := references }, rest⟩⟩)

def guardedObjectEnd (lenient : Bool) : GuardedReader Amf0Tables Unit :=
  fun ⟨depths, cursor⟩ =>
    match cursor.rest.head? with
    | some 0x09 => do
        let (_, rest) ← splitAt 1 cursor.rest
        return (.ok (), ⟨depths, { cursor with rest := rest }⟩)
    | none =>
        if lenient then .ok (.ok (), ⟨depths, cursor⟩)
        else .ok (.error .unexpectedEnd, ⟨depths, cursor⟩)
    | some _ =>
        if lenient then .ok (.ok (), ⟨depths, cursor⟩)
        else .ok (.error .invalidObjectEnd, ⟨depths, cursor⟩)

def guardedPropertiesWithin (lenient : Bool) (child : GuardedReader Amf0Tables AmfValue) :
    (bound : Bytes) → Properties → GuardedReader Amf0Tables Properties
  | [], done => if lenient then return done else throw .unexpectedEnd
  | _ :: bound, done => fun nested =>
      if nested.cursor.rest.isEmpty && lenient then .ok (.ok done, nested)
      else
        (do
          let name ← guardedShortText
          if name.isEmpty then
            guardedObjectEnd lenient
            return done
          else
            let value ← child
            guardedPropertiesWithin lenient child bound (done.put name value)
          : GuardedReader Amf0Tables Properties) nested

def guardedProperties (lenient : Bool) (child : GuardedReader Amf0Tables AmfValue) :
    GuardedReader Amf0Tables Properties := fun nested =>
  guardedPropertiesWithin lenient child nested.cursor.rest [] nested

def guardedReference : GuardedReader Amf0Tables AmfValue := do
  let index ← guardedCount16
  match (← total tables).references[index]? with
  | some value => return value
  | none => throw (.invalidReference (UInt16.ofNat index))

/-- The number and the offset of a time zone, after one test for both. -/
def guardedDate : GuardedReader Amf0Tables AmfValue := fun ⟨depths, cursor⟩ =>
  if cursor.rest.length < 10 then .ok (.error .unexpectedEnd, ⟨depths, cursor⟩)
  else do
    let (milliseconds, rest) ← splitAt 8 cursor.rest
    let (_, rest) ← splitAt 2 rest
    return (.ok (.date ⟨Bytes.word64 milliseconds⟩), ⟨depths, { cursor with rest := rest }⟩)

def guardedNewerValue : GuardedReader Amf0Tables AmfValue :=
  fun ⟨depths, ⟨⟨references, newer⟩, rest⟩⟩ => do
    let (found, after) ← Amf3.guardedValue ⟨depths, ⟨newer, rest⟩⟩
    return (found, ⟨after.depths, ⟨⟨references, after.cursor.tables⟩, after.cursor.rest⟩⟩)

def guardedBody (lenient : Bool) (child : GuardedReader Amf0Tables AmfValue)
    (marker : UInt8) : GuardedReader Amf0Tables AmfValue :=
  match marker with
  | 0x00 => return .number (← guardedBinary64)
  | 0x01 => return .boolean ((← guardedByte) != 0)
  | 0x02 => return .text (← guardedShortText)
  | 0x03 => do
      let slot ← guardedReserve
      let properties ← guardedProperties lenient child
      guardedComplete slot (.object properties)
  | 0x05 => return .null
  | 0x06 => return .undefined
  | 0x07 => guardedReference
  | 0x08 => do
      let _ ← guardedCount32
      let slot ← guardedReserve
      let properties ← guardedProperties lenient child
      guardedComplete slot (.ecmaArray properties)
  | 0x0A => do
      let count ← guardedCount32
      let slot ← guardedReserve
      let items ← guardedItems child count []
      guardedComplete slot (.strictArray items)
  | 0x0B => guardedDate
  | 0x0C => return .text (← guardedLongText)
  | 0x0D => return .undefined
  | 0x0F => return .xml (← guardedLongText)
  | 0x10 => do
      let className ← guardedShortText
      let slot ← guardedReserve
      let properties ← guardedProperties lenient child
      guardedComplete slot (.typedObject className properties)
  | 0x11 => guardedNewerValue
  | other => if lenient then return .undefined else throw (.unknownMarker other)

def guardedValueWithin (lenient : Bool) : (budget : Nat) → GuardedReader Amf0Tables AmfValue
  | 0 => guardedMarked .older fun _ => unreached
  | budget + 1 =>
      guardedMarked .older (guardedBody lenient (guardedValueWithin lenient budget))

def guardedValue (lenient : Bool) : GuardedReader Amf0Tables AmfValue :=
  guardedValueWithin lenient AmfValue.maximumNesting

/-! ### The same values -/

/-- The slots of the older format are its references. -/
def slots (known : Amf0Tables) : Nat :=
  known.references.size

variable {depths : AmfDepths} {least : Nat}

theorem guards_count16 : Guards slots depths least guardedCount16 count16 :=
  (guards_take 2).bind fun _ => guards_pure _

theorem guards_count32 : Guards slots depths least guardedCount32 count32 :=
  (guards_take 4).bind fun _ => guards_pure _

theorem guards_shortText : Guards slots depths least guardedShortText shortText :=
  guards_count16.bind fun _ => guards_text _

theorem guards_longText : Guards slots depths least guardedLongText longText :=
  guards_count32.bind fun _ => guards_text _

theorem guards_reserving {next : Nat → GuardedReader Amf0Tables AmfValue}
    {behind : Nat → Amf0Reader AmfValue}
    (hnext : ∀ slot, Guards slots depths (slot + 1) (next slot) (behind slot)) :
    Guards slots depths least (guardedReserve >>= next) (reserve >>= behind) := by
  refine guards_taking (fun ⟨known, rest⟩ => ?_) hnext
  refine ⟨⟨{ known with references := known.references.push .null }, rest⟩, rfl,
    Array.size_push .., ?_⟩
  simp [guardedReserve, decrement, slots]

theorem guards_complete {slot : Nat} (hslot : slot < least) (value : AmfValue) :
    Guards slots depths least (guardedComplete slot value) (complete slot value) := by
  rintro ⟨known, rest⟩ hleast
  refine ⟨?_, ?_⟩
  · simp only [guardedComplete, setSlot_of_lt (Nat.lt_of_lt_of_le hslot hleast), ok_bind]
    rfl
  · exact Nat.le_trans hleast (Nat.le_of_eq Array.size_setIfInBounds.symm)

theorem guards_objectEnd (lenient : Bool) :
    Guards slots depths least (guardedObjectEnd lenient) (objectEnd lenient) := by
  rintro ⟨known, rest⟩ hleast
  cases rest with
  | nil => cases lenient <;> exact ⟨rfl, hleast⟩
  | cons first rest =>
      by_cases hmarker : first = 0x09
      · subst hmarker
        exact ⟨rfl, hleast⟩
      · have hguarded : guardedObjectEnd lenient ⟨depths, ⟨known, first :: rest⟩⟩ =
            if lenient then .ok (.ok (), ⟨depths, ⟨known, first :: rest⟩⟩)
            else .ok (.error .invalidObjectEnd, ⟨depths, ⟨known, first :: rest⟩⟩) := by
          simp [guardedObjectEnd]
        have hreader : objectEnd lenient ⟨known, first :: rest⟩ =
            if lenient then .ok () ⟨known, first :: rest⟩
            else .error .invalidObjectEnd ⟨known, first :: rest⟩ := by
          simp [objectEnd]
        rw [hguarded, hreader]
        cases lenient <;> exact ⟨rfl, hleast⟩

theorem guards_reference : Guards slots depths least guardedReference reference := by
  refine guards_count16.bind fun index => ?_
  refine Guards.bind (guards_total fun _ hleast => ⟨hleast, trivial⟩) fun known => ?_
  cases known.references[index]? with
  | some value => exact guards_pure _
  | none => exact guards_throw _

theorem guards_date : Guards slots depths least guardedDate
    (do
      let bytes ← take 10
      return .date ⟨Bytes.word64 (bytes.take 8)⟩) := by
  intro cursor hleast
  change Follows slots depths least (guardedDate ⟨depths, cursor⟩)
    (EStateM.bind (take 10) (fun bytes => pure (.date ⟨Bytes.word64 (bytes.take 8)⟩)) cursor)
  simp only [guardedDate, EStateM.bind, take, Bytes.split?_eq]
  by_cases hshort : cursor.rest.length < 10
  · rw [if_pos hshort, if_neg (Nat.not_le_of_lt hshort)]
    exact ⟨rfl, hleast⟩
  · have hbehind : 2 ≤ (cursor.rest.drop 8).length := by
      rw [List.length_drop]
      omega
    rw [if_neg hshort, if_pos (Nat.le_of_not_lt hshort), splitAt_of_le (by omega), ok_bind,
      splitAt_of_le hbehind, List.drop_drop]
    simp only [List.take_take]
    exact ⟨rfl, hleast⟩

/-- The newer format has tables of its own, and starts with its own count. -/
theorem guards_newerValue (hdepth : depths .newer = 0) :
    Guards slots depths least guardedNewerValue newerValue := by
  rintro ⟨⟨references, newer⟩, rest⟩ hleast
  have hvalue := @Amf3.guards_value depths 0 hdepth ⟨newer, rest⟩ (Nat.zero_le _)
  simp only [guardedNewerValue, newerValue]
  cases hrun : Amf3.value ⟨newer, rest⟩ with
  | ok found after =>
      rw [hrun] at hvalue
      rw [hvalue.1]
      exact ⟨rfl, hleast⟩
  | error error after =>
      rw [hrun] at hvalue
      rw [hvalue.1]
      exact ⟨rfl, hleast⟩

section Members

variable {guarded : GuardedReader Amf0Tables AmfValue} {child : Amf0Reader AmfValue}
  {lenient : Bool}

theorem guards_propertiesWithin (hchild : Guards slots depths least guarded child)
    (bound : Bytes) (done : Properties) :
    Guards slots depths least (guardedPropertiesWithin lenient guarded bound done)
      (propertiesWithin lenient child bound done) := by
  induction bound generalizing done with
  | nil => cases lenient with
    | true => exact guards_pure _
    | false => exact guards_throw _
  | cons first bound ih =>
      intro cursor hleast
      unfold guardedPropertiesWithin propertiesWithin
      by_cases hcut : (cursor.rest.isEmpty && lenient) = true
      · simp only [if_pos hcut]
        exact ⟨rfl, hleast⟩
      · simp only [if_neg hcut]
        refine Guards.bind guards_shortText (fun name => ?_) cursor hleast
        by_cases hend : name.isEmpty
        · rw [if_pos hend, if_pos hend]
          exact (guards_objectEnd lenient).bind fun _ => guards_pure _
        · rw [if_neg hend, if_neg hend]
          exact hchild.bind fun value => ih _

theorem guards_properties (hchild : Guards slots depths least guarded child) :
    Guards slots depths least (guardedProperties lenient guarded)
      (properties lenient child) :=
  fun cursor => guards_propertiesWithin hchild cursor.rest [] cursor

/-- The properties of a bag come between its taking a slot and its filling it. -/
theorem guards_bag (hchild : ∀ least, Guards slots depths least guarded child)
    (content : Properties → AmfValue) :
    Guards slots depths least
      (do
        let slot ← guardedReserve
        let properties ← guardedProperties lenient guarded
        guardedComplete slot (content properties))
      (do
        let slot ← reserve
        let properties ← properties lenient child
        complete slot (content properties)) :=
  guards_reserving fun slot => (guards_properties (hchild _)).bind fun _ =>
    guards_complete (Nat.lt_succ_self slot) _

theorem guards_body (hnewer : depths .newer = 0)
    (hchild : ∀ least, Guards slots depths least guarded child) (marker : UInt8) :
    Guards slots depths least (guardedBody lenient guarded marker)
      (body lenient child marker) := by
  unfold guardedBody body
  split
  · exact guards_binary64.bind fun _ => guards_pure _
  · exact guards_byte.bind fun _ => guards_pure _
  · exact guards_shortText.bind fun _ => guards_pure _
  · exact guards_bag hchild .object
  · exact guards_pure _
  · exact guards_pure _
  · exact guards_reference
  · exact guards_count32.bind fun _ => guards_bag hchild .ecmaArray
  · exact guards_count32.bind fun count => guards_reserving fun slot =>
      (guards_items (hchild _) count []).bind fun _ =>
        guards_complete (Nat.lt_succ_self slot) _
  · exact guards_date
  · exact guards_longText.bind fun _ => guards_pure _
  · exact guards_pure _
  · exact guards_longText.bind fun _ => guards_pure _
  · exact guards_shortText.bind fun className => guards_bag hchild (.typedObject className)
  · exact guards_newerValue hnewer
  · cases lenient with
    | true =>
        simp only [if_true]
        exact guards_pure _
    | false =>
        simp only [Bool.false_eq_true, if_false]
        exact guards_throw _

end Members

theorem guards_valueWithin (lenient : Bool) (budget : Nat) (depths : AmfDepths) (least : Nat)
    (hnewer : depths .newer = 0)
    (hdepth : depths .older + budget = AmfValue.maximumNesting) :
    Guards slots depths least (guardedValueWithin lenient budget)
      (valueWithin lenient budget) := by
  induction budget generalizing depths least with
  | zero => exact guards_marked_none (Nat.le_of_eq hdepth.symm) _
  | succ budget ih =>
      have hentered : depths.enter .older .newer = 0 :=
        (depths.enter_of_ne (by decide)).trans hnewer
      refine guards_marked (by omega) (guards_body hentered fun least =>
        ih _ least hentered ?_)
      rw [depths.enter_self]
      omega

/-- Whatever the input and the tables, a value is read without a fault. -/
theorem guards_value (lenient : Bool) :
    Guards slots (fun _ => 0) least (guardedValue lenient) (value lenient) :=
  guards_valueWithin lenient _ _ _ rfl (Nat.zero_add _)

end Amf0

end LiveRelay
