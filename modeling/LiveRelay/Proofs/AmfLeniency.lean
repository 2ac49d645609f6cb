import LiveRelay.Proofs.AmfTaking

/-!
# Strict and lenient reading

Lenient reading differs from strict reading in three places: behind the empty
name of an object, where the input ends inside an object, and at a marker that
means nothing.  In each of them strict reading fails.  So where it succeeds,
lenient reading takes the same way, and neither looks at what follows.
-/

namespace LiveRelay

namespace AmfReader

variable {Tables α β : Type}

/-- What the strict reader finds depends on the bytes that it takes and on none
behind them, and in these bytes the lenient reader finds the same. -/
def Covers (lenient strict : AmfReader Tables α) : Prop :=
  ∀ cursor found after, strict cursor = .ok found after →
    ∃ taken, cursor.rest = taken ++ after.rest ∧
      Takes strict cursor.tables taken found after.tables ∧
      Takes lenient cursor.tables taken found after.tables

abbrev IsSelfDelimiting (reader : AmfReader Tables α) : Prop :=
  Covers reader reader

section Covers

variable {lenient strict : AmfReader Tables α}

/-! ## Rules -/

theorem covers_pure (found : α) :
    IsSelfDelimiting (pure found : AmfReader Tables α) := by
  rintro cursor _ _ ⟨⟩
  exact ⟨[], rfl, takes_pure _ _, takes_pure _ _⟩

theorem covers_throw (lenient : AmfReader Tables α) (error : AmfError) :
    Covers lenient (throw error) := by
  rintro cursor _ _ ⟨⟩

theorem covers_tables : IsSelfDelimiting (tables : AmfReader Tables Tables) := by
  rintro cursor _ _ ⟨⟩
  exact ⟨[], rfl, takes_tables _, takes_tables _⟩

theorem covers_update (change : Tables → α × Tables) : IsSelfDelimiting (update change) := by
  rintro cursor _ _ ⟨⟩
  exact ⟨[], rfl, takes_update _ _, takes_update _ _⟩

theorem Covers.bind {next behind : α → AmfReader Tables β} (hfirst : Covers lenient strict)
    (hnext : ∀ found, Covers (next found) (behind found)) :
    Covers (lenient >>= next) (strict >>= behind) := by
  intro cursor found after hrun
  obtain ⟨middle, between, hstrict, hbehind⟩ := exists_of_bind_ok hrun
  obtain ⟨first, hsplit, hfirstStrict, hfirstLenient⟩ := hfirst _ _ _ hstrict
  obtain ⟨second, hsplit', hbehindStrict, hbehindLenient⟩ := hnext _ _ _ _ hbehind
  refine ⟨first ++ second, ?_, hfirstStrict.bind hbehindStrict,
    hfirstLenient.bind hbehindLenient⟩
  rw [hsplit, hsplit', List.append_assoc]

theorem covers_marked_none (lenient : AmfReader Tables AmfValue) :
    Covers lenient (marked none) := by
  rintro ⟨known, rest⟩ found after hrun
  cases rest <;> cases hrun

theorem Covers.marked {lenient strict : UInt8 → AmfReader Tables AmfValue}
    (hread : ∀ marker, Covers (lenient marker) (strict marker)) :
    Covers (AmfReader.marked (some lenient)) (AmfReader.marked (some strict)) := by
  rintro ⟨known, rest⟩ found after hrun
  cases rest with
  | nil => cases hrun
  | cons marker rest =>
      obtain ⟨taken, hsplit, hstrict, hlenient⟩ := hread marker ⟨known, rest⟩ _ _ hrun
      refine ⟨marker :: taken, ?_, hstrict.marked, hlenient.marked⟩
      rw [List.cons_append, ← hsplit]

/-! ## Fields -/

theorem covers_take (count : Nat) :
    IsSelfDelimiting (take count : AmfReader Tables Bytes) := by
  rintro ⟨known, bytes⟩ found after hrun
  unfold take at hrun
  cases hsplit : bytes.split? count with
  | none => simp [hsplit] at hrun
  | some parts =>
      obtain ⟨taken, rest⟩ := parts
      simp only [hsplit, EStateM.Result.ok.injEq] at hrun
      obtain ⟨rfl, rfl⟩ := hrun
      have htakes : Takes (take count) known taken taken known :=
        (reads_take (Bytes.length_taken hsplit)).takes
          (fun _ => (keeps_take count).imp fun _ _ => trivial) known
      exact ⟨taken, (Bytes.split?_eq_some_iff.mp hsplit).1, htakes, htakes⟩

theorem covers_byte : IsSelfDelimiting (byte : AmfReader Tables UInt8) := by
  rintro ⟨known, bytes⟩ found after hrun
  cases bytes with
  | nil => cases hrun
  | cons first rest =>
      cases hrun
      exact ⟨[found], rfl, fun _ => rfl, fun _ => rfl⟩

theorem covers_binary64 : IsSelfDelimiting (binary64 : AmfReader Tables Binary64) :=
  (covers_take 8).bind fun _ => covers_pure _

theorem covers_text (count : Nat) :
    IsSelfDelimiting (text count : AmfReader Tables String) := by
  refine (covers_take count).bind fun bytes => ?_
  split
  · exact covers_pure _
  · exact covers_throw _ _

/-! ## Values in a row -/

theorem Covers.items {lenient strict : AmfReader Tables AmfValue}
    (hchild : Covers lenient strict) (count : Nat) (done : List AmfValue) :
    Covers (items lenient count done) (items strict count done) := by
  induction count generalizing done with
  | zero => exact covers_pure _
  | succ count ih => exact hchild.bind fun value => ih (value :: done)

/-! ## Members -/

/-- What a strict loop finds does not depend on its bound, if that is no shorter
than the bytes that are taken. -/
def CoversWithin (lenient strict : Bytes → AmfReader Tables α) : Prop :=
  ∀ bound cursor found after, strict bound cursor = .ok found after →
    ∃ taken, cursor.rest = taken ++ after.rest ∧
      ∀ room, taken.length ≤ room.length →
        Takes (strict room) cursor.tables taken found after.tables ∧
          Takes (lenient room) cursor.tables taken found after.tables

/-- A loop that is bounded by the rest of the input. -/
theorem CoversWithin.whole {lenient strict : Bytes → AmfReader Tables α}
    (hwithin : CoversWithin lenient strict) :
    Covers (fun cursor => lenient cursor.rest cursor)
      (fun cursor => strict cursor.rest cursor) := by
  intro cursor found after hrun
  obtain ⟨taken, hsplit, htakes⟩ := hwithin _ _ _ _ hrun
  have hroom : ∀ rest : Bytes, taken.length ≤ (taken ++ rest).length := by
    intro rest
    rw [List.length_append]
    exact Nat.le_add_right _ _
  exact ⟨taken, hsplit, fun rest => (htakes _ (hroom rest)).1 rest,
    fun rest => (htakes _ (hroom rest)).2 rest⟩

theorem Loops.coversWithin {name : AmfReader Tables String} {stop halt : AmfReader Tables Unit}
    {child strictChild : AmfReader Tables AmfValue}
    {loop strictLoop : Bytes → Properties → AmfReader Tables Properties}
    (hloops : Loops name stop child loop) (hstrict : Loops name halt strictChild strictLoop)
    (hturn : ∀ first bound done cursor, strictLoop (first :: bound) done cursor =
      turn name halt strictChild (strictLoop bound) done cursor)
    (hlast : ∀ done cursor, ∃ error, strictLoop [] done cursor = .error error cursor)
    (hname : IsSelfDelimiting name) (hstop : Covers stop halt)
    (hchild : Covers child strictChild) (done : Properties) :
    CoversWithin (fun bound => loop bound done) (fun bound => strictLoop bound done) := by
  intro bound
  induction bound generalizing done with
  | nil =>
      intro cursor found after hrun
      obtain ⟨error, hfailed⟩ := hlast done cursor
      exact nomatch hfailed.symm.trans hrun
  | cons head bound ih =>
      intro cursor found after hrun
      obtain ⟨text, named, hread, hrest⟩ :=
        exists_of_bind_ok ((hturn head bound done cursor).symm.trans hrun)
      obtain ⟨first, hsplit, hfirst, -⟩ := hname _ _ _ hread
      by_cases htext : text = ""
      · subst htext
        obtain ⟨_, stopped, hstopped, hdone⟩ := exists_of_bind_ok hrest
        cases hdone
        obtain ⟨second, hsplit', hsecondStrict, hsecond⟩ := hstop _ _ _ hstopped
        refine ⟨first ++ second, by rw [hsplit, hsplit', List.append_assoc], ?_⟩
        intro room hroom
        exact ⟨hstrict.takes_end hfirst hsecondStrict hroom,
          hloops.takes_end hfirst hsecond hroom⟩
      · have hmore : text.isEmpty = false := by simpa using htext
        simp only [hmore] at hrest
        obtain ⟨value, filled, hvalue, hnext⟩ := exists_of_bind_ok hrest
        obtain ⟨second, hsplit', hsecondStrict, hsecond⟩ := hchild _ _ _ hvalue
        obtain ⟨third, hsplit'', hthird⟩ := ih (done.put text value) _ _ _ hnext
        refine ⟨first ++ (second ++ third), ?_, fun room hroom => ⟨?_, ?_⟩⟩
        · rw [hsplit, hsplit', hsplit'', List.append_assoc, List.append_assoc]
        · exact hstrict.takes_next hfirst htext hsecondStrict hroom
            fun bound hbound => (hthird bound hbound).1
        · exact hloops.takes_next hfirst htext hsecond hroom
            fun bound hbound => (hthird bound hbound).2

end Covers

end AmfReader

/-! ## The newer format -/

namespace Amf3

open AmfReader

theorem covers_compact : IsSelfDelimiting compact := by
  have hbits : ∀ (more value : Nat), IsSelfDelimiting (compactBits more value) := by
    intro more
    induction more with
    | zero => exact fun value => covers_byte.bind fun _ => covers_pure _
    | succ more ih =>
        intro value
        refine covers_byte.bind fun next => ?_
        dsimp only
        split
        · exact covers_pure _
        · exact ih _
  exact hbits 3 0

theorem covers_text : IsSelfDelimiting text := by
  refine covers_compact.bind fun header => ?_
  split
  · refine covers_tables.bind fun known => ?_
    split
    · exact covers_pure _
    · exact covers_throw _ _
  · refine (AmfReader.covers_text (header / 2)).bind fun content => ?_
    split
    · exact covers_pure _
    · exact covers_update _

theorem covers_orReference {inlined : Nat → Amf3Reader AmfValue}
    (hinlined : ∀ header, IsSelfDelimiting (inlined header)) :
    IsSelfDelimiting (orReference inlined) := by
  refine covers_compact.bind fun header => ?_
  split
  · refine covers_tables.bind fun known => ?_
    split
    · exact covers_pure _
    · exact covers_throw _ _
  · exact hinlined header

theorem covers_names (count : Nat) (done : List String) :
    IsSelfDelimiting (names count done) := by
  induction count generalizing done with
  | zero => exact covers_pure _
  | succ count ih => exact covers_text.bind fun name => ih (name :: done)

theorem covers_traits (header : Nat) : IsSelfDelimiting (traits header) := by
  unfold traits
  split
  · refine covers_tables.bind fun known => ?_
    split
    · exact covers_pure _
    · exact covers_throw _ _
  · split
    · exact covers_throw _ _
    · exact covers_text.bind fun className =>
        (covers_names _ _).bind fun sealedNames => covers_update _

theorem loops_members (child : Amf3Reader AmfValue) :
    Loops text (pure ()) child (members child) where
  turn_eq _ _ _ _ _ := rfl
  name_ne_ok _ _ _ := by rintro ⟨⟩

section Bodies

variable {child : Amf3Reader AmfValue} (hchild : IsSelfDelimiting child)
include hchild

theorem covers_dynamicMembers (done : Properties) :
    IsSelfDelimiting (dynamicMembers child done) :=
  ((loops_members child).coversWithin (loops_members child)
    (fun _ _ _ _ => rfl) (fun _ _ => ⟨_, rfl⟩)
    covers_text (covers_pure ()) hchild done).whole

theorem covers_sealedMembers (names : List String) (done : Properties) :
    IsSelfDelimiting (sealedMembers child names done) := by
  induction names generalizing done with
  | nil => exact covers_pure _
  | cons name names ih => exact hchild.bind fun value => ih (done.put name value)

theorem covers_array (header : Nat) : IsSelfDelimiting (array child header) :=
  (covers_update _).bind fun _ => (covers_dynamicMembers hchild []).bind fun _ =>
    (hchild.items (header / 2) []).bind fun _ => covers_update _

theorem covers_object (header : Nat) : IsSelfDelimiting (object child header) := by
  refine (covers_update _).bind fun slot => (covers_traits header).bind fun traits => ?_
  refine (covers_sealedMembers hchild traits.sealedNames []).bind fun fixed => ?_
  dsimp only
  split
  · exact (covers_dynamicMembers hchild fixed).bind fun properties => covers_update _
  · exact (covers_pure fixed).bind fun properties => covers_update _

theorem covers_body (marker : UInt8) : IsSelfDelimiting (body child marker) := by
  have hxml : ∀ header, IsSelfDelimiting (xml header) := fun header =>
    (AmfReader.covers_text (header / 2)).bind fun _ => covers_update _
  unfold body
  split
  · exact covers_pure _
  · exact covers_pure _
  · exact covers_pure _
  · exact covers_pure _
  · exact covers_compact.bind fun _ => covers_pure _
  · exact covers_binary64.bind fun _ => covers_pure _
  · exact covers_text.bind fun _ => covers_pure _
  · exact covers_orReference hxml
  · exact covers_orReference fun _ => covers_binary64.bind fun _ => covers_update _
  · exact covers_orReference (covers_array hchild)
  · exact covers_orReference (covers_object hchild)
  · exact covers_orReference hxml
  · exact covers_orReference fun header =>
      (covers_take (header / 2)).bind fun _ => covers_update _
  · exact covers_throw _ _

end Bodies

theorem covers_valueWithin (budget : Nat) : IsSelfDelimiting (valueWithin budget) := by
  induction budget with
  | zero => exact covers_marked_none _
  | succ budget ih => exact Covers.marked (covers_body ih)

end Amf3

/-! ## The older format -/

namespace Amf0

open AmfReader

theorem covers_count16 : IsSelfDelimiting count16 :=
  (covers_take 2).bind fun _ => covers_pure _

theorem covers_count32 : IsSelfDelimiting count32 :=
  (covers_take 4).bind fun _ => covers_pure _

theorem covers_shortText : IsSelfDelimiting shortText :=
  covers_count16.bind AmfReader.covers_text

theorem covers_longText : IsSelfDelimiting longText :=
  covers_count32.bind AmfReader.covers_text

/-- Strict reading demands the end marker. -/
theorem covers_objectEnd (lenient : Bool) : Covers (objectEnd lenient) (objectEnd false) := by
  rintro ⟨known, rest⟩ found after hrun
  unfold objectEnd at hrun
  split at hrun
  · rename_i behind hmark
    cases hrun
    exact ⟨[0x09], hmark, fun _ => rfl, fun _ => rfl⟩
  · cases hrun
  · cases hrun

theorem covers_reference : IsSelfDelimiting reference := by
  refine covers_count16.bind fun index => covers_tables.bind fun known => ?_
  split
  · exact covers_pure _
  · exact covers_throw _ _

/-- The newer format knows one way of reading only. -/
theorem covers_newerValue : IsSelfDelimiting newerValue := by
  rintro ⟨⟨references, newer⟩, rest⟩ found after hrun
  unfold newerValue at hrun
  dsimp only at hrun
  cases hinner : Amf3.value ⟨newer, rest⟩ with
  | error error inner => simp [hinner] at hrun
  | ok value inner =>
      simp only [hinner, EStateM.Result.ok.injEq] at hrun
      obtain ⟨rfl, rfl⟩ := hrun
      obtain ⟨taken, hsplit, htakes, -⟩ :=
        Amf3.covers_valueWithin AmfValue.maximumNesting ⟨newer, rest⟩ value inner hinner
      have hvalue : Takes newerValue ⟨references, newer⟩ taken value
          ⟨references, inner.tables⟩ := by
        intro more
        simp only [newerValue, Amf3.value, htakes more]
      exact ⟨taken, hsplit, hvalue, hvalue⟩

/-! ### Objects and arrays -/

theorem propertiesWithin_cons_of_strict (child : Amf0Reader AmfValue) (first : UInt8)
    (bound : Bytes) (done : Properties) (cursor : AmfCursor Amf0Tables) :
    propertiesWithin false child (first :: bound) done cursor =
      turn shortText (objectEnd false) child (propertiesWithin false child bound) done
        cursor := by
  simp only [propertiesWithin, Bool.and_false, Bool.false_eq_true, if_false]
  rfl

theorem loops_properties (lenient : Bool) (child : Amf0Reader AmfValue) :
    Loops shortText (objectEnd lenient) child (propertiesWithin lenient child) where
  turn_eq first bound done cursor hrest := propertiesWithin_cons first bound done hrest
  name_ne_ok _ _ _ := by rintro ⟨⟩

section Bodies

variable {child strictChild : Amf0Reader AmfValue} (hchild : Covers child strictChild)
include hchild

theorem covers_properties (lenient : Bool) :
    Covers (properties lenient child) (properties false strictChild) :=
  ((loops_properties lenient child).coversWithin (loops_properties false strictChild)
    (propertiesWithin_cons_of_strict strictChild) (fun _ _ => ⟨_, rfl⟩)
    covers_shortText (covers_objectEnd lenient) hchild []).whole

/-- Every bag takes its index, its properties and its place. -/
theorem covers_filled (lenient : Bool) (kind : AmfValue.BagKind) :
    Covers (filled lenient child kind) (filled false strictChild kind) :=
  (covers_update _).bind fun _ => (covers_properties hchild lenient).bind fun _ =>
    covers_update _

theorem covers_body (lenient : Bool) (marker : UInt8) :
    Covers (body lenient child marker) (body false strictChild marker) := by
  unfold body
  split
  · exact covers_binary64.bind fun _ => covers_pure _
  · exact covers_byte.bind fun _ => covers_pure _
  · exact covers_shortText.bind fun _ => covers_pure _
  · exact covers_filled hchild lenient .object
  · exact covers_pure _
  · exact covers_pure _
  · exact covers_reference
  · exact covers_count32.bind fun _ => covers_filled hchild lenient .ecmaArray
  · exact covers_count32.bind fun count => (covers_update _).bind fun slot =>
      (hchild.items count []).bind fun items => covers_update _
  · exact (covers_take 10).bind fun _ => covers_pure _
  · exact covers_longText.bind fun _ => covers_pure _
  · exact covers_pure _
  · exact covers_longText.bind fun _ => covers_pure _
  · exact covers_shortText.bind fun className =>
      covers_filled hchild lenient (.typedObject className)
  · exact covers_newerValue
  · exact covers_throw _ _

end Bodies

theorem covers_valueWithin (lenient : Bool) (budget : Nat) :
    Covers (valueWithin lenient budget) (valueWithin false budget) := by
  induction budget with
  | zero => exact covers_marked_none _
  | succ budget ih => exact Covers.marked (covers_body ih lenient)

/-- What strict reading finds, lenient reading finds too, with the same bytes
left unread and the same tables.  Strict reading does not look behind the bytes
that it takes. -/
theorem valueWithin_lenient_of_strict {budget : Nat} {known after : Amf0Tables}
    {bytes rest : Bytes} {found : AmfValue}
    (hstrict : valueWithin false budget ⟨known, bytes⟩ = .ok found ⟨after, rest⟩) :
    valueWithin true budget ⟨known, bytes⟩ = .ok found ⟨after, rest⟩ ∧
      ∃ taken, bytes = taken ++ rest ∧ ∀ behind,
        valueWithin false budget ⟨known, taken ++ behind⟩ = .ok found ⟨after, behind⟩ := by
  obtain ⟨taken, hbytes, hsame, hlenient⟩ := covers_valueWithin true budget _ _ _ hstrict
  dsimp only at hbytes
  subst hbytes
  exact ⟨hlenient rest, taken, rfl, hsame⟩

/-- An object that holds an earlier value and a text of the newer format, before
another byte. -/
def mixedObject : Bytes :=
  [0x03, 0x00, 0x01, 0x61, 0x07, 0x00, 0x00, 0x00, 0x01, 0x62, 0x11, 0x06, 0x03, 0x78,
    0x00, 0x00, 0x09, 0x02]

set_option maxRecDepth 4096 in
theorem valueWithin_lenient_of_strict_of_object :
    ∃ after, valueWithin false 2 ⟨⟨#[.strictArray []], {}⟩, mixedObject⟩ =
        .ok (.object [("a", .strictArray []), ("b", .text "x")]) ⟨after, [0x02]⟩ ∧
      valueWithin true 2 ⟨⟨#[.strictArray []], {}⟩, mixedObject⟩ =
        .ok (.object [("a", .strictArray []), ("b", .text "x")]) ⟨after, [0x02]⟩ ∧
      ∃ taken, mixedObject = taken ++ [0x02] ∧ ∀ behind,
        valueWithin false 2 ⟨⟨#[.strictArray []], {}⟩, taken ++ behind⟩ =
          .ok (.object [("a", .strictArray []), ("b", .text "x")]) ⟨after, behind⟩ := by
  have hread : ∃ after, valueWithin false 2 ⟨⟨#[.strictArray []], {}⟩, mixedObject⟩ =
      .ok (.object [("a", .strictArray []), ("b", .text "x")]) ⟨after, [0x02]⟩ := ⟨_, rfl⟩
  obtain ⟨after, hstrict⟩ := hread
  exact ⟨after, hstrict, valueWithin_lenient_of_strict hstrict⟩

end Amf0

end LiveRelay
