import LiveRelay.Proofs.Amf3Sending
import LiveRelay.Proofs.AmfLeniency

/-!
# Sent values of the newer format are read back

The tables of the reader are those of the sender, with null for each complex
value that is still open.  Each part of a serialisation is read with the tables
of the sender before it and leaves the tables of the sender after it.  So an
index finds what the sender meant, whatever the sender chose.
-/

namespace LiveRelay

namespace Amf3Sent

/-- The tables of the reader. -/
def tables (sent : Amf3Sent) : Amf3Tables where
  texts := sent.texts.toArray
  objects := (sent.objects.map (·.getD .null)).toArray
  traits := sent.traits.toArray

theorem tables_addText (sent : Amf3Sent) (content : String) :
    (sent.addText content).tables =
      { sent.tables with texts := sent.tables.texts.push content } := by
  simp [tables, addText]

theorem tables_addTraits (sent : Amf3Sent) (traits : Amf3Traits) :
    (sent.addTraits traits).tables =
      { sent.tables with traits := sent.tables.traits.push traits } := by
  simp [tables, addTraits]

theorem tables_remember (sent : Amf3Sent) (value : AmfValue) :
    (sent.remember value).tables =
      { sent.tables with objects := sent.tables.objects.push value } := by
  simp [tables, remember]

theorem tables_reserve (sent : Amf3Sent) :
    sent.reserve.tables =
      { sent.tables with objects := sent.tables.objects.push .null } := by
  simp [tables, reserve]

theorem tables_complete (sent : Amf3Sent) (slot : Nat) (value : AmfValue) :
    (sent.complete slot value).tables =
      { sent.tables with objects := sent.tables.objects.setIfInBounds slot value } := by
  simp [tables, complete, List.map_set]

theorem size_objects_tables (sent : Amf3Sent) :
    sent.tables.objects.size = sent.objects.length := by
  simp [tables]

end Amf3Sent

namespace Amf3

open AmfReader

/-! ## Numbers -/

section Digits

variable {known : Amf3Tables} {digit more value found : Nat} {rest : Bytes}

theorem takes_compactBits_last (hdigit : digit < 256) :
    Takes (compactBits 0 value) known [UInt8.ofNat digit] (value * 256 + digit) known := by
  have hbyte : (UInt8.ofNat digit).toNat = digit := UInt8.toNat_ofNat_of_lt' hdigit
  intro rest
  change EStateM.Result.ok (value * 256 + (UInt8.ofNat digit).toNat) _ = _
  rw [hbyte]
  rfl

theorem takes_compactBits_end (hdigit : digit < 128) :
    Takes (compactBits (more + 1) value) known [UInt8.ofNat digit] (value * 128 + digit)
      known := by
  have hbyte : (UInt8.ofNat digit).toNat = digit :=
    UInt8.toNat_ofNat_of_lt' (Nat.lt_of_lt_of_le hdigit (by decide))
  have hstop : UInt8.ofNat digit < 128 := by
    rw [UInt8.lt_iff_toNat_lt, hbyte]
    exact hdigit
  intro rest
  change (if UInt8.ofNat digit < 128 then
    (pure (value * 128 + (UInt8.ofNat digit).toNat % 128) : Amf3Reader Nat) else _)
      ⟨known, rest⟩ = _
  rw [if_pos hstop, hbyte, Nat.mod_eq_of_lt hdigit]
  rfl

theorem takes_compactBits_more (hdigit : digit < 128)
    (hrest : Takes (compactBits more (value * 128 + digit)) known rest found known) :
    Takes (compactBits (more + 1) value) known (UInt8.ofNat (0x80 + digit) :: rest) found
      known := by
  have hbyte : (UInt8.ofNat (0x80 + digit)).toNat = 0x80 + digit :=
    UInt8.toNat_ofNat_of_lt' (Nat.add_lt_add_left hdigit 0x80)
  have hmore : ¬ UInt8.ofNat (0x80 + digit) < 128 := by
    rw [UInt8.lt_iff_toNat_lt, hbyte]
    exact Nat.not_lt_of_le (Nat.le_add_right _ _)
  intro behind
  change (if UInt8.ofNat (0x80 + digit) < 128 then _ else
    compactBits more (value * 128 + (UInt8.ofNat (0x80 + digit)).toNat % 128))
      ⟨known, rest ++ behind⟩ = _
  rw [if_neg hmore, hbyte, Nat.add_mod_left, Nat.mod_eq_of_lt hdigit]
  exact hrest behind

end Digits

theorem takes_compact {value : Nat} {bytes : Bytes} (hbytes : IsCompact value bytes)
    (known : Amf3Tables) : Takes compact known bytes value known := by
  have hfound : ∀ {other : Nat}, Takes compact known bytes other known → other = value →
      Takes compact known bytes value known := fun htakes heq => heq ▸ htakes
  cases hbytes with
  | one hfits => exact hfound (takes_compactBits_end hfits) (Nat.zero_mul 128 ▸ Nat.zero_add value)
  | two hfits =>
      refine hfound (takes_compactBits_more ?_ (takes_compactBits_end ?_)) ?_ <;> omega
  | three hfits =>
      refine hfound (takes_compactBits_more ?_ (takes_compactBits_more ?_
        (takes_compactBits_end ?_))) ?_ <;> omega
  | four hfits =>
      refine hfound (takes_compactBits_more ?_ (takes_compactBits_more ?_
        (takes_compactBits_more ?_ (takes_compactBits_last ?_)))) ?_ <;> omega

/-- The count of what follows, in the header of a value in full. -/
theorem half_header (count : Nat) : (2 * count + 1) % 2 = 1 ∧ (2 * count + 1) / 2 = count := by
  omega

/-! ## Texts and shapes -/

theorem takes_content (content : String) (known : Amf3Tables) :
    Takes (AmfReader.text (Bytes.ofText content).length) known (Bytes.ofText content) content
      known :=
  (reads_text content).takes (fun _ => (AmfReader.keeps_text _).imp fun _ _ => trivial) known

variable {sent after : Amf3Sent} {bytes : Bytes}

theorem takes_text_empty {close : Bytes} (hclose : IsCompact 1 close) (known : Amf3Tables) :
    Takes text known close "" known :=
  (takes_compact hclose known).finish (takes_content "" known)

theorem takes_text {content : String} (hsends : SendsText sent content bytes after) :
    Takes text sent.tables bytes content after.tables := by
  cases hsends with
  | empty hheader => exact takes_text_empty hheader _
  | inFull hnew hheader =>
      apply (takes_compact hheader _).bind
      obtain ⟨hodd, hcount⟩ := half_header (Bytes.ofText content).length
      have hmore : content.isEmpty = false := by simpa using hnew
      rw [if_neg (by omega), hcount]
      refine (takes_content content _).finish ?_
      rw [hmore, Amf3Sent.tables_addText]
      exact fun _ => rfl
  | @again _ index header hsent hheader =>
      apply (takes_compact hheader _).finish
      have heven : 2 * index % 2 = 0 := by omega
      have hindex : 2 * index / 2 = index := by omega
      rw [if_pos heven, hindex]
      apply (takes_tables _).finish
      have hheld : sent.tables.texts[index]? = some content := by
        simpa [Amf3Sent.tables] using hsent
      rw [hheld]
      exact takes_pure _ _

theorem takes_names {sealedNames : List String}
    (hnames : InTurn SendsText sent sealedNames bytes after) (done : List String) :
    Takes (names sealedNames.length done) sent.tables bytes (done.reverse ++ sealedNames)
      after.tables := by
  induction hnames generalizing done with
  | nil sent =>
      rw [List.append_nil]
      exact takes_pure _ _
  | @cons sent between after name sealedNames first rest hfirst hrest ih =>
      have hbehind := ih (name :: done)
      rw [List.reverse_cons, List.append_assoc] at hbehind
      exact (takes_text hfirst).bind hbehind

theorem SendsTraits.isInFull {traits : Amf3Traits} {word : Nat}
    (hsends : SendsTraits sent traits word bytes after) : word % 2 = 1 := by
  cases hsends with
  | inFull hclass hnames =>
      unfold Amf3Traits.header
      split <;> omega
  | again hsent => omega

theorem takes_traits {shape : Amf3Traits} {word : Nat}
    (hsends : SendsTraits sent shape word bytes after) :
    Takes (traits word) sent.tables bytes shape after.tables := by
  cases hsends with
  | inFull hclass hnames =>
      have hnew : shape.header / 2 % 2 ≠ 0 := by
        unfold Amf3Traits.header
        split <;> omega
      have hplain : shape.header / 4 % 2 ≠ 1 := by
        unfold Amf3Traits.header
        split <;> omega
      have hcount : shape.header / 16 = shape.sealedNames.length := by
        unfold Amf3Traits.header
        split <;> omega
      have hdynamic : (shape.header / 8 % 2 == 1) = shape.isDynamic := by
        unfold Amf3Traits.header
        cases shape.isDynamic <;> simp <;> omega
      unfold traits
      rw [if_neg hnew, if_neg hplain, hcount, hdynamic]
      apply (takes_text hclass).bind
      apply (takes_names hnames []).finish
      rw [Amf3Sent.tables_addTraits]
      exact fun _ => rfl
  | @again _ index hsent =>
      have hold : (4 * index + 1) / 2 % 2 = 0 := by omega
      have hindex : (4 * index + 1) / 4 = index := by omega
      have hheld : sent.tables.traits[index]? = some shape := by
        simpa [Amf3Sent.tables] using hsent
      unfold traits
      rw [if_pos hold, hindex]
      apply (takes_tables _).finish
      rw [hheld]
      exact takes_pure _ _

/-! ## Complex values -/

theorem takes_inFull {inlined : Nat → Amf3Reader AmfValue} {known between : Amf3Tables}
    {word : Nat} {header : Bytes} {value : AmfValue} (hheader : IsCompact word header)
    (hodd : word % 2 = 1) (hinlined : Takes (inlined word) known bytes value between) :
    Takes (orReference inlined) known (header ++ bytes) value between := by
  apply (takes_compact hheader known).bind
  rw [if_neg (by omega)]
  exact hinlined

theorem takes_again (inlined : Nat → Amf3Reader AmfValue) {index : Nat} {header : Bytes}
    {value : AmfValue} (hsent : sent.objects[index]? = some (some value))
    (hheader : IsCompact (2 * index) header) :
    Takes (orReference inlined) sent.tables header value sent.tables := by
  have hheld : sent.tables.objects[index]? = some value := by
    simp [Amf3Sent.tables, hsent]
  have heven : 2 * index % 2 = 0 := by omega
  have hindex : 2 * index / 2 = index := by omega
  apply (takes_compact hheader _).finish
  rw [if_pos heven, hindex]
  apply (takes_tables _).finish
  rw [hheld]
  exact takes_pure _ _

theorem takes_remember (sent : Amf3Sent) (value : AmfValue) :
    Takes (remember value) sent.tables [] value (sent.remember value).tables := by
  rw [Amf3Sent.tables_remember]
  exact takes_update _ _

theorem takes_reserve (sent : Amf3Sent) :
    Takes reserve sent.tables [] sent.objects.length sent.reserve.tables := by
  rw [Amf3Sent.tables_reserve, ← Amf3Sent.size_objects_tables]
  exact takes_update _ _

theorem takes_complete (sent : Amf3Sent) (slot : Nat) (value : AmfValue) :
    Takes (complete slot value) sent.tables [] value (sent.complete slot value).tables := by
  rw [Amf3Sent.tables_complete]
  exact takes_update _ _

/-! ## Parts -/

section Parts

variable {child : Amf3Reader AmfValue} {known between : Amf3Tables}

theorem takes_sealedMembers {sealedNames : List String} {values : List AmfValue}
    (hvalues : InTurn (TakesItem child) known values bytes between)
    (hlength : values.length = sealedNames.length) (done : Properties)
    (hdistinct : (Table.keys (done ++ sealedNames.zip values)).Nodup) :
    Takes (sealedMembers child sealedNames done) known bytes (done ++ sealedNames.zip values)
      between := by
  induction hvalues generalizing sealedNames done with
  | nil known =>
      obtain rfl := List.length_eq_zero_iff.mp hlength.symm
      rw [List.zip_nil_left, List.append_nil]
      exact takes_pure _ _
  | @cons known next between value values first rest hfirst hrest ih =>
      cases sealedNames with
      | nil => cases hlength
      | cons name sealedNames =>
          -- The name is new, so the member goes behind what is done.
          have hput := Table.put_of_notMem (Table.notMem_keys_of_nodup hdistinct) value
          rw [List.zip_cons_cons, List.append_cons, ← hput] at hdistinct ⊢
          exact hfirst.bind (ih (Nat.succ.inj hlength) _ hdistinct)

theorem takes_dynamicMembers {done members : Properties} {close : Bytes}
    (hmembers : InTurn (TakesMember text child) known members bytes between)
    (hclose : IsCompact 1 close) (hdistinct : (Table.keys (done ++ members)).Nodup) :
    Takes (dynamicMembers child done) known (bytes ++ close) (done ++ members) between := by
  intro behind
  have hroom : (bytes ++ (close ++ [])).length ≤ (bytes ++ close ++ behind).length := by
    simp only [List.append_nil, List.length_append]
    omega
  have hloop := (loops_members child).takes hmembers (takes_text_empty hclose between)
    (takes_pure () between) hdistinct hroom
  rw [List.append_nil] at hloop
  exact hloop behind

/-- The child reads what is sent of values that are no higher. -/
def ReadsSent (child : Amf3Reader AmfValue) (budget : Nat) : Prop :=
  ∀ {sent after : Amf3Sent} {value : AmfValue} {bytes : Bytes},
    Sends sent value bytes after → value.height ≤ budget →
      Takes child sent.tables bytes value after.tables

variable {budget : Nat} (hchild : ReadsSent child budget)
include hchild

theorem takes_sentItems {items : List AmfValue} (hsent : InTurn Sends sent items bytes after)
    (hheight : ∀ item ∈ items, item.height ≤ budget) :
    InTurn (TakesItem child) sent.tables items bytes after.tables :=
  hsent.map Amf3Sent.tables fun item hitem _ _ _ hsends => hchild hsends (hheight item hitem)

theorem takes_sentMembers {members : Properties}
    (hsent : InTurn SendsMember sent members bytes after)
    (hheight : ∀ member ∈ members, member.2.height ≤ budget) :
    InTurn (TakesMember text child) sent.tables members bytes after.tables := by
  refine hsent.map Amf3Sent.tables fun member hmember _ _ _ hsends => ?_
  cases hsends with
  | mk hname hne hvalue =>
      exact .mk (takes_text hname) hne (hchild hvalue (hheight _ hmember))

theorem takes_array {items : List AmfValue} {close : Bytes} (hclose : IsCompact 1 close)
    (hitems : InTurn Sends sent.reserve items bytes after)
    (hheight : ∀ item ∈ items, item.height ≤ budget) :
    Takes (array child (2 * items.length + 1)) sent.tables (close ++ bytes)
      (.strictArray items)
      (after.complete sent.objects.length (.strictArray items)).tables := by
  have hnamed : Takes (dynamicMembers child []) sent.reserve.tables close [] _ :=
    takes_dynamicMembers (.nil sent.reserve.tables) hclose List.nodup_nil
  have hdense := takes_items (takes_sentItems hchild hitems hheight) []
  unfold array
  rw [(half_header _).2]
  change Takes _ _ ([] ++ (close ++ bytes)) _ _
  apply (takes_reserve sent).bind
  apply hnamed.bind
  exact hdense.finish (takes_complete after sent.objects.length (.strictArray items))

theorem takes_object {shaped filled : Amf3Sent} {shape : Amf3Traits} {values : List AmfValue}
    {dynamic : Properties} {word : Nat} {shapeBytes fixed members close : Bytes}
    (htraits : SendsTraits sent.reserve shape word shapeBytes shaped)
    (hlength : values.length = shape.sealedNames.length)
    (hsealed : InTurn Sends shaped values fixed filled)
    (hdynamic : InTurn SendsMember filled dynamic members after)
    (hclose : if shape.isDynamic then IsCompact 1 close else dynamic = [] ∧ close = [])
    (hdistinct : (Table.keys (shape.sealedNames.zip values ++ dynamic)).Nodup)
    (hheight : ∀ member ∈ shape.sealedNames.zip values ++ dynamic,
      member.2.height ≤ budget) :
    Takes (object child word) sent.tables (shapeBytes ++ (fixed ++ (members ++ close)))
      (shape.kind.fill (shape.sealedNames.zip values ++ dynamic))
      (after.complete sent.objects.length
        (shape.kind.fill (shape.sealedNames.zip values ++ dynamic))).tables := by
  have hvalues : ∀ value ∈ values, value.height ≤ budget := by
    intro value hvalue
    rw [← List.map_snd_zip (Nat.le_of_eq hlength)] at hvalue
    obtain ⟨member, hmember, rfl⟩ := List.mem_map.mp hvalue
    exact hheight member (List.mem_append_left _ hmember)
  have hfixed := takes_sealedMembers (takes_sentItems hchild hsealed hvalues) hlength []
    (by rw [Table.keys, List.map_append, List.nodup_append] at hdistinct
        exact hdistinct.1)
  have hcomplete : ∀ properties : Properties,
      Takes (complete sent.objects.length
          (if shape.className.isEmpty then .object properties
            else .typedObject shape.className properties)) after.tables []
        (shape.kind.fill properties)
        (after.complete sent.objects.length (shape.kind.fill properties)).tables := by
    intro properties
    have hfill : (if shape.className.isEmpty then AmfValue.object properties
        else .typedObject shape.className properties) = shape.kind.fill properties := by
      unfold Amf3Traits.kind
      split <;> rfl
    rw [hfill]
    exact takes_complete after _ _
  unfold object
  change Takes _ _ ([] ++ (shapeBytes ++ (fixed ++ (members ++ close)))) _ _
  apply (takes_reserve sent).bind
  apply (takes_traits htraits).bind
  apply hfixed.bind
  dsimp only
  split at hclose
  · rename_i hopen
    rw [if_pos hopen]
    have hnamed := takes_sentMembers hchild hdynamic fun member hmember =>
      hheight member (List.mem_append_right _ hmember)
    exact (takes_dynamicMembers hnamed hclose hdistinct).finish (hcomplete _)
  · rename_i hshut
    obtain ⟨rfl, rfl⟩ := hclose
    cases hdynamic
    rw [if_neg hshut]
    simp only [List.append_nil, List.nil_append]
    exact (takes_pure _ _).finish (hcomplete _)

end Parts

/-! ## Values -/

theorem signed29_mod {value : Int32} (hlow : -0x10000000 ≤ value.toInt)
    (hhigh : value.toInt < 0x10000000) :
    signed29 (value.toInt % 0x20000000).toNat = value := by
  unfold signed29
  by_cases hnegative : value.toInt < 0
  · have hbits : ((value.toInt % 0x20000000).toNat : Int) = value.toInt + 0x20000000 := by omega
    rw [if_neg (by omega), hbits, Int.add_sub_cancel, Int32.ofInt_toInt]
  · have hbits : ((value.toInt % 0x20000000).toNat : Int) = value.toInt := by omega
    rw [if_pos (by omega), hbits, Int32.ofInt_toInt]

theorem exists_orReference (child : Amf3Reader AmfValue) {value : AmfValue} {marker : UInt8}
    (hmarker : marker ∈ markers value) :
    ∃ inlined, body child marker = orReference inlined := by
  cases value <;> simp only [markers, List.mem_cons, List.not_mem_nil, or_false] at hmarker
  case xml =>
    obtain rfl | rfl := hmarker
    · exact ⟨xml, rfl⟩
    · exact ⟨xml, rfl⟩
  case date => exact ⟨date, hmarker ▸ rfl⟩
  case strictArray => exact ⟨array child, hmarker ▸ rfl⟩
  case object => exact ⟨object child, hmarker ▸ rfl⟩
  case typedObject => exact ⟨object child, hmarker ▸ rfl⟩
  case byteArray => exact ⟨byteArray, hmarker ▸ rfl⟩

theorem takes_binary64 (value : Binary64) (known : Amf3Tables) :
    Takes binary64 known (Bytes.ofWord64 value.bits) value known :=
  (reads_binary64 value).takes (fun _ => keeps_binary64) known

theorem takes_xml (sent : Amf3Sent) (content : String) :
    Takes (xml (2 * (Bytes.ofText content).length + 1)) sent.tables (Bytes.ofText content)
      (.xml content) (sent.remember (.xml content)).tables := by
  unfold xml
  rw [(half_header _).2]
  exact (takes_content content _).finish (takes_remember sent (.xml content))

theorem takes_date (sent : Amf3Sent) (milliseconds : Binary64) (header : Nat) :
    Takes (date header) sent.tables (Bytes.ofWord64 milliseconds.bits) (.date milliseconds)
      (sent.remember (.date milliseconds)).tables :=
  (takes_binary64 milliseconds _).finish (takes_remember sent (.date milliseconds))

theorem takes_byteArray (sent : Amf3Sent) (content : Bytes) :
    Takes (byteArray (2 * content.length + 1)) sent.tables content (.byteArray content)
      (sent.remember (.byteArray content)).tables := by
  have htake : Takes (take content.length) sent.tables content content sent.tables :=
    (reads_take rfl).takes (fun _ => (keeps_take _).imp fun _ _ => trivial) _
  unfold byteArray
  rw [(half_header _).2]
  exact htake.finish (takes_remember sent (.byteArray content))

theorem takes_marked {child : Amf3Reader AmfValue} {budget : Nat}
    (hchild : ReadsSent child budget) : ReadsSent (marked (some (body child))) (budget + 1) := by
  intro sent after value bytes hsends hheight
  rw [AmfValue.height_eq, Nat.succ_le_succ_iff, AmfValue.heightAmong_le_iff] at hheight
  cases hsends with
  | undefined => exact fun _ => rfl
  | null => exact fun _ => rfl
  | boolean flag => cases flag <;> exact fun _ => rfl
  | integer hlow hhigh hbits =>
      have hread := (takes_compact hbits sent.tables).map fun bits =>
        AmfValue.integer (signed29 bits)
      rw [signed29_mod hlow hhigh] at hread
      exact Takes.marked hread
  | number value => exact Takes.marked ((takes_binary64 value _).map AmfValue.number)
  | text htext => exact Takes.marked ((takes_text htext).map AmfValue.text)
  | @xml _ content marker header hmarker hheader =>
      have hread := takes_inFull hheader (half_header _).1 (takes_xml sent content)
      simp only [markers, List.mem_cons, List.not_mem_nil, or_false] at hmarker
      obtain rfl | rfl := hmarker
      · exact Takes.marked hread
      · exact Takes.marked hread
  | @date _ milliseconds unused header hheader =>
      exact Takes.marked (takes_inFull hheader (half_header _).1
        (takes_date sent milliseconds (2 * unused + 1)))
  | @byteArray _ content header hheader =>
      exact Takes.marked (takes_inFull hheader (half_header _).1 (takes_byteArray sent content))
  | array hheader hclose hitems =>
      exact Takes.marked (takes_inFull hheader (half_header _).1
        (takes_array hchild hclose hitems hheight))
  | object hheader htraits hlength hsealed hdynamic hclose hdistinct =>
      rw [AmfValue.parts_fill, List.forall_mem_map] at hheight
      exact Takes.marked (takes_inFull hheader htraits.isInFull
        (takes_object hchild htraits hlength hsealed hdynamic hclose hdistinct hheight))
  | again hsent hmarker hheader =>
      obtain ⟨inlined, hbody⟩ := exists_orReference child hmarker
      apply Takes.marked
      rw [hbody]
      exact takes_again inlined hsent hheader

theorem readsSent_valueWithin (budget : Nat) : ReadsSent (valueWithin budget) budget := by
  induction budget with
  | zero =>
      intro sent after value bytes hsends hheight
      exact absurd hheight (Nat.not_le_of_lt value.height_pos)
  | succ budget ih => exact takes_marked ih

/-- Every value that headers can count can be sent.  Whatever the sender chose, the
value that it sent is read, but for the order of members, and the bytes behind it
are left. -/
theorem value_of_sends {tree : AmfValue} (hheight : tree.height ≤ AmfValue.maximumNesting) :
    (tree.Everywhere IsSendable → ∃ bytes after, Sends {} tree bytes after) ∧
      ∀ (arranged : AmfValue) (bytes : Bytes) (after : Amf3Sent), tree.Alike arranged →
        Sends {} arranged bytes after → ∀ behind, ∃ found,
          value ⟨{}, bytes ++ behind⟩ = .ok found ⟨after.tables, behind⟩ ∧
            tree.Alike found := by
  constructor
  · intro hsendable
    exact exists_sends hsendable {}
  · intro arranged bytes after halike hsends behind
    rw [halike.height_eq] at hheight
    exact ⟨arranged, readsSent_valueWithin _ hsends hheight behind, halike⟩

/-- Two persons, the first of them twice. -/
def people : AmfValue :=
  .strictArray [.typedObject "P" [("x", .text "ab")], .typedObject "P" [("x", .text "ab")],
    .typedObject "P" [("ab", .null), ("x", .integer (-1))]]

/-- The first person comes again as an index.  The traits of the other one and
the name of its last member are indices too. -/
def peopleBytes : Bytes :=
  [0x09, 0x07, 0x01,
    0x0A, 0x1B, 0x03, 0x50, 0x03, 0x78, 0x06, 0x05, 0x61, 0x62, 0x01,
    0x0A, 0x02,
    0x0A, 0x01, 0x04, 0xFF, 0xFF, 0xFF, 0xFF, 0x04, 0x01, 0x01]

theorem value_of_sends_of_people :
    ∃ found after, value ⟨{}, peopleBytes ++ [0x02]⟩ = .ok found ⟨after, [0x02]⟩ ∧
      people.Alike found := by
  have hswap : people.Alike (.strictArray [.typedObject "P" [("x", .text "ab")],
      .typedObject "P" [("x", .text "ab")],
      .typedObject "P" [("x", .integer (-1)), ("ab", .null)]]) :=
    .inArray [_, _] [] (.reordered (.typedObject "P") (.swap _ _ []))
  have htext : ∀ {sent : Amf3Sent} {content : String}, content ≠ "" →
      2 * (Bytes.ofText content).length + 1 < 0x80 →
      SendsText sent content (UInt8.ofNat (2 * (Bytes.ofText content).length + 1) ::
        Bytes.ofText content) (sent.addText content) := fun hne hfits => .inFull hne (.one hfits)
  have hfirst : Sends (Amf3Sent.reserve {}) (.typedObject "P" [("x", .text "ab")])
      [0x0A, 0x1B, 0x03, 0x50, 0x03, 0x78, 0x06, 0x05, 0x61, 0x62, 0x01]
      ⟨["P", "x", "ab"], [none, some (.typedObject "P" [("x", .text "ab")])],
        [⟨"P", true, ["x"]⟩]⟩ :=
    .object (.one (show Amf3Traits.header ⟨"P", true, ["x"]⟩ < 0x80 by decide))
      (.inFull (htext (by decide) (by decide)) (.single (htext (by decide) (by decide)))) rfl
      (.single (.text (htext (by decide) (by decide)))) (.nil _) (.one (by decide)) (by decide)
  have hsecond : Sends ⟨["P", "x", "ab"], [none, some (.typedObject "P" [("x", .text "ab")])],
      [⟨"P", true, ["x"]⟩]⟩ (.typedObject "P" [("x", .text "ab")]) [0x0A, 0x02] _ :=
    .again rfl List.mem_cons_self (.one (show 2 * 1 < 0x80 by decide))
  have hinteger : ∀ {sent : Amf3Sent},
      Sends sent (.integer (-1)) [0x04, 0xFF, 0xFF, 0xFF, 0xFF] sent :=
    .integer (by decide) (by decide) (.four (by decide))
  have hname : ∀ {sent : Amf3Sent}, sent.texts[2]? = some "ab" →
      SendsMember sent ("ab", .null) [0x04, 0x01] sent := fun hsent =>
    .mk (.again hsent (.one (show 2 * 2 < 0x80 by decide))) (by decide) .null
  have htraits : ∀ {sent : Amf3Sent}, sent.traits[0]? = some ⟨"P", true, ["x"]⟩ →
      SendsTraits sent ⟨"P", true, ["x"]⟩ 1 [] sent := fun hsent => .again hsent
  have hthird : Sends ⟨["P", "x", "ab"], [none, some (.typedObject "P" [("x", .text "ab")])],
      [⟨"P", true, ["x"]⟩]⟩ (.typedObject "P" [("x", .integer (-1)), ("ab", .null)])
      [0x0A, 0x01, 0x04, 0xFF, 0xFF, 0xFF, 0xFF, 0x04, 0x01, 0x01] _ :=
    .object (.one (by decide)) (htraits rfl) rfl (.single hinteger) (.single (hname rfl))
      (.one (by decide)) (by decide)
  have hsends : Sends {} _ peopleBytes _ :=
    .array (.one (by decide)) (.one (by decide))
      (.cons hfirst (.cons hsecond (.single hthird)))
  have hheight : people.height ≤ AmfValue.maximumNesting := by decide
  obtain ⟨found, hread, hfound⟩ := (value_of_sends hheight).2 _ _ _ hswap hsends [0x02]
  exact ⟨found, _, hread, hfound⟩

end Amf3

end LiveRelay
