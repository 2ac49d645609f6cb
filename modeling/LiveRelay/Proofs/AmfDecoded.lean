import LiveRelay.Amf0Reading
import LiveRelay.Proofs.AmfTrees

/-!
# What is read is regular

Whatever the input holds, every value read from it is regular at every node.
The readers are followed one by one.  A reader keeps its tables sound, also
when it fails, and what it finds is as good as what it was given.  What is read
later by reference to those tables is then regular too.
-/

namespace LiveRelay

namespace Bytes

theorem ofText_of_toText? {bytes : Bytes} {content : String}
    (htext : toText? bytes = some content) : ofText content = bytes := by
  unfold toText? String.fromUTF8? at htext
  split at htext
  · obtain rfl := Option.some.inj htext
    rfl
  · simp at htext

theorem length_taken {count : Nat} {bytes taken rest : Bytes}
    (hsplit : split? count bytes = some (taken, rest)) : taken.length = count :=
  (split?_eq_some_iff.mp hsplit).2

theorem number_lt_capacity (bytes : Bytes) : number bytes < capacity bytes.length := by
  have hfold : ∀ (bytes : Bytes) {total bound : Nat}, total < bound →
      bytes.foldl (fun total byte => total * 256 + byte.toNat) total <
        bound * capacity bytes.length := by
    intro bytes
    induction bytes with
    | nil => simp [capacity]
    | cons first rest ih =>
        intro total bound htotal
        have hfirst := first.toNat_lt
        have hnext : total * 256 + first.toNat < bound * 256 := by omega
        rw [List.foldl_cons, List.length_cons, capacity, Nat.mul_comm (capacity _),
          ← Nat.mul_assoc]
        exact ih hnext
  simpa [number] using hfold bytes Nat.one_pos

end Bytes

namespace AmfReader

variable {Tables α β : Type}

def Leaves (sound : Tables → Prop) (good : α → Prop) :
    EStateM.Result AmfError (AmfCursor Tables) α → Prop
  | .ok found after => sound after.tables ∧ good found
  | .error _ after => sound after.tables

/-- From sound tables a reader comes to sound tables, and what it finds is
good. -/
def Keeps (sound : Tables → Prop) (good : α → Prop)
    (reader : AmfReader Tables α) : Prop :=
  ∀ cursor, sound cursor.tables → Leaves sound good (reader cursor)

section Keeps

variable {sound : Tables → Prop} {good : α → Prop} {fine : β → Prop}

/-! ## Rules -/

theorem keeps_pure {found : α} (hgood : good found) :
    Keeps sound good (pure found : AmfReader Tables α) :=
  fun _ hsound => ⟨hsound, hgood⟩

theorem keeps_throw (error : AmfError) :
    Keeps sound good (throw error : AmfReader Tables α) :=
  fun _ hsound => hsound

theorem Keeps.bind {reader : AmfReader Tables α} {next : α → AmfReader Tables β}
    (hfirst : Keeps sound good reader)
    (hnext : ∀ found, good found → Keeps sound fine (next found)) :
    Keeps sound fine (reader >>= next) := by
  intro cursor hsound
  have hreader := hfirst cursor hsound
  change Leaves sound fine (EStateM.bind reader next cursor)
  unfold EStateM.bind
  cases hrun : reader cursor with
  | ok found after =>
      rw [hrun] at hreader
      exact hnext found hreader.2 after hreader.1
  | error error after =>
      rw [hrun] at hreader
      exact hreader

theorem Keeps.imp {better : α → Prop} {reader : AmfReader Tables α}
    (hkeeps : Keeps sound good reader) (himp : ∀ found, good found → better found) :
    Keeps sound better reader := by
  intro cursor hsound
  have hreader := hkeeps cursor hsound
  cases hrun : reader cursor with
  | ok found after =>
      rw [hrun] at hreader
      exact ⟨hreader.1, himp found hreader.2⟩
  | error error after =>
      rw [hrun] at hreader
      exact hreader

theorem keeps_tables : Keeps sound sound (tables : AmfReader Tables Tables) :=
  fun _ hsound => ⟨hsound, hsound⟩

theorem keeps_update {change : Tables → α × Tables}
    (hchange : ∀ known, sound known → sound (change known).2 ∧ good (change known).1) :
    Keeps sound good (update change) :=
  fun cursor hsound => hchange cursor.tables hsound

theorem keeps_marked_none {good : AmfValue → Prop} :
    Keeps sound good (marked none : AmfReader Tables AmfValue) := by
  rintro ⟨tables, rest⟩ hsound
  cases rest <;> exact hsound

theorem keeps_marked {read : UInt8 → AmfReader Tables AmfValue} {good : AmfValue → Prop}
    (hread : ∀ marker, Keeps sound good (read marker)) :
    Keeps sound good (marked (some read)) := by
  rintro ⟨tables, rest⟩ hsound
  cases rest with
  | nil => exact hsound
  | cons marker rest => exact hread marker ⟨tables, rest⟩ hsound

/-! ## Fields -/

theorem keeps_take (count : Nat) :
    Keeps sound (fun taken => taken.length = count) (take count) := by
  intro cursor hsound
  unfold take
  cases hsplit : cursor.rest.split? count with
  | none => exact hsound
  | some found => exact ⟨hsound, Bytes.length_taken hsplit⟩

theorem keeps_byte : Keeps sound (fun _ => True) byte := by
  rintro ⟨tables, rest⟩ hsound
  cases rest with
  | nil => exact hsound
  | cons first rest => exact ⟨hsound, trivial⟩

theorem keeps_binary64 : Keeps sound (fun _ => True) binary64 :=
  (keeps_take 8).bind fun _ _ => keeps_pure trivial

theorem keeps_text (count : Nat) :
    Keeps sound (fun content => (Bytes.ofText content).length = count) (text count) := by
  refine (keeps_take count).bind fun taken htaken => ?_
  split
  · rename_i content htext
    exact keeps_pure ((Bytes.ofText_of_toText? htext).symm ▸ htaken)
  · exact keeps_throw _

theorem keeps_items {child : AmfReader Tables AmfValue} {good : AmfValue → Prop}
    (hchild : Keeps sound good child) (count : Nat) {done : List AmfValue}
    (hdone : ∀ item ∈ done, good item) :
    Keeps sound
      (fun found => found.length = done.length + count ∧ ∀ item ∈ found, good item)
      (items child count done) := by
  induction count generalizing done with
  | zero => exact keeps_pure ⟨by simp, by simpa using hdone⟩
  | succ count ih =>
      refine hchild.bind fun value hvalue => ?_
      refine (ih (List.forall_mem_cons.mpr ⟨hvalue, hdone⟩)).imp fun found hfound => ?_
      refine ⟨?_, hfound.2⟩
      rw [hfound.1, List.length_cons, Nat.add_right_comm, Nat.add_assoc]

theorem keeps_rowWithin {child : AmfReader Tables AmfValue} {good : AmfValue → Prop}
    (hchild : Keeps sound good child) (bound : Bytes) {done : List AmfValue}
    (hdone : ∀ item ∈ done, good item) (cursor : AmfCursor Tables)
    (hsound : sound cursor.tables) :
    sound (rowWithin child bound done cursor).cursor.tables ∧
      ∀ item ∈ (rowWithin child bound done cursor).values, good item := by
  induction bound generalizing done cursor with
  | nil => exact ⟨hsound, by simpa [rowWithin] using hdone⟩
  | cons first bound ih =>
      have hread := hchild cursor hsound
      unfold rowWithin
      split
      · exact ⟨hsound, by simpa using hdone⟩
      · cases hrun : child cursor with
        | ok value after =>
            rw [hrun] at hread
            exact ih (List.forall_mem_cons.mpr ⟨hread.2, hdone⟩) after hread.1
        | error error after =>
            rw [hrun] at hread
            exact ⟨hread, by simpa using hdone⟩

end Keeps

end AmfReader

namespace AmfValue

/-! ## Regular bags -/

/-- The parts of a regular bag. -/
structure IsRegularBag (properties : Properties) : Prop where
  nodup : (Table.keys properties).Nodup
  values : ∀ property ∈ properties, property.2.Everywhere IsRegular

theorem isRegularBag_nil : IsRegularBag [] := ⟨List.nodup_nil, List.forall_mem_nil _⟩

theorem IsRegularBag.put {properties : Properties} (hbag : IsRegularBag properties)
    (name : String) {value : AmfValue} (hvalue : value.Everywhere IsRegular) :
    IsRegularBag (properties.put name value) := by
  refine ⟨Table.nodup_keys_put hbag.nodup name value, ?_⟩
  intro property hproperty
  rcases Table.mem_of_mem_put hproperty with rfl | hold
  · exact hvalue
  · exact hbag.values property hold

theorem IsRegularBag.fill {properties : Properties} (hbag : IsRegularBag properties)
    (kind : BagKind) : (kind.fill properties).Everywhere IsRegular := by
  refine .node ((isRegular_fill kind properties).mpr hbag.nodup) ?_
  rw [parts_fill]
  exact List.forall_mem_map.mpr hbag.values

theorem everywhere_strictArray {items : List AmfValue}
    (hlength : items.length < 4294967296)
    (hitems : ∀ item ∈ items, item.Everywhere IsRegular) :
    (AmfValue.strictArray items).Everywhere IsRegular :=
  .node hlength hitems

end AmfValue

/-! ## The newer format -/

/-- What the tables hold may be handed out again. -/
structure Amf3Tables.IsSound (known : Amf3Tables) : Prop where
  texts : ∀ content ∈ known.texts, (Bytes.ofText content).length < 4294967296
  objects : ∀ value ∈ known.objects, value.Everywhere AmfValue.IsRegular

namespace Amf3

open AmfReader

/-- The reader keeps sound tables and finds regular values. -/
abbrev FindsRegular (reader : Amf3Reader AmfValue) : Prop :=
  Keeps Amf3Tables.IsSound (AmfValue.Everywhere AmfValue.IsRegular) reader

theorem keeps_badReference {α : Type} (good : α → Prop) (index : Nat) :
    Keeps Amf3Tables.IsSound good (badReference index) :=
  keeps_throw _

/-- Each byte but the last multiplies what a number may be by 128. -/
def compactBound : (more : Nat) → Nat → Nat
  | 0, bound => bound * 256
  | more + 1, bound => compactBound more (bound * 128)

theorem le_compactBound (more bound : Nat) : bound ≤ compactBound more bound := by
  induction more generalizing bound with
  | zero => exact Nat.le_mul_of_pos_right _ (by decide)
  | succ more ih =>
      exact Nat.le_trans (Nat.le_mul_of_pos_right _ (by decide)) (ih (bound * 128))

theorem keeps_compactBits (more : Nat) {value bound : Nat} (hvalue : value < bound) :
    Keeps Amf3Tables.IsSound (· < compactBound more bound) (compactBits more value) := by
  induction more generalizing value bound with
  | zero =>
      refine keeps_byte.bind fun last _ => keeps_pure ?_
      have hlast := last.toNat_lt
      rw [compactBound]
      omega
  | succ more ih =>
      refine keeps_byte.bind fun next _ => ?_
      have hnext : value * 128 + next.toNat % 128 < bound * 128 := by omega
      dsimp only
      split
      · exact keeps_pure (Nat.lt_of_lt_of_le hnext (le_compactBound more _))
      · exact ih hnext

theorem keeps_compact : Keeps Amf3Tables.IsSound (· < 536870912) compact :=
  keeps_compactBits 3 Nat.one_pos

theorem keeps_text :
    Keeps Amf3Tables.IsSound (fun content => (Bytes.ofText content).length < 4294967296)
      text := by
  refine keeps_compact.bind fun header hheader => ?_
  split
  · refine keeps_tables.bind fun known hknown => ?_
    split
    · rename_i content hcontent
      exact keeps_pure (hknown.texts content (Array.mem_of_getElem? hcontent))
    · exact keeps_badReference _ _
  · refine (AmfReader.keeps_text (header / 2)).bind fun content hcontent => ?_
    have hlength : (Bytes.ofText content).length < 4294967296 := by omega
    split
    · exact keeps_pure hlength
    · refine keeps_update fun known hknown => ⟨⟨?_, hknown.objects⟩, hlength⟩
      intro other hother
      rcases Array.mem_push.mp hother with hold | rfl
      · exact hknown.texts other hold
      · exact hlength

/-! ### References -/

theorem findsRegular_orReference {inlined : Nat → Amf3Reader AmfValue}
    (hinlined : ∀ header < 536870912, FindsRegular (inlined header)) :
    FindsRegular (orReference inlined) := by
  refine keeps_compact.bind fun header hheader => ?_
  split
  · refine keeps_tables.bind fun known hknown => ?_
    split
    · rename_i value hvalue
      exact keeps_pure (hknown.objects value (Array.mem_of_getElem? hvalue))
    · exact keeps_badReference _ _
  · exact hinlined header hheader

theorem isSound_push {known : Amf3Tables} (hknown : known.IsSound) {value : AmfValue}
    (hvalue : value.Everywhere AmfValue.IsRegular) :
    { known with objects := known.objects.push value }.IsSound := by
  refine ⟨hknown.texts, fun other hother => ?_⟩
  rcases Array.mem_push.mp hother with hold | rfl
  · exact hknown.objects other hold
  · exact hvalue

theorem findsRegular_remember {value : AmfValue}
    (hvalue : value.Everywhere AmfValue.IsRegular) : FindsRegular (remember value) :=
  keeps_update fun _ hknown => ⟨isSound_push hknown hvalue, hvalue⟩

theorem keeps_reserve : Keeps Amf3Tables.IsSound (fun _ => True) reserve :=
  keeps_update fun _ hknown => ⟨isSound_push hknown (.leaf trivial rfl), trivial⟩

theorem findsRegular_complete (slot : Nat) {value : AmfValue}
    (hvalue : value.Everywhere AmfValue.IsRegular) :
    FindsRegular (complete slot value) := by
  refine keeps_update fun known hknown => ⟨⟨hknown.texts, fun other hother => ?_⟩, hvalue⟩
  rcases Array.mem_or_eq_of_mem_setIfInBounds hother with hold | rfl
  · exact hknown.objects other hold
  · exact hvalue

/-! ### Members -/

section Members

variable {child : Amf3Reader AmfValue} (hchild : FindsRegular child)
include hchild

theorem keeps_members (bound : Bytes) {properties : Properties}
    (hproperties : AmfValue.IsRegularBag properties) :
    Keeps Amf3Tables.IsSound AmfValue.IsRegularBag (members child bound properties) := by
  induction bound generalizing properties with
  | nil => exact keeps_throw _
  | cons first bound ih =>
      refine keeps_text.bind fun name _ => ?_
      split
      · exact keeps_pure hproperties
      · exact hchild.bind fun value hvalue => ih (hproperties.put name hvalue)

theorem keeps_dynamicMembers {properties : Properties}
    (hproperties : AmfValue.IsRegularBag properties) :
    Keeps Amf3Tables.IsSound AmfValue.IsRegularBag (dynamicMembers child properties) :=
  fun cursor hsound => keeps_members hchild cursor.rest hproperties cursor hsound

theorem keeps_sealedMembers (names : List String) {properties : Properties}
    (hproperties : AmfValue.IsRegularBag properties) :
    Keeps Amf3Tables.IsSound AmfValue.IsRegularBag
      (sealedMembers child names properties) := by
  induction names generalizing properties with
  | nil => exact keeps_pure hproperties
  | cons name names ih =>
      exact hchild.bind fun value hvalue => ih (hproperties.put name hvalue)

end Members

theorem keeps_names (count : Nat) (done : List String) :
    Keeps Amf3Tables.IsSound (fun _ => True) (names count done) := by
  induction count generalizing done with
  | zero => exact keeps_pure trivial
  | succ count ih => exact keeps_text.bind fun name _ => ih (name :: done)

theorem keeps_traits (header : Nat) :
    Keeps Amf3Tables.IsSound (fun _ => True) (traits header) := by
  unfold traits
  split
  · refine keeps_tables.bind fun known _ => ?_
    split
    · exact keeps_pure trivial
    · exact keeps_badReference _ _
  · split
    · exact keeps_throw _
    · refine keeps_text.bind fun className _ => ?_
      refine (keeps_names _ _).bind fun sealedNames _ => ?_
      exact keeps_update fun _ hknown => ⟨⟨hknown.texts, hknown.objects⟩, trivial⟩

/-! ### Arrays and objects -/

theorem toString_inj {left right : Nat} (hsame : toString left = toString right) :
    left = right := by
  have hdigits : Nat.toDigits 10 left = Nat.toDigits 10 right := by
    rw [Nat.toString_eq_ofList_toDigits, Nat.toString_eq_ofList_toDigits] at hsame
    exact String.ofList_injective hsame
  rw [← Nat.ofDigitChars_ten_toDigits (n := left), hdigits, Nat.ofDigitChars_ten_toDigits]

/-- Items of an array under their positions. -/
def positions (items : List AmfValue) : Properties :=
  items.zipIdx.map fun pair => (toString pair.2, pair.1)

theorem numbered_eq (named : Properties) (dense : List AmfValue) :
    numbered named dense =
      positions dense ++
        named.filter fun property => !(positions dense).contains property.1 :=
  rfl

theorem nodup_keys_positions (items : List AmfValue) :
    (Table.keys (positions items)).Nodup := by
  have hkeys : Table.keys (positions items) =
      (List.range' 0 items.length).map toString := by
    rw [← List.zipIdx_map_snd 0 items, List.map_map, positions, Table.keys, List.map_map]
    rfl
  rw [hkeys]
  exact (List.pairwise_lt_range' 1).map toString fun _ _ hlt hsame =>
    Nat.ne_of_lt hlt (toString_inj hsame)

/-- Positions are distinct names, and a member of such a name is left out. -/
theorem isRegularBag_numbered {named : Properties} (hnamed : AmfValue.IsRegularBag named)
    {dense : List AmfValue}
    (hdense : ∀ item ∈ dense, item.Everywhere AmfValue.IsRegular) :
    AmfValue.IsRegularBag (numbered named dense) := by
  rw [numbered_eq]
  constructor
  · rw [Table.keys, List.map_append, List.nodup_append]
    refine ⟨nodup_keys_positions dense,
      hnamed.nodup.sublist (List.filter_sublist.map Prod.fst), ?_⟩
    rintro position hposition name hname rfl
    obtain ⟨property, hproperty, rfl⟩ := List.mem_map.mp hname
    -- Members under the name of a position were left out.
    have habsent := (List.mem_filter.mp hproperty).2
    simp only [Table.contains, Bool.not_eq_true', Option.isSome_eq_false_iff,
      Option.isNone_iff_eq_none] at habsent
    exact Table.get?_eq_none_iff.mp habsent hposition
  · intro property hproperty
    rcases List.mem_append.mp hproperty with hposition | hmember
    · obtain ⟨pair, hpair, rfl⟩ := List.mem_map.mp hposition
      exact hdense pair.1 (List.fst_mem_of_mem_zipIdx hpair)
    · exact hnamed.values property (List.mem_filter.mp hmember).1

section Bodies

variable {child : Amf3Reader AmfValue} (hchild : FindsRegular child)
include hchild

theorem findsRegular_array {header : Nat} (hheader : header < 536870912) :
    FindsRegular (array child header) := by
  refine keeps_reserve.bind fun slot _ => ?_
  refine (keeps_dynamicMembers hchild AmfValue.isRegularBag_nil).bind
    fun named hnamed => ?_
  refine (keeps_items hchild (header / 2) (List.forall_mem_nil _)).bind
    fun dense hdense => ?_
  refine findsRegular_complete slot ?_
  split
  · refine AmfValue.everywhere_strictArray ?_ hdense.2
    rw [hdense.1, List.length_nil]
    omega
  · exact (isRegularBag_numbered hnamed hdense.2).fill .ecmaArray

theorem findsRegular_object (header : Nat) : FindsRegular (object child header) := by
  refine keeps_reserve.bind fun slot _ => ?_
  refine (keeps_traits header).bind fun traits _ => ?_
  refine (keeps_sealedMembers hchild traits.sealedNames AmfValue.isRegularBag_nil).bind
    fun fixed hfixed => ?_
  have hcomplete : ∀ properties, AmfValue.IsRegularBag properties →
      FindsRegular (complete slot
        (if traits.className.isEmpty then .object properties
          else .typedObject traits.className properties)) := by
    intro properties hproperties
    refine findsRegular_complete slot ?_
    split
    · exact hproperties.fill .object
    · exact hproperties.fill (.typedObject traits.className)
  dsimp only
  split
  · exact (keeps_dynamicMembers hchild hfixed).bind hcomplete
  · exact (keeps_pure hfixed).bind hcomplete

omit hchild in
theorem findsRegular_xml {header : Nat} (hheader : header < 536870912) :
    FindsRegular (xml header) := by
  refine (AmfReader.keeps_text (header / 2)).bind fun content hcontent => ?_
  refine findsRegular_remember (.leaf (show _ < _ by omega) rfl)

theorem findsRegular_body (marker : UInt8) : FindsRegular (body child marker) := by
  unfold body
  split
  · exact keeps_pure (.leaf trivial rfl)
  · exact keeps_pure (.leaf trivial rfl)
  · exact keeps_pure (.leaf trivial rfl)
  · exact keeps_pure (.leaf trivial rfl)
  · exact keeps_compact.bind fun _ _ => keeps_pure (.leaf trivial rfl)
  · exact keeps_binary64.bind fun _ _ => keeps_pure (.leaf trivial rfl)
  · exact keeps_text.bind fun _ hcontent => keeps_pure (.leaf hcontent rfl)
  · exact findsRegular_orReference fun _ hheader => findsRegular_xml hheader
  · exact findsRegular_orReference fun _ _ => keeps_binary64.bind fun _ _ =>
      findsRegular_remember (.leaf trivial rfl)
  · exact findsRegular_orReference fun _ hheader => findsRegular_array hchild hheader
  · exact findsRegular_orReference fun header _ => findsRegular_object hchild header
  · exact findsRegular_orReference fun _ hheader => findsRegular_xml hheader
  · exact findsRegular_orReference fun header _ =>
      (keeps_take (header / 2)).bind fun _ _ =>
        findsRegular_remember (.leaf trivial rfl)
  · exact keeps_throw _

end Bodies

theorem findsRegular_valueWithin (budget : Nat) : FindsRegular (valueWithin budget) := by
  induction budget with
  | zero => exact keeps_marked_none
  | succ budget ih => exact keeps_marked (findsRegular_body ih)

end Amf3

/-! ## The older format -/

structure Amf0Tables.IsSound (known : Amf0Tables) : Prop where
  references : ∀ value ∈ known.references, value.Everywhere AmfValue.IsRegular
  newer : known.newer.IsSound

namespace Amf0

open AmfReader

/-- The reader keeps sound tables and finds regular values. -/
abbrev FindsRegular (reader : Amf0Reader AmfValue) : Prop :=
  Keeps Amf0Tables.IsSound (AmfValue.Everywhere AmfValue.IsRegular) reader

theorem keeps_count16 : Keeps Amf0Tables.IsSound (· < 65536) count16 :=
  (keeps_take 2).bind fun bytes hbytes =>
    keeps_pure (show _ < Bytes.capacity 2 from hbytes ▸ Bytes.number_lt_capacity bytes)

theorem keeps_count32 : Keeps Amf0Tables.IsSound (· < 4294967296) count32 :=
  (keeps_take 4).bind fun bytes hbytes =>
    keeps_pure (show _ < Bytes.capacity 4 from hbytes ▸ Bytes.number_lt_capacity bytes)

theorem keeps_shortText : Keeps Amf0Tables.IsSound AmfValue.IsShort shortText :=
  keeps_count16.bind fun count hcount => (AmfReader.keeps_text count).imp fun _ hlength =>
    Nat.le_of_lt_succ (hlength ▸ hcount)

theorem keeps_longText :
    Keeps Amf0Tables.IsSound (fun content => (Bytes.ofText content).length < 4294967296)
      longText :=
  keeps_count32.bind fun count hcount => (AmfReader.keeps_text count).imp fun _ hlength =>
    hlength ▸ hcount

/-! ### References -/

theorem keeps_reserve : Keeps Amf0Tables.IsSound (fun _ => True) reserve := by
  refine keeps_update fun known hknown =>
    ⟨⟨fun other hother => ?_, hknown.newer⟩, trivial⟩
  rcases Array.mem_push.mp hother with hold | rfl
  · exact hknown.references other hold
  · exact .leaf trivial rfl

theorem findsRegular_complete (slot : Nat) {value : AmfValue}
    (hvalue : value.Everywhere AmfValue.IsRegular) :
    FindsRegular (complete slot value) := by
  refine keeps_update fun known hknown => ⟨⟨fun other hother => ?_, hknown.newer⟩, hvalue⟩
  rcases Array.mem_or_eq_of_mem_setIfInBounds hother with hold | rfl
  · exact hknown.references other hold
  · exact hvalue

theorem findsRegular_reference : FindsRegular reference := by
  refine keeps_count16.bind fun index _ => keeps_tables.bind fun known hknown => ?_
  split
  · rename_i value hvalue
    exact keeps_pure (hknown.references value (Array.mem_of_getElem? hvalue))
  · exact keeps_throw _

theorem findsRegular_newerValue : FindsRegular newerValue := by
  rintro ⟨⟨references, newer⟩, rest⟩ hsound
  have hvalue := Amf3.findsRegular_valueWithin AmfValue.maximumNesting ⟨newer, rest⟩
    hsound.newer
  cases hrun : Amf3.valueWithin AmfValue.maximumNesting ⟨newer, rest⟩ with
  | ok found after =>
      rw [hrun] at hvalue
      simp only [newerValue, Amf3.value, hrun]
      exact ⟨⟨hsound.references, hvalue.1⟩, hvalue.2⟩
  | error error after =>
      rw [hrun] at hvalue
      simp only [newerValue, Amf3.value, hrun]
      exact ⟨hsound.references, hvalue⟩

/-! ### Properties -/

theorem keeps_objectEnd (lenient : Bool) :
    Keeps Amf0Tables.IsSound (fun _ => True) (objectEnd lenient) := by
  intro cursor hsound
  unfold objectEnd
  split
  · exact ⟨hsound, trivial⟩
  · cases lenient <;> first | exact hsound | exact ⟨hsound, trivial⟩
  · cases lenient <;> first | exact hsound | exact ⟨hsound, trivial⟩

section Bodies

variable (lenient : Bool) {child : Amf0Reader AmfValue} (hchild : FindsRegular child)
include hchild

theorem keeps_propertiesWithin (bound : Bytes) {done : Properties}
    (hdone : AmfValue.IsRegularBag done) :
    Keeps Amf0Tables.IsSound AmfValue.IsRegularBag
      (propertiesWithin lenient child bound done) := by
  induction bound generalizing done with
  | nil =>
      unfold propertiesWithin
      split
      · exact keeps_pure hdone
      · exact keeps_throw _
  | cons first bound ih =>
      intro cursor hsound
      unfold propertiesWithin
      split
      · exact ⟨hsound, hdone⟩
      · refine keeps_shortText.bind (fun name _ => ?_) cursor hsound
        split
        · exact (keeps_objectEnd lenient).bind fun _ _ => keeps_pure hdone
        · exact hchild.bind fun value hvalue => ih (hdone.put name hvalue)

theorem keeps_properties :
    Keeps Amf0Tables.IsSound AmfValue.IsRegularBag (properties lenient child) :=
  fun cursor hsound =>
    keeps_propertiesWithin lenient hchild cursor.rest AmfValue.isRegularBag_nil cursor
      hsound

/-- A bag of any kind takes its index, its properties and its place. -/
theorem findsRegular_bag (kind : AmfValue.BagKind) :
    FindsRegular (do
      let slot ← reserve
      let properties ← properties lenient child
      complete slot (kind.fill properties)) := by
  refine keeps_reserve.bind fun slot _ => ?_
  refine (keeps_properties lenient hchild).bind fun properties hproperties => ?_
  exact findsRegular_complete slot (hproperties.fill kind)

theorem findsRegular_strictArray {count : Nat} (hcount : count < 4294967296) :
    FindsRegular (do
      let slot ← reserve
      let items ← items child count []
      complete slot (.strictArray items)) := by
  refine keeps_reserve.bind fun slot _ => ?_
  refine (keeps_items hchild count (List.forall_mem_nil _)).bind fun items hitems => ?_
  refine findsRegular_complete slot (AmfValue.everywhere_strictArray ?_ hitems.2)
  rwa [hitems.1, List.length_nil, Nat.zero_add]

theorem findsRegular_body (marker : UInt8) :
    FindsRegular (body lenient child marker) := by
  unfold body
  split
  · exact keeps_binary64.bind fun _ _ => keeps_pure (.leaf trivial rfl)
  · exact keeps_byte.bind fun _ _ => keeps_pure (.leaf trivial rfl)
  · exact keeps_shortText.bind fun _ hshort =>
      keeps_pure (.leaf (Nat.lt_of_le_of_lt hshort (by decide)) rfl)
  · exact findsRegular_bag lenient hchild .object
  · exact keeps_pure (.leaf trivial rfl)
  · exact keeps_pure (.leaf trivial rfl)
  · exact findsRegular_reference
  · exact keeps_count32.bind fun _ _ => findsRegular_bag lenient hchild .ecmaArray
  · exact keeps_count32.bind fun _ hcount => findsRegular_strictArray hchild hcount
  · exact (keeps_take 10).bind fun _ _ => keeps_pure (.leaf trivial rfl)
  · exact keeps_longText.bind fun _ hlength => keeps_pure (.leaf hlength rfl)
  · exact keeps_pure (.leaf trivial rfl)
  · exact keeps_longText.bind fun _ hlength => keeps_pure (.leaf hlength rfl)
  · exact keeps_shortText.bind fun className _ =>
      findsRegular_bag lenient hchild (.typedObject className)
  · exact findsRegular_newerValue
  · split
    · exact keeps_pure (.leaf trivial rfl)
    · exact keeps_throw _

end Bodies

theorem findsRegular_valueWithin (lenient : Bool) (budget : Nat) :
    FindsRegular (valueWithin lenient budget) := by
  induction budget with
  | zero => exact keeps_marked_none
  | succ budget ih => exact keeps_marked (findsRegular_body lenient ih)

/-! ## Whole messages -/

theorem isSound_empty : Amf0Tables.IsSound {} :=
  ⟨by simp, by simp, by simp⟩

/-- Whatever a message holds, its values are regular. -/
theorem everywhere_of_valuesOf {bytes : Bytes} {values : List AmfValue}
    (hread : valuesOf bytes = .ok values) {read : AmfValue} (hmem : read ∈ values) :
    read.Everywhere AmfValue.IsRegular := by
  have hrow := keeps_rowWithin (findsRegular_valueWithin true AmfValue.maximumNesting)
    bytes (List.forall_mem_nil _) ⟨{}, bytes⟩ isSound_empty
  simp only [valuesOf] at hread
  split at hread
  · obtain rfl := Except.ok.inj hread
    exact hrow.2 read hmem
  · simp at hread

end Amf0

end LiveRelay
