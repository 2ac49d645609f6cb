import LiveRelay.Proofs.AmfLeniency

/-!
# What references mean

An object or an array takes its index when its marker has been read, before
anything that it holds.  So indices follow the order of the markers, at every
depth and from one value to the next.  Until it is complete, an object or an
array is null to those who refer to it, and only what it holds can do that.
-/

namespace LiveRelay

namespace AmfValue

mutual

/-- The objects and arrays of a value, in the order of their markers. -/
def holders : AmfValue → List AmfValue
  | .object properties => .object properties :: holdersIn properties
  | .ecmaArray properties => .ecmaArray properties :: holdersIn properties
  | .typedObject className properties =>
      .typedObject className properties :: holdersIn properties
  | .strictArray items => .strictArray items :: holdersAmong items
  | _ => []

def holdersAmong : List AmfValue → List AmfValue
  | [] => []
  | item :: items => holders item ++ holdersAmong items

def holdersIn : List (String × AmfValue) → List AmfValue
  | [] => []
  | (_, value) :: rest => holders value ++ holdersIn rest

end

theorem holders_fill (kind : BagKind) (properties : Properties) :
    (kind.fill properties).holders = kind.fill properties :: holdersIn properties := by
  cases kind <;> rfl

theorem holders_of_isLeaf {value : AmfValue} (hleaf : value.IsLeaf) : value.holders = [] := by
  cases value <;> first | rfl | exact hleaf.elim

theorem holdersAmong_append (before behind : List AmfValue) :
    holdersAmong (before ++ behind) = holdersAmong before ++ holdersAmong behind := by
  induction before with
  | nil => rfl
  | cons item before ih => simp [holdersAmong, ih]

theorem holdersIn_append (before behind : Properties) :
    holdersIn (before ++ behind) = holdersIn before ++ holdersIn behind := by
  induction before with
  | nil => rfl
  | cons head before ih => simp [holdersIn, ih]

theorem asWrittenIn_append (before behind : Properties) :
    asWrittenIn (before ++ behind) = asWrittenIn before ++ asWrittenIn behind := by
  simp [asWrittenIn_eq_map]

theorem heightIn_append (before behind : Properties) :
    heightIn (before ++ behind) = max (heightIn before) (heightIn behind) := by
  simp [heightIn_eq_heightAmong, heightAmong_append]

/-! ## Places -/

/-- Where a value may stand in another one, and what stands around it. -/
inductive Place where
  | here
  | inBag (kind : BagKind) (before : Properties) (name : String) (place : Place)
      (behind : Properties)
  | inArray (before : List AmfValue) (place : Place) (behind : List AmfValue)

namespace Place

def fill : Place → AmfValue → AmfValue
  | .here, value => value
  | .inBag kind before name place behind, value =>
      kind.fill (before ++ (name, place.fill value) :: behind)
  | .inArray before place behind, value =>
      .strictArray (before ++ place.fill value :: behind)

/-- How many objects and arrays have their markers in front of the place. -/
def markersBefore : Place → Nat
  | .here => 0
  | .inBag _ before _ place _ => (holdersIn before).length + place.markersBefore + 1
  | .inArray before place _ => (holdersAmong before).length + place.markersBefore + 1

theorem isWritable_of_fill (place : Place) {value : AmfValue}
    (hwritable : (place.fill value).IsWritable) : value.IsWritable := by
  induction place with
  | here => exact hwritable
  | inBag kind before name place behind ih =>
      exact ih (hwritable.part (by simp [fill]))
  | inArray before place behind ih =>
      exact ih (hwritable.part (by simp [fill, parts]))

end Place

end AmfValue

namespace Amf0Tables

/-- Objects and arrays take the next indices. -/
def add (known : Amf0Tables) (values : List AmfValue) : Amf0Tables :=
  { known with references := (known.references.toList ++ values).toArray }

theorem add_nil (known : Amf0Tables) : known.add [] = known := by
  simp [add]

theorem add_add (known : Amf0Tables) (first second : List AmfValue) :
    (known.add first).add second = known.add (first ++ second) := by
  simp [add]

theorem size_add (known : Amf0Tables) (values : List AmfValue) :
    (known.add values).references.size = known.references.size + values.length := by
  simp [add]

theorem getElem?_add (known : Amf0Tables) (values : List AmfValue) (position : Nat) :
    (known.add values).references[known.references.size + position]? = values[position]? := by
  have hbehind : known.references.toList.length ≤ known.references.size + position :=
    Nat.le_add_right _ _
  simp [add, List.getElem?_append_right hbehind]

theorem getElem?_add_of_getElem? {known : Amf0Tables} {index : Nat} {held : AmfValue}
    (hheld : known.references[index]? = some held) (values : List AmfValue) :
    (known.add values).references[index]? = some held := by
  have hlt := (Array.getElem?_eq_some_iff.mp hheld).1
  simpa [add, List.getElem?_append_left (show index < known.references.toList.length from hlt)]
    using hheld

/-- The place that a value took is filled when the values that it holds have
taken theirs. -/
theorem set_add (known : Amf0Tables) (value other : AmfValue) (parts : List AmfValue) :
    { known.add (other :: parts) with
        references := (known.add (other :: parts)).references.setIfInBounds
          known.references.size value } = known.add (value :: parts) := by
  simp [add, List.set_append_right]

end Amf0Tables

namespace Amf0

open AmfReader

/-! ## Openings -/

theorem objectEndMark_eq : objectEndMark = writeName "" ++ [0x09] := rfl

theorem takes_shortText {name : String} (hshort : AmfValue.IsShort name) (known : Amf0Tables) :
    Takes shortText known (writeName name) name known :=
  (reads_writeName hshort).takes isQuiet_shortText known

theorem takes_count32 {count : Nat} (hcount : count < 4294967296) (known : Amf0Tables) :
    Takes count32 known (Bytes.ofNumber 4 count) count known :=
  (reads_count32_ofNumber hcount).takes isQuiet_count32 known

theorem takes_reserve (known : Amf0Tables) :
    Takes reserve known [] known.references.size (known.add [.null]) := by
  have hpush : known.references.push .null =
      (known.references.toList ++ [AmfValue.null]).toArray := Array.toList_inj.mp (by simp)
  intro rest
  simp only [reserve, update, Amf0Tables.add, hpush, List.nil_append]

section Bodies

variable {lenient : Bool} {child : Amf0Reader AmfValue} {known between : Amf0Tables}

theorem takes_filled {kind : AmfValue.BagKind} {properties : Properties} {bytes : Bytes}
    (hproperties : InTurn (TakesMember shortText child) (known.add [.null]) properties bytes
      between)
    (hnodup : (Table.keys properties).Nodup) :
    Takes (filled lenient child kind) known (bytes ++ objectEndMark) (kind.fill properties)
      { between with
        references := between.references.setIfInBounds known.references.size
          (kind.fill properties) } := by
  have hname : Takes shortText between (writeName "") "" between :=
    takes_shortText (Nat.zero_le _) between
  have hstop : Takes (objectEnd lenient) between [0x09] () between := fun _ => rfl
  have hloop : Takes (Amf0.properties lenient child) (known.add [.null])
      (bytes ++ objectEndMark) properties between := by
    intro rest
    have hroom : (bytes ++ (writeName "" ++ [0x09])).length ≤
        (bytes ++ objectEndMark ++ rest).length := by
      rw [← objectEndMark_eq, List.append_assoc, List.length_append, List.length_append]
      simp
    exact (loops_properties lenient child).takes hproperties hname hstop
      (by rwa [List.nil_append]) hroom rest
  exact (takes_reserve known).bind (hloop.finish (takes_update _ between))

theorem takes_opening (lenient : Bool) {kind : AmfValue.BagKind} (hkind : kind.IsNamed)
    (count : Nat) {bytes : Bytes} {value : AmfValue}
    (hfilled : Takes (filled lenient child kind) known bytes value between) :
    Takes (marked (some (body lenient child))) known (opening kind count ++ bytes) value
      between := by
  cases kind with
  | object => exact Takes.marked hfilled
  | ecmaArray =>
      have hcount := (reads_count32 (Bytes.length_ofNumber 4 count)).takes isQuiet_count32 known
      exact Takes.marked (hcount.bind hfilled)
  | typedObject className =>
      exact Takes.marked ((takes_shortText hkind known).bind hfilled)

theorem takes_strictArray (lenient : Bool) {items : List AmfValue} {bytes : Bytes}
    (hlength : items.length < 4294967296)
    (hitems : InTurn (TakesItem child) (known.add [.null]) items bytes between) :
    Takes (marked (some (body lenient child))) known
      (0x0A :: Bytes.ofNumber 4 items.length ++ bytes) (.strictArray items)
      { between with
        references := between.references.setIfInBounds known.references.size
          (.strictArray items) } := by
  exact Takes.marked ((takes_count32 hlength known).bind
    ((takes_reserve known).bind ((takes_items hitems []).finish (takes_update _ between))))

end Bodies

/-! ## Written values -/

variable {lenient : Bool} {known : Amf0Tables}

/-- These bytes are read as the value, and what it holds takes the next
indices. -/
def StandsFor (lenient : Bool) (known : Amf0Tables) (bytes : Bytes) (value : AmfValue) : Prop :=
  ∀ budget, value.height ≤ budget →
    Takes (valueWithin lenient budget) known bytes value.asWritten
      (known.add (value.holders.map AmfValue.asWritten))

def StandForItems (lenient : Bool) (known : Amf0Tables) (bytes : Bytes)
    (items : List AmfValue) : Prop :=
  ∀ budget, AmfValue.heightAmong items ≤ budget →
    InTurn (TakesItem (valueWithin lenient budget)) known (items.map AmfValue.asWritten) bytes
      (known.add ((AmfValue.holdersAmong items).map AmfValue.asWritten))

def StandForMembers (lenient : Bool) (known : Amf0Tables) (bytes : Bytes)
    (members : Properties) : Prop :=
  ∀ budget, AmfValue.heightIn members ≤ budget →
    InTurn (TakesMember shortText (valueWithin lenient budget)) known
      (AmfValue.asWrittenIn members) bytes
      (known.add ((AmfValue.holdersIn members).map AmfValue.asWritten))

theorem StandsFor.item {value : AmfValue} {bytes : Bytes}
    (hvalue : StandsFor lenient known bytes value) :
    StandForItems lenient known bytes [value] := by
  intro budget hheight
  rw [AmfValue.heightAmong, AmfValue.heightAmong, Nat.max_zero] at hheight
  have hitem : InTurn (TakesItem (valueWithin lenient budget)) known [value.asWritten] bytes _ :=
    .single (hvalue budget hheight)
  simpa [AmfValue.holdersAmong] using hitem

theorem StandsFor.member {name : String} (hname : name ≠ "" ∧ AmfValue.IsShort name)
    {value : AmfValue} {bytes : Bytes} (hvalue : StandsFor lenient known bytes value) :
    StandForMembers lenient known (writeName name ++ bytes) [(name, value)] := by
  intro budget hheight
  rw [AmfValue.heightIn, AmfValue.heightIn, Nat.max_zero] at hheight
  have hmember := InTurn.single (TakesMember.mk (takes_shortText hname.2 known) hname.1
    (hvalue budget hheight))
  simpa [AmfValue.holdersIn, AmfValue.asWrittenIn] using hmember

theorem StandForItems.append {before behind : List AmfValue} {first second : Bytes}
    (hbefore : StandForItems lenient known first before)
    (hbehind : StandForItems lenient
      (known.add ((AmfValue.holdersAmong before).map AmfValue.asWritten)) second behind) :
    StandForItems lenient known (first ++ second) (before ++ behind) := by
  intro budget hheight
  rw [AmfValue.heightAmong_append, Nat.max_le] at hheight
  rw [List.map_append, AmfValue.holdersAmong_append, List.map_append, ← Amf0Tables.add_add]
  exact (hbefore budget hheight.1).append (hbehind budget hheight.2)

theorem StandForMembers.append {before behind : Properties} {first second : Bytes}
    (hbefore : StandForMembers lenient known first before)
    (hbehind : StandForMembers lenient
      (known.add ((AmfValue.holdersIn before).map AmfValue.asWritten)) second behind) :
    StandForMembers lenient known (first ++ second) (before ++ behind) := by
  intro budget hheight
  rw [AmfValue.heightIn_append, Nat.max_le] at hheight
  rw [AmfValue.asWrittenIn_append, AmfValue.holdersIn_append, List.map_append,
    ← Amf0Tables.add_add]
  exact (hbefore budget hheight.1).append (hbehind budget hheight.2)

theorem standsFor_strictArray {items : List AmfValue} {bytes : Bytes}
    (hlength : items.length < 4294967296)
    (hitems : StandForItems lenient (known.add [.null]) bytes items) :
    StandsFor lenient known (0x0A :: Bytes.ofNumber 4 items.length ++ bytes)
      (.strictArray items) := by
  intro budget hheight
  obtain ⟨budget, rfl⟩ := Nat.exists_eq_succ_of_ne_zero
    (Nat.ne_of_gt (Nat.lt_of_lt_of_le (AmfValue.height_pos _) hheight))
  have hturn := hitems budget (Nat.le_of_succ_le_succ hheight)
  have harray := takes_strictArray lenient (by simpa using hlength) hturn
  rw [Amf0Tables.add_add, List.singleton_append, Amf0Tables.set_add, List.length_map] at harray
  rwa [AmfValue.asWritten, AmfValue.asWrittenAmong_eq_map, AmfValue.holders, List.map_cons,
    AmfValue.asWritten, AmfValue.asWrittenAmong_eq_map]

theorem standsFor_fill {kind : AmfValue.BagKind} {members : Properties} {bytes : Bytes}
    (hregular : (kind.fill members).IsRegular) (hkind : kind.IsNamed)
    (hmembers : StandForMembers lenient (known.add [.null]) bytes members) :
    StandsFor lenient known (opening kind members.length ++ (bytes ++ objectEndMark))
      (kind.fill members) := by
  intro budget hheight
  obtain ⟨budget, rfl⟩ := Nat.exists_eq_succ_of_ne_zero
    (Nat.ne_of_gt (Nat.lt_of_lt_of_le (AmfValue.height_pos _) hheight))
  rw [AmfValue.height_fill] at hheight
  rw [AmfValue.isRegular_fill] at hregular
  have hturn := hmembers budget (Nat.le_of_succ_le_succ hheight)
  have hnodup : (Table.keys (AmfValue.asWrittenIn members)).Nodup := by
    rwa [AmfValue.keys_asWrittenIn]
  have hbag := takes_opening lenient hkind members.length
    (takes_filled hturn hnodup)
  rw [Amf0Tables.add_add, List.singleton_append, Amf0Tables.set_add] at hbag
  rwa [AmfValue.asWritten_fill, AmfValue.holders_fill, List.map_cons, AmfValue.asWritten_fill]

theorem takes_leaf (child : Amf0Reader AmfValue) {value : AmfValue} (hleaf : value.IsLeaf)
    (hregular : value.IsRegular) (known : Amf0Tables) :
    Takes (marked (some (body lenient child))) known (write value) value.asWritten known := by
  have hnumber : ∀ number : Binary64,
      Takes (marked (some (body lenient child))) known (0x00 :: Bytes.ofWord64 number.bits)
        (.number number) known := fun number =>
    Takes.marked (((reads_binary64 number).takes (fun _ => keeps_binary64) known).map
      AmfValue.number)
  cases value with
  | null => exact fun _ => rfl
  | undefined => exact fun _ => rfl
  | byteArray content => exact fun _ => rfl
  | boolean flag => cases flag <;> exact fun _ => rfl
  | number value => exact hnumber value
  | integer value => exact hnumber (.ofInt value.toInt)
  | text content =>
      simp only [write, writeText, List.cons_append]
      split
      · exact Takes.marked (((reads_longText hregular).takes isQuiet_longText known).map
          AmfValue.text)
      · rename_i hshort
        exact Takes.marked (((reads_shortText (Nat.le_of_not_lt hshort)).takes
          isQuiet_shortText known).map AmfValue.text)
  | date milliseconds =>
      have hlength : (Bytes.ofWord64 milliseconds.bits).length = 8 := Bytes.length_ofNumber 8 _
      have htake : Takes (take 10) known (Bytes.ofWord64 milliseconds.bits ++ [0, 0])
          (Bytes.ofWord64 milliseconds.bits ++ [0, 0]) known :=
        (reads_take (by simp [hlength])).takes
          (fun _ => (keeps_take 10).imp fun _ _ => trivial) known
      have hdate := htake.map fun bytes => AmfValue.date ⟨Bytes.word64 (bytes.take 8)⟩
      rw [List.take_left' hlength, Bytes.word64_ofWord64] at hdate
      exact Takes.marked hdate
  | xml content =>
      exact Takes.marked (((reads_longText hregular).takes isQuiet_longText known).map
        AmfValue.xml)
  | object properties => exact hleaf.elim
  | ecmaArray properties => exact hleaf.elim
  | typedObject className properties => exact hleaf.elim
  | strictArray items => exact hleaf.elim

theorem standsFor_leaf {value : AmfValue} (hleaf : value.IsLeaf) (hregular : value.IsRegular) :
    StandsFor lenient known (write value) value := by
  intro budget hheight
  obtain ⟨budget, rfl⟩ := Nat.exists_eq_succ_of_ne_zero
    (Nat.ne_of_gt (Nat.lt_of_lt_of_le (AmfValue.height_pos _) hheight))
  rw [AmfValue.holders_of_isLeaf hleaf, List.map_nil, Amf0Tables.add_nil]
  exact takes_leaf (valueWithin lenient budget) hleaf hregular known

def writeMembers (members : Properties) : Bytes :=
  members.flatMap fun (name, value) => writeName name ++ write value

theorem writeProperties_eq (properties : Properties) :
    writeProperties properties = writeMembers properties ++ objectEndMark := by
  induction properties with
  | nil => rfl
  | cons head rest ih => simp [writeProperties, writeMembers, ih]

theorem standForItems_writeItems (lenient : Bool) {items : List AmfValue}
    (hitems : ∀ item ∈ items, ∀ known, StandsFor lenient known (write item) item)
    (known : Amf0Tables) : StandForItems lenient known (writeItems items) items := by
  induction items generalizing known with
  | nil =>
      intro budget _
      rw [AmfValue.holdersAmong, List.map_nil, Amf0Tables.add_nil]
      exact .nil known
  | cons item items ih =>
      have hfirst := hitems item List.mem_cons_self known
      exact hfirst.item.append
        (ih (fun other hother => hitems other (List.mem_cons_of_mem _ hother)) _)

theorem standForMembers_writeMembers (lenient : Bool) {members : Properties}
    (hnames : ∀ name ∈ Table.keys members, name ≠ "" ∧ AmfValue.IsShort name)
    (hmembers : ∀ member ∈ members, ∀ known, StandsFor lenient known (write member.2) member.2)
    (known : Amf0Tables) : StandForMembers lenient known (writeMembers members) members := by
  induction members generalizing known with
  | nil =>
      intro budget _
      rw [AmfValue.holdersIn, List.map_nil, Amf0Tables.add_nil]
      exact .nil known
  | cons member members ih =>
      have hfirst := hmembers member List.mem_cons_self known
      exact (hfirst.member (hnames member.1 List.mem_cons_self)).append
        (ih (fun name hname => hnames name (List.mem_cons_of_mem _ hname))
          (fun other hother => hmembers other (List.mem_cons_of_mem _ hother)) _)

/-- The encoder's bytes, in front of anything and with any tables. -/
theorem standsFor_write {value : AmfValue} (hwritable : value.IsWritable) (known : Amf0Tables) :
    StandsFor lenient known (write value) value := by
  obtain ⟨hregular, hnamed⟩ := hwritable
  induction hregular generalizing known with
  | @node value hhere hparts ih =>
      have hwritten : ∀ part ∈ value.parts, ∀ known, StandsFor lenient known (write part) part :=
        fun part hpart known => ih part hpart known (hnamed.part hpart)
      obtain ⟨kind, properties, rfl⟩ | ⟨items, rfl⟩ | hleaf := value.bag_or_array_or_leaf
      · have hnames := (AmfValue.isNamed_fill kind properties).mp hnamed.here
        rw [AmfValue.parts_fill] at hwritten
        rw [write_fill, writeProperties_eq]
        exact standsFor_fill hhere hnames.1 (standForMembers_writeMembers lenient hnames.2
          (fun member hmember => hwritten member.2 (List.mem_map_of_mem hmember)) _)
      · exact standsFor_strictArray hhere (standForItems_writeItems lenient hwritten _)
      · exact standsFor_leaf hleaf hhere

/-! ## Places -/

/-- What is written around the bytes that stand at the place. -/
def writeAround : AmfValue.Place → Bytes → Bytes
  | .here, bytes => bytes
  | .inBag kind before name place behind, bytes =>
      opening kind (before.length + (behind.length + 1)) ++
        (writeMembers before ++ (writeName name ++ writeAround place bytes ++
          writeMembers behind) ++ objectEndMark)
  | .inArray before place behind, bytes =>
      0x0A :: Bytes.ofNumber 4 (before.length + (behind.length + 1)) ++
        (writeItems before ++ (writeAround place bytes ++ writeItems behind))

theorem writeItems_append (before behind : List AmfValue) :
    writeItems (before ++ behind) = writeItems before ++ writeItems behind := by
  induction before with
  | nil => rfl
  | cons item before ih => simp [writeItems, ih]

theorem writeAround_write (place : AmfValue.Place) (value : AmfValue) :
    writeAround place (write value) = write (place.fill value) := by
  induction place with
  | here => rfl
  | inBag kind before name place behind ih =>
      simp [writeAround, AmfValue.Place.fill, write_fill, writeProperties_eq, writeMembers, ih]
  | inArray before place behind ih =>
      simp [writeAround, AmfValue.Place.fill, write, writeItems_append, writeItems, ih]

/-- The tables when the place is reached. -/
def reached : AmfValue.Place → Amf0Tables → Amf0Tables
  | .here, known => known
  | .inBag _ before _ place _, known =>
      reached place ((known.add [.null]).add
        ((AmfValue.holdersIn before).map AmfValue.asWritten))
  | .inArray before place _, known =>
      reached place ((known.add [.null]).add
        ((AmfValue.holdersAmong before).map AmfValue.asWritten))

theorem size_reached (place : AmfValue.Place) (known : Amf0Tables) :
    (reached place known).references.size =
      known.references.size + place.markersBefore := by
  induction place generalizing known with
  | here => rfl
  | inBag kind before name place behind ih =>
      simp only [reached, AmfValue.Place.markersBefore, ih, Amf0Tables.size_add,
        List.length_map, List.length_singleton]
      omega
  | inArray before place behind ih =>
      simp only [reached, AmfValue.Place.markersBefore, ih, Amf0Tables.size_add,
        List.length_map, List.length_singleton]
      omega

theorem getElem?_reached_of_getElem? (place : AmfValue.Place) {known : Amf0Tables}
    {index : Nat} {held : AmfValue} (hheld : known.references[index]? = some held) :
    (reached place known).references[index]? = some held := by
  induction place generalizing known with
  | here => exact hheld
  | inBag kind before name place behind ih =>
      exact ih (Amf0Tables.getElem?_add_of_getElem?
        (Amf0Tables.getElem?_add_of_getElem? hheld _) _)
  | inArray before place behind ih =>
      exact ih (Amf0Tables.getElem?_add_of_getElem?
        (Amf0Tables.getElem?_add_of_getElem? hheld _) _)

/-- Whoever holds the place is null there. -/
theorem getElem?_reached {place : AmfValue.Place} (hinside : place ≠ .here)
    (known : Amf0Tables) :
    (reached place known).references[known.references.size]? = some .null := by
  have hopen : (known.add [.null]).references[known.references.size]? = some .null :=
    Amf0Tables.getElem?_add known [.null] 0
  cases place with
  | here => exact absurd rfl hinside
  | inBag kind before name place behind =>
      exact getElem?_reached_of_getElem? place (Amf0Tables.getElem?_add_of_getElem? hopen _)
  | inArray before place behind =>
      exact getElem?_reached_of_getElem? place (Amf0Tables.getElem?_add_of_getElem? hopen _)

/-- Bytes that are read as a value at the place are read as a part of the whole. -/
theorem StandsFor.around {place : AmfValue.Place} {bytes : Bytes} {value : AmfValue}
    (hbytes : StandsFor lenient (reached place known) bytes value)
    (hwritable : (place.fill value).IsWritable) :
    StandsFor lenient known (writeAround place bytes) (place.fill value) := by
  induction place generalizing known with
  | here => exact hbytes
  | inBag kind before name place behind ih =>
      rw [AmfValue.Place.fill] at hwritable ⊢
      obtain ⟨hkind, hnames⟩ := (AmfValue.isNamed_fill kind _).mp hwritable.named.here
      have hparts : ∀ member ∈ before ++ (name, place.fill value) :: behind,
          member.2.IsWritable := fun member hmember =>
        hwritable.part (by rw [AmfValue.parts_fill]; exact List.mem_map_of_mem hmember)
      have hbefore : StandForMembers lenient (known.add [.null]) (writeMembers before) before :=
        standForMembers_writeMembers lenient
          (fun other hother => hnames other (by simp [Table.keys] at hother ⊢; tauto))
          (fun member hmember => standsFor_write (hparts member (by simp [hmember]))) _
      have hbehind : ∀ later, StandForMembers lenient later (writeMembers behind) behind :=
        standForMembers_writeMembers lenient
          (fun other hother => hnames other (by simp [Table.keys] at hother ⊢; tauto))
          (fun member hmember => standsFor_write (hparts member (by simp [hmember])))
      have hhere := (ih hbytes (hparts (name, place.fill value) (by simp))).member
        (hnames name (by simp [Table.keys]))
      have hbag := standsFor_fill hwritable.regular.here hkind
        (hbefore.append (hhere.append (hbehind _)))
      rwa [List.length_append] at hbag
  | inArray before place behind ih =>
      rw [AmfValue.Place.fill] at hwritable ⊢
      have hparts : ∀ item ∈ before ++ place.fill value :: behind, item.IsWritable :=
        fun item hitem => hwritable.part hitem
      have hbefore : StandForItems lenient (known.add [.null]) (writeItems before) before :=
        standForItems_writeItems lenient
          (fun item hitem => standsFor_write (hparts item (by simp [hitem]))) _
      have hbehind : ∀ later, StandForItems lenient later (writeItems behind) behind :=
        standForItems_writeItems lenient
          (fun item hitem => standsFor_write (hparts item (by simp [hitem])))
      have hhere := (ih hbytes (hparts (place.fill value) (by simp))).item
      have harray := standsFor_strictArray hwritable.regular.here
        (hbefore.append (hhere.append (hbehind _)))
      rwa [List.length_append] at harray

/-! ## References -/

def referTo (index : Nat) : Bytes := 0x07 :: Bytes.ofNumber 2 index

theorem marked_referTo (lenient : Bool) (child : Amf0Reader AmfValue) {index : Nat}
    (hindex : index < 65536) (known : Amf0Tables) (rest : Bytes) :
    marked (some (body lenient child)) ⟨known, referTo index ++ rest⟩ =
      match known.references[index]? with
      | some held => .ok held ⟨known, rest⟩
      | none => .error (.invalidReference (UInt16.ofNat index)) ⟨known, rest⟩ := by
  have hcount := (reads_count16 (Bytes.length_ofNumber 2 index)).takes isQuiet_count16 known
  rw [Bytes.number_ofNumber_of_lt (show index < Bytes.capacity 2 from hindex)] at hcount
  change reference ⟨known, Bytes.ofNumber 2 index ++ rest⟩ = _
  rw [reference, bind_of_ok (hcount rest), bind_of_ok (show tables _ = _ from rfl)]
  dsimp only
  cases known.references[index]? <;> rfl

theorem standsFor_referTo {index : Nat} (hindex : index < 65536)
    (hopen : known.references[index]? = some .null) :
    StandsFor lenient known (referTo index) .null := by
  intro budget hheight
  obtain ⟨budget, rfl⟩ := Nat.exists_eq_succ_of_ne_zero
    (Nat.ne_of_gt (Nat.lt_of_lt_of_le (AmfValue.height_pos _) hheight))
  rw [AmfValue.holders_of_isLeaf (show AmfValue.null.IsLeaf from trivial), List.map_nil,
    Amf0Tables.add_nil]
  intro rest
  have hread := marked_referTo lenient (valueWithin lenient budget) hindex known rest
  rwa [hopen] at hread

/-- So many values from each input, one call for each of them, and the tables in
the end. -/
def readInputs (lenient : Bool) (known : Amf0Tables) :
    List (Nat × Bytes) → Except AmfError (List AmfValue × Amf0Tables)
  | [] => .ok ([], known)
  | (count, input) :: inputs =>
      match items (value lenient) count [] ⟨known, input⟩ with
      | .ok found after =>
          (readInputs lenient after.tables inputs).map fun (later, last) =>
            (found ++ later, last)
      | .error error _ => .error error

theorem readInputs_written {groups : List (List AmfValue × Bytes)}
    (hwritable : ∀ group ∈ groups, ∀ value ∈ group.1, value.IsWritable)
    (hheight : ∀ group ∈ groups, ∀ value ∈ group.1, value.height ≤ AmfValue.maximumNesting)
    (known : Amf0Tables) :
    readInputs lenient known
        (groups.map fun group => (group.1.length, writeItems group.1 ++ group.2)) =
      .ok ((groups.flatMap Prod.fst).map AmfValue.asWritten,
        known.add ((AmfValue.holdersAmong (groups.flatMap Prod.fst)).map
          AmfValue.asWritten)) := by
  induction groups generalizing known with
  | nil => simp [readInputs, AmfValue.holdersAmong, Amf0Tables.add_nil]
  | cons group groups ih =>
      have hfirst := standForItems_writeItems lenient
        (fun item hitem => standsFor_write (hwritable group List.mem_cons_self item hitem))
        known AmfValue.maximumNesting
        (AmfValue.heightAmong_le_iff.mpr (hheight group List.mem_cons_self))
      have hread := takes_items hfirst [] group.2
      rw [List.length_map, List.reverse_nil, List.nil_append] at hread
      have hrest := ih (fun other hother => hwritable other (List.mem_cons_of_mem _ hother))
        (fun other hother => hheight other (List.mem_cons_of_mem _ hother))
        (known.add ((AmfValue.holdersAmong group.1).map AmfValue.asWritten))
      simp only [List.map_cons, readInputs, value, hread, hrest, Except.map,
        List.flatMap_cons, List.map_append, AmfValue.holdersAmong_append,
        Amf0Tables.add_add]

/-- A reference finds the object or array whose marker has its index, once that
is complete, and null as long as it is open. -/
theorem references_follow_markers (lenient : Bool) (groups : List (List AmfValue × Bytes))
    (hwritable : ∀ group ∈ groups, ∀ value ∈ group.1, value.IsWritable)
    (hheight : ∀ group ∈ groups, ∀ value ∈ group.1,
      value.height ≤ AmfValue.maximumNesting) :
    ∃ known, readInputs lenient {}
          (groups.map fun group => (group.1.length, writeItems group.1 ++ group.2)) =
        .ok ((groups.flatMap Prod.fst).map AmfValue.asWritten, known) ∧
      (∀ index < 65536, ∀ behind, value lenient ⟨known, referTo index ++ behind⟩ =
        match (AmfValue.holdersAmong (groups.flatMap Prod.fst))[index]? with
        | some holder => .ok holder.asWritten ⟨known, behind⟩
        | none => .error (.invalidReference (UInt16.ofNat index)) ⟨known, behind⟩) ∧
      ∀ outer inner : AmfValue.Place, inner ≠ .here →
        (outer.fill (inner.fill .null)).IsWritable →
        (outer.fill (inner.fill .null)).height ≤ AmfValue.maximumNesting →
        ∀ index < 65536, index = (AmfValue.holdersAmong (groups.flatMap Prod.fst)).length +
          outer.markersBefore →
        ∀ behind, value lenient
            ⟨known, writeAround outer (writeAround inner (referTo index)) ++ behind⟩ =
          .ok (outer.fill (inner.fill .null)).asWritten
            ⟨known.add ((outer.fill (inner.fill .null)).holders.map AmfValue.asWritten),
              behind⟩ := by
  refine ⟨_, readInputs_written hwritable hheight {}, ?_, ?_⟩
  · intro index hindex behind
    have hread := marked_referTo lenient (valueWithin lenient 63) hindex
      (Amf0Tables.add {} ((AmfValue.holdersAmong (groups.flatMap Prod.fst)).map
        AmfValue.asWritten)) behind
    have hheld := Amf0Tables.getElem?_add {} ((AmfValue.holdersAmong
      (groups.flatMap Prod.fst)).map AmfValue.asWritten) index
    rw [show ({} : Amf0Tables).references.size + index = index from Nat.zero_add index,
      List.getElem?_map] at hheld
    rw [hheld] at hread
    refine Eq.trans hread ?_
    cases (AmfValue.holdersAmong (groups.flatMap Prod.fst))[index]? <;> rfl
  · intro outer inner hinside hfits hlow index hindex hposition behind
    have hopen := getElem?_reached hinside (reached outer (Amf0Tables.add {}
      ((AmfValue.holdersAmong (groups.flatMap Prod.fst)).map AmfValue.asWritten)))
    rw [size_reached, Amf0Tables.size_add, List.length_map,
      show ({} : Amf0Tables).references.size = 0 from rfl, Nat.zero_add, ← hposition] at hopen
    have hinner : (inner.fill .null).IsWritable := outer.isWritable_of_fill hfits
    exact ((standsFor_referTo hindex hopen).around hinner).around hfits _ hlow behind

/-- An object that holds an array, and an empty array in the next input.  Then an
array that holds another one and, behind it, an object that holds itself. -/
theorem references_follow_markers_of_two :
    ∃ known, readInputs true {}
          [(1, writeItems [.object [("a", .strictArray [.integer 7])]] ++ [0x01]),
            (2, writeItems [.text "x", .ecmaArray []] ++ [])] =
        .ok ([.object [("a", .strictArray [.number (.ofInt 7)])], .text "x", .ecmaArray []],
          known) ∧
      (∀ behind, value true ⟨known, referTo 1 ++ behind⟩ =
        .ok (.strictArray [.number (.ofInt 7)]) ⟨known, behind⟩) ∧
      (∀ behind, value true ⟨known, referTo 3 ++ behind⟩ =
        .error (.invalidReference 3) ⟨known, behind⟩) ∧
      ∀ behind, ∃ after, value true
          ⟨known, writeAround (.inArray [.ecmaArray []] .here [.undefined])
            (writeAround (.inBag .object [("b", .null)] "self" .here []) (referTo 5)) ++
              behind⟩ =
        .ok (.strictArray [.ecmaArray [], .object [("b", .null), ("self", .null)], .undefined])
          ⟨after, behind⟩ := by
  have hleaf : ∀ {value : AmfValue}, value.IsRegular → value.IsNamed → value.parts = [] →
      value.IsWritable := AmfValue.IsWritable.leaf
  have hfirst : (AmfValue.object [("a", .strictArray [.integer 7])]).IsWritable := by
    refine .node (by decide) (by decide) (List.forall_mem_singleton.mpr ?_)
    exact .node (by decide) trivial
      (List.forall_mem_singleton.mpr (hleaf trivial trivial rfl))
  have hsecond : (AmfValue.text "x").IsWritable := hleaf (by decide) trivial rfl
  have hthird : (AmfValue.ecmaArray []).IsWritable := hleaf (by decide) (by decide) rfl
  have hfilled : (AmfValue.strictArray
      [.ecmaArray [], .object [("b", .null), ("self", .null)], .undefined]).IsWritable := by
    refine .node (by decide) trivial ?_
    simp only [AmfValue.parts, List.forall_mem_cons]
    refine ⟨hthird, .node (by decide) (by decide) ?_, hleaf trivial trivial rfl,
      List.forall_mem_nil _⟩
    simp only [AmfValue.parts, List.map_cons, List.forall_mem_cons]
    exact ⟨hleaf trivial trivial rfl, hleaf trivial trivial rfl, List.forall_mem_nil _⟩
  obtain ⟨known, hread, hindices, hself⟩ := references_follow_markers true
    [([.object [("a", .strictArray [.integer 7])]], [0x01]), ([.text "x", .ecmaArray []], [])]
    (by simp [hfirst, hsecond, hthird]) (by decide)
  refine ⟨known, hread, hindices 1 (by decide), hindices 3 (by decide), fun behind => ?_⟩
  exact ⟨_, hself (.inArray [.ecmaArray []] .here [.undefined])
    (.inBag .object [("b", .null)] "self" .here []) (by simp) hfilled (by decide) 5
    (by decide) (by decide) behind⟩

end Amf0

end LiveRelay
