import LiveRelay.Amf3Reading
import LiveRelay.Proofs.AmfTaking

/-!
# Sending values of the newer format

A sender keeps the tables that its reader will keep.  It may send a text, the
shape of an object or a complete complex value in full at every place, or by
its index if the table has it.  It may also spend more bytes on a number than
the number needs.  So one value has many serialisations, and what a sender may
do is a relation.

A complex value takes its index before its parts are sent and cannot be
referred to until it is complete.
-/

namespace LiveRelay

/-- What a sender has sent.  A complex value that is not complete stands for its
index only. -/
structure Amf3Sent where
  texts : List String := []
  objects : List (Option AmfValue) := []
  traits : List Amf3Traits := []

namespace Amf3Sent

def addText (sent : Amf3Sent) (content : String) : Amf3Sent :=
  { sent with texts := sent.texts ++ [content] }

def addTraits (sent : Amf3Sent) (traits : Amf3Traits) : Amf3Sent :=
  { sent with traits := sent.traits ++ [traits] }

def remember (sent : Amf3Sent) (value : AmfValue) : Amf3Sent :=
  { sent with objects := sent.objects ++ [some value] }

def reserve (sent : Amf3Sent) : Amf3Sent :=
  { sent with objects := sent.objects ++ [none] }

def complete (sent : Amf3Sent) (slot : Nat) (value : AmfValue) : Amf3Sent :=
  { sent with objects := sent.objects.set slot (some value) }

end Amf3Sent

namespace Amf3Traits

/-- An object of a class without a name is a plain one. -/
def kind (traits : Amf3Traits) : AmfValue.BagKind :=
  if traits.className.isEmpty then .object else .typedObject traits.className

/-- The header of traits that are sent in full. -/
def header (traits : Amf3Traits) : Nat :=
  16 * traits.sealedNames.length + (if traits.isDynamic then 8 else 0) + 3

end Amf3Traits

namespace Amf3

/-! ## Numbers -/

/-- The forms of a number of 29 bits. -/
inductive IsCompact (value : Nat) : Bytes → Prop
  | one (hfits : value < 0x80) : IsCompact value [UInt8.ofNat value]
  | two (hfits : value < 0x4000) :
      IsCompact value [UInt8.ofNat (0x80 + value / 0x80), UInt8.ofNat (value % 0x80)]
  | three (hfits : value < 0x200000) :
      IsCompact value [UInt8.ofNat (0x80 + value / 0x4000),
        UInt8.ofNat (0x80 + value / 0x80 % 0x80), UInt8.ofNat (value % 0x80)]
  | four (hfits : value < 0x20000000) :
      IsCompact value [UInt8.ofNat (0x80 + value / 0x400000),
        UInt8.ofNat (0x80 + value / 0x8000 % 0x80),
        UInt8.ofNat (0x80 + value / 0x100 % 0x80), UInt8.ofNat (value % 0x100)]

/-! ## Texts and shapes -/

inductive SendsText : Amf3Sent → String → Bytes → Amf3Sent → Prop
  | empty {sent : Amf3Sent} {header : Bytes} (hheader : IsCompact 1 header) :
      SendsText sent "" header sent
  | inFull {sent : Amf3Sent} {content : String} {header : Bytes} (hnew : content ≠ "")
      (hheader : IsCompact (2 * (Bytes.ofText content).length + 1) header) :
      SendsText sent content (header ++ Bytes.ofText content) (sent.addText content)
  | again {sent : Amf3Sent} {content : String} {index : Nat} {header : Bytes}
      (hsent : sent.texts[index]? = some content) (hheader : IsCompact (2 * index) header) :
      SendsText sent content header sent

/-- The shape of an object.  Its index shares the header of the object. -/
inductive SendsTraits : Amf3Sent → Amf3Traits → Nat → Bytes → Amf3Sent → Prop
  | inFull {sent between after : Amf3Sent} {traits : Amf3Traits} {className names : Bytes}
      (hclass : SendsText sent traits.className className between)
      (hnames : InTurn SendsText between traits.sealedNames names after) :
      SendsTraits sent traits traits.header (className ++ names) (after.addTraits traits)
  | again {sent : Amf3Sent} {traits : Amf3Traits} {index : Nat}
      (hsent : sent.traits[index]? = some traits) :
      SendsTraits sent traits (4 * index + 1) [] sent

/-! ## Values -/

/-- The markers of a complex value, in full or by its index. -/
def markers : AmfValue → List UInt8
  | .xml _ => [0x07, 0x0B]
  | .date _ => [0x08]
  | .strictArray _ => [0x09]
  | .object _ => [0x0A]
  | .typedObject _ _ => [0x0A]
  | .byteArray _ => [0x0C]
  | _ => []

mutual

inductive Sends : Amf3Sent → AmfValue → Bytes → Amf3Sent → Prop
  | undefined {sent : Amf3Sent} : Sends sent .undefined [0x00] sent
  | null {sent : Amf3Sent} : Sends sent .null [0x01] sent
  | boolean {sent : Amf3Sent} (flag : Bool) :
      Sends sent (.boolean flag) [if flag then 0x03 else 0x02] sent
  | integer {sent : Amf3Sent} {value : Int32} {bits : Bytes}
      (hlow : -0x10000000 ≤ value.toInt) (hhigh : value.toInt < 0x10000000)
      (hbits : IsCompact (value.toInt % 0x20000000).toNat bits) :
      Sends sent (.integer value) (0x04 :: bits) sent
  | number {sent : Amf3Sent} (value : Binary64) :
      Sends sent (.number value) (0x05 :: Bytes.ofWord64 value.bits) sent
  | text {sent after : Amf3Sent} {content : String} {bytes : Bytes}
      (htext : SendsText sent content bytes after) :
      Sends sent (.text content) (0x06 :: bytes) after
  | xml {sent : Amf3Sent} {content : String} {marker : UInt8} {header : Bytes}
      (hmarker : marker ∈ markers (.xml content))
      (hheader : IsCompact (2 * (Bytes.ofText content).length + 1) header) :
      Sends sent (.xml content) (marker :: (header ++ Bytes.ofText content))
        (sent.remember (.xml content))
  /-- Nothing reads the other bits of the header of a date. -/
  | date {sent : Amf3Sent} {milliseconds : Binary64} {unused : Nat} {header : Bytes}
      (hheader : IsCompact (2 * unused + 1) header) :
      Sends sent (.date milliseconds)
        (0x08 :: (header ++ Bytes.ofWord64 milliseconds.bits))
        (sent.remember (.date milliseconds))
  | byteArray {sent : Amf3Sent} {content header : Bytes}
      (hheader : IsCompact (2 * content.length + 1) header) :
      Sends sent (.byteArray content) (0x0C :: (header ++ content))
        (sent.remember (.byteArray content))
  | array {sent after : Amf3Sent} {items : List AmfValue} {header close bytes : Bytes}
      (hheader : IsCompact (2 * items.length + 1) header) (hclose : IsCompact 1 close)
      (hitems : InTurn Sends sent.reserve items bytes after) :
      Sends sent (.strictArray items) (0x09 :: (header ++ (close ++ bytes)))
        (after.complete sent.objects.length (.strictArray items))
  | object {sent shaped filled after : Amf3Sent} {traits : Amf3Traits}
      {values : List AmfValue} {dynamic : Properties} {word : Nat}
      {header shape fixed members close : Bytes}
      (hheader : IsCompact word header)
      (htraits : SendsTraits sent.reserve traits word shape shaped)
      (hlength : values.length = traits.sealedNames.length)
      (hsealed : InTurn Sends shaped values fixed filled)
      (hdynamic : InTurn SendsMember filled dynamic members after)
      (hclose : if traits.isDynamic then IsCompact 1 close else dynamic = [] ∧ close = [])
      (hdistinct : (Table.keys (traits.sealedNames.zip values ++ dynamic)).Nodup) :
      Sends sent (traits.kind.fill (traits.sealedNames.zip values ++ dynamic))
        (0x0A :: (header ++ (shape ++ (fixed ++ (members ++ close)))))
        (after.complete sent.objects.length
          (traits.kind.fill (traits.sealedNames.zip values ++ dynamic)))
  | again {sent : Amf3Sent} {value : AmfValue} {marker : UInt8} {index : Nat} {header : Bytes}
      (hsent : sent.objects[index]? = some (some value)) (hmarker : marker ∈ markers value)
      (hheader : IsCompact (2 * index) header) :
      Sends sent value (marker :: header) sent

/-- A member with a name of its own. -/
inductive SendsMember : Amf3Sent → String × AmfValue → Bytes → Amf3Sent → Prop
  | mk {sent between after : Amf3Sent} {name : String} {value : AmfValue}
      {first second : Bytes} (hname : SendsText sent name first between) (hne : name ≠ "")
      (hvalue : Sends between value second after) :
      SendsMember sent (name, value) (first ++ second) after

end

/-! ## Values that can be sent -/

/-- A header counts the bytes. -/
def IsCountable (content : String) : Prop :=
  (Bytes.ofText content).length < 0x10000000

instance (content : String) : Decidable (IsCountable content) :=
  inferInstanceAs (Decidable (_ < _))

/-- Integers have 29 bits, a header can count what it has to, and the members of an
object have distinct names.  Arrays with named members are left out. -/
def IsSendable : AmfValue → Prop
  | .integer value => -0x10000000 ≤ value.toInt ∧ value.toInt < 0x10000000
  | .text content => IsCountable content
  | .xml content => IsCountable content
  | .byteArray content => content.length < 0x10000000
  | .strictArray items => items.length < 0x10000000
  | .object properties =>
      properties.length < 0x2000000 ∧ (Table.keys properties).Nodup ∧
        ∀ name ∈ Table.keys properties, IsCountable name
  | .typedObject className properties =>
      className ≠ "" ∧ IsCountable className ∧ properties.length < 0x2000000 ∧
        (Table.keys properties).Nodup ∧ ∀ name ∈ Table.keys properties, IsCountable name
  | .ecmaArray _ => False
  | _ => True

theorem exists_isCompact {value : Nat} (hfits : value < 0x20000000) :
    ∃ bytes, IsCompact value bytes :=
  ⟨_, .four hfits⟩

theorem exists_sendsText {content : String} (hcount : IsCountable content)
    (sent : Amf3Sent) : ∃ bytes after, SendsText sent content bytes after := by
  by_cases hempty : content = ""
  · subst hempty
    exact ⟨_, _, .empty (.one (by decide))⟩
  · refine ⟨_, _, .inFull hempty (.four ?_)⟩
    unfold IsCountable at hcount
    omega

theorem exists_sendsObject {className : String} {properties : Properties}
    (hclass : IsCountable className) (hcount : properties.length < 0x2000000)
    (hdistinct : (Table.keys properties).Nodup)
    (hnames : ∀ name ∈ Table.keys properties, IsCountable name)
    (hvalues : ∀ value ∈ properties.map Prod.snd, ∀ sent, ∃ bytes after,
      Sends sent value bytes after) (sent : Amf3Sent) :
    ∃ bytes after, Sends sent
      ((Amf3Traits.mk className false (Table.keys properties)).kind.fill properties)
      bytes after := by
  -- All members are sealed, so an empty name is no trouble.
  obtain ⟨classBytes, named, hnamed⟩ := exists_sendsText hclass sent.reserve
  obtain ⟨nameBytes, listed, hlisted⟩ := InTurn.exists_of_forall named
    fun name hname => exists_sendsText (hnames name hname)
  obtain ⟨fixed, filled, hfilled⟩ := InTurn.exists_of_forall
    (listed.addTraits ⟨className, false, Table.keys properties⟩) hvalues
  have hzip : properties = (Table.keys properties).zip (properties.map Prod.snd) :=
    List.zip_of_prod rfl rfl
  obtain ⟨header, hheader⟩ : ∃ header, IsCompact
      (Amf3Traits.mk className false (Table.keys properties)).header header := by
    apply exists_isCompact
    have hlength : (Table.keys properties).length = properties.length := List.length_map _
    simp only [Amf3Traits.header, hlength, Bool.false_eq_true, if_false]
    omega
  have hclose : ([] : Properties) = [] ∧ ([] : Bytes) = [] := ⟨rfl, rfl⟩
  have hsends := Sends.object hheader (.inFull hnamed hlisted) (by simp [Table.keys]) hfilled
    (.nil filled) hclose (by rwa [List.append_nil, ← hzip])
  rw [List.append_nil, ← hzip] at hsends
  exact ⟨_, _, hsends⟩

/-- From every state of the tables, in full at every place. -/
theorem exists_sends {value : AmfValue} (hvalue : value.Everywhere IsSendable)
    (sent : Amf3Sent) : ∃ bytes after, Sends sent value bytes after := by
  induction hvalue generalizing sent with
  | @node value hhere hparts ih =>
      cases value with
      | null => exact ⟨_, _, .null⟩
      | undefined => exact ⟨_, _, .undefined⟩
      | boolean flag => exact ⟨_, _, .boolean flag⟩
      | number value => exact ⟨_, _, .number value⟩
      | integer value => exact ⟨_, _, .integer hhere.1 hhere.2 (.four (by omega))⟩
      | text content =>
          obtain ⟨bytes, after, htext⟩ := exists_sendsText hhere sent
          exact ⟨_, _, .text htext⟩
      | date milliseconds =>
          obtain ⟨header, hheader⟩ := exists_isCompact (show 2 * 0 + 1 < 0x20000000 by decide)
          exact ⟨_, _, .date hheader⟩
      | xml content =>
          unfold IsSendable IsCountable at hhere
          have hmarker : 0x0B ∈ markers (.xml content) := List.mem_of_mem_tail List.mem_cons_self
          exact ⟨_, _, .xml hmarker (.four (by omega))⟩
      | byteArray content =>
          unfold IsSendable at hhere
          exact ⟨_, _, .byteArray (.four (by omega))⟩
      | strictArray items =>
          unfold IsSendable at hhere
          obtain ⟨bytes, after, hitems⟩ := InTurn.exists_of_forall sent.reserve ih
          exact ⟨_, _, .array (.four (by omega)) (.one (by decide)) hitems⟩
      | object properties =>
          obtain ⟨hcount, hdistinct, hnames⟩ := hhere
          have hclass : IsCountable "" := by decide
          exact exists_sendsObject hclass hcount hdistinct hnames ih sent
      | typedObject className properties =>
          obtain ⟨hne, hclass, hcount, hdistinct, hnames⟩ := hhere
          have hsends := exists_sendsObject hclass hcount hdistinct hnames ih sent
          have hnamed : className.isEmpty = false := by simpa using hne
          rwa [Amf3Traits.kind, hnamed] at hsends
      | ecmaArray properties => exact hhere.elim

end Amf3

end LiveRelay
