import LiveRelay.AmfValue
import Mathlib.Data.List.Forall2

/-!
# Values as trees

A value that holds others is as high as the highest of them and one more.  The
order of its properties does not matter: two values are alike if one becomes
the other when properties are put in another order, at any depth.

What the format can carry of a value is said node by node.  Texts and arrays
are counted in 32 bits, names and class names in 16, and the empty name marks
the end of an object.
-/

namespace LiveRelay

namespace AmfValue

/-- The values that a value holds. -/
def parts : AmfValue → List AmfValue
  | .object properties => properties.map Prod.snd
  | .ecmaArray properties => properties.map Prod.snd
  | .typedObject _ properties => properties.map Prod.snd
  | .strictArray items => items
  | _ => []

/-- The three kinds of values that have properties. -/
inductive BagKind where
  | object
  | ecmaArray
  | typedObject (className : String)

def BagKind.fill : BagKind → Properties → AmfValue
  | .object, properties => .object properties
  | .ecmaArray, properties => .ecmaArray properties
  | .typedObject className, properties => .typedObject className properties

@[simp] theorem parts_fill (kind : BagKind) (properties : Properties) :
    (kind.fill properties).parts = properties.map Prod.snd := by
  cases kind <;> rfl

/-- Neither a bag nor an array. -/
def IsLeaf : AmfValue → Prop
  | .object _ => False
  | .ecmaArray _ => False
  | .typedObject _ _ => False
  | .strictArray _ => False
  | _ => True

theorem bag_or_array_or_leaf (value : AmfValue) :
    (∃ kind properties, value = BagKind.fill kind properties) ∨
      (∃ items, value = .strictArray items) ∨ value.IsLeaf := by
  cases value with
  | object properties => exact .inl ⟨.object, properties, rfl⟩
  | ecmaArray properties => exact .inl ⟨.ecmaArray, properties, rfl⟩
  | typedObject className properties =>
      exact .inl ⟨.typedObject className, properties, rfl⟩
  | strictArray items => exact .inr (.inl ⟨items, rfl⟩)
  | _ => exact .inr (.inr trivial)

/-! ## Height -/

mutual

/-- A value without parts has height one. -/
def height : AmfValue → Nat
  | .object properties => heightIn properties + 1
  | .ecmaArray properties => heightIn properties + 1
  | .typedObject _ properties => heightIn properties + 1
  | .strictArray items => heightAmong items + 1
  | _ => 1

def heightAmong : List AmfValue → Nat
  | [] => 0
  | item :: items => max (height item) (heightAmong items)

def heightIn : List (String × AmfValue) → Nat
  | [] => 0
  | (_, value) :: rest => max (height value) (heightIn rest)

end

theorem heightAmong_le_iff {items : List AmfValue} {bound : Nat} :
    heightAmong items ≤ bound ↔ ∀ item ∈ items, item.height ≤ bound := by
  induction items with
  | nil => simp [heightAmong]
  | cons item items ih => rw [heightAmong, Nat.max_le, ih, List.forall_mem_cons]

theorem heightAmong_append (first second : List AmfValue) :
    heightAmong (first ++ second) = max (heightAmong first) (heightAmong second) := by
  induction first with
  | nil => simp [heightAmong]
  | cons item first ih => simp [heightAmong, ih, Nat.max_assoc]

theorem heightAmong_perm {left right : List AmfValue} (hperm : left.Perm right) :
    heightAmong left = heightAmong right := by
  apply Nat.le_antisymm
  · exact heightAmong_le_iff.mpr fun item hitem =>
      heightAmong_le_iff.mp (Nat.le_refl _) item (hperm.mem_iff.mp hitem)
  · exact heightAmong_le_iff.mpr fun item hitem =>
      heightAmong_le_iff.mp (Nat.le_refl _) item (hperm.mem_iff.mpr hitem)

theorem heightIn_eq_heightAmong (properties : Properties) :
    heightIn properties = heightAmong (properties.map Prod.snd) := by
  induction properties with
  | nil => rfl
  | cons head rest ih => simp [heightIn, heightAmong, ih]

theorem height_eq (value : AmfValue) : value.height = heightAmong value.parts + 1 := by
  cases value <;> simp [height, parts, heightAmong, heightIn_eq_heightAmong]

theorem height_pos (value : AmfValue) : 0 < value.height := by
  rw [height_eq]
  exact Nat.succ_pos _

theorem height_of_isLeaf {value : AmfValue} (hleaf : value.IsLeaf) :
    value.height = 1 := by
  cases value <;> first | rfl | exact hleaf.elim

/-! ## Conditions on every node -/

inductive Everywhere (check : AmfValue → Prop) : AmfValue → Prop
  | node {value : AmfValue} (hhere : check value)
      (hparts : ∀ part ∈ value.parts, Everywhere check part) : Everywhere check value

namespace Everywhere

variable {check : AmfValue → Prop} {value : AmfValue}

/-- A value without parts. -/
theorem leaf (hhere : check value) (hparts : value.parts = []) :
    value.Everywhere check :=
  .node hhere (hparts ▸ List.forall_mem_nil _)

theorem here (hvalue : value.Everywhere check) : check value := by
  cases hvalue with
  | node hhere hparts => exact hhere

theorem part (hvalue : value.Everywhere check) {part : AmfValue}
    (hpart : part ∈ value.parts) : part.Everywhere check := by
  cases hvalue with
  | node hhere hparts => exact hparts part hpart

end Everywhere

/-- The names of a bag are distinct, and 32 bits hold the size of texts and
arrays. -/
def IsRegular : AmfValue → Prop
  | .text content => (Bytes.ofText content).length < 4294967296
  | .xml content => (Bytes.ofText content).length < 4294967296
  | .strictArray items => items.length < 4294967296
  | .object properties => (Table.keys properties).Nodup
  | .ecmaArray properties => (Table.keys properties).Nodup
  | .typedObject _ properties => (Table.keys properties).Nodup
  | _ => True

instance : (value : AmfValue) → Decidable value.IsRegular
  | .text _ | .xml _ | .strictArray _ => inferInstanceAs (Decidable (_ < _))
  | .object _ | .ecmaArray _ | .typedObject _ _ =>
      inferInstanceAs (Decidable (List.Nodup _))
  | .null | .undefined | .boolean _ | .number _ | .integer _ | .date _ | .byteArray _ =>
      .isTrue trivial

theorem isRegular_fill (kind : BagKind) (properties : Properties) :
    (kind.fill properties).IsRegular ↔ (Table.keys properties).Nodup := by
  cases kind <;> rfl

def IsShort (name : String) : Prop :=
  (Bytes.ofText name).length ≤ 0xFFFF

instance (name : String) : Decidable (IsShort name) :=
  inferInstanceAs (Decidable (_ ≤ _))

/-- The class name, if there is one, can be written as it is. -/
def BagKind.IsNamed : BagKind → Prop
  | .typedObject className => IsShort className
  | _ => True

/-- Class names and names of properties can be written as they are, and no
property has the name that ends a bag. -/
def IsNamed : AmfValue → Prop
  | .object properties => ∀ name ∈ Table.keys properties, name ≠ "" ∧ IsShort name
  | .ecmaArray properties => ∀ name ∈ Table.keys properties, name ≠ "" ∧ IsShort name
  | .typedObject className properties =>
      IsShort className ∧ ∀ name ∈ Table.keys properties, name ≠ "" ∧ IsShort name
  | _ => True

instance : (value : AmfValue) → Decidable value.IsNamed
  | .object _ | .ecmaArray _ => inferInstanceAs (Decidable (∀ name ∈ _, _ ∧ _))
  | .typedObject _ _ => inferInstanceAs (Decidable (_ ∧ ∀ name ∈ _, _ ∧ _))
  | .null | .undefined | .boolean _ | .number _ | .integer _ | .text _ | .strictArray _
  | .date _ | .xml _ | .byteArray _ => .isTrue trivial

theorem isNamed_fill (kind : BagKind) (properties : Properties) :
    (kind.fill properties).IsNamed ↔
      kind.IsNamed ∧ ∀ name ∈ Table.keys properties, name ≠ "" ∧ IsShort name := by
  cases kind <;> simp [BagKind.fill, IsNamed, BagKind.IsNamed]

/-- Reading back gives the value that was written. -/
structure IsWritable (value : AmfValue) : Prop where
  regular : value.Everywhere IsRegular
  named : value.Everywhere IsNamed

theorem IsWritable.node {value : AmfValue} (hregular : value.IsRegular)
    (hnamed : value.IsNamed) (hparts : ∀ part ∈ value.parts, part.IsWritable) :
    value.IsWritable :=
  ⟨.node hregular fun part hpart => (hparts part hpart).regular,
    .node hnamed fun part hpart => (hparts part hpart).named⟩

theorem IsWritable.leaf {value : AmfValue} (hregular : value.IsRegular)
    (hnamed : value.IsNamed) (hparts : value.parts = []) : value.IsWritable :=
  ⟨.leaf hregular hparts, .leaf hnamed hparts⟩

theorem IsWritable.part {value part : AmfValue} (hvalue : value.IsWritable)
    (hpart : part ∈ value.parts) : part.IsWritable :=
  ⟨hvalue.regular.part hpart, hvalue.named.part hpart⟩

/-! ## The order of properties -/

/-- The same value but for the order of properties. -/
inductive Alike : AmfValue → AmfValue → Prop
  | refl (value : AmfValue) : Alike value value
  | trans {first second third : AmfValue} (hfirst : Alike first second)
      (hsecond : Alike second third) : Alike first third
  | inArray (before behind : List AmfValue) {left right : AmfValue}
      (halike : Alike left right) :
      Alike (.strictArray (before ++ left :: behind))
        (.strictArray (before ++ right :: behind))
  | inBag (kind : BagKind) (before behind : Properties) (name : String)
      {left right : AmfValue} (halike : Alike left right) :
      Alike (kind.fill (before ++ (name, left) :: behind))
        (kind.fill (before ++ (name, right) :: behind))
  | reordered (kind : BagKind) {left right : Properties} (hperm : left.Perm right) :
      Alike (kind.fill left) (kind.fill right)

namespace Alike

theorem height_eq {left right : AmfValue} (halike : Alike left right) :
    left.height = right.height := by
  induction halike with
  | refl value => rfl
  | trans hfirst hsecond ihfirst ihsecond => exact ihfirst.trans ihsecond
  | inArray before behind halike ih =>
      simp only [AmfValue.height_eq (.strictArray _), parts, heightAmong_append,
        heightAmong, ih]
  | inBag kind before behind name halike ih =>
      simp only [AmfValue.height_eq (kind.fill _), parts_fill, List.map_append,
        List.map_cons, heightAmong_append, heightAmong, ih]
  | reordered kind hperm =>
      simp only [AmfValue.height_eq (kind.fill _), parts_fill,
        heightAmong_perm (hperm.map Prod.snd)]

/-- The condition looks at nothing but the names of a bag and the length of an
array. -/
structure Respects (check : AmfValue → Prop) : Prop where
  array : ∀ left right : List AmfValue, left.length = right.length →
    check (.strictArray left) → check (.strictArray right)
  bag : ∀ (kind : BagKind) (left right : Properties),
    (Table.keys left).Perm (Table.keys right) → check (kind.fill left) →
      check (kind.fill right)

variable {check : AmfValue → Prop}

theorem everywhere {left right : AmfValue} (halike : Alike left right)
    (hrespects : Respects check) (hleft : left.Everywhere check) :
    right.Everywhere check := by
  induction halike with
  | refl value => exact hleft
  | trans hfirst hsecond ihfirst ihsecond => exact ihsecond (ihfirst hleft)
  | @inArray before behind old new halike ih =>
      refine .node (hrespects.array _ _ (by simp) hleft.here) ?_
      intro part hpart
      simp only [parts, List.mem_append, List.mem_cons] at hpart
      rcases hpart with hbefore | rfl | hbehind
      · exact hleft.part (by simp [parts, hbefore])
      · exact ih (hleft.part (by simp [parts]))
      · exact hleft.part (by simp [parts, hbehind])
  | @inBag kind before behind name old new halike ih =>
      refine .node (hrespects.bag kind _ _ (by simp [Table.keys]) hleft.here) ?_
      intro part hpart
      simp only [parts_fill, List.map_append, List.map_cons, List.mem_append,
        List.mem_cons] at hpart
      have hsame : ∀ other, other ∈ before.map Prod.snd ∨ other ∈ behind.map Prod.snd →
          other ∈ (kind.fill (before ++ (name, old) :: behind)).parts := by
        intro other hother
        simp only [parts_fill, List.map_append, List.map_cons, List.mem_append,
          List.mem_cons]
        exact hother.imp_right .inr
      rcases hpart with hbefore | rfl | hbehind
      · exact hleft.part (hsame _ (.inl hbefore))
      · exact ih (hleft.part (by simp))
      · exact hleft.part (hsame _ (.inr hbehind))
  | reordered kind hperm =>
      refine .node (hrespects.bag kind _ _ (hperm.map Prod.fst) hleft.here) ?_
      intro part hpart
      rw [parts_fill] at hpart
      exact hleft.part (by rw [parts_fill]; exact (hperm.map Prod.snd).mem_iff.mpr hpart)

theorem respects_isRegular : Respects IsRegular where
  array left right hlength hleft := by
    simp only [IsRegular] at hleft ⊢
    omega
  bag kind left right hperm hleft := by
    rw [isRegular_fill] at hleft ⊢
    exact hperm.nodup_iff.mp hleft

theorem respects_isNamed : Respects IsNamed where
  array _ _ _ _ := trivial
  bag kind left right hperm hleft := by
    rw [isNamed_fill] at hleft ⊢
    exact ⟨hleft.1, fun name hname => hleft.2 name (hperm.mem_iff.mpr hname)⟩

theorem isWritable {left right : AmfValue} (halike : Alike left right)
    (hleft : left.IsWritable) : right.IsWritable :=
  ⟨halike.everywhere respects_isRegular hleft.regular,
    halike.everywhere respects_isNamed hleft.named⟩

end Alike

theorem exists_alike {values arranged : List AmfValue}
    (halike : List.Forall₂ Alike values arranged) {written : AmfValue}
    (hwritten : written ∈ arranged) : ∃ value ∈ values, value.Alike written := by
  induction halike with
  | nil => simp at hwritten
  | @cons value first values arranged hfirst hrest ih =>
      rcases List.mem_cons.mp hwritten with rfl | hbehind
      · exact ⟨value, List.mem_cons_self, hfirst⟩
      · obtain ⟨other, hother, hsame⟩ := ih hbehind
        exact ⟨other, List.mem_cons_of_mem _ hother, hsame⟩

theorem heightAmong_alike {values arranged : List AmfValue}
    (halike : List.Forall₂ Alike values arranged) :
    heightAmong values = heightAmong arranged := by
  induction halike with
  | nil => rfl
  | cons hfirst hrest ih => simp only [heightAmong, hfirst.height_eq, ih]

/-! ## What the format keeps -/

mutual

/-- What is read once a value has been written: the format has no integers and
no byte arrays. -/
def asWritten : AmfValue → AmfValue
  | .integer value => .number (.ofInt value.toInt)
  | .byteArray _ => .null
  | .object properties => .object (asWrittenIn properties)
  | .ecmaArray properties => .ecmaArray (asWrittenIn properties)
  | .typedObject className properties => .typedObject className (asWrittenIn properties)
  | .strictArray items => .strictArray (asWrittenAmong items)
  | .null => .null
  | .undefined => .undefined
  | .boolean flag => .boolean flag
  | .number value => .number value
  | .text content => .text content
  | .date milliseconds => .date milliseconds
  | .xml content => .xml content

def asWrittenAmong : List AmfValue → List AmfValue
  | [] => []
  | item :: items => asWritten item :: asWrittenAmong items

def asWrittenIn : List (String × AmfValue) → List (String × AmfValue)
  | [] => []
  | (name, value) :: rest => (name, asWritten value) :: asWrittenIn rest

end

/-- An integer is written as the number with its sign and its magnitude. -/
theorem ofInt_toInt (value : Int32) :
    (Binary64.ofInt value.toInt).isNegative = decide (value.toInt < 0) ∧
      (Binary64.ofInt value.toInt).magnitude.1 =
        value.toInt.natAbs * (Binary64.ofInt value.toInt).magnitude.2 := by
  have hlow := value.le_toInt
  have hhigh := value.toInt_lt
  have hlt : value.toInt.natAbs < 2 * Binary64.hiddenBit := by
    simp only [Binary64.hiddenBit]
    omega
  exact ⟨Binary64.isNegative_ofInt hlt, Binary64.magnitude_ofInt hlt⟩

theorem asWrittenAmong_eq_map (items : List AmfValue) :
    asWrittenAmong items = items.map asWritten := by
  induction items with
  | nil => rfl
  | cons item items ih => simp [asWrittenAmong, ih]

theorem asWrittenIn_eq_map (properties : Properties) :
    asWrittenIn properties =
      properties.map fun property => (property.1, property.2.asWritten) := by
  induction properties with
  | nil => rfl
  | cons head rest ih => simp [asWrittenIn, ih]

theorem keys_asWrittenIn (properties : Properties) :
    Table.keys (asWrittenIn properties) = Table.keys properties := by
  simp [Table.keys, asWrittenIn_eq_map, Function.comp_def]

theorem IsRegular.asWritten {value : AmfValue} (hregular : value.IsRegular) :
    value.asWritten.IsRegular := by
  cases value with
  | object | ecmaArray | typedObject =>
      simpa [AmfValue.asWritten, IsRegular, keys_asWrittenIn] using hregular
  | strictArray items =>
      simpa [AmfValue.asWritten, IsRegular, asWrittenAmong_eq_map] using hregular
  | integer | byteArray => trivial
  | _ => exact hregular

theorem asWritten_fill (kind : BagKind) (properties : Properties) :
    (kind.fill properties).asWritten = kind.fill (asWrittenIn properties) := by
  cases kind <;> rfl

theorem Alike.asWritten {left right : AmfValue} (halike : Alike left right) :
    Alike left.asWritten right.asWritten := by
  induction halike with
  | refl value => exact .refl _
  | trans hfirst hsecond ihfirst ihsecond => exact ihfirst.trans ihsecond
  | inArray before behind halike ih =>
      simp only [AmfValue.asWritten, asWrittenAmong_eq_map, List.map_append,
        List.map_cons]
      exact .inArray _ _ ih
  | inBag kind before behind name halike ih =>
      simp only [asWritten_fill, asWrittenIn_eq_map, List.map_append, List.map_cons]
      exact .inBag kind _ _ name ih
  | reordered kind hperm =>
      simp only [asWritten_fill, asWrittenIn_eq_map]
      exact .reordered kind (hperm.map _)

theorem forall₂_asWritten {values arranged : List AmfValue}
    (halike : List.Forall₂ Alike values arranged) :
    List.Forall₂ Alike (values.map asWritten) (arranged.map asWritten) := by
  rw [List.forall₂_map_left_iff, List.forall₂_map_right_iff]
  exact halike.imp fun _ _ hsame => hsame.asWritten

end AmfValue

end LiveRelay
