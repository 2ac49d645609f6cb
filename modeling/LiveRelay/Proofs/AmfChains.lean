import LiveRelay.Proofs.AmfNesting
import LiveRelay.Proofs.AmfRoundTrip

/-!
# Values that hold earlier ones

The tables last from one value to the next.  A value that holds a reference is
higher than what it refers to, and may be referred to in turn.  So values grow
with the number of those that have an index, by one with each of them, and the
nesting budget of the reader does not stop them.
-/

namespace LiveRelay

namespace Amf0

open AmfReader

/-- The values that the inputs start with, each read with the tables that those
before it left, and the tables in the end. -/
def readEach (lenient : Bool) (known : Amf0Tables) :
    (inputs : List Bytes) → List AmfValue × Amf0Tables
  | [] => ([], known)
  | input :: inputs =>
      let found := single (value lenient) ⟨known, input⟩
      let later := readEach lenient found.cursor.tables inputs
      (found.values ++ later.1, later.2)

/-! ## Growth -/

theorem isLow_empty : IsLow (Amf0Tables.indexed {}) 0 1 :=
  ⟨rfl, Nat.one_pos, by simp [Amf0Tables.indexed]⟩

/-- A value that is read is not above the level that reading it comes to. -/
theorem isLow_single (lenient : Bool) {known : Amf0Tables} {level : Nat}
    (hlow : IsLow known.indexed 0 level) (input : Bytes) :
    ∃ higher, level ≤ higher ∧
      IsLow (single (value lenient) ⟨known, input⟩).cursor.tables.indexed 0 higher ∧
      ∀ read ∈ (single (value lenient) ⟨known, input⟩).values, read.height ≤ higher := by
  have hvalue := climbs_valueWithin lenient AmfValue.maximumNesting ⟨known, input⟩ level
    hlow (Nat.zero_le level)
  unfold single value
  cases hrun : valueWithin lenient AmfValue.maximumNesting ⟨known, input⟩ with
  | ok read after =>
      rw [hrun] at hvalue
      obtain ⟨higher, hhigher, hafter, hheight⟩ := hvalue
      exact ⟨higher, hhigher, hafter, by simpa using hheight⟩
  | error error after =>
      rw [hrun] at hvalue
      obtain ⟨higher, hhigher, hafter⟩ := hvalue
      exact ⟨higher, hhigher, hafter, by simp⟩

theorem isLow_readEach (lenient : Bool) {known : Amf0Tables} {level : Nat}
    (hlow : IsLow known.indexed 0 level) (inputs : List Bytes) :
    ∃ higher, level ≤ higher ∧
      IsLow (readEach lenient known inputs).2.indexed 0 higher ∧
      ∀ read ∈ (readEach lenient known inputs).1, read.height ≤ higher := by
  induction inputs generalizing known level with
  | nil => exact ⟨level, Nat.le_refl _, hlow, List.forall_mem_nil _⟩
  | cons input inputs ih =>
      obtain ⟨between, hbetween, hfirst, hfound⟩ := isLow_single lenient hlow input
      obtain ⟨higher, hhigher, hlast, hlater⟩ := ih hfirst
      refine ⟨higher, Nat.le_trans hbetween hhigher, hlast, fun read hread => ?_⟩
      rcases List.mem_append.mp hread with hread | hread
      · exact Nat.le_trans (hfound read hread) hhigher
      · exact hlater read hread

/-! ## Chains -/

/-- An array of one item, which refers to the value with this index. -/
def link (index : Nat) : Bytes :=
  [0x0A, 0x00, 0x00, 0x00, 0x01, 0x07] ++ Bytes.ofNumber 2 index

theorem reference_ofNumber {index : Nat} (hindex : index < 65536) {known : Amf0Tables}
    {held : AmfValue} (hheld : known.references[index]? = some held) :
    reference ⟨known, Bytes.ofNumber 2 index⟩ = .ok held ⟨known, []⟩ := by
  have hnumber : Bytes.number (Bytes.ofNumber 2 index) = index :=
    Bytes.number_ofNumber_of_lt hindex
  have hcount : count16 ⟨known, Bytes.ofNumber 2 index⟩ = .ok index ⟨known, []⟩ := by
    conv_rhs => rw [← hnumber]
    rfl
  rw [reference, bind_of_ok hcount, bind_of_ok (show tables _ = _ from rfl)]
  simp only [hheld]
  rfl

/-- The array is open while its item is read, and may be the value that the item
refers to. -/
theorem value_link (lenient : Bool) {index : Nat} (hindex : index < 65536)
    {references : Array AmfValue} (newer : Amf3Tables) {held : AmfValue}
    (hheld : (references.push .null)[index]? = some held) :
    value lenient ⟨⟨references, newer⟩, link index⟩ =
      .ok (.strictArray [held])
        ⟨⟨references.push (.strictArray [held]), newer⟩, []⟩ := by
  let opened : Amf0Tables := ⟨references.push .null, newer⟩
  have hcount : count32 ⟨⟨references, newer⟩,
      [0x00, 0x00, 0x00, 0x01] ++ 0x07 :: Bytes.ofNumber 2 index⟩ =
      .ok 1 ⟨⟨references, newer⟩, 0x07 :: Bytes.ofNumber 2 index⟩ := rfl
  have hreserve : reserve ⟨⟨references, newer⟩, 0x07 :: Bytes.ofNumber 2 index⟩ =
      .ok references.size ⟨opened, 0x07 :: Bytes.ofNumber 2 index⟩ := rfl
  have hitem : valueWithin lenient 63 ⟨opened, 0x07 :: Bytes.ofNumber 2 index⟩ =
      .ok held ⟨opened, []⟩ := reference_ofNumber hindex hheld
  have hitems : items (valueWithin lenient 63) 1 []
      ⟨opened, 0x07 :: Bytes.ofNumber 2 index⟩ = .ok [held] ⟨opened, []⟩ :=
    bind_of_ok hitem
  have hplace : opened.references.setIfInBounds references.size (.strictArray [held]) =
      references.push (.strictArray [held]) := by
    apply Array.ext'
    simp [opened]
  refine (bind_of_ok hcount).trans ((bind_of_ok hreserve).trans
    ((bind_of_ok hitems).trans ?_))
  rw [← hplace]
  rfl

/-- Arrays in arrays. -/
def stacked : (height : Nat) → AmfValue
  | 0 => .null
  | height + 1 => .strictArray [stacked height]

theorem height_stacked (count : Nat) : (stacked count).height = count + 1 := by
  induction count with
  | zero => rfl
  | succ count ih => simp [stacked, AmfValue.height, AmfValue.heightAmong, ih]

/-- The arrays up to a height, each with its index. -/
def stackedUpTo (count : Nat) : Array AmfValue :=
  ((List.range' 1 count).map stacked).toArray

theorem stackedUpTo_succ (count : Nat) :
    stackedUpTo (count + 1) = (stackedUpTo count).push (stacked (count + 1)) := by
  simp [stackedUpTo, List.range'_1_concat, Nat.add_comm]

theorem getElem?_stackedUpTo (count : Nat) :
    ((stackedUpTo count).push .null)[count - 1]? = some (stacked count) := by
  cases count with
  | zero => rfl
  | succ count => simp [stackedUpTo, List.getElem?_append_left, Nat.add_comm]

/-- Each array refers to the one before it, and the first one to itself. -/
def chain (start count : Nat) : List Bytes :=
  (List.range' start count).map fun index => link (index - 1)

theorem readEach_chain (lenient : Bool) (start : Nat) {count : Nat}
    (hcount : start + count ≤ 65536) (newer : Amf3Tables) :
    readEach lenient ⟨stackedUpTo start, newer⟩ (chain start count) =
      ((List.range' (start + 1) count).map stacked,
        ⟨stackedUpTo (start + count), newer⟩) := by
  induction count generalizing start with
  | zero => rfl
  | succ count ih =>
      have hindex : start - 1 < 65536 := by omega
      have hfirst := value_link lenient hindex newer (getElem?_stackedUpTo start)
      have hrest := ih (start + 1) (by omega)
      rw [stackedUpTo_succ, Nat.add_right_comm start 1 count] at hrest
      rw [chain, List.range'_succ, List.map_cons, ← chain, readEach]
      simp only [single, hfirst]
      rw [← stacked, hrest]
      rfl

theorem readEach_null_chain (lenient : Bool) {count : Nat} (hcount : count ≤ 65536) :
    readEach lenient {} ([0x05] :: chain 0 count) =
      (stacked 0 :: (List.range' 1 count).map stacked, ⟨stackedUpTo count, {}⟩) := by
  have hroom : 0 + count ≤ 65536 := by rwa [Nat.zero_add]
  have hchain := readEach_chain lenient 0 hroom {}
  simp only [Nat.zero_add] at hchain
  exact congrArg (fun later => (stacked 0 :: later.1, later.2)) hchain

theorem exists_stacked_of_chain (lenient : Bool) {count : Nat} (hcount : count ≤ 65536) :
    ∃ inputs, (readEach lenient {} inputs).2.indexed.length = count ∧
      ∃ read ∈ (readEach lenient {} inputs).1, read.height = count + 1 := by
  refine ⟨[0x05] :: chain 0 count, ?_, stacked count, ?_, height_stacked count⟩
  · rw [readEach_null_chain lenient hcount]
    simp [Amf0Tables.indexed, stackedUpTo]
  · rw [readEach_null_chain lenient hcount]
    cases count with
    | zero => exact List.mem_cons_self
    | succ count =>
        refine List.mem_cons_of_mem _ (List.mem_map_of_mem ?_)
        exact List.mem_range'_1.mpr ⟨Nat.succ_pos count, by omega⟩

/-- No value that is read is higher than the number of values with an index and
one.  Chains of references reach that height. -/
theorem height_readEach (lenient : Bool) :
    (∀ inputs, ∀ read ∈ (readEach lenient {} inputs).1,
      read.height ≤ (readEach lenient {} inputs).2.indexed.length + 1) ∧
    ∀ count ≤ 65536, ∃ inputs,
      (readEach lenient {} inputs).2.indexed.length = count ∧
        ∃ read ∈ (readEach lenient {} inputs).1, read.height = count + 1 := by
  refine ⟨fun inputs read hread => ?_, fun count hcount =>
    exists_stacked_of_chain lenient hcount⟩
  obtain ⟨level, -, hlow, hheight⟩ := isLow_readEach lenient isLow_empty inputs
  rw [hlow.length_eq, Nat.zero_add]
  exact hheight read hread

theorem height_readEach_of_links :
    (∀ read ∈ (readEach true {} [link 0, link 0]).1, read.height ≤ 3) ∧
      1000 ≤ 65536 ∧ ∃ inputs, (readEach true {} inputs).2.indexed.length = 1000 ∧
        ∃ read ∈ (readEach true {} inputs).1, read.height = 1001 := by
  have hlength : (readEach true {} [link 0, link 0]).2.indexed.length = 2 := by
    decide +kernel
  refine ⟨fun read hread => ?_, by decide, (height_readEach true).2 1000 (by decide)⟩
  have hheight := (height_readEach true).1 [link 0, link 0] read hread
  rwa [hlength] at hheight

/-- Arrays in arrays, in one input. -/
def nested : (depth : Nat) → Bytes
  | 0 => [0x0A, 0x00, 0x00, 0x00, 0x00]
  | depth + 1 => [0x0A, 0x00, 0x00, 0x00, 0x01] ++ nested depth

/-- Nothing is nested too deep in either input.  The second one refers to what
the first one holds, and its value is higher than the reader may go. -/
theorem maximumNesting_lt_height_of_link :
    ∃ read ∈ (readEach true {} [nested 63, link 0]).1,
      AmfValue.maximumNesting < read.height := by
  decide +kernel

end Amf0

end LiveRelay
