import LiveRelay.Proofs.AmfChains
import LiveRelay.Proofs.AmfPaidReading

/-!
# What references cost

The tables last from one value to the next.  What the values of any number of calls
hold is paid for as long as each object and each array is counted once, in its place in
the tables: the bytes consumed are at least as many as the values found and the values
that stand directly in the tables.

A reference costs three bytes, whatever it finds.  If the same array is found again,
all that stands in it is there once more and is not paid for.  Arrays that refer to the
one before them twice double with every eleven bytes.  There is no worse than
exponential growth, for the objects and arrays of the values are all in the tables.
-/

namespace LiveRelay

namespace Amf0

open AmfReader

/-- The bytes that the calls consume, one that fails as well. -/
def consumedEach (lenient : Bool) (known : Amf0Tables) : (inputs : List Bytes) → Nat
  | [] => 0
  | input :: inputs =>
      let found := single (value lenient) ⟨known, input⟩
      (input.length - found.cursor.rest.length) +
        consumedEach lenient found.cursor.tables inputs

/-! ## Payment -/

theorem settles_single (lenient : Bool) {known : Amf0Tables} {input : Bytes} {budget : Nat}
    (hpaid : Paid known.indexed [] input.length budget) :
    let found := single (value lenient) ⟨known, input⟩
    valueStore.Lasts ⟨known, input⟩ found.cursor ∧
      Paid found.cursor.tables.indexed found.values found.cursor.rest.length budget := by
  have hvalue := findsPaid_valueWithin lenient AmfValue.maximumNesting {} ⟨known, input⟩
    budget ⟨hpaid, .nil _⟩
  unfold single value
  cases hrun : valueWithin lenient AmfValue.maximumNesting ⟨known, input⟩ with
  | ok read after =>
      rw [hrun] at hvalue
      exact ⟨hvalue.1, hvalue.2.paid⟩
  | error error after =>
      rw [hrun] at hvalue
      exact ⟨hvalue.1, hvalue.2.paid⟩

/-- What was found before a call stays paid for. -/
theorem paid_single (lenient : Bool) {known : Amf0Tables} {values : List AmfValue}
    {spent : Nat} (hpaid : Paid known.indexed values 0 spent) (input : Bytes) :
    let found := single (value lenient) ⟨known, input⟩
    Paid found.cursor.tables.indexed (values ++ found.values) 0
      (spent + (input.length - found.cursor.rest.length)) := by
  intro found
  have hstart : Paid known.indexed [] input.length
      ((AmfValue.partsAmong known.indexed).length + input.length) :=
    ⟨by simp, fun value hvalue => hpaid.holders_mem value (by simp_all)⟩
  have hsettles := settles_single lenient hstart
  obtain ⟨hlasts, hafter⟩ : valueStore.Lasts ⟨known, input⟩ found.cursor ∧
    Paid found.cursor.tables.indexed found.values found.cursor.rest.length _ := hsettles
  refine ⟨?_, fun value hvalue holder hholder => ?_⟩
  · have hrest : found.cursor.rest.length ≤ input.length := hlasts.rest_le
    have hold := hpaid.cost_le
    have hnew := hafter.cost_le
    rw [List.length_append]
    omega
  · rw [List.mem_append, List.mem_append] at hvalue
    rcases hvalue with hindexed | hvalues | hnew
    · exact hafter.holders_mem value (List.mem_append_left _ hindexed) holder hholder
    · refine hlasts.mem_indexed holder ?_ (AmfValue.not_isLeaf_of_mem_holders hholder)
      exact hpaid.holders_mem value (List.mem_append_right _ hvalues) holder hholder
    · exact hafter.holders_mem value (List.mem_append_right _ hnew) holder hholder

theorem paid_readEach (lenient : Bool) {known : Amf0Tables} {values : List AmfValue}
    {spent : Nat} (hpaid : Paid known.indexed values 0 spent) (inputs : List Bytes) :
    Paid (readEach lenient known inputs).2.indexed
      (values ++ (readEach lenient known inputs).1) 0
      (spent + consumedEach lenient known inputs) := by
  induction inputs generalizing known values spent with
  | nil => simpa [readEach, consumedEach] using hpaid
  | cons input inputs ih =>
      have hrest := ih (paid_single lenient hpaid input)
      rw [List.append_assoc, Nat.add_assoc] at hrest
      exact hrest

/-! ## Growth -/

/-- An array whose two items both refer to the value with this index. -/
def fork (index : Nat) : Bytes :=
  0x0A :: Bytes.ofNumber 4 2 ++ (referTo index ++ referTo index)

theorem takes_referTo (lenient : Bool) (child : Amf0Reader AmfValue) {index : Nat}
    (hindex : index < 65536) {known : Amf0Tables} {held : AmfValue}
    (hheld : known.references[index]? = some held) :
    Takes (marked (some (body lenient child))) known (referTo index) held known := by
  intro rest
  rw [marked_referTo lenient child hindex, hheld]

theorem value_fork (lenient : Bool) {index : Nat} (hindex : index < 65536)
    {known : Amf0Tables} {held : AmfValue}
    (hheld : (known.add [.null]).references[index]? = some held) :
    value lenient ⟨known, fork index⟩ =
      .ok (.strictArray [held, held]) ⟨known.add [.strictArray [held, held]], []⟩ := by
  have hitem := takes_referTo lenient (valueWithin lenient 62) hindex hheld
  have hitems : InTurn (TakesItem (valueWithin lenient 63)) (known.add [.null]) [held, held]
      (referTo index ++ referTo index) (known.add [.null]) :=
    .cons hitem (.single hitem)
  have hlength : [held, held].length < 4294967296 := (by decide : 2 < 4294967296)
  have hfork := takes_strictArray lenient hlength hitems []
  rw [List.append_nil, Amf0Tables.set_add] at hfork
  exact hfork

/-- Arrays that hold the same array twice. -/
def forked : (height : Nat) → AmfValue
  | 0 => .null
  | height + 1 => .strictArray [forked height, forked height]

theorem nodes_forked (height : Nat) : (forked height).nodes + 1 = 2 ^ (height + 1) := by
  induction height with
  | zero => rfl
  | succ height ih =>
      rw [Nat.pow_succ, ← ih]
      simp only [forked, AmfValue.nodes, AmfValue.nodesAmong]
      omega

/-- The arrays up to a height, each in its place. -/
def forkedUpTo (count : Nat) : Amf0Tables :=
  ({} : Amf0Tables).add ((List.range' 1 count).map forked)

theorem forkedUpTo_succ (count : Nat) :
    (forkedUpTo count).add [forked (count + 1)] = forkedUpTo (count + 1) := by
  rw [forkedUpTo, Amf0Tables.add_add, forkedUpTo, List.range'_1_concat, List.map_append,
    Nat.add_comm 1 count]
  rfl

theorem getElem?_forkedUpTo (count : Nat) :
    ((forkedUpTo count).add [.null]).references[count - 1]? = some (forked count) := by
  cases count with
  | zero => rfl
  | succ count =>
      refine Amf0Tables.getElem?_add_of_getElem? ?_ [.null]
      have hplace := Amf0Tables.getElem?_add {} ((List.range' 1 (count + 1)).map forked) count
      rw [show ({} : Amf0Tables).references.size + count = count from Nat.zero_add count]
        at hplace
      simpa [forkedUpTo, Nat.add_comm] using hplace

/-- Each array refers to the one before it, and the first one to itself. -/
def forks (start count : Nat) : List Bytes :=
  (List.range' start count).map fun index => fork (index - 1)

theorem length_fork (index : Nat) : (fork index).length = 11 := by
  simp [fork, referTo, Bytes.length_ofNumber]

theorem readEach_forks (lenient : Bool) (start : Nat) {count : Nat}
    (hcount : start + count ≤ 65536) :
    readEach lenient (forkedUpTo start) (forks start count) =
        ((List.range' (start + 1) count).map forked, forkedUpTo (start + count)) ∧
      consumedEach lenient (forkedUpTo start) (forks start count) = 11 * count := by
  induction count generalizing start with
  | zero => exact ⟨rfl, rfl⟩
  | succ count ih =>
      have hindex : start - 1 < 65536 := by omega
      have hfirst := value_fork lenient hindex (getElem?_forkedUpTo start)
      rw [← forked, forkedUpTo_succ] at hfirst
      obtain ⟨hrest, hconsumed⟩ := ih (start + 1) (by omega)
      rw [Nat.add_right_comm start 1 count] at hrest
      rw [forks, List.range'_succ, List.map_cons, ← forks, readEach, consumedEach]
      simp only [single, hfirst, hrest, hconsumed]
      constructor
      · rfl
      · rw [length_fork, List.length_nil]
        omega

theorem exists_forks (lenient : Bool) {count : Nat} (hcount : count ≤ 65536) :
    ∃ inputs, consumedEach lenient {} inputs = 11 * count + 1 ∧
      2 ^ count ≤ AmfValue.nodesAmong (readEach lenient {} inputs).1 := by
  have hroom : 0 + count ≤ 65536 := by rwa [Nat.zero_add]
  obtain ⟨hread, hconsumed⟩ := readEach_forks lenient 0 hroom
  rw [show forkedUpTo 0 = {} from rfl] at hread hconsumed
  refine ⟨[0x05] :: forks 0 count, ?_, ?_⟩
  · rw [Nat.add_comm, ← hconsumed]
    rfl
  · have hvalues : (readEach lenient {} ([0x05] :: forks 0 count)).1 =
        (List.range' 0 (count + 1)).map forked := by
      rw [List.range'_succ, List.map_cons]
      exact congrArg (forked 0 :: ·) (congrArg Prod.fst hread)
    rw [hvalues, List.range'_1_concat, List.map_append, AmfValue.nodesAmong_append]
    have hlast := nodes_forked (0 + count)
    simp only [List.map_cons, List.map_nil, AmfValue.nodesAmong, Nat.zero_add] at hlast ⊢
    have hpower : 2 ^ (count + 1) = 2 ^ count * 2 := Nat.pow_succ ..
    have hpos : 0 < 2 ^ count := Nat.two_pow_pos count
    omega

/-- The values of any number of calls, and what stands directly in the tables, are no
more than the bytes consumed, and all objects and arrays of the values are in the
tables.  So the values are made of no more values than that, but for what stands in
objects and arrays that occur oftener than they have a place.  They may be exponentially
many, and no more. -/
theorem nodesAmong_readEach (lenient : Bool) :
    (∀ inputs,
      let (values, known) := readEach lenient {} inputs
      let consumed := consumedEach lenient {} inputs
      values.length + (AmfValue.partsAmong known.indexed).length ≤ consumed ∧
        (∀ holder ∈ AmfValue.holdersAmong values, holder ∈ known.indexed) ∧
        (∀ copies, (AmfValue.holdersAmong values).Subperm (known.indexed ++ copies) →
          AmfValue.nodesAmong values ≤ consumed + (AmfValue.partsAmong copies).length) ∧
        AmfValue.nodesAmong values ≤ 2 ^ consumed) ∧
    ∀ count ≤ 65536, ∃ inputs, consumedEach lenient {} inputs = 11 * count + 1 ∧
      2 ^ count ≤ AmfValue.nodesAmong (readEach lenient {} inputs).1 := by
  refine ⟨fun inputs => ?_, fun count hcount => exists_forks lenient hcount⟩
  have hstart : Paid (Amf0Tables.indexed {}) [] 0 0 := ⟨Nat.le_refl 0, by simp [Amf0Tables.indexed]⟩
  have hpaid := paid_readEach lenient hstart inputs
  rw [List.nil_append, Nat.zero_add] at hpaid
  have hcost := hpaid.cost_le
  rw [Nat.add_zero] at hcost
  have hplaced : ∀ holder ∈ AmfValue.holdersAmong (readEach lenient {} inputs).1,
      holder ∈ (readEach lenient {} inputs).2.indexed := by
    intro holder hholder
    obtain ⟨value, hvalue, hinside⟩ := AmfValue.mem_holdersAmong.mp hholder
    exact hpaid.holders_mem value (List.mem_append_right _ hvalue) holder hinside
  refine ⟨hcost, hplaced, fun copies hcopies => ?_, ?_⟩
  · have hparts := AmfValue.length_partsAmong_le hcopies
    rw [AmfValue.partsAmong_append, List.length_append] at hparts
    rw [AmfValue.nodesAmong_eq]
    omega
  · exact Nat.le_trans (AmfValue.nodesAmong_le_two_pow hplaced)
      (Nat.pow_le_pow_right Nat.two_pos hcost)

/-- An array of eight values without parts. -/
def eightNulls : Bytes :=
  [0x0A, 0x00, 0x00, 0x00, 0x08, 0x05, 0x05, 0x05, 0x05, 0x05, 0x05, 0x05, 0x05]

/-- The second array stands for the first one, which has the only place.  Twenty arrays
that each hold the one before them twice come in 221 bytes. -/
theorem nodesAmong_readEach_of_copy :
    let array : AmfValue := .strictArray (List.replicate 8 .null)
    let inputs := [eightNulls, referTo 0]
    let (values, known) := readEach true {} inputs
    values = [array, array] ∧ known.indexed = [array] ∧
      values.length + (AmfValue.partsAmong known.indexed).length ≤
        consumedEach true {} inputs ∧
      (AmfValue.holdersAmong values).Subperm (known.indexed ++ [array]) ∧
      AmfValue.nodesAmong values ≤
        consumedEach true {} inputs + (AmfValue.partsAmong [array]).length ∧
      20 ≤ 65536 ∧ ∃ inputs, consumedEach true {} inputs = 221 ∧
        2 ^ 20 ≤ AmfValue.nodesAmong (readEach true {} inputs).1 := by
  intro array inputs
  obtain ⟨hall, hgrowth⟩ := nodesAmong_readEach true
  obtain ⟨hcost, -, hcopies, -⟩ := hall inputs
  have hread : readEach true {} inputs = ([array, array], ⟨#[array], {}⟩) := rfl
  have hsubperm : (AmfValue.holdersAmong (readEach true {} inputs).1).Subperm
      ((readEach true {} inputs).2.indexed ++ [array]) := by
    rw [hread]
    exact List.Subperm.refl _
  exact ⟨congrArg Prod.fst hread, congrArg (·.2.indexed) hread, hcost, hsubperm,
    hcopies [array] hsubperm, by decide, hgrowth 20 (by decide)⟩

/-- Sixteen bytes, and eighteen values. -/
theorem consumedEach_lt_nodesAmong_of_reference :
    consumedEach true {} [eightNulls, referTo 0] <
      AmfValue.nodesAmong (readEach true {} [eightNulls, referTo 0]).1 := by
  decide +kernel

end Amf0

end LiveRelay
