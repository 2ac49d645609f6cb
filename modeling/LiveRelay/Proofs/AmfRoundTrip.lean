import LiveRelay.Amf0Reading
import LiveRelay.Amf0Writing
import LiveRelay.Proofs.AmfTrees
import LiveRelay.Proofs.ChunkHeaderRoundTrip

/-!
# Written values are read back

A reader is described by what it makes of the bytes in front of it, whatever
the tables hold and whatever follows.  Readers put behind each other take the
bytes put behind each other, so a value is read back once its fields are.

How deep a reader may still go decides about a value.  It reads every value
that is no higher than its budget, and fails on every other one at the first
part that lies too deep.
-/

namespace LiveRelay

namespace AmfReader

variable {Tables α β : Type}

theorem bind_of_ok {reader : AmfReader Tables α} {next : α → AmfReader Tables β}
    {cursor after : AmfCursor Tables} {found : α}
    (hrun : reader cursor = .ok found after) :
    (reader >>= next) cursor = next found after := by
  change EStateM.bind reader next cursor = _
  simp only [EStateM.bind, hrun]

theorem bind_of_error {reader : AmfReader Tables α} {next : α → AmfReader Tables β}
    {cursor after : AmfCursor Tables} {error : AmfError}
    (hrun : reader cursor = .error error after) :
    (reader >>= next) cursor = .error error after := by
  change EStateM.bind reader next cursor = _
  simp only [EStateM.bind, hrun]

/-- A reader that finds a value stands in front of what follows; one that fails
may stand anywhere. -/
def ended : Except AmfError α → (after : AmfCursor Tables) → (rest : Bytes) →
    EStateM.Result AmfError (AmfCursor Tables) α
  | .ok found, after, rest => .ok found { after with rest := rest }
  | .error error, after, _ => .error error after

/-- What becomes of input that begins with these bytes.  A value that is found
takes these bytes and nothing behind them. -/
def Answers (reader : AmfReader Tables α) (written : Bytes)
    (outcome : Except AmfError α) : Prop :=
  ∀ tables rest, ∃ after,
    reader ⟨tables, written ++ rest⟩ = ended outcome after rest

abbrev Reads (reader : AmfReader Tables α) (written : Bytes) (found : α) : Prop :=
  Answers reader written (.ok found)

/-! ## Readers behind each other -/

theorem reads_pure (found : α) : Reads (pure found : AmfReader Tables α) [] found :=
  fun tables rest => ⟨⟨tables, rest⟩, rfl⟩

theorem Reads.bind {reader : AmfReader Tables α} {next : α → AmfReader Tables β}
    {first second : Bytes} {middle : α} {outcome : Except AmfError β}
    (hfirst : Reads reader first middle)
    (hsecond : Answers (next middle) second outcome) :
    Answers (reader >>= next) (first ++ second) outcome := by
  intro tables rest
  obtain ⟨between, hreader⟩ := hfirst tables (second ++ rest)
  obtain ⟨after, hnext⟩ := hsecond between.tables rest
  exact ⟨after, by rw [List.append_assoc, bind_of_ok hreader, hnext]⟩

theorem Answers.bind_error {reader : AmfReader Tables α} {first : Bytes}
    {error : AmfError} (hfirst : Answers reader first (.error error))
    (next : α → AmfReader Tables β) (second : Bytes) :
    Answers (reader >>= next) (first ++ second) (.error error) := by
  intro tables rest
  obtain ⟨after, hreader⟩ := hfirst tables (second ++ rest)
  exact ⟨after, by rw [List.append_assoc, bind_of_error hreader, ended]⟩

theorem Answers.finish {reader : AmfReader Tables α} {next : α → AmfReader Tables β}
    {written : Bytes} {outcome : Except AmfError α} {change : α → β}
    (hanswers : Answers reader written outcome)
    (hnext : ∀ found, Reads (next found) [] (change found)) :
    Answers (reader >>= next) written (outcome.map change) := by
  rw [← List.append_nil written]
  cases outcome with
  | ok found => exact Reads.bind hanswers (hnext found)
  | error error => exact hanswers.bind_error next []

theorem Answers.map {reader : AmfReader Tables α} {written : Bytes}
    {outcome : Except AmfError α} (hanswers : Answers reader written outcome)
    (change : α → β) :
    Answers (reader >>= fun found => pure (change found)) written (outcome.map change) :=
  hanswers.finish fun found => reads_pure (change found)

/-- A change of the tables takes no bytes. -/
theorem answers_update {change : Tables → α × Tables} {next : α → AmfReader Tables β}
    {written : Bytes} {outcome : Except AmfError β}
    (hnext : ∀ found, Answers (next found) written outcome) :
    Answers (update change >>= next) written outcome :=
  fun tables rest => hnext (change tables).1 (change tables).2 rest

theorem Answers.marked {read : UInt8 → AmfReader Tables AmfValue} {marker : UInt8}
    {written : Bytes} {outcome : Except AmfError AmfValue}
    (hanswers : Answers (read marker) written outcome) :
    Answers (AmfReader.marked (some read)) (marker :: written) outcome :=
  fun tables rest => hanswers tables rest

/-! ## Depth -/

/-- What is found at a budget that has to reach so deep. -/
def within (budget height : Nat) (found : α) : Except AmfError α :=
  if height ≤ budget then .ok found else .error .nestingTooDeep

theorem within_of_le {budget height : Nat} (hle : height ≤ budget) (found : α) :
    within budget height found = .ok found :=
  if_pos hle

theorem within_of_lt {budget height : Nat} (hlt : budget < height) (found : α) :
    within budget height found = .error .nestingTooDeep :=
  if_neg (Nat.not_le_of_lt hlt)

theorem within_succ (budget height : Nat) (found : α) :
    within (budget + 1) (height + 1) found = within budget height found := by
  simp [within]

theorem map_within (budget height : Nat) (found : α) (change : α → β) :
    (within budget height found).map change = within budget height (change found) := by
  unfold within
  split <;> rfl

theorem answers_marked_none {written : Bytes} (hwritten : written ≠ []) :
    Answers (marked none : AmfReader Tables AmfValue) written
      (.error .nestingTooDeep) := by
  intro tables rest
  cases written with
  | nil => exact absurd rfl hwritten
  | cons marker written => exact ⟨⟨tables, marker :: written ++ rest⟩, rfl⟩

theorem Answers.bind_within {reader : AmfReader Tables α} {next : α → AmfReader Tables β}
    {first second : Bytes} {budget height behind : Nat} {middle : α} {found : β}
    (hfirst : Answers reader first (within budget height middle))
    (hsecond : Answers (next middle) second (within budget behind found)) :
    Answers (reader >>= next) (first ++ second)
      (within budget (max height behind) found) := by
  by_cases hheight : height ≤ budget
  · rw [within_of_le hheight] at hfirst
    have hmax : within budget (max height behind) found = within budget behind found := by
      simp only [within, Nat.max_le, hheight, true_and]
    rw [hmax]
    exact Reads.bind hfirst hsecond
  · have hlt : budget < height := Nat.lt_of_not_le hheight
    rw [within_of_lt hlt] at hfirst
    rw [within_of_lt (Nat.lt_of_lt_of_le hlt (Nat.le_max_left _ _))]
    exact hfirst.bind_error next second

/-! ## Fields -/

theorem reads_take {count : Nat} {taken : Bytes} (hcount : taken.length = count) :
    Reads (take count : AmfReader Tables Bytes) taken taken := by
  intro tables rest
  refine ⟨⟨tables, rest⟩, ?_⟩
  simp only [take, Bytes.split?_append_of_length hcount, ended]

theorem reads_byte (first : UInt8) :
    Reads (byte : AmfReader Tables UInt8) [first] first :=
  fun tables rest => ⟨⟨tables, rest⟩, rfl⟩

theorem reads_binary64 (value : Binary64) :
    Reads (binary64 : AmfReader Tables Binary64) (Bytes.ofWord64 value.bits) value := by
  have htake : Reads (take 8 : AmfReader Tables Bytes) (Bytes.ofWord64 value.bits) _ :=
    reads_take (Bytes.length_ofNumber 8 _)
  have hread := htake.map fun bytes => Binary64.mk (Bytes.word64 bytes)
  rwa [Except.map, Bytes.word64_ofWord64] at hread

theorem reads_text (content : String) :
    Reads (text (Bytes.ofText content).length : AmfReader Tables String)
      (Bytes.ofText content) content := by
  have htake : Reads (take (Bytes.ofText content).length : AmfReader Tables Bytes)
      (Bytes.ofText content) _ := reads_take rfl
  intro tables rest
  obtain ⟨after, htaken⟩ := htake tables rest
  refine ⟨after, ?_⟩
  rw [text, bind_of_ok htaken, Bytes.toText?_ofText]
  rfl

end AmfReader

namespace Amf0

open AmfReader

theorem reads_count16 {bytes : Bytes} (hlength : bytes.length = 2) :
    Reads count16 bytes (Bytes.number bytes) :=
  (reads_take hlength).map Bytes.number

theorem reads_count32 {bytes : Bytes} (hlength : bytes.length = 4) :
    Reads count32 bytes (Bytes.number bytes) :=
  (reads_take hlength).map Bytes.number

theorem reads_count32_ofNumber {value : Nat} (hlt : value < 4294967296) :
    Reads count32 (Bytes.ofNumber 4 value) value := by
  have hread := reads_count32 (Bytes.length_ofNumber 4 value)
  rwa [Bytes.number_ofNumber_of_lt (show value < Bytes.capacity 4 from hlt)] at hread

theorem reads_shortText {content : String} (hshort : AmfValue.IsShort content) :
    Reads shortText
      (Bytes.ofNumber 2 (Bytes.ofText content).length ++ Bytes.ofText content)
      content := by
  have hlt : (Bytes.ofText content).length < Bytes.capacity 2 := Nat.lt_succ_of_le hshort
  have hcount := reads_count16 (Bytes.length_ofNumber 2 (Bytes.ofText content).length)
  rw [Bytes.number_ofNumber_of_lt hlt] at hcount
  exact Reads.bind hcount (reads_text content)

theorem reads_longText {content : String}
    (hlength : (Bytes.ofText content).length < 4294967296) :
    Reads longText
      (Bytes.ofNumber 4 (Bytes.ofText content).length ++ Bytes.ofText content) content :=
  Reads.bind (reads_count32_ofNumber hlength) (reads_text content)

theorem reads_writeName {name : String} (hshort : AmfValue.IsShort name) :
    Reads shortText (writeName name) name := by
  have hwhole : (Bytes.ofText name).take 0xFFFF = Bytes.ofText name :=
    List.take_of_length_le hshort
  simp only [writeName, hwhole]
  exact reads_shortText hshort

theorem writeName_ne_nil (name : String) : writeName name ≠ [] := by
  simp [writeName, Bytes.ofNumber]

theorem write_ne_nil (value : AmfValue) : write value ≠ [] := by
  cases value with
  | text content =>
      simp only [write, writeText]
      split <;> simp
  | _ => simp [write]

/-! ## Leaves -/

section Leaves

variable (lenient : Bool) (child : Amf0Reader AmfValue)

theorem reads_number (value : Binary64) :
    Reads (marked (some (body lenient child))) (0x00 :: Bytes.ofWord64 value.bits)
      (.number value) :=
  Answers.marked ((reads_binary64 value).map AmfValue.number)

theorem reads_date (milliseconds : Binary64) :
    Reads (marked (some (body lenient child))) (write (.date milliseconds))
      (.date milliseconds) := by
  have hlength : (Bytes.ofWord64 milliseconds.bits).length = 8 :=
    Bytes.length_ofNumber 8 _
  have htake : Reads (take 10 : Amf0Reader Bytes)
      (Bytes.ofWord64 milliseconds.bits ++ [0, 0]) _ := reads_take (by simp [hlength])
  have hread := htake.map fun bytes => AmfValue.date ⟨Bytes.word64 (bytes.take 8)⟩
  rw [Except.map, List.take_left' hlength, Bytes.word64_ofWord64] at hread
  exact Answers.marked hread

theorem reads_writeText {content : String}
    (hlength : (Bytes.ofText content).length < 4294967296) :
    Reads (marked (some (body lenient child))) (writeText content) (.text content) := by
  simp only [writeText, List.cons_append]
  split
  · exact Answers.marked ((reads_longText hlength).map AmfValue.text)
  · rename_i hshort
    exact Answers.marked ((reads_shortText (Nat.le_of_not_lt hshort)).map AmfValue.text)

theorem reads_leaf {value : AmfValue} (hleaf : value.IsLeaf)
    (hregular : value.IsRegular) :
    Reads (marked (some (body lenient child))) (write value) value.asWritten := by
  cases value with
  | null => exact Answers.marked (reads_pure _)
  | undefined => exact Answers.marked (reads_pure _)
  | byteArray content => exact Answers.marked (reads_pure _)
  | boolean flag =>
      cases flag with
      | false =>
          exact Answers.marked
            ((reads_byte 0).map fun flag => AmfValue.boolean (flag != 0))
      | true =>
          exact Answers.marked
            ((reads_byte 1).map fun flag => AmfValue.boolean (flag != 0))
  | number value => exact reads_number lenient child value
  | integer value => exact reads_number lenient child (.ofInt value.toInt)
  | text content => exact reads_writeText lenient child hregular
  | date milliseconds => exact reads_date lenient child milliseconds
  | xml content => exact Answers.marked ((reads_longText hregular).map AmfValue.xml)
  | object properties => exact hleaf.elim
  | ecmaArray properties => exact hleaf.elim
  | typedObject className properties => exact hleaf.elim
  | strictArray items => exact hleaf.elim

end Leaves

/-- The value comes back from what is written for it, if the budget allows. -/
def ReadsBack (child : Amf0Reader AmfValue) (budget : Nat) (value : AmfValue) : Prop :=
  Answers child (write value) (within budget value.height value.asWritten)

section Parts

variable {lenient : Bool} {child : Amf0Reader AmfValue} {budget : Nat}

/-! ## Values in a row -/

theorem answers_items {items : List AmfValue}
    (hchild : ∀ item ∈ items, ReadsBack child budget item) (done : List AmfValue) :
    Answers (AmfReader.items child items.length done) (writeItems items)
      (within budget (AmfValue.heightAmong items)
        (done.reverse ++ items.map AmfValue.asWritten)) := by
  induction items generalizing done with
  | nil =>
      rw [AmfValue.heightAmong, within_of_le (Nat.zero_le _), List.map_nil,
        List.append_nil]
      exact reads_pure _
  | cons item items ih =>
      have hrest := ih (fun other hother => hchild other (List.mem_cons_of_mem _ hother))
        (item.asWritten :: done)
      rw [List.reverse_cons, List.append_assoc] at hrest
      exact (hchild item List.mem_cons_self).bind_within hrest

/-! ## Properties -/

/-- One turn of the loop over properties. -/
def entry (lenient : Bool) (child : Amf0Reader AmfValue)
    (next : Properties → Amf0Reader Properties) (done : Properties) :
    Amf0Reader Properties := do
  let name ← shortText
  if name.isEmpty then
    objectEnd lenient
    return done
  else
    let value ← child
    next (done.put name value)

theorem propertiesWithin_cons (first : UInt8) (bound : Bytes) (done : Properties)
    {cursor : AmfCursor Amf0Tables} (hrest : cursor.rest ≠ []) :
    propertiesWithin lenient child (first :: bound) done cursor =
      entry lenient child (propertiesWithin lenient child bound) done cursor := by
  simp [propertiesWithin, entry, hrest]

theorem answers_propertiesWithin_cons {first : UInt8} {bound : Bytes} {done : Properties}
    {written : Bytes} {outcome : Except AmfError Properties} (hwritten : written ≠ [])
    (hentry : Answers (entry lenient child (propertiesWithin lenient child bound) done)
      written outcome) :
    Answers (propertiesWithin lenient child (first :: bound) done) written outcome := by
  have hturn : ∀ tables rest,
      propertiesWithin lenient child (first :: bound) done ⟨tables, written ++ rest⟩ =
        entry lenient child (propertiesWithin lenient child bound) done
          ⟨tables, written ++ rest⟩ := by
    intro tables rest
    exact propertiesWithin_cons first bound done (by simp [hwritten])
  simpa only [Answers, hturn] using hentry

theorem reads_entry_end (next : Properties → Amf0Reader Properties) (done : Properties) :
    Reads (entry lenient child next done) objectEndMark done := by
  have hend : Reads (objectEnd lenient) [0x09] () :=
    fun tables rest => ⟨⟨tables, rest⟩, rfl⟩
  have hname : Reads shortText [0, 0] "" := @reads_shortText "" (Nat.zero_le _)
  have hclosed : Reads (do objectEnd lenient; return done) [0x09] done :=
    Reads.bind hend (reads_pure done)
  have hmark : objectEndMark = [0, 0] ++ [0x09] := rfl
  rw [hmark]
  exact Reads.bind hname hclosed

theorem answers_entry {next : Properties → Amf0Reader Properties}
    {done found : Properties} {name : String}
    (hname : name ≠ "" ∧ AmfValue.IsShort name) {value : AmfValue}
    {behind : Bytes} {height : Nat} (hvalue : ReadsBack child budget value)
    (hnext : Answers (next (done.put name value.asWritten)) behind
      (within budget height found)) :
    Answers (entry lenient child next done) (writeName name ++ write value ++ behind)
      (within budget (max value.height height) found) := by
  have hchild : Answers (child >>= fun value => next (done.put name value))
      (write value ++ behind) (within budget (max value.height height) found) :=
    hvalue.bind_within hnext
  rw [List.append_assoc]
  refine Reads.bind (reads_writeName hname.2) ?_
  simpa [hname.1] using hchild

theorem answers_propertiesWithin {properties : Properties}
    (hnames : ∀ name ∈ Table.keys properties, name ≠ "" ∧ AmfValue.IsShort name)
    (hchild : ∀ property ∈ properties, ReadsBack child budget property.2)
    {bound : Bytes} (hbound : properties.length < bound.length) {done : Properties}
    (hnodup : (Table.keys (done ++ properties)).Nodup) :
    Answers (propertiesWithin lenient child bound done) (writeProperties properties)
      (within budget (AmfValue.heightIn properties)
        (done ++ AmfValue.asWrittenIn properties)) := by
  induction properties generalizing bound done with
  | nil =>
      obtain ⟨first, bound, rfl⟩ := List.exists_cons_of_length_pos hbound
      rw [AmfValue.heightIn, within_of_le (Nat.zero_le _), AmfValue.asWrittenIn,
        List.append_nil]
      exact answers_propertiesWithin_cons (List.cons_ne_nil _ _) (reads_entry_end _ done)
  | cons head rest ih =>
      obtain ⟨name, value⟩ := head
      obtain ⟨first, bound, rfl⟩ :=
        List.exists_cons_of_length_pos (Nat.zero_lt_of_lt hbound)
      -- The name is new, so the pair goes behind what is done.
      have hput := Table.put_of_notMem (Table.notMem_keys_of_nodup hnodup) value.asWritten
      have hrest := ih (fun other hother => hnames other (List.mem_cons_of_mem _ hother))
        (fun other hother => hchild other (List.mem_cons_of_mem _ hother))
        (Nat.lt_of_succ_lt_succ hbound) (Table.nodup_keys_put_append hnodup value.asWritten)
      rw [hput, List.append_assoc, ← hput] at hrest
      refine answers_propertiesWithin_cons
        (by simp [writeProperties, writeName_ne_nil]) ?_
      exact answers_entry (hnames name List.mem_cons_self)
        (hchild _ List.mem_cons_self) hrest

theorem length_lt_length_writeProperties (properties : Properties) :
    properties.length < (writeProperties properties).length := by
  induction properties with
  | nil => decide
  | cons head rest ih =>
      obtain ⟨name, value⟩ := head
      have hname := List.length_pos_iff.mpr (writeName_ne_nil name)
      simp only [writeProperties, List.length_append, List.length_cons]
      omega

theorem answers_properties {properties : Properties}
    (hnames : ∀ name ∈ Table.keys properties, name ≠ "" ∧ AmfValue.IsShort name)
    (hnodup : (Table.keys properties).Nodup)
    (hchild : ∀ property ∈ properties, ReadsBack child budget property.2) :
    Answers (Amf0.properties lenient child) (writeProperties properties)
      (within budget (AmfValue.heightIn properties)
        (AmfValue.asWrittenIn properties)) := by
  -- The bound is the rest of the input, and every property takes a byte of it.
  have hlength : ∀ rest : Bytes,
      properties.length < (writeProperties properties ++ rest).length := by
    intro rest
    rw [List.length_append]
    exact Nat.lt_of_lt_of_le (length_lt_length_writeProperties properties)
      (Nat.le_add_right _ _)
  have hbounded : ∀ rest : Bytes, Answers
      (propertiesWithin lenient child (writeProperties properties ++ rest) [])
      (writeProperties properties)
      (within budget (AmfValue.heightIn properties)
        ([] ++ AmfValue.asWrittenIn properties)) :=
    fun rest => answers_propertiesWithin hnames hchild (hlength rest) hnodup
  exact fun tables rest => hbounded rest tables rest

/-! ## Bags and arrays -/

theorem reads_complete (slot : Nat) (value : AmfValue) :
    Reads (complete slot value) [] value :=
  fun _ rest => ⟨⟨_, rest⟩, rfl⟩

/-- What stands in front of the properties of a bag. -/
def opening : AmfValue.BagKind → (count : Nat) → Bytes
  | .object, _ => [0x03]
  | .ecmaArray, count => 0x08 :: Bytes.ofNumber 4 count
  | .typedObject className, _ => 0x10 :: writeName className

theorem write_fill (kind : AmfValue.BagKind) (properties : Properties) :
    write (kind.fill properties) =
      opening kind properties.length ++ writeProperties properties := by
  cases kind <;> rfl

/-- A bag behind its opening. -/
def filled (lenient : Bool) (child : Amf0Reader AmfValue) (kind : AmfValue.BagKind) :
    Amf0Reader AmfValue := do
  let slot ← reserve
  let found ← properties lenient child
  complete slot (kind.fill found)

theorem answers_opening {kind : AmfValue.BagKind} (hkind : kind.IsNamed) (count : Nat)
    {written : Bytes} {outcome : Except AmfError AmfValue}
    (hfilled : Answers (filled lenient child kind) written outcome) :
    Answers (marked (some (body lenient child))) (opening kind count ++ written)
      outcome := by
  cases kind with
  | object => exact Answers.marked hfilled
  | ecmaArray =>
      have hcount := reads_count32 (Bytes.length_ofNumber 4 count)
      exact Answers.marked (Reads.bind hcount hfilled)
  | typedObject className =>
      exact Answers.marked (Reads.bind (reads_writeName hkind) hfilled)

theorem readsBack_fill {kind : AmfValue.BagKind} {properties : Properties}
    (hregular : (kind.fill properties).IsRegular)
    (hnamed : (kind.fill properties).IsNamed)
    (hchild : ∀ part ∈ (kind.fill properties).parts, ReadsBack child budget part) :
    ReadsBack (marked (some (body lenient child))) (budget + 1)
      (kind.fill properties) := by
  rw [AmfValue.isRegular_fill] at hregular
  rw [AmfValue.isNamed_fill] at hnamed
  rw [AmfValue.parts_fill] at hchild
  have hproperties :
      Answers (Amf0.properties lenient child) (writeProperties properties) _ :=
    answers_properties hnamed.2 hregular fun property hproperty =>
      hchild property.2 (List.mem_map_of_mem hproperty)
  have hfilled : Answers (filled lenient child kind) (writeProperties properties) _ :=
    answers_update fun slot => hproperties.finish fun found =>
      reads_complete slot (kind.fill found)
  rw [map_within, ← within_succ, AmfValue.heightIn_eq_heightAmong,
    ← AmfValue.asWritten_fill] at hfilled
  rw [ReadsBack, write_fill, AmfValue.height_eq, AmfValue.parts_fill]
  exact answers_opening hnamed.1 properties.length hfilled

theorem readsBack_strictArray {items : List AmfValue}
    (hlength : items.length < 4294967296)
    (hchild : ∀ item ∈ items, ReadsBack child budget item) :
    ReadsBack (marked (some (body lenient child))) (budget + 1) (.strictArray items) := by
  have hfilled : Answers
      (do
        let slot ← reserve
        let found ← AmfReader.items child items.length []
        complete slot (.strictArray found))
      (writeItems items) _ :=
    answers_update fun slot => (answers_items hchild []).finish fun found =>
      reads_complete slot (.strictArray found)
  rw [map_within, ← within_succ, List.reverse_nil, List.nil_append,
    ← AmfValue.asWrittenAmong_eq_map] at hfilled
  exact Answers.marked (Reads.bind (reads_count32_ofNumber hlength) hfilled)

end Parts

/-! ## Whole values -/

theorem readsBack_valueWithin (lenient : Bool) (budget : Nat) {value : AmfValue}
    (hwritable : value.IsWritable) :
    ReadsBack (valueWithin lenient budget) budget value := by
  -- The parts of a value are read with one less to go.
  induction budget generalizing value with
  | zero =>
      rw [ReadsBack, within_of_lt (AmfValue.height_pos value)]
      exact answers_marked_none (write_ne_nil value)
  | succ budget ih =>
      have hparts : ∀ part ∈ value.parts,
          ReadsBack (valueWithin lenient budget) budget part :=
        fun part hpart => ih (hwritable.part hpart)
      obtain ⟨kind, properties, rfl⟩ | ⟨items, rfl⟩ | hleaf := value.bag_or_array_or_leaf
      · exact readsBack_fill hwritable.regular.here hwritable.named.here hparts
      · exact readsBack_strictArray hwritable.regular.here hparts
      · rw [ReadsBack, AmfValue.height_of_isLeaf hleaf,
          within_of_le (Nat.le_add_left 1 budget)]
        exact reads_leaf lenient _ hleaf hwritable.regular.here

/-- Values in a row come back, whatever order their properties were written in,
and the bytes behind them are left. -/
theorem items_writeItems {values arranged : List AmfValue}
    (harranged : List.Forall₂ AmfValue.Alike values arranged)
    (hwritable : ∀ value ∈ values, value.IsWritable)
    (hheight : ∀ value ∈ values, value.height ≤ AmfValue.maximumNesting)
    (lenient : Bool) (tables : Amf0Tables) (rest : Bytes) :
    ∃ decoded after,
      AmfReader.items (value lenient) values.length []
          ⟨tables, writeItems arranged ++ rest⟩ = .ok decoded ⟨after, rest⟩ ∧
        List.Forall₂ AmfValue.Alike (values.map AmfValue.asWritten) decoded := by
  have hback : ∀ written ∈ arranged,
      ReadsBack (value lenient) AmfValue.maximumNesting written := by
    intro written hwritten
    obtain ⟨original, horiginal, halike⟩ := AmfValue.exists_alike harranged hwritten
    exact readsBack_valueWithin lenient _
      (halike.isWritable (hwritable original horiginal))
  have hlow : AmfValue.heightAmong arranged ≤ AmfValue.maximumNesting := by
    rw [← AmfValue.heightAmong_alike harranged, AmfValue.heightAmong_le_iff]
    exact hheight
  have hitems := answers_items hback []
  rw [within_of_le hlow, ← harranged.length_eq] at hitems
  obtain ⟨after, hread⟩ := hitems tables rest
  exact ⟨_, after.tables, hread, AmfValue.forall₂_asWritten harranged⟩

theorem items_writeItems_of_swapped :
    ∃ decoded after,
      AmfReader.items (value false) 2 []
          ⟨{}, writeItems [.ecmaArray [("data", .byteArray [7]), ("width", .integer 3)],
            .strictArray [.text "live", .undefined]] ++ [0x09]⟩ =
          .ok decoded ⟨after, [0x09]⟩ ∧
        List.Forall₂ AmfValue.Alike
          [.ecmaArray [("width", .number (.ofInt 3)), ("data", .null)],
            .strictArray [.text "live", .undefined]] decoded := by
  have harranged : List.Forall₂ AmfValue.Alike
      [.ecmaArray [("width", .integer 3), ("data", .byteArray [7])],
        .strictArray [.text "live", .undefined]]
      [.ecmaArray [("data", .byteArray [7]), ("width", .integer 3)],
        .strictArray [.text "live", .undefined]] :=
    .cons (.reordered .ecmaArray (List.Perm.swap _ _ _)) (.cons (.refl _) .nil)
  refine items_writeItems harranged ?_ (by decide) false {} [0x09]
  simp only [List.forall_mem_cons]
  refine ⟨.node (by decide) (by decide) ?_, .node (by decide) trivial ?_,
    List.forall_mem_nil _⟩
  · simp only [AmfValue.parts, List.map_cons, List.forall_mem_cons]
    exact ⟨.leaf trivial trivial rfl, .leaf trivial trivial rfl, List.forall_mem_nil _⟩
  · simp only [AmfValue.parts, List.forall_mem_cons]
    exact ⟨.leaf (by decide) trivial rfl, .leaf trivial trivial rfl,
      List.forall_mem_nil _⟩

end Amf0

end LiveRelay
