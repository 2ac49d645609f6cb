import LiveRelay.Proofs.AmfRoundTrip

/-!
# Values that are cut off

Input that ends inside a value is an error, but an object may end with the
input.  So of a value that is cut off a lenient reader finds nothing, or it
finds an object without the properties behind the cut, or a value that ends with
such an object.  In either case it has come to the end of the input.
-/

namespace LiveRelay

namespace AmfValue

/-- What the input has of a value, if it ends inside an object. -/
inductive CutOff : AmfValue → AmfValue → Prop
  | between (kind : BagKind) (before behind : Properties) :
      CutOff (kind.fill (before ++ behind)) (kind.fill before)
  | within (kind : BagKind) (before behind : Properties) (name : String)
      {value left : AmfValue} (hcut : CutOff value left) :
      CutOff (kind.fill (before ++ (name, value) :: behind))
        (kind.fill (before ++ [(name, left)]))
  | last (before : List AmfValue) {item left : AmfValue} (hcut : CutOff item left) :
      CutOff (.strictArray (before ++ [item])) (.strictArray (before ++ [left]))

namespace CutOff

theorem not_isLeaf_asWritten {value left : AmfValue} (hcut : CutOff value left) :
    ¬ left.asWritten.IsLeaf := by
  cases hcut with
  | between kind before behind => cases kind <;> exact id
  | within kind before behind name hcut => cases kind <;> exact id
  | last before hcut => exact id

theorem height_le {value left : AmfValue} (hcut : CutOff value left) :
    left.height ≤ value.height := by
  induction hcut with
  | between kind before behind =>
      simp only [height_eq (kind.fill _), parts_fill, List.map_append, heightAmong_append]
      exact Nat.succ_le_succ (Nat.le_max_left _ _)
  | @within kind before behind name value left hcut ih =>
      simp only [height_eq (kind.fill _), parts_fill, List.map_append, List.map_cons,
        List.map_nil, heightAmong_append, heightAmong]
      omega
  | @last before item left hcut ih =>
      simp only [height_eq (.strictArray _), parts, heightAmong_append, heightAmong]
      omega

theorem isWritable {value left : AmfValue} (hcut : CutOff value left)
    (hvalue : value.IsWritable) : left.IsWritable := by
  have hbag : ∀ (kind : BagKind) (before behind found : Properties),
      (kind.fill (before ++ behind)).IsWritable → (Table.keys found).Sublist
        (Table.keys (before ++ behind)) → (∀ part ∈ found.map Prod.snd, part.IsWritable) →
      (kind.fill found).IsWritable := by
    intro kind before behind found hwhole hkeys hparts
    have hregular := (isRegular_fill kind _).mp hwhole.regular.here
    have hnamed := (isNamed_fill kind _).mp hwhole.named.here
    refine .node ((isRegular_fill kind _).mpr (hregular.sublist hkeys))
      ((isNamed_fill kind _).mpr ⟨hnamed.1, fun name hname => hnamed.2 name (hkeys.mem hname)⟩) ?_
    rwa [parts_fill]
  induction hcut with
  | between kind before behind =>
      refine hbag kind before behind before hvalue ?_ fun part hpart => hvalue.part ?_
      · rw [Table.keys, Table.keys, List.map_append]
        exact List.sublist_append_left _ _
      · rw [parts_fill, List.map_append]
        exact List.mem_append_left _ hpart
  | @within kind before behind name value left hcut ih =>
      have hparts : ∀ part ∈ before.map Prod.snd ++ [value], part.IsWritable := by
        intro part hpart
        apply hvalue.part
        simp only [parts_fill, List.map_append, List.map_cons, List.mem_append, List.mem_cons,
          List.not_mem_nil, or_false] at hpart ⊢
        tauto
      refine hbag kind before ((name, value) :: behind) _ hvalue ?_ fun part hpart => ?_
      · simp [Table.keys]
      · simp only [List.map_append, List.map_cons, List.map_nil, List.mem_append,
          List.mem_singleton] at hpart
        obtain hbefore | rfl := hpart
        · exact hparts part (List.mem_append_left _ hbefore)
        · exact ih (hparts value (by simp))
  | @last before item left hcut ih =>
      have hlength : (before ++ [left]).length = (before ++ [item]).length := by simp
      have hregular : (AmfValue.strictArray (before ++ [left])).IsRegular := by
        have hwhole := hvalue.regular.here
        rwa [IsRegular, ← hlength] at hwhole
      refine .node hregular trivial fun part hpart => ?_
      simp only [parts, List.mem_append, List.mem_singleton] at hpart
      obtain hbefore | rfl := hpart
      · exact hvalue.part (by simp [parts, hbefore])
      · exact ih (hvalue.part (by simp [parts]))

end CutOff

/-- What the input has of the properties of a bag. -/
inductive CutIn : Properties → Properties → Prop
  | between (before behind : Properties) : CutIn (before ++ behind) before
  | within (before behind : Properties) (name : String) {value left : AmfValue}
      (hcut : CutOff value left) :
      CutIn (before ++ (name, value) :: behind) (before ++ [(name, left)])

namespace CutIn

theorem fill {whole left : Properties} (hcut : CutIn whole left) (kind : BagKind) :
    CutOff (kind.fill whole) (kind.fill left) := by
  cases hcut with
  | between _ behind => exact .between kind left behind
  | within before behind name hcut => exact .within kind before behind name hcut

theorem cons {whole left : Properties} (hcut : CutIn whole left) (property : String × AmfValue) :
    CutIn (property :: whole) (property :: left) := by
  cases hcut with
  | between _ behind => exact .between (property :: left) behind
  | within before behind name hcut => exact .within (property :: before) behind name hcut

end CutIn

end AmfValue

namespace AmfReader

variable {Tables α β : Type}

/-- The reader has come to the end of the input. -/
def EndsEarly (left : α → Prop) : EStateM.Result AmfError (AmfCursor Tables) α → Prop
  | .ok found after => left found ∧ after.rest = []
  | .error error _ => error = .unexpectedEnd

/-- What becomes of input that is only a part of these bytes, and no longer than
the limit. -/
def EndsWithin (limit : Nat) (reader : AmfReader Tables α) (written : Bytes)
    (left : α → Prop) : Prop :=
  ∀ known part lacking, part.length ≤ limit → lacking ≠ [] → part ++ lacking = written →
    EndsEarly left (reader ⟨known, part⟩)

/-- Nothing is found in a part of these bytes. -/
abbrev Needs (limit : Nat) (reader : AmfReader Tables α) (written : Bytes) : Prop :=
  EndsWithin limit reader written fun _ => False

section EndsWithin

variable {limit : Nat} {reader : AmfReader Tables α} {next : α → AmfReader Tables β}
  {first second : Bytes} {early : α → Prop} {left : β → Prop}

/-! ## Rules -/

theorem EndsEarly.imp {better : α → Prop} {result : EStateM.Result AmfError (AmfCursor Tables) α}
    (hends : EndsEarly early result) (himp : ∀ found, early found → better found) :
    EndsEarly better result := by
  cases result with
  | ok found after => exact ⟨himp found hends.1, hends.2⟩
  | error error after => exact hends

theorem EndsWithin.imp {better : α → Prop} (hends : EndsWithin limit reader first early)
    (himp : ∀ found, early found → better found) : EndsWithin limit reader first better :=
  fun known part lacking hlimit hlacking hsplit =>
    (hends known part lacking hlimit hlacking hsplit).imp himp

theorem EndsWithin.mono {less : Nat} (hends : EndsWithin limit reader first early)
    (hless : less ≤ limit) : EndsWithin less reader first early :=
  fun known part lacking hlimit => hends known part lacking (Nat.le_trans hlimit hless)

theorem endsWithin_nil (limit : Nat) (reader : AmfReader Tables α) (early : α → Prop) :
    EndsWithin limit reader [] early :=
  fun _ _ _ _ hlacking hsplit => absurd (List.append_eq_nil_iff.mp hsplit).2 hlacking

theorem endsEarly_bind {cursor : AmfCursor Tables} (hends : EndsEarly early (reader cursor))
    (hempty : ∀ found known, early found → EndsEarly left (next found ⟨known, []⟩)) :
    EndsEarly left ((reader >>= next) cursor) := by
  cases hrun : reader cursor with
  | ok found after =>
      rw [hrun] at hends
      obtain ⟨known, rest⟩ := after
      obtain ⟨hfound, rfl⟩ := hends
      rw [bind_of_ok hrun]
      exact hempty found known hfound
  | error error after =>
      rw [hrun] at hends
      rw [bind_of_error hrun]
      exact hends

theorem EndsWithin.finish (hends : EndsWithin limit reader first early)
    (hempty : ∀ found known, early found → EndsEarly left (next found ⟨known, []⟩)) :
    EndsWithin limit (reader >>= next) first left :=
  fun known part lacking hlimit hlacking hsplit =>
    endsEarly_bind (hends known part lacking hlimit hlacking hsplit) hempty

theorem EndsWithin.bind {middle : α} (hends : EndsWithin limit reader first early)
    (hempty : ∀ found known, early found → EndsEarly left (next found ⟨known, []⟩))
    (hreads : Reads reader first middle)
    (hnext : EndsWithin (limit - first.length) (next middle) second left) :
    EndsWithin limit (reader >>= next) (first ++ second) left := by
  intro known part lacking hlimit hlacking hsplit
  have hbehind : ∀ rest, part = first ++ rest → second = rest ++ lacking →
      EndsEarly left ((reader >>= next) ⟨known, part⟩) := by
    rintro rest rfl hsecond
    obtain ⟨after, hrun⟩ := hreads known rest
    rw [bind_of_ok hrun]
    rw [List.length_append] at hlimit
    exact hnext after.tables rest lacking (by omega) hlacking hsecond.symm
  rcases List.append_eq_append_iff.mp hsplit with ⟨missing, hfirst, hmissing⟩ |
    ⟨rest, hpart, hsecond⟩
  · by_cases hwhole : missing = []
    · -- The cut lies between the readers, so the second one has no bytes at all.
      subst hwhole
      exact hbehind [] (by rw [hfirst, List.append_nil, List.append_nil]) hmissing.symm
    · exact endsEarly_bind (hends known part missing hlimit hwhole hfirst.symm) hempty
  · exact hbehind rest hpart hsecond

theorem Needs.bind {middle : α} (hneeds : Needs limit reader first)
    (hreads : Reads reader first middle)
    (hnext : EndsWithin (limit - first.length) (next middle) second left) :
    EndsWithin limit (reader >>= next) (first ++ second) left :=
  EndsWithin.bind hneeds (fun _ _ => False.elim) hreads hnext

theorem Needs.finish (hneeds : Needs limit reader first) (next : α → AmfReader Tables β) :
    Needs limit (reader >>= next) first :=
  EndsWithin.finish hneeds fun _ _ => False.elim

theorem endsWithin_update {change : Tables → α × Tables}
    (hnext : ∀ found, EndsWithin limit (next found) second left) :
    EndsWithin limit (update change >>= next) second left :=
  fun known part => hnext (change known).1 (change known).2 part

theorem EndsWithin.marked {read : UInt8 → AmfReader Tables AmfValue} {marker : UInt8}
    {early : AmfValue → Prop} (hends : EndsWithin limit (read marker) first early) :
    EndsWithin limit (AmfReader.marked (some read)) (marker :: first) early := by
  intro known part lacking hlimit hlacking hsplit
  cases part with
  | nil => rfl
  | cons head part =>
      obtain ⟨rfl, hrest⟩ := List.cons.inj hsplit
      exact hends known part lacking (Nat.le_of_succ_le hlimit) hlacking hrest

/-! ## Fields -/

theorem needs_take {count : Nat} {taken : Bytes} (hcount : taken.length = count) :
    Needs limit (take count : AmfReader Tables Bytes) taken := by
  rintro known part lacking - hlacking rfl
  have hshort : ¬ count ≤ part.length := by
    have hpos := List.length_pos_iff.mpr hlacking
    rw [List.length_append] at hcount
    omega
  simp only [take, Bytes.split?_eq, if_neg hshort]
  exact rfl

theorem needs_byte (first : UInt8) : Needs limit (byte : AmfReader Tables UInt8) [first] := by
  intro known part lacking _ hlacking hsplit
  cases part with
  | nil => rfl
  | cons head part =>
      exact absurd (List.append_eq_nil_iff.mp (List.cons.inj hsplit).2).2 hlacking

theorem needs_binary64 (value : Binary64) :
    Needs limit (binary64 : AmfReader Tables Binary64) (Bytes.ofWord64 value.bits) :=
  (needs_take (Bytes.length_ofNumber 8 _)).finish _

theorem needs_text (content : String) :
    Needs limit (text (Bytes.ofText content).length : AmfReader Tables String)
      (Bytes.ofText content) :=
  (needs_take rfl).finish _

end EndsWithin

end AmfReader

namespace Amf0

open AmfReader

/-- What is found of a value that is cut off. -/
def IsLeft (value found : AmfValue) : Prop :=
  ∃ left, value.CutOff left ∧ found = left.asWritten

/-! ## Fields -/

variable {limit : Nat}

theorem needs_count32 {bytes : Bytes} (hlength : bytes.length = 4) :
    Needs limit count32 bytes :=
  (needs_take hlength).finish _

theorem needs_shortText {content : String} (hshort : AmfValue.IsShort content) :
    Needs limit shortText
      (Bytes.ofNumber 2 (Bytes.ofText content).length ++ Bytes.ofText content) := by
  have hlt : (Bytes.ofText content).length < Bytes.capacity 2 := Nat.lt_succ_of_le hshort
  have hlength := Bytes.length_ofNumber 2 (Bytes.ofText content).length
  have hcount := reads_count16 hlength
  rw [Bytes.number_ofNumber_of_lt hlt] at hcount
  have hneeds : Needs limit count16 (Bytes.ofNumber 2 (Bytes.ofText content).length) :=
    (needs_take hlength).finish _
  exact hneeds.bind hcount (needs_text content)

theorem needs_longText {content : String}
    (hlength : (Bytes.ofText content).length < 4294967296) :
    Needs limit longText
      (Bytes.ofNumber 4 (Bytes.ofText content).length ++ Bytes.ofText content) :=
  (needs_count32 (Bytes.length_ofNumber 4 _)).bind (reads_count32_ofNumber hlength)
    (needs_text content)

theorem needs_writeName {name : String} (hshort : AmfValue.IsShort name) :
    Needs limit shortText (writeName name) := by
  have hwhole : (Bytes.ofText name).take 0xFFFF = Bytes.ofText name :=
    List.take_of_length_le hshort
  simp only [writeName, hwhole]
  exact needs_shortText hshort

theorem needs_leaf (child : Amf0Reader AmfValue) {value : AmfValue} (hleaf : value.IsLeaf)
    (hregular : value.IsRegular) :
    Needs limit (marked (some (body true child))) (write value) := by
  have hnumber : ∀ number : Binary64,
      Needs limit (marked (some (body true child))) (0x00 :: Bytes.ofWord64 number.bits) :=
    fun number => EndsWithin.marked ((needs_binary64 number).finish _)
  cases value with
  | null => exact EndsWithin.marked (endsWithin_nil _ _ _)
  | undefined => exact EndsWithin.marked (endsWithin_nil _ _ _)
  | byteArray content => exact EndsWithin.marked (endsWithin_nil _ _ _)
  | boolean flag => exact EndsWithin.marked ((needs_byte _).finish _)
  | number value => exact hnumber value
  | integer value => exact hnumber (.ofInt value.toInt)
  | text content =>
      simp only [write, writeText, List.cons_append]
      split
      · exact EndsWithin.marked ((needs_longText hregular).finish _)
      · rename_i hshort
        exact EndsWithin.marked ((needs_shortText (Nat.le_of_not_lt hshort)).finish _)
  | date milliseconds =>
      have hlength : (Bytes.ofWord64 milliseconds.bits ++ [0, 0]).length = 10 := by
        rw [List.length_append, Bytes.ofWord64, Bytes.length_ofNumber]
        rfl
      exact EndsWithin.marked ((needs_take hlength).finish _)
  | xml content => exact EndsWithin.marked ((needs_longText hregular).finish _)
  | object properties => exact hleaf.elim
  | ecmaArray properties => exact hleaf.elim
  | typedObject className properties => exact hleaf.elim
  | strictArray items => exact hleaf.elim

/-! ## Parts -/

/-- The child reads the parts that are whole, and comes to the end in those that
are not. -/
structure ReadsParts (child : Amf0Reader AmfValue) (parts : List AmfValue) : Prop where
  whole : ∀ part ∈ parts, Reads child (write part) part.asWritten
  cut : ∀ part ∈ parts, ∀ limit, EndsWithin limit child (write part) (IsLeft part)
  atEnd : ∀ known, child ⟨known, []⟩ = .error .unexpectedEnd ⟨known, []⟩

theorem ReadsParts.behind {child : Amf0Reader AmfValue} {part : AmfValue}
    {parts : List AmfValue} (hparts : ReadsParts child (part :: parts)) :
    ReadsParts child parts where
  whole other hother := hparts.whole other (List.mem_cons_of_mem _ hother)
  cut other hother := hparts.cut other (List.mem_cons_of_mem _ hother)
  atEnd := hparts.atEnd

section Parts

variable {child : Amf0Reader AmfValue}

/-- An array is found only if it is cut off inside its last item. -/
theorem endsWithin_items {items : List AmfValue} (hparts : ReadsParts child items)
    (done : List AmfValue) :
    EndsWithin limit (AmfReader.items child items.length done) (writeItems items)
      (fun found => ∃ before item left, items = before ++ [item] ∧ item.CutOff left ∧
        found = done.reverse ++ (before ++ [left]).map AmfValue.asWritten) := by
  induction items generalizing done limit with
  | nil => exact endsWithin_nil _ _ _
  | cons item items ih =>
      refine (hparts.cut item List.mem_cons_self limit).bind ?_
        (hparts.whole item List.mem_cons_self)
        ((ih hparts.behind (item.asWritten :: done)).imp ?_)
      · rintro found known ⟨left, hcut, rfl⟩
        cases items with
        | nil =>
            refine ⟨⟨[], item, left, rfl, hcut, ?_⟩, rfl⟩
            simp
        | cons other items =>
            change EndsEarly _ ((child >>= _) _)
            rw [bind_of_error (hparts.atEnd known)]
            exact rfl
      · rintro found ⟨before, last, left, rfl, hcut, rfl⟩
        exact ⟨item :: before, last, left, rfl, hcut, by simp⟩

/-! ## Properties -/

theorem propertiesWithin_nil (room : Bytes) (done : Properties) (known : Amf0Tables) :
    propertiesWithin true child room done ⟨known, []⟩ = .ok done ⟨known, []⟩ := by
  cases room <;> rfl

/-- Behind the empty name the end marker may be missing. -/
theorem endsWithin_entry_end (next : Properties → Amf0Reader Properties) (done : Properties) :
    EndsWithin limit (entry true child next done) objectEndMark (· = done) := by
  have hname : Reads shortText [0, 0] "" := @reads_shortText "" (Nat.zero_le _)
  have hneeds : Needs limit shortText [0, 0] := @needs_shortText limit "" (Nat.zero_le _)
  have hclosed : EndsWithin (limit - 2)
      (do objectEnd true; return done : Amf0Reader Properties) [0x09] (· = done) := by
    intro known part lacking _ hlacking hsplit
    cases part with
    | nil => exact ⟨rfl, rfl⟩
    | cons head part =>
        exact absurd (List.append_eq_nil_iff.mp (List.cons.inj hsplit).2).2 hlacking
  exact hneeds.bind hname hclosed

theorem endsWithin_of_turn {written : Bytes} {left : Properties → Prop} {room : Bytes}
    {done : Properties} (hdone : left done)
    (hturn : ∀ bound, room.length = bound.length + 1 → EndsWithin room.length
      (entry true child (propertiesWithin true child bound) done) written left) :
    EndsWithin room.length (propertiesWithin true child room done) written left := by
  intro known part lacking hlimit hlacking hsplit
  cases part with
  | nil =>
      rw [propertiesWithin_nil]
      exact ⟨hdone, rfl⟩
  | cons head part =>
      obtain ⟨first, bound, rfl⟩ :=
        List.exists_cons_of_length_pos (Nat.lt_of_lt_of_le (Nat.succ_pos _) hlimit)
      rw [propertiesWithin_cons first bound done (List.cons_ne_nil head part)]
      exact hturn bound rfl known (head :: part) lacking hlimit hlacking hsplit

/-- The properties in front of the cut, and perhaps an object that is cut off. -/
def IsLeftIn (members done found : Properties) : Prop :=
  ∃ left, AmfValue.CutIn members left ∧ found = done ++ AmfValue.asWrittenIn left

theorem isLeftIn_nil (members done : Properties) : IsLeftIn members done done :=
  ⟨[], .between [] members, (List.append_nil done).symm⟩

theorem endsWithin_propertiesWithin {members : Properties}
    (hnames : ∀ name ∈ Table.keys members, name ≠ "" ∧ AmfValue.IsShort name)
    (hparts : ReadsParts child (members.map Prod.snd)) {room : Bytes} {done : Properties}
    (hdistinct : (Table.keys (done ++ members)).Nodup) :
    EndsWithin room.length (propertiesWithin true child room done) (writeProperties members)
      (IsLeftIn members done) := by
  induction members generalizing room done with
  | nil =>
      refine endsWithin_of_turn (isLeftIn_nil [] done) fun bound hbound => ?_
      refine (endsWithin_entry_end _ done).imp ?_
      rintro found rfl
      exact isLeftIn_nil [] found
  | cons member members ih =>
      obtain ⟨name, value⟩ := member
      obtain ⟨hne, hshort⟩ := hnames name List.mem_cons_self
      have hmore : name.isEmpty = false := by simpa using hne
      -- The name is new, so the property goes behind what is done.
      have hput := Table.put_of_notMem (Table.notMem_keys_of_nodup hdistinct)
      have hbehind := Table.nodup_keys_put_append hdistinct value.asWritten
      have hnamesBehind : ∀ name ∈ Table.keys members, name ≠ "" ∧ AmfValue.IsShort name :=
        fun other hother => hnames other (List.mem_cons_of_mem _ hother)
      refine endsWithin_of_turn (isLeftIn_nil _ done) fun bound hbound => ?_
      rw [writeProperties, List.append_assoc]
      refine (needs_writeName hshort).bind (reads_writeName hshort) ?_
      rw [hmore]
      refine (hparts.cut value List.mem_cons_self _).bind ?_
        (hparts.whole value List.mem_cons_self) ?_
      · rintro found known ⟨left, hcut, rfl⟩
        rw [propertiesWithin_nil, hput]
        exact ⟨⟨[(name, left)], .within [] members name hcut, rfl⟩, rfl⟩
      · refine ((ih hnamesBehind hparts.behind hbehind).mono ?_).imp ?_
        · have hname := List.length_pos_iff.mpr (writeName_ne_nil name)
          omega
        · rintro found ⟨left, hcut, rfl⟩
          refine ⟨(name, value) :: left, hcut.cons (name, value), ?_⟩
          rw [hput, List.append_assoc]
          rfl

theorem endsWithin_properties {members : Properties}
    (hnames : ∀ name ∈ Table.keys members, name ≠ "" ∧ AmfValue.IsShort name)
    (hparts : ReadsParts child (members.map Prod.snd))
    (hdistinct : (Table.keys members).Nodup) :
    EndsWithin limit (properties true child) (writeProperties members)
      (IsLeftIn members []) := by
  intro known part lacking _ hlacking hsplit
  have hloop : EndsWithin part.length (propertiesWithin true child part [])
      (writeProperties members) (IsLeftIn members []) :=
    endsWithin_propertiesWithin hnames hparts hdistinct
  exact hloop known part lacking (Nat.le_refl _) hlacking hsplit

/-! ## Bags and arrays -/

theorem endsWithin_fill {kind : AmfValue.BagKind} {members : Properties}
    (hregular : (kind.fill members).IsRegular) (hnamed : (kind.fill members).IsNamed)
    (hparts : ReadsParts child (kind.fill members).parts) :
    EndsWithin limit (marked (some (body true child))) (write (kind.fill members))
      (IsLeft (kind.fill members)) := by
  rw [AmfValue.isRegular_fill] at hregular
  rw [AmfValue.isNamed_fill] at hnamed
  rw [AmfValue.parts_fill] at hparts
  have hfilled : ∀ limit, EndsWithin limit (filled true child kind) (writeProperties members)
      (IsLeft (kind.fill members)) := by
    intro limit
    refine endsWithin_update fun slot => ?_
    refine (endsWithin_properties hnamed.2 hparts hregular).finish ?_
    rintro found known ⟨left, hcut, rfl⟩
    refine ⟨⟨kind.fill left, hcut.fill kind, ?_⟩, rfl⟩
    rw [AmfValue.asWritten_fill]
    rfl
  rw [write_fill]
  cases kind with
  | object => exact EndsWithin.marked (hfilled _)
  | ecmaArray =>
      have hlength := Bytes.length_ofNumber 4 members.length
      exact EndsWithin.marked ((needs_count32 hlength).bind (reads_count32 hlength) (hfilled _))
  | typedObject className =>
      exact EndsWithin.marked
        ((needs_writeName hnamed.1).bind (reads_writeName hnamed.1) (hfilled _))

theorem endsWithin_strictArray {items : List AmfValue} (hlength : items.length < 4294967296)
    (hparts : ReadsParts child items) :
    EndsWithin limit (marked (some (body true child))) (write (.strictArray items))
      (IsLeft (.strictArray items)) := by
  have hneeds : Needs limit count32 (Bytes.ofNumber 4 items.length) :=
    needs_count32 (Bytes.length_ofNumber 4 items.length)
  refine EndsWithin.marked (hneeds.bind (reads_count32_ofNumber hlength) ?_)
  refine endsWithin_update fun slot => (endsWithin_items hparts []).finish ?_
  rintro found known ⟨before, item, left, rfl, hcut, rfl⟩
  refine ⟨⟨.strictArray (before ++ [left]), .last before hcut, ?_⟩, rfl⟩
  rw [AmfValue.asWritten, AmfValue.asWrittenAmong_eq_map]
  rfl

end Parts

/-! ## Whole values -/

theorem valueWithin_nil (lenient : Bool) (budget : Nat) (known : Amf0Tables) :
    valueWithin lenient budget ⟨known, []⟩ = .error .unexpectedEnd ⟨known, []⟩ := by
  cases budget <;> rfl

/-- Of a value that is cut off nothing is found, or an object without the
properties behind the cut, or a value that ends with such an object.  No byte is
left then. -/
theorem endsWithin_valueWithin {value : AmfValue} (hwritable : value.IsWritable) {budget : Nat}
    (hheight : value.height ≤ budget) :
    EndsWithin limit (valueWithin true budget) (write value) (IsLeft value) := by
  induction budget generalizing value limit with
  | zero => exact absurd hheight (Nat.not_le_of_lt value.height_pos)
  | succ budget ih =>
      have hlow : ∀ part ∈ value.parts, part.height ≤ budget := by
        rw [AmfValue.height_eq, Nat.succ_le_succ_iff] at hheight
        exact AmfValue.heightAmong_le_iff.mp hheight
      have hparts : ReadsParts (valueWithin true budget) value.parts := by
        refine ⟨fun part hpart => ?_, fun part hpart limit => ?_, valueWithin_nil true budget⟩
        · have hback := readsBack_valueWithin true budget (hwritable.part hpart)
          rwa [ReadsBack, within_of_le (hlow part hpart)] at hback
        · exact ih (hwritable.part hpart) (hlow part hpart)
      obtain ⟨kind, properties, rfl⟩ | ⟨items, rfl⟩ | hleaf := value.bag_or_array_or_leaf
      · exact endsWithin_fill hwritable.regular.here hwritable.named.here hparts
      · exact endsWithin_strictArray hwritable.regular.here hparts
      · exact (needs_leaf _ hleaf hwritable.regular.here).imp fun _ => False.elim

end Amf0

end LiveRelay
