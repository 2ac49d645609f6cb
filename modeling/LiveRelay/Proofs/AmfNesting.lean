import LiveRelay.Proofs.AmfDecoded

/-!
# How high values get

The nesting budget bounds how deep a reader goes.  It does not bound the values
that are found, for a reference stands for a whole value.  What bounds them is
the number of values that have an index.  A value takes its index before its
parts are read, so of these values some are still open.  No value is higher
than those that are complete, put into each other, and one more.

There is no better bound: every value may refer to the one before it.
-/

namespace LiveRelay

namespace AmfValue

theorem heightIn_le_iff {properties : Properties} {bound : Nat} :
    heightIn properties ≤ bound ↔ ∀ property ∈ properties, property.2.height ≤ bound := by
  rw [heightIn_eq_heightAmong, heightAmong_le_iff, List.forall_mem_map]

theorem heightIn_put_le (properties : Properties) (name : String) (value : AmfValue) :
    heightIn (properties.put name value) ≤ max value.height (heightIn properties) := by
  rw [heightIn_le_iff]
  intro property hproperty
  rcases Table.mem_of_mem_put hproperty with rfl | hold
  · exact Nat.le_max_left _ _
  · exact Nat.le_trans (heightIn_le_iff.mp (Nat.le_refl _) property hold)
      (Nat.le_max_right _ _)

theorem height_fill (kind : BagKind) (properties : Properties) :
    (kind.fill properties).height = heightIn properties + 1 := by
  cases kind <;> rfl

end AmfValue

namespace AmfReader

variable {Tables α β : Type}

/-! ## Levels -/

/-- Of the values with an index some are open, and read as null until they are
complete.  None is higher than the level, which rises by one with every value
that is completed. -/
structure IsLow (indexed : List AmfValue) (opened level : Nat) : Prop where
  length_eq : indexed.length + 1 = opened + level
  level_pos : 0 < level
  height_le : ∀ value ∈ indexed, value.height ≤ level

/-- What is open when a reader fails stays null. -/
theorem IsLow.abandon {indexed : List AmfValue} {opened level : Nat}
    (hlow : IsLow indexed opened level) : IsLow indexed 0 (opened + level) where
  length_eq := by rw [hlow.length_eq, Nat.zero_add]
  level_pos := Nat.add_pos_right _ hlow.level_pos
  height_le value hvalue :=
    Nat.le_trans (hlow.height_le value hvalue) (Nat.le_add_left _ _)

section IsLow

variable {indexed changed : List AmfValue} {opened level : Nat} {value : AmfValue}

theorem IsLow.afterTaking (hlow : IsLow indexed opened level)
    (hchanged : changed.Perm (.null :: indexed)) : IsLow changed (opened + 1) level where
  length_eq := by
    rw [hchanged.length_eq, List.length_cons, hlow.length_eq, Nat.add_right_comm]
  level_pos := hlow.level_pos
  height_le other hother := by
    rcases List.mem_cons.mp (hchanged.mem_iff.mp hother) with rfl | hold
    · exact hlow.level_pos
    · exact hlow.height_le other hold

theorem IsLow.afterJoining (hlow : IsLow indexed opened level)
    (hchanged : changed.Perm (value :: indexed)) (hheight : value.height ≤ level + 1) :
    IsLow changed opened (level + 1) where
  length_eq := by
    rw [hchanged.length_eq, List.length_cons, hlow.length_eq, Nat.add_assoc]
  level_pos := Nat.succ_pos level
  height_le other hother := by
    rcases List.mem_cons.mp (hchanged.mem_iff.mp hother) with rfl | hold
    · exact hheight
    · exact Nat.le_succ_of_le (hlow.height_le other hold)

theorem IsLow.afterCompleting (hlow : IsLow indexed (opened + 1) level)
    (hlength : changed.length = indexed.length)
    (hchanged : ∀ other ∈ changed, other ∈ indexed ∨ other = value)
    (hheight : value.height ≤ level + 1) : IsLow changed opened (level + 1) where
  length_eq := by
    rw [hlength, hlow.length_eq, Nat.add_right_comm, Nat.add_assoc]
  level_pos := Nat.succ_pos level
  height_le other hother := by
    rcases hchanged other hother with hold | rfl
    · exact Nat.le_succ_of_le (hlow.height_le other hold)
    · exact hheight

end IsLow

def Reaches (indexed : Tables → List AmfValue) (level after : Nat) (rank : α → Nat) :
    EStateM.Result AmfError (AmfCursor Tables) α → Prop
  | .ok found cursor => ∃ higher, level ≤ higher ∧
      IsLow (indexed cursor.tables) after higher ∧ rank found ≤ higher
  | .error _ cursor => ∃ higher, level ≤ higher ∧ IsLow (indexed cursor.tables) 0 higher

/-- Holding values that are not above the level, with `before` values open, a
reader comes to a level that what it finds is not above either. -/
def Climbs (indexed : Tables → List AmfValue) (before after held : Nat)
    (rank : α → Nat) (reader : AmfReader Tables α) : Prop :=
  ∀ cursor level, IsLow (indexed cursor.tables) before level → held ≤ level →
    Reaches indexed level after rank (reader cursor)

theorem Reaches.mono {indexed : Tables → List AmfValue} {level higher after : Nat}
    {rank : α → Nat} {result : EStateM.Result AmfError (AmfCursor Tables) α}
    (hle : level ≤ higher) (hreaches : Reaches indexed higher after rank result) :
    Reaches indexed level after rank result := by
  cases result with
  | ok found cursor =>
      obtain ⟨highest, hhighest, hlast⟩ := hreaches
      exact ⟨highest, Nat.le_trans hle hhighest, hlast⟩
  | error error cursor =>
      obtain ⟨highest, hhighest, hlast⟩ := hreaches
      exact ⟨highest, Nat.le_trans hle hhighest, hlast⟩

section Climbs

variable {indexed : Tables → List AmfValue} {before middle after opened held : Nat}
  {rank : α → Nat} {reader : AmfReader Tables α}

/-! ## Rules -/

theorem climbs_pure {found : α} (hrank : rank found ≤ max held 1) :
    Climbs indexed opened opened held rank (pure found) := by
  intro cursor level hlow hheld
  exact ⟨level, Nat.le_refl _, hlow,
    Nat.le_trans hrank (Nat.max_le.mpr ⟨hheld, hlow.level_pos⟩)⟩

theorem climbs_throw (error : AmfError) :
    Climbs indexed before after held rank (throw error) :=
  fun _ _ hlow _ => ⟨_, Nat.le_add_left _ _, hlow.abandon⟩

theorem Climbs.bind {next : α → AmfReader Tables β} {rise : β → Nat}
    (hfirst : Climbs indexed before middle held rank reader)
    (hnext : ∀ found, Climbs indexed middle after (rank found) rise (next found)) :
    Climbs indexed before after held rise (reader >>= next) := by
  intro cursor level hlow hheld
  have hreader := hfirst cursor level hlow hheld
  change Reaches indexed level after rise (EStateM.bind reader next cursor)
  unfold EStateM.bind
  cases hrun : reader cursor with
  | ok found between =>
      rw [hrun] at hreader
      obtain ⟨higher, hhigher, hbetween, hrank⟩ := hreader
      exact (hnext found between higher hbetween hrank).mono hhigher
  | error error between =>
      rw [hrun] at hreader
      exact hreader

/-- Levels only rise, so what is held besides stays below them. -/
theorem Climbs.beside (hclimbs : Climbs indexed before after held rank reader)
    (more : Nat) :
    Climbs indexed before after (max held more) (fun found => max (rank found) more)
      reader := by
  intro cursor level hlow hheld
  have hreader := hclimbs cursor level hlow (Nat.le_trans (Nat.le_max_left _ _) hheld)
  cases hrun : reader cursor with
  | ok found rest =>
      rw [hrun] at hreader
      obtain ⟨higher, hhigher, hrest, hrank⟩ := hreader
      exact ⟨higher, hhigher, hrest, Nat.max_le.mpr ⟨hrank,
        Nat.le_trans (Nat.le_trans (Nat.le_max_right _ _) hheld) hhigher⟩⟩
  | error error rest =>
      rw [hrun] at hreader
      exact hreader

theorem Climbs.imp {less : α → Nat} {more : Nat}
    (hclimbs : Climbs indexed before after held rank reader) (hheld : held ≤ more)
    (hrank : ∀ found, less found ≤ rank found) :
    Climbs indexed before after more less reader := by
  intro cursor level hlow hmore
  have hreader := hclimbs cursor level hlow (Nat.le_trans hheld hmore)
  cases hrun : reader cursor with
  | ok found rest =>
      rw [hrun] at hreader
      obtain ⟨higher, hhigher, hrest, hreached⟩ := hreader
      exact ⟨higher, hhigher, hrest, Nat.le_trans (hrank found) hreached⟩
  | error error rest =>
      rw [hrun] at hreader
      exact hreader

/-- A reader that leaves the indexed values alone. -/
theorem climbs_of_keeps
    (hkeeps : ∀ values, Keeps (indexed · = values) (fun _ => True) reader) :
    Climbs indexed opened opened held (fun _ => held) reader := by
  intro cursor level hlow hheld
  have hreader := hkeeps _ cursor rfl
  cases hrun : reader cursor with
  | ok found rest =>
      rw [hrun] at hreader
      exact ⟨level, Nat.le_refl _, hreader.1.symm ▸ hlow, hheld⟩
  | error error rest =>
      rw [hrun] at hreader
      have hsame : indexed rest.tables = indexed cursor.tables := hreader
      exact ⟨_, Nat.le_add_left _ _, hsame ▸ hlow.abandon⟩

/-- A value takes its index. -/
theorem climbs_taking {change : Tables → α × Tables}
    (hchange : ∀ known,
      (indexed (change known).2).Perm (.null :: indexed known)) :
    Climbs indexed opened (opened + 1) held (fun _ => held) (update change) :=
  fun cursor level hlow hheld =>
    ⟨level, Nat.le_refl _, hlow.afterTaking (hchange cursor.tables), hheld⟩

/-- A value without parts takes its index and is complete. -/
theorem climbs_joining {value : AmfValue} {change : Tables → Tables}
    (hchange : ∀ known, (indexed (change known)).Perm (value :: indexed known))
    (hheight : value.height ≤ held + 1) :
    Climbs indexed opened opened held AmfValue.height
      (update fun known => (value, change known)) := by
  intro cursor level hlow hheld
  have hlevel : value.height ≤ level + 1 :=
    Nat.le_trans hheight (Nat.succ_le_succ hheld)
  exact ⟨level + 1, Nat.le_succ _, hlow.afterJoining (hchange cursor.tables) hlevel, hlevel⟩

/-- A value that was open takes its place. -/
theorem climbs_completing {value : AmfValue} {change : Tables → Tables}
    (hlength : ∀ known, (indexed (change known)).length = (indexed known).length)
    (hchange : ∀ known, ∀ other ∈ indexed (change known),
      other ∈ indexed known ∨ other = value)
    (hheight : value.height ≤ held + 1) :
    Climbs indexed (opened + 1) opened held AmfValue.height
      (update fun known => (value, change known)) := by
  intro cursor level hlow hheld
  have hlevel : value.height ≤ level + 1 :=
    Nat.le_trans hheight (Nat.succ_le_succ hheld)
  exact ⟨level + 1, Nat.le_succ _,
    hlow.afterCompleting (hlength cursor.tables) (hchange cursor.tables) hlevel, hlevel⟩

/-- A value that has an index is not above the level. -/
theorem climbs_found {found : Tables → Option AmfValue} {error : AmfError}
    (hfound : ∀ known value, found known = some value → value ∈ indexed known) :
    Climbs indexed opened opened held AmfValue.height (do
      match found (← tables) with
      | some value => return value
      | none => throw error) := by
  intro cursor level hlow hheld
  change Reaches _ _ _ _
    ((match found cursor.tables with
      | some value => pure value
      | none => throw error : AmfReader Tables AmfValue) cursor)
  cases hcase : found cursor.tables with
  | none => exact ⟨_, Nat.le_add_left _ _, hlow.abandon⟩
  | some value =>
      exact ⟨level, Nat.le_refl _, hlow, hlow.height_le value (hfound _ value hcase)⟩

theorem climbs_marked_none {rank : AmfValue → Nat} :
    Climbs indexed opened opened held rank (marked none) := by
  rintro ⟨tables, rest⟩ level hlow _
  cases rest <;> exact ⟨_, Nat.le_add_left _ _, hlow.abandon⟩

theorem climbs_marked {read : UInt8 → AmfReader Tables AmfValue} {rank : AmfValue → Nat}
    (hread : ∀ marker, Climbs indexed opened opened held rank (read marker)) :
    Climbs indexed opened opened held rank (marked (some read)) := by
  rintro ⟨tables, rest⟩ level hlow hheld
  cases rest with
  | nil => exact ⟨_, Nat.le_add_left _ _, hlow.abandon⟩
  | cons marker rest => exact hread marker ⟨tables, rest⟩ level hlow hheld

theorem climbs_items {child : AmfReader Tables AmfValue}
    (hchild : Climbs indexed opened opened 0 AmfValue.height child) (count : Nat)
    (done : List AmfValue) :
    Climbs indexed opened opened (AmfValue.heightAmong done) AmfValue.heightAmong
      (items child count done) := by
  induction count generalizing done with
  | zero =>
      refine climbs_pure ?_
      rw [AmfValue.heightAmong_perm (List.reverse_perm done)]
      exact Nat.le_max_left _ _
  | succ count ih =>
      have hfirst := hchild.beside (AmfValue.heightAmong done)
      rw [Nat.zero_max] at hfirst
      exact hfirst.bind fun value => ih (value :: done)

end Climbs

end AmfReader

/-! ## The newer format -/

/-- The values that have an index. -/
def Amf0Tables.indexed (known : Amf0Tables) : List AmfValue :=
  known.references.toList ++ known.newer.objects.toList

namespace Amf0Tables

variable (references : Array AmfValue) (newer : Amf3Tables) (value : AmfValue)

theorem indexed_push_references :
    (mk (references.push value) newer).indexed.Perm (value :: (mk references newer).indexed) := by
  simp only [indexed, Array.toList_push, List.append_assoc, List.singleton_append]
  exact List.perm_middle

theorem indexed_push_objects :
    (mk references { newer with objects := newer.objects.push value }).indexed.Perm
      (value :: (mk references newer).indexed) := by
  simp only [indexed, Array.toList_push, ← List.append_assoc]
  exact List.perm_append_singleton _ _

theorem mem_indexed {other : AmfValue} :
    other ∈ (mk references newer).indexed ↔ other ∈ references ∨ other ∈ newer.objects := by
  simp [indexed]

theorem mem_indexed_set_references (slot : Nat) {other : AmfValue}
    (hother : other ∈ (mk (references.setIfInBounds slot value) newer).indexed) :
    other ∈ (mk references newer).indexed ∨ other = value := by
  rw [mem_indexed] at hother ⊢
  rcases hother with hreference | hobject
  · exact (Array.mem_or_eq_of_mem_setIfInBounds hreference).imp_left .inl
  · exact .inl (.inr hobject)

theorem mem_indexed_set_objects (slot : Nat) {other : AmfValue}
    (hother : other ∈ (mk references
      { newer with objects := newer.objects.setIfInBounds slot value }).indexed) :
    other ∈ (mk references newer).indexed ∨ other = value := by
  rw [mem_indexed] at hother ⊢
  rcases hother with hreference | hobject
  · exact .inl (.inl hreference)
  · exact (Array.mem_or_eq_of_mem_setIfInBounds hobject).imp_left .inr

end Amf0Tables

namespace Amf3

open AmfReader

/-- The reader leaves the values with an index alone. -/
abbrev IsQuiet {α : Type} (reader : Amf3Reader α) : Prop :=
  ∀ objects, Keeps (fun known => known.objects = objects) (fun _ => True) reader

theorem isQuiet_compact : IsQuiet compact := by
  have hbits : ∀ (more value : Nat), IsQuiet (compactBits more value) := by
    intro more
    induction more with
    | zero => exact fun value objects => keeps_byte.bind fun _ _ => keeps_pure trivial
    | succ more ih =>
        intro value objects
        refine keeps_byte.bind fun next _ => ?_
        dsimp only
        split
        · exact keeps_pure trivial
        · exact ih _ objects
  exact hbits 3 0

theorem isQuiet_text : IsQuiet text := by
  intro objects
  refine (isQuiet_compact objects).bind fun header _ => ?_
  split
  · refine keeps_tables.bind fun known _ => ?_
    split
    · exact keeps_pure trivial
    · exact keeps_throw _
  · refine (AmfReader.keeps_text (header / 2)).bind fun content _ => ?_
    split
    · exact keeps_pure trivial
    · exact keeps_update fun _ hknown => ⟨hknown, trivial⟩

theorem isQuiet_names (count : Nat) (done : List String) : IsQuiet (names count done) := by
  induction count generalizing done with
  | zero => exact fun _ => keeps_pure trivial
  | succ count ih =>
      exact fun objects => (isQuiet_text objects).bind fun name _ => ih (name :: done) objects

theorem isQuiet_traits (header : Nat) : IsQuiet (traits header) := by
  intro objects
  unfold traits
  split
  · refine keeps_tables.bind fun known _ => ?_
    split
    · exact keeps_pure trivial
    · exact keeps_throw _
  · split
    · exact keeps_throw _
    · refine (isQuiet_text objects).bind fun className _ => ?_
      refine (isQuiet_names _ _ objects).bind fun sealedNames _ => ?_
      exact keeps_update fun _ hknown => ⟨hknown, trivial⟩

section Climbs

variable (references : Array AmfValue) {opened held : Nat}

/-- The tables of the older format stand beside those of the newer one. -/
abbrev indexedBeside (newer : Amf3Tables) : List AmfValue :=
  (Amf0Tables.mk references newer).indexed

variable {references}

theorem IsQuiet.climbs {α : Type} {reader : Amf3Reader α} (hquiet : IsQuiet reader) :
    Climbs (indexedBeside references) opened opened held (fun _ => held) reader := by
  refine climbs_of_keeps fun values cursor hvalues => ?_
  have hreader := hquiet _ cursor rfl
  have hsame : ∀ rest : Amf3Tables, rest.objects = cursor.tables.objects →
      indexedBeside references rest = values := by
    intro rest hrest
    rw [← hvalues, indexedBeside, Amf0Tables.indexed, hrest]
    rfl
  cases hrun : reader cursor with
  | ok found rest =>
      rw [hrun] at hreader
      exact ⟨hsame _ hreader.1, trivial⟩
  | error error rest =>
      rw [hrun] at hreader
      exact hsame _ hreader

theorem climbs_orReference {inlined : Nat → Amf3Reader AmfValue}
    (hinlined : ∀ header,
      Climbs (indexedBeside references) opened opened held AmfValue.height
        (inlined header)) :
    Climbs (indexedBeside references) opened opened held AmfValue.height
      (orReference inlined) := by
  refine isQuiet_compact.climbs.bind fun header => ?_
  split
  · refine climbs_found fun known value hvalue => ?_
    exact (Amf0Tables.mem_indexed _ _).mpr (.inr (Array.mem_of_getElem? hvalue))
  · exact hinlined header

theorem climbs_remember {value : AmfValue} (hheight : value.height ≤ held + 1) :
    Climbs (indexedBeside references) opened opened held AmfValue.height
      (remember value) :=
  climbs_joining (fun known => Amf0Tables.indexed_push_objects references known value)
    hheight

theorem climbs_reserve :
    Climbs (indexedBeside references) opened (opened + 1) held (fun _ => held)
      reserve :=
  climbs_taking fun known => Amf0Tables.indexed_push_objects references known .null

theorem climbs_complete (slot : Nat) {value : AmfValue}
    (hheight : value.height ≤ held + 1) :
    Climbs (indexedBeside references) (opened + 1) opened held AmfValue.height
      (complete slot value) :=
  climbs_completing (fun known => by simp [indexedBeside, Amf0Tables.indexed])
    (fun known _ => Amf0Tables.mem_indexed_set_objects references known value slot) hheight

/-! ### Members -/

section Members

variable {child : Amf3Reader AmfValue}
  (hchild : ∀ opened, Climbs (indexedBeside references) opened opened 0 AmfValue.height child)
include hchild

theorem climbs_members (bound : Bytes) (properties : Properties) :
    Climbs (indexedBeside references) opened opened (AmfValue.heightIn properties)
      AmfValue.heightIn (members child bound properties) := by
  induction bound generalizing properties with
  | nil => exact climbs_throw _
  | cons first bound ih =>
      refine isQuiet_text.climbs.bind fun name => ?_
      split
      · exact climbs_pure (Nat.le_max_left _ _)
      · have hfirst := (hchild opened).beside (AmfValue.heightIn properties)
        rw [Nat.zero_max] at hfirst
        exact hfirst.bind fun value => (ih (properties.put name value)).imp
          (AmfValue.heightIn_put_le properties name value) fun _ => Nat.le_refl _

theorem climbs_dynamicMembers (properties : Properties) :
    Climbs (indexedBeside references) opened opened (AmfValue.heightIn properties)
      AmfValue.heightIn (dynamicMembers child properties) :=
  fun cursor => climbs_members hchild cursor.rest properties cursor

theorem climbs_sealedMembers (names : List String) (properties : Properties) :
    Climbs (indexedBeside references) opened opened (AmfValue.heightIn properties)
      AmfValue.heightIn (sealedMembers child names properties) := by
  induction names generalizing properties with
  | nil => exact climbs_pure (Nat.le_max_left _ _)
  | cons name names ih =>
      have hfirst := (hchild opened).beside (AmfValue.heightIn properties)
      rw [Nat.zero_max] at hfirst
      exact hfirst.bind fun value => (ih (properties.put name value)).imp
        (AmfValue.heightIn_put_le properties name value) fun _ => Nat.le_refl _

/-! ### Arrays and objects -/

omit hchild in
theorem heightIn_numbered_le (named : Properties) (dense : List AmfValue) :
    AmfValue.heightIn (numbered named dense) ≤
      max (AmfValue.heightAmong dense) (AmfValue.heightIn named) := by
  rw [AmfValue.heightIn_le_iff, numbered_eq]
  intro property hproperty
  rcases List.mem_append.mp hproperty with hposition | hmember
  · obtain ⟨pair, hpair, rfl⟩ := List.mem_map.mp hposition
    exact Nat.le_trans
      (AmfValue.heightAmong_le_iff.mp (Nat.le_refl _) pair.1
        (List.fst_mem_of_mem_zipIdx hpair))
      (Nat.le_max_left _ _)
  · exact Nat.le_trans
      (AmfValue.heightIn_le_iff.mp (Nat.le_refl _) property (List.mem_filter.mp hmember).1)
      (Nat.le_max_right _ _)

theorem climbs_array (header : Nat) :
    Climbs (indexedBeside references) opened opened 0 AmfValue.height
      (array child header) := by
  refine climbs_reserve.bind fun slot => ?_
  refine (climbs_dynamicMembers hchild []).bind fun named => ?_
  have hdense := (climbs_items (hchild (opened + 1)) (header / 2) []).beside
    (AmfValue.heightIn named)
  rw [AmfValue.heightAmong, Nat.zero_max] at hdense
  refine hdense.bind fun dense => climbs_complete slot ?_
  split
  · exact Nat.succ_le_succ (Nat.le_max_left _ _)
  · exact Nat.succ_le_succ (heightIn_numbered_le named dense)

theorem climbs_object (header : Nat) :
    Climbs (indexedBeside references) opened opened 0 AmfValue.height
      (object child header) := by
  refine climbs_reserve.bind fun slot => ?_
  refine (isQuiet_traits header).climbs.bind fun traits => ?_
  refine (climbs_sealedMembers hchild traits.sealedNames []).bind fun fixed => ?_
  have hcomplete : ∀ properties,
      Climbs (indexedBeside references) (opened + 1) opened (AmfValue.heightIn properties)
        AmfValue.height
        (complete slot
          (if traits.className.isEmpty then .object properties
            else .typedObject traits.className properties)) := by
    intro properties
    refine climbs_complete slot ?_
    split
    · exact Nat.le_refl _
    · exact Nat.le_refl _
  dsimp only
  split
  · exact (climbs_dynamicMembers hchild fixed).bind hcomplete
  · exact Climbs.bind (climbs_pure (Nat.le_max_left _ _)) hcomplete

/-! ### Values -/

omit hchild in
theorem climbs_xml (header : Nat) :
    Climbs (indexedBeside references) opened opened 0 AmfValue.height (xml header) := by
  have hcontent : IsQuiet (AmfReader.text (header / 2)) := fun _ =>
    (AmfReader.keeps_text (header / 2)).imp fun _ _ => trivial
  exact hcontent.climbs.bind fun _ => climbs_remember (Nat.le_refl 1)

theorem climbs_body (marker : UInt8) :
    Climbs (indexedBeside references) opened opened 0 AmfValue.height
      (body child marker) := by
  have hscalar : ∀ {value : AmfValue}, value.height = 1 →
      Climbs (indexedBeside references) opened opened 0 AmfValue.height (pure value) :=
    fun hheight => climbs_pure (Nat.le_of_eq hheight)
  have hnumber : IsQuiet binary64 := fun _ => keeps_binary64
  unfold body
  split
  · exact hscalar rfl
  · exact hscalar rfl
  · exact hscalar rfl
  · exact hscalar rfl
  · exact isQuiet_compact.climbs.bind fun _ => hscalar rfl
  · exact hnumber.climbs.bind fun _ => hscalar rfl
  · exact isQuiet_text.climbs.bind fun _ => hscalar rfl
  · exact climbs_orReference climbs_xml
  · exact climbs_orReference fun _ =>
      hnumber.climbs.bind fun _ => climbs_remember (Nat.le_refl 1)
  · exact climbs_orReference (climbs_array hchild)
  · exact climbs_orReference (climbs_object hchild)
  · exact climbs_orReference climbs_xml
  · refine climbs_orReference fun header => ?_
    have hcontent : IsQuiet (take (header / 2)) := fun _ =>
      (keeps_take (header / 2)).imp fun _ _ => trivial
    exact hcontent.climbs.bind fun _ => climbs_remember (Nat.le_refl 1)
  · exact climbs_throw _

end Members

theorem climbs_valueWithin (budget : Nat) :
    Climbs (indexedBeside references) opened opened 0 AmfValue.height
      (valueWithin budget) := by
  induction budget generalizing opened with
  | zero => exact climbs_marked_none
  | succ budget ih => exact climbs_marked (climbs_body fun _ => ih)

end Climbs

end Amf3

/-! ## The older format -/

namespace Amf0

open AmfReader

/-- The reader leaves the tables alone. -/
abbrev IsQuiet {α : Type} (reader : Amf0Reader α) : Prop :=
  ∀ known, Keeps (fun after => after = known) (fun _ => True) reader

theorem isQuiet_count16 : IsQuiet count16 :=
  fun _ => (keeps_take 2).bind fun _ _ => keeps_pure trivial

theorem isQuiet_count32 : IsQuiet count32 :=
  fun _ => (keeps_take 4).bind fun _ _ => keeps_pure trivial

theorem isQuiet_shortText : IsQuiet shortText := fun known =>
  (isQuiet_count16 known).bind fun count _ =>
    (AmfReader.keeps_text count).imp fun _ _ => trivial

theorem isQuiet_longText : IsQuiet longText := fun known =>
  (isQuiet_count32 known).bind fun count _ =>
    (AmfReader.keeps_text count).imp fun _ _ => trivial

theorem isQuiet_objectEnd (lenient : Bool) : IsQuiet (objectEnd lenient) := by
  intro known cursor hknown
  unfold objectEnd
  split
  · exact ⟨hknown, trivial⟩
  · cases lenient <;> first | exact hknown | exact ⟨hknown, trivial⟩
  · cases lenient <;> first | exact hknown | exact ⟨hknown, trivial⟩

section Climbs

variable {opened held : Nat}

theorem IsQuiet.climbs {α : Type} {reader : Amf0Reader α} (hquiet : IsQuiet reader) :
    Climbs Amf0Tables.indexed opened opened held (fun _ => held) reader := by
  refine climbs_of_keeps fun values cursor hvalues => ?_
  have hreader := hquiet _ cursor rfl
  cases hrun : reader cursor with
  | ok found rest =>
      rw [hrun] at hreader
      exact ⟨hreader.1.symm ▸ hvalues, trivial⟩
  | error error rest =>
      rw [hrun] at hreader
      exact (congrArg Amf0Tables.indexed hreader).trans hvalues

theorem climbs_reserve :
    Climbs Amf0Tables.indexed opened (opened + 1) held (fun _ => held) reserve :=
  climbs_taking fun known =>
    Amf0Tables.indexed_push_references known.references known.newer .null

theorem climbs_complete (slot : Nat) {value : AmfValue}
    (hheight : value.height ≤ held + 1) :
    Climbs Amf0Tables.indexed (opened + 1) opened held AmfValue.height
      (complete slot value) :=
  climbs_completing (fun known => by simp [Amf0Tables.indexed])
    (fun known _ =>
      Amf0Tables.mem_indexed_set_references known.references known.newer value slot)
    hheight

theorem climbs_reference :
    Climbs Amf0Tables.indexed opened opened 0 AmfValue.height reference :=
  isQuiet_count16.climbs.bind fun _ => climbs_found fun _ _ hvalue =>
    (Amf0Tables.mem_indexed _ _).mpr (.inl (Array.mem_of_getElem? hvalue))

theorem climbs_newerValue :
    Climbs Amf0Tables.indexed opened opened 0 AmfValue.height newerValue := by
  rintro ⟨⟨references, newer⟩, rest⟩ level hlow hheld
  have hclimbs : Climbs (Amf3.indexedBeside references) opened opened 0 AmfValue.height
      (Amf3.valueWithin AmfValue.maximumNesting) := Amf3.climbs_valueWithin _
  have hvalue := hclimbs ⟨newer, rest⟩ level hlow hheld
  cases hrun : Amf3.valueWithin AmfValue.maximumNesting ⟨newer, rest⟩ with
  | ok found after =>
      rw [hrun] at hvalue
      simp only [newerValue, Amf3.value, hrun]
      exact hvalue
  | error error after =>
      rw [hrun] at hvalue
      simp only [newerValue, Amf3.value, hrun]
      exact hvalue

section Bodies

variable (lenient : Bool) {child : Amf0Reader AmfValue}
  (hchild : ∀ opened, Climbs Amf0Tables.indexed opened opened 0 AmfValue.height child)
include hchild

theorem climbs_propertiesWithin (bound : Bytes) (done : Properties) :
    Climbs Amf0Tables.indexed opened opened (AmfValue.heightIn done) AmfValue.heightIn
      (propertiesWithin lenient child bound done) := by
  have hdone : ∀ done, Climbs Amf0Tables.indexed opened opened (AmfValue.heightIn done)
      AmfValue.heightIn (pure done) := fun _ => climbs_pure (Nat.le_max_left _ _)
  induction bound generalizing done with
  | nil =>
      unfold propertiesWithin
      split
      · exact hdone done
      · exact climbs_throw _
  | cons first bound ih =>
      intro cursor level hlow hheld
      unfold propertiesWithin
      split
      · exact hdone done cursor level hlow hheld
      · refine isQuiet_shortText.climbs.bind (fun name => ?_) cursor level hlow hheld
        split
        · exact (isQuiet_objectEnd lenient).climbs.bind fun _ => hdone done
        · have hfirst := (hchild opened).beside (AmfValue.heightIn done)
          rw [Nat.zero_max] at hfirst
          exact hfirst.bind fun value => (ih (done.put name value)).imp
            (AmfValue.heightIn_put_le done name value) fun _ => Nat.le_refl _

/-- A bag of any kind takes its index, its properties and its place. -/
theorem climbs_bag (kind : AmfValue.BagKind) :
    Climbs Amf0Tables.indexed opened opened 0 AmfValue.height (do
      let slot ← reserve
      let properties ← properties lenient child
      complete slot (kind.fill properties)) := by
  refine climbs_reserve.bind fun slot => Climbs.bind
    (fun cursor => climbs_propertiesWithin lenient hchild cursor.rest [] cursor)
    fun properties => climbs_complete slot ?_
  exact Nat.le_of_eq (AmfValue.height_fill kind properties)

theorem climbs_strictArray (count : Nat) :
    Climbs Amf0Tables.indexed opened opened 0 AmfValue.height (do
      let slot ← reserve
      let items ← items child count []
      complete slot (.strictArray items)) :=
  climbs_reserve.bind fun slot => (climbs_items (hchild (opened + 1)) count []).bind
    fun _ => climbs_complete slot (Nat.le_refl _)

theorem climbs_body (marker : UInt8) :
    Climbs Amf0Tables.indexed opened opened 0 AmfValue.height
      (body lenient child marker) := by
  have hscalar : ∀ {value : AmfValue}, value.height = 1 →
      Climbs Amf0Tables.indexed opened opened 0 AmfValue.height (pure value) :=
    fun hheight => climbs_pure (Nat.le_of_eq hheight)
  have hnumber : IsQuiet binary64 := fun _ => keeps_binary64
  have hflag : IsQuiet byte := fun _ => keeps_byte
  have hdate : IsQuiet (take 10) := fun _ => (keeps_take 10).imp fun _ _ => trivial
  unfold body
  split
  · exact hnumber.climbs.bind fun _ => hscalar rfl
  · exact hflag.climbs.bind fun _ => hscalar rfl
  · exact isQuiet_shortText.climbs.bind fun _ => hscalar rfl
  · exact climbs_bag lenient hchild .object
  · exact hscalar rfl
  · exact hscalar rfl
  · exact climbs_reference
  · exact isQuiet_count32.climbs.bind fun _ => climbs_bag lenient hchild .ecmaArray
  · exact isQuiet_count32.climbs.bind fun count => climbs_strictArray hchild count
  · exact hdate.climbs.bind fun _ => hscalar rfl
  · exact isQuiet_longText.climbs.bind fun _ => hscalar rfl
  · exact hscalar rfl
  · exact isQuiet_longText.climbs.bind fun _ => hscalar rfl
  · exact isQuiet_shortText.climbs.bind fun className =>
      climbs_bag lenient hchild (.typedObject className)
  · exact climbs_newerValue
  · split
    · exact hscalar rfl
    · exact climbs_throw _

end Bodies

theorem climbs_valueWithin (lenient : Bool) (budget : Nat) :
    Climbs Amf0Tables.indexed opened opened 0 AmfValue.height
      (valueWithin lenient budget) := by
  induction budget generalizing opened with
  | zero => exact climbs_marked_none
  | succ budget ih => exact climbs_marked (climbs_body lenient fun _ => ih)

end Climbs

end Amf0

end LiveRelay
