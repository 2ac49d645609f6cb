import LiveRelay.Proofs.AmfNodes

/-!
# Every value is paid for

A value starts with a marker, and a marker is a byte.  So the values that a reader has
found, together with those that stand directly in an object or an array of its tables,
are no more than the bytes that it has consumed.  A reference is a marker too: it pays
for the value that it finds.  It does not pay for what stands in that value, which has
been paid for where it was read.

All objects and arrays of what is found are in the tables.  A place in the tables is
null from when it is taken until its value is complete, so filling it loses nothing.
When a reader fails, what it has paid for so far stays in the tables.
-/

namespace LiveRelay

theorem Table.length_put_le {κ α : Type} [DecidableEq κ] (table : Table κ α) (key : κ)
    (content : α) : (table.put key content).length ≤ table.length + 1 := by
  have hkeys := congrArg List.length (Table.keys_put table key content)
  rw [Table.keys, List.length_map] at hkeys
  rw [hkeys]
  split
  · simp [Table.keys]
  · simp [Table.keys]

namespace AmfReader

variable {Tables α β : Type}

/-! ## Tables -/

/-- Where the values of a format have their places, beside other values with an
index. -/
structure ValueStore (Tables : Type) where
  places : Tables → Array AmfValue
  others : Tables → List AmfValue
  replace : Tables → Array AmfValue → Tables
  places_replace : ∀ known values, places (replace known values) = values
  others_replace : ∀ known values, others (replace known values) = others known

namespace ValueStore

variable (store : ValueStore Tables)

def indexed (known : Tables) : List AmfValue :=
  (store.places known).toList ++ store.others known

/-- A value takes the next place. -/
def reserve : AmfReader Tables Nat :=
  update fun known =>
    ((store.places known).size,
      store.replace known ((store.places known).push .null))

/-- The place is filled. -/
def complete (slot : Nat) (value : AmfValue) : AmfReader Tables AmfValue :=
  update fun known =>
    (value, store.replace known ((store.places known).setIfInBounds slot value))

/-- A value takes the next place and fills it. -/
def remember (value : AmfValue) : AmfReader Tables AmfValue :=
  update fun known => (value, store.replace known ((store.places known).push value))

end ValueStore

/-! ## What a reader has paid for -/

/-- What a reader has in hand: the places that it has taken and not filled yet, and the
values that stand nowhere yet. -/
structure Hand where
  opened : List Nat := []
  held : List AmfValue := []

namespace Hand

def add (hand : Hand) (values : List AmfValue) : Hand :=
  { hand with held := values ++ hand.held }

def opening (hand : Hand) (slot : Nat) : Hand :=
  { hand with opened := slot :: hand.opened }

theorem add_add (hand : Hand) (first second : List AmfValue) :
    (hand.add first).add second = hand.add (second ++ first) := by
  simp [add]

/-- Instead of a value a leaf may be in hand, or nothing. -/
structure Covers (hand other : Hand) : Prop where
  opened_eq : other.opened = hand.opened
  length_le : other.held.length ≤ hand.held.length
  mem_or_isLeaf : ∀ value ∈ other.held, value ∈ hand.held ∨ value.IsLeaf

theorem Covers.refl (hand : Hand) : hand.Covers hand :=
  ⟨rfl, Nat.le_refl _, fun _ => .inl⟩

/-- A leaf that the marker has been paid for. -/
theorem covers_leaf (hand : Hand) {value : AmfValue} (hleaf : value.IsLeaf) :
    (hand.add [.null]).Covers (hand.add [value]) where
  opened_eq := rfl
  length_le := Nat.le_refl _
  mem_or_isLeaf other hother := by
    rcases List.mem_cons.mp hother with rfl | hheld
    · exact .inr hleaf
    · exact .inl (List.mem_cons_of_mem _ hheld)

theorem covers_add (hand : Hand) {few many : List AmfValue} (hlength : few.length ≤ many.length)
    (hsubset : few ⊆ many) : (hand.add many).Covers (hand.add few) where
  opened_eq := rfl
  length_le := by simpa [add] using hlength
  mem_or_isLeaf value hvalue := by
    left
    rcases List.mem_append.mp hvalue with hfew | hheld
    · exact List.mem_append_left _ (hsubset hfew)
    · exact List.mem_append_right _ hheld

/-- A property may take the place of another one. -/
theorem covers_put (hand : Hand) (properties : Properties) (name : String)
    (value : AmfValue) :
    (hand.add (value :: properties.map Prod.snd)).Covers
      (hand.add ((properties.put name value).map Prod.snd)) := by
  refine hand.covers_add ?_ fun other hother => ?_
  · simpa using Table.length_put_le properties name value
  · obtain ⟨property, hproperty, rfl⟩ := List.mem_map.mp hother
    rcases Table.mem_of_mem_put hproperty with rfl | hold
    · exact List.mem_cons_self
    · exact List.mem_cons_of_mem _ (List.mem_map_of_mem hold)

end Hand

/-- What is in hand, what stands directly in the tables and what is left of the input
are within the budget, and all objects and arrays have a place. -/
structure Paid (indexed held : List AmfValue) (left budget : Nat) : Prop where
  cost_le : held.length + (AmfValue.partsAmong indexed).length + left ≤ budget
  holders_mem : ∀ value ∈ indexed ++ held, ∀ holder ∈ value.holders, holder ∈ indexed

/-- The places are taken and not filled. -/
structure Opens (places : Array AmfValue) (opened : List Nat) : Prop where
  nodup : opened.Nodup
  null : ∀ slot ∈ opened, places[slot]? = some .null

structure ValueStore.Holds (store : ValueStore Tables) (hand : Hand) (budget : Nat)
    (cursor : AmfCursor Tables) : Prop where
  paid : Paid (store.indexed cursor.tables) hand.held cursor.rest.length budget
  opens : Opens (store.places cursor.tables) hand.opened

section Holds

variable {indexed held : List AmfValue} {left budget : Nat}

/-- What is found in the tables is paid for like a leaf. -/
theorem Paid.exchange (hpaid : Paid indexed held left budget) {others : List AmfValue}
    {less : Nat} (hlength : others.length + less ≤ held.length + left)
    (hothers : ∀ value ∈ others, value ∈ held ∨ value.IsLeaf ∨ value ∈ indexed) :
    Paid indexed others less budget where
  cost_le := by
    have := hpaid.cost_le
    omega
  holders_mem value hvalue holder hholder := by
    rcases List.mem_append.mp hvalue with hindexed | hother
    · exact hpaid.holders_mem value (List.mem_append_left _ hindexed) holder hholder
    · rcases hothers value hother with hheld | hleaf | hindexed
      · exact hpaid.holders_mem value (List.mem_append_right _ hheld) holder hholder
      · rw [AmfValue.holders_of_isLeaf hleaf] at hholder
        cases hholder
      · exact hpaid.holders_mem value (List.mem_append_left _ hindexed) holder hholder

theorem Paid.perm (hpaid : Paid indexed held left budget) {other : List AmfValue}
    (hperm : indexed.Perm other) : Paid other held left budget where
  cost_le := by
    have hsame : (AmfValue.partsAmong indexed).length = (AmfValue.partsAmong other).length :=
      (hperm.flatMap_right AmfValue.parts).length_eq
    rw [← hsame]
    exact hpaid.cost_le
  holders_mem value hvalue holder hholder := by
    refine hperm.mem_iff.mp (hpaid.holders_mem value ?_ holder hholder)
    exact (hperm.append_right held).mem_iff.mpr hvalue

/-- A leaf takes a place. -/
theorem Paid.push (hpaid : Paid indexed held left budget) {leaf : AmfValue}
    (hleaf : leaf.IsLeaf) {changed : List AmfValue}
    (hchanged : changed.Perm (leaf :: indexed)) : Paid changed held left budget := by
  refine Paid.perm ⟨?_, fun value hvalue holder hholder => ?_⟩ hchanged.symm
  · rw [AmfValue.partsAmong_cons, AmfValue.parts_of_isLeaf hleaf, List.nil_append]
    exact hpaid.cost_le
  · rcases List.mem_cons.mp hvalue with rfl | hold
    · rw [AmfValue.holders_of_isLeaf hleaf] at hholder
      cases hholder
    · exact List.mem_cons_of_mem _ (hpaid.holders_mem value hold holder hholder)

/-- A value takes the place that has been kept for it.  What it holds then stands in
it, and its own marker has been paid for. -/
theorem Paid.fill {parts rest changed : List AmfValue}
    (hpaid : Paid indexed (parts ++ .null :: held) left budget)
    (hindexed : indexed.Perm (.null :: rest)) {value : AmfValue}
    (hchanged : changed.Perm (value :: rest)) (hparts : value.parts.Sublist parts) :
    Paid changed (value :: held) left budget := by
  have hopen := hpaid.perm hindexed
  -- Null holds nothing, so no object and no array has had its place there.
  have hkept : ∀ other ∈ .null :: rest ++ (parts ++ .null :: held),
      ∀ holder ∈ other.holders, holder ∈ value :: rest := by
    intro other hother holder hholder
    rcases List.mem_cons.mp (hopen.holders_mem other hother holder hholder) with rfl | hrest
    · exact absurd AmfValue.isLeaf_null (AmfValue.not_isLeaf_of_mem_holders hholder)
    · exact List.mem_cons_of_mem _ hrest
  refine Paid.perm ⟨?_, fun other hother holder hholder => ?_⟩ hchanged.symm
  · have hcost := hopen.cost_le
    have hlength := hparts.length_le
    simp only [AmfValue.partsAmong_cons, List.length_append, List.length_cons,
      AmfValue.parts_of_isLeaf AmfValue.isLeaf_null, List.length_nil] at hcost ⊢
    omega
  · have hcases : other = value ∨ other ∈ .null :: rest ++ (parts ++ .null :: held) := by
      simp only [List.cons_append, List.mem_cons, List.mem_append] at hother ⊢
      tauto
    rcases hcases with rfl | hold
    · rcases AmfValue.mem_holders hholder with ⟨-, rfl⟩ | ⟨part, hpart, hbelow⟩
      · exact List.mem_cons_self
      · exact hkept part (List.mem_append_right _
          (List.mem_append_left _ (hparts.subset hpart))) holder hbelow
    · exact hkept other hold holder hholder

section Opens

variable {places : Array AmfValue} {opened : List Nat}

theorem Opens.nil (places : Array AmfValue) : Opens places [] :=
  ⟨List.nodup_nil, List.forall_mem_nil _⟩

theorem Opens.lt_size (hopens : Opens places opened) {slot : Nat} (hslot : slot ∈ opened) :
    slot < places.size :=
  (Array.getElem?_eq_some_iff.mp (hopens.null slot hslot)).1

theorem Opens.push (hopens : Opens places opened) (value : AmfValue) :
    Opens (places.push value) opened where
  nodup := hopens.nodup
  null slot hslot := by
    have hlt := hopens.lt_size hslot
    rw [Array.getElem?_push_lt hlt, ← Array.getElem?_eq_getElem hlt]
    exact hopens.null slot hslot

theorem Opens.reserve (hopens : Opens places opened) :
    Opens (places.push .null) (places.size :: opened) where
  nodup := List.nodup_cons.mpr
    ⟨fun hmem => Nat.lt_irrefl _ (hopens.lt_size hmem), hopens.nodup⟩
  null := List.forall_mem_cons.mpr ⟨Array.getElem?_push_size, (hopens.push .null).null⟩

theorem Opens.fill {slot : Nat} (hopens : Opens places (slot :: opened)) (value : AmfValue) :
    Opens (places.setIfInBounds slot value) opened where
  nodup := hopens.nodup.of_cons
  null other hother := by
    have hne : slot ≠ other := fun heq =>
      (List.nodup_cons.mp hopens.nodup).1 (heq ▸ hother)
    rw [Array.getElem?_setIfInBounds_ne hne]
    exact hopens.null other (List.mem_cons_of_mem _ hother)

end Opens

end Holds

/-- No bytes come back, and objects and arrays that have a place keep one. -/
structure ValueStore.Lasts (store : ValueStore Tables) (before after : AmfCursor Tables) :
    Prop where
  rest_le : after.rest.length ≤ before.rest.length
  mem_indexed : ∀ value ∈ store.indexed before.tables, ¬ value.IsLeaf →
    value ∈ store.indexed after.tables

theorem ValueStore.Lasts.refl (store : ValueStore Tables) (cursor : AmfCursor Tables) :
    store.Lasts cursor cursor :=
  ⟨Nat.le_refl _, fun _ hvalue _ => hvalue⟩

theorem ValueStore.Lasts.trans {store : ValueStore Tables} {first second third : AmfCursor Tables}
    (hfirst : store.Lasts first second) (hsecond : store.Lasts second third) :
    store.Lasts first third where
  rest_le := Nat.le_trans hsecond.rest_le hfirst.rest_le
  mem_indexed value hvalue hinner :=
    hsecond.mem_indexed value (hfirst.mem_indexed value hvalue hinner) hinner

def Settles (store : ValueStore Tables) (budget : Nat) (before : AmfCursor Tables)
    (after : α → Hand) : EStateM.Result AmfError (AmfCursor Tables) α → Prop
  | .ok found cursor => store.Lasts before cursor ∧ store.Holds (after found) budget cursor
  | .error _ cursor => store.Lasts before cursor ∧ store.Holds {} budget cursor

/-- With this in hand, a reader can pay for what it then has in hand from the bytes that
it consumes. -/
def Affords (store : ValueStore Tables) (before : Hand) (after : α → Hand)
    (reader : AmfReader Tables α) : Prop :=
  ∀ cursor budget, store.Holds before budget cursor →
    Settles store budget cursor after (reader cursor)

section Affords

variable {store : ValueStore Tables} {before between hand : Hand} {after : α → Hand}
  {reader : AmfReader Tables α} {budget : Nat} {cursor start : AmfCursor Tables}

/-! ## Rules -/

theorem ValueStore.Holds.exchange (hholds : store.Holds before budget cursor) {other : Hand}
    (hcovers : before.Covers other) : store.Holds other budget cursor where
  paid := by
    refine hholds.paid.exchange (Nat.add_le_add_right hcovers.length_le _) ?_
    exact fun value hvalue => (hcovers.mem_or_isLeaf value hvalue).imp_right .inl
  opens := hcovers.opened_eq ▸ hholds.opens

/-- Nothing is in hand when a reader has failed. -/
theorem ValueStore.Holds.abandon (hholds : store.Holds before budget cursor) :
    store.Holds {} budget cursor where
  paid := hholds.paid.exchange (by simp) nofun
  opens := .nil _

/-- A reader that fails where it stands. -/
theorem ValueStore.Holds.fails (hholds : store.Holds before budget cursor) (error : AmfError) :
    Settles store budget cursor after (.error error cursor) :=
  ⟨.refl store cursor, hholds.abandon⟩

theorem affords_pure {found : α} (hcovers : before.Covers (after found)) :
    Affords store before after (pure found) :=
  fun cursor _ hholds => ⟨.refl store cursor, hholds.exchange hcovers⟩

theorem affords_throw (error : AmfError) : Affords store before after (throw error) :=
  fun _ _ hholds => hholds.fails error

theorem Settles.since (hlasts : store.Lasts start cursor)
    {result : EStateM.Result AmfError (AmfCursor Tables) α}
    (hsettles : Settles store budget cursor after result) :
    Settles store budget start after result := by
  cases result with
  | ok found last => exact ⟨hlasts.trans hsettles.1, hsettles.2⟩
  | error error last => exact ⟨hlasts.trans hsettles.1, hsettles.2⟩

theorem Affords.bind {next : α → AmfReader Tables β} {last : β → Hand}
    (hfirst : Affords store before after reader)
    (hnext : ∀ found, Affords store (after found) last (next found)) :
    Affords store before last (reader >>= next) := by
  intro cursor budget hholds
  have hreader := hfirst cursor budget hholds
  change Settles store budget cursor last (EStateM.bind reader next cursor)
  unfold EStateM.bind
  cases hrun : reader cursor with
  | ok found middle =>
      rw [hrun] at hreader
      exact (hnext found middle budget hreader.2).since hreader.1
  | error error middle =>
      rw [hrun] at hreader
      exact hreader

theorem Affords.exchange (hreader : Affords store before after reader) {more : Hand}
    (hcovers : more.Covers before) : Affords store more after reader :=
  fun cursor budget hholds => hreader cursor budget (hholds.exchange hcovers)

/-- The reader has nothing to pay for. -/
abbrev IsFree (store : ValueStore Tables) (reader : AmfReader Tables α) : Prop :=
  ∀ hand, Affords store hand (fun _ => hand) reader

theorem IsFree.bind {next : α → AmfReader Tables β} (hfirst : IsFree store reader)
    (hnext : ∀ found, IsFree store (next found)) : IsFree store (reader >>= next) :=
  fun hand => (hfirst hand).bind fun found => hnext found hand

theorem isFree_pure (found : α) : IsFree store (pure found) :=
  fun hand => affords_pure (.refl hand)

theorem isFree_throw (error : AmfError) : IsFree store (throw error : AmfReader Tables α) :=
  fun _ => affords_throw error

/-- Bytes may be consumed for nothing. -/
theorem ValueStore.Holds.skip (hholds : store.Holds before budget cursor) {rest : Bytes}
    (hle : rest.length ≤ cursor.rest.length) :
    store.Lasts cursor { cursor with rest := rest } ∧
      store.Holds before budget { cursor with rest := rest } where
  left := ⟨hle, fun _ hvalue _ => hvalue⟩
  right :=
    { paid := hholds.paid.exchange (Nat.add_le_add_left hle _) fun _ => .inl
      opens := hholds.opens }

theorem isFree_take (count : Nat) : IsFree store (take count) := by
  intro hand cursor budget hholds
  unfold take
  cases hsplit : cursor.rest.split? count with
  | none => exact hholds.fails _
  | some found =>
      have hle : found.2.length ≤ cursor.rest.length := by
        rw [(Bytes.split?_eq_some_iff.mp hsplit).1, List.length_append]
        exact Nat.le_add_left _ _
      exact hholds.skip hle

theorem isFree_byte : IsFree store byte := by
  rintro hand ⟨tables, rest⟩ budget hholds
  cases rest with
  | nil => exact hholds.fails _
  | cons first rest => exact hholds.skip (Nat.le_succ _)

theorem isFree_binary64 : IsFree store binary64 :=
  (isFree_take 8).bind fun _ => isFree_pure _

theorem isFree_text (count : Nat) : IsFree store (text count) := by
  refine (isFree_take count).bind fun taken => ?_
  split
  · exact isFree_pure _
  · exact isFree_throw _

theorem isFree_tables : IsFree store tables :=
  fun _ cursor _ hholds => ⟨.refl store cursor, hholds⟩

/-- A change beside the values. -/
theorem isFree_update {change : Tables → α × Tables}
    (hplaces : ∀ known, store.places (change known).2 = store.places known)
    (hothers : ∀ known, store.others (change known).2 = store.others known) :
    IsFree store (update change) := by
  intro hand cursor budget hholds
  have hindexed : store.indexed (change cursor.tables).2 = store.indexed cursor.tables := by
    rw [ValueStore.indexed, ValueStore.indexed, hplaces, hothers]
  refine ⟨⟨Nat.le_refl _, fun _ hvalue _ => hindexed.symm ▸ hvalue⟩, ?_, ?_⟩
  · exact hindexed.symm ▸ hholds.paid
  · exact (hplaces cursor.tables).symm ▸ hholds.opens

theorem affords_marked_none {after : AmfValue → Hand} :
    Affords store before after (marked none) := by
  rintro ⟨tables, rest⟩ budget hholds
  cases rest <;> exact hholds.fails _

/-- The marker is paid for a value that is not known yet. -/
theorem affords_marked {read : UInt8 → AmfReader Tables AmfValue}
    {after : AmfValue → Hand}
    (hread : ∀ marker, Affords store (hand.add [.null]) after (read marker)) :
    Affords store hand after (marked (some read)) := by
  rintro ⟨tables, rest⟩ budget hholds
  cases rest with
  | nil => exact hholds.fails _
  | cons marker rest =>
      have hmarker : store.Holds (hand.add [.null]) budget ⟨tables, rest⟩ := by
        refine ⟨hholds.paid.exchange ?_ fun value hvalue => ?_, hholds.opens⟩
        · simp only [Hand.add, List.length_append, List.length_cons, List.length_nil]
          omega
        · rcases List.mem_cons.mp hvalue with rfl | hheld
          · exact .inr (.inl AmfValue.isLeaf_null)
          · exact .inl hheld
      exact (hread marker ⟨tables, rest⟩ budget hmarker).since
        (hholds.skip (Nat.le_succ _)).1

/-- A reader of values, whatever is in hand already. -/
abbrev FindsPaid (store : ValueStore Tables) (reader : AmfReader Tables AmfValue) : Prop :=
  ∀ hand : Hand, Affords store hand (fun value => hand.add [value]) reader

/-- The same behind a marker. -/
abbrev FindsMarked (store : ValueStore Tables) (reader : AmfReader Tables AmfValue) : Prop :=
  ∀ hand : Hand, Affords store (hand.add [.null]) (fun value => hand.add [value]) reader

theorem findsMarked_leaf {value : AmfValue} (hleaf : value.IsLeaf) :
    FindsMarked store (pure value) :=
  fun hand => affords_pure (hand.covers_leaf hleaf)

theorem IsFree.findsMarked {next : α → AmfReader Tables AmfValue}
    (hfree : IsFree store reader) (hnext : ∀ found, FindsMarked store (next found)) :
    FindsMarked store (reader >>= next) :=
  fun hand => (hfree (hand.add [.null])).bind fun found => hnext found hand

/-- A value that has a place is paid for by the marker that refers to it. -/
theorem findsMarked_found {found : Tables → Option AmfValue} {error : AmfError}
    (hfound : ∀ known value, found known = some value → value ∈ store.indexed known) :
    FindsMarked store (do
      match found (← tables) with
      | some value => return value
      | none => throw error) := by
  intro hand cursor budget hholds
  change Settles _ _ _ _
    ((match found cursor.tables with
      | some value => pure value
      | none => throw error : AmfReader Tables AmfValue) cursor)
  cases hcase : found cursor.tables with
  | none => exact hholds.fails _
  | some value =>
      refine ⟨.refl store cursor, hholds.paid.exchange (Nat.le_refl _) fun other hother => ?_,
        hholds.opens⟩
      rcases List.mem_cons.mp hother with rfl | hheld
      · exact .inr (.inr (hfound _ _ hcase))
      · exact .inl (List.mem_cons_of_mem _ hheld)

theorem affords_items {child : AmfReader Tables AmfValue} (hchild : FindsPaid store child)
    (hand : Hand) (count : Nat) (done : List AmfValue) :
    Affords store (hand.add done) (fun found => hand.add found)
      (items child count done) := by
  induction count generalizing done with
  | zero =>
      exact affords_pure (hand.covers_add (Nat.le_of_eq List.length_reverse)
        fun _ => List.mem_reverse.mp)
  | succ count ih => exact (hchild (hand.add done)).bind fun value => ih (value :: done)

/-! ## Places -/

theorem ValueStore.indexed_push (store : ValueStore Tables) (known : Tables) (value : AmfValue) :
    (store.indexed (store.replace known ((store.places known).push value))).Perm
      (value :: store.indexed known) := by
  simp only [indexed, store.places_replace, store.others_replace, Array.toList_push,
    List.append_assoc, List.singleton_append]
  exact List.perm_middle

/-- Filling an open place puts the value there for null. -/
theorem ValueStore.exists_perm_fill (store : ValueStore Tables) {known : Tables} {slot : Nat}
    (hopen : (store.places known)[slot]? = some .null) (value : AmfValue) :
    ∃ rest, (store.indexed known).Perm (.null :: rest) ∧
      (store.indexed (store.replace known
        ((store.places known).setIfInBounds slot value))).Perm (value :: rest) := by
  rw [← Array.getElem?_toList] at hopen
  obtain ⟨hlt, hnull⟩ := List.getElem?_eq_some_iff.mp hopen
  obtain ⟨before, behind, hold, -, hnew⟩ := @List.exists_of_set _ slot value _ hlt
  rw [hnull] at hold
  refine ⟨before ++ behind ++ store.others known, ?_, ?_⟩
  · rw [indexed, hold]
    exact List.perm_middle.append_right _
  · rw [indexed, store.places_replace, store.others_replace, Array.toList_setIfInBounds, hnew]
    exact List.perm_middle.append_right _

theorem ValueStore.lasts_push (store : ValueStore Tables) (cursor : AmfCursor Tables)
    (value : AmfValue) :
    store.Lasts cursor
      { cursor with
        tables := store.replace cursor.tables
          ((store.places cursor.tables).push value) } where
  rest_le := Nat.le_refl _
  mem_indexed _ hother _ :=
    (store.indexed_push cursor.tables value).mem_iff.mpr (List.mem_cons_of_mem _ hother)

theorem affords_reserve : Affords store hand hand.opening store.reserve := by
  intro cursor budget hholds
  refine ⟨store.lasts_push cursor .null, ?_, ?_⟩
  · exact hholds.paid.push AmfValue.isLeaf_null (store.indexed_push cursor.tables .null)
  · exact (store.places_replace cursor.tables _).symm ▸ hholds.opens.reserve

theorem findsMarked_remember {value : AmfValue} (hleaf : value.IsLeaf) :
    FindsMarked store (store.remember value) := by
  intro hand cursor budget hholds
  have hheld := hholds.exchange (hand.covers_leaf hleaf)
  refine ⟨store.lasts_push cursor value, ?_, ?_⟩
  · exact hheld.paid.push hleaf (store.indexed_push cursor.tables value)
  · exact (store.places_replace cursor.tables _).symm ▸ hheld.opens.push value

theorem affords_complete {slot : Nat} {value : AmfValue} {parts : List AmfValue}
    (hparts : value.parts.Sublist parts) :
    Affords store (((hand.add [.null]).opening slot).add parts)
      (fun found => hand.add [found]) (store.complete slot value) := by
  intro cursor budget hholds
  obtain ⟨rest, hold, hnew⟩ :=
    store.exists_perm_fill (hholds.opens.null slot List.mem_cons_self) value
  refine ⟨⟨Nat.le_refl _, fun other hother hinner => ?_⟩, ?_, ?_⟩
  · rcases List.mem_cons.mp (hold.mem_iff.mp hother) with rfl | hrest
    · exact absurd AmfValue.isLeaf_null hinner
    · exact hnew.mem_iff.mpr (List.mem_cons_of_mem _ hrest)
  · exact Paid.fill hholds.paid hold hnew hparts
  · exact (store.places_replace cursor.tables _).symm ▸ hholds.opens.fill value

end Affords

end AmfReader

end LiveRelay
