import LiveRelay.Proofs.AmfPayment

/-!
# Both formats pay for what they find

Every value of either format is read behind a marker, and every object and every array
takes a place in the tables of its own format, so the readers of both can pay for what
they find.  The tables of the other format stand beside and are paid for with them.
-/

namespace LiveRelay

/-! ## The newer format -/

namespace Amf3

open AmfReader

/-- The tables of the older format stand beside those of the newer one. -/
def valueStore (references : Array AmfValue) : ValueStore Amf3Tables where
  places := Amf3Tables.objects
  others _ := references.toList
  replace known objects := { known with objects := objects }
  places_replace _ _ := rfl
  others_replace _ _ := rfl

section Store

variable {references : Array AmfValue}

theorem isFree_compact : IsFree (valueStore references) compact := by
  have hbits : ∀ (more value : Nat), IsFree (valueStore references) (compactBits more value) := by
    intro more
    induction more with
    | zero => exact fun value => isFree_byte.bind fun _ => isFree_pure _
    | succ more ih =>
        intro value
        refine isFree_byte.bind fun next => ?_
        dsimp only
        split
        · exact isFree_pure _
        · exact ih _
  exact hbits 3 0

theorem isFree_text : IsFree (valueStore references) text := by
  refine isFree_compact.bind fun header => ?_
  split
  · refine isFree_tables.bind fun known => ?_
    split
    · exact isFree_pure _
    · exact isFree_throw _
  · refine (AmfReader.isFree_text (header / 2)).bind fun content => ?_
    split
    · exact isFree_pure _
    · exact isFree_update (fun _ => rfl) fun _ => rfl

theorem isFree_names (count : Nat) (done : List String) :
    IsFree (valueStore references) (names count done) := by
  induction count generalizing done with
  | zero => exact isFree_pure _
  | succ count ih => exact isFree_text.bind fun name => ih (name :: done)

theorem isFree_traits (header : Nat) : IsFree (valueStore references) (traits header) := by
  unfold traits
  split
  · refine isFree_tables.bind fun known => ?_
    split
    · exact isFree_pure _
    · exact isFree_throw _
  · split
    · exact isFree_throw _
    · refine isFree_text.bind fun className => ?_
      refine (isFree_names _ _).bind fun sealedNames => ?_
      exact isFree_update (fun _ => rfl) fun _ => rfl

theorem findsMarked_orReference {inlined : Nat → Amf3Reader AmfValue}
    (hinlined : ∀ header, FindsMarked (valueStore references) (inlined header)) :
    FindsMarked (valueStore references) (orReference inlined) := by
  refine isFree_compact.findsMarked fun header => ?_
  split
  · refine findsMarked_found fun known value hvalue => ?_
    exact List.mem_append_left _ (Array.mem_toList_iff.mpr (Array.mem_of_getElem? hvalue))
  · exact hinlined header

section Members

variable {child : Amf3Reader AmfValue} (hchild : FindsPaid (valueStore references) child)
include hchild

theorem affords_members (hand : Hand) (bound : Bytes) (properties : Properties) :
    Affords (valueStore references) (hand.add (properties.map Prod.snd))
      (fun found => hand.add (found.map Prod.snd)) (members child bound properties) := by
  induction bound generalizing properties with
  | nil => exact affords_throw _
  | cons first bound ih =>
      refine (isFree_text _).bind fun name => ?_
      split
      · exact affords_pure (.refl _)
      · refine (hchild _).bind fun value => ?_
        exact (ih (properties.put name value)).exchange (hand.covers_put properties name value)

theorem affords_dynamicMembers (hand : Hand) (properties : Properties) :
    Affords (valueStore references) (hand.add (properties.map Prod.snd))
      (fun found => hand.add (found.map Prod.snd)) (dynamicMembers child properties) :=
  fun cursor => affords_members hchild hand cursor.rest properties cursor

theorem affords_sealedMembers (hand : Hand) (names : List String) (properties : Properties) :
    Affords (valueStore references) (hand.add (properties.map Prod.snd))
      (fun found => hand.add (found.map Prod.snd)) (sealedMembers child names properties) := by
  induction names generalizing properties with
  | nil => exact affords_pure (.refl _)
  | cons name names ih =>
      refine (hchild _).bind fun value => ?_
      exact (ih (properties.put name value)).exchange (hand.covers_put properties name value)

omit hchild in
theorem sublist_numbered (named : Properties) (dense : List AmfValue) :
    ((numbered named dense).map Prod.snd).Sublist (dense ++ named.map Prod.snd) := by
  have hpositions : (positions dense).map Prod.snd = dense := by
    rw [positions, List.map_map]
    exact List.zipIdx_map_fst 0 dense
  rw [numbered_eq, List.map_append, hpositions]
  exact (List.filter_sublist.map Prod.snd).append_left dense

theorem findsMarked_array (header : Nat) :
    FindsMarked (valueStore references) (array child header) := by
  intro hand
  refine affords_reserve.bind fun slot => ?_
  let opened := (hand.add [.null]).opening slot
  refine (affords_dynamicMembers hchild opened []).bind fun named => ?_
  refine (affords_items hchild (opened.add (named.map Prod.snd)) (header / 2) []).bind
    fun dense => ?_
  rw [Hand.add_add]
  split
  · exact affords_complete (List.sublist_append_left dense _)
  · exact affords_complete (sublist_numbered named dense)

theorem findsMarked_object (header : Nat) :
    FindsMarked (valueStore references) (object child header) := by
  intro hand
  refine affords_reserve.bind fun slot => ?_
  refine (isFree_traits header _).bind fun traits => ?_
  let opened := (hand.add [.null]).opening slot
  refine (affords_sealedMembers hchild opened traits.sealedNames []).bind fun fixed => ?_
  have hcomplete : ∀ properties : Properties,
      Affords (valueStore references) (opened.add (properties.map Prod.snd))
        (fun value => hand.add [value])
        (complete slot
          (if traits.className.isEmpty then .object properties
            else .typedObject traits.className properties)) := by
    intro properties
    split
    · exact affords_complete (List.Sublist.refl _)
    · exact affords_complete (List.Sublist.refl _)
  dsimp only
  split
  · exact (affords_dynamicMembers hchild opened fixed).bind hcomplete
  · exact Affords.bind (affords_pure (.refl _)) hcomplete

/-! ### Values -/

omit hchild in
theorem findsMarked_xml (header : Nat) : FindsMarked (valueStore references) (xml header) :=
  (AmfReader.isFree_text (header / 2)).findsMarked fun _ => findsMarked_remember trivial

theorem findsMarked_body (marker : UInt8) :
    FindsMarked (valueStore references) (body child marker) := by
  unfold body
  split
  · exact findsMarked_leaf trivial
  · exact findsMarked_leaf trivial
  · exact findsMarked_leaf trivial
  · exact findsMarked_leaf trivial
  · exact isFree_compact.findsMarked fun _ => findsMarked_leaf trivial
  · exact isFree_binary64.findsMarked fun _ => findsMarked_leaf trivial
  · exact isFree_text.findsMarked fun _ => findsMarked_leaf trivial
  · exact findsMarked_orReference findsMarked_xml
  · exact findsMarked_orReference fun _ =>
      isFree_binary64.findsMarked fun _ => findsMarked_remember trivial
  · exact findsMarked_orReference (findsMarked_array hchild)
  · exact findsMarked_orReference (findsMarked_object hchild)
  · exact findsMarked_orReference findsMarked_xml
  · exact findsMarked_orReference fun header =>
      (isFree_take (header / 2)).findsMarked fun _ => findsMarked_remember trivial
  · exact fun _ => affords_throw _

end Members

theorem findsPaid_valueWithin (budget : Nat) :
    FindsPaid (valueStore references) (valueWithin budget) := by
  induction budget with
  | zero => exact fun _ => affords_marked_none
  | succ budget ih => exact fun hand => affords_marked fun marker => findsMarked_body ih marker hand

end Store

end Amf3

/-! ## The older format -/

namespace Amf0

open AmfReader

/-- The tables of the newer format stand beside those of the older one. -/
def valueStore : ValueStore Amf0Tables where
  places := Amf0Tables.references
  others known := known.newer.objects.toList
  replace known references := { known with references := references }
  places_replace _ _ := rfl
  others_replace _ _ := rfl

theorem isFree_count16 : IsFree valueStore count16 :=
  (isFree_take 2).bind fun _ => isFree_pure _

theorem isFree_count32 : IsFree valueStore count32 :=
  (isFree_take 4).bind fun _ => isFree_pure _

theorem isFree_shortText : IsFree valueStore shortText :=
  isFree_count16.bind fun count => AmfReader.isFree_text count

theorem isFree_longText : IsFree valueStore longText :=
  isFree_count32.bind fun count => AmfReader.isFree_text count

theorem isFree_objectEnd (lenient : Bool) : IsFree valueStore (objectEnd lenient) := by
  rintro hand ⟨tables, rest⟩ budget hholds
  unfold objectEnd
  split
  · rename_i behind hmark
    obtain rfl : rest = 0x09 :: behind := hmark
    exact hholds.skip (Nat.le_succ _)
  · cases lenient
    · exact hholds.fails _
    · exact ⟨.refl _ _, hholds⟩
  · cases lenient
    · exact hholds.fails _
    · exact ⟨.refl _ _, hholds⟩

theorem findsMarked_reference : FindsMarked valueStore reference :=
  isFree_count16.findsMarked fun _ => findsMarked_found fun _ _ hvalue =>
    List.mem_append_left _ (Array.mem_toList_iff.mpr (Array.mem_of_getElem? hvalue))

theorem findsMarked_newerValue : FindsMarked valueStore newerValue := by
  rintro hand ⟨⟨references, newer⟩, rest⟩ budget hholds
  have hpaid : Paid (valueStore.indexed ⟨references, newer⟩) hand.held rest.length budget :=
    hholds.paid.exchange (Nat.add_le_add_right (Nat.le_succ _) _) fun _ hvalue =>
      .inl (List.mem_cons_of_mem _ hvalue)
  have hinner : (Amf3.valueStore references).Holds ⟨[], hand.held⟩ budget ⟨newer, rest⟩ :=
    ⟨hpaid.perm List.perm_append_comm, .nil _⟩
  have hvalue := Amf3.findsPaid_valueWithin AmfValue.maximumNesting ⟨[], hand.held⟩ ⟨newer, rest⟩
    budget hinner
  have hbeside : ∀ {after : AmfCursor Amf3Tables},
      (Amf3.valueStore references).Lasts ⟨newer, rest⟩ after →
        valueStore.Lasts ⟨⟨references, newer⟩, rest⟩ ⟨⟨references, after.tables⟩, after.rest⟩ := by
    intro after hlasts
    refine ⟨hlasts.rest_le, fun value hvalue hleaf => ?_⟩
    exact List.perm_append_comm.mem_iff.mp
      (hlasts.mem_indexed value (List.perm_append_comm.mem_iff.mp hvalue) hleaf)
  cases hrun : Amf3.valueWithin AmfValue.maximumNesting ⟨newer, rest⟩ with
  | ok found after =>
      rw [hrun] at hvalue
      simp only [newerValue, Amf3.value, hrun]
      exact ⟨hbeside hvalue.1, hvalue.2.paid.perm List.perm_append_comm, hholds.opens⟩
  | error error after =>
      rw [hrun] at hvalue
      simp only [newerValue, Amf3.value, hrun]
      exact ⟨hbeside hvalue.1, hvalue.2.paid.perm List.perm_append_comm, .nil _⟩

section Bodies

variable (lenient : Bool) {child : Amf0Reader AmfValue} (hchild : FindsPaid valueStore child)
include hchild

theorem affords_propertiesWithin (hand : Hand) (bound : Bytes) (done : Properties) :
    Affords valueStore (hand.add (done.map Prod.snd)) (fun found => hand.add (found.map Prod.snd))
      (propertiesWithin lenient child bound done) := by
  induction bound generalizing done with
  | nil =>
      unfold propertiesWithin
      split
      · exact affords_pure (.refl _)
      · exact affords_throw _
  | cons first bound ih =>
      intro cursor budget hholds
      unfold propertiesWithin
      split
      · exact affords_pure (.refl _) cursor budget hholds
      · refine (isFree_shortText _).bind (fun name => ?_) cursor budget hholds
        split
        · exact (isFree_objectEnd lenient _).bind fun _ => affords_pure (.refl _)
        · refine (hchild _).bind fun value => ?_
          exact (ih (done.put name value)).exchange (hand.covers_put done name value)

/-- A bag of any kind takes its place, its properties and its marker. -/
theorem findsMarked_bag (kind : AmfValue.BagKind) :
    FindsMarked valueStore (do
      let slot ← reserve
      let properties ← properties lenient child
      complete slot (kind.fill properties)) := by
  intro hand
  refine affords_reserve.bind fun slot => ?_
  let opened := (hand.add [.null]).opening slot
  have hproperties : Affords valueStore opened (fun found => opened.add (found.map Prod.snd))
      (properties lenient child) :=
    fun cursor => affords_propertiesWithin lenient hchild opened cursor.rest [] cursor
  refine hproperties.bind fun found => affords_complete ?_
  rw [AmfValue.parts_fill]

theorem findsMarked_strictArray (count : Nat) :
    FindsMarked valueStore (do
      let slot ← reserve
      let items ← items child count []
      complete slot (.strictArray items)) := by
  intro hand
  refine affords_reserve.bind fun slot => ?_
  have hitems := affords_items hchild ((hand.add [.null]).opening slot) count []
  exact hitems.bind fun found => affords_complete (List.Sublist.refl _)

theorem findsMarked_body (marker : UInt8) :
    FindsMarked valueStore (body lenient child marker) := by
  unfold body
  split
  · exact isFree_binary64.findsMarked fun _ => findsMarked_leaf trivial
  · exact isFree_byte.findsMarked fun _ => findsMarked_leaf trivial
  · exact isFree_shortText.findsMarked fun _ => findsMarked_leaf trivial
  · exact findsMarked_bag lenient hchild .object
  · exact findsMarked_leaf trivial
  · exact findsMarked_leaf trivial
  · exact findsMarked_reference
  · exact isFree_count32.findsMarked fun _ => findsMarked_bag lenient hchild .ecmaArray
  · exact isFree_count32.findsMarked fun count => findsMarked_strictArray hchild count
  · exact (isFree_take 10).findsMarked fun _ => findsMarked_leaf trivial
  · exact isFree_longText.findsMarked fun _ => findsMarked_leaf trivial
  · exact findsMarked_leaf trivial
  · exact isFree_longText.findsMarked fun _ => findsMarked_leaf trivial
  · exact isFree_shortText.findsMarked fun className =>
      findsMarked_bag lenient hchild (.typedObject className)
  · exact findsMarked_newerValue
  · split
    · exact findsMarked_leaf trivial
    · exact fun _ => affords_throw _

end Bodies

theorem findsPaid_valueWithin (lenient : Bool) (budget : Nat) :
    FindsPaid valueStore (valueWithin lenient budget) := by
  induction budget with
  | zero => exact fun _ => affords_marked_none
  | succ budget ih =>
      exact fun hand => affords_marked fun marker => findsMarked_body lenient ih marker hand

end Amf0

end LiveRelay
