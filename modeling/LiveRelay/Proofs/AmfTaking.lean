import LiveRelay.Proofs.AmfNesting
import LiveRelay.Proofs.AmfRoundTrip

/-!
# The bytes that a reader takes

Values refer to earlier ones by their place in the tables, so what a reader
leaves in the tables counts as much as what it finds.  Readers put behind each
other take the bytes put behind each other and hand the tables on.

Both formats read the members of a value in a loop that ends with an empty
name.  A turn of the loop is the same in both.
-/

namespace LiveRelay

/-- Each item takes its bytes in the state that the items before it left. -/
inductive InTurn {σ ι : Type} (step : σ → ι → Bytes → σ → Prop) :
    σ → List ι → Bytes → σ → Prop
  | nil (state : σ) : InTurn step state [] [] state
  | cons {state between after : σ} {item : ι} {items : List ι} {first rest : Bytes}
      (hfirst : step state item first between) (hrest : InTurn step between items rest after) :
      InTurn step state (item :: items) (first ++ rest) after

namespace InTurn

variable {σ ι : Type} {step : σ → ι → Bytes → σ → Prop} {state between after : σ}

theorem single {item : ι} {bytes : Bytes} (hstep : step state item bytes after) :
    InTurn step state [item] bytes after := by
  have hturn := InTurn.cons hstep (.nil after)
  rwa [List.append_nil] at hturn

theorem append {before behind : List ι} {first second : Bytes}
    (hbefore : InTurn step state before first between)
    (hbehind : InTurn step between behind second after) :
    InTurn step state (before ++ behind) (first ++ second) after := by
  induction hbefore with
  | nil state => exact hbehind
  | cons hfirst hrest ih =>
      rw [List.append_assoc]
      exact .cons hfirst (ih hbehind)

/-- The same items, seen in other states. -/
theorem map {τ : Type} (view : σ → τ) {other : τ → ι → Bytes → τ → Prop} {items : List ι}
    {bytes : Bytes} (hturn : InTurn step state items bytes after)
    (hstep : ∀ item ∈ items, ∀ {state after bytes}, step state item bytes after →
      other (view state) item bytes (view after)) :
    InTurn other (view state) items bytes (view after) := by
  induction hturn with
  | nil state => exact .nil _
  | cons hfirst hrest ih =>
      exact .cons (hstep _ List.mem_cons_self hfirst)
        (ih fun item hitem => hstep item (List.mem_cons_of_mem _ hitem))

theorem exists_of_forall {items : List ι} (state : σ)
    (hstep : ∀ item ∈ items, ∀ state, ∃ bytes after, step state item bytes after) :
    ∃ bytes after, InTurn step state items bytes after := by
  induction items generalizing state with
  | nil => exact ⟨[], state, .nil state⟩
  | cons item items ih =>
      obtain ⟨first, between, hfirst⟩ := hstep item List.mem_cons_self state
      obtain ⟨rest, after, hrest⟩ :=
        ih between fun other hother => hstep other (List.mem_cons_of_mem _ hother)
      exact ⟨first ++ rest, after, .cons hfirst hrest⟩

end InTurn

namespace AmfReader

variable {Tables α β : Type}

/-- With these tables the reader takes these bytes, whatever follows them. -/
def Takes (reader : AmfReader Tables α) (known : Tables) (taken : Bytes) (found : α)
    (after : Tables) : Prop :=
  ∀ rest, reader ⟨known, taken ++ rest⟩ = .ok found ⟨after, rest⟩

/-! ## Readers behind each other -/

theorem exists_of_bind_ok {reader : AmfReader Tables α} {next : α → AmfReader Tables β}
    {cursor after : AmfCursor Tables} {found : β}
    (hrun : (reader >>= next) cursor = .ok found after) :
    ∃ middle between, reader cursor = .ok middle between ∧
      next middle between = .ok found after := by
  cases hreader : reader cursor with
  | ok middle between =>
      rw [bind_of_ok hreader] at hrun
      exact ⟨middle, between, rfl, hrun⟩
  | error error between =>
      rw [bind_of_error hreader] at hrun
      cases hrun

section Takes

variable {reader : AmfReader Tables α} {next : α → AmfReader Tables β}
  {known between after : Tables} {first second : Bytes} {middle : α} {found : β}

theorem takes_pure (found : α) (known : Tables) :
    Takes (pure found) known [] found known :=
  fun _ => rfl

theorem Takes.bind (hfirst : Takes reader known first middle between)
    (hsecond : Takes (next middle) between second found after) :
    Takes (reader >>= next) known (first ++ second) found after := by
  intro rest
  rw [List.append_assoc, bind_of_ok (hfirst _)]
  exact hsecond rest

/-- What follows takes no bytes. -/
theorem Takes.finish (hfirst : Takes reader known first middle between)
    (hsecond : Takes (next middle) between [] found after) :
    Takes (reader >>= next) known first found after := by
  have hboth := hfirst.bind hsecond
  rwa [List.append_nil] at hboth

theorem Takes.map (hfirst : Takes reader known first middle between) (change : α → β) :
    Takes (reader >>= fun found => pure (change found)) known first (change middle) between :=
  hfirst.finish (takes_pure (change middle) between)

theorem takes_tables (known : Tables) : Takes tables known [] known known :=
  fun _ => rfl

theorem takes_update (change : Tables → α × Tables) (known : Tables) :
    Takes (update change) known [] (change known).1 (change known).2 :=
  fun _ => rfl

theorem Takes.marked {read : UInt8 → AmfReader Tables AmfValue} {marker : UInt8}
    {taken : Bytes} {value : AmfValue} (htakes : Takes (read marker) known taken value after) :
    Takes (AmfReader.marked (some read)) known (marker :: taken) value after :=
  fun rest => htakes rest

/-- A reader that leaves the tables alone. -/
theorem Reads.takes (hreads : Reads reader first middle)
    (hquiet : ∀ known, Keeps (fun after => after = known) (fun _ => True) reader)
    (known : Tables) : Takes reader known first middle known := by
  intro rest
  obtain ⟨after, hreader⟩ := hreads known rest
  have hkept := hquiet known ⟨known, first ++ rest⟩ rfl
  rw [hreader] at hkept
  have htables : after.tables = known := hkept.1
  rw [hreader, ended, htables]

theorem Takes.ne_nil (htakes : Takes reader known first middle after)
    (hempty : ∀ known found after, reader ⟨known, []⟩ ≠ .ok found after) : first ≠ [] := by
  rintro rfl
  exact hempty known middle _ (htakes [])

end Takes

abbrev TakesItem (child : AmfReader Tables AmfValue) (known : Tables) (item : AmfValue)
    (bytes : Bytes) (after : Tables) : Prop :=
  Takes child known bytes item after

theorem takes_items {child : AmfReader Tables AmfValue} {known after : Tables}
    {items : List AmfValue} {bytes : Bytes}
    (hitems : InTurn (TakesItem child) known items bytes after) (done : List AmfValue) :
    Takes (AmfReader.items child items.length done) known bytes (done.reverse ++ items)
      after := by
  induction hitems generalizing done with
  | nil known =>
      rw [List.append_nil]
      exact takes_pure _ known
  | @cons known between after item items first rest hfirst hrest ih =>
      have hbehind := ih (item :: done)
      rw [List.reverse_cons, List.append_assoc] at hbehind
      exact hfirst.bind hbehind

/-! ## Members -/

/-- A turn of a loop over members. -/
def turn (name : AmfReader Tables String) (stop : AmfReader Tables Unit)
    (child : AmfReader Tables AmfValue) (next : Properties → AmfReader Tables Properties)
    (done : Properties) : AmfReader Tables Properties := do
  let name ← name
  if name.isEmpty then
    stop
    return done
  else
    let value ← child
    next (done.put name value)

section Turns

variable {name : AmfReader Tables String} {stop : AmfReader Tables Unit}
  {child : AmfReader Tables AmfValue} {next : Properties → AmfReader Tables Properties}
  {done found : Properties} {known between further after : Tables} {first second third : Bytes}

theorem takes_turn_end (hname : Takes name known first "" between)
    (hstop : Takes stop between second () after) :
    Takes (turn name stop child next done) known (first ++ second) done after :=
  hname.bind (hstop.finish (takes_pure done after))

theorem takes_turn_next {text : String} {value : AmfValue}
    (hname : Takes name known first text between) (htext : text ≠ "")
    (hchild : Takes child between second value further)
    (hnext : Takes (next (done.put text value)) further third found after) :
    Takes (turn name stop child next done) known (first ++ (second ++ third)) found after := by
  apply hname.bind
  have hmore : text.isEmpty = false := by simpa using htext
  rw [hmore]
  exact hchild.bind hnext

/-- The readers of a loop, which makes at most one turn for each byte of its
bound. -/
structure Loops (name : AmfReader Tables String) (stop : AmfReader Tables Unit)
    (child : AmfReader Tables AmfValue)
    (loop : Bytes → Properties → AmfReader Tables Properties) : Prop where
  turn_eq : ∀ first bound done cursor, cursor.rest ≠ [] →
    loop (first :: bound) done cursor = turn name stop child (loop bound) done cursor
  name_ne_ok : ∀ known found after, name ⟨known, []⟩ ≠ .ok found after

variable {loop : Bytes → Properties → AmfReader Tables Properties}

/-- Every turn takes a byte, so as many bytes as are taken bound the turns. -/
theorem Loops.takes_of_turn (hloops : Loops name stop child loop) {room : Bytes}
    {taken : Bytes} (hne : taken ≠ []) (hroom : taken.length ≤ room.length)
    (hturn : ∀ bound, room.length = bound.length + 1 →
      Takes (turn name stop child (loop bound) done) known taken found after) :
    Takes (loop room done) known taken found after := by
  obtain ⟨_, room, rfl⟩ := List.exists_cons_of_length_pos
    (Nat.lt_of_lt_of_le (List.length_pos_iff.mpr hne) hroom)
  intro rest
  rw [hloops.turn_eq _ _ _ _ (by simp [hne])]
  exact hturn room rfl rest

theorem Loops.takes_end (hloops : Loops name stop child loop)
    (hname : Takes name known first "" between) (hstop : Takes stop between second () after)
    {room : Bytes} (hroom : (first ++ second).length ≤ room.length) :
    Takes (loop room done) known (first ++ second) done after := by
  have hne := hname.ne_nil hloops.name_ne_ok
  exact hloops.takes_of_turn (by simp [hne]) hroom fun _ _ => takes_turn_end hname hstop

theorem Loops.takes_next (hloops : Loops name stop child loop) {text : String}
    {value : AmfValue} (hname : Takes name known first text between) (htext : text ≠ "")
    (hchild : Takes child between second value further) {room : Bytes}
    (hroom : (first ++ (second ++ third)).length ≤ room.length)
    (hnext : ∀ bound, third.length ≤ bound.length →
      Takes (loop bound (done.put text value)) further third found after) :
    Takes (loop room done) known (first ++ (second ++ third)) found after := by
  have hne := hname.ne_nil hloops.name_ne_ok
  have hpos := List.length_pos_iff.mpr hne
  refine hloops.takes_of_turn (by simp [hne]) hroom fun bound hbound => ?_
  refine takes_turn_next hname htext hchild (hnext bound ?_)
  simp only [List.length_append] at hroom
  omega

inductive TakesMember (name : AmfReader Tables String) (child : AmfReader Tables AmfValue) :
    Tables → String × AmfValue → Bytes → Tables → Prop
  | mk {known between after : Tables} {text : String} {value : AmfValue}
      {first second : Bytes} (hname : Takes name known first text between) (htext : text ≠ "")
      (hchild : Takes child between second value after) :
      TakesMember name child known (text, value) (first ++ second) after

theorem Loops.takes (hloops : Loops name stop child loop) {members : Properties}
    {bytes : Bytes} (hmembers : InTurn (TakesMember name child) known members bytes between)
    (hname : Takes name between first "" further) (hstop : Takes stop further second () after)
    (hnodup : (Table.keys (done ++ members)).Nodup) {room : Bytes}
    (hroom : (bytes ++ (first ++ second)).length ≤ room.length) :
    Takes (loop room done) known (bytes ++ (first ++ second)) (done ++ members) after := by
  induction hmembers generalizing done room with
  | nil known =>
      rw [List.append_nil]
      exact hloops.takes_end hname hstop hroom
  | @cons known next between member members bytes rest hmember hrest ih =>
      obtain ⟨hfirst, htext, hchild⟩ := hmember
      rename_i middle text value opening content
      -- The name is new, so the member goes behind what is done.
      have hput := Table.put_of_notMem (Table.notMem_keys_of_nodup hnodup) value
      have hnodup' := Table.nodup_keys_put_append hnodup value
      simp only [List.append_assoc] at hroom ⊢
      refine hloops.takes_next hfirst htext hchild hroom fun bound hbound => ?_
      have hbehind := ih hname hnodup' hbound
      rwa [hput, List.append_assoc, ← hput] at hbehind

end Turns

end AmfReader

end LiveRelay
