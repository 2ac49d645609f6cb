import LiveRelay.Proofs.AmfCuts
import LiveRelay.Proofs.CommandFields

/-!
# Commands that are cut off

A command whose payload is cut off behind its transaction is the command of the
values that end in front of the cut.  An object that the cut goes through is
found as well, but among all commands only `connect` looks at objects.

Inside the transaction a cut has another effect.  The marker of the transaction
is taken then, and its field is not, so what the payload has of the field is read
as parameters.
-/

namespace LiveRelay

namespace Amf0

open AmfReader

/-! ## Values of a payload that is cut off -/

/-- The values whose bytes end at the cut or in front of it. -/
def endingWithin : (cut : Nat) → List AmfValue → List AmfValue
  | _, [] => []
  | cut, value :: values =>
      if (write value).length ≤ cut then
        value :: endingWithin (cut - (write value).length) values
      else []

theorem endingWithin_of_le {cut : Nat} {value : AmfValue} (hcut : (write value).length ≤ cut)
    (values : List AmfValue) :
    endingWithin cut (value :: values) =
      value :: endingWithin (cut - (write value).length) values :=
  if_pos hcut

theorem endingWithin_of_lt {cut : Nat} {value : AmfValue} (hcut : cut < (write value).length)
    (values : List AmfValue) : endingWithin cut (value :: values) = [] :=
  if_neg (Nat.not_le_of_lt hcut)

theorem endingWithin_prefix (cut : Nat) (values : List AmfValue) :
    endingWithin cut values <+: values := by
  induction values generalizing cut with
  | nil => exact List.prefix_rfl
  | cons value values ih =>
      unfold endingWithin
      split
      · exact (List.prefix_cons_inj value).mpr (ih _)
      · exact List.nil_prefix

/-- What may be found behind these values, of the one that the cut goes through. -/
def IsRemnant (cut : Nat) (values remnant : List AmfValue) : Prop :=
  remnant = [] ∨ ∃ next left, values[(endingWithin cut values).length]? = some next ∧
    next.CutOff left ∧ remnant = [left]

theorem valuesUpTo_cut {value : AmfValue} (hwritable : value.IsWritable)
    (hheight : value.height ≤ AmfValue.maximumNesting) {cut : Nat}
    (hcut : cut < (write value).length) (count : Nat) (done : List AmfValue)
    (known : Amf0Tables) :
    ∃ remnant after, (remnant = [] ∨ ∃ left, value.CutOff left ∧ remnant = [left]) ∧
      valuesUpTo count done ⟨known, (write value).take cut⟩ =
        .ok (done.reverse ++ (remnant.take count).map AmfValue.asWritten) after := by
  have hlacking : (write value).drop cut ≠ [] := by
    rw [Ne, List.drop_eq_nil_iff]
    exact Nat.not_le_of_lt hcut
  have hends := endsWithin_valueWithin hwritable hheight known ((write value).take cut)
    ((write value).drop cut) (Nat.le_refl _) hlacking (List.take_append_drop cut _)
  cases count with
  | zero => exact ⟨[], _, .inl rfl, by rw [List.take_nil, List.map_nil, List.append_nil]; rfl⟩
  | succ count =>
      cases hrun : valueWithin true AmfValue.maximumNesting ⟨known, (write value).take cut⟩ with
      | error error after =>
          rw [hrun] at hends
          obtain rfl : error = .unexpectedEnd := hends
          refine ⟨[], after, .inl rfl, ?_⟩
          rw [valuesUpTo_of_end hrun]
          simp
      | ok found after =>
          rw [hrun] at hends
          obtain ⟨known, rest⟩ := after
          obtain ⟨⟨left, hleft, rfl⟩, rfl⟩ := hends
          refine ⟨[left], ⟨known, []⟩, .inr ⟨left, hleft, rfl⟩, ?_⟩
          rw [valuesUpTo_of_ok hrun, valuesUpTo_nil]
          simp

section Values

variable {values : List AmfValue} (hwritable : ∀ value ∈ values, value.IsWritable)
  (hheight : ∀ value ∈ values, value.height ≤ AmfValue.maximumNesting)
include hwritable hheight

theorem valuesUpTo_take (count cut : Nat) (done : List AmfValue) (known : Amf0Tables) :
    ∃ remnant after, IsRemnant cut values remnant ∧
      valuesUpTo count done ⟨known, (writeItems values).take cut⟩ =
        .ok (done.reverse ++
          ((endingWithin cut values ++ remnant).take count).map AmfValue.asWritten) after := by
  induction values generalizing count cut done known with
  | nil =>
      refine ⟨[], ⟨known, []⟩, .inl rfl, ?_⟩
      rw [writeItems, List.take_nil, valuesUpTo_nil]
      simp [endingWithin]
  | cons first values ih =>
      have hfirst := hwritable first List.mem_cons_self
      have hlow := hheight first List.mem_cons_self
      rcases Nat.lt_or_ge cut (write first).length with hinside | hwhole
      · obtain ⟨remnant, after, hremnant, hread⟩ :=
          valuesUpTo_cut hfirst hlow hinside count done known
        have hnone := endingWithin_of_lt hinside values
        refine ⟨remnant, after, hremnant.imp_right ?_, ?_⟩
        · rintro ⟨left, hcut, rfl⟩
          exact ⟨first, left, by rw [hnone]; rfl, hcut, rfl⟩
        · rw [writeItems, List.take_append_of_le_length (Nat.le_of_lt hinside), hread, hnone]
          rfl
      · have hending := endingWithin_of_le hwhole values
        cases count with
        | zero =>
            refine ⟨[], ⟨known, (writeItems (first :: values)).take cut⟩, .inl rfl, ?_⟩
            rw [List.take_zero, List.map_nil, List.append_nil]
            rfl
        | succ count =>
            have hread := takes_value hfirst hlow known
              ((writeItems values).take (cut - (write first).length))
            obtain ⟨remnant, after, hremnant, hrest⟩ := ih
              (fun other hother => hwritable other (List.mem_cons_of_mem _ hother))
              (fun other hother => hheight other (List.mem_cons_of_mem _ hother))
              count (cut - (write first).length) (first.asWritten :: done) _
            refine ⟨remnant, after, ?_, ?_⟩
            · rwa [IsRemnant, hending]
            · rw [writeItems, List.take_append, List.take_of_length_le hwhole,
                valuesUpTo_of_ok hread, hrest, hending]
              simp

end Values

end Amf0

/-! ## What the cut leaves of an object -/

namespace Command

section Append

variable {bag : AmfValue}

theorem bind_getElem?_append {α : Type} {view : AmfValue → Option α} (hview : view bag = none)
    (given : List AmfValue) (position : Nat) :
    (given ++ [bag])[position]?.bind view = given[position]?.bind view := by
  rcases Nat.lt_trichotomy position given.length with hlt | heq | hgt
  · rw [List.getElem?_append_left hlt]
  · subst heq
    rw [List.getElem?_concat_length, List.getElem?_eq_none (Nat.le_refl _)]
    exact hview
  · rw [List.getElem?_eq_none (by simp; omega), List.getElem?_eq_none (Nat.le_of_lt hgt)]

variable (hbag : ¬ bag.IsLeaf)
include hbag

theorem text?_eq_none : bag.text? = none := by
  cases bag <;> first | rfl | exact absurd trivial hbag

theorem number?_eq_none : bag.number? = none := by
  cases bag <;> first | rfl | exact absurd trivial hbag

variable (given : List AmfValue) (position : Nat)

theorem textAt_append : textAt (given ++ [bag]) position = textAt given position := by
  rw [textAt, textAt, bind_getElem?_append (text?_eq_none hbag)]

theorem numberAt?_append : numberAt? (given ++ [bag]) position = numberAt? given position :=
  bind_getElem?_append (number?_eq_none hbag) given position

theorem booleanAt?_append : booleanAt? (given ++ [bag]) position = booleanAt? given position := by
  have htruth : truth? bag = none := by
    cases bag <;> first | rfl | exact absurd trivial hbag
  rw [booleanAt?_eq, booleanAt?_eq, bind_getElem?_append htruth]

/-- Only `connect` looks at objects. -/
theorem read_append_of_ne_connect {name : String} {shape : Shape}
    (hshape : shape? name = some shape) (hne : name ≠ "connect") :
    shape.read (given ++ [bag]) = shape.read given := by
  have hmem := Table.mem_of_get? hshape
  have htext := bind_getElem?_append (text?_eq_none hbag) given
  simp only [shapes, List.mem_cons, Prod.mk.injEq, List.not_mem_nil, or_false] at hmem
  rcases hmem with ⟨rfl, -⟩ | ⟨-, rfl⟩ | ⟨-, rfl⟩ | ⟨-, rfl⟩ | ⟨-, rfl⟩ | ⟨-, rfl⟩ | ⟨-, rfl⟩ |
    ⟨-, rfl⟩ | ⟨-, rfl⟩ | ⟨-, rfl⟩ | ⟨-, rfl⟩ | ⟨-, rfl⟩
  · exact absurd rfl hne
  all_goals
    simp only [readPublish, readPlay, readDeleteStream, readPause, textAt_append hbag,
      numberAt?_append hbag, booleanAt?_append hbag, htext]

end Append

end Command

/-! ## Calls -/

namespace CommandCall

open Amf0

/-! ### Transactions -/

theorem readTransaction_nil (known : Amf0Tables) :
    readTransaction ⟨known, []⟩ = .ok .zero ⟨known, []⟩ :=
  rfl

theorem readTransaction_write (transaction : Binary64) (known : Amf0Tables) (rest : Bytes) :
    readTransaction ⟨known, write (.number transaction) ++ rest⟩ =
      .ok transaction ⟨known, rest⟩ := by
  have hwritable : (AmfValue.number transaction).IsWritable := .leaf trivial trivial rfl
  have hleaf : (AmfValue.number transaction).IsLeaf := trivial
  have hheight : (AmfValue.number transaction).height ≤ AmfValue.maximumNesting :=
    Nat.le_trans (Nat.le_of_eq (AmfValue.height_of_isLeaf hleaf)) (by decide)
  have hread := readTransaction_value hwritable hheight known rest
  rwa [AmfValue.holders_of_isLeaf hleaf, List.map_nil, Amf0Tables.add_nil] at hread

/-- The marker is taken, and the part of the field is not. -/
theorem readTransaction_part {field : Bytes} (hpart : field.length < 8) (known : Amf0Tables) :
    readTransaction ⟨known, 0x00 :: field⟩ = .ok .zero ⟨known, field⟩ := by
  have hshort : ¬ 8 ≤ field.length := Nat.not_le_of_lt hpart
  have htake : (AmfReader.take 8 : Amf0Reader Bytes) ⟨known, field⟩ =
      .error .unexpectedEnd ⟨known, field⟩ := by
    simp only [AmfReader.take, Bytes.split?_eq, if_neg hshort]
  have hread : Amf0.value true ⟨known, 0x00 :: field⟩ = .error .unexpectedEnd ⟨known, field⟩ :=
    AmfReader.bind_of_error (AmfReader.bind_of_error htake)
  simp only [readTransaction, hread]

/-! ### Payloads -/

section Known

variable {name : String} {shape : Command.Shape} (hknown : Command.shape? name = some shape)
  (streamId : UInt32)
include hknown

theorem read_calling (transaction : Binary64) {rest : Bytes} {given : List AmfValue}
    {after : AmfCursor Amf0Tables}
    (hgiven : valuesUpTo shape.arity [] ⟨{}, rest⟩ = .ok given after) :
    read streamId (write (.text name) ++ (write (.number transaction) ++ rest)) =
      .ok (some ⟨name, transaction, streamId, shape.read given⟩) :=
  read_name_of_ok hknown streamId (readTransaction_write transaction {} rest) hgiven

theorem read_values (transaction : Binary64) {parameters : List AmfValue}
    (hwritable : ∀ value ∈ parameters, value.IsWritable)
    (hheight : ∀ value ∈ parameters, value.height ≤ AmfValue.maximumNesting) :
    read streamId (writeItems (.text name :: .number transaction :: parameters)) =
      .ok (some ⟨name, transaction, streamId,
        shape.read ((parameters.take shape.arity).map AmfValue.asWritten)⟩) := by
  obtain ⟨after, hgiven⟩ := valuesUpTo_writeItems hwritable hheight shape.arity [] {}
  exact read_calling hknown streamId transaction hgiven

end Known

end CommandCall

/-- A call of a known command, as a client may write it. -/
structure WrittenCall where
  name : String
  shape : Command.Shape
  transaction : Binary64
  parameters : List AmfValue
  known : Command.shape? name = some shape
  writable : ∀ value ∈ parameters, value.IsWritable
  low : ∀ value ∈ parameters, value.height ≤ AmfValue.maximumNesting

namespace WrittenCall

open Amf0 CommandCall

def values (written : WrittenCall) : List AmfValue :=
  .text written.name :: .number written.transaction :: written.parameters

def nameEnd (written : WrittenCall) : Nat :=
  (write (.text written.name)).length

/-- A number takes nine bytes. -/
def transactionEnd (written : WrittenCall) : Nat :=
  written.nameEnd + 9

theorem length_write_number (transaction : Binary64) :
    (write (.number transaction)).length = 9 := by
  rw [write, List.length_cons, Bytes.ofWord64, Bytes.length_ofNumber]

section Cuts

variable (written : WrittenCall) {cut : Nat}

theorem take_of_nameEnd_le (hcut : written.nameEnd ≤ cut) :
    (writeItems written.values).take cut = write (.text written.name) ++
      (write (.number written.transaction) ++ writeItems written.parameters).take
        (cut - written.nameEnd) := by
  rw [values, writeItems, List.take_append, List.take_of_length_le hcut]
  rfl

theorem take_of_transactionEnd_le (hcut : written.transactionEnd ≤ cut) :
    (writeItems written.values).take cut = write (.text written.name) ++
      (write (.number written.transaction) ++
        (writeItems written.parameters).take (cut - written.transactionEnd)) := by
  have hnumber : (write (.number written.transaction)).length ≤ cut - written.nameEnd := by
    rw [length_write_number]
    unfold transactionEnd at hcut
    omega
  rw [written.take_of_nameEnd_le (Nat.le_of_add_right_le hcut), List.take_append,
    List.take_of_length_le hnumber, length_write_number, Nat.sub_sub]
  rfl

theorem endingWithin_of_transactionEnd_le (hcut : written.transactionEnd ≤ cut) :
    endingWithin cut written.values = .text written.name :: .number written.transaction ::
      endingWithin (cut - written.transactionEnd) written.parameters := by
  have hname : (write (.text written.name)).length ≤ cut := Nat.le_of_add_right_le hcut
  have hnumber : (write (.number written.transaction)).length ≤
      cut - (write (.text written.name)).length := by
    rw [length_write_number]
    unfold transactionEnd nameEnd at hcut
    omega
  rw [values, endingWithin_of_le hname, endingWithin_of_le hnumber, length_write_number,
    Nat.sub_sub]
  rfl

theorem endingWithin_nameEnd :
    endingWithin written.nameEnd written.values = [.text written.name] := by
  have hnumber : written.nameEnd - written.nameEnd <
      (write (.number written.transaction)).length := by
    rw [length_write_number, Nat.sub_self]
    decide
  have hname : (write (.text written.name)).length ≤ written.nameEnd := Nat.le_refl _
  rw [values, endingWithin_of_le hname]
  exact congrArg _ (endingWithin_of_lt hnumber _)

/-! ### The command of a payload that is cut off -/

variable (streamId : UInt32)

theorem read_take_nameEnd :
    read streamId ((writeItems written.values).take written.nameEnd) =
      .ok (some ⟨written.name, .zero, streamId, written.shape.read []⟩) := by
  rw [written.take_of_nameEnd_le (Nat.le_refl _), Nat.sub_self, List.take_zero]
  exact read_name_of_ok written.known streamId (readTransaction_nil {})
    (valuesUpTo_nil written.shape.arity [] {})

theorem read_take_of_lt (hname : written.nameEnd < cut) (hcut : cut < written.transactionEnd) :
    read streamId ((writeItems written.values).take cut) =
      match valuesUpTo written.shape.arity [] ⟨{}, (Bytes.ofWord64
        written.transaction.bits).take (cut - written.nameEnd - 1)⟩ with
      | .ok given _ => .ok (some ⟨written.name, .zero, streamId, written.shape.read given⟩)
      | .error error _ => .error (.amf error) := by
  have hlength : (Bytes.ofWord64 written.transaction.bits).length = 8 := Bytes.length_ofNumber 8 _
  obtain ⟨taken, htaken⟩ : ∃ taken, cut - written.nameEnd = taken + 1 :=
    ⟨cut - written.nameEnd - 1, by omega⟩
  unfold transactionEnd at hcut
  have hpart : ((Bytes.ofWord64 written.transaction.bits).take taken).length < 8 := by
    rw [List.length_take]
    omega
  have hfield : (write (.number written.transaction) ++ writeItems written.parameters).take
      (taken + 1) = 0x00 :: (Bytes.ofWord64 written.transaction.bits).take taken := by
    rw [write, List.cons_append, List.take_succ_cons,
      List.take_append_of_le_length (by omega)]
  have htransaction := readTransaction_part hpart {}
  rw [written.take_of_nameEnd_le (Nat.le_of_lt hname), htaken, hfield, Nat.add_sub_cancel]
  cases hgiven : valuesUpTo written.shape.arity [] ⟨{}, (Bytes.ofWord64
      written.transaction.bits).take taken⟩ with
  | ok given after => exact read_name_of_ok written.known streamId htransaction hgiven
  | error error after => exact read_name_of_error written.known streamId htransaction hgiven

theorem read_take_append (hconnect : written.name ≠ "connect") (given : List AmfValue)
    {next left : AmfValue} (hleft : next.CutOff left) :
    written.shape.read (((given ++ [left]).take written.shape.arity).map AmfValue.asWritten) =
      written.shape.read ((given.take written.shape.arity).map AmfValue.asWritten) := by
  rcases Nat.lt_or_ge given.length written.shape.arity with hroom | hfull
  · have hboth : (given ++ [left]).length ≤ written.shape.arity := by
      rw [List.length_append]
      exact hroom
    rw [List.take_of_length_le hboth, List.take_of_length_le (Nat.le_of_lt hroom),
      List.map_append]
    exact Command.read_append_of_ne_connect hleft.not_isLeaf_asWritten _ written.known hconnect
  · rw [List.take_append_of_le_length hfull]

theorem read_take_of_transactionEnd_le (hcut : written.transactionEnd ≤ cut) :
    ∃ command,
      read streamId ((writeItems written.values).take cut) =
        .ok (some ⟨written.name, written.transaction, streamId, command⟩) ∧
      (read streamId (writeItems (endingWithin cut written.values)) =
          .ok (some ⟨written.name, written.transaction, streamId, command⟩) ∨
        written.name = "connect" ∧ ∃ next left,
          written.values[(endingWithin cut written.values).length]? = some next ∧
          next.CutOff left ∧
          read streamId (writeItems (endingWithin cut written.values ++ [left])) =
            .ok (some ⟨written.name, written.transaction, streamId, command⟩)) := by
  have hending := written.endingWithin_of_transactionEnd_le hcut
  have hbehind := endingWithin_prefix (cut - written.transactionEnd) written.parameters
  have hwritable : ∀ value ∈ endingWithin (cut - written.transactionEnd) written.parameters,
      value.IsWritable := fun value hvalue => written.writable value (hbehind.mem hvalue)
  have hlow : ∀ value ∈ endingWithin (cut - written.transactionEnd) written.parameters,
      value.height ≤ AmfValue.maximumNesting := fun value hvalue =>
    written.low value (hbehind.mem hvalue)
  obtain ⟨remnant, after, hremnant, hgiven⟩ := valuesUpTo_take written.writable written.low
    written.shape.arity (cut - written.transactionEnd) [] {}
  have hread := read_calling written.known streamId written.transaction hgiven
  rw [List.reverse_nil, List.nil_append, ← written.take_of_transactionEnd_le hcut] at hread
  refine ⟨_, hread, ?_⟩
  rw [hending]
  have hwhole := read_values written.known streamId written.transaction hwritable hlow
  obtain rfl | ⟨next, left, hnext, hleft, rfl⟩ := hremnant
  · rw [List.append_nil]
    exact .inl hwhole
  · by_cases hconnect : written.name = "connect"
    · have hmem := List.mem_of_getElem? hnext
      have hleftWritable := hleft.isWritable (written.writable next hmem)
      have hleftLow := Nat.le_trans hleft.height_le (written.low next hmem)
      exact .inr ⟨hconnect, next, left, hnext, hleft, read_values written.known streamId
        written.transaction
        (List.forall_mem_append.mpr ⟨hwritable, List.forall_mem_singleton.mpr hleftWritable⟩)
        (List.forall_mem_append.mpr ⟨hlow, List.forall_mem_singleton.mpr hleftLow⟩)⟩
    · left
      rw [hwhole, written.read_take_append hconnect _ hleft]

/-- A payload that is cut off in front of its transaction or behind it gives the
call of the values that end in front of the cut.  For `connect` one more value may
count, of which the properties behind the cut are missing.  In the transaction,
the bytes that its field has are read as parameters. -/
theorem read_take (hcut : written.nameEnd ≤ cut) :
    (cut = written.nameEnd ∨ written.transactionEnd ≤ cut →
      ∃ call, read streamId ((writeItems written.values).take cut) = .ok (some call) ∧
        call.name = written.name ∧ call.streamId = streamId ∧
        call.transaction =
          (if written.transactionEnd ≤ cut then written.transaction else .zero) ∧
        (read streamId (writeItems (endingWithin cut written.values)) = .ok (some call) ∨
          written.name = "connect" ∧ ∃ next left,
            written.values[(endingWithin cut written.values).length]? = some next ∧
            next.CutOff left ∧
            read streamId (writeItems (endingWithin cut written.values ++ [left])) =
              .ok (some call))) ∧
    (cut ≠ written.nameEnd → cut < written.transactionEnd →
      read streamId ((writeItems written.values).take cut) =
        match valuesUpTo written.shape.arity [] ⟨{}, (Bytes.ofWord64
          written.transaction.bits).take (cut - written.nameEnd - 1)⟩ with
        | .ok given _ => .ok (some ⟨written.name, .zero, streamId, written.shape.read given⟩)
        | .error error _ => .error (.amf error)) := by
  constructor
  · rintro (rfl | hbehind)
    · have hread := written.read_take_nameEnd streamId
      refine ⟨_, hread, rfl, rfl, (if_neg (by unfold transactionEnd; omega)).symm, .inl ?_⟩
      rw [← hread, endingWithin_nameEnd, written.take_of_nameEnd_le (Nat.le_refl _),
        Nat.sub_self]
      rfl
    · obtain ⟨command, hread, hsame⟩ := written.read_take_of_transactionEnd_le streamId hbehind
      exact ⟨_, hread, rfl, rfl, (if_pos hbehind).symm, hsame⟩
  · intro hname hinside
    exact written.read_take_of_lt streamId (Nat.lt_of_le_of_ne hcut hname.symm) hinside

end Cuts

/-- The stream to delete is the last value. -/
def deletion : WrittenCall where
  name := "deleteStream"
  shape := ⟨2, Command.readDeleteStream⟩
  transaction := .ofInt 6
  parameters := [.null, .number (.ofInt 5)]
  known := rfl
  writable := by
    simp only [List.forall_mem_cons]
    exact ⟨.leaf trivial trivial rfl, .leaf trivial trivial rfl, List.forall_mem_nil _⟩
  low := by decide

/-- The payload ends in the number of the stream. -/
theorem read_take_of_deletion : ∃ call,
    read 1 ((writeItems deletion.values).take 27) = .ok (some call) ∧
      call.name = "deleteStream" ∧ call.streamId = 1 ∧ call.transaction = .ofInt 6 ∧
      read 1 (writeItems [.text "deleteStream", .number (.ofInt 6), .null]) =
        .ok (some call) := by
  obtain ⟨call, hread, hname, hstream, htransaction, hsame⟩ :=
    (deletion.read_take 1 (show deletion.nameEnd ≤ 27 by decide)).1 (.inr (by decide))
  refine ⟨call, hread, hname, hstream, htransaction, ?_⟩
  obtain hsame | ⟨hconnect, -⟩ := hsame
  · exact hsame
  · exact absurd hconnect (by decide)

/-- Whether to send audio is the last value.  The transaction is a number that
begins with the bytes of null and of false. -/
def muting : WrittenCall where
  name := "receiveAudio"
  shape := ⟨2, fun given => .receiveAudio ((Command.booleanAt? given 1).getD true)⟩
  transaction := ⟨0x0501000000000000⟩
  parameters := [.null, .boolean true]
  known := rfl
  writable := by
    simp only [List.forall_mem_cons]
    exact ⟨.leaf trivial trivial rfl, .leaf trivial trivial rfl, List.forall_mem_nil _⟩
  low := by decide

/-- Cut off in the transaction, the command is not the one of the name alone. -/
theorem receiveAudio_of_muting_cut :
    read 1 ((writeItems muting.values).take 19) =
        .ok (some ⟨"receiveAudio", .zero, 1, .receiveAudio false⟩) ∧
      endingWithin 19 muting.values = [.text "receiveAudio"] ∧
      read 1 (writeItems [.text "receiveAudio"]) =
        .ok (some ⟨"receiveAudio", .zero, 1, .receiveAudio true⟩) := by
  refine ⟨?_, rfl, ?_⟩
  · rw [muting.read_take_of_lt 1 (show muting.nameEnd < 19 by decide) (by decide)]
    rfl
  · exact muting.read_take_nameEnd 1

end WrittenCall

end LiveRelay
