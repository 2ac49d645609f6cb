import LiveRelay.Command
import LiveRelay.Proofs.AmfSequences
import Mathlib.Data.List.Induction

/-!
# Fields of commands

Every field of a command stands at a position among the parameters.  It is what the
parameter there shows, if that is of the kind the field has, and a default otherwise.
No field stands behind the parameters that a command takes, so what follows these
does not matter.

The fields of `connect` are properties of its command object, in any order.
-/

namespace LiveRelay

/-! ## Cut numbers -/

namespace Binary64

/-- The word is the integer part of the number, as near as a word comes to it. -/
structure IsCutTo (number : Binary64) (word : UInt32) : Prop where
  ofNaN : number.isNaN → word = 0
  ofNegative : number.isNegative → word = 0
  ofInfinite : ¬ number.isNegative → number.isInfinite → word = 0xFFFFFFFF
  ofFinite : ¬ number.isNaN → ¬ number.isNegative → ¬ number.isInfinite →
    word.toNat * number.magnitude.2 ≤ number.magnitude.1 ∧
      (number.magnitude.1 < (word.toNat + 1) * number.magnitude.2 ∨ word = 0xFFFFFFFF)

theorem truncate32_of_finite {number : Binary64} (hnumber : ¬ number.isNaN)
    (hpositive : ¬ number.isNegative) (hfinite : ¬ number.isInfinite) :
    number.truncate32 =
      UInt32.ofNat (min (number.magnitude.1 / number.magnitude.2) 0xFFFFFFFF) := by
  simp [truncate32, hnumber, hpositive, hfinite]

theorem isCutTo_truncate32 (number : Binary64) : number.IsCutTo number.truncate32 where
  ofNaN hnan := by simp [truncate32, hnan]
  ofNegative hnegative := by simp [truncate32, hnegative]
  ofInfinite hpositive hinfinite := by
    have hnumber : ¬ number.isNaN := by
      simp_all [isNaN, isInfinite]
    simp [truncate32, hnumber, hpositive, hinfinite]
  ofFinite hnumber hpositive hfinite := by
    have hdenominator : 0 < number.magnitude.2 := by
      change 0 < 1 <<< (1075 - number.scale)
      rw [Nat.one_shiftLeft]
      exact Nat.two_pow_pos _
    have hbelow := Nat.div_mul_le_self number.magnitude.1 number.magnitude.2
    rw [truncate32_of_finite hnumber hpositive hfinite]
    rcases Nat.le_total (number.magnitude.1 / number.magnitude.2) 0xFFFFFFFF with hle | hge
    · rw [Nat.min_eq_left hle, UInt32.toNat_ofNat_of_lt' (Nat.lt_of_le_of_lt hle (by decide))]
      exact ⟨hbelow, .inl ((Nat.div_lt_iff_lt_mul hdenominator).mp (Nat.lt_succ_self _))⟩
    · rw [Nat.min_eq_right hge]
      exact ⟨Nat.le_trans (Nat.mul_le_mul_right _ hge) hbelow, .inr rfl⟩

end Binary64

/-! ## Fields of `connect` -/

namespace ConnectParameters

/-- The names that have a meaning of their own. -/
def understood : List String :=
  ["app", "flashVer", "flashver", "swfUrl", "swfurl", "tcUrl", "tcurl", "pageUrl", "pageurl",
    "objectEncoding", "objectencoding"]

/-- A field shows a property under one of its names, and its default if there is
none. -/
def Shows {α : Type} (properties : Properties) (names : List String)
    (view : AmfValue → α) (default shown : α) : Prop :=
  (∃ name ∈ names, ∃ value, properties.get? name = some value ∧ shown = view value) ∨
    (∀ name ∈ names, properties.get? name = none) ∧ shown = default

/-- The parameters that the properties of a command object stand for. -/
structure AreOf (properties : Properties) (parameters : ConnectParameters) : Prop where
  app : parameters.app =
    withoutQuery (((properties.get? "app").bind AmfValue.text?).getD "")
  flashVersion : Shows properties ["flashVer", "flashver"] AmfValue.text? none
    parameters.flashVersion
  swfUrl : Shows properties ["swfUrl", "swfurl"] AmfValue.text? none parameters.swfUrl
  tcUrl : Shows properties ["tcUrl", "tcurl"] AmfValue.text? none parameters.tcUrl
  pageUrl : Shows properties ["pageUrl", "pageurl"] AmfValue.text? none parameters.pageUrl
  objectEncoding : Shows properties ["objectEncoding", "objectencoding"]
    (fun value => value.number?.getD .zero) .zero parameters.objectEncoding
  extra : ∀ name, parameters.extra.get? name =
    if name ∈ understood then none else properties.get? name

theorem Shows.put {α : Type} {properties : Properties} {names : List String}
    {view : AmfValue → α} {default shown : α}
    (hshows : Shows properties names view default shown) (name : String) (value : AmfValue) :
    Shows (properties.put name value) names view default
      (if name ∈ names then view value else shown) := by
  split
  · rename_i hname
    exact .inl ⟨name, hname, value, by rw [Table.get?_put, if_pos rfl], rfl⟩
  · rename_i hname
    have hsame : ∀ other ∈ names, (properties.put name value).get? other =
        properties.get? other := by
      intro other hother
      rw [Table.get?_put, if_neg]
      rintro rfl
      exact hname hother
    rcases hshows with ⟨other, hother, found, hfound, hshown⟩ | ⟨hnone, hshown⟩
    · exact .inl ⟨other, hother, found, (hsame other hother).trans hfound, hshown⟩
    · exact .inr ⟨fun other hother => (hsame other hother).trans (hnone other hother), hshown⟩

/-- Properties are set one after another, each name once. -/
theorem foldl_set {motive : Properties → ConnectParameters → Prop} (hnone : motive [] {})
    (hset : ∀ properties parameters name value, name ∉ Table.keys properties →
      motive properties parameters →
      motive (Table.put properties name value) (parameters.set name value))
    {properties : Properties} (hnodup : (Table.keys properties).Nodup) :
    motive properties
      (properties.foldl (fun parameters (name, value) => set parameters name value) {}) := by
  induction properties using List.reverseRecOn with
  | nil => exact hnone
  | append_singleton properties property ih =>
      obtain ⟨name, value⟩ := property
      have habsent := Table.notMem_keys_of_nodup hnodup
      rw [Table.keys, List.map_append, List.nodup_append] at hnodup
      rw [List.foldl_append, ← Table.put_of_notMem habsent]
      exact hset _ _ name value habsent (ih hnodup.1)

theorem set_eq (parameters : ConnectParameters) (name : String) (value : AmfValue) :
    parameters.set name value =
      { parameters with
        app := if name = "app" then value.text?.getD parameters.app else parameters.app
        flashVersion :=
          if name ∈ ["flashVer", "flashver"] then value.text? else parameters.flashVersion
        swfUrl := if name ∈ ["swfUrl", "swfurl"] then value.text? else parameters.swfUrl
        tcUrl := if name ∈ ["tcUrl", "tcurl"] then value.text? else parameters.tcUrl
        pageUrl := if name ∈ ["pageUrl", "pageurl"] then value.text? else parameters.pageUrl
        objectEncoding :=
          if name ∈ ["objectEncoding", "objectencoding"] then value.number?.getD .zero
          else parameters.objectEncoding
        extra :=
          if name ∈ understood then parameters.extra else parameters.extra.put name value } := by
  by_cases hmeant : name ∈ understood
  · simp only [understood, List.mem_cons, List.not_mem_nil, or_false] at hmeant
    rcases hmeant with rfl | rfl | rfl | rfl | rfl | rfl | rfl | rfl | rfl | rfl | rfl
    · cases value <;> rfl
    all_goals rfl
  · simp_all [understood, set]

theorem areOf_nil : AreOf [] {} where
  app := rfl
  flashVersion := .inr ⟨fun _ _ => rfl, rfl⟩
  swfUrl := .inr ⟨fun _ _ => rfl, rfl⟩
  tcUrl := .inr ⟨fun _ _ => rfl, rfl⟩
  pageUrl := .inr ⟨fun _ _ => rfl, rfl⟩
  objectEncoding := .inr ⟨fun _ _ => rfl, rfl⟩
  extra _ := (ite_self none).symm

section Set

variable {properties : Properties} {parameters : ConnectParameters} (name : String)
  (value : AmfValue)

/-- A name that is no text leaves the application as it is, which has not been set. -/
theorem app_set (habsent : name ∉ Table.keys properties)
    (happ : withoutQuery parameters.app =
      withoutQuery (((properties.get? "app").bind AmfValue.text?).getD "")) :
    withoutQuery (parameters.set name value).app =
      withoutQuery ((((properties.put name value).get? "app").bind AmfValue.text?).getD "") := by
  rw [set_eq, Table.get?_put]
  dsimp only
  by_cases hname : name = "app"
  · subst hname
    rw [Table.get?_eq_none_iff.mpr habsent] at happ
    rw [if_pos rfl, if_pos rfl, Option.bind_some]
    cases value.text? with
    | none => exact happ
    | some text => rfl
  · rw [if_neg hname, if_neg hname]
    exact happ

theorem extra_set
    (hextra : ∀ other, parameters.extra.get? other =
      if other ∈ understood then none else properties.get? other) (other : String) :
    (parameters.set name value).extra.get? other =
      if other ∈ understood then none else (properties.put name value).get? other := by
  rw [set_eq, Table.get?_put]
  dsimp only
  by_cases hmeant : name ∈ understood
  · rw [if_pos hmeant, hextra]
    split_ifs with hother hsame
    · rfl
    · exact absurd (hsame ▸ hmeant) hother
    · rfl
  · rw [if_neg hmeant, Table.get?_put, hextra]
    split_ifs with hsame hother
    · exact absurd (hsame ▸ hother) hmeant
    all_goals rfl

end Set

theorem areOf_ofProperties {properties : Properties}
    (hnodup : (Table.keys properties).Nodup) :
    (ofProperties properties).AreOf properties := by
  refine foldl_set (motive := fun properties parameters =>
    AreOf properties { parameters with app := withoutQuery parameters.app })
    areOf_nil (fun properties parameters name value habsent hare => ?_) hnodup
  have happ := app_set name value habsent hare.app
  have hextra := extra_set name value hare.extra
  rw [set_eq] at happ hextra ⊢
  exact ⟨happ, hare.flashVersion.put name value, hare.swfUrl.put name value,
    hare.tcUrl.put name value, hare.pageUrl.put name value,
    hare.objectEncoding.put name value, hextra⟩

theorem AreOf.withArguments {properties : Properties} {parameters : ConnectParameters}
    (hare : parameters.AreOf properties) (arguments : Option Properties) :
    AreOf properties { parameters with arguments := arguments } :=
  ⟨hare.app, hare.flashVersion, hare.swfUrl, hare.tcUrl, hare.pageUrl, hare.objectEncoding,
    hare.extra⟩

theorem areOf_ofValue {value : AmfValue} (hregular : value.IsRegular) :
    (ofValue value).AreOf (value.properties?.getD []) := by
  refine areOf_ofProperties ?_
  cases value with
  | object properties => exact hregular
  | ecmaArray properties => exact hregular
  | typedObject className properties => exact hregular
  | _ => exact List.nodup_nil

end ConnectParameters

/-! ## Fields by position -/

namespace Command

/-- A truth value, for which a number may stand. -/
def truth? : AmfValue → Option Bool
  | .boolean flag => some flag
  | .number value => some !value.isZero
  | _ => none

theorem booleanAt?_eq (parameters : List AmfValue) (position : Nat) :
    booleanAt? parameters position = parameters[position]?.bind truth? := by
  unfold booleanAt?
  cases parameters[position]? with
  | none => rfl
  | some value => cases value <;> rfl

/-- What the parameter at a position shows, if it is there and of that kind. -/
def field {α : Type} (given : List AmfValue) (position : Nat) (view : AmfValue → Option α)
    (default : α) : α :=
  (given[position]?.bind view).getD default

/-- How many of the given parameters a command takes, and what it makes of them. -/
inductive Means (given : List AmfValue) : String → Nat → Command → Prop
  | connect {parameters : ConnectParameters}
      (hobject : parameters.AreOf (field given 0 AmfValue.properties? []))
      (harguments : parameters.arguments = given[1]?.bind AmfValue.properties?) :
      Means given "connect" 2 (.connect parameters)
  | createStream : Means given "createStream" 1 .createStream
  | publish :
      Means given "publish" 3 (.publish
        { streamName := field given 1 AmfValue.text? ""
          publishType := field given 2 AmfValue.text? "live" })
  | play :
      Means given "play" 5 (.play
        { streamName := field given 1 AmfValue.text? ""
          start := field given 2 AmfValue.number? (.ofInt (-2))
          duration := field given 3 AmfValue.number? (.ofInt (-1))
          reset := field given 4 truth? true })
  | closeStream : Means given "closeStream" 1 .closeStream
  | deleteStream {streamId : UInt32}
      (hstream : (field given 1 AmfValue.number? .zero).IsCutTo streamId) :
      Means given "deleteStream" 2 (.deleteStream streamId)
  | pause :
      Means given "pause" 3
        (.pause (field given 1 truth? false) (field given 2 AmfValue.number? .zero))
  | receiveAudio : Means given "receiveAudio" 2 (.receiveAudio (field given 1 truth? true))
  | receiveVideo : Means given "receiveVideo" 2 (.receiveVideo (field given 1 truth? true))
  | releaseStream :
      Means given "releaseStream" 2 (.releaseStream (field given 1 AmfValue.text? ""))
  | announcePublish :
      Means given "FCPublish" 2 (.announcePublish (field given 1 AmfValue.text? ""))
  | announceUnpublish :
      Means given "FCUnpublish" 2 (.announceUnpublish (field given 1 AmfValue.text? ""))

theorem areOf_object {given : List AmfValue} (hregular : ∀ value ∈ given, value.IsRegular) :
    ((given[0]?.map ConnectParameters.ofValue).getD {}).AreOf
      (field given 0 AmfValue.properties? []) := by
  unfold field
  cases hobject : given[0]? with
  | none => exact ConnectParameters.areOf_nil
  | some value =>
      exact ConnectParameters.areOf_ofValue (hregular value (List.mem_of_getElem? hobject))

/-- No field of a command stands behind the parameters that it takes. -/
theorem means_read {name : String} {shape : Shape} (hknown : shape? name = some shape)
    {given : List AmfValue} (hregular : ∀ value ∈ given, value.IsRegular) :
    Means given name shape.arity (shape.read (given.take shape.arity)) := by
  have hmem := Table.mem_of_get? hknown
  simp only [shapes, List.mem_cons, Prod.mk.injEq, List.not_mem_nil, or_false] at hmem
  rcases hmem with ⟨rfl, rfl⟩ | ⟨rfl, rfl⟩ | ⟨rfl, rfl⟩ | ⟨rfl, rfl⟩ | ⟨rfl, rfl⟩ | ⟨rfl, rfl⟩ |
    ⟨rfl, rfl⟩ | ⟨rfl, rfl⟩ | ⟨rfl, rfl⟩ | ⟨rfl, rfl⟩ | ⟨rfl, rfl⟩ | ⟨rfl, rfl⟩
  all_goals
    simp only [readConnect, readPublish, readPlay, readDeleteStream, readPause, textAt,
      numberAt?, booleanAt?_eq, List.getElem?_take, Nat.reduceLT, reduceIte]
  · exact .connect ((areOf_object hregular).withArguments _) rfl
  · exact .createStream
  · exact .publish
  · exact .play
  · exact .closeStream
  · exact .deleteStream (Binary64.isCutTo_truncate32 _)
  · exact .pause
  · exact .receiveAudio
  · exact .receiveVideo
  · exact .releaseStream
  · exact .announcePublish
  · exact .announceUnpublish

end Command

/-! ## Calls -/

namespace CommandCall

open Amf0

theorem takes_name {name : String} {shape : Command.Shape}
    (hknown : Command.shape? name = some shape) :
    AmfReader.Takes (Amf0.value true) {} (write (.text name)) (.text name) {} := by
  have hshort : ∀ name ∈ Table.keys Command.shapes, (AmfValue.text name).IsRegular := by decide
  have hname : name ∈ Table.keys Command.shapes :=
    List.mem_map.mpr ⟨(name, shape), Table.mem_of_get? hknown, rfl⟩
  have hleaf : (AmfValue.text name).IsLeaf := trivial
  exact takes_value_of_isLeaf hleaf (hshort name hname) {}

theorem number?_asWritten (value : AmfValue) : value.asWritten.number? = value.number? := by
  cases value <;> rfl

theorem readTransaction_value {transaction : AmfValue} (hwritable : transaction.IsWritable)
    (hheight : transaction.height ≤ AmfValue.maximumNesting) (known : Amf0Tables)
    (rest : Bytes) :
    readTransaction ⟨known, write transaction ++ rest⟩ =
      .ok (transaction.number?.getD .zero)
        ⟨known.add (transaction.holders.map AmfValue.asWritten), rest⟩ := by
  have hread := takes_value hwritable hheight known rest
  simp only [readTransaction, hread, number?_asWritten]

section Known

variable {name : String} {shape : Command.Shape} (hknown : Command.shape? name = some shape)
  (streamId : UInt32)
include hknown

section Name

variable {rest : Bytes} {transaction : Binary64} {between after : AmfCursor Amf0Tables}
  (htransaction : readTransaction ⟨{}, rest⟩ = .ok transaction between)
include htransaction

theorem read_name_of_ok {given : List AmfValue}
    (hgiven : valuesUpTo shape.arity [] between = .ok given after) :
    read streamId (write (.text name) ++ rest) =
      .ok (some ⟨name, transaction, streamId, shape.read given⟩) := by
  have hafter : afterName streamId name shape ⟨{}, rest⟩ =
      .ok ⟨name, transaction, streamId, shape.read given⟩ after := by
    rw [afterName, AmfReader.bind_of_ok htransaction, AmfReader.bind_of_ok hgiven]
    rfl
  simp only [read, takes_name hknown rest, hknown, hafter]

theorem read_name_of_error {error : AmfError}
    (hgiven : valuesUpTo shape.arity [] between = .error error after) :
    read streamId (write (.text name) ++ rest) = .error (.amf error) := by
  have hafter : afterName streamId name shape ⟨{}, rest⟩ = .error error after := by
    rw [afterName, AmfReader.bind_of_ok htransaction, AmfReader.bind_of_error hgiven]
  simp only [read, takes_name hknown rest, hknown, hafter]

end Name

variable {transaction : AmfValue} {parameters : List AmfValue}
  (hwritable : ∀ value ∈ transaction :: parameters, value.IsWritable)
  (hheight : ∀ value ∈ transaction :: parameters, value.height ≤ AmfValue.maximumNesting)
include hwritable hheight

theorem read_append {appended : Bytes}
    (happended : parameters.length < shape.arity → appended = []) :
    read streamId (writeItems (.text name :: transaction :: parameters) ++ appended) =
      .ok (some ⟨name, transaction.number?.getD .zero, streamId,
        shape.read ((parameters.map AmfValue.asWritten).take shape.arity)⟩) := by
  rw [List.forall_mem_cons] at hwritable hheight
  obtain ⟨after, hgiven⟩ := valuesUpTo_append hwritable.2 hheight.2 shape.arity []
    (Amf0Tables.add {} (transaction.holders.map AmfValue.asWritten)) happended
  have htransaction := readTransaction_value hwritable.1 hheight.1 {}
    (writeItems parameters ++ appended)
  rw [writeItems, writeItems, List.append_assoc, List.append_assoc,
    read_name_of_ok hknown streamId htransaction hgiven, List.reverse_nil, List.nil_append,
    List.map_take]

end Known

/-- A known command is read by position: fields that are missing or of another kind have
their defaults, and what follows the parameters that it takes does not matter. -/
theorem read_means {name : String} (hknown : Command.isKnown name) (streamId : UInt32)
    {transaction : AmfValue} {parameters : List AmfValue}
    (hwritable : ∀ value ∈ transaction :: parameters, value.IsWritable)
    (hheight : ∀ value ∈ transaction :: parameters,
      value.height ≤ AmfValue.maximumNesting) :
    ∃ arity command, Command.Means (parameters.map AmfValue.asWritten) name arity command ∧
      read streamId (writeItems (.text name :: transaction :: parameters)) =
        .ok (some ⟨name, transaction.number?.getD .zero, streamId, command⟩) ∧
      (arity ≤ parameters.length → ∀ appended,
        read streamId (writeItems (.text name :: transaction :: parameters) ++ appended) =
          .ok (some ⟨name, transaction.number?.getD .zero, streamId, command⟩)) := by
  obtain ⟨shape, hshape⟩ := Option.isSome_iff_exists.mp hknown
  have hregular : ∀ value ∈ parameters.map AmfValue.asWritten, value.IsRegular := by
    rw [List.forall_mem_map]
    intro value hvalue
    exact (hwritable value (List.mem_cons_of_mem _ hvalue)).regular.here.asWritten
  have hplain := read_append hshape streamId hwritable hheight fun _ => rfl
  rw [List.append_nil] at hplain
  refine ⟨shape.arity, _, Command.means_read hshape hregular, hplain, fun henough appended => ?_⟩
  exact read_append hshape streamId hwritable hheight fun hfewer =>
    absurd henough (Nat.not_le_of_lt hfewer)

/-- The start is of another kind, a number stands for a truth value, and behind the
five parameters there are another value and two bytes that are none. -/
theorem read_means_of_play :
    read 1 (writeItems [.text "play", .null, .null, .text "cam", .text "now", .number (.ofInt 3),
        .number .zero, .boolean true] ++ [0x0E, 0xFF]) =
      .ok (some ⟨"play", .zero, 1, .play ⟨"cam", .ofInt (-2), .ofInt 3, false⟩⟩) := by
  have hwritable : ∀ value ∈ [AmfValue.null, .null, .text "cam", .text "now", .number (.ofInt 3),
      .number .zero, .boolean true], value.IsWritable := by
    simp only [List.forall_mem_cons]
    exact ⟨.leaf trivial trivial rfl, .leaf trivial trivial rfl, .leaf (by decide) trivial rfl,
      .leaf (by decide) trivial rfl, .leaf trivial trivial rfl, .leaf trivial trivial rfl,
      .leaf trivial trivial rfl, List.forall_mem_nil _⟩
  obtain ⟨arity, command, hmeans, -, hsame⟩ :=
    read_means (show Command.isKnown "play" by rfl) 1 hwritable (by decide)
  generalize hname : "play" = name at hmeans
  cases hmeans
  case play => exact hsame (by decide) _
  all_goals exact absurd hname (by decide)

end CommandCall

end LiveRelay
