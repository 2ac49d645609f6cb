import LiveRelay.Proofs.HandshakeBlocks

/-!
# A handshake in pieces

How far a handshake has come depends on the bytes that have come in, not on how
they were cut: on their number, and on the client's first block for the layout.
A call takes the handshake from what the bytes before it have reached to what
the bytes with it reach, through several stages if need be.  The call that
completes the client's first block is the one that answers, also if it goes on
to the second block.
-/

namespace LiveRelay

namespace Handshake

/-! ## What the bytes reach -/

/-- Where a handshake stands, and the bytes that it has left. -/
structure Progress where
  handshake : Handshake := {}
  rest : Bytes := []

/-- The client's first block stands behind the version byte. -/
def clientBlockOf (bytes : Bytes) : Bytes :=
  sliceAt bytes 1 HandshakeSchema.blockSize

/-- How far a handshake has come when these bytes have come in. -/
def progressOf (keyed : KeyedDigest) (bytes : Bytes) : Progress :=
  if bytes.length < 1 then ⟨⟨.awaitVersion, none⟩, []⟩
  else if bytes.length < 1537 then ⟨⟨.awaitFirst, none⟩, bytes.drop 1⟩
  else
    let schema := some (schemaOf keyed (clientBlockOf bytes))
    if bytes.length < 3073 then ⟨⟨.awaitSecond, schema⟩, bytes.drop 1537⟩
    else ⟨⟨.done, schema⟩, bytes.drop 3073⟩

variable {keyed : KeyedDigest} {bytes more : Bytes}

theorem length_clientBlockOf (hwhole : 1537 ≤ bytes.length) :
    (clientBlockOf bytes).length = HandshakeSchema.blockSize :=
  length_sliceAt hwhole

/-- Bytes behind the client's first block are no part of it. -/
theorem clientBlockOf_append (hwhole : 1537 ≤ bytes.length) (more : Bytes) :
    clientBlockOf (bytes ++ more) = clientBlockOf bytes := by
  simp only [clientBlockOf, sliceAt]
  rw [List.drop_append_of_le_length (by omega), List.take_append_of_le_length]
  rw [List.length_drop]
  exact Nat.le_sub_of_add_le hwhole

theorem progressOf_of_version (hversion : 1 ≤ bytes.length) (hshort : bytes.length < 1537) :
    progressOf keyed bytes = ⟨⟨.awaitFirst, none⟩, bytes.drop 1⟩ := by
  rw [progressOf, if_neg (by omega), if_pos hshort]

theorem progressOf_of_first (hwhole : 1537 ≤ bytes.length) (hshort : bytes.length < 3073) :
    progressOf keyed bytes =
      ⟨⟨.awaitSecond, some (schemaOf keyed (clientBlockOf bytes))⟩, bytes.drop 1537⟩ := by
  rw [progressOf, if_neg (by omega), if_neg (by omega), if_pos hshort]

theorem progressOf_of_second (hwhole : 3073 ≤ bytes.length) :
    progressOf keyed bytes =
      ⟨⟨.done, some (schemaOf keyed (clientBlockOf bytes))⟩, bytes.drop 3073⟩ := by
  rw [progressOf, if_neg (by omega), if_neg (by omega), if_neg (by omega)]

/-! ## One call -/

def Outcome.progress (outcome : Outcome) : Progress :=
  ⟨outcome.handshake, outcome.rest⟩

/-- The call returns this, and it has come as far as the bytes reach. -/
structure Outcome.Follows (keyed : KeyedDigest) (bytes : Bytes) (response : Option Bytes)
    (outcome : Outcome) : Prop where
  response_eq : outcome.response = .ok response
  progress_eq : outcome.progress = progressOf keyed bytes

theorem follows_fromSecond (response : Option Bytes) (hwhole : 1537 ≤ bytes.length) :
    (fromSecond response (some (schemaOf keyed (clientBlockOf bytes)))
      (bytes.drop 1537)).Follows keyed bytes response := by
  unfold fromSecond
  rw [Bytes.split?_eq, List.length_drop, HandshakeSchema.blockSize]
  by_cases hsecond : 3073 ≤ bytes.length
  · rw [if_pos (by omega), List.drop_drop]
    exact ⟨rfl, (progressOf_of_second hsecond).symm⟩
  · rw [if_neg (by omega)]
    exact ⟨rfl, (progressOf_of_first hwhole (by omega)).symm⟩

/-- What a call returns that has the client's first block in front of it. -/
def IsAnswer (keyed : KeyedDigest) (fill : Fill) (bytes response : Bytes) : Prop :=
  respond keyed fill (clientBlockOf bytes) =
      .ok (schemaOf keyed (clientBlockOf bytes), response) ∧
    response.length = 3073 ∧ response.head? = some version

theorem follows_fromFirst_of_short (fill : Fill) (hversion : 1 ≤ bytes.length)
    (hshort : bytes.length < 1537) :
    (fromFirst keyed fill (bytes.drop 1)).Follows keyed bytes none := by
  unfold fromFirst
  rw [Bytes.split?_eq, List.length_drop, HandshakeSchema.blockSize, if_neg (by omega)]
  exact ⟨rfl, (progressOf_of_version hversion hshort).symm⟩

theorem follows_fromFirst_of_whole (fill : Fill) (hwhole : 1537 ≤ bytes.length) :
    ∃ response, IsAnswer keyed fill bytes response ∧
      (fromFirst keyed fill (bytes.drop 1)).Follows keyed bytes (some response) := by
  obtain ⟨response, hrespond, hlength, hhead⟩ :=
    exists_respond keyed fill (length_clientBlockOf hwhole)
  have hfits : HandshakeSchema.blockSize ≤ (bytes.drop 1).length := by
    rw [List.length_drop]
    exact Nat.le_sub_of_add_le hwhole
  have hblock : (bytes.drop 1).take HandshakeSchema.blockSize = clientBlockOf bytes := rfl
  refine ⟨response, ⟨hrespond, hlength, hhead⟩, ?_⟩
  unfold fromFirst
  rw [Bytes.split?_eq, if_pos hfits]
  simp only [hblock, hrespond, List.drop_drop]
  exact follows_fromSecond (some response) hwhole

/-- A call that does not complete the client's first block returns nothing. -/
theorem follows_process_of_silent (fill : Fill)
    (hsilent : (bytes ++ more).length < 1537 ∨ 1537 ≤ bytes.length) :
    let progress := progressOf keyed bytes
    (progress.handshake.process keyed fill (progress.rest ++ more)).Follows keyed
      (bytes ++ more) none := by
  have hlength : (bytes ++ more).length = bytes.length + more.length :=
    List.length_append
  rcases hsilent with hshort | hwhole
  · by_cases hempty : bytes = []
    · subst hempty
      cases more with
      | nil => exact ⟨rfl, rfl⟩
      | cons first more =>
          exact @follows_fromFirst_of_short keyed (first :: more) fill (Nat.succ_pos _) hshort
    · have hversion := List.length_pos_iff.mpr hempty
      rw [progressOf_of_version hversion (by omega)]
      simp only [process]
      rw [← List.drop_append_of_le_length hversion]
      exact follows_fromFirst_of_short fill (by omega) hshort
  · by_cases hsecond : bytes.length < 3073
    · rw [progressOf_of_first hwhole hsecond]
      simp only [process]
      rw [← List.drop_append_of_le_length hwhole]
      rw [← clientBlockOf_append hwhole more]
      exact follows_fromSecond none (by omega)
    · rw [progressOf_of_second (by omega)]
      refine ⟨rfl, ?_⟩
      rw [progressOf_of_second (by omega), clientBlockOf_append hwhole,
        List.drop_append_of_le_length (by omega)]
      rfl

/-- The call that completes the client's first block answers it. -/
theorem follows_process_of_answering (keyed : KeyedDigest) (fill : Fill)
    (hshort : bytes.length < 1537) (hwhole : 1537 ≤ (bytes ++ more).length) :
    let progress := progressOf keyed bytes
    ∃ response, IsAnswer keyed fill (bytes ++ more) response ∧
      (progress.handshake.process keyed fill (progress.rest ++ more)).Follows keyed
        (bytes ++ more) (some response) := by
  by_cases hempty : bytes = []
  · subst hempty
    cases more with
    | nil => simp at hwhole
    | cons first more => exact @follows_fromFirst_of_whole keyed (first :: more) fill hwhole
  · have hversion := List.length_pos_iff.mpr hempty
    rw [progressOf_of_version hversion hshort]
    simp only [process]
    rw [← List.drop_append_of_le_length hversion]
    exact follows_fromFirst_of_whole fill hwhole

/-! ## Call after call -/

/-- What calls have returned, and how far the handshake has come. -/
structure Calls extends Progress where
  responses : List (Except HandshakeError (Option Bytes))

/-- One call for each piece, which goes behind what the call before has left.
Each call has its own fill. -/
def processEach (keyed : KeyedDigest) : (pieces : List (Fill × Bytes)) → Progress → Calls
  | [], progress => ⟨progress, []⟩
  | (fill, piece) :: pieces, progress =>
      let outcome := progress.handshake.process keyed fill (progress.rest ++ piece)
      let calls := processEach keyed pieces outcome.progress
      { calls with responses := outcome.response :: calls.responses }

/-- The bytes of the pieces in a row. -/
def bytesOf (pieces : List (Fill × Bytes)) : Bytes :=
  (pieces.map Prod.snd).flatten

theorem processEach_cons {fill : Fill} {piece : Bytes} {response : Option Bytes}
    (hcall : ((progressOf keyed bytes).handshake.process keyed fill
      ((progressOf keyed bytes).rest ++ piece)).Follows keyed (bytes ++ piece) response)
    (pieces : List (Fill × Bytes)) :
    let others := processEach keyed pieces (progressOf keyed (bytes ++ piece))
    processEach keyed ((fill, piece) :: pieces) (progressOf keyed bytes) =
      ⟨others.toProgress, .ok response :: others.responses⟩ := by
  simp only [processEach, hcall.response_eq, hcall.progress_eq]

theorem progress_processEach (pieces : List (Fill × Bytes)) (bytes : Bytes) :
    (processEach keyed pieces (progressOf keyed bytes)).toProgress =
      progressOf keyed (bytes ++ bytesOf pieces) := by
  induction pieces generalizing bytes with
  | nil => simp [processEach, bytesOf]
  | cons entry pieces ih =>
      obtain ⟨fill, piece⟩ := entry
      have hothers := ih (bytes ++ piece)
      rw [List.append_assoc] at hothers
      have hbytes : bytesOf ((fill, piece) :: pieces) = piece ++ bytesOf pieces := rfl
      rw [hbytes, ← hothers]
      by_cases hsilent : (bytes ++ piece).length < 1537 ∨ 1537 ≤ bytes.length
      · rw [processEach_cons (follows_process_of_silent fill hsilent)]
      · obtain ⟨response, -, hcall⟩ :=
          follows_process_of_answering keyed fill (by omega : bytes.length < 1537)
            (by omega : 1537 ≤ (bytes ++ piece).length)
        rw [processEach_cons hcall]

/-- Calls before and behind the one that answers return nothing. -/
theorem responses_of_silent (keyed : KeyedDigest) (pieces : List (Fill × Bytes)) (bytes : Bytes)
    (hsilent : (bytes ++ bytesOf pieces).length < 1537 ∨ 1537 ≤ bytes.length) :
    (processEach keyed pieces (progressOf keyed bytes)).responses =
      List.replicate pieces.length (.ok none) := by
  induction pieces generalizing bytes with
  | nil => rfl
  | cons entry pieces ih =>
      obtain ⟨fill, piece⟩ := entry
      have hbytes : bytesOf ((fill, piece) :: pieces) = piece ++ bytesOf pieces := rfl
      simp only [hbytes, List.length_append] at hsilent
      have hfirst : (bytes ++ piece).length < 1537 ∨ 1537 ≤ bytes.length := by
        rw [List.length_append]
        omega
      have hothers := ih (bytes ++ piece) (by simp only [List.length_append]; omega)
      rw [processEach_cons (follows_process_of_silent fill hfirst), hothers]
      rfl

/-- The call that answers comes behind those that could not yet. -/
theorem responses_of_answering (keyed : KeyedDigest) (pieces : List (Fill × Bytes)) (bytes : Bytes)
    (hshort : bytes.length < 1537) (hwhole : 1537 ≤ (bytes ++ bytesOf pieces).length) :
    ∃ early fill piece late response,
      pieces = early ++ (fill, piece) :: late ∧
        (bytes ++ bytesOf early).length < 1537 ∧
        1537 ≤ (bytes ++ bytesOf early ++ piece).length ∧
        IsAnswer keyed fill (bytes ++ bytesOf pieces) response ∧
        (processEach keyed pieces (progressOf keyed bytes)).responses =
          List.replicate early.length (.ok none) ++
            .ok (some response) :: List.replicate late.length (.ok none) := by
  induction pieces generalizing bytes with
  | nil =>
      simp only [bytesOf, List.map_nil, List.flatten_nil, List.append_nil] at hwhole
      omega
  | cons entry pieces ih =>
      obtain ⟨fill, piece⟩ := entry
      have hbytes : bytes ++ bytesOf ((fill, piece) :: pieces) =
          bytes ++ piece ++ bytesOf pieces := (List.append_assoc ..).symm
      rw [hbytes] at hwhole ⊢
      by_cases hfirst : (bytes ++ piece).length < 1537
      · obtain ⟨early, found, last, late, response, rfl, hearly, hlast, hanswer,
          hresponses⟩ := ih (bytes ++ piece) hfirst hwhole
        refine ⟨(fill, piece) :: early, found, last, late, response, rfl, ?_, ?_, hanswer,
          ?_⟩
        · rwa [show bytes ++ bytesOf ((fill, piece) :: early) =
            bytes ++ piece ++ bytesOf early from (List.append_assoc ..).symm]
        · rwa [show bytes ++ bytesOf ((fill, piece) :: early) =
            bytes ++ piece ++ bytesOf early from (List.append_assoc ..).symm]
        · rw [processEach_cons (follows_process_of_silent fill (.inl hfirst))]
          exact congrArg (List.cons (.ok none)) hresponses
      · obtain ⟨response, hanswer, hcall⟩ :=
          follows_process_of_answering keyed fill hshort (Nat.le_of_not_lt hfirst)
        refine ⟨[], fill, piece, pieces, response, rfl, ?_, ?_, ?_, ?_⟩
        · simpa [bytesOf] using hshort
        · simpa [bytesOf] using hfirst
        · simp only [IsAnswer] at hanswer ⊢
          rwa [clientBlockOf_append (Nat.le_of_not_lt hfirst)]
        · have hothers := responses_of_silent keyed pieces _
            (.inr (Nat.le_of_not_lt hfirst))
          rw [processEach_cons hcall]
          exact congrArg (List.cons (.ok (some response))) hothers

/-- However the bytes of a client are cut, and whatever the fill of each call, no
call fails, and one call returns an answer: the first one by which 1537 bytes
have come in, if they ever do.  The handshake ends where a single call on all
the bytes takes it.  After 3073 bytes it is over, its layout is that of the
client's first block, and what came behind these bytes is left. -/
theorem processEach_eq_process (keyed : KeyedDigest) (pieces : List (Fill × Bytes))
    (fill : Fill) :
    let calls := processEach keyed pieces {}
    let bytes := bytesOf pieces
    let whole := ({} : Handshake).process keyed fill bytes
    (bytes.length < 1537 → calls.responses = List.replicate pieces.length (.ok none)) ∧
      (1537 ≤ bytes.length →
        ∃ early own piece late response,
          pieces = early ++ (own, piece) :: late ∧
            (bytesOf early).length < 1537 ∧ 1537 ≤ (bytesOf early ++ piece).length ∧
            calls.responses =
              List.replicate early.length (.ok none) ++
                .ok (some response) :: List.replicate late.length (.ok none) ∧
            response.length = 3073 ∧ response.head? = some 3) ∧
      calls.handshake = whole.handshake ∧
      calls.rest = whole.rest ∧
      (3073 ≤ bytes.length →
        calls.handshake = ⟨.done, some (schemaOf keyed (bytes.drop 1 |>.take 1536))⟩ ∧
          calls.rest = bytes.drop 3073) := by
  intro calls bytes whole
  have hfinal : calls.toProgress = progressOf keyed bytes :=
    progress_processEach pieces []
  have hwhole : whole.progress = progressOf keyed bytes := by
    by_cases hshort : bytes.length < 1537
    · exact (@follows_process_of_silent keyed [] bytes fill (.inl hshort)).progress_eq
    · obtain ⟨response, -, hcall⟩ := @follows_process_of_answering [] bytes keyed fill
        (by decide) (Nat.le_of_not_lt hshort)
      exact hcall.progress_eq
  have hsame : calls.toProgress = whole.progress := hfinal.trans hwhole.symm
  refine ⟨fun hshort => ?_, fun hlong => ?_, congrArg Progress.handshake hsame,
    congrArg Progress.rest hsame, fun hlong => ?_⟩
  · exact responses_of_silent keyed pieces [] (.inl hshort)
  · obtain ⟨early, own, piece, late, response, hpieces, hearly, hcomplete, hanswer,
      hresponses⟩ := responses_of_answering keyed pieces [] (by decide) hlong
    exact ⟨early, own, piece, late, response, hpieces, hearly, hcomplete, hresponses,
      hanswer.2⟩
  · have hdone := hfinal.trans (progressOf_of_second hlong)
    exact ⟨congrArg Progress.handshake hdone, congrArg Progress.rest hdone⟩

end Handshake

end LiveRelay
