import LiveRelay.Proofs.Register

/-!
# Who owns what the register lists

Every publication and every subscription in the register belongs to someone:
to the stream of a session that will give it up one day, or to nobody any more.
The books are a list of who owns what.  They are in order if the register lists
exactly what is owned, but for subscriptions to streams that have ended, and if
nothing is owned twice.

Starting to publish or to play adds one entry to the books, and stopping takes
one off.  The order of the entries does not matter, which is why it does not
matter in which order a session gives up its streams.
-/

namespace LiveRelay

namespace Register

/-- The publication is found under its path. -/
def IsCurrent (register : Register) (place : Nat) : Prop :=
  ∃ record, register.publications[place]? = some record ∧
    register.directory.get? record.path = some place

/-- The register has this down for a session. -/
def Lists (register : Register) (session : Nat) : StreamMode → Prop
  | .idle => False
  | .publishing place =>
      ∃ record, register.publications[place]? = some record ∧
        record.session = session ∧
        register.directory.get? record.path = some place
  | .playing place subscription =>
      ∃ record, register.publications[place]? = some record ∧
        subscription ∈ record.subscribers ∧
        register.subscriptions[subscription]? = some session

/-- A play is of no account once its stream has ended. -/
def Matters (register : Register) : StreamMode → Prop
  | .idle => False
  | .publishing _ => True
  | .playing place _ => register.IsCurrent place

/-- The places that a mode speaks of are taken. -/
def HasPlaces (register : Register) : StreamMode → Prop
  | .idle => True
  | .publishing place => place < register.publications.length
  | .playing place subscription =>
      place < register.publications.length ∧
        subscription < register.subscriptions.length

/-- The books are in order. -/
structure Accounted (register : Register) (owned : List (Nat × StreamMode)) :
    Prop where
  lists_iff : ∀ session mode,
    register.Lists session mode ↔
      (session, mode) ∈ owned ∧ register.Matters mode
  nodup : (owned.map Prod.snd).Nodup
  hasPlaces : ∀ entry ∈ owned, register.HasPlaces entry.2
  found : ∀ path place, register.directory.get? path = some place →
    ∃ record, register.publications[place]? = some record ∧ record.path = path
  subscribers_lt : ∀ (place : Nat) record,
    register.publications[place]? = some record →
      ∀ subscription ∈ record.subscribers,
        subscription < register.subscriptions.length

variable {register : Register} {owned : List (Nat × StreamMode)}

theorem Accounted.perm {others : List (Nat × StreamMode)}
    (haccounted : register.Accounted owned) (hperm : owned.Perm others) :
    register.Accounted others where
  lists_iff session mode := by
    rw [haccounted.lists_iff, hperm.mem_iff]
  nodup := (hperm.map Prod.snd).nodup_iff.mp haccounted.nodup
  hasPlaces entry hentry :=
    haccounted.hasPlaces entry (hperm.mem_iff.mpr hentry)
  found := haccounted.found
  subscribers_lt := haccounted.subscribers_lt

theorem accounted_empty (spread : StreamPath → Nat) (count : Nat) :
    Accounted ⟨.empty spread count, [], []⟩ [] where
  lists_iff session mode := by
    cases mode <;> simp [Lists]
  nodup := List.nodup_nil
  hasPlaces := by simp
  found path place hplace := by
    simp [StreamDirectory.get?_empty] at hplace
  subscribers_lt := by simp

/-! ## Publishing -/

theorem getElem?_publish (path : StreamPath) (session place : Nat) :
    (register.publish path session).publications[place]? =
      if place = register.publications.length then some ⟨path, session, []⟩
      else register.publications[place]? := by
  simp only [publish]
  rw [List.getElem?_append]
  by_cases hlength : place = register.publications.length
  · simp [hlength]
  · by_cases hlt : place < register.publications.length
    · simp [hlt, hlength]
    · have hnone : register.publications[place]? = none :=
        List.getElem?_eq_none (by omega)
      have hpast : place - register.publications.length ≠ 0 := by omega
      simp [hlt, hlength, hpast]

theorem get?_publish {path : StreamPath} {session place : Nat}
    {record : PublicationRecord}
    (hfree : register.directory.get? path = none)
    (hrecord : register.publications[place]? = some record) :
    (register.publish path session).directory.get? record.path = some place ↔
      register.directory.get? record.path = some place := by
  have hlt : place < register.publications.length :=
    (List.getElem?_eq_some_iff.mp hrecord).1
  simp only [publish]
  rw [StreamDirectory.get?_put]
  by_cases hpath : path = record.path
  · rw [if_pos hpath, ← hpath, hfree]
    simp only [Option.some.injEq, reduceCtorEq, iff_false]
    omega
  · rw [if_neg hpath]

theorem get?_publish_self (path : StreamPath) (session : Nat) :
    (register.publish path session).directory.get? path =
      some register.publications.length := by
  simp only [publish]
  rw [StreamDirectory.get?_put, if_pos rfl]

theorem isCurrent_publish {path : StreamPath} (session : Nat)
    (hfree : register.directory.get? path = none) (place : Nat) :
    (register.publish path session).IsCurrent place ↔
      register.IsCurrent place ∨ place = register.publications.length := by
  unfold IsCurrent
  rw [getElem?_publish]
  by_cases hlength : place = register.publications.length
  · subst hlength
    simp [get?_publish_self]
  · simp only [hlength, or_false]
    constructor
    · rintro ⟨record, hrecord, hplace⟩
      exact ⟨record, hrecord, (get?_publish hfree hrecord).mp hplace⟩
    · rintro ⟨record, hrecord, hplace⟩
      exact ⟨record, hrecord, (get?_publish hfree hrecord).mpr hplace⟩

theorem lists_publish {path : StreamPath} {session : Nat}
    (hfree : register.directory.get? path = none) (other : Nat)
    (mode : StreamMode) :
    (register.publish path session).Lists other mode ↔
      register.Lists other mode ∨
        (other, mode) =
          (session, .publishing register.publications.length) := by
  cases mode with
  | idle => simp [Lists]
  | publishing place =>
      simp only [Lists, Prod.mk.injEq, StreamMode.publishing.injEq]
      rw [getElem?_publish]
      by_cases hlength : place = register.publications.length
      · subst hlength
        simp [get?_publish_self, eq_comm]
      · simp only [hlength, and_false, or_false]
        constructor
        · rintro ⟨record, hrecord, hsession, hplace⟩
          exact ⟨record, hrecord, hsession, (get?_publish hfree hrecord).mp hplace⟩
        · rintro ⟨record, hrecord, hsession, hplace⟩
          exact
            ⟨record, hrecord, hsession, (get?_publish hfree hrecord).mpr hplace⟩
  | playing place subscription =>
      simp only [Lists, Prod.mk.injEq, reduceCtorEq, and_false, or_false]
      rw [getElem?_publish]
      by_cases hlength : place = register.publications.length
      · subst hlength
        simp
      · rw [if_neg hlength]
        rfl

theorem Accounted.notMem_of_not_hasPlaces (haccounted : register.Accounted owned)
    {mode : StreamMode} (hplaces : ¬ register.HasPlaces mode) :
    mode ∉ owned.map Prod.snd := by
  intro hmember
  obtain ⟨entry, hentry, hmode⟩ := List.mem_map.mp hmember
  exact hplaces (hmode ▸ haccounted.hasPlaces entry hentry)

theorem Accounted.publish (haccounted : register.Accounted owned)
    {path : StreamPath} (session : Nat)
    (hfree : register.directory.get? path = none) :
    (register.publish path session).Accounted
      ((session, .publishing register.publications.length) :: owned) where
  lists_iff other mode := by
    rw [lists_publish hfree, haccounted.lists_iff, List.mem_cons]
    cases mode with
    | idle => simp [Matters]
    | publishing place => simp [Matters, or_comm]
    | playing place subscription =>
        simp only [Matters, isCurrent_publish session hfree, Prod.mk.injEq,
          reduceCtorEq, and_false, or_false, false_or, and_congr_right_iff]
        intro hmember
        have hplace := (haccounted.hasPlaces _ hmember).1
        constructor
        · exact Or.inl
        · rintro (hcurrent | hlength)
          · exact hcurrent
          · omega
  nodup := by
    rw [List.map_cons, List.nodup_cons]
    refine ⟨?_, haccounted.nodup⟩
    apply haccounted.notMem_of_not_hasPlaces
    simp [HasPlaces]
  hasPlaces entry hentry := by
    have hlength : (register.publish path session).publications.length =
        register.publications.length + 1 := by
      simp [Register.publish]
    rcases List.mem_cons.mp hentry with hnew | hold
    · subst hnew
      simp [HasPlaces, hlength]
    · have hplaces := haccounted.hasPlaces entry hold
      revert hplaces
      cases entry.2 with
      | idle => exact id
      | publishing place =>
          simp only [HasPlaces, hlength]
          omega
      | playing place subscription =>
          simp only [HasPlaces, hlength]
          rintro ⟨hplace, hsubscription⟩
          exact ⟨by omega, hsubscription⟩
  found other place hplace := by
    rw [getElem?_publish]
    simp only [Register.publish] at hplace
    rw [StreamDirectory.get?_put] at hplace
    split at hplace
    · rename_i hpath
      rw [if_pos (Option.some.inj hplace).symm]
      exact ⟨_, rfl, hpath⟩
    · obtain ⟨record, hrecord, hpath⟩ := haccounted.found other place hplace
      have hlt := (List.getElem?_eq_some_iff.mp hrecord).1
      rw [if_neg (by omega)]
      exact ⟨record, hrecord, hpath⟩
  subscribers_lt place record hrecord subscription hsubscription := by
    rw [getElem?_publish] at hrecord
    split at hrecord
    · rw [← Option.some.inj hrecord] at hsubscription
      simp at hsubscription
    · exact haccounted.subscribers_lt place record hrecord subscription
        hsubscription

/-! ## Changes of one list of subscribers -/

section

variable (place : Nat) (change : List Nat → List Nat)

theorem exists_modifySubscribers {holds : PublicationRecord → Prop}
    (other : Nat) :
    (∃ record,
        (register.modifySubscribers place change).publications[other]? =
            some record ∧ holds record) ↔
      ∃ record, register.publications[other]? = some record ∧
        holds (if place = other then
          { record with subscribers := change record.subscribers } else record) := by
  simp only [modifySubscribers, List.getElem?_modify]
  cases register.publications[other]? with
  | none => simp
  | some record => by_cases hplace : place = other <;> simp [hplace]

theorem subscribers_of_modifySubscribers {other : Nat}
    {changed : PublicationRecord}
    (hchanged :
      (register.modifySubscribers place change).publications[other]? =
        some changed) :
    ∃ record, register.publications[other]? = some record ∧
      changed.subscribers =
        if place = other then change record.subscribers else record.subscribers := by
  have hexists := (exists_modifySubscribers place change other).mp
    ⟨changed, hchanged, rfl⟩
  obtain ⟨record, hrecord, hsame⟩ := hexists
  refine ⟨record, hrecord, ?_⟩
  split at hsame
  · rename_i hplace
    rw [if_pos hplace, hsame]
  · rename_i hplace
    rw [if_neg hplace, hsame]

theorem isCurrent_modifySubscribers (other : Nat) :
    (register.modifySubscribers place change).IsCurrent other ↔
      register.IsCurrent other := by
  unfold IsCurrent
  rw [exists_modifySubscribers]
  by_cases hplace : place = other
  · simp only [if_pos hplace]
    rfl
  · simp only [if_neg hplace]
    rfl

theorem lists_publishing_modifySubscribers (session other : Nat) :
    (register.modifySubscribers place change).Lists session (.publishing other) ↔
      register.Lists session (.publishing other) := by
  simp only [Lists]
  rw [exists_modifySubscribers]
  by_cases hplace : place = other
  · simp only [if_pos hplace]
    rfl
  · simp only [if_neg hplace]
    rfl

theorem lists_playing_modifySubscribers (session other subscription : Nat) :
    (register.modifySubscribers place change).Lists session
        (.playing other subscription) ↔
      ∃ record, register.publications[other]? = some record ∧
        subscription ∈
          (if place = other then change record.subscribers
            else record.subscribers) ∧
        register.subscriptions[subscription]? = some session := by
  simp only [Lists]
  rw [exists_modifySubscribers]
  by_cases hplace : place = other
  · simp only [if_pos hplace]
    rfl
  · simp only [if_neg hplace]
    rfl

theorem hasPlaces_modifySubscribers (mode : StreamMode) :
    (register.modifySubscribers place change).HasPlaces mode ↔
      register.HasPlaces mode := by
  cases mode <;> simp [HasPlaces, modifySubscribers]

theorem found_modifySubscribers {path : StreamPath} {other : Nat}
    (hfound : ∃ record,
      register.publications[other]? = some record ∧ record.path = path) :
    ∃ record,
      (register.modifySubscribers place change).publications[other]? =
          some record ∧ record.path = path := by
  rw [exists_modifySubscribers]
  obtain ⟨record, hrecord, hpath⟩ := hfound
  refine ⟨record, hrecord, ?_⟩
  split <;> exact hpath

end

/-! ## Playing -/

theorem lists_subscribe (haccounted : register.Accounted owned)
    {path : StreamPath} {place : Nat}
    (hplace : register.directory.get? path = some place) (session other : Nat)
    (mode : StreamMode) :
    (register.subscribe place session).Lists other mode ↔
      register.Lists other mode ∨
        (other, mode) =
          (session, .playing place register.subscriptions.length) := by
  cases mode with
  | idle => simp [Lists]
  | publishing published =>
      unfold subscribe
      rw [lists_publishing_modifySubscribers]
      simp [Lists]
  | playing published subscription =>
      unfold subscribe
      rw [lists_playing_modifySubscribers]
      constructor
      · rintro ⟨record, hrecord, hmember, hsession⟩
        by_cases hlast : subscription = register.subscriptions.length
        · subst hlast
          have hold : register.subscriptions.length ∉ record.subscribers := by
            intro hold
            exact Nat.lt_irrefl _
              (haccounted.subscribers_lt published record hrecord _ hold)
          right
          split at hmember
          · rename_i hpublished
            simp at hsession
            simp [hpublished, hsession]
          · exact absurd hmember hold
        · left
          refine ⟨record, hrecord, ?_, ?_⟩
          · split at hmember
            · simpa [hlast] using hmember
            · exact hmember
          · rw [List.getElem?_append] at hsession
            split at hsession
            · exact hsession
            · rename_i hpast
              have hnone : subscription - register.subscriptions.length ≠ 0 := by
                omega
              simp [hnone] at hsession
      · rintro (⟨record, hrecord, hmember, hsession⟩ | hnew)
        · refine ⟨record, hrecord, ?_, ?_⟩
          · split
            · exact List.mem_append_left _ hmember
            · exact hmember
          · have hlt := (List.getElem?_eq_some_iff.mp hsession).1
            rw [List.getElem?_append_left hlt]
            exact hsession
        · simp only [Prod.mk.injEq, StreamMode.playing.injEq] at hnew
          obtain ⟨hother, hpublished, hsubscription⟩ := hnew
          obtain ⟨record, hrecord, _⟩ := haccounted.found path place hplace
          subst hother hpublished hsubscription
          exact ⟨record, hrecord, by simp, by simp⟩

theorem Accounted.subscribe (haccounted : register.Accounted owned)
    {path : StreamPath} {place : Nat} (session : Nat)
    (hplace : register.directory.get? path = some place) :
    (register.subscribe place session).Accounted
      ((session, .playing place register.subscriptions.length) :: owned) := by
  have hcurrent (published : Nat) :
      (register.subscribe place session).IsCurrent published ↔
        register.IsCurrent published := by
    unfold Register.subscribe
    rw [isCurrent_modifySubscribers]
    rfl
  obtain ⟨record, hrecord, hpath⟩ := haccounted.found path place hplace
  have hlt := (List.getElem?_eq_some_iff.mp hrecord).1
  refine ⟨?_, ?_, ?_, ?_, ?_⟩
  · intro other mode
    rw [lists_subscribe haccounted hplace, haccounted.lists_iff, List.mem_cons]
    cases mode with
    | idle => simp [Matters]
    | publishing published => simp [Matters]
    | playing published subscription =>
        simp only [Matters, hcurrent]
        constructor
        · rintro (⟨hmember, hmatters⟩ | hnew)
          · exact ⟨Or.inr hmember, hmatters⟩
          · refine ⟨Or.inl hnew, ?_⟩
            simp only [Prod.mk.injEq, StreamMode.playing.injEq] at hnew
            rw [hnew.2.1]
            exact ⟨record, hrecord, hpath ▸ hplace⟩
        · rintro ⟨hnew | hmember, hmatters⟩
          · exact Or.inr hnew
          · exact Or.inl ⟨hmember, hmatters⟩
  · rw [List.map_cons, List.nodup_cons]
    refine ⟨?_, haccounted.nodup⟩
    apply haccounted.notMem_of_not_hasPlaces
    simp [HasPlaces]
  · intro entry hentry
    unfold Register.subscribe
    rw [hasPlaces_modifySubscribers]
    rcases List.mem_cons.mp hentry with hnew | hold
    · subst hnew
      simp [HasPlaces, hlt]
    · have hplaces := haccounted.hasPlaces entry hold
      revert hplaces
      cases entry.2 with
      | idle => exact id
      | publishing published => exact id
      | playing published subscription =>
          simp only [HasPlaces, List.length_append, List.length_singleton]
          rintro ⟨hpublished, hsubscription⟩
          exact ⟨hpublished, by omega⟩
  · intro other found hfound
    exact found_modifySubscribers _ _ (haccounted.found other found hfound)
  · intro other changed hchanged subscription hsubscription
    obtain ⟨old, hold, hsubscribers⟩ :=
      subscribers_of_modifySubscribers _ _ hchanged
    rw [hsubscribers] at hsubscription
    have hbound := haccounted.subscribers_lt other old hold subscription
    have hlength : (register.subscribe place session).subscriptions.length =
        register.subscriptions.length + 1 := by
      simp [Register.subscribe, modifySubscribers]
    rw [hlength]
    split at hsubscription
    · rcases List.mem_append.mp hsubscription with hmember | hlast
      · exact Nat.lt_succ_of_lt (hbound hmember)
      · rw [List.mem_singleton.mp hlast]
        exact Nat.lt_succ_self _
    · exact Nat.lt_succ_of_lt (hbound hsubscription)

/-! ## Stopping -/

theorem Accounted.ne_of_mem {session other : Nat} {mode second : StreamMode}
    (haccounted : register.Accounted ((session, mode) :: owned))
    (hmember : (other, second) ∈ owned) :
    second ≠ mode := by
  intro hsame
  have hnodup := haccounted.nodup
  rw [List.map_cons, List.nodup_cons] at hnodup
  exact hnodup.1 (List.mem_map.mpr ⟨(other, second), hmember, hsame⟩)

theorem Accounted.session_of_lists {session other : Nat} {mode : StreamMode}
    (haccounted : register.Accounted ((session, mode) :: owned))
    (hlists : register.Lists other mode) : other = session := by
  rcases List.mem_cons.mp ((haccounted.lists_iff other mode).mp hlists).1 with
    hsame | hmember
  · exact (Prod.mk.inj hsame).1
  · exact absurd rfl (haccounted.ne_of_mem hmember)

theorem lists_unsubscribe (place subscription session : Nat)
    (mode : StreamMode) :
    (register.unsubscribe place subscription).Lists session mode ↔
      register.Lists session mode ∧ mode ≠ .playing place subscription := by
  unfold unsubscribe
  cases mode with
  | idle => simp [Lists]
  | publishing published =>
      rw [lists_publishing_modifySubscribers]
      simp
  | playing published other =>
      rw [lists_playing_modifySubscribers]
      simp only [Lists, ne_eq, StreamMode.playing.injEq]
      by_cases hplace : place = published
      · subst hplace
        simp only [if_true, List.mem_filter, decide_eq_true_eq, true_and]
        constructor
        · rintro ⟨record, hrecord, ⟨hmember, hother⟩, hsession⟩
          exact ⟨⟨record, hrecord, hmember, hsession⟩, hother⟩
        · rintro ⟨⟨record, hrecord, hmember, hsession⟩, hother⟩
          exact ⟨record, hrecord, ⟨hmember, hother⟩, hsession⟩
      · simp [hplace, Ne.symm hplace]

theorem Accounted.unsubscribe {session place subscription : Nat}
    (haccounted :
      register.Accounted ((session, .playing place subscription) :: owned)) :
    (register.unsubscribe place subscription).Accounted owned where
  lists_iff other mode := by
    have hmatters : (register.unsubscribe place subscription).Matters mode ↔
        register.Matters mode := by
      cases mode with
      | idle => rfl
      | publishing published => rfl
      | playing published played =>
          exact isCurrent_modifySubscribers place _ published
    rw [lists_unsubscribe, haccounted.lists_iff, hmatters, List.mem_cons,
      Prod.mk.injEq]
    constructor
    · rintro ⟨⟨⟨_, hsame⟩ | hmember, hmode⟩, hother⟩
      · exact absurd hsame hother
      · exact ⟨hmember, hmode⟩
    · rintro ⟨hmember, hmode⟩
      exact ⟨⟨Or.inr hmember, hmode⟩, haccounted.ne_of_mem hmember⟩
  nodup := (List.nodup_cons.mp haccounted.nodup).2
  hasPlaces entry hentry :=
    (hasPlaces_modifySubscribers place _ entry.2).mpr
      (haccounted.hasPlaces entry (List.mem_cons_of_mem _ hentry))
  found path other hother :=
    found_modifySubscribers _ _ (haccounted.found path other hother)
  subscribers_lt other changed hchanged played hplayed := by
    obtain ⟨record, hrecord, hsubscribers⟩ :=
      subscribers_of_modifySubscribers _ _ hchanged
    apply haccounted.subscribers_lt other record hrecord
    rw [hsubscribers] at hplayed
    split at hplayed
    · exact (List.mem_filter.mp hplayed).1
    · exact hplayed

theorem unpublish_of_current {place : Nat} {record : PublicationRecord}
    (hrecord : register.publications[place]? = some record)
    (hplace : register.directory.get? record.path = some place) :
    register.unpublish place =
      { register with
        directory := register.directory.erase record.path
      }.modifySubscribers place fun _ => [] := by
  simp [unpublish, hrecord, hplace]

theorem get?_erase {place other : Nat} {record left : PublicationRecord}
    (hrecord : register.publications[place]? = some record)
    (hplace : register.directory.get? record.path = some place)
    (hleft : register.publications[other]? = some left) :
    (register.directory.erase record.path).get? left.path = some other ↔
      register.directory.get? left.path = some other ∧ other ≠ place := by
  rw [StreamDirectory.get?_erase]
  by_cases hpath : record.path = left.path
  · rw [if_pos hpath, ← hpath, hplace]
    simp only [reduceCtorEq, Option.some.injEq, false_iff, not_and]
    exact fun hsame hother => hother hsame.symm
  · rw [if_neg hpath]
    have hother : other ≠ place := by
      rintro rfl
      rw [hrecord] at hleft
      exact hpath (congrArg PublicationRecord.path (Option.some.inj hleft))
    simp [hother]

theorem isCurrent_unpublish {place : Nat} (hcurrent : register.IsCurrent place)
    (other : Nat) :
    (register.unpublish place).IsCurrent other ↔
      register.IsCurrent other ∧ other ≠ place := by
  obtain ⟨record, hrecord, hplace⟩ := hcurrent
  rw [unpublish_of_current hrecord hplace, isCurrent_modifySubscribers]
  constructor
  · rintro ⟨left, hleft, hfound⟩
    have hboth := (get?_erase hrecord hplace hleft).mp hfound
    exact ⟨⟨left, hleft, hboth.1⟩, hboth.2⟩
  · rintro ⟨⟨left, hleft, hfound⟩, hother⟩
    exact ⟨left, hleft, (get?_erase hrecord hplace hleft).mpr ⟨hfound, hother⟩⟩

theorem lists_unpublish {place : Nat} (hcurrent : register.IsCurrent place)
    (session : Nat) (mode : StreamMode) :
    (register.unpublish place).Lists session mode ↔
      register.Lists session mode ∧ mode ≠ .publishing place ∧
        ∀ subscription, mode ≠ .playing place subscription := by
  obtain ⟨record, hrecord, hplace⟩ := hcurrent
  rw [unpublish_of_current hrecord hplace]
  cases mode with
  | idle => simp [Lists]
  | publishing other =>
      rw [lists_publishing_modifySubscribers]
      simp only [ne_eq, StreamMode.publishing.injEq, reduceCtorEq,
        not_false_eq_true, implies_true, and_true]
      constructor
      · rintro ⟨left, hleft, hsession, hfound⟩
        have hboth := (get?_erase hrecord hplace hleft).mp hfound
        exact ⟨⟨left, hleft, hsession, hboth.1⟩, hboth.2⟩
      · rintro ⟨⟨left, hleft, hsession, hfound⟩, hother⟩
        exact
          ⟨left, hleft, hsession,
            (get?_erase hrecord hplace hleft).mpr ⟨hfound, hother⟩⟩
  | playing other subscription =>
      rw [lists_playing_modifySubscribers]
      by_cases hother : place = other
      · simp [hother]
      · simp [Lists, hother, Ne.symm hother]

theorem Accounted.unpublish {session place : Nat}
    (haccounted : register.Accounted ((session, .publishing place) :: owned)) :
    (register.unpublish place).Accounted owned := by
  have hlisted : register.Lists session (.publishing place) :=
    (haccounted.lists_iff _ _).mpr ⟨List.mem_cons_self, trivial⟩
  obtain ⟨record, hrecord, -, hplace⟩ := hlisted
  have hcurrent : register.IsCurrent place := ⟨record, hrecord, hplace⟩
  have hunpublish := unpublish_of_current hrecord hplace
  refine ⟨?_, (List.nodup_cons.mp haccounted.nodup).2, ?_, ?_, ?_⟩
  · intro other mode
    rw [lists_unpublish hcurrent, haccounted.lists_iff, List.mem_cons,
      Prod.mk.injEq]
    cases mode with
    | idle => simp [Matters]
    | publishing published =>
        simp only [Matters, and_true, ne_eq, reduceCtorEq, not_false_eq_true,
          implies_true]
        constructor
        · rintro ⟨⟨_, hsame⟩ | hmember, hother⟩
          · exact absurd hsame hother
          · exact hmember
        · intro hmember
          exact ⟨Or.inr hmember, haccounted.ne_of_mem hmember⟩
    | playing published played =>
        simp only [Matters, isCurrent_unpublish hcurrent, reduceCtorEq, and_false,
          false_or, ne_eq, not_false_eq_true, StreamMode.playing.injEq, true_and]
        constructor
        · rintro ⟨⟨hmember, hmatters⟩, hother⟩
          exact ⟨hmember, hmatters, fun hsame => hother played ⟨hsame, rfl⟩⟩
        · rintro ⟨hmember, hmatters, hother⟩
          exact ⟨⟨hmember, hmatters⟩, fun _ hsame => hother hsame.1⟩
  · intro entry hentry
    rw [hunpublish]
    exact (hasPlaces_modifySubscribers place _ entry.2).mpr
      (haccounted.hasPlaces entry (List.mem_cons_of_mem _ hentry))
  · intro path other hother
    rw [hunpublish] at hother ⊢
    apply found_modifySubscribers
    have hkept : (register.directory.erase record.path).get? path = some other :=
      hother
    rw [StreamDirectory.get?_erase] at hkept
    split at hkept
    · simp at hkept
    · exact haccounted.found path other hkept
  · intro other changed hchanged played hplayed
    rw [hunpublish] at hchanged ⊢
    obtain ⟨left, hleft, hsubscribers⟩ :=
      subscribers_of_modifySubscribers _ _ hchanged
    apply haccounted.subscribers_lt other left hleft
    rw [hsubscribers] at hplayed
    split at hplayed
    · simp at hplayed
    · exact hplayed

theorem Accounted.stop {session : Nat} {mode : StreamMode}
    (haccounted : register.Accounted ((session, mode) :: owned)) :
    (register.stop mode).Accounted owned := by
  cases mode with
  | idle =>
      refine ⟨?_, (List.nodup_cons.mp haccounted.nodup).2, ?_,
        haccounted.found, haccounted.subscribers_lt⟩
      · intro other second
        rw [Register.stop, haccounted.lists_iff]
        cases second <;> simp [Matters]
      · intro entry hentry
        exact haccounted.hasPlaces entry (List.mem_cons_of_mem _ hentry)
  | publishing place => exact haccounted.unpublish
  | playing place subscription => exact haccounted.unsubscribe

end Register

end LiveRelay
