import LiveRelay.Proofs.RelayRun

/-!
# Listed streams

What a register lists under a path is the publication found there and its
subscriptions with their sessions, in the order in which they joined.  A
publication that is not found under its path is not listed, and has no
subscriptions left.

Each change of the register changes the listing of one path: publishing lists
the path, stopping to publish takes it off, playing adds to the end of its list,
and stopping to play takes the subscription off.  A publication that is stopped
already changes no listing.
-/

namespace LiveRelay

/-! ## Shards -/

namespace StreamDirectory

/-- Each shard has its own paths, once each. -/
structure IsSound (directory : StreamDirectory) : Prop where
  nodup : ∀ shard ∈ directory.shards, shard.keys.Nodup
  shardOf_eq : ∀ (index : Nat) shard, directory.shards[index]? = some shard →
    ∀ path ∈ shard.keys, directory.shardOf path = index

variable {directory : StreamDirectory}

theorem isSound_empty (spread : StreamPath → Nat) (count : Nat) :
    (empty spread count).IsSound where
  nodup shard hshard := by
    rw [List.eq_of_mem_replicate hshard]
    exact List.nodup_nil
  shardOf_eq index shard hshard := by
    rw [List.eq_of_mem_replicate (List.mem_of_getElem? hshard)]
    intro path hpath
    cases hpath

theorem IsSound.afterModifying (hsound : directory.IsSound) {path : StreamPath}
    {change : Table StreamPath Nat → Table StreamPath Nat}
    (hnodup : ∀ shard : Table StreamPath Nat, shard.keys.Nodup → (change shard).keys.Nodup)
    (hkeys : ∀ (shard : Table StreamPath Nat), ∀ other ∈ (change shard).keys,
      other = path ∨ other ∈ shard.keys) :
    (directory.modifyShard path change).IsSound where
  nodup changed hchanged := by
    obtain ⟨index, hindex⟩ := List.getElem?_of_mem hchanged
    simp only [modifyShard, List.getElem?_modify] at hindex
    obtain ⟨shard, hshard, rfl⟩ := Option.map_eq_some_iff.mp hindex
    have hold := hsound.nodup shard (List.mem_of_getElem? hshard)
    split
    · exact hnodup shard hold
    · exact hold
  shardOf_eq index changed hchanged other hother := by
    rw [shardOf_modifyShard]
    simp only [modifyShard, List.getElem?_modify] at hchanged
    obtain ⟨shard, hshard, rfl⟩ := Option.map_eq_some_iff.mp hchanged
    split at hother
    · rename_i hindex
      rcases hkeys shard other hother with rfl | hold
      · exact hindex
      · exact hsound.shardOf_eq index shard hshard other hold
    · exact hsound.shardOf_eq index shard hshard other hother

theorem IsSound.afterPutting (hsound : directory.IsSound) (path : StreamPath)
    (publication : Nat) : (directory.put path publication).IsSound := by
  refine hsound.afterModifying (fun shard hnodup => ?_) (fun shard other hother => ?_)
  · exact Table.nodup_keys_put hnodup path publication
  · rw [Table.keys_put] at hother
    split at hother
    · exact .inr hother
    · exact (List.mem_append.mp hother).symm.imp_left List.mem_singleton.mp

theorem IsSound.afterErasing (hsound : directory.IsSound) (path : StreamPath) :
    (directory.erase path).IsSound := by
  refine hsound.afterModifying (fun shard hnodup => ?_) (fun shard other hother => ?_)
  · exact Table.nodup_keys_erase hnodup path
  · rw [Table.keys_erase] at hother
    exact .inr (List.mem_filter.mp hother).1

theorem IsSound.nodup_paths (hsound : directory.IsSound) : directory.paths.Nodup := by
  refine List.pairwise_flatMap.mpr ⟨hsound.nodup, ?_⟩
  rw [List.pairwise_iff_getElem]
  -- a path in two shards would belong to both
  intro first second hfirst hsecond hlt path hpath other hother hsame
  have hbelongs := hsound.shardOf_eq first _ (List.getElem?_eq_getElem hfirst) path hpath
  have htoo := hsound.shardOf_eq second _ (List.getElem?_eq_getElem hsecond) other hother
  rw [← hsame, hbelongs] at htoo
  omega

theorem IsSound.mem_paths_iff (hsound : directory.IsSound) (path : StreamPath) :
    path ∈ directory.paths ↔ directory.get? path ≠ none := by
  obtain ⟨own, hown⟩ := directory.exists_shard path
  have hget : directory.get? path ≠ none ↔ path ∈ own.keys := by
    rw [get?, hown, Option.bind_some, ne_eq, Table.get?_eq_none_iff, Decidable.not_not]
  rw [hget, paths, List.mem_flatMap]
  constructor
  · rintro ⟨shard, hshard, hpath⟩
    obtain ⟨index, hindex⟩ := List.getElem?_of_mem hshard
    have hbelongs := hsound.shardOf_eq index shard hindex path hpath
    rw [hbelongs, hindex] at hown
    exact Option.some.inj hown ▸ hpath
  · exact fun hpath => ⟨own, List.mem_of_getElem? hown, hpath⟩

theorem IsSound.count_eq (hsound : directory.IsSound) {α : Type}
    {table : Table StreamPath α} (hnodup : table.keys.Nodup)
    (hsame : ∀ path, directory.get? path = none ↔ table.get? path = none) :
    directory.count = table.length := by
  have hperm : directory.paths.Perm table.keys := by
    rw [List.perm_ext_iff_of_nodup hsound.nodup_paths hnodup]
    intro path
    rw [hsound.mem_paths_iff, ne_eq, hsame, Table.get?_eq_none_iff, Decidable.not_not]
  rw [count, hperm.length_eq, Table.keys, List.length_map]

end StreamDirectory

/-! ## Listings -/

/-- The one stream under a path, and who views it. -/
structure StreamListing where
  publication : Nat
  /-- The session of each subscription, in the order of joining. -/
  viewers : Table Nat Nat := []
  deriving DecidableEq, Repr

def StreamListing.sessions (listing : StreamListing) : List Nat :=
  listing.viewers.map Prod.snd

namespace Register

def viewers (register : Register) (subscribers : List Nat) : Table Nat Nat :=
  subscribers.filterMap fun place =>
    register.subscriptions[place]?.map fun session => (place, session)

def listing? (register : Register) (path : StreamPath) : Option StreamListing :=
  (register.directory.get? path).bind fun place =>
    register.publications[place]?.map fun record =>
      ⟨place, register.viewers record.subscribers⟩

/-- What the directory says can be found, and only what is found has subscribers. -/
structure IsSound (register : Register) : Prop where
  directory : register.directory.IsSound
  found : ∀ path place, register.directory.get? path = some place →
    ∃ record, register.publications[place]? = some record ∧ record.path = path
  subscribers_lt : ∀ (place : Nat) record,
    register.publications[place]? = some record →
      ∀ subscription ∈ record.subscribers, subscription < register.subscriptions.length
  subscribers_eq_nil : ∀ (place : Nat) record,
    register.publications[place]? = some record →
      register.directory.get? record.path ≠ some place → record.subscribers = []

theorem isSound_empty (spread : StreamPath → Nat) (count : Nat) :
    IsSound ⟨.empty spread count, [], []⟩ where
  directory := StreamDirectory.isSound_empty spread count
  found path place hplace := by
    simp [StreamDirectory.get?_empty] at hplace
  subscribers_lt := by simp
  subscribers_eq_nil := by simp

variable {register : Register}

theorem mem_viewers_iff {subscribers : List Nat} {place session : Nat} :
    (place, session) ∈ register.viewers subscribers ↔
      place ∈ subscribers ∧ register.subscriptions[place]? = some session := by
  simp only [viewers, List.mem_filterMap, Option.map_eq_some_iff, Prod.mk.injEq]
  constructor
  · rintro ⟨_, hplace, _, hsession, rfl, rfl⟩
    exact ⟨hplace, hsession⟩
  · rintro ⟨hplace, hsession⟩
    exact ⟨place, hplace, session, hsession, rfl, rfl⟩

theorem viewers_filter_ne (subscribers : List Nat) (subscription : Nat) :
    register.viewers (subscribers.filter (· ≠ subscription)) =
      (register.viewers subscribers).erase subscription := by
  induction subscribers with
  | nil => rfl
  | cons place subscribers ih =>
      simp only [viewers] at ih
      by_cases hplace : place = subscription
      · cases hsession : register.subscriptions[place]? <;>
          simp_all [viewers, Table.erase]
      · cases hsession : register.subscriptions[place]? <;>
          simp_all [viewers, Table.erase]

theorem listing?_of_get? {path : StreamPath} {place : Nat} {record : PublicationRecord}
    (hplace : register.directory.get? path = some place)
    (hrecord : register.publications[place]? = some record) :
    register.listing? path = some ⟨place, register.viewers record.subscribers⟩ := by
  simp [listing?, hplace, hrecord]

theorem IsSound.exists_of_listing? (hsound : register.IsSound) {path : StreamPath}
    {listing : StreamListing} (hlisting : register.listing? path = some listing) :
    ∃ record, register.directory.get? path = some listing.publication ∧
      register.publications[listing.publication]? = some record ∧ record.path = path ∧
      listing.viewers = register.viewers record.subscribers := by
  obtain ⟨place, hplace, hmap⟩ := Option.bind_eq_some_iff.mp hlisting
  obtain ⟨record, hrecord, rfl⟩ := Option.map_eq_some_iff.mp hmap
  obtain ⟨found, hfound, hpath⟩ := hsound.found path place hplace
  obtain rfl := Option.some.inj (hfound.symm.trans hrecord)
  exact ⟨found, hplace, hrecord, hpath, rfl⟩

theorem IsSound.listing?_eq_none_iff (hsound : register.IsSound) (path : StreamPath) :
    register.listing? path = none ↔ register.directory.get? path = none := by
  cases hplace : register.directory.get? path with
  | none => simp [listing?, hplace]
  | some place =>
      obtain ⟨record, hrecord, -⟩ := hsound.found path place hplace
      simp [listing?_of_get? hplace hrecord]

/-- A listing depends on nothing but the publication that is found. -/
theorem listing?_congr {changed : Register} {path : StreamPath}
    (hsubscriptions : changed.subscriptions = register.subscriptions)
    (hget : changed.directory.get? path = register.directory.get? path)
    (hsame : ∀ place, register.directory.get? path = some place →
      changed.publications[place]? = register.publications[place]?) :
    changed.listing? path = register.listing? path := by
  simp only [listing?, viewers, hsubscriptions, hget]
  cases hplace : register.directory.get? path with
  | none => rfl
  | some place => rw [Option.bind_some, Option.bind_some, hsame place hplace]

theorem IsSound.ne_of_path_ne (hsound : register.IsSound) {place other : Nat}
    {record : PublicationRecord} (hrecord : register.publications[place]? = some record)
    {path : StreamPath} (hpath : record.path ≠ path)
    (hother : register.directory.get? path = some other) : place ≠ other := by
  rintro rfl
  obtain ⟨found, hfound, hsame⟩ := hsound.found path place hother
  exact hpath (Option.some.inj (hrecord.symm.trans hfound) ▸ hsame)

/-! ## Publishing -/

theorem IsSound.afterPublishing (hsound : register.IsSound) {path : StreamPath}
    (session : Nat) (hfree : register.directory.get? path = none) :
    (register.publish path session).IsSound where
  directory := hsound.directory.afterPutting path _
  found other place hplace := by
    rw [getElem?_publish]
    simp only [publish] at hplace
    rw [StreamDirectory.get?_put] at hplace
    split at hplace
    · rename_i hpath
      rw [if_pos (Option.some.inj hplace).symm]
      exact ⟨_, rfl, hpath⟩
    · obtain ⟨record, hrecord, hpath⟩ := hsound.found other place hplace
      have hlt := (List.getElem?_eq_some_iff.mp hrecord).1
      rw [if_neg (Nat.ne_of_lt hlt)]
      exact ⟨record, hrecord, hpath⟩
  subscribers_lt place record hrecord := by
    rw [getElem?_publish] at hrecord
    split at hrecord
    · obtain rfl := Option.some.inj hrecord
      simp
    · exact hsound.subscribers_lt place record hrecord
  subscribers_eq_nil place record hrecord hstale := by
    rw [getElem?_publish] at hrecord
    split at hrecord
    · obtain rfl := Option.some.inj hrecord
      rfl
    · exact hsound.subscribers_eq_nil place record hrecord
        fun hplace => hstale ((get?_publish hfree hrecord).mpr hplace)

theorem IsSound.listing?_publish (hsound : register.IsSound) (path : StreamPath)
    (session : Nat) (other : StreamPath) :
    (register.publish path session).listing? other =
      if path = other then some ⟨register.publications.length, []⟩
      else register.listing? other := by
  split
  · rename_i hpath
    subst hpath
    have hnew : (register.publish path session).publications[register.publications.length]? =
        some ⟨path, session, []⟩ := by
      rw [getElem?_publish, if_pos rfl]
    exact listing?_of_get? (get?_publish_self path session) hnew
  · rename_i hpath
    refine listing?_congr rfl ?_ fun place hplace => ?_
    · exact (register.directory.get?_put path other _).trans (if_neg hpath)
    · obtain ⟨record, hrecord, -⟩ := hsound.found other place hplace
      have hlt := (List.getElem?_eq_some_iff.mp hrecord).1
      rw [getElem?_publish, if_neg (Nat.ne_of_lt hlt)]

/-! ## Changes of a list -/

theorem getElem?_modifySubscribers (place : Nat) (change : List Nat → List Nat)
    (other : Nat) :
    (register.modifySubscribers place change).publications[other]? =
      register.publications[other]?.map fun record =>
        if place = other then { record with subscribers := change record.subscribers }
        else record := by
  simp only [modifySubscribers, List.getElem?_modify]
  rfl

theorem getElem?_modifySubscribers_of_ne {place other : Nat} (hne : place ≠ other)
    (change : List Nat → List Nat) :
    (register.modifySubscribers place change).publications[other]? =
      register.publications[other]? := by
  rw [modifySubscribers, List.getElem?_modify_ne _ _ hne]

/-- The listing of another path stays. -/
theorem IsSound.listing?_modifySubscribers (hsound : register.IsSound) {place : Nat}
    {record : PublicationRecord} (hrecord : register.publications[place]? = some record)
    (hplace : register.directory.get? record.path = some place)
    (change : List Nat → List Nat) (path : StreamPath) :
    (register.modifySubscribers place change).listing? path =
      if record.path = path then some ⟨place, register.viewers (change record.subscribers)⟩
      else register.listing? path := by
  split
  · rename_i hpath
    subst hpath
    have hchanged : (register.modifySubscribers place change).publications[place]? =
        some { record with subscribers := change record.subscribers } := by
      rw [getElem?_modifySubscribers, hrecord, Option.map_some, if_pos rfl]
    have hsame : (register.modifySubscribers place change).directory.get? record.path =
        some place := hplace
    exact listing?_of_get? hsame hchanged
  · rename_i hpath
    refine listing?_congr rfl rfl fun other hother => ?_
    exact getElem?_modifySubscribers_of_ne (hsound.ne_of_path_ne hrecord hpath hother) change

theorem IsSound.afterModifyingSubscribers (hsound : register.IsSound) {place : Nat}
    {change : List Nat → List Nat}
    (hlt : ∀ record, register.publications[place]? = some record →
      ∀ subscription ∈ change record.subscribers,
        subscription < register.subscriptions.length)
    (hnil : register.IsCurrent place ∨ change [] = []) :
    (register.modifySubscribers place change).IsSound where
  directory := hsound.directory
  found path other hother :=
    found_modifySubscribers place change (hsound.found path other hother)
  subscribers_lt other changed hchanged := by
    obtain ⟨record, hrecord, hsubscribers⟩ :=
      subscribers_of_modifySubscribers place change hchanged
    rw [hsubscribers]
    split
    · rename_i hplace
      exact hlt record (hplace ▸ hrecord)
    · exact hsound.subscribers_lt other record hrecord
  subscribers_eq_nil other changed hchanged hstale := by
    rw [getElem?_modifySubscribers] at hchanged
    obtain ⟨record, hrecord, rfl⟩ := Option.map_eq_some_iff.mp hchanged
    split at hstale
    · rename_i hplace
      have hempty := hsound.subscribers_eq_nil other record hrecord hstale
      rcases hnil with ⟨current, hcurrent, hget⟩ | hnil
      · rw [hplace, hrecord] at hcurrent
        obtain rfl := Option.some.inj hcurrent
        exact absurd (hplace ▸ hget) hstale
      · simp only [if_pos hplace, hempty, hnil]
    · rename_i hplace
      rw [if_neg hplace]
      exact hsound.subscribers_eq_nil other record hrecord hstale

/-! ## Stopping to publish -/

theorem IsSound.afterUnpublishing (hsound : register.IsSound) (place : Nat) :
    (register.unpublish place).IsSound := by
  by_cases hcurrent : register.IsCurrent place
  · obtain ⟨record, hrecord, hplace⟩ := hcurrent
    rw [unpublish_of_current hrecord hplace]
    exact {
      directory := hsound.directory.afterErasing record.path
      found := fun path other hother => by
        refine found_modifySubscribers place _ (hsound.found path other ?_)
        simp only [modifySubscribers, StreamDirectory.get?_erase] at hother
        split at hother
        · simp at hother
        · exact hother
      subscribers_lt := fun other changed hchanged => by
        obtain ⟨left, hleft, hsubscribers⟩ :=
          subscribers_of_modifySubscribers place _ hchanged
        rw [hsubscribers]
        split
        · simp
        · exact hsound.subscribers_lt other left hleft
      subscribers_eq_nil := fun other changed hchanged hstale => by
        rw [getElem?_modifySubscribers] at hchanged
        obtain ⟨left, hleft, rfl⟩ := Option.map_eq_some_iff.mp hchanged
        split
        · rfl
        · rename_i hother
          refine hsound.subscribers_eq_nil other left hleft fun hfound => hstale ?_
          rw [if_neg hother]
          exact (get?_erase hrecord hplace hleft).mpr ⟨hfound, Ne.symm hother⟩ }
  · rwa [unpublish_of_not_isCurrent hcurrent]

theorem IsSound.listing?_unpublish (hsound : register.IsSound) {place : Nat}
    {record : PublicationRecord} (hrecord : register.publications[place]? = some record)
    (hplace : register.directory.get? record.path = some place) (path : StreamPath) :
    (register.unpublish place).listing? path =
      if record.path = path then none else register.listing? path := by
  have hget : (register.unpublish place).directory.get? path =
      if record.path = path then none else register.directory.get? path := by
    rw [unpublish_of_current hrecord hplace]
    exact register.directory.get?_erase record.path path
  split
  · rename_i hpath
    rw [(hsound.afterUnpublishing place).listing?_eq_none_iff, hget, if_pos hpath]
  · rename_i hpath
    rw [if_neg hpath] at hget
    rw [unpublish_of_current hrecord hplace] at hget ⊢
    refine listing?_congr rfl hget fun other hother => ?_
    exact getElem?_modifySubscribers_of_ne (hsound.ne_of_path_ne hrecord hpath hother) _

/-! ## Playing -/

/-- A new subscription that is on no list yet. -/
def addSubscription (register : Register) (session : Nat) : Register :=
  { register with subscriptions := register.subscriptions ++ [session] }

theorem viewers_addSubscription {subscribers : List Nat}
    (hlt : ∀ place ∈ subscribers, place < register.subscriptions.length) (session : Nat) :
    (register.addSubscription session).viewers subscribers = register.viewers subscribers := by
  induction subscribers with
  | nil => rfl
  | cons place subscribers ih =>
      have hplace := hlt place List.mem_cons_self
      have hrest := ih fun other hother => hlt other (List.mem_cons_of_mem _ hother)
      simp only [viewers, addSubscription] at hrest
      simp only [viewers, addSubscription, List.filterMap_cons,
        List.getElem?_append_left hplace, hrest]

theorem IsSound.afterAddingSubscription (hsound : register.IsSound) (session : Nat) :
    (register.addSubscription session).IsSound where
  directory := hsound.directory
  found := hsound.found
  subscribers_lt place record hrecord subscription hsubscription := by
    have hlt := hsound.subscribers_lt place record hrecord subscription hsubscription
    simp only [addSubscription, List.length_append, List.length_singleton]
    omega
  subscribers_eq_nil := hsound.subscribers_eq_nil

theorem IsSound.listing?_addSubscription (hsound : register.IsSound) (session : Nat)
    (path : StreamPath) :
    (register.addSubscription session).listing? path = register.listing? path := by
  cases hplace : register.directory.get? path with
  | none => simp [listing?, addSubscription, hplace]
  | some place =>
      obtain ⟨record, hrecord, -⟩ := hsound.found path place hplace
      have hadded : (register.addSubscription session).listing? path =
          some ⟨place, (register.addSubscription session).viewers record.subscribers⟩ :=
        listing?_of_get? hplace hrecord
      rw [hadded, listing?_of_get? hplace hrecord,
        viewers_addSubscription (hsound.subscribers_lt place record hrecord)]

theorem IsSound.afterSubscribing (hsound : register.IsSound) {place : Nat}
    (hcurrent : register.IsCurrent place) (session : Nat) :
    (register.subscribe place session).IsSound := by
  refine (hsound.afterAddingSubscription session).afterModifyingSubscribers
    (fun record hrecord subscription hsubscription => ?_) (.inl hcurrent)
  rcases List.mem_append.mp hsubscription with hold | hnew
  · exact (hsound.afterAddingSubscription session).subscribers_lt place record hrecord
      subscription hold
  · obtain rfl := List.mem_singleton.mp hnew
    simp [addSubscription]

theorem IsSound.listing?_subscribe (hsound : register.IsSound) {place : Nat}
    {record : PublicationRecord} (hrecord : register.publications[place]? = some record)
    (hplace : register.directory.get? record.path = some place) (session : Nat)
    (path : StreamPath) :
    (register.subscribe place session).listing? path =
      if record.path = path then
        some ⟨place, register.viewers record.subscribers ++
          [(register.subscriptions.length, session)]⟩
      else register.listing? path := by
  have hrecorded : (register.addSubscription session).publications[place]? = some record :=
    hrecord
  have hchanged := (hsound.afterAddingSubscription session).listing?_modifySubscribers
    hrecorded hplace (· ++ [register.subscriptions.length]) path
  have hviewers : (register.addSubscription session).viewers
        (record.subscribers ++ [register.subscriptions.length]) =
      register.viewers record.subscribers ++
        [(register.subscriptions.length, session)] := by
    have hold := viewers_addSubscription
      (hsound.subscribers_lt place record hrecord) session
    simp only [viewers, List.filterMap_append] at hold ⊢
    rw [hold]
    simp [addSubscription]
  rw [hviewers, hsound.listing?_addSubscription] at hchanged
  exact hchanged

/-! ## Stopping to play -/

theorem IsSound.afterUnsubscribing (hsound : register.IsSound) (place subscription : Nat) :
    (register.unsubscribe place subscription).IsSound := by
  refine hsound.afterModifyingSubscribers (fun record hrecord other hother => ?_) (.inr rfl)
  exact hsound.subscribers_lt place record hrecord other (List.mem_filter.mp hother).1

theorem IsSound.listing?_unsubscribe (hsound : register.IsSound) {place : Nat}
    {record : PublicationRecord} (hrecord : register.publications[place]? = some record)
    (hplace : register.directory.get? record.path = some place) (subscription : Nat)
    (path : StreamPath) :
    (register.unsubscribe place subscription).listing? path =
      if record.path = path then
        some ⟨place, (register.viewers record.subscribers).erase subscription⟩
      else register.listing? path := by
  rw [← viewers_filter_ne]
  exact hsound.listing?_modifySubscribers hrecord hplace _ path

/-- No one is on the list of a publication that is stopped. -/
theorem IsSound.subscribers_of_stale (hsound : register.IsSound) {place : Nat}
    (hstale : ¬ register.IsCurrent place) {record : PublicationRecord}
    (hrecord : register.publications[place]? = some record) : record.subscribers = [] :=
  hsound.subscribers_eq_nil place record hrecord
    fun hplace => hstale ⟨record, hrecord, hplace⟩

theorem IsSound.keys_viewers (hsound : register.IsSound) {place : Nat}
    {record : PublicationRecord} (hrecord : register.publications[place]? = some record) :
    (register.viewers record.subscribers).keys = record.subscribers := by
  have hlt := hsound.subscribers_lt place record hrecord
  generalize record.subscribers = subscribers at hlt
  induction subscribers with
  | nil => rfl
  | cons place subscribers ih =>
      have hrest := ih fun other hother => hlt other (List.mem_cons_of_mem _ hother)
      simp only [viewers, Table.keys] at hrest
      simp [viewers, Table.keys, List.getElem?_eq_getElem (hlt place List.mem_cons_self), hrest]

end Register

end LiveRelay
