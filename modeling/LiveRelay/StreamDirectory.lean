import LiveRelay.StreamPath

/-!
# Stream directory

The directory says which publication a path stands for.  It is split into
shards, so that streams with different paths rarely wait for each other.  Each
path belongs to one shard, and what the directory holds is what `get?` says of
it: how paths are spread over shards does not show.
-/

namespace LiveRelay

structure StreamDirectory where
  /-- The shard of a path, up to multiples of their number. -/
  spread : StreamPath → Nat
  shards : List (Table StreamPath Nat)
  length_pos : 0 < shards.length

namespace StreamDirectory

/-- At least one shard, even if none are asked for. -/
def empty (spread : StreamPath → Nat) (count : Nat) : StreamDirectory where
  spread := spread
  shards := List.replicate (max count 1) []
  length_pos := by
    rw [List.length_replicate]
    exact Nat.le_max_right count 1

def shardOf (directory : StreamDirectory) (path : StreamPath) : Nat :=
  directory.spread path % directory.shards.length

def get? (directory : StreamDirectory) (path : StreamPath) : Option Nat :=
  directory.shards[directory.shardOf path]?.bind fun shard => Table.get? shard path

/-- A change of the shard of a path. -/
def modifyShard (directory : StreamDirectory) (path : StreamPath)
    (change : Table StreamPath Nat → Table StreamPath Nat) : StreamDirectory where
  spread := directory.spread
  shards := directory.shards.modify (directory.shardOf path) change
  length_pos := by simpa using directory.length_pos

def put (directory : StreamDirectory) (path : StreamPath) (publication : Nat) :
    StreamDirectory :=
  directory.modifyShard path fun shard => Table.put shard path publication

def erase (directory : StreamDirectory) (path : StreamPath) : StreamDirectory :=
  directory.modifyShard path fun shard => Table.erase shard path

/-- Shard by shard. -/
def paths (directory : StreamDirectory) : List StreamPath :=
  directory.shards.flatMap Table.keys

def count (directory : StreamDirectory) : Nat :=
  directory.paths.length

theorem shardOf_lt (directory : StreamDirectory) (path : StreamPath) :
    directory.shardOf path < directory.shards.length :=
  Nat.mod_lt _ directory.length_pos

theorem get?_empty (spread : StreamPath → Nat) (count : Nat)
    (path : StreamPath) :
    (empty spread count).get? path = none := by
  simp only [get?, empty, Option.bind_eq_none_iff]
  intro shard hshard
  rw [List.getElem?_replicate] at hshard
  split at hshard
  · rw [← Option.some.inj hshard]
    rfl
  · simp at hshard

@[simp] theorem shardOf_modifyShard (directory : StreamDirectory)
    (path other : StreamPath)
    (change : Table StreamPath Nat → Table StreamPath Nat) :
    (directory.modifyShard path change).shardOf other =
      directory.shardOf other := by
  simp [shardOf, modifyShard]

theorem get?_modifyShard (directory : StreamDirectory) (path other : StreamPath)
    (change : Table StreamPath Nat → Table StreamPath Nat) :
    (directory.modifyShard path change).get? other =
      if directory.shardOf path = directory.shardOf other then
        directory.shards[directory.shardOf other]?.bind
          fun shard => Table.get? (change shard) other
      else directory.get? other := by
  rw [get?, shardOf_modifyShard]
  simp only [modifyShard, List.getElem?_modify]
  by_cases hshard : directory.shardOf path = directory.shardOf other
  · cases directory.shards[directory.shardOf other]? <;> simp [hshard]
  · simp [hshard, get?]

theorem exists_shard (directory : StreamDirectory) (path : StreamPath) :
    ∃ shard, directory.shards[directory.shardOf path]? = some shard :=
  ⟨_, List.getElem?_eq_getElem (directory.shardOf_lt path)⟩

theorem get?_put (directory : StreamDirectory) (path other : StreamPath)
    (publication : Nat) :
    (directory.put path publication).get? other =
      if path = other then some publication else directory.get? other := by
  rw [put, get?_modifyShard]
  obtain ⟨shard, hshard⟩ := directory.exists_shard other
  by_cases hpath : path = other
  · subst hpath
    simp [hshard, Table.get?_put]
  · by_cases hsame : directory.shardOf path = directory.shardOf other
    · simp [hsame, hpath, hshard, Table.get?_put, get?]
    · simp [hsame, hpath]

theorem get?_erase (directory : StreamDirectory) (path other : StreamPath) :
    (directory.erase path).get? other =
      if path = other then none else directory.get? other := by
  rw [erase, get?_modifyShard]
  obtain ⟨shard, hshard⟩ := directory.exists_shard other
  by_cases hpath : path = other
  · subst hpath
    simp [hshard, Table.get?_erase]
  · by_cases hsame : directory.shardOf path = directory.shardOf other
    · simp [hsame, hpath, hshard, Table.get?_erase, get?]
    · simp [hsame, hpath]

end StreamDirectory

end LiveRelay
