/-!
# Small tables

Property bags, the arguments of a stream, the state kept for each chunk stream
and the registry of streams are tables from keys to contents.  A table lists
its keys in the order in which they were first put.  Putting a key again
replaces its content, and what a table holds is what `get?` says of it.
-/

namespace LiveRelay

abbrev Table (κ α : Type) := List (κ × α)

/-- A table of named contents. -/
abbrev Fields (α : Type) := Table String α

namespace Table

variable {κ α : Type} [DecidableEq κ]

def get? : Table κ α → κ → Option α
  | [], _ => none
  | (key, content) :: rest, wanted =>
      if key = wanted then some content else get? rest wanted

def put : Table κ α → κ → α → Table κ α
  | [], key, content => [(key, content)]
  | (other, old) :: rest, key, content =>
      if other = key then (key, content) :: rest
      else (other, old) :: put rest key content

def erase : Table κ α → κ → Table κ α
  | [], _ => []
  | (other, content) :: rest, key =>
      if other = key then erase rest key
      else (other, content) :: erase rest key

def putAll (table : Table κ α) (pairs : List (κ × α)) : Table κ α :=
  pairs.foldl (fun table (key, content) => table.put key content) table

/-- The last pair of each key counts. -/
def ofPairs (pairs : List (κ × α)) : Table κ α :=
  putAll [] pairs

def contains (table : Table κ α) (key : κ) : Bool :=
  (table.get? key).isSome

omit [DecidableEq κ] in
def keys (table : Table κ α) : List κ :=
  table.map Prod.fst

@[simp] theorem get?_nil (key : κ) :
    get? ([] : Table κ α) key = none := rfl

theorem get?_put (table : Table κ α) (key other : κ) (content : α) :
    (table.put key content).get? other =
      if key = other then some content else table.get? other := by
  induction table with
  | nil => simp [put, get?]
  | cons head rest ih =>
      obtain ⟨first, old⟩ := head
      by_cases hfirst : first = key
      · subst hfirst
        by_cases hother : first = other <;> simp [put, get?, hother]
      · by_cases hother : first = other
        · subst hother
          simp [put, get?, hfirst, Ne.symm hfirst]
        · simp [put, get?, hfirst, hother, ih]

theorem put_put (table : Table κ α) (key : κ) (first second : α) :
    (table.put key first).put key second = table.put key second := by
  induction table with
  | nil => simp [put]
  | cons head rest ih =>
      obtain ⟨other, old⟩ := head
      by_cases hother : other = key
      · simp [put, hother]
      · simp [put, hother, ih]

theorem get?_erase (table : Table κ α) (key other : κ) :
    (table.erase key).get? other =
      if key = other then none else table.get? other := by
  induction table with
  | nil => simp [erase, get?]
  | cons head rest ih =>
      obtain ⟨first, old⟩ := head
      by_cases hfirst : first = key
      · rw [erase, if_pos hfirst, ih]
        by_cases hother : key = other
        · simp [hother]
        · simp [get?, hfirst, hother]
      · by_cases hother : first = other
        · subst hother
          simp [erase, get?, hfirst, Ne.symm hfirst]
        · simp [erase, get?, hfirst, hother, ih]

/-- A new key goes to the end, a key that is there keeps its place. -/
theorem keys_put (table : Table κ α) (key : κ) (content : α) :
    (table.put key content).keys =
      if key ∈ table.keys then table.keys else table.keys ++ [key] := by
  induction table with
  | nil => simp [put, keys]
  | cons head rest ih =>
      obtain ⟨first, old⟩ := head
      simp only [keys] at ih
      by_cases hfirst : first = key
      · simp [put, keys, hfirst]
      · by_cases hrest : key ∈ rest.map Prod.fst
        · simp [put, keys, hfirst, Ne.symm hfirst, ih, hrest]
        · simp [put, keys, hfirst, Ne.symm hfirst, ih, hrest]

theorem put_of_notMem {table : Table κ α} {key : κ} (habsent : key ∉ table.keys)
    (content : α) :
    table.put key content = table ++ [(key, content)] := by
  induction table with
  | nil => rfl
  | cons head rest ih =>
      obtain ⟨first, old⟩ := head
      simp only [keys, List.map_cons, List.mem_cons, not_or] at habsent
      simp [put, Ne.symm habsent.1, ih habsent.2]

section Pair

variable {before behind : Table κ α} {key : κ} {content : α}
  (hnodup : (keys (before ++ (key, content) :: behind)).Nodup)
include hnodup

omit [DecidableEq κ] in
/-- In a table with distinct keys a pair has none of the keys before it. -/
theorem notMem_keys_of_nodup : key ∉ before.keys := by
  simp only [keys, List.map_append, List.map_cons, List.nodup_append] at hnodup
  exact fun hmem => hnodup.2.2 key hmem key List.mem_cons_self rfl

theorem nodup_keys_put_append (other : α) : (keys (before.put key other ++ behind)).Nodup := by
  simpa [put_of_notMem (notMem_keys_of_nodup hnodup), keys] using hnodup

end Pair

theorem mem_of_mem_put {table : Table κ α} {key : κ} {content : α} {pair : κ × α}
    (hpair : pair ∈ table.put key content) : pair = (key, content) ∨ pair ∈ table := by
  induction table with
  | nil => exact .inl (List.mem_singleton.mp hpair)
  | cons head rest ih =>
      obtain ⟨first, old⟩ := head
      unfold put at hpair
      split at hpair
      · exact (List.mem_cons.mp hpair).imp_right (List.mem_cons_of_mem _)
      · rcases List.mem_cons.mp hpair with rfl | hbehind
        · exact .inr List.mem_cons_self
        · exact (ih hbehind).imp_right (List.mem_cons_of_mem _)

theorem nodup_keys_put {table : Table κ α} (hnodup : table.keys.Nodup)
    (key : κ) (content : α) :
    (table.put key content).keys.Nodup := by
  rw [keys_put]
  split
  · exact hnodup
  · rename_i habsent
    rw [List.nodup_append]
    refine ⟨hnodup, by simp, ?_⟩
    intro first hfirst second hsecond
    simp only [List.mem_singleton] at hsecond
    subst hsecond
    intro heq
    exact habsent (heq ▸ hfirst)

theorem keys_erase (table : Table κ α) (key : κ) :
    (table.erase key).keys = table.keys.filter (· ≠ key) := by
  induction table with
  | nil => rfl
  | cons head rest ih =>
      obtain ⟨first, old⟩ := head
      simp only [keys] at ih
      by_cases hfirst : first = key
      · simp [erase, keys, hfirst, ih]
      · simp [erase, keys, hfirst, ih]

theorem nodup_keys_erase {table : Table κ α} (hnodup : table.keys.Nodup)
    (key : κ) :
    (table.erase key).keys.Nodup := by
  rw [keys_erase]
  exact hnodup.filter _

theorem erase_sublist (table : Table κ α) (key : κ) : (table.erase key).Sublist table := by
  induction table with
  | nil => exact List.Sublist.refl []
  | cons head rest ih =>
      obtain ⟨first, old⟩ := head
      unfold erase
      split
      · exact ih.cons _
      · exact ih.cons_cons _

theorem erase_of_notMem {table : Table κ α} {key : κ}
    (habsent : key ∉ table.keys) :
    table.erase key = table := by
  induction table with
  | nil => rfl
  | cons head rest ih =>
      obtain ⟨first, old⟩ := head
      simp only [keys, List.map_cons, List.mem_cons, not_or] at habsent
      simp [erase, Ne.symm habsent.1, ih habsent.2]

theorem get?_eq_none_iff {table : Table κ α} {key : κ} :
    table.get? key = none ↔ key ∉ table.keys := by
  induction table with
  | nil => simp [keys]
  | cons head rest ih =>
      obtain ⟨first, old⟩ := head
      by_cases hfirst : first = key
      · simp [get?, keys, hfirst]
      · simp only [keys] at ih
        simp [get?, keys, hfirst, Ne.symm hfirst, ih]

theorem mem_of_get? {table : Table κ α} {key : κ} {content : α}
    (hget : table.get? key = some content) : (key, content) ∈ table := by
  induction table with
  | nil => simp at hget
  | cons head rest ih =>
      obtain ⟨first, old⟩ := head
      unfold get? at hget
      split at hget
      · rename_i hfirst
        rw [hfirst, Option.some.inj hget]
        exact List.mem_cons_self
      · exact List.mem_cons_of_mem _ (ih hget)

/-- In a table with distinct keys the order of the pairs does not count. -/
theorem get?_eq_some_iff {table : Table κ α} (hnodup : table.keys.Nodup) {key : κ}
    {content : α} :
    table.get? key = some content ↔ (key, content) ∈ table := by
  induction table with
  | nil => simp
  | cons head rest ih =>
      obtain ⟨first, old⟩ := head
      simp only [keys, List.map_cons, List.nodup_cons] at hnodup
      by_cases hfirst : first = key
      · subst hfirst
        have habsent : (first, content) ∉ rest := fun hmem =>
          hnodup.1 (List.mem_map_of_mem hmem)
        simp [get?, habsent, eq_comm]
      · simp [get?, hfirst, ih hnodup.2, Ne.symm hfirst]

/-- A table is one of its pairs and the others. -/
theorem perm_of_get? {table : Table κ α} (hnodup : table.keys.Nodup)
    {key : κ} {content : α} (hget : table.get? key = some content) :
    table.Perm ((key, content) :: table.erase key) := by
  induction table with
  | nil => simp at hget
  | cons head rest ih =>
      obtain ⟨first, old⟩ := head
      simp only [keys, List.map_cons, List.nodup_cons] at hnodup
      by_cases hfirst : first = key
      · subst hfirst
        have hcontent : old = content := by simpa [get?] using hget
        rw [hcontent, erase, if_pos rfl, erase_of_notMem hnodup.1]
      · have hrest : get? rest key = some content := by
          simpa [get?, hfirst] using hget
        rw [erase, if_neg hfirst]
        exact ((ih hnodup.2 hrest).cons _).trans (List.Perm.swap _ _ _)

theorem perm_put {table : Table κ α} (hnodup : table.keys.Nodup) (key : κ)
    (content : α) :
    (table.put key content).Perm ((key, content) :: table.erase key) := by
  have hperm := perm_of_get? (nodup_keys_put hnodup key content)
    (show (table.put key content).get? key = some content by simp [get?_put])
  have herase : (table.put key content).erase key = table.erase key := by
    clear hnodup hperm
    induction table with
    | nil => simp [put, erase]
    | cons head rest ih =>
        obtain ⟨first, old⟩ := head
        by_cases hfirst : first = key
        · simp [put, erase, hfirst]
        · simp [put, erase, hfirst, ih]
  rwa [herase] at hperm

end Table

end LiveRelay
