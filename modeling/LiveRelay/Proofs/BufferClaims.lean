import LiveRelay.Proofs.Streams
import Mathlib.Data.List.Dedup
import Mathlib.Data.List.Perm.Basic

/-!
# Claims on buffers

Every handle on a rented buffer is a claim on it.  A pool does not see handles.
It counts the claims on each buffer, and the buffers that it has rented out and
got back.  Its books are balanced if the counts are those of the handles that
are alive.

Renting, claiming and releasing keep the books balanced, each with one handle
more or less.  The order of the handles does not matter, so whoever keeps
handles in several places can put them together as he likes.
-/

namespace LiveRelay

namespace RentedBuffer

/-- How many of the handles are on one buffer. -/
def handlesOn (held : List RentedBuffer) (id : Nat) : Nat :=
  (held.map RentedBuffer.id).count id

/-- How many buffers have a handle. -/
def distinct (held : List RentedBuffer) : Nat :=
  (held.map RentedBuffer.id).dedup.length

variable {held others : List RentedBuffer}

theorem handlesOn_perm (hperm : held.Perm others) (id : Nat) :
    handlesOn held id = handlesOn others id :=
  (hperm.map RentedBuffer.id).count_eq id

theorem handlesOn_cons (buffer : RentedBuffer) (held : List RentedBuffer) (id : Nat) :
    handlesOn (buffer :: held) id = handlesOn held id + if buffer.id = id then 1 else 0 := by
  simp [handlesOn, List.count_cons]

theorem handlesOn_pos {buffer : RentedBuffer} (hmem : buffer ∈ held) :
    0 < handlesOn held buffer.id :=
  List.count_pos_iff.mpr (List.mem_map_of_mem hmem)

end RentedBuffer

open RentedBuffer

namespace BufferPool

/-- The allocations that are idle or back a buffer. -/
def allocations (pool : BufferPool) : List Nat :=
  pool.free.map Allocation.id ++ pool.live.map (·.2.allocation.id)

structure Balanced (pool : BufferPool) (held : List RentedBuffer) : Prop where
  isClean : pool.IsClean
  free_le : pool.free.length ≤ pool.maximumPooled
  keys_nodup : pool.live.keys.Nodup
  keys_lt : ∀ id ∈ pool.live.keys, id < pool.rented
  claims : ∀ id, (pool.live.get? id).map LiveBuffer.claims =
    if handlesOn held id = 0 then none else some (handlesOn held id)
  content : ∀ buffer ∈ held, ∀ live, pool.live.get? buffer.id = some live →
    live.allocation.content = buffer.content
  rented_eq : pool.rented = pool.returned + pool.live.length
  allocations_nodup : pool.allocations.Nodup
  allocations_lt : ∀ id ∈ pool.allocations, id < pool.allocated

variable {pool : BufferPool} {held others : List RentedBuffer} {buffer : RentedBuffer}

theorem balanced_fresh (maximumPooled maximumCapacity : Nat) :
    Balanced { maximumPooled, maximumCapacity } [] where
  isClean := fun allocation hallocation => by cases hallocation
  free_le := Nat.zero_le _
  keys_nodup := List.nodup_nil
  keys_lt := fun id hid => by cases hid
  claims := fun id => rfl
  content := fun buffer hbuffer => by cases hbuffer
  rented_eq := rfl
  allocations_nodup := List.nodup_nil
  allocations_lt := fun id hid => by cases hid

theorem Balanced.perm (hbalanced : pool.Balanced held) (hperm : held.Perm others) :
    pool.Balanced others :=
  { hbalanced with
    claims := fun id => by rw [hbalanced.claims id, handlesOn_perm hperm]
    content := fun buffer hbuffer => hbalanced.content buffer (hperm.mem_iff.mpr hbuffer) }

/-! ## What balanced books say -/

theorem Balanced.exists_live (hbalanced : pool.Balanced held) (hmem : buffer ∈ held) :
    ∃ live, pool.live.get? buffer.id = some live ∧
      live.claims = handlesOn held buffer.id := by
  have hclaims := hbalanced.claims buffer.id
  rw [if_neg (Nat.ne_of_gt (handlesOn_pos hmem))] at hclaims
  exact Option.map_eq_some_iff.mp hclaims

theorem Balanced.claims_eq (hbalanced : pool.Balanced held) (hmem : buffer ∈ held) :
    pool.claims buffer = handlesOn held buffer.id := by
  obtain ⟨live, hlive, hclaims⟩ := hbalanced.exists_live hmem
  simp [BufferPool.claims, hlive, hclaims]

theorem Balanced.mem_keys_iff (hbalanced : pool.Balanced held) (id : Nat) :
    id ∈ pool.live.keys ↔ id ∈ held.map RentedBuffer.id := by
  have hclaims := hbalanced.claims id
  rw [← not_iff_not, ← Table.get?_eq_none_iff, ← List.count_eq_zero]
  change _ ↔ handlesOn held id = 0
  split at hclaims
  · rename_i hnone
    simpa [hnone] using hclaims
  · rename_i hsome
    simp only [hsome, iff_false]
    intro hget
    simp [hget] at hclaims

/-- What is outstanding are the buffers that have a handle. -/
theorem Balanced.outstanding_eq (hbalanced : pool.Balanced held) :
    pool.outstanding = distinct held := by
  have hperm : pool.live.keys.Perm (held.map RentedBuffer.id).dedup := by
    rw [List.perm_ext_iff_of_nodup hbalanced.keys_nodup (List.nodup_dedup _)]
    simpa using hbalanced.mem_keys_iff
  have hlength : pool.live.length = distinct held := by
    have hkeys := hperm.length_eq
    rwa [Table.keys, List.length_map] at hkeys
  rw [outstanding, hbalanced.rented_eq, Nat.add_sub_cancel_left, hlength]

theorem Balanced.rented_eq_returned_add (hbalanced : pool.Balanced held) :
    pool.rented = pool.returned + pool.outstanding := by
  rw [outstanding, hbalanced.rented_eq, Nat.add_sub_cancel_left]

/-- The allocation behind a buffer is not idle and is behind no other buffer. -/
theorem Balanced.allocation_unique (hbalanced : pool.Balanced held) {id : Nat}
    {live : LiveBuffer} (hlive : pool.live.get? id = some live) :
    live.allocation.id ∉ pool.free.map Allocation.id ∧
      ∀ other second, pool.live.get? other = some second →
        second.allocation.id = live.allocation.id → other = id := by
  obtain ⟨-, hnodup, hdisjoint⟩ := List.nodup_append.mp hbalanced.allocations_nodup
  have hmem := Table.mem_of_get? hlive
  constructor
  · intro hfree
    exact hdisjoint _ hfree _ (List.mem_map_of_mem hmem) rfl
  · intro other second hsecond hsame
    exact congrArg Prod.fst (List.inj_on_of_nodup_map hnodup (Table.mem_of_get? hsecond) hmem hsame)

/-! ## Renting -/

/-- The allocation that a new buffer is given is empty and nobody else's. -/
theorem Balanced.takeFree (hbalanced : pool.Balanced held) :
    pool.takeFree.2.Balanced held ∧ pool.takeFree.1.content = [] ∧
      pool.takeFree.1.id ∉ pool.takeFree.2.allocations ∧
      pool.takeFree.1.id < pool.takeFree.2.allocated := by
  have hclean := hbalanced.isClean.takeFree
  unfold BufferPool.takeFree at hclean ⊢
  cases hfree : pool.free with
  | nil =>
      have hnodup := hbalanced.allocations_nodup
      have hlt := hbalanced.allocations_lt
      simp only [hfree] at hclean ⊢
      simp only [allocations, hfree] at hnodup hlt
      refine ⟨{ hbalanced with
        isClean := hclean.2
        free_le := Nat.zero_le _
        allocations_nodup := hnodup
        allocations_lt := fun id hid => Nat.lt_succ_of_lt (hlt id hid) },
        hclean.1, fun hmem => Nat.lt_irrefl _ (hlt _ hmem), Nat.lt_succ_self _⟩
  | cons first free =>
      have hnodup := hbalanced.allocations_nodup
      have hlt := hbalanced.allocations_lt
      have hlength := hbalanced.free_le
      simp only [allocations, hfree, List.map_cons, List.cons_append, List.nodup_cons,
        List.length_cons] at hnodup hlt hlength
      simp only [hfree] at hclean ⊢
      refine ⟨{ hbalanced with
        isClean := hclean.2
        free_le := Nat.le_of_succ_le hlength
        allocations_nodup := hnodup.2
        allocations_lt := fun id hid => hlt id (List.mem_cons_of_mem _ hid) },
        hclean.1, hnodup.1, hlt _ List.mem_cons_self⟩

theorem allocations_put {id : Nat} (hnew : id ∉ pool.live.keys) (live : LiveBuffer) :
    allocations { pool with live := pool.live.put id live } =
      pool.allocations ++ [live.allocation.id] := by
  simp only [allocations, Table.put_of_notMem hnew, List.map_append, List.append_assoc,
    List.map_cons, List.map_nil]

/-- A buffer with the next number, on an allocation that nobody uses. -/
theorem Balanced.put (hbalanced : pool.Balanced held) {allocation : Allocation}
    (hunused : allocation.id ∉ pool.allocations) (hlt : allocation.id < pool.allocated) :
    Balanced { pool with
      live := pool.live.put pool.rented ⟨allocation, 1⟩
      rented := pool.rented + 1 } (⟨pool.rented, allocation.content⟩ :: held) := by
  have hnew : pool.rented ∉ pool.live.keys := fun hmem =>
    Nat.lt_irrefl _ (hbalanced.keys_lt _ hmem)
  have hnone : handlesOn held pool.rented = 0 := by
    rw [handlesOn, List.count_eq_zero, ← hbalanced.mem_keys_iff]
    exact hnew
  have hallocations := allocations_put hnew ⟨allocation, 1⟩
  refine { hbalanced with
    keys_nodup := Table.nodup_keys_put hbalanced.keys_nodup _ _
    keys_lt := ?_, claims := ?_, content := ?_, rented_eq := ?_
    allocations_nodup := ?_, allocations_lt := ?_ }
  · intro id hid
    rw [Table.keys_put, if_neg hnew] at hid
    rcases List.mem_append.mp hid with hold | hlast
    · exact Nat.lt_succ_of_lt (hbalanced.keys_lt id hold)
    · exact Nat.lt_succ_of_le (Nat.le_of_eq (List.mem_singleton.mp hlast))
  · intro id
    rw [Table.get?_put, handlesOn_cons]
    by_cases hid : pool.rented = id
    · subst hid
      simp [hnone]
    · simpa [hid] using hbalanced.claims id
  · intro buffer hbuffer live hlive
    rw [Table.get?_put] at hlive
    rcases List.mem_cons.mp hbuffer with rfl | hold
    · rw [if_pos rfl] at hlive
      rw [← Option.some.inj hlive]
    · have hother : pool.rented ≠ buffer.id := fun hsame =>
        absurd hnone (hsame ▸ Nat.ne_of_gt (handlesOn_pos hold))
      rw [if_neg hother] at hlive
      exact hbalanced.content buffer hold live hlive
  · rw [Table.put_of_notMem hnew, List.length_append, List.length_singleton,
      hbalanced.rented_eq, Nat.add_assoc]
  · refine hallocations ▸ List.nodup_append.mpr
      ⟨hbalanced.allocations_nodup, List.nodup_singleton _, fun first hfirst second hsecond => ?_⟩
    rw [List.mem_singleton.mp hsecond]
    rintro rfl
    exact hunused hfirst
  · intro id hid
    rcases List.mem_append.mp (hallocations ▸ hid) with hold | hlast
    · exact hbalanced.allocations_lt id hold
    · exact List.mem_singleton.mp hlast ▸ hlt

theorem Balanced.rent (hbalanced : pool.Balanced held) (bytes : Bytes) :
    (pool.rent bytes).2.Balanced ((pool.rent bytes).1 :: held) := by
  obtain ⟨hidle, -, hunused, hlt⟩ := hbalanced.takeFree
  unfold BufferPool.rent
  generalize pool.takeFree = taken at hidle hunused hlt
  obtain ⟨idle, rest⟩ := taken
  exact hidle.put hunused hlt

/-! ## Claiming and releasing -/

/-- The number of claims on one buffer changes. -/
theorem Balanced.recount (hbalanced : pool.Balanced held) {live : LiveBuffer}
    (hlive : pool.live.get? buffer.id = some live) {count : Nat} (hpositive : count ≠ 0)
    (hcount : handlesOn others buffer.id = count)
    (hothers : ∀ id, buffer.id ≠ id → handlesOn others id = handlesOn held id)
    (hsubset : others ⊆ held) :
    Balanced { pool with
      live := pool.live.put buffer.id { live with claims := count } } others := by
  have hbefore := Table.perm_of_get? hbalanced.keys_nodup hlive
  have hafter := Table.perm_put hbalanced.keys_nodup buffer.id
    { live with claims := count }
  have hallocations : pool.allocations.Perm
      (allocations { pool with
        live := pool.live.put buffer.id { live with claims := count } }) :=
    ((hbefore.map _).trans (hafter.map (·.2.allocation.id)).symm).append_left _
  refine { hbalanced with
    keys_nodup := Table.nodup_keys_put hbalanced.keys_nodup _ _
    keys_lt := ?_, claims := ?_, content := ?_, rented_eq := ?_
    allocations_nodup := hallocations.nodup_iff.mp hbalanced.allocations_nodup
    allocations_lt := fun id hid =>
      hbalanced.allocations_lt id (hallocations.mem_iff.mpr hid) }
  · intro id hid
    have hkey : buffer.id ∈ pool.live.keys := List.mem_map_of_mem (Table.mem_of_get? hlive)
    rw [Table.keys_put, if_pos hkey] at hid
    exact hbalanced.keys_lt id hid
  · intro id
    rw [Table.get?_put]
    by_cases hid : buffer.id = id
    · subst hid
      simp [hcount, hpositive]
    · rw [if_neg hid, hothers id hid, hbalanced.claims id]
  · intro other hother second hsecond
    rw [Table.get?_put] at hsecond
    split at hsecond
    · rename_i hsame
      rw [← Option.some.inj hsecond]
      exact hbalanced.content other (hsubset hother) live (hsame ▸ hlive)
    · exact hbalanced.content other (hsubset hother) second hsecond
  · rw [hafter.length_eq, List.length_cons, ← List.length_cons, ← hbefore.length_eq]
    exact hbalanced.rented_eq

theorem Balanced.claim (hbalanced : pool.Balanced held) (hmem : buffer ∈ held) :
    (pool.claim buffer).Balanced (buffer :: held) := by
  obtain ⟨live, hlive, hclaims⟩ := hbalanced.exists_live hmem
  unfold BufferPool.claim
  simp only [hlive]
  refine hbalanced.recount hlive (Nat.succ_ne_zero _) ?_ ?_ ?_
  · rw [handlesOn_cons, if_pos rfl, hclaims]
  · intro id hid
    rw [handlesOn_cons, if_neg hid, Nat.add_zero]
  · exact List.cons_subset.mpr ⟨hmem, List.Subset.refl held⟩

/-- A buffer without handles is struck from the books. -/
theorem Balanced.strike (hbalanced : pool.Balanced (buffer :: held)) {live : LiveBuffer}
    (hlive : pool.live.get? buffer.id = some live) (hlast : handlesOn held buffer.id = 0) :
    let struck := { pool with
      live := pool.live.erase buffer.id
      returned := pool.returned + 1 }
    struck.Balanced held ∧ live.allocation.id ∉ struck.allocations ∧
      live.allocation.id < struck.allocated := by
  intro struck
  have hperm := Table.perm_of_get? hbalanced.keys_nodup hlive
  have hallocations : pool.allocations.Perm (live.allocation.id :: struck.allocations) :=
    ((hperm.map _).append_left _).trans List.perm_middle
  obtain ⟨hunused, hnodup⟩ :=
    List.nodup_cons.mp (hallocations.nodup_iff.mp hbalanced.allocations_nodup)
  have hlt : ∀ id ∈ live.allocation.id :: struck.allocations, id < pool.allocated :=
    fun id hid => hbalanced.allocations_lt id (hallocations.mem_iff.mpr hid)
  refine ⟨{ hbalanced with
    keys_nodup := Table.nodup_keys_erase hbalanced.keys_nodup _
    keys_lt := fun id hid =>
      hbalanced.keys_lt id (((Table.erase_sublist pool.live buffer.id).map Prod.fst).subset hid)
    claims := ?_, content := ?_, rented_eq := ?_
    allocations_nodup := hnodup
    allocations_lt := fun id hid => hlt id (List.mem_cons_of_mem _ hid) },
    hunused, hlt _ List.mem_cons_self⟩
  · intro id
    rw [Table.get?_erase]
    by_cases hid : buffer.id = id
    · subst hid
      simp [hlast]
    · simpa [hid, handlesOn_cons] using hbalanced.claims id
  · intro other hother second hsecond
    rw [Table.get?_erase] at hsecond
    split at hsecond
    · cases hsecond
    · exact hbalanced.content other (List.mem_cons_of_mem _ hother) second hsecond
  · have hlength := hperm.length_eq
    have hrented := hbalanced.rented_eq
    simp only [List.length_cons] at hlength
    simp only [struck]
    omega

theorem Balanced.addFree (hbalanced : pool.Balanced held) {allocation : Allocation}
    (hempty : allocation.content = []) (hroom : pool.free.length < pool.maximumPooled)
    (hunused : allocation.id ∉ pool.allocations) (hlt : allocation.id < pool.allocated) :
    Balanced { pool with free := allocation :: pool.free } held :=
  { hbalanced with
    isClean := List.forall_mem_cons.mpr ⟨hempty, hbalanced.isClean⟩
    free_le := hroom
    allocations_nodup := List.nodup_cons.mpr ⟨hunused, hbalanced.allocations_nodup⟩
    allocations_lt := List.forall_mem_cons.mpr ⟨hlt, hbalanced.allocations_lt⟩ }

theorem Balanced.giveBack (hbalanced : pool.Balanced (buffer :: held)) {live : LiveBuffer}
    (hlive : pool.live.get? buffer.id = some live) (hlast : handlesOn held buffer.id = 0) :
    ({ pool with live := pool.live.erase buffer.id }.giveBack live.allocation).Balanced
      held := by
  obtain ⟨hstruck, hunused, hlt⟩ := hbalanced.strike hlive hlast
  unfold BufferPool.giveBack
  simp only
  split
  · rename_i hfits
    exact hstruck.addFree rfl hfits.2 hunused hlt
  · exact hstruck

theorem Balanced.release (hbalanced : pool.Balanced (buffer :: held)) :
    (pool.release buffer).Balanced held := by
  obtain ⟨live, hlive, hclaims⟩ := hbalanced.exists_live List.mem_cons_self
  rw [handlesOn_cons, if_pos rfl] at hclaims
  unfold BufferPool.release
  simp only [hlive]
  split
  · exact hbalanced.giveBack hlive (by omega)
  · refine hbalanced.recount hlive (by omega) (by omega) ?_ (List.subset_cons_self _ _)
    intro id hid
    rw [handlesOn_cons, if_neg hid, Nat.add_zero]

theorem rented_claim (pool : BufferPool) (buffer : RentedBuffer) :
    (pool.claim buffer).rented = pool.rented := by
  unfold BufferPool.claim
  split <;> rfl

theorem returned_claim (pool : BufferPool) (buffer : RentedBuffer) :
    (pool.claim buffer).returned = pool.returned := by
  unfold BufferPool.claim
  split <;> rfl

theorem rented_giveBack (pool : BufferPool) (allocation : Allocation) :
    (pool.giveBack allocation).rented = pool.rented := by
  simp only [BufferPool.giveBack]
  split <;> rfl

theorem returned_giveBack (pool : BufferPool) (allocation : Allocation) :
    (pool.giveBack allocation).returned = pool.returned + 1 := by
  simp only [BufferPool.giveBack]
  split <;> rfl

theorem rented_release (pool : BufferPool) (buffer : RentedBuffer) :
    (pool.release buffer).rented = pool.rented := by
  unfold BufferPool.release
  split
  · split
    · exact rented_giveBack _ _
    · rfl
  · rfl

theorem maximumPooled_rent (pool : BufferPool) (bytes : Bytes) :
    (pool.rent bytes).2.maximumPooled = pool.maximumPooled := by
  simp only [BufferPool.rent, BufferPool.takeFree]
  split <;> rfl

theorem maximumPooled_claim (pool : BufferPool) (buffer : RentedBuffer) :
    (pool.claim buffer).maximumPooled = pool.maximumPooled := by
  unfold BufferPool.claim
  split <;> rfl

theorem maximumPooled_release (pool : BufferPool) (buffer : RentedBuffer) :
    (pool.release buffer).maximumPooled = pool.maximumPooled := by
  unfold BufferPool.release
  split
  · split
    · simp only [BufferPool.giveBack]
      split <;> rfl
    · rfl
  · rfl

theorem id_rent (pool : BufferPool) (bytes : Bytes) :
    (pool.rent bytes).1.id = pool.rented := by
  simp only [BufferPool.rent, BufferPool.takeFree]
  split <;> rfl

theorem Balanced.returned_release (hbalanced : pool.Balanced held) (hmem : buffer ∈ held) :
    (pool.release buffer).returned =
      pool.returned + if handlesOn held buffer.id = 1 then 1 else 0 := by
  obtain ⟨live, hlive, hclaims⟩ := hbalanced.exists_live hmem
  have hpositive := handlesOn_pos hmem
  unfold BufferPool.release
  simp only [hlive, hclaims]
  split
  · rw [returned_giveBack, if_pos (by omega)]
  · rw [if_neg (by omega), Nat.add_zero]

theorem Balanced.claimAll {buffers : List RentedBuffer} (hbalanced : pool.Balanced held)
    (hsubset : buffers ⊆ held) : (pool.claimAll buffers).Balanced (buffers ++ held) := by
  induction buffers generalizing pool held with
  | nil => exact hbalanced
  | cons buffer buffers ih =>
      obtain ⟨hmem, hothers⟩ := List.cons_subset.mp hsubset
      have hrest := ih (hbalanced.claim hmem) (List.subset_cons_of_subset buffer hothers)
      exact hrest.perm List.perm_middle

theorem Balanced.releaseAll {buffers : List RentedBuffer}
    (hbalanced : pool.Balanced (buffers ++ held)) :
    (pool.releaseAll buffers).Balanced held := by
  induction buffers generalizing pool with
  | nil => exact hbalanced
  | cons buffer buffers ih => exact ih hbalanced.release

end BufferPool

/-! ## Handles -/

/-- A pool and the handles that are alive. -/
structure Lending where
  pool : BufferPool
  held : List RentedBuffer := []

/-- Handles are known by their places among those that are alive. -/
inductive LendingStep where
  | rent (bytes : Bytes)
  | claim (handle : Nat)
  | release (handle : Nat)
  deriving DecidableEq

def LendingStep.rental? : LendingStep → Option Bytes
  | .rent bytes => some bytes
  | _ => none

namespace Lending

def fresh (maximumPooled maximumCapacity : Nat) : Lending where
  pool := { maximumPooled, maximumCapacity }

/-- With a handle that is not alive nothing can be done. -/
def step (lending : Lending) : LendingStep → Lending
  | .rent bytes =>
      let (buffer, pool) := lending.pool.rent bytes
      ⟨pool, lending.held ++ [buffer]⟩
  | .claim handle =>
      match lending.held[handle]? with
      | some buffer => ⟨lending.pool.claim buffer, lending.held ++ [buffer]⟩
      | none => lending
  | .release handle =>
      match lending.held[handle]? with
      | some buffer => ⟨lending.pool.release buffer, lending.held.eraseIdx handle⟩
      | none => lending

def run (lending : Lending) (steps : List LendingStep) : Lending :=
  steps.foldl step lending

/-- The buffers that a step gives back. -/
def givenBack (lending : Lending) (step : LendingStep) : List Nat :=
  lending.pool.live.keys.filter (· ∉ (lending.step step).pool.live.keys)

def allGivenBack (lending : Lending) : List LendingStep → List Nat
  | [] => []
  | step :: steps => lending.givenBack step ++ (lending.step step).allGivenBack steps

/-- The buffer whose last handle a step drops. -/
def lastDropped? (lending : Lending) : LendingStep → Option Nat
  | .release handle =>
      (lending.held[handle]?.map RentedBuffer.id).filter fun id =>
        handlesOn lending.held id = 1
  | _ => none

variable {lending : Lending}

theorem held_perm {handle : Nat} {buffer : RentedBuffer}
    (hbuffer : lending.held[handle]? = some buffer) :
    lending.held.Perm (buffer :: lending.held.eraseIdx handle) := by
  obtain ⟨hlt, rfl⟩ := List.getElem?_eq_some_iff.mp hbuffer
  exact (List.getElem_cons_eraseIdx_perm hlt).symm

theorem balanced_step (hbalanced : lending.pool.Balanced lending.held) (step : LendingStep) :
    (lending.step step).pool.Balanced (lending.step step).held := by
  cases step with
  | rent bytes =>
      exact (hbalanced.rent bytes).perm (List.perm_append_singleton _ _).symm
  | claim handle =>
      cases hbuffer : lending.held[handle]? with
      | none => simpa only [Lending.step, hbuffer] using hbalanced
      | some buffer =>
          simp only [Lending.step, hbuffer]
          exact (hbalanced.claim (List.mem_of_getElem? hbuffer)).perm
            (List.perm_append_singleton _ _).symm
  | release handle =>
      cases hbuffer : lending.held[handle]? with
      | none => simpa only [Lending.step, hbuffer] using hbalanced
      | some buffer =>
          simp only [Lending.step, hbuffer]
          exact (hbalanced.perm (held_perm hbuffer)).release

theorem handlesOn_step_of_release {handle : Nat} {buffer : RentedBuffer}
    (hbuffer : lending.held[handle]? = some buffer) (id : Nat) :
    handlesOn lending.held id =
      handlesOn (lending.step (.release handle)).held id + if buffer.id = id then 1 else 0 := by
  rw [handlesOn_perm (held_perm hbuffer), handlesOn_cons]
  simp only [Lending.step, hbuffer]

theorem mem_givenBack_iff (hbalanced : lending.pool.Balanced lending.held)
    (step : LendingStep) (id : Nat) :
    id ∈ lending.givenBack step ↔
      0 < handlesOn lending.held id ∧ handlesOn (lending.step step).held id = 0 := by
  have hafter := balanced_step hbalanced step
  simp only [givenBack, List.mem_filter, hbalanced.mem_keys_iff, hafter.mem_keys_iff,
    decide_eq_true_eq, handlesOn, List.count_pos_iff, List.count_eq_zero]

theorem handlesOn_le_step {step : LendingStep} (hlast : lending.lastDropped? step = none)
    (id : Nat) (hid : 0 < handlesOn lending.held id) :
    0 < handlesOn (lending.step step).held id := by
  cases step with
  | rent bytes =>
      simp only [Lending.step, handlesOn, List.map_append, List.count_append] at hid ⊢
      omega
  | claim handle =>
      simp only [Lending.step]
      split
      · simp only [handlesOn, List.map_append, List.count_append] at hid ⊢
        omega
      · exact hid
  | release handle =>
      cases hbuffer : lending.held[handle]? with
      | none => simpa only [Lending.step, hbuffer] using hid
      | some buffer =>
          have hcount := handlesOn_step_of_release hbuffer id
          have hothers : handlesOn lending.held buffer.id ≠ 1 := by
            simpa [lastDropped?, hbuffer] using hlast
          split at hcount
          · rename_i hsame
            rw [hsame] at hothers
            omega
          · omega

theorem handlesOn_step_of_lastDropped {step : LendingStep} {dropped : Nat}
    (hlast : lending.lastDropped? step = some dropped) (id : Nat) :
    handlesOn lending.held id =
      handlesOn (lending.step step).held id + if dropped = id then 1 else 0 := by
  cases step with
  | rent bytes => cases hlast
  | claim handle => cases hlast
  | release handle =>
      obtain ⟨hdropped, -⟩ := Option.filter_eq_some_iff.mp hlast
      obtain ⟨buffer, hbuffer, rfl⟩ := Option.map_eq_some_iff.mp hdropped
      exact handlesOn_step_of_release hbuffer id

theorem handlesOn_of_lastDropped {step : LendingStep} {dropped : Nat}
    (hlast : lending.lastDropped? step = some dropped) :
    handlesOn lending.held dropped = 1 := by
  cases step with
  | rent bytes => cases hlast
  | claim handle => cases hlast
  | release handle => simpa using (Option.filter_eq_some_iff.mp hlast).2

/-- A buffer is given back when its last handle is dropped, and at no other time. -/
theorem givenBack_eq (hbalanced : lending.pool.Balanced lending.held) (step : LendingStep) :
    lending.givenBack step = (lending.lastDropped? step).toList := by
  have hmem := mem_givenBack_iff hbalanced step
  cases hlast : lending.lastDropped? step with
  | none =>
      refine List.eq_nil_iff_forall_not_mem.mpr fun id hid => ?_
      obtain ⟨hbefore, hafter⟩ := (hmem id).mp hid
      exact Nat.ne_of_gt (handlesOn_le_step hlast id hbefore) hafter
  | some dropped =>
      have hnodup : (lending.givenBack step).Nodup := hbalanced.keys_nodup.filter _
      refine List.perm_singleton.mp
        ((List.perm_ext_iff_of_nodup hnodup (List.nodup_singleton _)).mpr fun id => ?_)
      have hcount := handlesOn_step_of_lastDropped hlast id
      have hone := handlesOn_of_lastDropped hlast
      rw [hmem, List.mem_singleton]
      split at hcount
      · rename_i hsame
        subst hsame
        simp only [iff_true]
        omega
      · rename_i hother
        simp only [Ne.symm hother, iff_false]
        omega

theorem held_step_subset {step : LendingStep} (hrental : step.rental? = none) :
    (lending.step step).held ⊆ lending.held := by
  cases step with
  | rent bytes => cases hrental
  | claim handle =>
      cases hbuffer : lending.held[handle]? with
      | none => simp only [Lending.step, hbuffer, List.Subset.refl]
      | some buffer =>
          simp only [Lending.step, hbuffer]
          exact List.append_subset.mpr ⟨List.Subset.refl _,
            List.cons_subset.mpr ⟨List.mem_of_getElem? hbuffer, List.nil_subset _⟩⟩
  | release handle =>
      cases hbuffer : lending.held[handle]? with
      | none => simp only [Lending.step, hbuffer, List.Subset.refl]
      | some buffer =>
          simp only [Lending.step, hbuffer]
          exact List.eraseIdx_subset

theorem handlesOn_step_eq_zero {step : LendingStep} (hrental : step.rental? = none) (id : Nat)
    (hnone : handlesOn lending.held id = 0) : handlesOn (lending.step step).held id = 0 := by
  rw [handlesOn, List.count_eq_zero] at hnone ⊢
  exact fun hmem => hnone (List.map_subset _ (held_step_subset hrental) hmem)

theorem handlesOn_step_of_rental (lending : Lending) {step : LendingStep} {bytes : Bytes}
    (hrental : step.rental? = some bytes) (id : Nat) :
    handlesOn (lending.step step).held id =
      handlesOn lending.held id + if lending.pool.rented = id then 1 else 0 := by
  cases step with
  | rent rented =>
      have hheld : (lending.step (.rent rented)).held =
          lending.held ++ [(lending.pool.rent rented).1] := rfl
      rw [hheld, handlesOn_perm (List.perm_append_singleton _ _), handlesOn_cons,
        BufferPool.id_rent]
  | claim handle => cases hrental
  | release handle => cases hrental

theorem rented_step (lending : Lending) (step : LendingStep) :
    (lending.step step).pool.rented =
      lending.pool.rented + step.rental?.toList.length := by
  cases step with
  | rent bytes =>
      simp only [Lending.step, BufferPool.rent, BufferPool.takeFree, LendingStep.rental?]
      split <;> rfl
  | claim handle =>
      simp only [Lending.step]
      split
      · exact BufferPool.rented_claim _ _
      · rfl
  | release handle =>
      simp only [Lending.step]
      split
      · exact BufferPool.rented_release _ _
      · rfl

theorem returned_step (hbalanced : lending.pool.Balanced lending.held) (step : LendingStep) :
    (lending.step step).pool.returned =
      lending.pool.returned + (lending.givenBack step).length := by
  rw [givenBack_eq hbalanced]
  cases step with
  | rent bytes =>
      simp only [Lending.step, BufferPool.rent, BufferPool.takeFree]
      split <;> rfl
  | claim handle =>
      simp only [Lending.step]
      split
      · exact BufferPool.returned_claim _ _
      · rfl
  | release handle =>
      cases hbuffer : lending.held[handle]? with
      | none => simp [Lending.step, lastDropped?, hbuffer]
      | some buffer =>
          simp only [Lending.step, lastDropped?, hbuffer]
          rw [hbalanced.returned_release (List.mem_of_getElem? hbuffer)]
          by_cases hlast : handlesOn lending.held buffer.id = 1 <;>
            simp [Option.filter_some, hlast]

/-- The history of a pool: what was rented, in order, and which buffers came back. -/
structure Remembers (lending : Lending) (rentals : List Bytes) (back : List Nat) : Prop where
  balanced : lending.pool.Balanced lending.held
  rented : lending.pool.rented = rentals.length
  content : ∀ buffer ∈ lending.held, rentals[buffer.id]? = some buffer.content
  back_nodup : back.Nodup
  mem_back_iff : ∀ id, id ∈ back ↔ id < rentals.length ∧ handlesOn lending.held id = 0
  returned : lending.pool.returned = back.length

theorem remembers_fresh (maximumPooled maximumCapacity : Nat) :
    (fresh maximumPooled maximumCapacity).Remembers [] [] where
  balanced := BufferPool.balanced_fresh maximumPooled maximumCapacity
  rented := rfl
  content := fun buffer hbuffer => by cases hbuffer
  back_nodup := List.nodup_nil
  mem_back_iff := fun id => by simp
  returned := rfl

variable {rentals : List Bytes} {back : List Nat}

theorem Remembers.id_lt (hremembers : lending.Remembers rentals back) {id : Nat}
    (hid : 0 < handlesOn lending.held id) : id < rentals.length := by
  obtain ⟨buffer, hbuffer, rfl⟩ := List.mem_map.mp (List.count_pos_iff.mp hid)
  exact (List.getElem?_eq_some_iff.mp (hremembers.content buffer hbuffer)).choose

theorem Remembers.content_step (hremembers : lending.Remembers rentals back)
    (step : LendingStep) :
    ∀ buffer ∈ (lending.step step).held,
      (rentals ++ step.rental?.toList)[buffer.id]? = some buffer.content := by
  intro buffer hbuffer
  have hold : buffer ∈ lending.held →
      (rentals ++ step.rental?.toList)[buffer.id]? = some buffer.content := by
    intro hheld
    rw [List.getElem?_append_left (hremembers.id_lt (handlesOn_pos hheld))]
    exact hremembers.content buffer hheld
  cases step with
  | rent bytes =>
      rcases List.mem_append.mp hbuffer with hheld | hnew
      · exact hold hheld
      · have hbuffer : buffer = (lending.pool.rent bytes).1 := List.mem_singleton.mp hnew
        rw [hbuffer, BufferPool.id_rent, hremembers.rented,
          hremembers.balanced.isClean.content_rent]
        exact List.getElem?_concat_length
  | claim handle => exact hold (held_step_subset rfl hbuffer)
  | release handle => exact hold (held_step_subset rfl hbuffer)

theorem Remembers.mem_back_step (hremembers : lending.Remembers rentals back)
    (step : LendingStep) (id : Nat) :
    id ∈ back ++ lending.givenBack step ↔
      id < (rentals ++ step.rental?.toList).length ∧
        handlesOn (lending.step step).held id = 0 := by
  have hlt : 0 < handlesOn lending.held id → id < rentals.length := hremembers.id_lt
  rw [List.mem_append, hremembers.mem_back_iff, mem_givenBack_iff hremembers.balanced]
  cases hrental : step.rental? with
  | none =>
      have hnone : handlesOn lending.held id = 0 → handlesOn (lending.step step).held id = 0 :=
        handlesOn_step_eq_zero hrental id
      simp only [Option.toList_none, List.append_nil]
      omega
  | some bytes =>
      have hcount := handlesOn_step_of_rental lending hrental id
      rw [hremembers.rented] at hcount
      simp only [Option.toList_some, List.length_append, List.length_singleton]
      split at hcount <;> omega

theorem Remembers.afterStep (hremembers : lending.Remembers rentals back)
    (step : LendingStep) :
    (lending.step step).Remembers (rentals ++ step.rental?.toList)
      (back ++ lending.givenBack step) where
  balanced := balanced_step hremembers.balanced step
  rented := by rw [rented_step, hremembers.rented, List.length_append]
  content := hremembers.content_step step
  back_nodup := by
    refine List.nodup_append.mpr ⟨hremembers.back_nodup,
      hremembers.balanced.keys_nodup.filter _, fun id hback other hother hsame => ?_⟩
    have hnone := ((hremembers.mem_back_iff id).mp hback).2
    have hsome := ((mem_givenBack_iff hremembers.balanced step other).mp hother).1
    rw [← hsame, hnone] at hsome
    exact Nat.lt_irrefl 0 hsome
  mem_back_iff := hremembers.mem_back_step step
  returned := by
    rw [returned_step hremembers.balanced, hremembers.returned, List.length_append]

theorem Remembers.afterRun (hremembers : lending.Remembers rentals back)
    (steps : List LendingStep) :
    (lending.run steps).Remembers (rentals ++ steps.filterMap LendingStep.rental?)
      (back ++ lending.allGivenBack steps) := by
  induction steps generalizing lending rentals back with
  | nil => simpa [run, allGivenBack] using hremembers
  | cons step steps ih =>
      have hrentals : (step :: steps).filterMap LendingStep.rental? =
          step.rental?.toList ++ steps.filterMap LendingStep.rental? := by
        cases hrental : step.rental? <;> simp [hrental]
      have hafter := ih (hremembers.afterStep step)
      rw [hrentals, ← List.append_assoc]
      simpa only [run, List.foldl_cons, allGivenBack, List.append_assoc] using hafter

theorem maximumPooled_step (lending : Lending) (step : LendingStep) :
    (lending.step step).pool.maximumPooled = lending.pool.maximumPooled := by
  cases step with
  | rent bytes => exact BufferPool.maximumPooled_rent _ _
  | claim handle =>
      simp only [Lending.step]
      split
      · exact BufferPool.maximumPooled_claim _ _
      · rfl
  | release handle =>
      simp only [Lending.step]
      split
      · exact BufferPool.maximumPooled_release _ _
      · rfl

theorem maximumPooled_run (lending : Lending) (steps : List LendingStep) :
    (lending.run steps).pool.maximumPooled = lending.pool.maximumPooled :=
  foldl_keeps (·.pool.maximumPooled) maximumPooled_step steps lending

/-- Whatever is done with handles, a buffer has the claims of its handles, shows
the bytes that it was rented with, and comes back once, with its last handle. -/
theorem claims_symmetric (maximumPooled maximumCapacity : Nat) (steps : List LendingStep) :
    let start := fresh maximumPooled maximumCapacity
    let lending := start.run steps
    let rentals := steps.filterMap LendingStep.rental?
    let back := start.allGivenBack steps
    (∀ buffer ∈ lending.held,
      lending.pool.claims buffer = handlesOn lending.held buffer.id ∧
        rentals[buffer.id]? = some buffer.content ∧
        ∃ live, lending.pool.live.get? buffer.id = some live ∧
          live.allocation.content = buffer.content ∧
          live.allocation.id ∉ lending.pool.free.map Allocation.id ∧
          ∀ other second, lending.pool.live.get? other = some second →
            second.allocation.id = live.allocation.id → other = buffer.id) ∧
      (∀ step, lending.givenBack step = (lending.lastDropped? step).toList) ∧
      back.Nodup ∧
      (∀ id, id ∈ back ↔ id < rentals.length ∧ handlesOn lending.held id = 0) ∧
      lending.pool.returned = back.length ∧
      lending.pool.rented = rentals.length ∧
      lending.pool.rented = lending.pool.returned + lending.pool.outstanding ∧
      lending.pool.outstanding = distinct lending.held ∧
      lending.pool.free.length ≤ maximumPooled ∧
      (∀ allocation ∈ lending.pool.free, allocation.content = []) ∧
      ∀ bytes, (lending.pool.rent bytes).1.content = bytes := by
  intro start lending rentals back
  have hremembers : lending.Remembers rentals back :=
    (remembers_fresh maximumPooled maximumCapacity).afterRun steps
  have hbalanced := hremembers.balanced
  refine ⟨fun buffer hbuffer => ⟨hbalanced.claims_eq hbuffer,
      hremembers.content buffer hbuffer, ?_⟩, givenBack_eq hbalanced, hremembers.back_nodup,
    hremembers.mem_back_iff, hremembers.returned, hremembers.rented,
    hbalanced.rented_eq_returned_add, hbalanced.outstanding_eq, ?_, hbalanced.isClean,
    hbalanced.isClean.content_rent⟩
  · obtain ⟨live, hlive, -⟩ := hbalanced.exists_live hbuffer
    exact ⟨live, hlive, hbalanced.content buffer hbuffer live hlive,
      hbalanced.allocation_unique hlive⟩
  · have hlimit := hbalanced.free_le
    rwa [maximumPooled_run] at hlimit

end Lending

end LiveRelay
