import FluxTrade.Domain
import FluxTrade.Library.LinkedList
import Mathlib.Data.List.Perm.Basic

/-!
# Preallocated object pools

A pool owns a fixed array of storage and a stack of free slot indices. A
pointer into the array is its slot index; reading through a pointer whose slot
has been returned still finds the old contents, as in the source. `Accounts`
says that the free slots and a list of slots in use are together exactly the
slots of the array.
-/

namespace FluxTrade

open LinkedList

/-- `ObjectPool<T, Capacity>`. -/
structure ObjectPool (α : Type) (capacity : Nat) where
  /-- `storage_`, by slot. -/
  storage : Nat → α
  /-- `free_list_`, its back first. -/
  freeList : List Nat

namespace ObjectPool

variable {α : Type} {capacity : Nat}

/-- The indices pushed by the constructor, the last one first. -/
def freshSlots : Nat → List Nat
  | 0 => []
  | count + 1 => count :: freshSlots count

/-- `ObjectPool::ObjectPool`. -/
def new [Inhabited α] : ObjectPool α capacity :=
  ⟨fun _ => default, freshSlots capacity⟩

/-- `ObjectPool::allocate`: take the back of the free list and construct a value in its slot. -/
def allocate (pool : ObjectPool α capacity) (value : α) :
    Except Fault (Nat × ObjectPool α capacity) :=
  match pool.freeList with
  | [] => .error .badAlloc
  | slot :: rest =>
    .ok (slot, { storage := Function.update pool.storage slot value, freeList := rest })

/-- `ObjectPool::deallocate`: a slot outside the array is ignored. -/
def deallocate (pool : ObjectPool α capacity) (slot : Nat) : ObjectPool α capacity :=
  if slot < capacity then { pool with freeList := slot :: pool.freeList } else pool

/-- Return slots one after the other. -/
def deallocateAll (pool : ObjectPool α capacity) (slots : List Nat) : ObjectPool α capacity :=
  slots.foldl deallocate pool

/-- Write through a pointer. -/
def modify (pool : ObjectPool α capacity) (slot : Nat) (change : α → α) :
    ObjectPool α capacity :=
  { pool with storage := modifyAt pool.storage slot change }

/-- An allocation takes the top slot. -/
theorem allocate_freeList {pool pool' : ObjectPool α capacity} {value : α} {slot : Nat}
    (allocated : pool.allocate value = .ok (slot, pool')) :
    pool.freeList = slot :: pool'.freeList := by
  unfold allocate at allocated
  split at allocated
  · cases allocated
  · cases allocated
    assumption

section

variable (pool : ObjectPool α capacity)

/-- A change writes the storage. -/
@[simp]
theorem modify_storage (slot : Nat) (change : α → α) :
    (pool.modify slot change).storage = modifyAt pool.storage slot change := rfl

/-- Two writes through one pointer are one write. -/
theorem modify_modify (slot : Nat) (first second : α → α) :
    (pool.modify slot first).modify slot second =
      pool.modify slot fun value => second (first value) := by
  simp [modify, modifyAt]

/-- A write depends only on the value it finds. -/
theorem modify_congr {slot : Nat} {first second : α → α}
    (same : first (pool.storage slot) = second (pool.storage slot)) :
    pool.modify slot first = pool.modify slot second := by
  simp [modify, modifyAt, same]

/-- A release leaves the storage. -/
@[simp]
theorem deallocate_storage (slot : Nat) :
    (pool.deallocate slot).storage = pool.storage := by
  unfold deallocate
  split <;> rfl

/-- A returned slot goes on top of the free list. -/
theorem deallocate_freeList (slot : Nat) :
    ∃ returned, (pool.deallocate slot).freeList = returned ++ pool.freeList := by
  unfold deallocate
  split
  · exact ⟨[slot], rfl⟩
  · exact ⟨[], rfl⟩

/-- Releases leave the storage. -/
@[simp]
theorem deallocateAll_storage (slots : List Nat) :
    (pool.deallocateAll slots).storage = pool.storage := by
  induction slots generalizing pool with
  | nil => rfl
  | cons slot rest ih => exact (ih (pool.deallocate slot)).trans (pool.deallocate_storage slot)

end

/-- A pool with every stored value replaced by its image. -/
def map {β : Type} (image : α → β) (pool : ObjectPool α capacity) : ObjectPool β capacity :=
  ⟨fun slot => image (pool.storage slot), pool.freeList⟩

section Map

variable {β : Type} (image : α → β) (pool : ObjectPool α capacity)

/-- Allocation in the image. -/
theorem allocate_map (value : α) :
    (pool.map image).allocate (image value) =
      (pool.allocate value).map fun taken => (taken.1, taken.2.map image) := by
  unfold allocate map
  cases pool.freeList with
  | nil => rfl
  | cons slot rest =>
    have stored : Function.update (fun slot => image (pool.storage slot)) slot (image value) =
        fun other => image (Function.update pool.storage slot value other) :=
      (Function.comp_update image pool.storage slot value).symm
    dsimp only
    rw [stored]
    rfl

/-- Release in the image. -/
theorem deallocate_map (slot : Nat) :
    (pool.map image).deallocate slot = (pool.deallocate slot).map image := by
  unfold deallocate
  split <;> rfl

end Map

/-- The free slots and the slots in use are exactly the slots of the array. -/
def Accounts (pool : ObjectPool α capacity) (used : List Nat) : Prop :=
  (pool.freeList ++ used).Perm (List.range capacity)

namespace Accounts

variable {pool : ObjectPool α capacity} {used : List Nat}

section

variable (accounts : pool.Accounts used)
include accounts

/-- No slot is used twice. -/
theorem nodup : used.Nodup :=
  (List.nodup_append.mp (accounts.nodup_iff.mpr List.nodup_range)).2.1

/-- A free slot is not in use. -/
theorem fresh {slot : Nat} (free : slot ∈ pool.freeList) :
    slot ∉ used := fun member =>
  (List.nodup_append.mp (accounts.nodup_iff.mpr List.nodup_range)).2.2 slot free slot member rfl

/-- A used slot lies in the array. -/
theorem lt_capacity {slot : Nat} (member : slot ∈ used) :
    slot < capacity :=
  List.mem_range.mp (accounts.mem_iff.mp (List.mem_append_right _ member))

/-- At most as many slots are in use as the array has. -/
theorem length_le : used.length ≤ capacity := by
  have total := accounts.length_eq
  rw [List.length_append, List.length_range] at total
  omega

/-- The order in which slots are used does not matter. -/
theorem perm {other : List Nat} (same : other.Perm used) :
    pool.Accounts other :=
  (same.append_left pool.freeList).trans accounts

/-- Accounting reads only the free list. -/
theorem of_freeList {other : ObjectPool α capacity} (same : other.freeList = pool.freeList) :
    other.Accounts used := by
  unfold Accounts
  rw [same]
  exact accounts

end

/-- A returned slot leaves the slots in use. -/
theorem deallocate {slot : Nat} (accounts : pool.Accounts (slot :: used)) :
    (pool.deallocate slot).Accounts used := by
  have inside := accounts.lt_capacity List.mem_cons_self
  simp only [Accounts, ObjectPool.deallocate, inside, if_true, List.cons_append]
  exact List.perm_middle.symm.trans accounts

/-- Returned slots leave the slots in use. -/
theorem deallocateAll {slots : List Nat} (accounts : pool.Accounts (slots ++ used)) :
    (pool.deallocateAll slots).Accounts used := by
  induction slots generalizing pool with
  | nil => exact accounts
  | cons slot rest ih => exact ih accounts.deallocate

/-- A pool that gave at most one slot and got slots back until the same ones are in use is as it
was. -/
theorem freeList_eq {pool' : ObjectPool α capacity} {taken returned rest : List Nat}
    (accounts : pool.Accounts used) (accounts' : pool'.Accounts used)
    (gave : pool.freeList = taken ++ rest) (short : taken.length ≤ 1)
    (got : pool'.freeList = returned ++ rest) : pool'.freeList = pool.freeList := by
  unfold Accounts at accounts accounts'
  rw [gave] at accounts
  rw [got] at accounts'
  have same : returned.Perm taken :=
    (List.perm_append_right_iff _).mp
      ((List.perm_append_right_iff _).mp (accounts'.trans accounts.symm))
  have equal : returned = taken := by
    match taken, short with
    | [], _ => exact same.eq_nil
    | [_], _ => exact List.perm_singleton.mp same
  rw [gave, got, equal]

end Accounts

/-- The constructor's free list holds every slot once. -/
theorem freshSlots_perm (count : Nat) : (freshSlots count).Perm (List.range count) := by
  induction count with
  | zero => exact List.Perm.refl _
  | succ count ih =>
    rw [List.range_succ]
    exact (ih.cons count).trans (List.perm_append_singleton count _).symm

/-- A new pool has every slot free. -/
theorem new_accounts [Inhabited α] : (new : ObjectPool α capacity).Accounts [] := by
  simpa [Accounts, new] using freshSlots_perm capacity

end ObjectPool

end FluxTrade
