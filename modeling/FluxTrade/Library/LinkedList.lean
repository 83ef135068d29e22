import Mathlib.Logic.Function.Basic
import Mathlib.Data.List.Nodup

/-!
# Linked lists over a store of nodes

A store maps addresses to nodes, and a node names its neighbours by optional
addresses. `Path` reads the chain that starts at an address as the list of
visited addresses, ending at the null address. `DList` pairs the forward and
the backward chain of one duplicate-free list. Inserting and unlinking a node
rewrite one link in each direction; `relink` and `restart` are those rewrites,
and both directions are instances of one splice and one skip of a single chain.
-/

namespace LinkedList

open Function List

variable {α β γ : Type*} [DecidableEq α]

/-- Rewrite the cell at one address. -/
def modifyAt (store : α → β) (address : α) (change : β → β) : α → β :=
  update store address (change (store address))

/-- The rewritten cell. -/
@[simp]
theorem modifyAt_same (store : α → β) (address : α) (change : β → β) :
    modifyAt store address change address = change (store address) := by
  simp [modifyAt]

/-- Every other cell keeps its contents. -/
@[simp]
theorem modifyAt_of_ne (store : α → β) {address other : α} (change : β → β)
    (distinct : other ≠ address) : modifyAt store address change other = store other := by
  simp [modifyAt, distinct]

/-- A reading of the cells sees a rewrite as an update of that reading. -/
theorem read_modifyAt (read : β → γ) (store : α → β) (address : α) (change : β → β) :
    (fun other => read (modifyAt store address change other)) =
      update (fun other => read (store other)) address
        (read (change (store address))) := by
  funext other
  by_cases same : other = address
  · subst same
    simp
  · simp [same]

/-- A reading that a rewrite keeps is unchanged everywhere. -/
theorem read_modifyAt_of_eq (read : β → γ) (store : α → β) (address : α) (change : β → β)
    (kept : read (change (store address)) = read (store address)) (other : α) :
    read (modifyAt store address change other) = read (store other) := by
  by_cases same : other = address
  · subst same
    simpa using kept
  · simp [same]

/-- A reading that takes rewrites to rewrites takes a rewritten store to a rewritten reading. -/
theorem map_modifyAt {read : β → γ} {change : β → β} {change' : γ → γ}
    (commutes : ∀ cell, read (change cell) = change' (read cell)) (store : α → β) (address : α) :
    (fun other => read (modifyAt store address change other)) =
      modifyAt (fun other => read (store other)) address change' := by
  rw [read_modifyAt, commutes]
  rfl

/-! ## Chains -/

/-- Following `next` from `start` visits exactly the listed addresses and then ends. -/
def Path (next : α → Option α) : Option α → List α → Prop
  | start, [] => start = none
  | start, address :: rest => start = some address ∧ Path next (next address) rest

/-- Following `next` from `start` visits the listed addresses and reaches `stop`. -/
def Segment (next : α → Option α) : Option α → List α → Option α → Prop
  | start, [], stop => start = stop
  | start, address :: rest, stop => start = some address ∧ Segment next (next address) rest stop

section Chains

variable {visited : List α}

omit [DecidableEq α]

variable {next next' : α → Option α} {start : Option α} {front back : List α} {address : α}

/-- A path depends only on the links of the addresses it visits. -/
theorem Path.congr (path : Path next start visited)
    (same : ∀ address ∈ visited, next' address = next address) : Path next' start visited := by
  induction visited generalizing start with
  | nil => exact path
  | cons address rest ih =>
    obtain ⟨first, path⟩ := path
    refine ⟨first, ?_⟩
    rw [same address mem_cons_self]
    exact ih path fun other member => same other (mem_cons_of_mem _ member)

/-- A segment depends only on the links of the addresses it visits. -/
theorem Segment.congr {stop : Option α} (segment : Segment next start visited stop)
    (same : ∀ address ∈ visited, next' address = next address) :
    Segment next' start visited stop := by
  induction visited generalizing start with
  | nil => exact segment
  | cons address rest ih =>
    obtain ⟨first, segment⟩ := segment
    refine ⟨first, ?_⟩
    rw [same address mem_cons_self]
    exact ih segment fun other member => same other (mem_cons_of_mem _ member)

/-- A path splits at any visited address. -/
theorem path_append_cons :
    Path next start (front ++ address :: back) ↔
      Segment next start front (some address) ∧ Path next (next address) back := by
  induction front generalizing start with
  | nil => exact Iff.rfl
  | cons first front ih =>
    simp only [cons_append, Path, Segment, ih, and_assoc]

/-- A path starts at its first address. -/
theorem Path.start_eq (path : Path next start visited) :
    start = visited.head? := by
  cases visited with
  | nil => exact path
  | cons address rest => exact path.1

/-- The link of a visited address leads to the address listed after it. -/
theorem Path.next_eq (path : Path next start (front ++ address :: back)) :
    next address = back.head? :=
  (path_append_cons.mp path).2.start_eq

/-- The addresses visited from a start, within a bound on their number. -/
def walk (next : α → Option α) : Nat → Option α → List α
  | _, none => []
  | 0, some _ => []
  | fuel + 1, some address => address :: walk next fuel (next address)

/-- Within its length a walk reads back the whole path. -/
theorem Path.walk_eq {fuel : Nat} (path : Path next start visited) (fits : visited.length ≤ fuel) :
    walk next fuel start = visited := by
  induction visited generalizing start fuel with
  | nil =>
    rw [show start = none from path]
    cases fuel <;> rfl
  | cons address rest ih =>
    cases fuel with
    | zero => simp at fits
    | succ fuel =>
      rw [path.1]
      simp only [length_cons, Nat.add_le_add_iff_right] at fits
      simp [walk, ih path.2 fits]

end Chains

/-! ## Rewriting one link -/

/-- Redirect the link of an optional address. -/
def relink (next : α → Option α) (address target : Option α) : α → Option α :=
  match address with
  | none => next
  | some address => update next address target

/-- Move the start of a chain when no address precedes the rewritten place. -/
def restart (start address target : Option α) : Option α :=
  match address with
  | none => target
  | some _ => start

variable {next prev : α → Option α} {start head tail : Option α} {front back : List α}
  {address : α}

/-- A fresh address spliced between two parts of a path extends the path. -/
theorem Path.splice (path : Path next start (front ++ back)) (fresh : address ∉ front ++ back)
    (nodup : (front ++ back).Nodup) :
    Path (relink (update next address back.head?) front.getLast? (some address))
      (restart start front.getLast? (some address)) (front ++ address :: back) := by
  have outside : address ∉ front ∧ address ∉ back := by simpa using fresh
  rcases eq_nil_or_concat front with rfl | ⟨init, last, rfl⟩
  · have rest : Path next start back := path
    refine ⟨rfl, ?_⟩
    simp only [relink, getLast?_nil, update_self]
    rw [← rest.start_eq]
    exact rest.congr fun other member => by
      have : other ≠ address := fun same => outside.2 (same ▸ member)
      simp [this]
  · simp only [concat_eq_append] at *
    rw [append_assoc, singleton_append] at path nodup
    obtain ⟨segment, rest⟩ := path_append_cons.mp path
    have apart : address ≠ last := fun same => outside.1 (by simp [same])
    simp only [getLast?_concat, restart, relink]
    rw [append_assoc, singleton_append]
    refine path_append_cons.mpr ⟨segment.congr ?_, ?_⟩
    · intro other member
      have notLast : other ≠ last := fun same => by
        subst same
        exact (nodup_append.mp nodup).2.2 other member other mem_cons_self rfl
      have notNew : other ≠ address := fun same => outside.1 (by simp [← same, member])
      simp [notLast, notNew]
    · refine ⟨by simp, ?_⟩
      simp only [ne_eq, apart, not_false_eq_true, update_of_ne, update_self]
      rw [← rest.start_eq]
      refine rest.congr fun other member => ?_
      have notLast : other ≠ last := fun same => by
        subst same
        exact (nodup_cons.mp (nodup_append.mp nodup).2.1).1 member
      have notNew : other ≠ address := fun same => outside.2 (same ▸ member)
      simp [notLast, notNew]

/-- Redirecting the predecessor of a visited address to its successor skips that address. -/
theorem Path.skip (path : Path next start (front ++ address :: back))
    (nodup : (front ++ address :: back).Nodup) :
    Path (relink next front.getLast? (next address))
      (restart start front.getLast? (next address)) (front ++ back) := by
  rcases eq_nil_or_concat front with rfl | ⟨init, last, rfl⟩
  · exact path.2
  · simp only [concat_eq_append] at *
    rw [append_assoc, singleton_append] at path nodup
    obtain ⟨segment, _, rest⟩ := path_append_cons.mp path
    simp only [getLast?_concat, restart, relink]
    rw [append_assoc, singleton_append]
    have apart := (nodup_append.mp nodup).2.2
    have behind := nodup_cons.mp (nodup_append.mp nodup).2.1
    refine path_append_cons.mpr ⟨segment.congr ?_, ?_⟩
    · intro other member
      have notLast : other ≠ last := fun same =>
        apart other member last mem_cons_self same
      simp [notLast]
    · rw [update_self]
      refine rest.congr fun other member => ?_
      have notLast : other ≠ last := fun same =>
        behind.1 (mem_cons_of_mem _ (same ▸ member))
      simp [notLast]

/-! ## Doubly linked lists -/

/-- The forward chain from the head and the backward chain from the tail visit one
duplicate-free list, in opposite orders. -/
structure DList (next prev : α → Option α) (head tail : Option α) (visited : List α) : Prop where
  /-- The chain from the head. -/
  forward : Path next head visited
  /-- The chain from the tail. -/
  backward : Path prev tail visited.reverse
  /-- No address is visited twice. -/
  nodup : visited.Nodup

namespace DList

section Reading

variable {next' prev' : α → Option α} {visited : List α}

omit [DecidableEq α]

/-- The empty list. -/
theorem nil (next prev : α → Option α) : DList next prev none none [] :=
  ⟨rfl, rfl, nodup_nil⟩

section

variable (list : DList next prev head tail visited)
include list

/-- A list depends only on the links of its own addresses. -/
theorem congr (sameNext : ∀ address ∈ visited, next' address = next address)
    (samePrev : ∀ address ∈ visited, prev' address = prev address) :
    DList next' prev' head tail visited :=
  ⟨list.forward.congr sameNext,
    list.backward.congr fun address member => samePrev address (mem_reverse.mp member),
    list.nodup⟩

/-- The head is the first address. -/
theorem head_eq :
    head = visited.head? :=
  list.forward.start_eq

/-- The tail is the last address. -/
theorem tail_eq :
    tail = visited.getLast? := by
  rw [list.backward.start_eq, head?_reverse]

end

/-- The forward link of an address leads to its successor. -/
theorem next_eq (list : DList next prev head tail (front ++ address :: back)) :
    next address = back.head? :=
  list.forward.next_eq

/-- The backward link of an address leads to its predecessor. -/
theorem prev_eq (list : DList next prev head tail (front ++ address :: back)) :
    prev address = front.getLast? := by
  have path := list.backward
  rw [reverse_append, reverse_cons, append_assoc, singleton_append] at path
  rw [path.next_eq, head?_reverse]

/-- Two stores that hold one list have the same links along it. -/
theorem links_eq {head' tail' : Option α} (list : DList next prev head tail visited)
    (other : DList next' prev' head' tail' visited) (member : address ∈ visited) :
    next address = next' address ∧ prev address = prev' address := by
  obtain ⟨front, back, rfl⟩ := append_of_mem member
  exact ⟨list.next_eq.trans other.next_eq.symm, list.prev_eq.trans other.prev_eq.symm⟩

end Reading

/-- Splicing a fresh address into both chains. -/
theorem insert (list : DList next prev head tail (front ++ back))
    (fresh : address ∉ front ++ back) :
    DList (relink (update next address back.head?) front.getLast? (some address))
      (relink (update prev address front.getLast?) back.head? (some address))
      (restart head front.getLast? (some address)) (restart tail back.head? (some address))
      (front ++ address :: back) := by
  have backward : Path prev tail (back.reverse ++ front.reverse) := by
    simpa using list.backward
  have outside : address ∉ back.reverse ++ front.reverse := by simpa [or_comm] using fresh
  have spliced := backward.splice outside (by simpa using nodup_reverse.mpr list.nodup)
  rw [getLast?_reverse, head?_reverse] at spliced
  refine ⟨list.forward.splice fresh list.nodup, by simpa using spliced, ?_⟩
  exact nodup_middle.mpr (nodup_cons.mpr ⟨fresh, list.nodup⟩)

/-- Skipping an address in both chains. -/
theorem remove (list : DList next prev head tail (front ++ address :: back)) :
    DList (relink next front.getLast? (next address)) (relink prev back.head? (prev address))
      (restart head front.getLast? (next address)) (restart tail back.head? (prev address))
      (front ++ back) := by
  have backward : Path prev tail (back.reverse ++ address :: front.reverse) := by
    simpa using list.backward
  have skipped := backward.skip (by simpa using nodup_reverse.mpr list.nodup)
  rw [getLast?_reverse] at skipped
  refine ⟨list.forward.skip list.nodup, by simpa using skipped, ?_⟩
  exact (nodup_cons.mp (nodup_middle.mp list.nodup)).2

end DList

end LinkedList
