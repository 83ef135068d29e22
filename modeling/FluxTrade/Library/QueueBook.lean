import Mathlib.Data.List.TakeWhile

/-!
# Queues by price

A side of a book as plain lists: levels in the order of their prices, each with a
queue of identifiers and quantities. No level is empty. An operation on one
identifier rewrites every queue by a function that leaves queues without the
identifier alone, and drops levels that became empty.
-/

namespace QueueBook

variable {π ι κ : Type*}

/-- Levels with their queues. -/
abbrev Levels (π ι κ : Type*) := List (π × List (ι × κ))

/-- Append an item to the queue of a price, in a new level at its place if there is none. -/
def append [DecidableEq π] (better : π → π → Prop) [∀ left right, Decidable (better left right)]
    (price : π) (item : ι × κ) (levels : Levels π ι κ) : Levels π ι κ :=
  if levels.any fun level => level.1 = price then
    levels.map fun level => if level.1 = price then (level.1, level.2 ++ [item]) else level
  else
    levels.takeWhile (fun level => better level.1 price) ++
      (price, [item]) :: levels.dropWhile fun level => better level.1 price

/-- Rewrite every queue and drop levels that became empty. -/
def rewrite (change : List (ι × κ) → List (ι × κ)) (levels : Levels π ι κ) : Levels π ι κ :=
  (levels.map fun level => (level.1, change level.2)).filter fun level => !level.2.isEmpty

/-- Some queue holds the identifier with the quantity. -/
def Holds (levels : Levels π ι κ) (id : ι) (qty : κ) : Prop :=
  ∃ level ∈ levels, (id, qty) ∈ level.2

section Queues

variable [DecidableEq ι]

/-- A queue without the identifier. -/
def without (id : ι) (queue : List (ι × κ)) : List (ι × κ) := queue.filter fun item => item.1 ≠ id

/-- A queue with the quantity of the identifier replaced in its place. -/
def withQty (id : ι) (qty : κ) (queue : List (ι × κ)) : List (ι × κ) :=
  queue.map fun item => if item.1 = id then (id, qty) else item

/-- A queue with the identifier at its tail, under a new quantity. -/
def requeued (id : ι) (qty : κ) (queue : List (ι × κ)) : List (ι × κ) :=
  if queue.any fun item => item.1 = id then without id queue ++ [(id, qty)] else queue

/-- A function that leaves queues without the identifier alone. -/
def Local (id : ι) (change : List (ι × κ) → List (ι × κ)) : Prop :=
  ∀ queue, (∀ item ∈ queue, item.1 ≠ id) → change queue = queue

variable {id : ι} {qty old : κ} {front back : List (ι × κ)}

/-- Removal acts on one item. -/
theorem without_local : Local id (without id : List (ι × κ) → _) := by
  intro queue absent
  exact List.filter_eq_self.mpr fun item member => decide_eq_true (absent item member)

/-- So does a new quantity. -/
theorem withQty_local : Local id (withQty id qty) := by
  intro queue absent
  refine (List.map_congr_left fun item member => ?_).trans (List.map_id queue)
  exact if_neg (absent item member)

/-- So does requeueing. -/
theorem requeued_local : Local id (requeued id qty) := by
  intro queue absent
  refine if_neg fun present => ?_
  obtain ⟨item, member, same⟩ := List.any_eq_true.mp present
  exact absent item member (of_decide_eq_true same)

section

variable (ahead : ∀ item ∈ front, item.1 ≠ id) (behind : ∀ item ∈ back, item.1 ≠ id)
include ahead behind

/-- The item is removed. -/
theorem without_middle :
    without id (front ++ (id, old) :: back) = front ++ back := by
  have first := without_local front ahead
  have last := without_local back behind
  unfold without at first last ⊢
  rw [List.filter_append, List.filter_cons_of_neg (by simp), first, last]

/-- The quantity is replaced. -/
theorem withQty_middle :
    withQty id qty (front ++ (id, old) :: back) = front ++ (id, qty) :: back := by
  have first := @withQty_local _ _ _ _ qty front ahead
  have last := @withQty_local _ _ _ _ qty back behind
  unfold withQty at first last ⊢
  rw [List.map_append, List.map_cons, first, last, if_pos rfl]

/-- The item goes last. -/
theorem requeued_middle :
    requeued id qty (front ++ (id, old) :: back) = front ++ back ++ [(id, qty)] := by
  unfold requeued
  rw [if_pos (by simp), without_middle ahead behind]

end

variable {change : List (ι × κ) → List (ι × κ)} {levels rest : Levels π ι κ} {price : π}

omit [DecidableEq ι]

/-- Levels without the identifier stay as they are. -/
theorem rewrite_absent (isLocal : Local id change) (proper : ∀ level ∈ levels, level.2 ≠ [])
    (absent : ∀ level ∈ levels, ∀ item ∈ level.2, item.1 ≠ id) :
    rewrite change levels = levels := by
  have same : (levels.map fun level => (level.1, change level.2)) = levels := by
    refine (List.map_congr_left fun level member => ?_).trans (List.map_id levels)
    rw [isLocal level.2 (absent level member)]
    rfl
  unfold rewrite
  rw [same, List.filter_eq_self]
  intro level member
  simpa using proper level member

/-- Only the level that holds the identifier is rewritten. -/
theorem rewrite_middle (isLocal : Local id change)
    (proper : ∀ level ∈ levels ++ rest, level.2 ≠ [])
    (absent : ∀ level ∈ levels ++ rest, ∀ item ∈ level.2, item.1 ≠ id) (queue : List (ι × κ)) :
    rewrite change (levels ++ (price, queue) :: rest) =
      levels ++ ((if change queue = [] then [] else [(price, change queue)]) ++ rest) := by
  have ahead : rewrite change levels = levels :=
    rewrite_absent isLocal (fun level member => proper level (List.mem_append_left _ member))
      fun level member => absent level (List.mem_append_left _ member)
  have behind : rewrite change rest = rest :=
    rewrite_absent isLocal (fun level member => proper level (List.mem_append_right _ member))
      fun level member => absent level (List.mem_append_right _ member)
  unfold rewrite at ahead behind ⊢
  rw [List.map_append, List.map_cons, List.filter_append, List.filter_cons, ahead, behind]
  by_cases empty : change queue = [] <;> simp [empty]

end Queues

end QueueBook
