import FluxTrade.Common.ObjectPool

/-!
# Intrusive order queues

`IntrusiveOrderList` keeps the head and the tail of a doubly linked list whose
links live inside the orders. `Represents` relates such a list, in a store of
orders, to the slots it visits. Appending and removing a slot are the library's
insertion and removal, and touch no order outside the list. `QueueRep` adds what
the visited orders hold: key, open quantity and priority, all at one price.
-/

namespace FluxTrade

open LinkedList Function

/-- `IntrusiveOrderList`. -/
structure IntrusiveOrderList where
  /-- `head_`. -/
  head : Option Nat
  /-- `tail_`. -/
  tail : Option Nat
  deriving DecidableEq, Inhabited

namespace IntrusiveOrderList

/-- `IntrusiveOrderList::empty`. -/
def isEmpty (list : IntrusiveOrderList) : Bool := list.head.isNone

/-- `IntrusiveOrderList::append`. -/
def append (list : IntrusiveOrderList) (orders : Nat → LiveOrder) (order : Nat) :
    IntrusiveOrderList × (Nat → LiveOrder) :=
  let orders := modifyAt orders order fun node => { node with next := none, prev := list.tail }
  match list.tail with
  | some tail =>
    (⟨list.head, some order⟩, modifyAt orders tail fun node => { node with next := some order })
  | none => (⟨some order, some order⟩, orders)

/-- The first half of `IntrusiveOrderList::remove`: the predecessor's link, or the head. -/
def unlinkPrev (list : IntrusiveOrderList) (orders : Nat → LiveOrder) (order : Nat) :
    IntrusiveOrderList × (Nat → LiveOrder) :=
  match (orders order).prev with
  | some prev =>
    (list, modifyAt orders prev fun node => { node with next := (orders order).next })
  | none => (⟨(orders order).next, list.tail⟩, orders)

/-- The second half of `IntrusiveOrderList::remove`: the successor's link, or the tail. -/
def unlinkNext (list : IntrusiveOrderList) (orders : Nat → LiveOrder) (order : Nat) :
    IntrusiveOrderList × (Nat → LiveOrder) :=
  match (orders order).next with
  | some next =>
    (list, modifyAt orders next fun node => { node with prev := (orders order).prev })
  | none => (⟨list.head, (orders order).prev⟩, orders)

/-- `IntrusiveOrderList::remove`. -/
def remove (list : IntrusiveOrderList) (orders : Nat → LiveOrder) (order : Nat) :
    IntrusiveOrderList × (Nat → LiveOrder) :=
  let first := list.unlinkPrev orders order
  let second := first.1.unlinkNext first.2 order
  (second.1, modifyAt second.2 order fun node => { node with next := none, prev := none })

end IntrusiveOrderList

/-- A resting order without its links. -/
structure OrderView where
  /-- Pool slot of the order. -/
  slot : Nat
  key : OrderKey
  price : Price
  remainingQty : Quantity
  prioritySeq : UInt64
  deriving DecidableEq, Inhabited

/-- The contents of an order that its links do not show. -/
def LiveOrder.view (node : LiveOrder) (slot : Nat) : OrderView :=
  ⟨slot, node.key, node.price, node.remainingQty, node.prioritySeq⟩

/-- A view names its slot. -/
@[simp]
theorem LiveOrder.view_slot (node : LiveOrder) (slot : Nat) : (node.view slot).slot = slot := rfl

/-- Slots of a queue, from head to tail. -/
abbrev queueSlots (queue : List OrderView) : List Nat := queue.map OrderView.slot

/-- The list represents the queue: its links visit the queue's slots, and every visited order
holds the queue's entry and the queue's price. -/
structure QueueRep (orders : Nat → LiveOrder) (list : IntrusiveOrderList) (price : Price)
    (queue : List OrderView) : Prop where
  /-- Links in both directions. -/
  links : DList (fun slot => (orders slot).next) (fun slot => (orders slot).prev) list.head
    list.tail (queueSlots queue)
  /-- Contents of every entry. -/
  contents : ∀ entry ∈ queue, (orders entry.slot).view entry.slot = entry
  /-- One price. -/
  priced : ∀ entry ∈ queue, (orders entry.slot).price = price

namespace QueueRep

open IntrusiveOrderList

variable {orders : Nat → LiveOrder} {list : IntrusiveOrderList} {price : Price}
  {queue front back : List OrderView} {entry : OrderView} {order : Nat}

/-- A queue depends only on its own orders. -/
theorem congr {orders' : Nat → LiveOrder} (rep : QueueRep orders list price queue)
    (same : ∀ slot ∈ queueSlots queue, orders' slot = orders slot) :
    QueueRep orders' list price queue where
  links := rep.links.congr (fun slot member => by simp only [same slot member])
    (fun slot member => by simp only [same slot member])
  contents := fun entry member => by
    rw [same _ (List.mem_map_of_mem member)]
    exact rep.contents entry member
  priced := fun entry member => by
    rw [same _ (List.mem_map_of_mem member)]
    exact rep.priced entry member

/-- The empty queue. -/
theorem nil (orders : Nat → LiveOrder) (price : Price) : QueueRep orders ⟨none, none⟩ price [] :=
  ⟨DList.nil _ _, by simp, by simp⟩

/-- A queue is empty exactly when its list is. -/
theorem isEmpty_iff (rep : QueueRep orders list price queue) :
    list.isEmpty = true ↔ queue = [] := by
  have head := rep.links.head_eq
  cases queue <;> simp_all [isEmpty]

end QueueRep

namespace IntrusiveOrderList

variable (list : IntrusiveOrderList) (orders : Nat → LiveOrder) (order : Nat)
variable {γ : Type} {slot : Nat}

/-- A reading of an order that ignores both links. -/
def LinkBlind {γ : Type} (read : LiveOrder → γ) : Prop :=
  ∀ node next prev, read { node with next := next, prev := prev } = read node

/-- Appending keeps every reading that ignores the links. -/
theorem append_read {read : LiveOrder → γ} (blind : LinkBlind read) (slot : Nat) :
    read ((list.append orders order).2 slot) = read (orders slot) := by
  have next (node : LiveOrder) (target : Option Nat) :
      read { node with next := target } = read node := blind node target node.prev
  unfold append
  split
  · rw [read_modifyAt_of_eq read _ _ _ (next _ _), read_modifyAt_of_eq read _ _ _ (blind _ _ _)]
  · rw [read_modifyAt_of_eq read _ _ _ (blind _ _ _)]

/-- The forward links. -/
theorem append_next :
    (fun slot => ((list.append orders order).2 slot).next) =
      relink (update (fun slot => (orders slot).next) order none) list.tail
        (some order) := by
  unfold append
  cases list.tail with
  | none => simp only [relink, read_modifyAt LiveOrder.next]
  | some tail => simp only [relink, read_modifyAt LiveOrder.next]

/-- The backward links. -/
theorem append_prev :
    (fun slot => ((list.append orders order).2 slot).prev) =
      update (fun slot => (orders slot).prev) order list.tail := by
  unfold append
  cases list.tail with
  | none => simp only [read_modifyAt LiveOrder.prev]
  | some tail =>
    funext slot
    rw [← read_modifyAt LiveOrder.prev orders order
      fun node => { node with next := none, prev := some tail }]
    exact read_modifyAt_of_eq LiveOrder.prev _ _ _ rfl slot

/-- Appending makes the order the last one, and the first one of an empty list. -/
theorem append_list : (list.append orders order).1 =
    ⟨restart list.head list.tail (some order), some order⟩ := by
  unfold append
  cases list.tail <;> rfl

/-- Appending writes only to the appended order and to the old tail. -/
theorem append_frame (apart : slot ≠ order) (notTail : list.tail ≠ some slot) :
    (list.append orders order).2 slot = orders slot := by
  unfold append
  cases found : list.tail with
  | none => simp [apart]
  | some tail =>
    have notTail' : slot ≠ tail := fun same => notTail (by rw [found, same])
    simp [apart, notTail']

/-- The predecessor skips the order. -/
theorem unlinkPrev_next :
    (fun slot => ((list.unlinkPrev orders order).2 slot).next) =
      relink (fun slot => (orders slot).next) (orders order).prev (orders order).next := by
  unfold unlinkPrev
  cases (orders order).prev with
  | none => rfl
  | some prev => simp only [relink, read_modifyAt LiveOrder.next]

/-- So does the successor. -/
theorem unlinkNext_prev :
    (fun slot => ((list.unlinkNext orders order).2 slot).prev) =
      relink (fun slot => (orders slot).prev) (orders order).next (orders order).prev := by
  unfold unlinkNext
  cases (orders order).next with
  | none => rfl
  | some next => simp only [relink, read_modifyAt LiveOrder.prev]

/-- The head after the first step. -/
theorem unlinkPrev_list :
    (list.unlinkPrev orders order).1 =
      ⟨restart list.head (orders order).prev (orders order).next, list.tail⟩ := by
  unfold unlinkPrev
  cases (orders order).prev <;> rfl

/-- The tail after the second. -/
theorem unlinkNext_list :
    (list.unlinkNext orders order).1 =
      ⟨list.head, restart list.tail (orders order).next (orders order).prev⟩ := by
  unfold unlinkNext
  cases (orders order).next <;> rfl

/-- The first half keeps every reading that ignores the forward link. -/
theorem unlinkPrev_read {read : LiveOrder → γ}
    (blind : ∀ node next, read { node with next := next } = read node) (slot : Nat) :
    read ((list.unlinkPrev orders order).2 slot) = read (orders slot) := by
  unfold unlinkPrev
  split
  · dsimp only
    rw [read_modifyAt_of_eq read _ _ _ (by exact blind _ _)]
  · rfl

/-- The second half keeps every reading that ignores the backward link. -/
theorem unlinkNext_read {read : LiveOrder → γ}
    (blind : ∀ node prev, read { node with prev := prev } = read node) (slot : Nat) :
    read ((list.unlinkNext orders order).2 slot) = read (orders slot) := by
  unfold unlinkNext
  split
  · dsimp only
    rw [read_modifyAt_of_eq read _ _ _ (by exact blind _ _)]
  · rfl

/-- Only the predecessor is written. -/
theorem unlinkPrev_frame (apart : (orders order).prev ≠ some slot) :
    (list.unlinkPrev orders order).2 slot = orders slot := by
  unfold unlinkPrev
  cases found : (orders order).prev with
  | none => rfl
  | some prev =>
    have distinct : slot ≠ prev := fun same => apart (by rw [found, same])
    simp [distinct]

/-- Only the successor is written. -/
theorem unlinkNext_frame (apart : (orders order).next ≠ some slot) :
    (list.unlinkNext orders order).2 slot = orders slot := by
  unfold unlinkNext
  cases found : (orders order).next with
  | none => rfl
  | some next =>
    have distinct : slot ≠ next := fun same => apart (by rw [found, same])
    simp [distinct]

/-- Removing keeps every reading that ignores the links. -/
theorem remove_read {read : LiveOrder → γ} (blind : LinkBlind read) (slot : Nat) :
    read ((list.remove orders order).2 slot) = read (orders slot) := by
  unfold remove
  rw [read_modifyAt_of_eq read _ _ _ (blind _ _ _),
    unlinkNext_read _ _ _ (fun node prev => blind node node.next prev),
    unlinkPrev_read _ _ _ (fun node next => blind node next node.prev)]

/-- The forward links. -/
theorem remove_next :
    (fun slot => ((list.remove orders order).2 slot).next) =
      update (relink (fun slot => (orders slot).next) (orders order).prev
        (orders order).next) order none := by
  rw [← unlinkPrev_next list orders order]
  simp only [remove]
  rw [read_modifyAt LiveOrder.next]
  congr 1
  funext slot
  exact unlinkNext_read _ _ _ (fun _ _ => rfl) slot

section Removal

-- An order that is its own predecessor would lose its forward link between the two halves.
variable {list orders order} (linked : (orders order).prev ≠ some order)
include linked

/-- The backward links. -/
theorem remove_prev :
    (fun slot => ((list.remove orders order).2 slot).prev) =
      update (relink (fun slot => (orders slot).prev) (orders order).next
        (orders order).prev) order none := by
  simp only [remove]
  rw [read_modifyAt LiveOrder.prev, unlinkNext_prev, unlinkPrev_frame _ _ _ linked]
  congr 2
  funext slot
  exact unlinkPrev_read _ _ _ (fun _ _ => rfl) slot

/-- Head and tail. -/
theorem remove_list :
    (list.remove orders order).1 =
      ⟨restart list.head (orders order).prev (orders order).next,
        restart list.tail (orders order).next (orders order).prev⟩ := by
  unfold remove
  rw [unlinkNext_list, unlinkPrev_list, unlinkPrev_frame _ _ _ linked]

/-- Removing writes only to the removed order and to its two neighbours. -/
theorem remove_frame {slot : Nat} (apart : slot ≠ order) (notPrev : (orders order).prev ≠ some slot)
    (notNext : (orders order).next ≠ some slot) :
    (list.remove orders order).2 slot = orders slot := by
  simp only [remove]
  rw [modifyAt_of_ne _ _ apart, unlinkNext_frame, unlinkPrev_frame _ _ _ notPrev]
  rw [unlinkPrev_frame _ _ _ linked]
  exact notNext

end Removal

/-- The links of the list visit the slots, forward from the head and backward from the tail. -/
def Represents (list : IntrusiveOrderList) (orders : Nat → LiveOrder) (slots : List Nat) : Prop :=
  DList (fun slot => (orders slot).next) (fun slot => (orders slot).prev) list.head list.tail slots

namespace Represents

variable {list : IntrusiveOrderList} {orders : Nat → LiveOrder} {order : Nat}
  {slots front back : List Nat}

/-- Appending a slot that is not in the list puts it at the end. -/
theorem append (rep : list.Represents orders slots) (fresh : order ∉ slots) :
    (list.append orders order).1.Represents (list.append orders order).2 (slots ++ [order]) := by
  have links : DList (fun slot => (orders slot).next) (fun slot => (orders slot).prev) list.head
      list.tail (slots ++ []) := by
    rw [List.append_nil]
    exact rep
  have spliced := links.insert (by rw [List.append_nil]; exact fresh)
  unfold Represents
  rw [append_next, append_prev, append_list, rep.tail_eq]
  simpa [relink, restart] using spliced

/-- A listed slot is not its own predecessor. -/
theorem prev_ne (rep : list.Represents orders (front ++ order :: back)) :
    (orders order).prev ≠ some order := by
  have outside := List.nodup_cons.mp (List.nodup_middle.mp rep.nodup)
  have prev : (orders order).prev = front.getLast? := rep.prev_eq
  rw [prev]
  intro same
  exact outside.1 (List.mem_append_left _ (List.mem_of_getLast? same))

/-- Removing a listed slot leaves the slots before and after it. -/
theorem remove (rep : list.Represents orders (front ++ order :: back)) :
    (list.remove orders order).1.Represents (list.remove orders order).2 (front ++ back) := by
  have outside := List.nodup_cons.mp (List.nodup_middle.mp rep.nodup)
  have skipped := DList.remove rep
  unfold Represents
  rw [remove_next, remove_prev rep.prev_ne, remove_list rep.prev_ne]
  have prev : (orders order).prev = front.getLast? := rep.prev_eq
  have next : (orders order).next = back.head? := rep.next_eq
  rw [prev, next] at skipped ⊢
  refine skipped.congr ?_ ?_
  · intro slot member
    have apart : slot ≠ order := fun same => outside.1 (same ▸ member)
    rw [update_of_ne apart]
  · intro slot member
    have apart : slot ≠ order := fun same => outside.1 (same ▸ member)
    rw [update_of_ne apart]

/-- Appending leaves every order outside the list alone. -/
theorem append_outside (rep : list.Represents orders slots) {slot : Nat} (apart : slot ≠ order)
    (outside : slot ∉ slots) : (list.append orders order).2 slot = orders slot := by
  apply append_frame list orders order apart
  rw [rep.tail_eq]
  exact fun same => outside (List.mem_of_getLast? same)

/-- Removing leaves every order outside the list alone. -/
theorem remove_outside (rep : list.Represents orders (front ++ order :: back)) {slot : Nat}
    (outside : slot ∉ front ++ order :: back) :
    (list.remove orders order).2 slot = orders slot := by
  have prev : (orders order).prev = front.getLast? := rep.prev_eq
  have next : (orders order).next = back.head? := rep.next_eq
  apply remove_frame rep.prev_ne
  · exact fun same => outside (by simp [same])
  · rw [prev]
    exact fun same => outside (List.mem_append_left _ (List.mem_of_getLast? same))
  · rw [next]
    intro same
    exact outside (List.mem_append_right _ (List.mem_cons_of_mem _ (List.mem_of_head? same)))

end Represents

end IntrusiveOrderList

namespace QueueRep

open IntrusiveOrderList

variable {orders : Nat → LiveOrder} {list : IntrusiveOrderList} {price : Price}
  {queue front back : List OrderView} {entry : OrderView} {order : Nat}

/-- A view reads no link. -/
private theorem view_blind (slot : Nat) : LinkBlind fun node => node.view slot :=
  fun _ _ _ => rfl

/-- Nor does a price. -/
private theorem price_blind : LinkBlind LiveOrder.price := fun _ _ _ => rfl

/-- Appending a slot outside the queue represents the queue followed by that order. -/
theorem append (rep : QueueRep orders list price queue) (fresh : order ∉ queueSlots queue)
    (priced : (orders order).price = price) :
    QueueRep (list.append orders order).2 (list.append orders order).1 price
      (queue ++ [(orders order).view order]) := by
  have links : list.Represents orders (queueSlots queue) := rep.links
  constructor
  · rw [show queueSlots (queue ++ [(orders order).view order]) = _ from List.map_append]
    exact links.append fresh
  · intro entry member
    rw [append_read list orders order (view_blind entry.slot) entry.slot]
    rcases List.mem_append.mp member with old | new
    · exact rep.contents entry old
    · obtain rfl := List.mem_singleton.mp new
      rfl
  · intro entry member
    rw [append_read list orders order price_blind entry.slot]
    rcases List.mem_append.mp member with old | new
    · exact rep.priced entry old
    · obtain rfl := List.mem_singleton.mp new
      exact priced

section

variable (rep : QueueRep orders list price (front ++ entry :: back))
include rep

/-- The links of a queue, split at an entry. -/
theorem represents :
    list.Represents orders (queueSlots front ++ entry.slot :: queueSlots back) := by
  have links := rep.links
  rw [queueSlots, List.map_append, List.map_cons] at links
  exact links

/-- The neighbours of a queued order are the adjacent entries. -/
theorem neighbours :
    (orders entry.slot).prev = (queueSlots front).getLast? ∧
      (orders entry.slot).next = (queueSlots back).head? :=
  ⟨rep.represents.prev_eq, rep.represents.next_eq⟩

/-- Removing a queued slot represents the queue without its entry. -/
theorem remove :
    QueueRep (list.remove orders entry.slot).2 (list.remove orders entry.slot).1 price
      (front ++ back) := by
  constructor
  · rw [show queueSlots (front ++ back) = _ from List.map_append]
    exact rep.represents.remove
  · intro other member
    rw [remove_read list orders entry.slot (view_blind other.slot) other.slot]
    exact rep.contents other (List.perm_middle.mem_iff.mpr (List.mem_cons_of_mem _ member))
  · intro other member
    rw [remove_read list orders entry.slot price_blind other.slot]
    exact rep.priced other (List.perm_middle.mem_iff.mpr (List.mem_cons_of_mem _ member))

/-- Rewriting the contents of a queued order in place. -/
theorem rewrite {change : LiveOrder → LiveOrder} {entry' : OrderView}
    (sameSlot : entry'.slot = entry.slot)
    (sameNext : (change (orders entry.slot)).next = (orders entry.slot).next)
    (samePrev : (change (orders entry.slot)).prev = (orders entry.slot).prev)
    (samePrice : (change (orders entry.slot)).price = (orders entry.slot).price)
    (contents : (change (orders entry.slot)).view entry.slot = entry') :
    QueueRep (modifyAt orders entry.slot change) list price (front ++ entry' :: back) := by
  have slots : queueSlots (front ++ entry' :: back) = queueSlots (front ++ entry :: back) := by
    simp [sameSlot]
  have nodup := rep.links.nodup
  rw [queueSlots, List.map_append, List.map_cons] at nodup
  have outside := (List.nodup_cons.mp (List.nodup_middle.mp nodup)).1
  have apart (other : OrderView) (member : other ∈ front ++ back) : other.slot ≠ entry.slot := by
    intro same
    apply outside
    rw [← List.map_append, ← same]
    exact List.mem_map_of_mem member
  constructor
  · rw [slots]
    apply rep.links.congr
    · exact fun slot _ => read_modifyAt_of_eq LiveOrder.next _ _ _ sameNext slot
    · exact fun slot _ => read_modifyAt_of_eq LiveOrder.prev _ _ _ samePrev slot
  · intro other member
    rcases List.mem_cons.mp (List.perm_middle.mem_iff.mp member) with rfl | member
    · rw [sameSlot, modifyAt_same, contents]
    · rw [modifyAt_of_ne _ _ (apart other member)]
      exact rep.contents other (List.perm_middle.mem_iff.mpr (List.mem_cons_of_mem _ member))
  · intro other member
    rw [read_modifyAt_of_eq LiveOrder.price _ _ _ samePrice]
    rcases List.mem_cons.mp (List.perm_middle.mem_iff.mp member) with rfl | member
    · rw [sameSlot]
      exact rep.priced entry (by simp)
    · exact rep.priced other (List.perm_middle.mem_iff.mpr (List.mem_cons_of_mem _ member))

/-- Moving a queued slot to the tail. -/
theorem requeue :
    QueueRep
      ((list.remove orders entry.slot).1.append (list.remove orders entry.slot).2 entry.slot).2
      ((list.remove orders entry.slot).1.append (list.remove orders entry.slot).2 entry.slot).1
      price (front ++ back ++ [entry]) := by
  have contents := rep.contents entry (by simp)
  have priced := rep.priced entry (by simp)
  have nodup := rep.links.nodup
  rw [queueSlots, List.map_append, List.map_cons] at nodup
  have outside : entry.slot ∉ queueSlots (front ++ back) := by
    rw [show queueSlots (front ++ back) = _ from List.map_append]
    exact (List.nodup_cons.mp (List.nodup_middle.mp nodup)).1
  have appended := rep.remove.append outside (by rw [remove_read _ _ _ price_blind, priced])
  rw [remove_read _ _ _ (view_blind entry.slot), contents] at appended
  exact appended

end

/-- Appending leaves every order outside the queue alone. -/
theorem append_outside (rep : QueueRep orders list price queue) {slot : Nat} (apart : slot ≠ order)
    (outside : slot ∉ queueSlots queue) : (list.append orders order).2 slot = orders slot :=
  Represents.append_outside rep.links apart outside

/-- Removing leaves every order outside the queue alone. -/
theorem remove_outside (rep : QueueRep orders list price (front ++ entry :: back)) {slot : Nat}
    (outside : slot ∉ queueSlots (front ++ entry :: back)) :
    (list.remove orders entry.slot).2 slot = orders slot := by
  rw [queueSlots, List.map_append, List.map_cons] at outside
  exact rep.represents.remove_outside outside

end QueueRep

/-! ## Sequences of calls -/

/-- The calls that change a list. -/
inductive ListCall where
  | append (order : Nat)
  | remove (order : Nat)
  deriving DecidableEq

namespace ListCall

/-- The order that a call is given. -/
def order : ListCall → Nat
  | append order => order
  | remove order => order

/-- A call on a list and the store of its orders. -/
def apply (state : IntrusiveOrderList × (Nat → LiveOrder)) : ListCall →
    IntrusiveOrderList × (Nat → LiveOrder)
  | append order => state.1.append state.2 order
  | remove order => state.1.remove state.2 order

/-- What a call is for: an order goes to the end, or leaves. -/
def revise (slots : List Nat) : ListCall → List Nat
  | append order => slots ++ [order]
  | remove order => slots.erase order

/-- An appended order is not in the list, a removed one is. -/
def Legal (slots : List Nat) : ListCall → Prop
  | append order => order ∉ slots
  | remove order => order ∈ slots

instance (slots : List Nat) (call : ListCall) : Decidable (call.Legal slots) := by
  cases call <;> dsimp only [Legal] <;> infer_instance

/-- Every call is legal when it is made. -/
def AllLegal : List Nat → List ListCall → Prop
  | _, [] => True
  | slots, call :: rest => call.Legal slots ∧ AllLegal (call.revise slots) rest

instance AllLegal.decidable :
    (slots : List Nat) → (calls : List ListCall) → Decidable (AllLegal slots calls)
  | _, [] => .isTrue trivial
  | slots, call :: rest =>
    have : Decidable (AllLegal (call.revise slots) rest) :=
      AllLegal.decidable (call.revise slots) rest
    inferInstanceAs (Decidable (_ ∧ _))

end ListCall

namespace IntrusiveOrderList.Represents

variable {list : IntrusiveOrderList} {orders : Nat → LiveOrder} {slots : List Nat}

/-- Removing a listed slot leaves the others, and touches no order outside the list. -/
theorem erase (rep : list.Represents orders slots) {order : Nat} (listed : order ∈ slots) :
    (list.remove orders order).1.Represents (list.remove orders order).2 (slots.erase order) ∧
      ∀ slot ∉ slots, (list.remove orders order).2 slot = orders slot := by
  obtain ⟨front, back, rfl⟩ := List.append_of_mem listed
  have outside := List.nodup_cons.mp (List.nodup_middle.mp rep.nodup)
  have early : order ∉ front := fun member => outside.1 (List.mem_append_left _ member)
  have rest : (front ++ order :: back).erase order = front ++ back := by
    rw [List.erase_append_right _ early, List.erase_cons_head]
  rw [rest]
  exact ⟨rep.remove, fun slot away => rep.remove_outside away⟩

/-- A legal call does what it is for, and touches no order but its own and those in the list. -/
theorem call (rep : list.Represents orders slots) {call : ListCall} (legal : call.Legal slots) :
    (call.apply (list, orders)).1.Represents (call.apply (list, orders)).2 (call.revise slots) ∧
      ∀ slot ∉ slots, slot ≠ call.order → (call.apply (list, orders)).2 slot = orders slot := by
  cases call with
  | append order =>
    exact ⟨rep.append legal, fun slot away apart => rep.append_outside apart away⟩
  | remove order =>
    obtain ⟨removed, kept⟩ := rep.erase legal
    exact ⟨removed, fun slot away _ => kept slot away⟩

/-- A slot that is in a list after a call was in it before or is the call's own. -/
theorem mem_revise {call : ListCall} {slot : Nat} (member : slot ∈ call.revise slots) :
    slot ∈ slots ∨ slot = call.order := by
  cases call with
  | append order =>
    rcases List.mem_append.mp member with old | new
    · exact Or.inl old
    · exact Or.inr (List.mem_singleton.mp new)
  | remove order => exact Or.inl (List.mem_of_mem_erase member)

/-- Legal calls one after the other. -/
theorem calls (rep : list.Represents orders slots) {calls : List ListCall}
    (legal : ListCall.AllLegal slots calls) :
    (calls.foldl ListCall.apply (list, orders)).1.Represents
        (calls.foldl ListCall.apply (list, orders)).2 (calls.foldl ListCall.revise slots) ∧
      ∀ slot ∉ slots, (∀ call ∈ calls, slot ≠ call.order) →
        (calls.foldl ListCall.apply (list, orders)).2 slot = orders slot := by
  induction calls generalizing list orders slots with
  | nil => exact ⟨rep, fun _ _ _ => rfl⟩
  | cons call rest ih =>
    obtain ⟨here, later⟩ := legal
    obtain ⟨next, kept⟩ := rep.call here
    obtain ⟨final, keptLater⟩ := ih next later
    refine ⟨final, fun slot away apart => ?_⟩
    have notHere := apart call List.mem_cons_self
    have stillAway : slot ∉ call.revise slots := by
      intro member
      rcases mem_revise member with old | new
      · exact away old
      · exact notHere new
    exact (keptLater slot stillAway fun other member =>
      apart other (List.mem_cons_of_mem _ member)).trans (kept slot away notHere)

/-- On a list that represents a sequence of slots, `append` and `remove` represent the sequence with
one slot more or less and leave all other orders alone. After any sequence of such calls the
forward links from the head visit exactly the slots that are left, and end. -/
theorem operations_represented (rep : list.Represents orders slots) :
    (∀ order ∉ slots,
      (list.append orders order).1.Represents (list.append orders order).2 (slots ++ [order]) ∧
        ∀ slot ∉ slots, slot ≠ order → (list.append orders order).2 slot = orders slot) ∧
    (∀ order ∈ slots,
      (list.remove orders order).1.Represents (list.remove orders order).2 (slots.erase order) ∧
        ∀ slot ∉ slots, (list.remove orders order).2 slot = orders slot) ∧
    ∀ calls, ListCall.AllLegal slots calls →
      let final := calls.foldl ListCall.apply (list, orders)
      let left := calls.foldl ListCall.revise slots
      final.1.Represents final.2 left ∧
      (∀ slot ∉ slots, (∀ call ∈ calls, slot ≠ call.order) → final.2 slot = orders slot) ∧
      Path (fun slot => (final.2 slot).next) final.1.head left ∧
      ∀ fuel, left.length ≤ fuel →
        walk (fun slot => (final.2 slot).next) fuel final.1.head = left := by
  refine ⟨fun order fresh => ?_, fun order listed => rep.erase listed, fun calls legal => ?_⟩
  · exact ⟨rep.append fresh, fun slot away apart => rep.append_outside apart away⟩
  · obtain ⟨final, kept⟩ := rep.calls legal
    exact ⟨final, kept, final.forward, fun fuel enough => final.forward.walk_eq enough⟩

/-- Three orders are appended to an empty list, then the middle one and the head leave. -/
theorem operations_represented_three :
    let final := [ListCall.append 4, .append 7, .append 2, .remove 7, .remove 4].foldl
      ListCall.apply (⟨none, none⟩, fun _ => default)
    walk (fun slot => (final.2 slot).next) 10 final.1.head = [2] :=
  ((@operations_represented ⟨none, none⟩ (fun _ => default) [] (DList.nil _ _)).2.2
    [.append 4, .append 7, .append 2, .remove 7, .remove 4] (by decide)).2.2.2 10 (by decide)

end IntrusiveOrderList.Represents

end FluxTrade
