import Mathlib.Data.List.Nodup
import Mathlib.Data.List.Perm.Subperm
import Mathlib.Data.Set.Finite.List
import Mathlib.Logic.Relation
import Mathlib.Order.WellFoundedSet
import FluxTrade.Library.Trace

/-!
# Ordering a finite graph by its dependencies

Kahn's algorithm keeps for every node the number of its dependencies that are not
in the order yet, and a queue of the nodes that have none left. It ends with a
list in which every node comes after its dependencies; the list has all nodes
exactly when the graph has no cycle. Dependencies may be listed repeatedly.
-/

namespace Kahn

open Relation List

section Orders

variable {α : Type*} {deps : α → List α} {nodes order : List α}

/-- Every node comes after its dependencies. -/
def DependenciesFirst (deps : α → List α) (order : List α) : Prop :=
  ∀ front node back, order = front ++ node :: back → ∀ dep ∈ deps node, dep ∈ front

/-- No node depends on itself, directly or through others. -/
def Acyclic (deps : α → List α) : Prop :=
  ∀ node, ¬TransGen (fun dep node => dep ∈ deps node) node node

/-- One more ready node. -/
theorem DependenciesFirst.append {node : α} (first : DependenciesFirst deps order)
    (ready : ∀ dep ∈ deps node, dep ∈ order) : DependenciesFirst deps (order ++ [node]) :=
  @Trace.Justified.snoc _ (fun front node => ∀ dep ∈ deps node, dep ∈ front) _ _ first ready

/-- Along dependencies, places in the order fall. -/
theorem DependenciesFirst.index_lt (first : DependenciesFirst deps order) [DecidableEq α]
    {node dep : α} (member : node ∈ order) (needs : dep ∈ deps node) :
    dep ∈ order ∧ order.idxOf dep < order.idxOf node := by
  obtain ⟨front, back, split, fresh⟩ := eq_append_cons_of_mem member
  have earlier := first front node back split dep needs
  have place : order.idxOf node = front.length := by
    rw [split, idxOf_append_of_notMem fresh, idxOf_cons_self, Nat.add_zero]
  refine ⟨by rw [split]; exact mem_append_left _ earlier, ?_⟩
  rw [place, split, idxOf_append_of_mem earlier]
  exact idxOf_lt_length_of_mem earlier

/-- A graph whose nodes can be put in order has no cycle. -/
theorem DependenciesFirst.acyclic (first : DependenciesFirst deps order)
    (all : ∀ node dep, dep ∈ deps node → node ∈ order) : Acyclic deps := by
  classical
  have falls : ∀ node dep, TransGen (fun dep node => dep ∈ deps node) dep node →
      order.idxOf dep < order.idxOf node := by
    intro node dep path
    induction path with
    | single needs => exact (first.index_lt (all _ _ needs) needs).2
    | tail _ needs ih => exact Nat.lt_trans ih (first.index_lt (all _ _ needs) needs).2
  intro node cycle
  exact Nat.lt_irrefl _ (falls node node cycle)

/-- Without cycles some node outside a part of the graph has all its dependencies inside. -/
theorem Acyclic.exists_ready (acyclic : Acyclic deps)
    (closed : ∀ node ∈ nodes, ∀ dep ∈ deps node, dep ∈ nodes) {node : α} (member : node ∈ nodes)
    (outside : node ∉ order) :
    ∃ ready ∈ nodes, ready ∉ order ∧ ∀ dep ∈ deps ready, dep ∈ order := by
  let waiting : Set α := { node | node ∈ nodes ∧ node ∉ order }
  have finite : waiting.Finite := (finite_toSet nodes).subset fun _ inside => inside.1
  have strict : IsStrictOrder α (TransGen fun dep node => dep ∈ deps node) :=
    { irrefl := acyclic, trans := fun _ _ _ => TransGen.trans }
  have least := finite.wellFoundedOn (r := TransGen fun dep node => dep ∈ deps node)
  obtain ⟨⟨ready, here, fresh⟩, _, none⟩ :=
    least.has_min Set.univ ⟨⟨node, member, outside⟩, trivial⟩
  refine ⟨ready, here, fresh, fun dep needs => ?_⟩
  by_contra missing
  exact none ⟨dep, closed ready here dep needs, missing⟩ trivial (TransGen.single needs)

end Orders

/-! ## The algorithm -/

variable {α : Type*} [DecidableEq α]

/-- The variables of the algorithm. -/
structure State (α : Type*) where
  inDegree : α → Nat
  queue : List α
  order : List α

/-- One dependency of `neighbor` is in the order now; after the last one it is queued. -/
def State.release (state : State α) (neighbor : α) : State α :=
  let degree := state.inDegree neighbor - 1
  { state with
    inDegree := Function.update state.inDegree neighbor degree
    queue := if degree = 0 then state.queue ++ [neighbor] else state.queue }

/-- The first node of the queue goes to the order. -/
def State.take (state : State α) (adj : α → List α) (curr : α) (rest : List α) : State α :=
  (adj curr).foldl State.release { state with queue := rest, order := state.order ++ [curr] }

/-- The loop, until the queue is empty. -/
def run (adj : α → List α) : Nat → State α → Option (State α)
  | 0, state =>
    match state.queue with
    | [] => some state
    | _ :: _ => none
  | fuel + 1, state =>
    match state.queue with
    | [] => some state
    | curr :: rest => run adj fuel (state.take adj curr rest)

/-- Each neighbour loses one dependency for each time it is listed, and is queued when none is left.
-/
theorem foldl_release {neighbors : List α} {state : State α}
    (enough : ∀ node, neighbors.count node ≤ state.inDegree node) :
    ∃ freed, (neighbors.foldl State.release state).queue = state.queue ++ freed ∧
      (∀ node, (neighbors.foldl State.release state).inDegree node =
        state.inDegree node - neighbors.count node) ∧
      freed.Nodup ∧
      ∀ node, node ∈ freed ↔ node ∈ neighbors ∧ state.inDegree node = neighbors.count node := by
  induction neighbors generalizing state with
  | nil => exact ⟨[], by simp⟩
  | cons first rest ih =>
    have degree : ∀ node, (state.release first).inDegree node =
        if node = first then state.inDegree first - 1 else state.inDegree node := by
      intro node
      change Function.update state.inDegree first _ node = _
      rw [Function.update_apply]
    have counts : ∀ node, (first :: rest).count node =
        if node = first then rest.count first + 1 else rest.count node := by
      intro node
      rw [count_cons]
      by_cases same : node = first
      · simp [same]
      · simp [same, Ne.symm same]
    have fewer : ∀ node, rest.count node ≤ (state.release first).inDegree node := by
      intro node
      have here := enough node
      rw [counts] at here
      rw [degree]
      by_cases same : node = first
      · simp only [same, if_true] at here ⊢
        omega
      · simp only [same, if_false] at here ⊢
        exact here
    obtain ⟨freed, queue, degrees, distinct, members⟩ := ih fewer
    have enoughFirst := enough first
    rw [counts, if_pos rfl] at enoughFirst
    refine ⟨(if state.inDegree first - 1 = 0 then [first] else []) ++ freed, ?_, ?_, ?_, ?_⟩
    · rw [foldl_cons, queue]
      by_cases last : state.inDegree first - 1 = 0 <;> simp [State.release, last]
    · intro node
      rw [foldl_cons, degrees, degree, counts]
      by_cases same : node = first
      · simp only [same, if_true]
        omega
      · simp only [same, if_false]
    · by_cases last : state.inDegree first - 1 = 0
      · have gone : first ∉ rest := by
          intro again
          have positive := count_pos_iff.mpr again
          omega
        simp only [last, if_true, singleton_append, nodup_cons]
        exact ⟨fun again => gone ((members first).mp again).1, distinct⟩
      · simp only [last, if_false, nil_append]
        exact distinct
    · intro node
      rw [mem_append, members, degree, counts, mem_cons]
      by_cases same : node = first
      · subst same
        simp only [if_true]
        by_cases last : state.inDegree node - 1 = 0
        · have none : rest.count node = 0 := by omega
          simp only [last, if_true, mem_singleton, true_or, true_and, true_iff]
          omega
        · have again : node ∈ rest ↔ 0 < rest.count node := count_pos_iff.symm
          simp only [last, if_false, not_mem_nil, false_or, true_or, true_and, again]
          omega
      · by_cases last : state.inDegree first - 1 = 0 <;> simp [same, last]

/-- Taking a node orders it. -/
theorem State.take_order (state : State α) (adj : α → List α) (curr : α) (rest : List α) :
    (state.take adj curr rest).order = state.order ++ [curr] := by
  have kept : ∀ (neighbors : List α) (state : State α),
      (neighbors.foldl State.release state).order = state.order := by
    intro neighbors
    induction neighbors with
    | nil => exact fun _ => rfl
    | cons first rest ih => exact fun state => ih (state.release first)
  exact kept _ _

/-! ## What every iteration preserves -/

variable {nodes : List α} {deps adj : α → List α} {state final : State α}

/-- `adj` lists the nodes that depend on each node, as often as they do. -/
structure Reverses (nodes : List α) (deps adj : α → List α) : Prop where
  count_eq : ∀ node dep, (adj dep).count node = (deps node).count dep
  owner : ∀ node, ∀ dep ∈ deps node, node ∈ nodes
  closed : ∀ node, ∀ dep ∈ deps node, dep ∈ nodes

/-- The degrees count the dependencies that are not in the order, and the nodes without any are
in the order or in the queue. -/
structure Invariant (nodes : List α) (deps : α → List α) (state : State α) : Prop where
  distinct : (state.order ++ state.queue).Nodup
  inside : ∀ node ∈ state.order ++ state.queue, node ∈ nodes
  degree : ∀ node, state.inDegree node = (deps node).countP fun dep => decide (dep ∉ state.order)
  queued : ∀ node ∈ nodes, node ∈ state.order ++ state.queue ↔ state.inDegree node = 0
  first : DependenciesFirst deps state.order

namespace Invariant

/-- The start: nothing is in the order, and the nodes without dependencies are queued. -/
theorem start {inDegree : α → Nat} {queue : List α}
    (degree : ∀ node, inDegree node = (deps node).length) (distinct : queue.Nodup)
    (members : ∀ node, node ∈ queue ↔ node ∈ nodes ∧ inDegree node = 0) :
    Invariant nodes deps ⟨inDegree, queue, []⟩ where
  distinct := distinct
  inside node queued := ((members node).mp queued).1
  degree node := by
    change inDegree node = _
    rw [degree]
    simp
  queued node inside := by
    change node ∈ queue ↔ _
    rw [members]
    exact ⟨fun both => both.2, fun none => ⟨inside, none⟩⟩
  first front node back split := by
    have lengths := congrArg length split
    simp at lengths

variable (invariant : Invariant nodes deps state)
include invariant

/-- A node without dependencies outside the order has them all in it. -/
theorem ready_iff {node : α} :
    state.inDegree node = 0 ↔ ∀ dep ∈ deps node, dep ∈ state.order := by
  rw [invariant.degree, countP_eq_zero]
  simp

/-- With one more node in the order, each of its occurrences among the dependencies counts no
longer. -/
theorem countP_append {curr : α} (fresh : curr ∉ state.order) (node : α) :
    (deps node).countP (fun dep => decide (dep ∉ state.order ++ [curr])) =
      state.inDegree node - (deps node).count curr ∧
    (deps node).count curr ≤ state.inDegree node := by
  have split : ∀ list : List α, list.countP (fun dep => decide (dep ∉ state.order)) =
      list.countP (fun dep => decide (dep ∉ state.order ++ [curr])) + list.count curr := by
    intro list
    induction list with
    | nil => rfl
    | cons first rest ih =>
      rw [countP_cons, countP_cons, count_cons, ih]
      by_cases same : first = curr
      · simp only [same, fresh, not_false_eq_true, decide_true, if_true, mem_append,
          mem_singleton, or_true, not_true_eq_false, decide_false, Bool.false_eq_true,
          if_false, beq_self_eq_true]
        omega
      · simp only [same, mem_append, mem_singleton, or_false, beq_iff_eq, if_false]
        omega
  have here := split (deps node)
  rw [← invariant.degree] at here
  omega

/-- An iteration keeps the invariant. -/
theorem take (reverses : Reverses nodes deps adj) {curr : α} {rest : List α}
    (queue : state.queue = curr :: rest) :
    Invariant nodes deps (state.take adj curr rest) := by
  have distinct := invariant.distinct
  have inside := invariant.inside
  rw [queue] at distinct inside
  have fresh : curr ∉ state.order := by
    intro again
    exact (nodup_append.mp distinct).2.2 curr again curr mem_cons_self rfl
  have enough : ∀ node, (adj curr).count node ≤ state.inDegree node := by
    intro node
    rw [reverses.count_eq]
    exact (invariant.countP_append fresh node).2
  obtain ⟨freed, queue', degrees, freedDistinct, members⟩ :=
    @foldl_release α _ (adj curr) { state with queue := rest, order := state.order ++ [curr] }
      enough
  change (state.take adj curr rest).queue = rest ++ freed at queue'
  have order := state.take_order adj curr rest
  have joined : (state.take adj curr rest).order ++ (state.take adj curr rest).queue =
      (state.order ++ curr :: rest) ++ freed := by
    rw [order, queue']
    simp
  have degree : ∀ node, (state.take adj curr rest).inDegree node =
      state.inDegree node - (deps node).count curr := by
    intro node
    rw [← reverses.count_eq]
    exact degrees node
  -- A freed node had dependencies outside the order before, so it was not queued.
  have freed_iff : ∀ node, node ∈ freed ↔
      (deps node).count curr ≠ 0 ∧ state.inDegree node = (deps node).count curr := by
    intro node
    rw [members, ← reverses.count_eq, ← count_pos_iff]
    exact and_congr_left' Nat.pos_iff_ne_zero
  have owned : ∀ node ∈ freed, node ∈ nodes := by
    intro node member
    have some := ((freed_iff node).mp member).1
    exact reverses.owner node curr (count_pos_iff.mp (Nat.pos_of_ne_zero some))
  constructor
  · rw [joined]
    refine nodup_append.mpr ⟨distinct, freedDistinct, ?_⟩
    rintro node old _ new rfl
    have none := (invariant.queued node (owned node new)).mp (by rw [queue]; exact old)
    have some := (freed_iff node).mp new
    omega
  · intro node member
    rw [joined] at member
    rcases mem_append.mp member with old | new
    · exact inside node old
    · exact owned node new
  · intro node
    rw [degree, order]
    exact (invariant.countP_append fresh node).1.symm
  · intro node member
    have before := invariant.queued node member
    have bound := (invariant.countP_append fresh node).2
    rw [queue] at before
    rw [joined, mem_append, before, freed_iff, degree]
    omega
  · rw [order]
    apply invariant.first.append
    have none := (invariant.queued curr (inside curr (by simp))).mp (by rw [queue]; simp)
    exact invariant.ready_iff.mp none

/-- Nodes enter the order once, so as many iterations as there are nodes empty the queue. -/
theorem run (reverses : Reverses nodes deps adj) {fuel : Nat}
    (enough : nodes.length ≤ state.order.length + fuel) :
    ∃ final, Kahn.run adj fuel state = some final ∧ Invariant nodes deps final ∧
      final.queue = [] := by
  induction fuel generalizing state with
  | zero =>
    have short := (invariant.distinct.subperm invariant.inside).length_le
    rw [length_append] at short
    have none : state.queue = [] := length_eq_zero_iff.mp (by omega)
    exact ⟨state, by simp only [Kahn.run, none], invariant, none⟩
  | succ fuel ih =>
    cases queue : state.queue with
    | nil => exact ⟨state, by simp only [Kahn.run, queue], invariant, queue⟩
    | cons curr rest =>
      obtain ⟨final, ran, kept, none⟩ := ih (invariant.take reverses queue) (by
        rw [State.take_order, length_append, length_singleton]
        omega)
      exact ⟨final, by simp only [Kahn.run, queue, ran], kept, none⟩

/-- When the queue is empty, the order is a part of the nodes. -/
theorem subperm (empty : state.queue = []) :
    Subperm state.order nodes := by
  have inside := invariant.inside
  have distinct := invariant.distinct
  rw [empty, append_nil] at inside distinct
  exact distinct.subperm inside

/-- A full order lists every node once. -/
theorem perm (empty : state.queue = []) (all : state.order.length = nodes.length) :
    state.order.Perm nodes :=
  (invariant.subperm empty).perm_of_length_le (Nat.le_of_eq all.symm)

/-- When the queue is empty, the order holds every node exactly when there is no cycle. -/
theorem length_eq_iff (reverses : Reverses nodes deps adj) (empty : state.queue = [])
    (distinct : nodes.Nodup) :
    state.order.length = nodes.length ↔ Acyclic deps := by
  constructor
  · intro all
    apply invariant.first.acyclic
    intro node dep needs
    exact (invariant.perm empty all).mem_iff.mpr (reverses.owner node dep needs)
  · intro acyclic
    have covered : ∀ node ∈ nodes, node ∈ state.order := by
      intro node member
      by_contra outside
      obtain ⟨ready, here, fresh, needs⟩ :=
        acyclic.exists_ready (fun node _ => reverses.closed node) member outside
      have queued := (invariant.queued ready here).mpr (invariant.ready_iff.mpr needs)
      rw [empty, append_nil] at queued
      exact fresh queued
    exact Nat.le_antisymm (invariant.subperm empty).length_le (distinct.subperm covered).length_le

end Invariant

end Kahn
