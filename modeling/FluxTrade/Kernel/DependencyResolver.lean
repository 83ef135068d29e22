import FluxTrade.Domain
import FluxTrade.Library.Kahn

/-!
# Dependency resolution

`DependencyResolver::resolve` as the source computes it. The two hash maps that it
iterates over, the modules and the in-degrees, may be visited in any order; both
orders are inputs. The queue loop is Kahn's algorithm, so `resolve` returns a list
exactly when every dependency is registered and the graph has no cycle.
-/

namespace FluxTrade

open Function

/-- `ModuleId`: an enumeration over `uint16_t`, which may hold any code. -/
abbrev ModuleId := UInt16

/-- `IModule`, as far as the resolver asks. -/
structure Module where
  dependencies : List ModuleId

/-- The registered modules in the order in which the hash map is visited; a pointer may be null. -/
structure ModuleMap where
  entries : List (ModuleId × Option Module)
  distinct : (entries.map Prod.fst).Nodup

/-- The keys. -/
def ModuleMap.ids (modules : ModuleMap) : List ModuleId := modules.entries.map Prod.fst

namespace DependencyResolver

/-- The two maps that `resolve` builds. -/
structure Graph where
  adj : ModuleId → List ModuleId
  inDegree : ModuleId → Nat

/-- The body of the inner loop: `dep` is a dependency of the module `id`. -/
def Graph.addDependency (graph : Graph) (ids : List ModuleId) (id dep : ModuleId) :
    Except String Graph :=
  if dep = id then
    .error ("Self-dependency detected for module ID " ++ toString id.toNat)
  else if dep ∉ ids then
    .error ("Missing dependency: module ID " ++ toString id.toNat ++
      " depends on missing module ID " ++ toString dep.toNat)
  else
    .ok
      { adj := update graph.adj dep (graph.adj dep ++ [id])
        inDegree := update graph.inDegree id (graph.inDegree id + 1) }

/-- The dependencies of one module. -/
def Graph.addDependencies (ids : List ModuleId) (id : ModuleId) :
    List ModuleId → Graph → Except String Graph
  | [], graph => .ok graph
  | dep :: rest, graph => do
    let graph ← graph.addDependency ids id dep
    addDependencies ids id rest graph

/-- The outer loop. -/
def Graph.addModules (ids : List ModuleId) :
    List (ModuleId × Option Module) → Graph → Except String Graph
  | [], graph => .ok graph
  | (_, none) :: _, _ => .error "Registered module pointer is null"
  | (id, some module) :: rest, graph => do
    let graph ← addDependencies ids id module.dependencies graph
    addModules ids rest graph

/-- The maps before the loop: all in-degrees are zero. -/
def Graph.empty : Graph := ⟨fun _ => [], fun _ => 0⟩

/-- `resolve`; `degreeOrder` is the order in which `in_degree` is visited. A module is queued once,
which bounds the loop. -/
def resolve (modules : ModuleMap) (degreeOrder : List ModuleId) :
    Except Fault (Except String (List ModuleId)) :=
  match Graph.addModules modules.ids modules.entries .empty with
  | .error message => .ok (.error message)
  | .ok graph =>
    let queue := degreeOrder.filter fun id => graph.inDegree id = 0
    match Kahn.run graph.adj modules.entries.length ⟨graph.inDegree, queue, []⟩ with
    | none => .error .outOfFuel
    | some final =>
      if final.order.length ≠ modules.entries.length then
        .ok (.error "Cyclic dependency detected in module graph")
      else .ok (.ok final.order)

end DependencyResolver

/-! ## The dependency graph -/

/-- The dependencies that some entries list for an identifier. -/
def dependenciesOf (entries : List (ModuleId × Option Module)) (id : ModuleId) : List ModuleId :=
  entries.flatMap fun entry =>
    if entry.1 = id then (entry.2.map Module.dependencies).getD [] else []

namespace ModuleMap

variable (modules : ModuleMap)

/-- The dependencies that a module lists. -/
def dependencies : ModuleId → List ModuleId := dependenciesOf modules.entries

/-- Every dependency is registered. -/
def Registered : Prop := ∀ id, ∀ dep ∈ modules.dependencies id, dep ∈ modules.ids

/-- The dependency graph has no cycle, self-dependencies included. -/
def Acyclic : Prop := Kahn.Acyclic modules.dependencies

/-- Only modules have dependencies. -/
theorem owner (id dep : ModuleId) (needs : dep ∈ modules.dependencies id) : id ∈ modules.ids := by
  obtain ⟨entry, member, listed⟩ := List.mem_flatMap.mp needs
  by_cases same : entry.1 = id
  · exact same ▸ List.mem_map_of_mem member
  · simp [same] at listed

end ModuleMap

namespace DependencyResolver

variable {ids : List ModuleId} {graph next : Graph} {id : ModuleId}

/-- What the loops have built of some dependency lists. -/
structure Graph.Holds (graph : Graph) (deps : ModuleId → List ModuleId) : Prop where
  adj : ∀ node dep, (graph.adj dep).count node = (deps node).count dep
  inDegree : ∀ node, graph.inDegree node = (deps node).length

/-- A registered dependency on another module is added. -/
theorem Graph.Holds.addDependency {deps : ModuleId → List ModuleId} {dep : ModuleId}
    (holds : graph.Holds deps) (other : dep ≠ id) (registered : dep ∈ ids) :
    ∃ next, graph.addDependency ids id dep = .ok next ∧
      next.Holds (update deps id (deps id ++ [dep])) := by
  refine ⟨{ adj := update graph.adj dep (graph.adj dep ++ [id])
            inDegree := update graph.inDegree id (graph.inDegree id + 1) }, ?_, ?_, ?_⟩
  · simp [Graph.addDependency, other, registered]
  · intro node target
    have before := holds.adj node target
    change (update graph.adj dep _ target).count node = _
    rw [update_apply, update_apply]
    by_cases sameTarget : target = dep <;> by_cases sameNode : node = id
    · subst sameTarget sameNode
      simp [before]
    · subst sameTarget
      simp [sameNode, Ne.symm sameNode, before]
    · subst sameNode
      simp [sameTarget, Ne.symm sameTarget, before]
    · simp [sameTarget, sameNode, before]
  · intro node
    have before := holds.inDegree node
    change update graph.inDegree id _ node = _
    rw [update_apply, update_apply]
    by_cases sameNode : node = id
    · subst sameNode
      simp [before]
    · simp [sameNode, before]

/-- The dependencies of a module are added when they are all registered and none is the module
itself. -/
theorem Graph.Holds.addDependencies {deps : ModuleId → List ModuleId} {list : List ModuleId}
    (holds : graph.Holds deps) (legal : ∀ dep ∈ list, dep ≠ id ∧ dep ∈ ids) :
    ∃ next, Graph.addDependencies ids id list graph = .ok next ∧
      next.Holds (update deps id (deps id ++ list)) := by
  induction list generalizing graph deps with
  | nil =>
    refine ⟨graph, rfl, ?_⟩
    rw [List.append_nil, update_eq_self]
    exact holds
  | cons dep rest ih =>
    obtain ⟨other, registered⟩ := legal dep List.mem_cons_self
    obtain ⟨mid, added, midHolds⟩ := holds.addDependency other registered
    obtain ⟨next, ran, nextHolds⟩ :=
      ih midHolds fun later member => legal later (List.mem_cons_of_mem _ member)
    refine ⟨next, ?_, ?_⟩
    · simp only [Graph.addDependencies, added]
      exact ran
    · rw [update_self, update_idem, List.append_assoc] at nextHolds
      exact nextHolds

/-- Otherwise the first dependency that is not is reported. -/
theorem addDependencies_error {list : List ModuleId} {dep : ModuleId} (member : dep ∈ list)
    (illegal : dep = id ∨ dep ∉ ids) :
    ∃ message, Graph.addDependencies ids id list graph = .error message := by
  induction list generalizing graph with
  | nil => cases member
  | cons first rest ih =>
    by_cases legal : first ≠ id ∧ first ∈ ids
    · obtain ⟨other, registered⟩ := legal
      have later : dep ∈ rest := by
        rcases List.mem_cons.mp member with rfl | later
        · exact absurd illegal (by simp [other, registered])
        · exact later
      simp only [Graph.addDependencies, Graph.addDependency, other, registered, if_false,
        not_true_eq_false]
      exact ih later
    · simp only [Graph.addDependencies, Graph.addDependency]
      by_cases self : first = id
      · rw [if_pos self]
        exact ⟨_, rfl⟩
      · have missing : first ∉ ids := fun registered => legal ⟨self, registered⟩
        rw [if_neg self, if_pos missing]
        exact ⟨_, rfl⟩

/-- Dependencies of one more entry. -/
theorem dependenciesOf_append (entries : List (ModuleId × Option Module)) (id : ModuleId)
    (module : Module) :
    dependenciesOf (entries ++ [(id, some module)]) =
      update (dependenciesOf entries) id
        (dependenciesOf entries id ++ module.dependencies) := by
  funext node
  rw [update_apply]
  by_cases same : node = id
  · subst same
    simp [dependenciesOf]
  · simp [dependenciesOf, same, Ne.symm same]

/-- The outer loop adds the dependencies of all modules. -/
theorem Graph.Holds.addModules {entries done : List (ModuleId × Option Module)}
    (holds : graph.Holds (dependenciesOf done))
    (present : ∀ entry ∈ entries, entry.2.isSome)
    (legal : ∀ id, ∀ dep ∈ dependenciesOf entries id, dep ≠ id ∧ dep ∈ ids) :
    ∃ next, Graph.addModules ids entries graph = .ok next ∧
      next.Holds (dependenciesOf (done ++ entries)) := by
  induction entries generalizing graph done with
  | nil => exact ⟨graph, rfl, by rw [List.append_nil]; exact holds⟩
  | cons entry rest ih =>
    obtain ⟨id, pointer⟩ := entry
    obtain ⟨module, rfl⟩ := Option.isSome_iff_exists.mp (present _ List.mem_cons_self)
    have own : ∀ dep ∈ module.dependencies, dep ≠ id ∧ dep ∈ ids := by
      intro dep member
      exact legal id dep (List.mem_flatMap.mpr ⟨_, List.mem_cons_self, by simpa using member⟩)
    obtain ⟨mid, added, midHolds⟩ := holds.addDependencies own
    rw [← dependenciesOf_append] at midHolds
    obtain ⟨next, ran, nextHolds⟩ :=
      ih midHolds (fun later member => present later (List.mem_cons_of_mem _ member))
        fun node dep member => legal node dep (List.mem_append_right _ member)
    refine ⟨next, ?_, ?_⟩
    · simp only [Graph.addModules, added]
      exact ran
    · rw [List.append_assoc] at nextHolds
      exact nextHolds

/-- A dependency on the module itself or on one that is not registered ends the loop. -/
theorem addModules_error {entries : List (ModuleId × Option Module)} {dep : ModuleId}
    (member : dep ∈ dependenciesOf entries id) (illegal : dep = id ∨ dep ∉ ids) :
    ∃ message, Graph.addModules ids entries graph = .error message := by
  induction entries generalizing graph with
  | nil => cases member
  | cons entry rest ih =>
    obtain ⟨key, pointer⟩ := entry
    cases pointer with
    | none => exact ⟨_, rfl⟩
    | some module =>
      simp only [Graph.addModules]
      cases added : Graph.addDependencies ids key module.dependencies graph with
      | error message => exact ⟨message, rfl⟩
      | ok mid =>
        rcases List.mem_append.mp member with here | later
        · have same : key = id := by
            by_contra other
            simp [other] at here
          subst same
          simp only [if_true, Option.map_some, Option.getD_some] at here
          obtain ⟨message, failed⟩ := @addDependencies_error ids graph key _ _ here illegal
          rw [failed] at added
          cases added
        · exact ih later

/-! ## Resolution -/

variable {modules : ModuleMap} {degreeOrder : List ModuleId}

section

variable (present : ∀ entry ∈ modules.entries, entry.2.isSome)
  (visits : degreeOrder.Perm modules.ids)
include present visits

/-- Without a dependency that is refused, the loop leaves Kahn's invariant with an empty queue. -/
theorem exists_final (legal : ∀ id, ∀ dep ∈ modules.dependencies id, dep ≠ id ∧ dep ∈ modules.ids) :
    ∃ final adj, Kahn.Reverses modules.ids modules.dependencies adj ∧
      Kahn.Invariant modules.ids modules.dependencies final ∧ final.queue = [] ∧
      resolve modules degreeOrder =
        if final.order.length ≠ modules.entries.length then
          .ok (.error "Cyclic dependency detected in module graph")
        else .ok (.ok final.order) := by
  have start : Graph.empty.Holds (dependenciesOf []) := ⟨fun _ _ => rfl, fun _ => rfl⟩
  obtain ⟨graph, built, holds⟩ := start.addModules present legal
  change graph.Holds modules.dependencies at holds
  have reverses : Kahn.Reverses modules.ids modules.dependencies graph.adj :=
    ⟨holds.adj, modules.owner, fun id dep needs => (legal id dep needs).2⟩
  have initial : Kahn.Invariant modules.ids modules.dependencies
      ⟨graph.inDegree, degreeOrder.filter fun id => graph.inDegree id = 0, []⟩ := by
    apply Kahn.Invariant.start holds.inDegree
    · exact (visits.nodup_iff.mpr modules.distinct).filter _
    · intro node
      rw [List.mem_filter, visits.mem_iff]
      simp
  have enough : modules.ids.length ≤ 0 + modules.entries.length := by
    rw [ModuleMap.ids, List.length_map, Nat.zero_add]
  obtain ⟨final, ran, invariant, empty⟩ := initial.run reverses enough
  refine ⟨final, graph.adj, reverses, invariant, empty, ?_⟩
  simp only [resolve, built, ran]

/-- `resolve` returns the order of a graph that has one, and an error otherwise. -/
theorem resolve_cases :
    (∃ order, resolve modules degreeOrder = .ok (.ok order) ∧ order.Perm modules.ids ∧
      Kahn.DependenciesFirst modules.dependencies order ∧ modules.Registered ∧
      modules.Acyclic) ∨
    ∃ message, resolve modules degreeOrder = .ok (.error message) ∧
      ¬(modules.Registered ∧ modules.Acyclic) := by
  by_cases legal : ∀ id, ∀ dep ∈ modules.dependencies id, dep ≠ id ∧ dep ∈ modules.ids
  · obtain ⟨final, adj, reverses, invariant, empty, resolved⟩ :=
      exists_final present visits legal
    have complete := invariant.length_eq_iff reverses empty modules.distinct
    have count : modules.ids.length = modules.entries.length := List.length_map _
    by_cases all : final.order.length = modules.entries.length
    · left
      rw [if_neg (not_not.mpr all)] at resolved
      rw [← count] at all
      exact ⟨final.order, resolved, invariant.perm empty all, invariant.first,
        fun id dep needs => (legal id dep needs).2, complete.mp all⟩
    · right
      rw [if_pos all] at resolved
      rw [← count] at all
      exact ⟨_, resolved, fun both => all (complete.mpr both.2)⟩
  · right
    push Not at legal
    obtain ⟨id, dep, needs, illegal⟩ := legal
    have refused : dep = id ∨ dep ∉ modules.ids := by
      by_cases self : dep = id
      · exact .inl self
      · exact .inr (illegal self)
    obtain ⟨message, failed⟩ := @addModules_error modules.ids .empty id _ dep needs refused
    refine ⟨message, by simp only [resolve, failed], ?_⟩
    rintro ⟨registered, acyclic⟩
    rcases refused with rfl | missing
    · exact acyclic dep (Relation.TransGen.single needs)
    · exact missing (registered id dep needs)

end

/-- For every order in which the two maps are visited, a list is returned exactly when every
dependency is registered and the graph has no cycle; it has every module once, after all its
dependencies. Otherwise an error is returned. -/
theorem resolve_iff (present : ∀ entry ∈ modules.entries, entry.2.isSome)
    (visits : degreeOrder.Perm modules.ids) :
    ((∃ order, resolve modules degreeOrder = .ok (.ok order)) ↔
      modules.Registered ∧ modules.Acyclic) ∧
    (∀ order, resolve modules degreeOrder = .ok (.ok order) →
      order.Perm modules.ids ∧ Kahn.DependenciesFirst modules.dependencies order) ∧
    (¬(modules.Registered ∧ modules.Acyclic) →
      ∃ message, resolve modules degreeOrder = .ok (.error message)) := by
  rcases resolve_cases present visits with
    ⟨order, resolved, perm, first, registered, acyclic⟩ | ⟨message, resolved, impossible⟩
  · refine ⟨⟨fun _ => ⟨registered, acyclic⟩, fun _ => ⟨order, resolved⟩⟩, ?_, ?_⟩
    · intro returned same
      rw [resolved] at same
      cases same
      exact ⟨perm, first⟩
    · exact fun impossible => absurd ⟨registered, acyclic⟩ impossible
  · refine ⟨⟨?_, fun both => absurd both impossible⟩, ?_, fun _ => ⟨message, resolved⟩⟩
    · rintro ⟨order, same⟩
      rw [resolved] at same
      cases same
    · intro order same
      rw [resolved] at same
      cases same

/-- Four modules, one of which lists a dependency twice. -/
def fourModules : ModuleMap :=
  ⟨[(11, some ⟨[10, 8, 10]⟩), (10, some ⟨[4]⟩), (8, some ⟨[]⟩), (4, some ⟨[]⟩)], by decide⟩

example : resolve fourModules [4, 8, 10, 11] = .ok (.ok [4, 8, 10, 11]) := by decide

/-- Four modules in order. -/
theorem resolve_iff_fourModules :
    fourModules.Registered ∧ fourModules.Acyclic ∧
      Kahn.DependenciesFirst fourModules.dependencies [8, 4, 10, 11] := by
  have spec := @resolve_iff fourModules [8, 4, 11, 10] (by decide) (by decide)
  have resolved : resolve fourModules [8, 4, 11, 10] = .ok (.ok [8, 4, 10, 11]) := by decide
  have both := spec.1.mp ⟨_, resolved⟩
  exact ⟨both.1, both.2, (spec.2.1 _ resolved).2⟩

end DependencyResolver

end FluxTrade
