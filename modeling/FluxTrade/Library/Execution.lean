import Mathlib.Data.List.Basic
import Mathlib.Data.Set.Function

/-!
# Runs of a step function

A step takes a state and an input to a next state or stops with a fault. `runAll`
feeds a list of inputs. `Along` says that every step of a run meets a guard, and
`runAll_induction` turns what one guarded step preserves into what holds after
every guarded run. Both are computable, so a concrete run can be evaluated.

Two machines that answer alike in related states, and then are in related states
again, answer alike for ever. When some inputs of a run are deleted, the state of
the shortened run is compared with that of the full one by a relation that may
look at the inputs still to come.
-/

namespace Execution

variable {σ ι ε : Type*}
variable {τ α β α' β' : Type*} {left : Except ε σ} {step : σ → ι → Except ε σ}

/-- Feed inputs one after the other, stopping at the first fault. -/
def runAll (step : σ → ι → Except ε σ) : σ → List ι → Except ε σ
  | state, [] => .ok state
  | state, input :: rest =>
    match step state input with
    | .ok next => runAll step next rest
    | .error fault => .error fault

/-- Every step that a run takes meets the guard in the state it is taken from. -/
def Along (guard : σ → ι → Prop) (step : σ → ι → Except ε σ) : σ → List ι → Prop
  | _, [] => True
  | state, input :: rest =>
    guard state input ∧
      match step state input with
      | .ok next => Along guard step next rest
      | .error _ => True

instance Along.decidable {guard : σ → ι → Prop} [∀ state input, Decidable (guard state input)]
    {step : σ → ι → Except ε σ} :
    (state : σ) → (inputs : List ι) → Decidable (Along guard step state inputs)
  | _, [] => .isTrue trivial
  | state, input :: rest =>
    match shape : step state input with
    | .ok next =>
      have : Decidable (Along guard step next rest) := Along.decidable next rest
      decidable_of_iff (guard state input ∧ Along guard step next rest) (by simp [Along, shape])
    | .error _ => decidable_of_iff (guard state input) (by simp [Along, shape])

/-- Every state that a run visits has the property, the first and the last one included. -/
def Throughout (property : σ → Prop) (step : σ → ι → Except ε σ) : σ → List ι → Prop
  | state, [] => property state
  | state, input :: rest =>
    property state ∧
      match step state input with
      | .ok next => Throughout property step next rest
      | .error _ => True

instance Throughout.decidable {property : σ → Prop} [∀ state, Decidable (property state)]
    {step : σ → ι → Except ε σ} :
    (state : σ) → (inputs : List ι) → Decidable (Throughout property step state inputs)
  | state, [] => inferInstanceAs (Decidable (property state))
  | state, input :: rest =>
    match shape : step state input with
    | .ok next =>
      have : Decidable (Throughout property step next rest) := Throughout.decidable next rest
      decidable_of_iff (property state ∧ Throughout property step next rest)
        (by simp [Throughout, shape])
    | .error _ => decidable_of_iff (property state) (by simp [Throughout, shape])

section

variable {guard : σ → ι → Prop} {step : σ → ι → Except ε σ}
variable {property motive : σ → Prop} {state middle : σ} {inputs back : List ι}
  {goal legal : σ → ι → Prop}

/-- The first state of a run is visited. -/
theorem Throughout.head (always : Throughout property step state inputs) : property state := by
  cases inputs with
  | nil => exact always
  | cons input rest => exact always.1

/-- What holds of every state holds throughout. -/
theorem Throughout.of_forall (holds : ∀ state, property state) (state : σ) (inputs : List ι) :
    Throughout property step state inputs := by
  induction inputs generalizing state with
  | nil => exact holds state
  | cons input rest ih =>
    refine ⟨holds state, ?_⟩
    cases step state input with
    | ok next => exact ih next
    | error fault => trivial

/-- The last state of a run is visited. -/
theorem Throughout.final {final : σ} (always : Throughout property step state inputs)
    (ran : runAll step state inputs = .ok final) :
    property final := by
  induction inputs generalizing state with
  | nil =>
    cases ran
    exact always
  | cons input rest ih =>
    obtain ⟨_, later⟩ := always
    rw [runAll] at ran
    cases taken : step state input with
    | ok next =>
      rw [taken] at ran later
      exact ih later ran
    | error fault =>
      rw [taken] at ran
      cases ran

/-- A run of one more input. -/
theorem runAll_append (state : σ) (front back : List ι) :
    runAll step state (front ++ back) =
      match runAll step state front with
      | .ok next => runAll step next back
      | .error fault => .error fault := by
  induction front generalizing state with
  | nil => rfl
  | cons input rest ih =>
    simp only [List.cons_append, runAll]
    cases step state input with
    | ok next => exact ih next
    | error fault => rfl

/-- A run whose steps do not fail is a fold. -/
theorem runAll_ok (next : σ → ι → σ) (state : σ) (inputs : List ι) :
    runAll (fun state input => (.ok (next state input) : Except ε σ)) state inputs =
      .ok (inputs.foldl next state) := by
  induction inputs generalizing state with
  | nil => rfl
  | cons input rest ih => exact ih (next state input)

/-- A run is a fold in the monad of faults. -/
theorem runAll_eq_foldlM (state : σ) (inputs : List ι) :
    runAll step state inputs = inputs.foldlM step state := by
  induction inputs generalizing state with
  | nil => rfl
  | cons input rest ih =>
    rw [List.foldlM_cons, runAll]
    cases step state input with
    | ok next => exact ih next
    | error fault => rfl

/-- The states visited after the first part of a run. -/
theorem Throughout.later {front : List ι} (always : Throughout property step state (front ++ back))
    (ran : runAll step state front = .ok middle) : Throughout property step middle back := by
  induction front generalizing state with
  | nil =>
    cases ran
    exact always
  | cons input rest ih =>
    obtain ⟨_, later⟩ := always
    rw [runAll] at ran
    cases taken : step state input with
    | ok next =>
      rw [taken] at ran later
      exact ih later ran
    | error fault =>
      rw [taken] at ran
      cases ran

/-- The states visited by the first part of a run. -/
theorem Throughout.front {front : List ι}
    (always : Throughout property step state (front ++ back)) :
    Throughout property step state front := by
  induction front generalizing state with
  | nil => exact always.head
  | cons input rest ih =>
    obtain ⟨here, later⟩ := always
    refine ⟨here, ?_⟩
    cases taken : step state input with
    | ok next =>
      rw [taken] at later
      exact ih later
    | error fault => trivial

/-- What holds at the start and is preserved by every guarded step holds after every guarded
run. -/
theorem runAll_induction {final : σ} (start : motive state)
    (preserved : ∀ state input next, motive state → guard state input →
      step state input = .ok next → motive next) (guarded : Along guard step state inputs)
    (ran : runAll step state inputs = .ok final) :
    motive final := by
  induction inputs generalizing state with
  | nil =>
    cases ran
    exact start
  | cons input rest ih =>
    obtain ⟨here, later⟩ := guarded
    rw [runAll] at ran
    cases taken : step state input with
    | ok next =>
      rw [taken] at ran later
      exact ih (preserved state input next start here taken) later ran
    | error fault =>
      rw [taken] at ran
      cases ran

section

variable (start : motive state) (preserved : ∀ state input next, motive state →
  guard state input → step state input = .ok next → motive next)
include start preserved

/-- What guarded steps preserve has its consequences in every state of a guarded run. -/
theorem Throughout.of_guarded (implies : ∀ state, motive state → property state)
    (guarded : Along guard step state inputs) : Throughout property step state inputs := by
  induction inputs generalizing state with
  | nil => exact implies state start
  | cons input rest ih =>
    obtain ⟨here, later⟩ := guarded
    refine ⟨implies state start, ?_⟩
    cases taken : step state input with
    | ok next =>
      rw [taken] at later
      exact ih (preserved state input next start here taken) later
    | error fault => trivial

/-- Steps from states with an invariant that guarded steps keep meet what it implies of them. -/
theorem Along.of_invariant
    (implies : ∀ state input, motive state → guard state input → goal state input)
    (guarded : Along guard step state inputs) : Along goal step state inputs := by
  induction inputs generalizing state with
  | nil => trivial
  | cons input rest ih =>
    obtain ⟨here, later⟩ := guarded
    refine ⟨implies state input start here, ?_⟩
    cases taken : step state input with
    | ok next =>
      rw [taken] at later
      exact ih (preserved state input next start here taken) later
    | error fault => trivial

end

/-- Two conditions on steps that agree wherever an invariant holds agree along a run. -/
theorem Along.iff_of_invariant {final : σ} (start : motive state)
    (kept : ∀ state input next, motive state → legal state input →
      step state input = .ok next → motive next)
    (same : ∀ state input next, motive state → legal state input →
      step state input = .ok next → (goal state input ↔ guard state input))
    (lawful : Along legal step state inputs) (ran : runAll step state inputs = .ok final) :
    Along goal step state inputs ↔ Along guard step state inputs := by
  induction inputs generalizing state with
  | nil => exact Iff.rfl
  | cons input rest ih =>
    obtain ⟨here, later⟩ := lawful
    cases taken : step state input with
    | error fault =>
      rw [runAll, taken] at ran
      cases ran
    | ok next =>
      rw [runAll, taken] at ran
      rw [taken] at later
      have head := same state input next start here taken
      have tail := ih (kept state input next start here taken) later ran
      simp only [Along, taken]
      exact and_congr head tail

/-- Where a guarded step keeps what implies the property, and a step to a state with the property
is guarded, the states of a run have the property exactly if its steps are guarded. -/
theorem Throughout.iff_along {final : σ} (start : motive state)
    (implies : ∀ state, motive state → property state)
    (kept : ∀ state input next, motive state → legal state input → guard state input →
      step state input = .ok next → motive next)
    (forced : ∀ state input next, motive state → legal state input →
      step state input = .ok next → property next → guard state input)
    (lawful : Along legal step state inputs) (ran : runAll step state inputs = .ok final) :
    Throughout property step state inputs ↔ Along guard step state inputs := by
  induction inputs generalizing state with
  | nil => exact ⟨fun _ => trivial, fun _ => implies state start⟩
  | cons input rest ih =>
    obtain ⟨here, later⟩ := lawful
    cases taken : step state input with
    | error fault =>
      rw [runAll, taken] at ran
      cases ran
    | ok next =>
      rw [runAll, taken] at ran
      rw [taken] at later
      simp only [Throughout, Along, taken]
      constructor
      · rintro ⟨_, always⟩
        have guarded := forced state input next start here taken always.head
        exact ⟨guarded, (ih (kept state input next start here guarded taken) later ran).mp always⟩
      · rintro ⟨guarded, along⟩
        exact ⟨implies state start,
          (ih (kept state input next start here guarded taken) later ran).mpr along⟩

/-- Two guards met along one run are met together. -/
theorem Along.and {other : σ → ι → Prop} (guarded : Along guard step state inputs)
    (also : Along other step state inputs) :
    Along (fun state input => guard state input ∧ other state input) step state inputs := by
  induction inputs generalizing state with
  | nil => trivial
  | cons input rest ih =>
    obtain ⟨here, later⟩ := guarded
    obtain ⟨here', later'⟩ := also
    refine ⟨⟨here, here'⟩, ?_⟩
    cases taken : step state input with
    | ok next =>
      rw [taken] at later later'
      exact ih later later'
    | error fault => trivial

/-- A guard met along a run and along its continuation. -/
theorem Along.append {front : List ι} (early : Along guard step state front)
    (ran : runAll step state front = .ok middle) (late : Along guard step middle back) :
    Along guard step state (front ++ back) := by
  induction front generalizing state with
  | nil =>
    cases ran
    exact late
  | cons input rest ih =>
    obtain ⟨here, later⟩ := early
    refine ⟨here, ?_⟩
    rw [runAll] at ran
    cases taken : step state input with
    | ok next =>
      rw [taken] at ran later
      exact ih later ran
    | error fault => trivial

/-- A guard that every step meets is met along every run. -/
theorem Along.of_forall (always : ∀ state input, guard state input) (state : σ)
    (inputs : List ι) : Along guard step state inputs := by
  induction inputs generalizing state with
  | nil => trivial
  | cons input rest ih =>
    refine ⟨always state input, ?_⟩
    cases step state input with
    | ok next => exact ih next
    | error fault => trivial

/-- What holds at the start and is preserved by every step holds after every run. -/
theorem runAll_invariant {motive : σ → Prop} {state final : σ} {inputs : List ι}
    (start : motive state)
    (preserved : ∀ state input next, motive state → step state input = .ok next →
      motive next)
    (ran : runAll step state inputs = .ok final) : motive final :=
  runAll_induction start (fun state input next kept _ => preserved state input next kept)
    (Along.of_forall (fun _ _ => trivial) state inputs) ran

/-- A guard on the inputs alone is met along every run of inputs that meet it. -/
theorem Along.of_mem {legal : ι → Prop} (state : σ) (each : ∀ input ∈ inputs, legal input) :
    Along (fun _ input => legal input) step state inputs := by
  induction inputs generalizing state with
  | nil => trivial
  | cons input rest ih =>
    refine ⟨each input List.mem_cons_self, ?_⟩
    cases step state input with
    | ok next => exact ih next fun later member => each later (List.mem_cons_of_mem _ member)
    | error fault => trivial

/-- A measure that no step lowers and that ends below a bound is below it after every step. -/
theorem Along.of_final {measure : σ → Nat} {bound : Nat} {final : σ}
    (grows : ∀ state input next, step state input = .ok next → measure state ≤ measure next)
    (ran : runAll step state inputs = .ok final) (few : measure final < bound) :
    Along (fun state input => ∀ next, step state input = .ok next → measure next < bound) step
      state inputs := by
  induction inputs generalizing state with
  | nil => trivial
  | cons input rest ih =>
    rw [runAll] at ran
    cases taken : step state input with
    | ok next =>
      rw [taken] at ran
      have later : measure next ≤ measure final := by
        refine runAll_invariant (motive := fun state => measure next ≤ measure state)
          (Nat.le_refl _) ?_ ran
        intro state input after kept moved
        exact Nat.le_trans kept (grows state input after moved)
      refine ⟨?_, ?_⟩
      · intro other same
        cases taken.symm.trans same
        omega
      · rw [taken]
        exact ih ran
    | error fault =>
      rw [taken] at ran
      cases ran

/-- If a step returns exactly when it is guarded, and faults in certain ways otherwise, so does a
run. -/
theorem runAll_decided {faults : ε → Prop} (inputs : List ι) (start : motive state)
    (kept : ∀ state input next, motive state → step state input = .ok next → motive next)
    (decided : ∀ state input, motive state →
      (∃ next, step state input = .ok next) ∧ guard state input ∨
        (∃ fault, step state input = .error fault ∧ faults fault) ∧ ¬guard state input) :
    (∃ final, runAll step state inputs = .ok final) ∧ Along guard step state inputs ∨
      (∃ fault, runAll step state inputs = .error fault ∧ faults fault) ∧
        ¬Along guard step state inputs := by
  induction inputs generalizing state with
  | nil => exact Or.inl ⟨⟨state, rfl⟩, trivial⟩
  | cons input rest ih =>
    rcases decided state input start with ⟨⟨next, taken⟩, here⟩ | ⟨⟨fault, failed, allowed⟩, missed⟩
    · simp only [runAll, Along, taken, here, true_and]
      exact ih (kept state input next start taken)
    · simp only [runAll, Along, failed, missed, false_and]
      exact Or.inr ⟨⟨fault, rfl, allowed⟩, not_false⟩

/-- A weaker guard is met along the same run. -/
theorem Along.mono {weaker : σ → ι → Prop}
    (implies : ∀ state input, guard state input → weaker state input)
    (guarded : Along guard step state inputs) : Along weaker step state inputs := by
  induction inputs generalizing state with
  | nil => trivial
  | cons input rest ih =>
    obtain ⟨here, later⟩ := guarded
    refine ⟨implies state input here, ?_⟩
    cases taken : step state input with
    | ok next =>
      rw [taken] at later
      exact ih later
    | error fault => trivial

end

/-! ## Two runs of the same inputs -/

/-- Two computations end in related states, or in the same fault. -/
inductive Agree {τ : Type*} (related : σ → τ → Prop) : Except ε σ → Except ε τ → Prop where
  | states {left : σ} {right : τ} (same : related left right) : Agree related (.ok left) (.ok right)
  | fault (fault : ε) : Agree related (.error fault) (.error fault)

/-- Results carried along. -/
theorem Agree.map {σ' τ' : Type*} {related : σ → τ → Prop} {related' : σ' → τ' → Prop}
    {right : Except ε τ} (agree : Agree related left right) {first : σ → σ'} {second : τ → τ'}
    (carried : ∀ left right, related left right → related' (first left) (second right)) :
    Agree related' (left.map first) (right.map second) := by
  cases agree with
  | states same => exact .states (carried _ _ same)
  | fault fault => exact .fault fault

/-- What looks the same in related states looks the same after computations that agree. -/
theorem Agree.map_eq {related : σ → τ → Prop} {right : Except ε τ}
    (agree : Agree related left right) {look : σ → α} {look' : τ → α}
    (same : ∀ left right, related left right → look left = look' right) :
    left.map look = right.map look' := by
  cases agree with
  | states related => exact congrArg Except.ok (same _ _ related)
  | fault fault => rfl

/-- Where steps from related states agree as long as the left run keeps a property, the runs
agree. -/
theorem runAll_agree {property : σ → Prop} {related : σ → τ → Prop} {step' : τ → ι → Except ε τ}
    (agree : ∀ left right input, related left right → property left →
      (∀ next, step left input = .ok next → property next) →
      Agree related (step left input) (step' right input)) {left : σ} {right : τ} {inputs : List ι}
    (start : related left right) (always : Throughout property step left inputs) :
    Agree related (runAll step left inputs) (runAll step' right inputs) := by
  induction inputs generalizing left right with
  | nil => exact .states start
  | cons input rest ih =>
    obtain ⟨here, later⟩ := always
    have kept (next : σ) (taken : step left input = .ok next) : property next := by
      rw [taken] at later
      exact later.head
    have stepped := agree left right input start here kept
    rw [runAll, runAll]
    generalize isLeft : step left input = leftResult at stepped
    generalize isRight : step' right input = rightResult at stepped
    cases stepped with
    | states same =>
      rw [isLeft] at later
      exact ih same later
    | fault fault => exact .fault fault

/-- A sequence that returns has a first part that returns. -/
theorem bind_eq_ok {first : Except ε α} {rest : α → Except ε β} {result : β}
    (returned : first.bind rest = .ok result) :
    ∃ value, first = .ok value ∧ rest value = .ok result := by
  cases first with
  | error fault => cases returned
  | ok value => exact ⟨value, rfl, returned⟩

/-- Where the second part commutes with the images of what the parts return, the sequence does. -/
theorem bind_image {image : α → α'} {image' : β → β'} {rest : α → Except ε β}
    {rest' : α' → Except ε β'} (commutes : ∀ value, rest' (image value) = (rest value).map image')
    (first : Except ε α) : (first.map image).bind rest' = (first.bind rest).map image' := by
  cases first with
  | error fault => rfl
  | ok value => exact commutes value

/-- Where the second part returns alike from a value and from its image, so does the sequence. -/
theorem bind_alike {image : α → α'} {image' : β → β'} {rest : α → Except ε β}
    {rest' : α' → Except ε β}
    (alike : ∀ value, (rest value).map image' = (rest' (image value)).map image')
    (first : Except ε α) :
    (first.bind rest).map image' = ((first.map image).bind rest').map image' := by
  cases first with
  | error fault => rfl
  | ok value => exact alike value

/-- What is made of results that look alike looks alike, where the new look depends on the old. -/
theorem map_alike {γ δ : Type*} {first first' : Except ε α} {look : α → β} {result result' : α → γ}
    {look' : γ → δ} (seen : β → δ) (same : first.map look = first'.map look)
    (left : ∀ value, look' (result value) = seen (look value))
    (right : ∀ value, look' (result' value) = seen (look value)) :
    (first.map result).map look' = (first'.map result').map look' := by
  have through {result : α → γ} (eq : ∀ value, look' (result value) = seen (look value))
      (first : Except ε α) : (first.map result).map look' = (first.map look).map seen := by
    cases first with
    | error fault => rfl
    | ok value => exact congrArg Except.ok (eq value)
  rw [through left, through right, same]

/-- Where the image of a step depends on images only, the image of a run does. -/
theorem runAll_map {ι' : Type*} {image : σ → σ} {forget : ι → ι'} {step' : σ → ι' → Except ε σ}
    (commutes : ∀ state input,
      (step state input).map image = (step' (image state) (forget input)).map image) (state : σ)
    (inputs : List ι) :
    (runAll step state inputs).map image =
      runAll (fun state input => (step' state input).map image) (image state)
        (inputs.map forget) := by
  induction inputs generalizing state with
  | nil => rfl
  | cons input rest ih =>
    simp only [List.map_cons, runAll, ← commutes]
    cases step state input with
    | ok next => exact ih next
    | error fault => rfl

/-- An evaluation that returns a value with a property. -/
def Returns {α : Type*} (property : α → Prop) : Except ε α → Prop
  | .ok value => property value
  | .error _ => False

instance {α : Type*} {property : α → Prop} [∀ value, Decidable (property value)] :
    (result : Except ε α) → Decidable (Returns property result)
  | .ok value => inferInstanceAs (Decidable (property value))
  | .error _ => .isFalse id

/-- The value returned. -/
theorem Returns.exists {property : α → Prop} {result : Except ε α}
    (returns : Returns property result) : ∃ value, result = .ok value ∧ property value := by
  cases result with
  | ok value => exact ⟨value, rfl, returns⟩
  | error fault => exact returns.elim

/-- A weaker property. -/
theorem Returns.mono {property weaker : α → Prop} {result : Except ε α}
    (returns : Returns property result) (implies : ∀ value, property value → weaker value) :
    Returns weaker result := by
  cases result with
  | ok value => exact implies value returns
  | error fault => exact returns.elim

/-! ## Reachability -/

section

variable {ε σ ι : Type*} {step : σ → ι → Except ε σ}

end

end Execution

/-! ## Machines with replies -/

namespace Machine

variable {σ τ ι ρ : Type*}

/-- Feed inputs one after the other: the replies and the last state. -/
def run (step : σ → ι → ρ × σ) : σ → List ι → List ρ × σ
  | state, [] => ([], state)
  | state, input :: rest =>
    let first := step state input
    let later := run step first.2 rest
    (first.1 :: later.1, later.2)

/-- The two machines answer every input alike in related states, and stay related. -/
def Simulates (related : σ → τ → Prop) (step : σ → ι → ρ × σ) (other : τ → ι → ρ × τ) : Prop :=
  ∀ state state' input, related state state' →
    (step state input).1 = (other state' input).1 ∧
      related (step state input).2 (other state' input).2

/-- Machines that answer alike step by step answer alike in whole runs. -/
theorem Simulates.run {related : σ → τ → Prop} {step : σ → ι → ρ × σ} {other : τ → ι → ρ × τ}
    (simulates : Simulates related step other) {state : σ} {state' : τ}
    (start : related state state') (inputs : List ι) :
    (run step state inputs).1 = (run other state' inputs).1 ∧
      related (run step state inputs).2 (run other state' inputs).2 := by
  induction inputs generalizing state state' with
  | nil => exact ⟨rfl, start⟩
  | cons input rest ih =>
    obtain ⟨here, next⟩ := simulates state state' input start
    obtain ⟨later, final⟩ := ih next
    refine ⟨?_, final⟩
    simp only [Machine.run, here, later]

end Machine

/-! ## Deleting inputs from a run -/

namespace Isolation

open Function

section

variable {σ ι : Type*} {step : σ → ι → σ} {kept : ι → Bool} {related : List ι → σ → σ → Prop}

/-- A relation that deleted inputs keep on one side, and kept inputs on both, holds at the end. -/
theorem foldl_filter
    (hidden : ∀ input rest left right, kept input = false → related (input :: rest) left right →
      related rest (step left input) right)
    (visible : ∀ input rest left right, kept input = true → related (input :: rest) left right →
      related rest (step left input) (step right input))
    {inputs : List ι} {left right : σ} (start : related inputs left right) :
    related [] (inputs.foldl step left) ((inputs.filter kept).foldl step right) := by
  induction inputs generalizing left right with
  | nil => exact start
  | cons input rest ih =>
    cases keep : kept input with
    | false =>
      rw [List.filter_cons_of_neg (by simp [keep])]
      exact ih (hidden input rest left right keep start)
    | true =>
      rw [List.filter_cons_of_pos keep]
      exact ih (visible input rest left right keep start)

end

section

variable {ι α : Type*} [DecidableEq ι] {region : Set ι} {table other : ι → α} {slot : ι}

/-- Writing one value into both tables. -/
theorem eqOn_update_update (same : Set.EqOn table other region) (slot : ι) (value : α) :
    Set.EqOn (update table slot value) (update other slot value) region := by
  intro index member
  by_cases written : index = slot
  · subst written
    rw [update_self, update_self]
  · rw [update_of_ne written, update_of_ne written]
    exact same member

/-- Rewriting one entry of the region alike. -/
theorem eqOn_change (same : Set.EqOn table other region) (inside : slot ∈ region)
    (change : α → α) : Set.EqOn (update table slot (change (table slot)))
      (update other slot (change (other slot))) region := by
  rw [same inside]
  exact eqOn_update_update same _ _

/-- Writing a slot outside of the region. -/
theorem eqOn_update_left (outside : slot ∉ region) (table : ι → α) (value : α) :
    Set.EqOn (update table slot value) table region := by
  intro index member
  have apart : index ≠ slot := fun same => outside (same ▸ member)
  exact update_of_ne apart value table

end

end Isolation
