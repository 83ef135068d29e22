import FluxTrade.Library.Trace
import FluxTrade.Risk.RiskEngine

/-!
# Duplicate orders

`DuplicateValidator` remembers one identifier for each of 4096 slots and forgets
it when another identifier of the slot arrives. Its answers are exact as long as
no identifier comes again after such a loss.
-/

namespace FluxTrade

open DirectMapped Trace

namespace DuplicateValidator

/-- `DuplicateValidator::reset`. -/
def reset (_validator : DuplicateValidator) : DuplicateValidator := ⟨fun _ => 0⟩

/-- The validator after some calls. -/
def after (validator : DuplicateValidator) (ids : List UInt64) : DuplicateValidator :=
  ids.foldl (fun validator id => (validator.checkDuplicate id).2) validator

/-- The identifiers that pass, in the order of the calls. -/
def passed (validator : DuplicateValidator) : List UInt64 → List UInt64
  | [] => []
  | id :: rest =>
    let (ok, validator) := validator.checkDuplicate id
    if ok then id :: validator.passed rest else validator.passed rest

/-- The slot of an identifier. -/
def slot (id : UInt64) : Nat := id.toNat % 4096

/-- The answer to a call after earlier ones is false exactly if one of those had the same
identifier. -/
def Exact (validator : DuplicateValidator) (earlier : List UInt64) (id : UInt64) : Prop :=
  ((validator.after earlier).checkDuplicate id).1 = false ↔ id ∈ earlier

/-- A validator holds the latest identifier of every slot, and zero where there is none. -/
def Holds (validator : DuplicateValidator) (ids : List UInt64) : Prop :=
  ∀ place, validator.seenIds place = (latest slot ids place).getD 0

variable {validator : DuplicateValidator} {ids : List UInt64} {id : UInt64}

/-- One check more. -/
theorem after_append (validator : DuplicateValidator) (ids : List UInt64) (id : UInt64) :
    validator.after (ids ++ [id]) = ((validator.after ids).checkDuplicate id).2 :=
  List.foldl_concat ..

/-- The first check. -/
theorem passed_cons (validator : DuplicateValidator) (id : UInt64) (rest : List UInt64) :
    validator.passed (id :: rest) =
      if (validator.checkDuplicate id).1 then id :: (validator.checkDuplicate id).2.passed rest
      else (validator.checkDuplicate id).2.passed rest := rfl

/-- The check of an identifier. -/
theorem checkDuplicate_of_ne_zero (isId : id ≠ 0) :
    validator.checkDuplicate id = if validator.seenIds (slot id) = id then (false, validator)
      else (true, ⟨Function.update validator.seenIds (slot id) id⟩) :=
  if_neg isId

/-- A call compares an identifier with what its slot holds. -/
theorem checkDuplicate_eq_false (isId : id ≠ 0) :
    (validator.checkDuplicate id).1 = false ↔ validator.seenIds (slot id) = id := by
  rw [checkDuplicate_of_ne_zero isId]
  by_cases same : validator.seenIds (slot id) = id <;> simp [same]

/-- After a call the slot holds the identifier of the call. -/
theorem seenIds_checkDuplicate (isId : id ≠ 0) :
    (validator.checkDuplicate id).2.seenIds = Function.update validator.seenIds (slot id) id := by
  rw [checkDuplicate_of_ne_zero isId]
  by_cases same : validator.seenIds (slot id) = id
  · rw [if_pos same]
    exact (Function.update_eq_self_iff.mpr same.symm).symm
  · rw [if_neg same]

/-- A check remembers its identifier. -/
theorem Holds.checkDuplicate (holds : validator.Holds ids) (isId : id ≠ 0) :
    (validator.checkDuplicate id).2.Holds (ids ++ [id]) := by
  intro place
  rw [seenIds_checkDuplicate isId, latest_append]
  by_cases same : slot id = place
  · rw [same, Function.update_self, if_pos rfl]
    rfl
  · rw [Function.update_of_ne (Ne.symm same), if_neg same, holds place]

/-- The slots hold the latest identifiers since the reset. -/
theorem holds_after (validator : DuplicateValidator) (nonzero : 0 ∉ ids) :
    (validator.reset.after ids).Holds ids := by
  induction ids using List.reverseRecOn with
  | nil =>
    intro place
    rfl
  | append_singleton front last ih =>
    rw [List.mem_append, List.mem_singleton, not_or] at nonzero
    rw [after_append]
    exact (ih nonzero.1).checkDuplicate (Ne.symm nonzero.2)

/-- A call recognises the identifier that its slot holds. -/
theorem exact_iff_held (validator : DuplicateValidator) (nonzero : 0 ∉ ids) (isId : id ≠ 0) :
    validator.reset.Exact ids id ↔ Held slot ids id := by
  have held := holds_after validator nonzero (slot id)
  have same : (validator.reset.after ids).seenIds (slot id) = id ↔
      latest slot ids (slot id) = some id := by
    rw [held]
    cases latest slot ids (slot id) with
    | none => simpa using Ne.symm isId
    | some other => simp
  unfold Exact
  rw [checkDuplicate_eq_false isId, same]
  exact latest_iff_mem

/-- What passes after earlier calls is none of their identifiers, and passes once. -/
theorem passed_of_held {earlier later : List UInt64} (validator : DuplicateValidator)
    (nonzero : 0 ∉ earlier ++ later) (held : Justified (Held slot) (earlier ++ later)) :
    ((validator.reset.after earlier).passed later).Nodup ∧
      ∀ id ∈ (validator.reset.after earlier).passed later, id ∉ earlier := by
  induction later generalizing earlier with
  | nil => exact ⟨List.nodup_nil, by simp [passed]⟩
  | cons id rest ih =>
    have whole : (earlier ++ [id]) ++ rest = earlier ++ id :: rest := by simp
    obtain ⟨once, unseen⟩ := ih (whole ▸ nonzero) (whole ▸ held)
    rw [after_append] at once unseen
    have early : 0 ∉ earlier := fun member => nonzero (List.mem_append_left _ member)
    have isId : id ≠ 0 := by
      rintro rfl
      exact nonzero (List.mem_append_right _ List.mem_cons_self)
    have answer : _ ↔ id ∈ earlier :=
      (exact_iff_held validator early isId).mpr (held earlier id rest rfl)
    have before (other : UInt64)
        (passes : other ∈ ((validator.reset.after earlier).checkDuplicate id).2.passed rest) :
        other ∉ earlier := fun member => unseen other passes (List.mem_append_left _ member)
    rw [passed_cons]
    cases ok : ((validator.reset.after earlier).checkDuplicate id).1 with
    | false => exact ⟨once, before⟩
    | true =>
      have fresh : id ∉ earlier := by
        rw [← answer, ok]
        exact Bool.noConfusion
      refine ⟨List.nodup_cons.mpr ⟨?_, once⟩, ?_⟩
      · intro passes
        exact unseen id passes (List.mem_append_right _ List.mem_cons_self)
      · intro other passes
        rcases List.mem_cons.mp passes with rfl | passes
        · exact fresh
        · exact before other passes

/-- The answers to non-zero identifiers since a reset are exact exactly if every identifier that
comes again is the latest one of its slot. Then none passes twice. -/
theorem exact_iff_never_evicted (validator : DuplicateValidator) {ids : List UInt64}
    (nonzero : 0 ∉ ids) :
    (Justified validator.reset.Exact ids ↔ Justified (Held slot) ids) ∧
      (Justified (Held slot) ids → (validator.reset.passed ids).Nodup) := by
  refine ⟨?_, fun held => (@passed_of_held [] ids validator nonzero held).1⟩
  refine forall_congr' fun earlier => forall_congr' fun id => forall_congr' fun later =>
    forall_congr' fun split => ?_
  subst split
  apply exact_iff_held
  · exact fun member => nonzero (List.mem_append_left _ member)
  · rintro rfl
    exact nonzero (List.mem_append_right _ List.mem_cons_self)

/-- Identifiers of different slots: the repeated one is recognised, also after a reset of a
validator that had seen it. -/
theorem exact_iff_never_evicted_apart :
    Justified (reset ⟨fun _ => 1⟩).Exact [1, 2, 1, 4095] ∧
      (reset ⟨fun _ => 1⟩).passed [1, 2, 1, 4095] = [1, 2, 4095] ∧
      ((reset ⟨fun _ => 1⟩).passed [1, 2, 1, 4095]).Nodup := by
  have held : Justified (Held slot) [1, 2, 1, 4095] := justified_held (by simp [slot])
  obtain ⟨exact, once⟩ := @exact_iff_never_evicted ⟨fun _ => 1⟩ [1, 2, 1, 4095] (by decide)
  exact ⟨exact.mpr held, by decide, once held⟩

/-- An identifier passes twice when another one of its slot comes in between. -/
theorem passed_twice : 0 ∉ [1, 4097, (1 : UInt64)] ∧
    ¬Justified (reset ⟨fun _ => 0⟩).Exact [1, 4097, 1] ∧
      (reset ⟨fun _ => 0⟩).passed [1, 4097, 1] = [1, 4097, 1] := by
  refine ⟨by decide, Justified.not_of_get ⟨(by decide : 2 < 3), ?_⟩, by decide⟩
  intro answer
  exact absurd (answer.mpr (by decide)) (by decide)

end DuplicateValidator

end FluxTrade
