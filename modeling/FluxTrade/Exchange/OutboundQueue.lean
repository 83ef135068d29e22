import FluxTrade.Common.SpscQueue
import FluxTrade.Exchange.Messages

/-!
# The outbound queue shared by the engines

Every engine loop pushes its reports into the one `outbound_queue_` of the
exchange, whose protocol is made for a single producer. Two pushes under way at
once can claim the same cell, and one of the two reports is lost although both
pushes return true.
-/

namespace FluxTrade

open Execution Words QueueRun

namespace QueueRun

variable {α : Type*} {producers : Nat}

/-- Values of the pushes under way. -/
def underWay (run : QueueRun α producers) : List α :=
  (List.finRange producers).filterMap fun producer => (run.pushes producer).value?

/-- No report comes out of nowhere, twice, or not at all. Calls that carry equal reports are told
apart by their number. -/
structure NoLostReports [DecidableEq α] (run : QueueRun α producers) : Prop where
  /-- Only pushed reports are popped. -/
  pushed : ∀ value ∈ run.popped, value ∈ run.accepted ++ run.refused ++ run.underWay
  /-- Each push is popped at most once. -/
  once : ∀ value, run.popped.count value ≤ (run.accepted ++ run.underWay).count value
  /-- At rest, an empty queue has handed out every accepted report. -/
  complete : run.Quiet → run.queue.readIdx = run.queue.writeIdx →
    ∀ value, run.accepted.count value ≤ run.popped.count value

/-- First in, first out loses nothing. -/
theorem Fifo.noLostReports [DecidableEq α] {capacity index : UInt64}
    {run : QueueRun α producers} (fifo : Fifo capacity index run)
    (power : PowerOfTwo capacity) : run.NoLostReports := by
  have first : run.popped.Sublist run.accepted := by
    rw [fifo.first]
    exact List.take_sublist _ _
  constructor
  · intro value member
    exact List.mem_append_left _ (List.mem_append_left _ (first.subset member))
  · intro value
    rw [List.count_append]
    exact Nat.le_trans (first.count_le value) (Nat.le_add_right _ _)
  · intro _ empty value
    rw [fifo.popped_eq power empty]

end QueueRun

/-- The runs of the outbound queue: 4096 cells between the engines and the response loop. -/
abbrev OutboundRun (engines : Nat) := QueueRun OutboundReport engines

namespace OutboundRun

variable {engines : Nat}

/-- The cells of the outbound queue. -/
def capacity : UInt64 := 4096

/-- The queue as the exchange constructs it. -/
def new (engines : Nat) : OutboundRun engines := start (fun _ => .blank) 0

/-- Any number of engines that never have two pushes under way at once lose no report, in every
state of every interleaving with the response loop. -/
theorem noLostReports_of_onePush {steps : List (QueueStep OutboundReport engines)}
    (one : Along OnePush (step capacity) (new engines) steps) :
    Throughout NoLostReports (step capacity) (new engines) steps := by
  have power : PowerOfTwo capacity := ⟨12, by decide, rfl⟩
  exact Throughout.of_guarded (Fifo.start capacity 0 _)
    (fun _ _ _ fifo guard taken => fifo.step power guard taken)
    (fun _ fifo => fifo.noLostReports power) one

/-- A report that differs from others by its connection. -/
def reportTo (connId : ConnId) : OutboundReport := { OutboundReport.blank with connId }

/-- Two engines push one after the other, with pops in between. -/
theorem noLostReports_of_onePush_turns :
    Throughout NoLostReports (step capacity) (new 2)
      [.produce 0 (reportTo 1), .produce 0 (reportTo 1), .consume, .produce 0 (reportTo 1),
        .produce 0 (reportTo 1), .produce 1 (reportTo 2), .consume, .produce 1 (reportTo 2),
        .consume, .produce 1 (reportTo 2), .produce 1 (reportTo 2), .consume] :=
  noLostReports_of_onePush (by decide +kernel)

/-- Two engines load the write index before either stores it: both pushes return true, the response
loop pops the second report, and the queue is empty without the first. -/
theorem twoPushes_lose_report :
    ∃ run, runAll (step capacity) (new 2)
        [.produce 0 (reportTo 1), .produce 1 (reportTo 2), .produce 0 (reportTo 1),
          .produce 1 (reportTo 2), .produce 0 (reportTo 1), .produce 1 (reportTo 2),
          .produce 0 (reportTo 1), .produce 1 (reportTo 2), .consume, .consume, .consume,
          .consume] = .ok run ∧
      run.accepted = [reportTo 1, reportTo 2] ∧ run.popped = [reportTo 2] ∧
        ¬run.NoLostReports := by
  have returns : Returns (fun run => run.Quiet ∧ run.queue.readIdx = run.queue.writeIdx ∧
      run.accepted = [reportTo 1, reportTo 2] ∧ run.popped = [reportTo 2])
      (runAll (step capacity) (new 2)
        [.produce 0 (reportTo 1), .produce 1 (reportTo 2), .produce 0 (reportTo 1),
          .produce 1 (reportTo 2), .produce 0 (reportTo 1), .produce 1 (reportTo 2),
          .produce 0 (reportTo 1), .produce 1 (reportTo 2), .consume, .consume, .consume,
          .consume]) := by
    decide +kernel
  obtain ⟨run, ran, quiet, empty, accepted, popped⟩ := returns.exists
  refine ⟨run, ran, accepted, popped, ?_⟩
  intro kept
  have handedOut := kept.complete quiet empty (reportTo 1)
  rw [accepted, popped] at handedOut
  exact absurd handedOut (by decide)

end OutboundRun

end FluxTrade
