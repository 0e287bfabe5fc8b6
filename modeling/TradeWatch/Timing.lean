/-
The time that the stages of a run take. How time is measured is left open, so that the same run can
be carried out with a clock and without one.
-/
namespace TradeWatch

structure StageTiming where
  stage : String
  micros : Nat
deriving DecidableEq, Repr

/-- Carries out a computation and says how many microseconds it took. -/
structure Stopwatch (m : Type → Type) where
  measure : {α : Type} → (Unit → α) → m (α × Nat)

/-- The stopwatch that never moves. -/
def Stopwatch.still : Stopwatch Id :=
  ⟨fun f => (f (), 0)⟩

/-- The stages of a run so far, in their order. -/
structure RunTimer where
  stages : List StageTiming

namespace RunTimer

def start : RunTimer := ⟨[]⟩

/-- Carries out a stage and records its time. -/
def time {m : Type → Type} [Monad m] {α : Type} (t : RunTimer) (watch : Stopwatch m)
    (stage : String) (f : Unit → α) : m (α × RunTimer) := do
  let (x, micros) ← watch.measure f
  return (x, ⟨t.stages ++ [⟨stage, micros⟩]⟩)

end RunTimer

/-- The time of all stages together. -/
def totalMicros (stages : List StageTiming) : Nat :=
  stages.foldl (fun n t => n + t.micros) 0

end TradeWatch
