import Lifecycle.Log.Notice
import Lifecycle.Scheduling.SelfWake

/-!
# Blocking on a computation

Without a queue, a thread can drive one computation itself: it polls, and after each poll that is
not final it spins until the computation's waker was used. The computations here wake themselves
before they pend, so the thread always gets on.
-/

namespace Lifecycle.Blocking

/-- How a blocked thread came to its value. -/
structure Outcome (α : Type) where
  value : α
  /-- The polls that were not final. -/
  pended : Nat
  notices : List Notice

/-- The notices that pass a log threshold. -/
def Outcome.shown {α : Type} (outcome : Outcome α) (threshold : Log.Threshold) : List Notice :=
  outcome.notices.filter (·.passes threshold)

/-- Drives a computation that pends once for every signal and then has a value. -/
def run {α : Type} (value : α) : List SelfWake → Outcome α
  | [] => ⟨value, 0, []⟩
  | signal :: rest =>
    let later := run value rest
    { later with
      pended := later.pended + 1
      notices := List.replicate signal.count .blockedWoken ++ later.notices }

end Lifecycle.Blocking
