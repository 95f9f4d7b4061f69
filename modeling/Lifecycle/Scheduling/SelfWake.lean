/-!
# Waking oneself

A computation that gives way without waiting for anything wakes itself before it pends. It may use
its own waker, use up a copy of it, or use it twice over.
-/

namespace Lifecycle

inductive SelfWake where
  | byReference
  | byValue
  | twice
  deriving DecidableEq, Repr

/-- The number of times the waker is used. -/
def SelfWake.count : SelfWake → Nat
  | byReference => 1
  | byValue => 1
  | twice => 2

end Lifecycle
