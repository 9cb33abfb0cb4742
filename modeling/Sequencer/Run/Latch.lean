namespace Sequencer

/-- The start barrier: every card that is not held back counts down once it was told to start. -/
structure Latch where
  remaining : Nat
  failed : Bool := false

namespace Latch

def countDown (ok : Bool) (l : Latch) : Latch := ⟨l.remaining - 1, l.failed || !ok⟩

def isOpen (l : Latch) : Bool := l.remaining == 0

/-- What a wait on an open latch tells: whether every card started. -/
def allStarted (l : Latch) : Bool := !l.failed

end Latch

end Sequencer
