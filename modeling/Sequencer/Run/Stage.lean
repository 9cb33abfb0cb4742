import Sequencer.Backend
import Sequencer.Log
import Sequencer.Run.Bulletin
import Sequencer.Run.Latch

namespace Sequencer

inductive Effect where
  | cancel
  /-- The worker that makes the call dies before it is logged. -/
  | kill
  deriving DecidableEq

/-- Something that happens inside the `countdown`-th streaming call of a device from now on. -/
structure Incident where
  device : String
  countdown : Nat
  effect : Effect

def Incident.advance (device : String) (i : Incident) : Incident :=
  if i.device == device then { i with countdown := i.countdown - 1 } else i

def Incident.strikes (device : String) (i : Incident) : Bool :=
  i.device == device && i.countdown == 1

/-- What the controller and the workers of a run share. -/
structure Stage where
  backend : Backend := {}
  log : List Notice := []
  bulletin : Bulletin := {}
  /-- One for each repetition so far. -/
  latches : List Latch := []
  incidents : List Incident := []
  cancelled : Bool := false

namespace Stage

def note (n : Notice) (s : Stage) : Stage := { s with log := s.log ++ [n] }

def post (c : Command) (s : Stage) : Stage := { s with bulletin := s.bulletin.post c }

def addLatch (count : Nat) (s : Stage) : Stage := { s with latches := s.latches ++ [⟨count, false⟩] }

def latch (s : Stage) (i : Nat) : Latch := s.latches.getD i ⟨0, false⟩

def countDown (i : Nat) (ok : Bool) (s : Stage) : Stage :=
  { s with latches := s.latches.modify i (·.countDown ok) }

/-- A backend call, refused or not. -/
def issue (c : Call) (s : Stage) : Except Error Unit × Stage :=
  let (accepted, backend) := s.backend.issue c
  (if accepted then .ok () else .error (.backend c), { s with backend })

def dies (device : String) (s : Stage) : Bool :=
  s.incidents.any fun i => i.strikes device && i.effect == .kill

/-- Lets the incidents of a streaming call of `device` happen. -/
def enterStream (device : String) (s : Stage) : Stage :=
  { s with
    cancelled := s.cancelled || s.incidents.any fun i => i.strikes device && i.effect == .cancel
    incidents := s.incidents.map (·.advance device) }

end Stage

end Sequencer
