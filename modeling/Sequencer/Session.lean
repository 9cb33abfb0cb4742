import Sequencer.Backend
import Sequencer.Log
import Sequencer.Registry

namespace Sequencer

/-- A registry together with the backend it drives. -/
structure Session where
  registry : Registry := {}
  backend : Backend := {}
  log : List Notice := []

/-- Changes a session step by step: when a job fails, what was done before the failure stays done. -/
abbrev Job := ExceptT Error (StateM Session)

namespace Job

def readRegistry : Job Registry := return (← get).registry

/-- Changes the registry and keeps the compiled program. -/
def adjust (f : Registry → Registry) : Job Unit :=
  modify fun s => { s with registry := f s.registry }

/-- Changes the registry and drops the compiled program. -/
def edit (f : Registry → Registry) : Job Unit := adjust fun r => (f r).withoutProgram

/-- Makes a backend call. A refused call ends the job. -/
def issue (c : Call) : Job Unit := do
  let (accepted, backend) := (← get).backend.issue c
  modify fun s => { s with backend }
  unless accepted do throw (.backend c)

def note (n : Notice) : Job Unit := modify fun s => { s with log := s.log ++ [n] }

/-- The registry must know the card. -/
def requireCard (name : String) : Job Card := do ofExcept ((← readRegistry).card? name)

def requireChannel (card channel : String) : Job Timeline := do
  ofExcept ((← readRegistry).channel? card channel)

/-- Changes a registered card. -/
def adjustCard (name : String) (f : Card → Card) : Job Unit := do
  let _ ← requireCard name
  adjust (·.modifyCard name f)

def adjustSync (card : String) (f : SyncSettings → SyncSettings) : Job Unit :=
  adjustCard card fun c => { c with sync := f c.sync }

def adjustChannel (card channel : String) (f : Timeline → Timeline) : Job Unit := do
  let _ ← requireChannel card channel
  adjust (·.modifyChannel card channel f)

def dropProgram : Job Unit := adjust (·.withoutProgram)

end Job

end Sequencer
