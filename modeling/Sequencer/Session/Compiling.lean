import Sequencer.Session

namespace Sequencer.Session

open Job

/-- The stop time of the run: as asked for, but never before the last instruction is over. -/
def stopTime (r : Registry) (asked : Option Float) : Except Error Float :=
  match asked with
  | some t =>
    if !Instruction.isSpan t then .error (.range (.stopTime t))
    else if t < r.lastTime then .ok r.lastTime
    else .ok t
  | none => if r.edited then .ok r.lastTime else .error (.notCompiled .noInstructions)

def stopNotice? (r : Registry) (asked : Option Float) : Option Notice :=
  asked.bind fun t => if t < r.lastTime then some (.stopRaised t r.lastTime) else none

/-- Compiles every card. Cards done before a failure keep their channels marked as fresh. -/
def compileCards (stop : Float) : Job (Table CardProgram) := do
  let (cards, programs) := (← readRegistry).cards.traverse (·.compile stop)
  adjust fun r => { r with cards }
  ofExcept programs

/-- Gives the stop time. The program before is gone whatever happens. -/
def compile (asked : Option Float) : Job Float := do
  dropProgram
  let r ← readRegistry
  let stop ← ofExcept (stopTime r asked)
  if let some n := stopNotice? r asked then note n
  let p : Program := ⟨← compileCards stop, stop⟩
  issue (.compile (some stop))
  note (.compiled p.cards.size stop p.runTime)
  adjust fun r => { r with program := some p }
  return stop

def clearEdits : Job Unit := do
  issue .clearEdits
  edit fun r => { r with cards := r.cards.map (·.clearEdits) }

def clearProgram : Job Unit := dropProgram

end Sequencer.Session
