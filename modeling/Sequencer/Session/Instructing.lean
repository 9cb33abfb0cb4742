import Sequencer.Session

namespace Sequencer.Session

open Job

/-- Checked, sent to the backend, committed: nothing is committed unless the backend accepted. Gives the
time at which the instruction is over, so that the next one can start there. -/
def addInstruction (card channel : String) (i : Instruction) : Job Float := do
  let t ← requireChannel card channel
  if (t.line.wave? i t.idle).isNone then throw (.wrongKind card channel i.action)
  let b ← ofExcept (t.place i)
  issue (.emit card channel i)
  adjustChannel card channel (·.insert b)
  dropProgram
  return i.next

/-- Brings out a logical state, for `duration` or until the next instruction. -/
def switch (card channel : String) (on : Bool) (t : Float) (duration : Option Float) :
    Job Float := do
  let ch ← requireChannel card channel
  addInstruction card channel ⟨t, duration, false, ch.line.switch on duration.isSome⟩

/-- A reset instruction for every channel of every card, placed but not committed. -/
def placeResets (r : Registry) (t : Float) : Except Error (List (String × String × Booking)) := do
  let perCard ← r.cards.values.mapM fun c =>
    return (← c.placeReset t).map fun (channel, b) => (c.name, channel, b)
  return perCard.flatten

/-- Takes every channel to its idle level at `time`, by default when all instructions are over. -/
def addReset (time : Option Float) : Job Float := do
  let r ← readRegistry
  let last := r.lastTime
  if let some t := time then
    if t < last then throw (.range (.resetBeforeEnd t last))
  let t := time.getD last
  let resets ← ofExcept (placeResets r t)
  resets.forM fun (card, channel, b) => issue (.emit card channel b.instr)
  resets.forM fun (card, channel, b) => adjustChannel card channel (·.insert b)
  dropProgram
  return t

end Sequencer.Session
