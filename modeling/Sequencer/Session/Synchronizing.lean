import Sequencer.Session

namespace Sequencer.Session

open Job

/-- The rate of the clock a card can export. -/
def exportRate : Float := 1e7

/-- Imports the start trigger from a terminal, or exports it there. -/
def configureStartTrig (card terminal : String) (exported : Bool) : Job Unit := do
  let _ ← requireCard card
  let trigIn := if exported then none else some terminal
  let trigOut := if exported then some terminal else none
  issue (.setStartTrigIn card trigIn)
  issue (.setStartTrigOut card trigOut)
  adjustSync card fun s => { s with startTrigIn := trigIn, startTrigOut := trigOut }
  dropProgram

def configureSampleClockIn (card : String) (terminal : Option String) : Job Unit := do
  let _ ← requireCard card
  issue (.setSampleClockIn card terminal)
  adjustSync card fun s => { s with sampleClockIn := terminal }
  dropProgram

def configureSampleClockOut (card : String) (terminal : Option String) : Job Unit := do
  let _ ← requireCard card
  issue (.setSampleClockOut card terminal)
  adjustSync card fun s => { s with sampleClockOut := terminal }
  dropProgram

/-- The exporter no longer has a rate of its own, unless it is to go on. -/
def release (next : Option String) (r : Registry) : Registry :=
  match r.roles.provider with
  | some (old, _) =>
    if next == some old then r else r.modifySync old fun s => { s with refClockRate := none }
  | none => r

/-- Hands the reference clock to another card. -/
def handOver (provider : Option (String × String)) (r : Registry) : Registry :=
  let r := release (provider.map (·.1)) r
  { r with roles := { r.roles with provider } }

def checkNewProvider (r : Registry) (name : String) : Except Error Unit :=
  match r.cards.get? name with
  | none => .error (.sync (.providerUnknown name r.cards.names))
  | some c =>
    match c.sync.refClockIn with
    | some source => .error (.sync (.providerImports name source))
    | none => .ok ()

def setProvider (provider : Option (String × String)) : Job Unit := do
  if let some (name, _) := provider then ofExcept (checkNewProvider (← readRegistry) name)
  adjust (handOver provider)

def exportRefClock (card terminal : String) (rate : Float) : Job Unit := do
  if rate != exportRate then throw (.sync (.exportRate card rate))
  setProvider (some (card, terminal))
  adjustSync card fun s => { s with refClockRate := some rate }
  dropProgram

def importRefClock (card terminal : String) (rate : Float) : Job Unit := do
  if !rate.isFinite || rate ≤ 0 then throw (.range (.refClockRate card rate))
  if (← readRegistry).roles.isProvider card then
    throw (.sync (.importerExports card))
  issue (.setRefClockIn card (some terminal))
  adjustSync card fun s => { s with refClockIn := some terminal, refClockRate := some rate }
  dropProgram

def configureRefClock (card terminal : String) (rate : Float) (exported : Bool) : Job Unit := do
  let _ ← requireCard card
  if exported then exportRefClock card terminal rate else importRefClock card terminal rate

/-- Keeps the compiled program. -/
def clearRefClockIn (card : String) : Job Unit := do
  let _ ← requireCard card
  issue (.setRefClockIn card none)
  adjustSync card fun s => { s with refClockIn := none, refClockRate := none }

/-- Keeps the compiled program. -/
def setWriteTimeout (card : String) (timeout : Option Float) : Job Unit := do
  let _ ← requireCard card
  if let some t := timeout then
    if !Instruction.isSpan t then throw (.range (.writeTimeout card t))
  issue (.setWriteTimeout card timeout)
  adjustSync card fun s => { s with writeTimeout := timeout }

/-- Keeps the compiled program. -/
def setStartsLast (card : Option String) : Job Unit := do
  let r ← readRegistry
  if let some name := card then
    if !r.cards.contains name then throw (.sync (.lastUnknown name r.cards.names))
  adjust fun r => { r with roles := { r.roles with startsLast := card } }

/-- Back to a card without instructions and without ties. The card stays the one to start last. -/
def resetCard (name : String) : Job Unit := do
  let _ ← requireCard name
  issue (.resetDevice name)
  adjustCard name (·.reset)
  if (← readRegistry).roles.isProvider name then
    adjust fun r => { r with roles := { r.roles with provider := none } }
  dropProgram

def resetAll : Job Unit := do (← readRegistry).cards.names.forM resetCard

end Sequencer.Session
