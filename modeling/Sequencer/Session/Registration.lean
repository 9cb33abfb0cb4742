import Sequencer.Session

namespace Sequencer.Session

open Job

def deviceCall (name : String) (rate : Float) : CardKind → Call
  | .analog => .addAnalogDevice name rate
  | .digital => .addDigitalDevice name rate

/-- Checked first, told to the backend next, and only then registered. -/
def addCard (name : String) (kind : CardKind) (rate : Float) : Job Unit := do
  if (← readRegistry).cards.contains name then throw (.duplicateCard name)
  if !rate.isFinite || rate ≤ 0 then throw (.range (.sampleRate name rate))
  issue (deviceCall name rate kind)
  note (.registered kind name rate)
  edit fun r => { r with cards := r.cards.put name { name, kind, rate } }

/-- A removed card leaves its roles as well. -/
def removeCard (name : String) : Job Unit := do
  let _ ← requireCard name
  adjust fun r => { r with cards := r.cards.erase name }
  if (← readRegistry).roles.startsLast == some name then
    note (.lastRemoved name)
    adjust fun r => { r with roles := { r.roles with startsLast := none } }
  if (← readRegistry).roles.isProvider name then
    note (.providerRemoved name)
    adjust fun r => { r with roles := { r.roles with provider := none } }
  dropProgram

def nameCard (name : String) (nickname : Option String) : Job Unit :=
  adjustCard name fun c => { c with nickname }

def nameChannel (card channel : String) (nickname : Option String) : Job Unit :=
  adjustChannel card channel fun t => { t with nickname }

/-- Commits a channel that was checked before. -/
def commitChannel (card name : String) (line : Line) (registered : Float) : Job Unit := do
  let c ← ofExcept ((← requireCard card).addChannel name line registered)
  edit (·.modifyCard card fun _ => c)

/-- Gives the name of the new channel. -/
def addAnalogChannel (card : String) (id : Nat) (level : Float) : Job String := do
  let name := Naming.analogName id
  let c ← requireCard card
  if c.kind != .analog then throw (.channelName name (.onDigital card))
  if !level.isFinite then throw (.range (.defaultLevel card name level))
  ofExcept (c.checkName name)
  issue (.addAnalogChannel card id level)
  commitChannel card name .analog level
  return name

/-- `on` is the logical state at rest; an inverted line rests at the other physical level. -/
def addDigitalChannel (card : String) (port line : Nat) (on inverted : Bool) : Job String := do
  let name := Naming.digitalName port line
  let c ← requireCard card
  if c.kind != .digital then throw (.channelName name (.onAnalog card))
  ofExcept (c.checkName name)
  let kind : Line := if inverted then .inverted else .digital
  let registered := Line.level on
  issue (.addDigitalChannel card port line (kind.idle registered != 0))
  commitChannel card name kind registered
  return name

def addFlatChannel (card : String) (index linesPerPort : Nat) (on inverted : Bool) :
    Job String := do
  let some (port, line) := portLine? index linesPerPort | throw (.range .linesPerPort)
  addDigitalChannel card port line on inverted

end Sequencer.Session
