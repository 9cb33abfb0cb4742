import Sequencer.Card.Naming
import Sequencer.Table
import Sequencer.Timeline

namespace Sequencer

/-- Terminals through which a card takes or gives triggers and clocks. Without a write timeout the
card waits for its buffer for good. -/
structure SyncSettings where
  startTrigIn : Option String := none
  startTrigOut : Option String := none
  sampleClockIn : Option String := none
  sampleClockOut : Option String := none
  refClockIn : Option String := none
  refClockRate : Option Float := none
  writeTimeout : Option Float := some 5

/-- A clock, channels of one kind, and what the card shares with other cards. -/
structure Card where
  name : String
  kind : CardKind
  rate : Float
  nickname : Option String := none
  channels : Table Timeline := {}
  sync : SyncSettings := {}

namespace Card

def clockPeriod (c : Card) : Float := 1 / c.rate

def label (c : Card) : String := c.nickname.getD c.name

def channel? (c : Card) (name : String) : Except Error Timeline :=
  match c.channels.get? name with
  | some t => .ok t
  | none => .error (.unknownChannel c.name name c.channels.names)

/-- A name is free when it has the form of the card's channels and is not taken. -/
def checkName (c : Card) (name : String) : Except Error Unit :=
  if !c.kind.names name then .error (.channelName name c.kind.nameForm)
  else if c.channels.contains name then .error (.duplicateChannel c.name name)
  else .ok ()

def addChannel (c : Card) (name : String) (line : Line) (registered : Float) :
    Except Error Card :=
  if line.isDigital != (c.kind == .digital) then .error (.channelName name (.ofCard c.kind))
  else (c.checkName name).map fun _ =>
    { c with
      channels := c.channels.put name { name, line, rate := c.rate, registered } }

def modifyChannel (name : String) (f : Timeline → Timeline) (c : Card) : Card :=
  { c with channels := c.channels.modify name f }

def lastTick (c : Card) : Nat := c.channels.values.foldl (fun n t => max n t.lastTick) 0

def lastTime (c : Card) : Float := ticks c.lastTick / c.rate

def edited (c : Card) : Bool := c.channels.any (·.edited)

def fresh (c : Card) : Bool := c.channels.all (·.fresh)

def clearEdits (c : Card) : Card := { c with channels := c.channels.map (·.clear) }

/-- Drops the instructions and all ties to other cards. The channels stay. -/
def reset (c : Card) : Card := { c.clearEdits with sync := {} }

/-- A reset instruction for every channel, placed but not committed. -/
def placeReset (c : Card) (t : Float) : Except Error (List (String × Booking)) := do
  let some tick := tickAt? t c.rate | throw (.range (.resetOffGrid c.name t))
  if tick < c.lastTick then throw (.range (.resetTooEarly c.name t tick c.lastTick))
  c.channels.values.mapM fun ch => return (ch.name, ← ch.place (.holding t .reset))

/-- Some instruction lasts exactly until `tick`. -/
def endsAt (c : Card) (tick : Nat) : Bool := c.channels.any (·.endsAt tick)

end Card

end Sequencer
