import Sequencer.Program

namespace Sequencer

structure Roles where
  /-- Started only once every other card was. -/
  startsLast : Option String := none
  /-- The card that exports its reference clock, and the terminal it goes to. -/
  provider : Option (String × String) := none

def Roles.isProvider (card : String) (r : Roles) : Bool := r.provider.map (·.1) == some card

/-- The registered cards, the roles they play for each other, and the program compiled from them. -/
structure Registry where
  cards : Table Card := {}
  roles : Roles := {}
  program : Option Program := none

namespace Registry

def card? (r : Registry) (name : String) : Except Error Card :=
  match r.cards.get? name with
  | some c => .ok c
  | none => .error (.unknownCard name r.cards.names)

def channel? (r : Registry) (card channel : String) : Except Error Timeline :=
  (r.card? card).bind (·.channel? channel)

def modifyCard (name : String) (f : Card → Card) (r : Registry) : Registry :=
  { r with cards := r.cards.modify name f }

def modifySync (name : String) (f : SyncSettings → SyncSettings) (r : Registry) : Registry :=
  r.modifyCard name fun c => { c with sync := f c.sync }

def modifyChannel (card channel : String) (f : Timeline → Timeline) (r : Registry) : Registry :=
  r.modifyCard card (·.modifyChannel channel f)

def withoutProgram (r : Registry) : Registry := { r with program := none }

/-- The latest end of an instruction, each card measured on its own clock. -/
def lastTime (r : Registry) : Float := r.cards.values.foldl (fun t c => later t c.lastTime) 0

def edited (r : Registry) : Bool := r.cards.any (·.edited)

def fresh (r : Registry) : Bool := r.program.isSome && r.cards.all (·.fresh)

/-- The program, unless there were edits since it was compiled. -/
def current? (r : Registry) : Except Error Program :=
  match r.program with
  | some p => if r.fresh then .ok p else .error (.notCompiled .edited)
  | none => .error (.notCompiled .edited)

def checkLast (r : Registry) : Except Error Unit :=
  match r.roles.startsLast with
  | some name => if r.cards.contains name then .ok () else .error (.sync (.lastGone name))
  | none => .ok ()

def checkProvider (r : Registry) : Except Error Unit :=
  match r.roles.provider with
  | none => .ok ()
  | some (name, _) =>
    match r.cards.get? name with
    | none => .error (.sync (.providerGone name))
    | some c => if c.sync.refClockIn.isSome then .error (.sync (.bothWays name)) else .ok ()

/-- Roles name registered cards, and the provider of the reference clock does not import it. -/
def checkRoles (r : Registry) : Except Error Unit := do
  r.checkLast
  r.checkProvider

/-- Samples the compiled signal of a channel, by default from the start of the run to the end of
the channel's last instruction. -/
def sample (r : Registry) (card channel : String) (start stop : Option Float) (n : Nat) :
    Except Error (Signal × List Float) := do
  let _ ← r.channel? card channel
  let p ← r.current?
  let s ← p.signal? card channel
  return (s, ← s.sample (start.getD 0) (stop.getD s.lastEnd) n)

end Registry

end Sequencer
