import Sequencer.Waveform

namespace Sequencer

/-- The kinds of output channels, by the levels they know and the instructions they can follow. -/
inductive Line where
  | analog
  | digital
  /-- Logically on is physically low. -/
  | inverted
  deriving DecidableEq

namespace Line

def isDigital : Line → Bool
  | analog => false
  | _ => true

def level (on : Bool) : Float := if on then 1 else 0

/-- The physical level of a channel at rest, from its registered default: a value for analog
channels, a logical state for the others. -/
def idle (registered : Float) : Line → Float
  | analog => registered
  | digital => level (registered != 0)
  | inverted => level (registered == 0)

/-- The physical level of a logical state. -/
def state (on : Bool) : Line → Float
  | inverted => level (!on)
  | _ => level on

/-- The action that brings out a logical state, for good or for a while. -/
def switch (on lasting : Bool) (l : Line) : Action :=
  if l.state on != 0 then
    if lasting then .high else .goHigh
  else
    if lasting then .low else .goLow

/-- What the channel puts out for an instruction; none if it cannot follow it. -/
def wave? (i : Instruction) (idle : Float) (l : Line) : Option Waveform :=
  match l.isDigital, i.action with
  | _, .reset => some (.const idle)
  | false, .constant v => some (.const v)
  | false, .sine s => some (.sine s i.start)
  | false, .ramp r => some (.ramp r i.start i.next)
  | true, .high | true, .goHigh => some (.const 1)
  | true, .low | true, .goLow => some (.const 0)
  | _, _ => none

end Line

end Sequencer
