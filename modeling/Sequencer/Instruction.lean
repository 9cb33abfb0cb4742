import Sequencer.Decimal.Layout

namespace Sequencer

open Decimal (plain)

structure Sine where
  amplitude : Float := 0
  frequency : Float := 0
  phase : Float := 0
  offset : Float := 0
  deriving BEq

/-- Straight from the first value to the last. -/
structure Ramp where
  first : Float
  last : Float
  deriving BEq

inductive Action where
  | constant (value : Float)
  | sine (args : Sine)
  | ramp (args : Ramp)
  | goHigh
  | goLow
  | high
  | low
  | reset
  deriving BEq

def Action.name : Action → String
  | .constant _ => "Constant"
  | .sine _ => "Sine"
  | .ramp _ => "Ramp"
  | .goHigh => "GoHigh"
  | .goLow => "GoLow"
  | .high => "High"
  | .low => "Low"
  | .reset => "Reset"

def Action.parameters : Action → List Float
  | .constant v => [v]
  | .sine s => [s.amplitude, s.frequency, s.phase, s.offset]
  | .ramp r => [r.first, r.last]
  | _ => []

def Action.text (a : Action) : String :=
  match a with
  | .constant v => "Constant(value=" ++ plain v ++ ")"
  | .sine s =>
    "Sine(amp=" ++ plain s.amplitude ++ ", freq=" ++ plain s.frequency ++ ", phase=" ++
      plain s.phase ++ ", dc_offset=" ++ plain s.offset ++ ")"
  | .ramp r => "Ramp(start_val=" ++ plain r.first ++ ", end_val=" ++ plain r.last ++ ")"
  | other => other.name

/-- Without a duration the instruction holds until the next one or the end of the run. `keep` says
whether the value reached at the end is held, or the channel goes back to its idle level. -/
structure Instruction where
  start : Float
  duration : Option Float
  keep : Bool
  action : Action
  deriving BEq

namespace Instruction

def stop? (i : Instruction) : Option Float := i.duration.map (i.start + ·)

/-- Where the next instruction may follow: the end, or the start when there is no duration. -/
def next (i : Instruction) : Float := i.stop?.getD i.start

def holds (i : Instruction) : Bool := i.duration.isNone

def text (i : Instruction) : String :=
  match i.duration with
  | some d =>
    i.action.text ++ " at t=" ++ plain i.start ++ " for " ++ plain d ++ " (keep_val=" ++
      toString i.keep ++ ")"
  | none => i.action.text ++ " at t=" ++ plain i.start

def lasting (t duration : Float) (keep : Bool) (a : Action) : Instruction :=
  ⟨t, some duration, keep, a⟩

def holding (t : Float) (a : Action) : Instruction := ⟨t, none, false, a⟩

/-- What is wrong with an instruction whatever the clock. -/
inductive Fault where
  | start
  | duration (d : Float)
  | parameters

def Fault.text (i : Instruction) : Fault → String
  | .start => "instruction " ++ i.text ++ " starts at t=" ++ plain i.start ++ " < 0"
  | .duration d => "instruction " ++ i.text ++ " has negative duration " ++ plain d
  | .parameters => "instruction " ++ i.text ++ " has non-finite parameters"

/-- Neither below zero nor infinite nor undefined. -/
def isSpan (x : Float) : Bool := x.isFinite && !(x < 0)

def durationFault? (i : Instruction) : Option Fault :=
  i.duration.bind fun d => if isSpan d then none else some (.duration d)

def fault? (i : Instruction) : Option Fault :=
  if !isSpan i.start then some .start
  else i.durationFault?.or (if i.action.parameters.all Float.isFinite then none else some .parameters)

end Instruction

end Sequencer
