import Sequencer.Instruction

namespace Sequencer

/-- The function of time that a segment of a signal follows. Times are absolute. -/
inductive Waveform where
  | const (value : Float)
  | sine (args : Sine) (start : Float)
  | ramp (args : Ramp) (start stop : Float)
  deriving BEq

namespace Waveform

def pi : Float := 3.141592653589793

/-- A ramp without extent is at its last value throughout. -/
def eval (t : Float) : Waveform → Float
  | const v => v
  | sine s start =>
    s.offset + s.amplitude * (2.0 * pi * s.frequency * (t - start) + s.phase).sin
  | ramp r start stop =>
    if stop ≤ start then r.last
    else r.first + (r.last - r.first) * (t - start) / (stop - start)

/-- The values at these times. A level is written over all of them at once. -/
def evalAll (ts : List Float) : Waveform → List Float
  | const v => List.replicate ts.length v
  | w => ts.map w.eval

def isSine : Waveform → Bool
  | sine .. => true
  | _ => false

end Waveform

end Sequencer
