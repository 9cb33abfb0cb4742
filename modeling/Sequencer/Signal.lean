import Sequencer.Error
import Sequencer.Tick
import Sequencer.Waveform

namespace Sequencer

/-- The output of a channel: segments without gaps, the first beginning at tick zero. Segment `i`
follows `waves[i]` up to and without tick `ends[i]`. -/
structure Signal where
  rate : Float
  ends : List Nat
  waves : List Waveform
  /-- False for a channel without instructions, which only holds its idle level. -/
  active : Bool
  lastEnd : Float

/-- The number of leading positions from `base` on where `p` is true, by halving, counted from zero.
-/
def bisect (p : Nat → Bool) (base size : Nat) : Nat :=
  if size ≤ 1 then
    if size = 1 && p base then base + 1 else base
  else
    let half := size / 2
    bisect p (if p (base + half) then base + half else base) (size - half)
termination_by size

namespace Signal

/-- How far, in ticks, a time may be off the grid. -/
def slack : Float := 1e-6

def lastTick (s : Signal) : Nat := s.ends.getLast?.getD 0

def stopTime (s : Signal) : Float :=
  match s.ends.getLast? with
  | some e => ticks e / s.rate
  | none => 0

/-- Whether the segment that ends at that index lies wholly at or before `position`. -/
def endsBy (s : Signal) (position : Float) (i : Nat) : Bool :=
  match s.ends[i]? with
  | some e => ticks e ≤ position + slack
  | none => false

/-- The segment a position on the grid falls into; the last one has no end. -/
def segmentAt (s : Signal) (position : Float) : Nat :=
  min (bisect (s.endsBy position) 0 s.ends.length) (s.ends.length - 1)

def eval (s : Signal) (t : Float) : Float :=
  match s.waves[s.segmentAt (t * s.rate)]? with
  | some w => w.eval t
  | none => 0

/-- Hands out ascending times to the segments in order; the last segment takes all that are left. -/
def sweep (rate : Float) : List Nat → List Waveform → List Float → List Float
  | _, [], ts => ts
  | _, [w], ts => w.evalAll ts
  | [], w :: _ :: _, ts => w.evalAll ts
  | e :: ends, w :: v :: waves, ts =>
    let inside (t : Float) : Bool := t * rate + slack < ticks e
    w.evalAll (ts.takeWhile inside) ++ sweep rate ends (v :: waves) (ts.dropWhile inside)

/-- The signal at ascending times, in one pass from the segment of the first. -/
def fill (s : Signal) (ts : List Float) : List Float :=
  match ts with
  | [] => []
  | t :: _ =>
    let first := s.segmentAt (t * s.rate)
    sweep s.rate (s.ends.drop first) (s.waves.drop first) ts

/-- Evenly spaced times from `start` on, without `stop`. -/
def sampleTimes (start stop : Float) (n : Nat) : List Float :=
  let step := (stop - start) / ticks (max n 1)
  (List.range n).map fun i => start + ticks i * step

def sample (s : Signal) (start stop : Float) (n : Nat) : Except Error (List Float) :=
  if !(start.isFinite && stop.isFinite) || start < 0 || stop < start then
    .error (.range (.interval start stop))
  else if ticks s.lastTick + slack < stop * s.rate then
    .error (.range (.pastStop stop s.stopTime))
  else .ok (s.fill (sampleTimes start stop n))

def hasSine (s : Signal) : Bool := s.waves.any (·.isSine)

end Signal

end Sequencer
