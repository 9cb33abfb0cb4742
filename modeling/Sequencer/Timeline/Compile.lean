import Sequencer.Signal
import Sequencer.Timeline

namespace Sequencer

/-- Follows `wave` from the end of the segment before up to and without tick `stop`. -/
structure Segment where
  stop : Nat
  wave : Waveform

namespace Timeline

/-- A constant segment for the ticks without an instruction, if there are any. -/
def padding (held : Float) (last start : Nat) : List Segment :=
  if last < start then [⟨start, .const held⟩] else []

/-- The level of the channel once `b` is over. Only an instruction with a duration sets it. -/
def heldAfter (idle held : Float) (b : Booking) (w : Waveform) : Float :=
  match b.instr.stop? with
  | some t => if b.instr.keep then w.eval t else idle
  | none => held

/-- Where the segment of a booking ends: an instruction without duration goes on to the next one. -/
def segmentStop (stop : Nat) (b : Booking) (rest : List Booking) : Nat :=
  if b.instr.holds then (rest.head?.map (·.start)).getD stop else b.stop

/-- The segments of the bookings from tick `last` on, while the channel is at level `held`. There
is always a segment up to `stop`, also when nothing was booked. -/
def segmentsFrom (t : Timeline) (stop : Nat) (held : Float) (last : Nat) (bare : Bool) :
    List Booking → Except Error (List Segment)
  | [] => .ok (if last < stop || bare then [⟨stop, .const held⟩] else [])
  | b :: rest =>
    match t.line.wave? b.instr t.idle with
    | none => .error (.range (.cannotGenerate t.name b.instr.action))
    | some w => do
      let till := segmentStop stop b rest
      let more ← t.segmentsFrom stop (heldAfter t.idle held b w) till false rest
      return padding held last b.start ++ ⟨till, w⟩ :: more

/-- Joins a segment with the equal ones that follow it. -/
def mergeFrom (s : Segment) : List Segment → List Segment
  | [] => [s]
  | next :: rest =>
    if s.wave == next.wave then mergeFrom ⟨next.stop, s.wave⟩ rest else s :: mergeFrom next rest

def merge : List Segment → List Segment
  | [] => []
  | s :: rest => mergeFrom s rest

def segments (t : Timeline) (stop : Nat) : Except Error (List Segment) :=
  if stop < t.lastTick then .error (.range (.stopBeforeEnd t.name stop t.lastTick))
  else (t.segmentsFrom stop t.idle 0 true t.bookings).map merge

def signal (t : Timeline) (stop : Nat) : Except Error Signal :=
  (t.segments stop).map fun ss =>
    ⟨t.rate, ss.map (·.stop), ss.map (·.wave), t.edited, t.lastTime⟩

/-- Compiles without a look at overlaps. The timeline counts as fresh once that succeeded. -/
def compile (t : Timeline) (stop : Nat) : Timeline × Except Error Signal :=
  match t.signal stop with
  | .ok s => ({ t with fresh := true }, .ok s)
  | .error e => (t, .error e)

end Timeline

end Sequencer
