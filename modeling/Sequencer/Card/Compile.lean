import Sequencer.Card
import Sequencer.Timeline.Compile

namespace Sequencer

/-- What a card plays in one repetition. `samples` counts the closing tick. -/
structure CardProgram where
  rate : Float
  samples : Nat
  signals : Table Signal

namespace CardProgram

def runTime (p : CardProgram) : Float := ticks p.samples / p.rate

def active (p : CardProgram) : Bool := p.signals.any (·.active)

end CardProgram

namespace Card

/-- The tick at which the card stops. When an instruction lasts until the last tick, the card plays
one more: without it the hardware would hold the level of that instruction instead of leaving it. -/
def stopTick (c : Card) (stop : Float) : Except Error Nat := do
  let some tick := tickAt? stop c.rate | throw (.range (.stopOffGrid c.name stop))
  if tick < c.lastTick then throw (.range (.stopTooEarly c.name stop tick c.lastTick))
  if c.endsAt tick then
    if tick + 1 < tickLimit then return tick + 1
    else throw (.range (.noClosingTick c.name tick))
  else return tick

/-- Checks a timeline for overlaps before it is compiled. -/
def compileChannel (stop : Nat) (t : Timeline) : Timeline × Except Error Signal :=
  match t.validate with
  | .error e => (t, .error e)
  | .ok () => t.compile stop

/-- Channels that were compiled before a failure count as fresh. -/
def compile (stop : Float) (c : Card) : Card × Except Error CardProgram :=
  match c.stopTick stop with
  | .error e => (c, .error e)
  | .ok tick =>
    let (channels, signals) := c.channels.traverse (compileChannel tick)
    ({ c with channels }, signals.map fun s => ⟨c.rate, tick, s⟩)

end Card

end Sequencer
