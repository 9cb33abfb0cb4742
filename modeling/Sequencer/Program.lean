import Sequencer.Card.Compile

namespace Sequencer

structure Program where
  cards : Table CardProgram
  stopTime : Float

namespace Program

/-- Cards with at least one channel that carries instructions. -/
def activeCards (p : Program) : List String :=
  (p.cards.entries.filter (·.2.active)).map (·.1)

def runTime (p : Program) : Float := p.cards.values.foldl (fun t c => later t c.runTime) 0

def signal? (p : Program) (card channel : String) : Except Error Signal :=
  match p.cards.get? card with
  | none => .error (.unknownCard card p.cards.names)
  | some c =>
    match c.signals.get? channel with
    | none => .error (.unknownChannel card channel c.signals.names)
    | some s => .ok s

end Program

end Sequencer
