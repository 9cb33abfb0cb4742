namespace Sequencer

/-- A card hosts one kind of channels. -/
inductive CardKind where
  | analog
  | digital
  deriving DecidableEq

def CardKind.text : CardKind → String
  | analog => "AO"
  | digital => "DO"

end Sequencer
