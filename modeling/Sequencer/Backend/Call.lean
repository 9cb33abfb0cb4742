import Sequencer.Instruction

namespace Sequencer

/-- Everything that reaches the hardware is one of these calls. -/
inductive Call where
  | addAnalogDevice (name : String) (rate : Float)
  | addDigitalDevice (name : String) (rate : Float)
  | addAnalogChannel (device : String) (id : Nat) (idle : Float)
  | addDigitalChannel (device : String) (port line : Nat) (idle : Bool)
  | emit (device channel : String) (instr : Instruction)
  | clearEdits
  | compile (stop : Option Float)
  | setStartTrigIn (device : String) (terminal : Option String)
  | setStartTrigOut (device : String) (terminal : Option String)
  | setSampleClockIn (device : String) (terminal : Option String)
  | setSampleClockOut (device : String) (terminal : Option String)
  | setRefClockIn (device : String) (terminal : Option String)
  | setWriteTimeout (device : String) (timeout : Option Float)
  | connect (source target : String)
  | disconnect (source target : String)
  | resetDevice (name : String)
  | configureRun (device : String) (bufferMs : Float)
  | start (device : String)
  | streamRun (device : String) (calcNext : Bool)
  | closeRun (device : String)
  deriving BEq

namespace Call

def name : Call → String
  | addAnalogDevice .. => "AddAnalogDevice"
  | addDigitalDevice .. => "AddDigitalDevice"
  | addAnalogChannel .. => "AddAnalogChannel"
  | addDigitalChannel .. => "AddDigitalChannel"
  | emit .. => "Emit"
  | clearEdits => "ClearEditCache"
  | compile .. => "Compile"
  | setStartTrigIn .. => "SetStartTrigIn"
  | setStartTrigOut .. => "SetStartTrigOut"
  | setSampleClockIn .. => "SetSampClkIn"
  | setSampleClockOut .. => "SetSampClkOut"
  | setRefClockIn .. => "SetRefClkIn"
  | setWriteTimeout .. => "SetMinBufwriteTimeout"
  | connect .. => "ConnectTerms"
  | disconnect .. => "DisconnectTerms"
  | resetDevice .. => "DeviceReset"
  | configureRun .. => "CfgRun"
  | start .. => "Start"
  | streamRun .. => "StreamRun"
  | closeRun .. => "CloseRun"

end Call

end Sequencer
