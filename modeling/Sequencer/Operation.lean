import Sequencer.Session.Compiling
import Sequencer.Session.Instructing
import Sequencer.Session.Registration
import Sequencer.Session.Synchronizing

namespace Sequencer

/-- What a user can do to a session, as data: a history of a session is a list of operations. -/
inductive Operation where
  | addCard (name : String) (kind : CardKind) (rate : Float)
  | removeCard (name : String)
  | nameCard (name : String) (nickname : Option String)
  | nameChannel (card channel : String) (nickname : Option String)
  | addAnalogChannel (card : String) (id : Nat) (level : Float)
  | addDigitalChannel (card : String) (port line : Nat) (on inverted : Bool)
  | addFlatChannel (card : String) (index linesPerPort : Nat) (on inverted : Bool)
  | addInstruction (card channel : String) (instr : Instruction)
  | switch (card channel : String) (on : Bool) (t : Float) (duration : Option Float)
  | addReset (time : Option Float)
  | configureStartTrig (card terminal : String) (exported : Bool)
  | configureSampleClockIn (card : String) (terminal : Option String)
  | configureSampleClockOut (card : String) (terminal : Option String)
  | configureRefClock (card terminal : String) (rate : Float) (exported : Bool)
  | clearRefClockIn (card : String)
  | setWriteTimeout (card : String) (timeout : Option Float)
  | setStartsLast (card : Option String)
  | setProvider (provider : Option (String × String))
  | resetCard (name : String)
  | resetAll
  | compile (stop : Option Float)
  | clearEdits
  | clearProgram

/-- What an operation gives back. -/
inductive Answer where
  | done
  | time (t : Float)
  | channel (card name : String)

namespace Operation

open Session

def run : Operation → Job Answer
  | addCard n k r => do Session.addCard n k r; return .done
  | removeCard n => do Session.removeCard n; return .done
  | nameCard n k => do Session.nameCard n k; return .done
  | nameChannel c ch k => do Session.nameChannel c ch k; return .done
  | addAnalogChannel c i v => return .channel c (← Session.addAnalogChannel c i v)
  | addDigitalChannel c p l on inv => return .channel c (← Session.addDigitalChannel c p l on inv)
  | addFlatChannel c i n on inv => return .channel c (← Session.addFlatChannel c i n on inv)
  | addInstruction c ch i => return .time (← Session.addInstruction c ch i)
  | switch c ch on t d => return .time (← Session.switch c ch on t d)
  | addReset t => return .time (← Session.addReset t)
  | configureStartTrig c t e => do Session.configureStartTrig c t e; return .done
  | configureSampleClockIn c t => do Session.configureSampleClockIn c t; return .done
  | configureSampleClockOut c t => do Session.configureSampleClockOut c t; return .done
  | configureRefClock c t r e => do Session.configureRefClock c t r e; return .done
  | clearRefClockIn c => do Session.clearRefClockIn c; return .done
  | setWriteTimeout c t => do Session.setWriteTimeout c t; return .done
  | setStartsLast c => do Session.setStartsLast c; return .done
  | setProvider p => do Session.setProvider p; return .done
  | resetCard n => do Session.resetCard n; return .done
  | resetAll => do Session.resetAll; return .done
  | compile t => return .time (← Session.compile t)
  | clearEdits => do Session.clearEdits; return .done
  | clearProgram => do Session.clearProgram; return .done

end Operation

end Sequencer
