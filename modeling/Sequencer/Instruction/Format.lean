import Sequencer.Instruction
import Sequencer.Json.Record

namespace Sequencer

open Json (Value orElse required)

def Sine.read? (v : Value) : Option Sine := do
  let [a, f, p, o] ← v.fields? ["amp", "freq", "phase", "dc_offset"] | none
  let number := orElse 0 Value.float?
  some ⟨← number a, ← number f, ← number p, ← number o⟩

def Ramp.read? (v : Value) : Option Ramp := do
  let [a, b] ← v.fields? ["start_val", "end_val"] | none
  some ⟨← required Value.float? a, ← required Value.float? b⟩

/-- The level of a constant action. -/
def readConstant? (v : Value) : Option Float := do
  let [a] ← v.fields? ["value"] | none
  required Value.float? a

/-- The actions without parameters. -/
def Action.named? : String → Option Action
  | "GoHigh" => some .goHigh
  | "GoLow" => some .goLow
  | "High" => some .high
  | "Low" => some .low
  | "Reset" => some .reset
  | _ => none

/-- A name alone, or a record with the name as its only field and the parameters as its value. -/
def Action.read? : Value → Option Action
  | .text (some name) => Action.named? name
  | .record [(some "Constant", v)] => (readConstant? v).map .constant
  | .record [(some "Sine", v)] => (Sine.read? v).map .sine
  | .record [(some "Ramp", v)] => (Ramp.read? v).map .ramp
  | .record [(some name, .null)] => Action.named? name
  | _ => none

end Sequencer
