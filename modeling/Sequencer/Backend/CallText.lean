import Sequencer.Backend.Call
import Sequencer.Text.Quoted

namespace Sequencer

open Decimal (marked)
open Text (quoted)

/-- `Name { field: value, … }`. -/
def fieldsText (name : String) (fields : List (String × String)) : String :=
  name ++ " \x7b " ++ String.intercalate ", " (fields.map fun (k, v) => k ++ ": " ++ v) ++ " \x7d"

def wrappedText (name value : String) : String := name ++ "(" ++ value ++ ")"

def optionText (write : α → String) : Option α → String
  | none => "None"
  | some x => wrappedText "Some" (write x)

def Action.fullText (a : Action) : String :=
  match a with
  | .constant v => wrappedText "Constant" (fieldsText "ConstArgs" [("value", marked v)])
  | .sine s =>
    wrappedText "Sine" (fieldsText "SineArgs"
      [("amp", marked s.amplitude), ("freq", marked s.frequency), ("phase", marked s.phase),
        ("dc_offset", marked s.offset)])
  | .ramp r =>
    wrappedText "Ramp" (fieldsText "RampArgs"
      [("start_val", marked r.first), ("end_val", marked r.last)])
  | other => other.name

def Instruction.fullText (i : Instruction) : String :=
  fieldsText "Instruction"
    [("t_start", marked i.start), ("duration", optionText marked i.duration),
      ("keep_val", toString i.keep), ("kind", i.action.fullText)]

def Call.text (c : Call) : String :=
  let terminal (device : String) (t : Option String) :=
    fieldsText c.name [("device", quoted device), ("term", optionText quoted t)]
  match c with
  | .addAnalogDevice n r | .addDigitalDevice n r =>
    fieldsText c.name [("name", quoted n), ("samp_rate", marked r)]
  | .addAnalogChannel d i v =>
    fieldsText c.name
      [("device", quoted d), ("channel_id", toString i), ("default_value", marked v)]
  | .addDigitalChannel d p l v =>
    fieldsText c.name
      [("device", quoted d), ("port", toString p), ("line", toString l),
        ("default_value", toString v)]
  | .emit d ch i =>
    fieldsText c.name [("device", quoted d), ("channel", quoted ch), ("instr", i.fullText)]
  | .clearEdits => c.name
  | .compile t => wrappedText c.name (optionText marked t)
  | .setStartTrigIn d t | .setStartTrigOut d t | .setSampleClockIn d t | .setSampleClockOut d t
  | .setRefClockIn d t => terminal d t
  | .setWriteTimeout d t =>
    fieldsText c.name [("device", quoted d), ("timeout", optionText marked t)]
  | .connect s t | .disconnect s t => fieldsText c.name [("src", quoted s), ("dest", quoted t)]
  | .resetDevice n | .start n | .closeRun n => wrappedText c.name (quoted n)
  | .configureRun d b => fieldsText c.name [("device", quoted d), ("bufsize_ms", marked b)]
  | .streamRun d n => fieldsText c.name [("device", quoted d), ("calc_next", toString n)]

end Sequencer
