import Sequencer.Backend.CallText
import Sequencer.Booking
import Sequencer.Card.Kind

namespace Sequencer

open Decimal (plain)
open Text (quotedList)

/-- A value outside of what is possible. -/
inductive RangeFault where
  | instruction (channel : String) (instr : Instruction) (fault : Instruction.Fault)
  | offGrid (channel : String) (instr : Instruction) (rate : Float)
  | noTicks (channel : String) (instr : Instruction) (rate : Float)
  | stopBeforeEnd (channel : String) (stop last : Nat)
  | cannotGenerate (channel : String) (action : Action)
  | resetOffGrid (card : String) (t : Float)
  | resetTooEarly (card : String) (t : Float) (tick last : Nat)
  | stopOffGrid (card : String) (t : Float)
  | stopTooEarly (card : String) (t : Float) (tick last : Nat)
  | noClosingTick (card : String) (tick : Nat)
  | interval (start stop : Float)
  | pastStop (t stop : Float)
  | sampleRate (card : String) (rate : Float)
  | defaultLevel (card channel : String) (level : Float)
  | linesPerPort
  | resetBeforeEnd (t last : Float)
  | refClockRate (card : String) (rate : Float)
  | writeTimeout (card : String) (timeout : Float)
  | stopTime (t : Float)
  | bufferSize (ms : Float)

def RangeFault.text : RangeFault → String
  | instruction ch i f => "channel " ++ ch ++ ": " ++ f.text i
  | offGrid ch i r =>
    "channel " ++ ch ++ ": instruction " ++ i.text ++
      " does not fit on the clock grid at samp_rate " ++ plain r
  | noTicks ch i r =>
    "channel " ++ ch ++ ": instruction " ++ i.text ++ " spans zero clock ticks at samp_rate " ++
      plain r
  | stopBeforeEnd ch s l =>
    "channel " ++ ch ++ ": compiling with stop_pos " ++ toString s ++
      " while instructions end at " ++ toString l
  | cannotGenerate ch a => "channel " ++ ch ++ ": cannot generate " ++ a.text
  | resetOffGrid c t =>
    "card " ++ c ++ ": reset_time " ++ plain t ++ " does not fit on the clock grid"
  | resetTooEarly c t n l =>
    "card " ++ c ++ ": reset_time " ++ plain t ++ " was rounded to " ++ toString n ++
      " clock cycles which is below the last instruction end_pos " ++ toString l
  | stopOffGrid c t => "card " ++ c ++ ": stop_time " ++ plain t ++ " does not fit on the clock grid"
  | stopTooEarly c t n l =>
    "card " ++ c ++ ": stop_time " ++ plain t ++ " was rounded to " ++ toString n ++
      " clock cycles which is below the last instruction end_pos " ++ toString l
  | noClosingTick c n => "card " ++ c ++ ": no room for the closing-edge tick after " ++ toString n
  | interval a b => "cannot sample interval [" ++ plain a ++ ", " ++ plain b ++ ")"
  | pastStop t s =>
    "t_end = " ++ plain t ++ " exceeds the compiled run which stops at " ++ plain s
  | sampleRate c r => "card " ++ c ++ ": sample rate must be positive, got " ++ plain r
  | defaultLevel c ch v => c ++ "/" ++ ch ++ ": default value " ++ plain v ++ " is not finite"
  | linesPerPort => "lines_per_port must be positive"
  | resetBeforeEnd t l =>
    "requested reset at t = " ++ plain t ++
      " [s] but some channels have instructions spanning until " ++ plain l ++ " [s]"
  | refClockRate c r => "card " ++ c ++ ": reference clock rate must be positive, got " ++ plain r
  | writeTimeout c t =>
    "card " ++ c ++ ": buffer write timeout must be non-negative, got " ++ plain t
  | stopTime t => "stop_time must be non-negative, got " ++ plain t
  | bufferSize ms => "bufsize_ms must be positive, got " ++ plain ms

/-- The channel name a card would have accepted. -/
inductive NameForm where
  | analog
  | digital
  | ofCard (kind : CardKind)
  | onDigital (card : String)
  | onAnalog (card : String)

def NameForm.text : NameForm → String
  | analog => "ao(number)"
  | digital => "port(number)/line(number)"
  | ofCard k => "a channel of a " ++ k.text ++ " card"
  | onDigital c => "port(number)/line(number) on DO card " ++ c
  | onAnalog c => "ao(number) on AO card " ++ c

inductive NotCompiled where
  | edited
  | nothingToStream
  | noInstructions

def NotCompiled.text : NotCompiled → String
  | edited => "there are edits since the last compile, call compile() first"
  | nothingToStream => "no card has instructions to stream"
  | noInstructions => "no channel has any instructions and no stop_time was given"

/-- Roles and clocks that contradict each other or the registry. -/
inductive SyncFault where
  | lastUnknown (card : String) (registered : List String)
  | providerUnknown (card : String) (registered : List String)
  | providerImports (card source : String)
  | exportRate (card : String) (rate : Float)
  | importerExports (card : String)
  | lastGone (card : String)
  | providerGone (card : String)
  | bothWays (card : String)

def SyncFault.text : SyncFault → String
  | lastUnknown c r =>
    "starts_last names unregistered card " ++ c ++ ". Registered cards are " ++ quotedList r
  | providerUnknown c r =>
    "ref_clk_provider names unregistered card " ++ c ++ ". Registered cards are " ++ quotedList r
  | providerImports c s =>
    "card " ++ c ++ " imports its reference clock from " ++ s ++ " and cannot also export it"
  | exportRate c r =>
    "card " ++ c ++
      " can only export its 10 MHz reference clock, acknowledge by setting rate = 1e7 (got " ++
      plain r ++ ")"
  | importerExports c => "card " ++ c ++ " exports the reference clock and cannot also import it"
  | lastGone c => "starts_last names unregistered card " ++ c
  | providerGone c => "ref_clk_provider names unregistered card " ++ c
  | bothWays c => "card " ++ c ++ " both imports and exports the reference clock"

/-- What a worker did not do. -/
inductive WorkerFault where
  | noReport
  | died
  | otherFailed
  | notHeard
  | missedCommands (viewed posted : Nat)

def WorkerFault.text : WorkerFault → String
  | noReport => "worker thread exited without reporting"
  | died => "worker thread panicked"
  | otherFailed => "another card failed to start, not starting"
  | notHeard => "controller stopped listening to reports"
  | missedCommands v p =>
    "viewed msg count " ++ toString v ++ " diverged from the published command number " ++ toString p

/-- Everything that can go wrong, by cause. -/
inductive Error where
  | overlap (channel : String) (new existing : Booking)
  | range (fault : RangeFault)
  | duplicateCard (card : String)
  | duplicateChannel (card channel : String)
  | channelName (name : String) (expected : NameForm)
  | unknownCard (card : String) (registered : List String)
  | unknownChannel (card channel : String) (registered : List String)
  | wrongKind (card channel : String) (action : Action)
  | notCompiled (cause : NotCompiled)
  | sync (fault : SyncFault)
  | worker (card : String) (fault : WorkerFault)
  | backend (refused : Call)

def Error.message : Error → String
  | overlap ch n e =>
    "channel " ++ ch ++ ": instruction " ++ n.text ++ " overlaps with existing instruction " ++ e.text
  | range f => "invalid range: " ++ f.text
  | duplicateCard c => "card " ++ c ++ " is already registered"
  | duplicateChannel c ch => "channel " ++ ch ++ " is already registered on card " ++ c
  | channelName n e =>
    "expected channel name of format '" ++ e.text ++ "' yet received '" ++ n ++ "'"
  | unknownCard c r => "card " ++ c ++ " not found. Registered cards are " ++ quotedList r
  | unknownChannel c ch r =>
    "card " ++ c ++ " has no channel " ++ ch ++ ". Registered channels are " ++ quotedList r
  | wrongKind c ch a =>
    "channel " ++ c ++ "/" ++ ch ++ " does not accept " ++ a.name ++ " instructions"
  | notCompiled n => "not compiled: " ++ n.text
  | sync f => "invalid synchronization config: " ++ f.text
  | worker c f => "worker for card " ++ c ++ " failed: " ++ f.text
  | backend c => "backend error: injected failure on " ++ c.text

end Sequencer
