import Sequencer.Card.Summary
import Sequencer.Session.Compiling
import Sequencer.Session.Instructing
import Sequencer.Session.Registration
import Sequencer.Session.Streaming
import Sequencer.Session.Synchronizing

namespace Sequencer.Demo

open Session Job
open Decimal (plain)

def registerCards : Job Unit := do
  addCard "PXI1Slot3" .analog 1e6
  addCard "PXI1Slot4" .analog 1e6
  addCard "PXI1Slot6" .digital 1e7
  resetAll

/-- The first card gives the start trigger and the reference clock, and so it starts last. The
digital card is clocked from the backplane. -/
def synchronize : Job Unit := do
  configureStartTrig "PXI1Slot3" "PXI_Trig0" true
  configureRefClock "PXI1Slot3" "PXI_Trig7" 1e7 true
  configureStartTrig "PXI1Slot4" "PXI_Trig0" false
  configureRefClock "PXI1Slot4" "PXI_Trig7" 1e7 false
  configureStartTrig "PXI1Slot6" "PXI_Trig0" false
  configureSampleClockIn "PXI1Slot6" (some "PXI_Trig7")
  setStartsLast (some "PXI1Slot3")

def instructAnalog (card channel : String) : Job Unit := do
  let _ ← addInstruction card channel (.lasting 0 1 true (.sine { amplitude := 2, frequency := 5 }))
  let _ ← addInstruction card channel (.lasting 10 (1 - 1e-6) false (.constant 5))

def instructDigital (card channel : String) : Job Unit := do
  let _ ← addInstruction card channel (.lasting 0 1 false .high)
  let _ ← addInstruction card channel (.lasting 10 (1 - 2e-6) false .high)

def instruct : Job Unit := do
  let ao3 ← addAnalogChannel "PXI1Slot3" 0 0
  let ao4 ← addAnalogChannel "PXI1Slot4" 0 0
  let line0 ← addDigitalChannel "PXI1Slot6" 0 0 false false
  let line1 ← addDigitalChannel "PXI1Slot6" 0 1 false false
  instructAnalog "PXI1Slot3" ao3
  instructAnalog "PXI1Slot4" ao4
  instructDigital "PXI1Slot6" line0
  instructDigital "PXI1Slot6" line1

def play : Job Unit := do
  let stop ← compile (some 11)
  let program ← ofExcept (← readRegistry).current?
  note (.remark ("compiled, stop time " ++ plain stop ++ " s, run time " ++ plain program.runTime ++
    " s"))
  note (.remark (← requireCard "PXI1Slot3").summary)
  let summary ← stream { bufferMs := 50, repetitions := 2 } [] false
  note (.remark ("streamed " ++ toString summary.repetitions ++ " repetitions, " ++
    toString (← get).backend.calls.length ++ " backend calls recorded"))

def script : Job Unit := do
  registerCards
  synchronize
  instruct
  play

/-- The least severity that is shown; none shows nothing. -/
def threshold? : String → Option Severity
  | "info" => some .info
  | "warn" => some .warn
  | "error" => some .error
  | _ => none

def line (n : Notice) : String :=
  n.severity.text ++ " " ++ n.speaker.address ++ ": " ++ n.text

/-- The lines shown and the exit status. -/
def output (filter : String) : List String × Nat :=
  let (result, s) := script.run.run {}
  let shown := (settledLog s.log).filter fun n =>
    match threshold? filter with
    | some least => least.rank ≤ n.severity.rank
    | none => false
  ((shown.map line).flatMap (·.splitOn "\n"), if result.isOk then 0 else 1)

end Sequencer.Demo
