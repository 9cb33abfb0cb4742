import Sequencer.Error

namespace Sequencer

open Decimal (plain)
open Text (quotedList)

inductive Severity where
  | info
  | warn
  | error
  deriving DecidableEq

def Severity.text : Severity → String
  | info => "INFO"
  | warn => "WARN"
  | error => "ERROR"

def Severity.rank : Severity → Nat
  | info => 0
  | warn => 1
  | error => 2

inductive Speaker where
  | registry
  | controller
  | runner
  | worker
  | demo
  deriving DecidableEq

/-- The address under which a speaker's notices are filed. -/
def Speaker.address : Speaker → String
  | registry => "nistreamer_compiler::experiment"
  | controller => "nistreamer_ctrl::controller"
  | runner => "nistreamer_ctrl::runner"
  | worker => "nistreamer_ctrl::worker"
  | demo => "nistreamer_ctrl_bin"

/-- Outcome of a run: the repetitions that were played, and whether the run was cut short. -/
structure RunSummary where
  repetitions : Nat
  cancelled : Bool

inductive Notice where
  | registered (kind : CardKind) (card : String) (rate : Float)
  | lastRemoved (card : String)
  | providerRemoved (card : String)
  | stopRaised (stop last : Float)
  | compiled (cards : Nat) (stop runTime : Float)
  | lastIdle (card : String)
  | exporting (source target : String)
  | configured (cards : List String) (bufferMs : Float)
  | runClosed
  | closeFailed (e : Error)
  | cancelled (done planned : Nat)
  | finished (summary : RunSummary)
  | reportFailed (card : String) (e : Error)
  | workerStopped (card : String) (e : Error)
  | remark (text : String)

namespace Notice

def severity : Notice → Severity
  | lastRemoved _ | providerRemoved _ | stopRaised .. | lastIdle _ => .warn
  | closeFailed _ | reportFailed .. | workerStopped .. => .error
  | _ => .info

def speaker : Notice → Speaker
  | registered .. | lastRemoved _ | providerRemoved _ | stopRaised .. | compiled .. => .registry
  | lastIdle _ | exporting .. | configured .. | runClosed | closeFailed _ => .controller
  | cancelled .. | finished _ => .runner
  | reportFailed .. | workerStopped .. => .worker
  | remark _ => .demo

def text : Notice → String
  | registered k c r => "registered " ++ k.text ++ " card " ++ c ++ " at " ++ plain r ++ " Sa/s"
  | lastRemoved c => "removed card " ++ c ++ " was designated to start last; clearing"
  | providerRemoved c => "removed card " ++ c ++ " was the reference clock provider; clearing"
  | stopRaised s l =>
    "stop_time = " ++ plain s ++ " [s] is below the last instruction end " ++ plain l ++
      " [s], using the latter"
  | compiled n s r =>
    "compiled " ++ toString n ++ " cards, global stop time " ++ plain s ++
      " [s], total run time " ++ plain r ++ " [s]"
  | lastIdle c => "card " ++ c ++ " is designated to start last but has nothing to stream"
  | exporting s t => "exporting reference clock " ++ s ++ " -> " ++ t
  | configured cs ms =>
    "configured run on cards " ++ quotedList cs ++ " with " ++ plain ms ++ " ms buffers"
  | runClosed => "run closed"
  | closeFailed e => "closing run failed: " ++ e.message
  | cancelled d p => "run cancelled after " ++ toString d ++ " of " ++ toString p ++ " repetitions"
  | finished s =>
    "run finished: " ++ fieldsText "RunSummary"
      [("reps_done", toString s.repetitions), ("cancelled", toString s.cancelled)]
  | reportFailed c e => "card " ++ c ++ ": " ++ e.message
  | workerStopped c e => "card " ++ c ++ " worker stopped: " ++ e.message
  | remark t => t

/-- Severity, address and text, as notices of concurrent workers are sorted. -/
def key (n : Notice) : List String := [n.severity.text, n.speaker.address, n.text]

end Notice

/-- Workers speak at any time: their notices go last, sorted, so that the order does not depend on
the schedule. -/
def settledLog (log : List Notice) : List Notice :=
  log.filter (·.speaker != .worker) ++
    (log.filter (·.speaker == .worker)).mergeSort fun a b => !decide (b.key < a.key)

end Sequencer
