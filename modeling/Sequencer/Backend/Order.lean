import Sequencer.Backend.Call

namespace Sequencer.Call

/-- The part of a run in which workers make a call, and the device they make it for. -/
def lifecycle? : Call → Option (Nat × String)
  | configureRun d _ => some (0, d)
  | start d | streamRun d _ => some (1, d)
  | closeRun d => some (2, d)
  | _ => none

def phase? (c : Call) : Option Nat := c.lifecycle?.map (·.1)

def device (c : Call) : String := (c.lifecycle?.map (·.2)).getD ""

def isStart : Call → Bool
  | start _ => true
  | _ => false

/-- How often each call's kind and device occurred before it. -/
def occurrences : List Call → List Call → List (Nat × Call)
  | _, [] => []
  | seen, c :: rest =>
    (seen.countP fun d => d.name == c.name && d.device == c.device, c) ::
      occurrences (c :: seen) rest

/-- By occurrence, starts before the streaming calls, then by device. -/
def blockOrder (a b : Nat × Call) : Ordering :=
  ((compare a.1 b.1).then (compare (!a.2.isStart) (!b.2.isStart))).then
    (compare a.2.device b.2.device)

def sortBlock (block : List Call) : List Call :=
  ((occurrences [] block).mergeSort fun a b => blockOrder a b != .gt).map (·.2)

/-- Collects a block of calls of one phase, in reverse, until a call of another kind ends it. -/
def settleFrom (phase : Option Nat) (block : List Call) : List Call → List Call
  | [] => sortBlock block.reverse
  | c :: rest =>
    match c.phase? with
    | none => sortBlock block.reverse ++ c :: settleFrom none [] rest
    | some p =>
      if phase = some p then settleFrom phase (c :: block) rest
      else sortBlock block.reverse ++ settleFrom (some p) [c] rest

/-- Sorts every block of calls of one phase; all other calls stay in place. -/
def settled (calls : List Call) : List Call := settleFrom none [] calls

def startedDevices (calls : List Call) : List String :=
  calls.filterMap fun | start d => some d | _ => none

/-- Every start of `held` came when each device that starts at all had as many starts behind it as
`held` then had, itself included. -/
def heldBackFrom (held : String) (devices seen : List String) : List Call → Bool
  | [] => true
  | start d :: rest =>
    let seen := d :: seen
    (d != held || devices.all fun e => seen.count e == seen.count held) &&
      heldBackFrom held devices seen rest
  | _ :: rest => heldBackFrom held devices seen rest

/-- Whether a card was always the last to start; none if it never started. -/
def startsLast? (held : String) (calls : List Call) : Option Bool :=
  let devices := (startedDevices calls).eraseDups
  if devices.contains held then some (heldBackFrom held devices [] calls) else none

end Sequencer.Call
