import Sequencer.Run.Stage

namespace Sequencer

abbrev Report := Except Error Unit

/-- What a worker does next. -/
inductive Phase where
  | configure
  | listen
  /-- The card held back waits until all the others were told to start. -/
  | gate (calcNext : Bool) (latch : Nat)
  | start (calcNext : Bool) (latch : Option Nat)
  | countDown (calcNext : Bool) (latch : Nat) (started : Report)
  | stream (calcNext : Bool)
  | close
  | report (r : Report) (last : Bool)
  | ended
  | died

/-- An upper bound on the steps before a worker in this phase listens again or is over, and then
listens once more in vain. -/
def Phase.weight : Phase → Nat
  | .configure => 3
  | .listen => 1
  | .gate .. => 6
  | .start .. => 5
  | .countDown .. => 4
  | .stream _ => 3
  | .close => 3
  | .report .. => 2
  | .ended | .died => 0

/-- The worker of a card sets the card up, then plays a repetition or closes the card whenever it is
told to, and reports on each. A failure is reported and does not end the work. -/
structure Worker where
  card : String
  bufferMs : Float
  heldBack : Bool := false
  /-- Commands seen so far. -/
  viewed : Nat := 0
  phase : Phase := .configure
  /-- Reports sent and not yet collected. -/
  outbox : List Report := []
  /-- Someone still collects reports. -/
  heard : Bool := true

namespace Worker

def isOver (w : Worker) : Bool :=
  match w.phase with
  | .ended | .died => true
  | _ => false

/-- After the start call: go on to stream, or report why not. -/
def afterStart (calcNext : Bool) (started : Report) : Phase :=
  match started with
  | .ok () => .stream calcNext
  | .error e => .report (.error e) false

def take (c : Command) (w : Worker) : Worker :=
  { w with
    viewed := w.viewed + 1
    phase :=
      match c with
      | .stream calcNext latch =>
        if w.heldBack then .gate calcNext latch else .start calcNext (some latch)
      | .close => .close }

def stop (fault : WorkerFault) (w : Worker) (s : Stage) : Worker × Stage :=
  ({ w with phase := .ended }, s.note (.workerStopped w.card (.worker w.card fault)))

def noteFailure (w : Worker) (r : Report) (s : Stage) : Stage :=
  match r with
  | .ok () => s
  | .error e => s.note (.reportFailed w.card e)

def send (r : Report) (last : Bool) (w : Worker) (s : Stage) : Worker × Stage :=
  let s := w.noteFailure r s
  if w.heard then
    ({ w with outbox := w.outbox ++ [r], phase := if last then .ended else .listen }, s)
  else w.stop .notHeard s

def listen (w : Worker) (s : Stage) : Option (Worker × Stage) :=
  match s.bulletin.read w.viewed with
  | .nothing => none
  | .command c => some (w.take c, s)
  | .missed => some (w.stop (.missedCommands w.viewed s.bulletin.posted) s)

def passGate (calcNext : Bool) (latch : Nat) (w : Worker) (s : Stage) : Option (Worker × Stage) :=
  if (s.latch latch).isOpen then
    let next : Phase :=
      if (s.latch latch).allStarted then .start calcNext none
      else .report (.error (.worker w.card .otherFailed)) false
    some ({ w with phase := next }, s)
  else none

def callStart (calcNext : Bool) (latch : Option Nat) (w : Worker) (s : Stage) : Worker × Stage :=
  let (started, s) := s.issue (.start w.card)
  let next : Phase :=
    match latch with
    | some l => .countDown calcNext l started
    | none => afterStart calcNext started
  ({ w with phase := next }, s)

def callStream (calcNext : Bool) (w : Worker) (s : Stage) : Worker × Stage :=
  let entered := s.enterStream w.card
  if s.dies w.card then ({ w with phase := .died }, entered)
  else
    let (r, s) := entered.issue (.streamRun w.card calcNext)
    ({ w with phase := .report r false }, s)

/-- The next step of a worker, if it is not blocked or over. -/
def step (w : Worker) (s : Stage) : Option (Worker × Stage) :=
  match w.phase with
  | .configure =>
    let (r, s) := s.issue (.configureRun w.card w.bufferMs)
    some ({ w with phase := .report r false }, s)
  | .listen => w.listen s
  | .gate calcNext latch => w.passGate calcNext latch s
  | .start calcNext latch => some (w.callStart calcNext latch s)
  | .countDown calcNext latch started =>
    some ({ w with phase := afterStart calcNext started }, s.countDown latch started.isOk)
  | .stream calcNext => some (w.callStream calcNext s)
  | .close =>
    let (r, s) := s.issue (.closeRun w.card)
    some ({ w with phase := .report r true }, s)
  | .report r last => some (w.send r last s)
  | .ended | .died => none

end Worker

end Sequencer
