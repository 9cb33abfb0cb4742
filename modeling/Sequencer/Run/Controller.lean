import Sequencer.Run.Worker

namespace Sequencer

/-- What the owner of a configured run asks for. A run that is dropped is closed as well, but the
owner hears of no failure. A run is closed once: giving up one that was closed already does nothing,
so that nothing is asked of it after `close` or `drop`. -/
inductive Request where
  | stream (calcNext : Bool)
  | close
  | drop

/-- What the reports being collected are about. -/
inductive Duty where
  | configure
  | stream
  | close
  deriving DecidableEq

/-- What the controller does next. It collects reports and joins workers in the order of the crew,
and keeps the first error. -/
inductive Control where
  | connect
  | hire (waiting : List String)
  | collect (duty : Duty) (index : Nat) (first : Option Error)
  | ready
  | join (index : Nat) (first : Option Error)
  | disconnect (first : Option Error)
  | over

/-- How a run is left: closed on request, or given up, with the error to tell the owner if any. -/
inductive Ending where
  | closed
  | dropped (failure : Option Error)

inductive Actor where
  | controller
  | worker (index : Nat)
  deriving DecidableEq

/-- The controller, a worker for each active card, and what they share. Every step belongs to one of
them, so that an execution is a sequence of steps of the actors in any order. -/
structure Run where
  cards : List String
  bufferMs : Float
  heldBack : Option String := none
  /-- The terminals between which the reference clock is exported during the run. -/
  refClock : Option Connection := none
  connected : Bool := false
  crew : List Worker := []
  stage : Stage := {}
  control : Control := .connect
  script : List Request := []
  ending : Ending := .closed
  /-- What the owner was told: of the configuration, of each repetition, of the end. -/
  results : List Report := []

namespace Run

def isHeldBack (r : Run) (card : String) : Bool := r.heldBack == some card

def asReport (first : Option Error) : Report :=
  match first with
  | none => .ok ()
  | some e => .error e

def keepFirst (first : Option Error) (r : Report) : Option Error :=
  match first, r with
  | some e, _ => some e
  | none, .ok () => none
  | none, .error e => some e

def tell (r : Run) (result : Report) : Run := { r with results := r.results ++ [result] }

/-- Tells every worker to close. -/
def beginClose (ending : Ending) (r : Run) : Run :=
  { r with
    ending
    control := .collect .close 0 none
    stage := if r.crew.isEmpty then r.stage else r.stage.post .close }

def connect (r : Run) : Run :=
  match r.refClock with
  | none => { r with control := .hire r.cards }
  | some (source, target) =>
    match r.stage.issue (.connect source target) with
    | (.ok (), stage) =>
      { r with
        connected := true
        control := .hire r.cards
        stage := stage.note (.exporting source target) }
    | (.error e, stage) => { r with stage }.beginClose (.dropped (some e))

/-- Workers see the commands posted after they were hired. -/
def newWorker (r : Run) (card : String) : Worker :=
  { card, bufferMs := r.bufferMs, heldBack := r.isHeldBack card, viewed := r.stage.bulletin.posted }

/-- There is a thread for every worker: that the system refuses to start one, or a card name that cannot
name a thread, is left out of account. -/
def hire (r : Run) : List String → Run
  | [] => { r with control := .collect .configure 0 none }
  | card :: waiting =>
    { r with crew := r.crew ++ [r.newWorker card], control := .hire waiting }

/-- The cards that count down the start latch. -/
def startCount (r : Run) : Nat := r.crew.countP fun w => !r.isHeldBack w.card

def beginStream (calcNext : Bool) (r : Run) : Run :=
  let stage := (r.stage.addLatch r.startCount).post (.stream calcNext r.stage.latches.length)
  { r with stage, control := .collect .stream 0 none }

def afterCollect (duty : Duty) (first : Option Error) (r : Run) : Run :=
  match duty, first with
  | .configure, none =>
    { r with
      control := .ready
      stage := r.stage.note (.configured r.cards r.bufferMs) }.tell (.ok ())
  | .configure, some e => r.beginClose (.dropped (some e))
  | .stream, first => { r with control := .ready }.tell (asReport first)
  | .close, first => { r with control := .join 0 first }

/-- Takes the oldest report of a worker; one that is over without a report counts as a failure. -/
def collect (duty : Duty) (index : Nat) (first : Option Error) (r : Run) : Option Run :=
  match r.crew[index]? with
  | none => some (r.afterCollect duty first)
  | some w =>
    match w.outbox with
    | report :: rest =>
      some { r with
        crew := r.crew.set index { w with outbox := rest }
        control := .collect duty (index + 1) (keepFirst first report) }
    | [] =>
      if w.isOver then
        let missing : Report := .error (.worker w.card .noReport)
        some { r with control := .collect duty (index + 1) (keepFirst first missing) }
      else none

def serve (r : Run) : Option Run :=
  match r.script with
  | [] => none
  | .stream calcNext :: script => some ({ r with script }.beginStream calcNext)
  | .close :: script => some ({ r with script }.beginClose .closed)
  | .drop :: script => some ({ r with script }.beginClose (.dropped none))

def join (index : Nat) (first : Option Error) (r : Run) : Option Run :=
  match r.crew[index]? with
  | none => some { r with control := .disconnect first }
  | some w =>
    match w.phase with
    | .ended => some { r with control := .join (index + 1) first }
    | .died =>
      some { r with
        control := .join (index + 1) (keepFirst first (.error (.worker w.card .died))) }
    | _ => none

/-- The last words: the failure that ended the run goes before one of closing it. -/
def farewell (first : Option Error) (r : Run) : Run :=
  let r := { r with control := .over, stage := r.stage.note .runClosed }
  match r.ending, first with
  | .closed, first => r.tell (asReport first)
  | .dropped failure, none => r.tell (asReport failure)
  | .dropped failure, some e =>
    { r with stage := r.stage.note (.closeFailed e) }.tell (asReport failure)

def disconnect (first : Option Error) (r : Run) : Run :=
  match r.connected, r.refClock with
  | true, some (source, target) =>
    let (report, stage) := r.stage.issue (.disconnect source target)
    { r with stage, connected := false }.farewell (keepFirst first report)
  | _, _ => r.farewell first

def controllerStep (r : Run) : Option Run :=
  match r.control with
  | .connect => some r.connect
  | .hire waiting => some (r.hire waiting)
  | .collect duty index first => r.collect duty index first
  | .ready => r.serve
  | .join index first => r.join index first
  | .disconnect first => some (r.disconnect first)
  | .over => none

def workerStep (index : Nat) (r : Run) : Option Run := do
  let w ← r.crew[index]?
  let (w, stage) ← w.step r.stage
  some { r with stage, crew := r.crew.set index w }

/-- The next step of an actor, if it is not blocked or over. -/
def step (a : Actor) (r : Run) : Option Run :=
  match a with
  | .controller => r.controllerStep
  | .worker index => r.workerStep index

/-- Whether the run waits for its owner. -/
def isReady (r : Run) : Bool :=
  match r.control with
  | .ready => true
  | _ => false

end Run

end Sequencer
