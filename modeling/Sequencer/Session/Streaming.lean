import Sequencer.Run.Schedule
import Sequencer.Run.Settings
import Sequencer.Session

namespace Sequencer.Session

open Job

/-- The card to hold back: a card with nothing to stream is not waited for. -/
def heldBack (r : Registry) (active : List String) : Option String :=
  r.roles.startsLast.filter active.contains

def idleNotice? (r : Registry) (active : List String) : Option Notice :=
  r.roles.startsLast.bind fun c => if active.contains c then none else some (.lastIdle c)

/-- The exporter's own terminals. -/
def refClock (r : Registry) : Option Connection :=
  r.roles.provider.map fun (card, terminal) =>
    ("/" ++ card ++ "/10MHzRefClock", "/" ++ card ++ "/" ++ terminal)

/-- The active cards of a run that may begin. -/
def checkRun (r : Registry) (bufferMs : Float) : Except Error (List String) := do
  if !bufferMs.isFinite || bufferMs ≤ 0 then throw (.range (.bufferSize bufferMs))
  let active := (← r.current?).activeCards
  if active.isEmpty then throw (.notCompiled .nothingToStream)
  r.checkRoles
  return active

/-- Lends the backend and the log to a run until it comes to rest. Gives the run and the last thing
it told its owner. -/
def lend (r : Run) : Job (Run × Report) := do
  let s ← get
  let rested := { r with stage := { r.stage with backend := s.backend, log := s.log } }.settle
  set { s with backend := rested.stage.backend, log := rested.stage.log }
  return (rested, rested.results.getLast?.getD (.ok ()))

/-- Sets up one worker for each active card. What was set up before a failure is taken back. -/
def configureRun (bufferMs : Float) (incidents : List Incident) (cancelled : Bool) : Job Run := do
  let r ← readRegistry
  let cards ← ofExcept (checkRun r bufferMs)
  if let some n := idleNotice? r cards then note n
  let stage : Stage := { incidents, cancelled }
  let (run, told) ←
    lend { cards, bufferMs, heldBack := heldBack r cards, refClock := refClock r, stage }
  ofExcept told
  return run

def request (q : Request) (r : Run) : Job (Run × Report) := lend { r with script := [q] }

/-- Plays up to `left` more repetitions and stops at the first failure. Every repetition but the
last of the `planned` ones prepares the next. -/
def repeatStream (planned : Nat) : Nat → Nat → Run → Job (Run × RunSummary × Report)
  | done, 0, r => return (r, ⟨done, false⟩, .ok ())
  | done, left + 1, r => do
    if r.stage.cancelled then
      note (.cancelled done planned)
      return (r, ⟨done, true⟩, .ok ())
    let (r, told) ← request (.stream (done + 1 < planned)) r
    match told with
    | .ok () => repeatStream planned (done + 1) left r
    | .error e => return (r, ⟨done, false⟩, .error e)

/-- One whole run. A failed repetition counts for more than a failure to close. -/
def stream (settings : RunSettings) (incidents : List Incident) (cancelled : Bool) :
    Job RunSummary := do
  let run ← configureRun settings.bufferMs incidents cancelled
  let (run, summary, streamed) ← repeatStream settings.repetitions 0 settings.repetitions run
  let (_, closed) ← request .close run
  ofExcept streamed
  ofExcept closed
  note (.finished summary)
  return summary

end Sequencer.Session
