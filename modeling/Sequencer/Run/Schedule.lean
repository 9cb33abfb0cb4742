import Sequencer.Run.Controller

namespace Sequencer

/-- Steps of a worker still to come if nothing more is posted. -/
def Worker.weight (posted : Nat) (w : Worker) : Nat :=
  if w.isOver then 0 else w.phase.weight + 7 * (posted - w.viewed)

def Worker.settleFor : Nat → Worker → Stage → Worker × Stage
  | 0, w, s => (w, s)
  | n + 1, w, s =>
    match w.step s with
    | some (w, s) => settleFor n w s
    | none => (w, s)

/-- Plays a worker alone until it can not go on. -/
def Worker.settle (w : Worker) (s : Stage) : Worker × Stage :=
  settleFor (w.weight s.bulletin.posted) w s

namespace Run

/-- The workers a run has or is about to have. -/
def size (r : Run) : Nat :=
  match r.control with
  | .connect => r.cards.length
  | .hire waiting => r.crew.length + waiting.length
  | _ => r.crew.length

def closeWeight (size : Nat) : Nat := 9 * size + 5

def scriptWeight (size : Nat) (script : List Request) : Nat :=
  script.length * (closeWeight size + 1)

def controlWeight (size : Nat) (script : List Request) : Control → Nat
  | .connect => 1 + 4 * size + 1 + (size + 2 + closeWeight size + scriptWeight size script)
  | .hire waiting =>
    4 * waiting.length + 1 + (size + 2 + closeWeight size + scriptWeight size script)
  | .collect .configure i _ => size - i + 2 + closeWeight size + scriptWeight size script
  | .collect .stream i _ => size - i + 1 + scriptWeight size script
  | .collect .close i _ => size - i + 1 + (size + 3)
  | .ready => scriptWeight size script
  | .join i _ => size - i + 2
  | .disconnect _ => 1
  | .over => 0

/-- Steps of all workers still to come if nothing more is posted. -/
def crewWeight (posted : Nat) : List Worker → Nat
  | [] => 0
  | w :: crew => w.weight posted + crewWeight posted crew

/-- An upper bound on the steps to come. -/
def weight (r : Run) : Nat :=
  controlWeight r.size r.script r.control + crewWeight r.stage.bulletin.posted r.crew

/-- The order in which actors are offered the next step. -/
def schedule (r : Run) : List Actor :=
  let indices := List.range r.crew.length
  let held (i : Nat) : Bool := (r.crew[i]?.map fun w => w.heldBack).getD false
  (indices.filter (!held ·)).map .worker ++ (indices.filter held).map .worker ++ [.controller]

def advance (r : Run) : Option Run := r.schedule.findSome? (r.step ·)

def settleFor : Nat → Run → Run
  | 0, r => r
  | n + 1, r =>
    match r.advance with
    | some r => settleFor n r
    | none => r

/-- Plays until nothing can go on. -/
def settle (r : Run) : Run := settleFor r.weight r

end Run

end Sequencer
