import Sequencer.Proofs.Run.Execution

namespace Sequencer

/-- What a backend says to a call. -/
def Backend.verdict (b : Backend) (c : Call) : Report :=
  if b.accepts c then .ok () else .error (.backend c)

/-- All that a run depends on besides what its owner asks for. -/
structure Plan where
  cards : List String
  bufferMs : Float
  heldBack : Option String := none
  refClock : Option Connection := none
  backend : Backend := {}
  some_card : cards ≠ []
  distinct : cards.Nodup

/-- What a sequential run tells its owner, and the calls that it makes. -/
structure Transcript where
  results : List Report
  calls : List Call

namespace Plan

def isHeld (p : Plan) (card : String) : Bool := p.heldBack == some card

/-- No card but the one held back fails to start. -/
def othersStart (p : Plan) : Bool :=
  p.cards.all fun c => p.isHeld c || p.backend.accepts (.start c)

/-- A card that does not start does not stream. -/
def perform (p : Plan) (card : String) (calcNext : Bool) : List Call × Report :=
  if p.backend.accepts (.start card) then
    ([.start card, .streamRun card calcNext], p.backend.verdict (.streamRun card calcNext))
  else ([.start card], .error (.backend (.start card)))

/-- The part of one card in a task: its calls, and what it reports. -/
def turn (p : Plan) (card : String) : Task → List Call × Report
  | .configure =>
    ([.configureRun card p.bufferMs], p.backend.verdict (.configureRun card p.bufferMs))
  | .stream calcNext =>
    if p.isHeld card && !p.othersStart then ([], .error (.worker card .otherFailed))
    else p.perform card calcNext
  | .close => ([.closeRun card], p.backend.verdict (.closeRun card))

/-- The card held back goes last. -/
def inTurn (p : Plan) : List String :=
  p.cards.filter (!p.isHeld ·) ++ p.cards.filter (p.isHeld ·)

/-- The calls of a task, one card after another. -/
def round (p : Plan) (t : Task) : List Call := p.inTurn.flatMap fun c => (p.turn c t).1

/-- The first error that these cards report, in the order in which the cards are listed. -/
def firstError (p : Plan) (cards : List String) (t : Task) : Option Error :=
  (cards.map fun c => (p.turn c t).2).foldl Run.keepFirst none

def result (p : Plan) (t : Task) : Report := Run.asReport (p.firstError p.cards t)

def connectCalls (p : Plan) : List Call :=
  match p.refClock with
  | some (source, target) => [.connect source target]
  | none => []

def disconnectCalls (p : Plan) : List Call :=
  match p.refClock with
  | some (source, target) => [.disconnect source target]
  | none => []

/-- The verdict on calls of which there is at most one. -/
def verdictOn (p : Plan) (cs : List Call) : Report :=
  match cs with
  | c :: _ => p.backend.verdict c
  | [] => .ok ()

/-- The first error of closing all cards and taking back the connection. -/
def closeError (p : Plan) : Option Error :=
  Run.keepFirst (p.firstError p.cards .close) (p.verdictOn p.disconnectCalls)

/-- Connect, configure every card, play the repetitions, close every card, disconnect. A run that
could not be configured is closed at once. -/
def sequential (p : Plan) (repetitions : List Bool) (dropped : Bool) : Transcript :=
  match p.verdictOn p.connectCalls with
  | .error e => ⟨[.error e], p.connectCalls⟩
  | .ok () =>
    let opening := p.connectCalls ++ p.round .configure
    let closing := p.round .close ++ p.disconnectCalls
    match p.firstError p.cards .configure with
    | some e => ⟨[.error e], opening ++ closing⟩
    | none =>
      ⟨.ok () :: repetitions.map (fun q => p.result (.stream q)) ++
          [if dropped then .ok () else Run.asReport p.closeError],
        opening ++ repetitions.flatMap (fun q => p.round (.stream q)) ++ closing⟩

/-- What the owner asks for: some repetitions, and then the end. -/
def script (repetitions : List Bool) (dropped : Bool) : List Request :=
  repetitions.map .stream ++ [if dropped then .drop else .close]

/-- The run as it begins. -/
def start (p : Plan) (script : List Request) : Run :=
  { cards := p.cards, bufferMs := p.bufferMs, heldBack := p.heldBack, refClock := p.refClock,
    stage := { backend := p.backend }, script }

end Plan

end Sequencer
