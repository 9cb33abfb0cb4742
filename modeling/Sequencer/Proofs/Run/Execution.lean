import Sequencer.Backend.Order
import Sequencer.Run.Controller

namespace Sequencer

/-- What all workers of a run are at between two commands. -/
inductive Task where
  | configure
  | stream (calcNext : Bool)
  | close
  deriving DecidableEq

def Task.ofCommand : Command → Task
  | .stream calcNext _ => .stream calcNext
  | .close => .close

/-- The reports collected for a task are about it. -/
def Task.duty : Task → Duty
  | .configure => .configure
  | .stream _ => .stream
  | .close => .close

/-- The card whose worker makes a call. Other calls of a run are made by its controller. -/
def Call.maker? (c : Call) : Option String := c.lifecycle?.map (·.2)

/-- The calls of one worker, or of the controller. -/
def Call.madeBy (maker : Option String) (cs : List Call) : List Call :=
  cs.filter (·.maker? == maker)

@[simp] theorem Call.madeBy_append (maker : Option String) (cs ds : List Call) :
    madeBy maker (cs ++ ds) = madeBy maker cs ++ madeBy maker ds := List.filter_append ..

theorem Call.madeBy_eq_self {maker : Option String} {cs : List Call}
    (h : ∀ c ∈ cs, c.maker? = maker) : madeBy maker cs = cs :=
  List.filter_eq_self.mpr fun c hc => by simp [h c hc]

theorem Call.madeBy_eq_nil {maker : Option String} {cs : List Call}
    (h : ∀ c ∈ cs, c.maker? ≠ maker) : madeBy maker cs = [] :=
  List.filter_eq_nil_iff.mpr fun c hc => by simpa using h c hc

inductive Event where
  /-- A command was posted to the workers. -/
  | begun (t : Task)
  | call (c : Call)
  /-- A worker reported. -/
  | report (card : String) (r : Report)
  /-- The owner of the run was told a result. -/
  | told (r : Report)

namespace Event

/-- The card whose worker an event comes from. -/
def card? : Event → Option String
  | call c => c.maker?
  | report card _ => some card
  | _ => none

def isOf (card : String) (e : Event) : Bool := e.card? == some card

def call? : Event → Option Call
  | call c => some c
  | _ => none

def report? : Event → Option Report
  | report _ r => some r
  | _ => none

/-- The events of one worker, in order. -/
def own (card : String) (es : List Event) : List Event := es.filter (isOf card)

def calls (es : List Event) : List Call := es.filterMap call?

def reports (es : List Event) : List Report := es.filterMap report?

@[simp] theorem own_append (card : String) (es fs : List Event) :
    own card (es ++ fs) = own card es ++ own card fs := List.filter_append ..

@[simp] theorem calls_append (es fs : List Event) : calls (es ++ fs) = calls es ++ calls fs :=
  List.filterMap_append ..

@[simp] theorem reports_append (es fs : List Event) :
    reports (es ++ fs) = reports es ++ reports fs := List.filterMap_append ..

@[simp] theorem calls_nil : calls [] = [] := rfl

@[simp] theorem calls_call (c : Call) (es : List Event) :
    calls (call c :: es) = c :: calls es := rfl

theorem calls_begun (t : Task) (es : List Event) : calls (begun t :: es) = calls es := rfl

@[simp] theorem calls_report (card : String) (r : Report) (es : List Event) :
    calls (report card r :: es) = calls es := rfl

@[simp] theorem calls_told (r : Report) (es : List Event) : calls (told r :: es) = calls es := rfl

@[simp] theorem calls_map_call (cs : List Call) : calls (cs.map call) = cs := by
  induction cs with
  | nil => rfl
  | cons c cs ih => rw [List.map_cons, calls_call, ih]

theorem own_eq_self {card : String} {es : List Event} (h : ∀ e ∈ es, e.card? = some card) :
    own card es = es :=
  List.filter_eq_self.mpr fun e he => by simp [isOf, h e he]

theorem own_eq_nil {card : String} {es : List Event} (h : ∀ e ∈ es, e.card? ≠ some card) :
    own card es = [] :=
  List.filter_eq_nil_iff.mpr fun e he => by simpa [isOf] using h e he

theorem mem_own {card : String} {e : Event} {es : List Event} :
    e ∈ own card es ↔ e ∈ es ∧ e.card? = some card := by
  simp [own, isOf]

end Event

namespace Run

/-- The reports a worker added to its outbox. -/
def reported (index : Nat) (r r' : Run) : List Event :=
  match r.crew[index]?, r'.crew[index]? with
  | some w, some w' => (w'.outbox.drop w.outbox.length).map (.report w.card)
  | _, _ => []

/-- What can be seen of a step: what came to the board, the call log, the outbox of the worker that
took the step, and the results. -/
def shown (a : Actor) (r r' : Run) : List Event :=
  (if r.stage.bulletin.posted < r'.stage.bulletin.posted then
    [.begun (.ofCommand r'.stage.bulletin.latest)] else []) ++
  (r'.stage.backend.calls.drop r.stage.backend.calls.length).map .call ++
  (match a with
    | .controller => []
    | .worker index => reported index r r') ++
  (r'.results.drop r.results.length).map .told

/-- Some interleaving of the actors shows these events on the way from `start`. -/
inductive Leads (start : Run) : List Event → Run → Prop
  | start : Leads start [] start
  | step {events : List Event} {r r' : Run} (a : Actor) (before : Leads start events r)
      (next : r.step a = some r') : Leads start (events ++ r.shown a r') r'

/-- No actor can go on. -/
def AtRest (r : Run) : Prop := ∀ a, r.step a = none

theorem Leads.trans {r₁ r₂ r₃ : Run} {es fs : List Event} (h : Leads r₁ es r₂)
    (h' : Leads r₂ fs r₃) : Leads r₁ (es ++ fs) r₃ := by
  induction h' with
  | start => simpa using h
  | step a _ next ih => simpa [List.append_assoc] using Leads.step a ih next

/-- Lets these actors take a step each, as far as they are not blocked or over. -/
def follow : List Actor → Run → List Event × Run
  | [], r => ([], r)
  | a :: actors, r =>
    match r.step a with
    | some r' => (r.shown a r' ++ (follow actors r').1, (follow actors r').2)
    | none => follow actors r

theorem leads_follow (actors : List Actor) (r : Run) :
    r.Leads (r.follow actors).1 (r.follow actors).2 := by
  induction actors generalizing r with
  | nil => exact .start
  | cons a actors ih =>
    unfold follow
    cases next : r.step a with
    | none => exact ih r
    | some r' => exact (Leads.step a .start next).trans (ih r')

/-- A step of the controller that posts nothing. -/
theorem shown_controller {r r' : Run} {calls : List Call} {results : List Report}
    (hb : r'.stage.bulletin = r.stage.bulletin)
    (hc : r'.stage.backend.calls = r.stage.backend.calls ++ calls)
    (hr : r'.results = r.results ++ results) :
    r.shown .controller r' = calls.map .call ++ results.map .told := by
  simp [shown, hb, hc, hr]

theorem shown_silent {r r' : Run} (hb : r'.stage.bulletin = r.stage.bulletin)
    (hc : r'.stage.backend = r.stage.backend) (hr : r'.results = r.results) :
    r.shown .controller r' = [] := by
  simp [shown, hb, hc, hr]

theorem shown_told {r r' : Run} {result : Report} (hb : r'.stage.bulletin = r.stage.bulletin)
    (hc : r'.stage.backend = r.stage.backend) (hr : r'.results = r.results ++ [result]) :
    r.shown .controller r' = [.told result] := by
  simp [shown, hb, hc, hr]

theorem shown_called {r r' : Run} {c : Call} (hb : r'.stage.bulletin = r.stage.bulletin)
    (hc : r'.stage.backend.calls = r.stage.backend.calls ++ [c]) (hr : r'.results = r.results) :
    r.shown .controller r' = [.call c] := by
  simp [shown, hb, hc, hr]

theorem shown_post {r r' : Run} {c : Command} (hb : r'.stage.bulletin = r.stage.bulletin.post c)
    (hc : r'.stage.backend = r.stage.backend) (hr : r'.results = r.results) :
    r.shown .controller r' = [.begun (.ofCommand c)] := by
  simp [shown, hb, hc, hr, Bulletin.post]

theorem shown_worker {r : Run} {index : Nat} {w w' : Worker} {s : Stage} {calls : List Call}
    {reports : List Report} (hw : r.crew[index]? = some w)
    (hb : s.bulletin = r.stage.bulletin)
    (hc : s.backend.calls = r.stage.backend.calls ++ calls)
    (ho : w'.outbox = w.outbox ++ reports) :
    r.shown (.worker index) { r with stage := s, crew := r.crew.set index w' } =
      calls.map .call ++ reports.map (.report w.card) := by
  have hlt : index < r.crew.length := (List.getElem?_eq_some_iff.mp hw).1
  have hset : (r.crew.set index w')[index]? = some w' := by simp [hlt]
  simp only [shown, reported, hb, hc, hw, hset, ho, Nat.lt_irrefl, ↓reduceIte, List.nil_append,
    List.drop_left, List.drop_length, List.map_nil, List.append_nil]

/-- A step of a worker changes that worker and what all share. -/
theorem workerStep_eq {r r' : Run} {index : Nat} (next : r.workerStep index = some r') :
    ∃ w w' s', r.crew[index]? = some w ∧ w.step r.stage = some (w', s') ∧
      r' = { r with stage := s', crew := r.crew.set index w' } := by
  cases hw : r.crew[index]? with
  | none => simp [workerStep, hw] at next
  | some w =>
    cases hstep : w.step r.stage with
    | none => simp [workerStep, hw, hstep] at next
    | some ws => exact ⟨w, ws.1, ws.2, rfl, hstep, by simpa [workerStep, hw, hstep] using next.symm⟩

end Run

end Sequencer
