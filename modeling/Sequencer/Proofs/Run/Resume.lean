import Sequencer.Proofs.Run.Confluence

namespace Sequencer

/-- What stands around a run: earlier entries on the log, the incidents to come, the cancel token,
and what the owner asks for later. -/
structure Surroundings where
  log : List Notice := []
  incidents : List Incident := []
  cancelled : Bool := false
  asked : List Request := []

namespace Stage

variable {s : Stage}

/-- What the actors of a run look at, as long as no worker dies. -/
def quiet (s : Stage) : Stage := { s with log := [], incidents := [], cancelled := false }

theorem quiet_eq_iff {t : Stage} : s.quiet = t.quiet ↔
    s.backend = t.backend ∧ s.bulletin = t.bulletin ∧ s.latches = t.latches := by
  simp [quiet]

def dress (d : Surroundings) (s : Stage) : Stage :=
  { s with log := d.log ++ s.log, incidents := d.incidents, cancelled := d.cancelled }

/-- The surroundings of a stage as it is. -/
def surroundings (s : Stage) : Surroundings :=
  { log := s.log, incidents := s.incidents, cancelled := s.cancelled }

theorem dress_quiet (s : Stage) : s.quiet.dress s.surroundings = s := by
  simp [dress, quiet, surroundings]

/-- Whatever is going to happen, no worker dies of it. -/
def Harmless (s : Stage) : Prop := ∀ i ∈ s.incidents, i.effect = .cancel

theorem Harmless.lives (h : s.Harmless) (device : String) : s.dies device = false := by
  refine List.any_eq_false.mpr fun i hi => ?_
  simp [h i hi]

end Stage

namespace Worker

/-- A worker looks at its surroundings only when it streams, and writes to the end of the log. -/
theorem step_dress {w : Worker} (hp : ∀ q, w.phase ≠ .stream q) (s : Stage) (d : Surroundings) :
    w.step (s.dress d) = (w.step s).map fun x => (x.1, x.2.dress d) := by
  cases h : w.phase with
  | stream q => exact absurd h (hp q)
  | listen =>
    have hbulletin : (s.dress d).bulletin = s.bulletin := rfl
    simp only [step, h, listen, hbulletin]
    cases s.bulletin.read w.viewed <;> simp [stop, Stage.note, Stage.dress]
  | gate q l =>
    simp only [step, h, passGate]
    change (if (s.latch l).isOpen = true then _ else _) = _
    split <;> rfl
  | report r last =>
    simp only [step, h, send, Option.map_some]
    cases r <;> split <;> simp [noteFailure, stop, Stage.note, Stage.dress]
  | start q latch => simp [step, h, callStart, Stage.issue_eq, Stage.dress]
  | countDown q l started => simp [step, h, Stage.countDown, Stage.dress]
  | configure | close => simp [step, h, Stage.issue_eq, Stage.dress]
  | ended | died => simp [step, h]

theorem step_stream {w : Worker} {q : Bool} (hp : w.phase = .stream q) {s : Stage}
    (h : s.Harmless) : w.step s = some
      ({ w with phase := .report (s.backend.verdict (.streamRun w.card q)) false },
        { s.enterStream w.card with backend := (s.backend.issue (.streamRun w.card q)).2 }) := by
  simp only [step, hp, callStream, h.lives, Stage.issue_eq]
  rfl

/-- Workers that do not die see no difference between stages with different surroundings. -/
theorem step_alike (w : Worker) {s t : Stage} (same : s.quiet = t.quiet) (hs : s.Harmless)
    (ht : t.Harmless) :
    (w.step s).map (fun x => (x.1, x.2.quiet)) = (w.step t).map fun x => (x.1, x.2.quiet) := by
  by_cases hp : ∃ q, w.phase = .stream q
  · obtain ⟨q, hp⟩ := hp
    obtain ⟨hbackend, hbulletin, hlatches⟩ := Stage.quiet_eq_iff.mp same
    rw [step_stream hp hs, step_stream hp ht]
    simp [Stage.quiet, Stage.enterStream, hbackend, hbulletin, hlatches]
  · have hp : ∀ q, w.phase ≠ .stream q := fun q hq => hp ⟨q, hq⟩
    have hquiet : ∀ s : Stage, (w.step s).map (fun x => (x.1, x.2.quiet)) =
        (w.step s.quiet).map fun x => (x.1, x.2.quiet) := by
      intro s
      have hdress := step_dress hp s.quiet s.surroundings
      rw [s.dress_quiet] at hdress
      rw [hdress, Option.map_map]
      rfl
    rw [hquiet s, hquiet t, same]

end Worker

namespace Run

def quiet (r : Run) : Run := { r with stage := r.stage.quiet }

def dress (d : Surroundings) (r : Run) : Run :=
  { r with stage := r.stage.dress d, script := r.script ++ d.asked }

theorem dress_quiet (r : Run) : r.quiet.dress r.stage.surroundings = r := by
  have hstage : r.quiet.stage.dress r.stage.surroundings = r.stage := r.stage.dress_quiet
  have hscript : r.script ++ r.stage.surroundings.asked = r.script := List.append_nil _
  simp only [dress, hstage]
  simp only [quiet, hscript]

theorem quiet_dress (r : Run) {d : Surroundings} (h : d.asked = []) :
    (r.dress d).quiet = r.quiet := by
  simp [dress, quiet, h, Stage.dress, Stage.quiet]

section Dress

variable (r : Run) (d : Surroundings)

theorem beginClose_dress (ending : Ending) :
    (r.dress d).beginClose ending = (r.beginClose ending).dress d := by
  cases h : r.crew.isEmpty with
  | true => simp [beginClose, dress, h]
  | false =>
    simp [beginClose, dress, h]
    rfl

theorem connect_dress : (r.dress d).connect = r.connect.dress d := by
  have hbackend : (r.dress d).stage.backend = r.stage.backend := rfl
  unfold connect
  rw [show (r.dress d).refClock = r.refClock from rfl]
  cases r.refClock with
  | none => rfl
  | some connection =>
    obtain ⟨source, target⟩ := connection
    simp only [Stage.issue_eq, hbackend]
    cases r.stage.backend.verdict (.connect source target) with
    | ok => simp [dress, Stage.dress, Stage.note]
    | error e =>
      exact beginClose_dress { r with
        refClock := some (source, target)
        stage := { r.stage with
          backend := (r.stage.backend.issue (.connect source target)).2 } } d _

theorem afterCollect_dress (duty : Duty) (first : Option Error) :
    (r.dress d).afterCollect duty first = (r.afterCollect duty first).dress d := by
  cases duty with
  | configure =>
    cases first with
    | none => simp [afterCollect, dress, Stage.dress, Stage.note, tell]
    | some e => exact beginClose_dress ..
  | stream => rfl
  | close => rfl

theorem collect_dress (duty : Duty) (index : Nat) (first : Option Error) :
    (r.dress d).collect duty index first = (r.collect duty index first).map (·.dress d) := by
  unfold collect
  rw [show (r.dress d).crew = r.crew from rfl]
  cases r.crew[index]? with
  | none => exact congrArg some (afterCollect_dress ..)
  | some w =>
    dsimp only
    cases w.outbox with
    | cons report rest => rfl
    | nil => cases w.isOver <;> rfl

theorem serve_dress (later : r.script = [] → d.asked = []) :
    (r.dress d).serve = r.serve.map (·.dress d) := by
  unfold serve
  rw [show (r.dress d).script = r.script ++ d.asked from rfl]
  cases hs : r.script with
  | nil => rw [later hs]; rfl
  | cons q script =>
    cases q with
    | stream q => rfl
    | close | drop => exact congrArg some (beginClose_dress { r with script } ..)

theorem join_dress (index : Nat) (first : Option Error) :
    (r.dress d).join index first = (r.join index first).map (·.dress d) := by
  unfold join
  rw [show (r.dress d).crew = r.crew from rfl]
  cases r.crew[index]? with
  | none => rfl
  | some w =>
    dsimp only
    cases w.phase <;> rfl

theorem farewell_dress (first : Option Error) :
    (r.dress d).farewell first = (r.farewell first).dress d := by
  unfold farewell
  rw [show (r.dress d).ending = r.ending from rfl]
  cases r.ending <;> cases first <;> simp [dress, Stage.dress, Stage.note, tell]

theorem disconnect_dress (first : Option Error) :
    (r.dress d).disconnect first = (r.disconnect first).dress d := by
  unfold disconnect
  rw [show (r.dress d).connected = r.connected from rfl,
    show (r.dress d).refClock = r.refClock from rfl]
  cases r.connected with
  | false => exact farewell_dress ..
  | true =>
    cases r.refClock with
    | none => exact farewell_dress ..
    | some connection =>
      obtain ⟨source, target⟩ := connection
      simp only [Stage.issue_eq]
      exact farewell_dress { r with
        connected := false
        refClock := some (source, target)
        stage := { r.stage with backend := (r.stage.backend.issue (.disconnect source target)).2 } }
        d _

/-- The controller does not look at the surroundings, but for what it is asked when it has nothing
else to do. -/
theorem controllerStep_dress (later : r.control = .ready → r.script = [] → d.asked = []) :
    (r.dress d).controllerStep = r.controllerStep.map (·.dress d) := by
  unfold controllerStep
  rw [show (r.dress d).control = r.control from rfl]
  cases hc : r.control with
  | connect => exact congrArg some (connect_dress ..)
  | hire waiting => cases waiting <;> rfl
  | collect duty index first => exact collect_dress ..
  | ready => exact serve_dress r d (later hc)
  | join index first => exact join_dress ..
  | disconnect first => exact congrArg some (disconnect_dress ..)
  | «over» => rfl

end Dress

variable {r r' u : Run} {events : List Event}

/-- The controller never sets the cancel token. -/
theorem controllerStep_token (next : r.controllerStep = some r') :
    r'.stage.incidents = r.stage.incidents ∧ r'.stage.cancelled = r.stage.cancelled := by
  have hdress := controllerStep_dress r { r.stage.surroundings with log := [] } fun _ _ => rfl
  have hself : r.dress { r.stage.surroundings with log := [] } = r := by
    simp [dress, Stage.dress, Stage.surroundings]
  rw [hself, next, Option.map_some, Option.some.injEq] at hdress
  rw [hdress]
  exact ⟨rfl, rfl⟩

/-- Runs of which no worker dies go the same way whatever their surroundings are. -/
theorem step_alike (a : Actor) (same : r.quiet = u.quiet) (hr : r.stage.Harmless)
    (hu : u.stage.Harmless) : (r.step a).map quiet = (u.step a).map quiet := by
  cases a with
  | controller =>
    have hquiet : ∀ r : Run, r.controllerStep.map quiet = r.quiet.controllerStep.map quiet := by
      intro r
      have hdress := controllerStep_dress r.quiet r.stage.surroundings fun _ _ => rfl
      rw [r.dress_quiet] at hdress
      rw [hdress, Option.map_map]
      exact congrArg (Option.map · _) (funext fun v => v.quiet_dress rfl)
    change r.controllerStep.map quiet = u.controllerStep.map quiet
    rw [hquiet r, hquiet u, same]
  | worker index =>
    have hstage : r.stage.quiet = u.stage.quiet :=
      show r.quiet.stage = u.quiet.stage by rw [same]
    have hcrew : r.crew = u.crew := show r.quiet.crew = u.quiet.crew by rw [same]
    have hquiet : ∀ r : Run, (r.workerStep index).map quiet = r.crew[index]?.bind fun w =>
        ((w.step r.stage).map fun x => (x.1, x.2.quiet)).map fun x =>
          { r.quiet with stage := x.2, crew := r.quiet.crew.set index x.1 } := by
      intro r
      unfold workerStep
      cases r.crew[index]? with
      | none => rfl
      | some w =>
        simp only [Option.bind_eq_bind, Option.bind_some]
        cases w.step r.stage <;> rfl
    change (r.workerStep index).map quiet = (u.workerStep index).map quiet
    rw [hquiet r, hquiet u, hcrew, same]
    refine congrArg _ (funext fun w => ?_)
    rw [Worker.step_alike w hstage hr hu]

/-- The owner asks for more. -/
def ask (more : List Request) (r : Run) : Run := { r with script := r.script ++ more }

/-- An actor that goes on does not mind that more is asked for. -/
theorem step_ask {a : Actor} (next : r.step a = some r') (more : List Request) :
    (r.ask more).step a = some (r'.ask more) := by
  cases a with
  | controller =>
    have next : r.controllerStep = some r' := next
    have hdress := controllerStep_dress r { r.stage.surroundings with log := [], asked := more }
      fun hc hs => by simp [controllerStep, hc, serve, hs] at next
    have hask : r'.dress { r.stage.surroundings with log := [], asked := more } = r'.ask more := by
      obtain ⟨hincidents, hcancelled⟩ := controllerStep_token next
      simp [dress, ask, Stage.dress, Stage.surroundings, ← hincidents, ← hcancelled]
    rw [next, Option.map_some, hask] at hdress
    exact hdress
  | worker index =>
    obtain ⟨w, w', s', hw, hstep, rfl⟩ := workerStep_eq next
    simp [step, workerStep, ask, hw, hstep]

theorem Leads.ask {start : Run} (h : start.Leads events r) (more : List Request) :
    (start.ask more).Leads events (r.ask more) := by
  induction h with
  | start => exact .start
  | step a _ next ih => exact .step a ih (step_ask next more)

/-- Settling a run is one way for its actors to go on. -/
theorem leads_settle (r : Run) : ∃ events, r.Leads events r.settle := by
  have hfor : ∀ n (r : Run), ∃ events, r.Leads events (settleFor n r) := by
    intro n
    induction n with
    | zero => exact fun r => ⟨[], .start⟩
    | succ n ih =>
      intro r
      unfold settleFor
      split
      case h_1 r' hadvance =>
        obtain ⟨a, -, next⟩ := List.exists_of_findSome?_eq_some hadvance
        obtain ⟨events, hleads⟩ := ih r'
        exact ⟨_, (Leads.step a .start next).trans hleads⟩
      case h_2 => exact ⟨[], .start⟩
  exact hfor r.weight r

/-- Every actor is offered a step. -/
theorem atRest_of_advance (h : r.advance = none) : r.AtRest := by
  have hnone : ∀ a ∈ r.schedule, r.step a = none := List.findSome?_eq_none_iff.mp h
  intro a
  cases a with
  | controller => exact hnone _ (by simp [schedule])
  | worker index =>
    by_cases hlt : index < r.crew.length
    · exact hnone _ (by simp [schedule, hlt])
    · have hw : r.crew[index]? = none := List.getElem?_eq_none (by omega)
      simp [step, workerStep, hw]

/-- A run that every step brings closer to its end settles at rest. -/
theorem settle_atRest (falls : ∀ events u a v, r.Leads events u → u.step a = some v →
    v.weight < u.weight) : r.settle.AtRest := by
  have hfor : ∀ n (r : Run), r.weight ≤ n → (∀ events u a v, r.Leads events u →
      u.step a = some v → v.weight < u.weight) → (settleFor n r).AtRest := by
    intro n
    induction n with
    | zero =>
      intro r hweight falls a
      change r.step a = none
      cases next : r.step a with
      | none => rfl
      | some v =>
        have := falls [] r a v .start next
        omega
    | succ n ih =>
      intro r hweight falls
      unfold settleFor
      split
      case h_1 v hadvance =>
        obtain ⟨a, -, next⟩ := List.exists_of_findSome?_eq_some hadvance
        have hlighter := falls [] r a v .start next
        exact ih v (by omega) fun events u b w hleads =>
          falls _ u b w ((Leads.step a .start next).trans hleads)
      case h_2 hadvance => exact atRest_of_advance hadvance
  exact hfor r.weight r (Nat.le_refl _) falls

end Run

end Sequencer
