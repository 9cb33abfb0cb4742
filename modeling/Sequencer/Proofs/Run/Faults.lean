import Sequencer.Proofs.Run.Conduct
import Sequencer.Run.Schedule

namespace Sequencer

/-- A call was refused or a worker failed. All other faults are found in the registry. -/
def Error.fromOutside : Error → Bool
  | .backend _ | .worker .. => true
  | _ => false

/-- If this is a failure, then one from outside. -/
def toldOutside (r : Report) : Prop := ∀ e, r = .error e → e.fromOutside = true

def keptOutside (first : Option Error) : Prop := ∀ e, first = some e → e.fromOutside = true

theorem toldOutside_ok : toldOutside (.ok ()) := by
  intro e he
  cases he

theorem toldOutside_error {e : Error} (h : e.fromOutside = true) : toldOutside (.error e) := by
  intro e' he
  cases he
  exact h

theorem toldOutside_verdict (b : Backend) (c : Call) : toldOutside (b.verdict c) := by
  unfold Backend.verdict
  split
  · exact toldOutside_ok
  · exact toldOutside_error rfl

theorem keptOutside_none : keptOutside none := by
  intro e he
  cases he

theorem keptOutside_keepFirst {first : Option Error} {r : Report} (hf : keptOutside first)
    (hr : toldOutside r) : keptOutside (Run.keepFirst first r) := by
  cases first with
  | some e => exact hf
  | none =>
    cases r with
    | ok => exact keptOutside_none
    | error e =>
      intro e' he
      cases he
      exact hr e rfl

theorem toldOutside_asReport {first : Option Error} (h : keptOutside first) :
    toldOutside (Run.asReport first) := by
  cases first with
  | none => exact toldOutside_ok
  | some e => exact toldOutside_error (h e rfl)

/-- What a worker in this phase is about to report. -/
def Phase.reports : Phase → List Report
  | .countDown _ _ r | .report r _ => [r]
  | _ => []

namespace Worker

/-- All that the worker has reported or is about to report. -/
structure FaultsOutside (w : Worker) : Prop where
  phase : ∀ r ∈ w.phase.reports, toldOutside r
  outbox : ∀ r ∈ w.outbox, toldOutside r

theorem FaultsOutside.move {w : Worker} (h : w.FaultsOutside) {viewed : Nat} {next : Phase}
    (hnext : ∀ r ∈ next.reports, toldOutside r) :
    ({ w with viewed, phase := next } : Worker).FaultsOutside :=
  ⟨hnext, h.outbox⟩

theorem afterStart_outside (calcNext : Bool) {started : Report} (h : toldOutside started) :
    ∀ r ∈ (afterStart calcNext started).reports, toldOutside r := by
  cases started with
  | ok => simp [afterStart, Phase.reports]
  | error e => simpa [afterStart, Phase.reports] using h

theorem FaultsOutside.step {w w' : Worker} {s s' : Stage} (h : w.FaultsOutside)
    (next : w.step s = some (w', s')) : w'.FaultsOutside := by
  have hphase := h.phase
  cases hp : w.phase with
  | configure =>
    simp only [Worker.step, hp, Stage.issue_eq, Option.some.injEq, Prod.mk.injEq] at next
    obtain ⟨rfl, -⟩ := next
    exact h.move (by simpa [Phase.reports] using toldOutside_verdict _ _)
  | listen =>
    simp only [Worker.step, hp, listen] at next
    split at next
    · cases next
    case h_2 c _ =>
      cases next
      refine h.move ?_
      cases c with
      | stream q l => cases hb : w.heldBack <;> simp [Phase.reports]
      | close => simp [Phase.reports]
    · cases next
      exact h.move (by simp [Phase.reports])
  | gate q l =>
    simp only [Worker.step, hp, passGate] at next
    split at next
    · cases next
      refine h.move ?_
      split
      · simp [Phase.reports]
      · simpa [Phase.reports] using toldOutside_error rfl
    · cases next
  | start q latch =>
    simp only [Worker.step, hp, callStart, Stage.issue_eq, Option.some.injEq, Prod.mk.injEq] at next
    obtain ⟨rfl, -⟩ := next
    refine h.move ?_
    cases latch with
    | some l => simpa [Phase.reports] using toldOutside_verdict _ _
    | none => exact afterStart_outside q (toldOutside_verdict _ _)
  | countDown q l started =>
    simp only [Worker.step, hp, Option.some.injEq, Prod.mk.injEq] at next
    obtain ⟨rfl, -⟩ := next
    rw [hp] at hphase
    exact h.move (afterStart_outside q (hphase started (by simp [Phase.reports])))
  | stream q =>
    simp only [Worker.step, hp, callStream, Stage.issue_eq] at next
    split at next
    · cases next
      exact h.move (by simp [Phase.reports])
    · cases next
      exact h.move (by simpa [Phase.reports] using toldOutside_verdict _ _)
  | close =>
    simp only [Worker.step, hp, Stage.issue_eq, Option.some.injEq, Prod.mk.injEq] at next
    obtain ⟨rfl, -⟩ := next
    exact h.move (by simpa [Phase.reports] using toldOutside_verdict _ _)
  | report r last =>
    simp only [Worker.step, hp, send, Option.some.injEq] at next
    split at next
    · cases next
      rw [hp] at hphase
      refine ⟨by cases last <;> simp [Phase.reports], fun told htold => ?_⟩
      rcases List.mem_append.mp htold with hold | hnew
      · exact h.outbox told hold
      · rw [List.mem_singleton.mp hnew]
        exact hphase r (by simp [Phase.reports])
    · cases next
      exact h.move (by simp [Phase.reports])
  | ended => simp [Worker.step, hp] at next
  | died => simp [Worker.step, hp] at next

end Worker

/-- The error that the controller has kept so far. -/
def Control.first? : Control → Option Error
  | .collect _ _ first | .join _ first | .disconnect first => first
  | _ => none

def Ending.failure? : Ending → Option Error
  | .dropped failure => failure
  | .closed => none

namespace Run

/-- All faults that a run has come across so far. -/
structure FaultsOutside (r : Run) : Prop where
  crew : ∀ w ∈ r.crew, w.FaultsOutside
  control : keptOutside r.control.first?
  ending : keptOutside r.ending.failure?
  results : ∀ told ∈ r.results, toldOutside told

namespace FaultsOutside

variable {r r' : Run}

theorem tell (h : r.FaultsOutside) {result : Report} (hresult : toldOutside result) :
    (r.tell result).FaultsOutside := by
  refine ⟨h.crew, h.control, h.ending, fun told htold => ?_⟩
  rcases List.mem_append.mp htold with hold | hnew
  · exact h.results told hold
  · rw [List.mem_singleton.mp hnew]
    exact hresult

theorem beginClose (h : r.FaultsOutside) {ending : Ending} (hending : keptOutside ending.failure?) :
    (r.beginClose ending).FaultsOutside :=
  ⟨h.crew, keptOutside_none, hending, h.results⟩

theorem farewell (h : r.FaultsOutside) {first : Option Error} (hfirst : keptOutside first) :
    (r.farewell first).FaultsOutside := by
  have hwords : toldOutside (r.ending.lastWords first) := by
    have hending := h.ending
    cases he : r.ending with
    | closed => exact toldOutside_asReport hfirst
    | dropped failure =>
      have hfailure : keptOutside failure := by simpa only [he, Ending.failure?] using hending
      exact toldOutside_asReport hfailure
  obtain ⟨log, hr⟩ := Plan.farewell_eq r first
  rw [hr]
  refine ⟨h.crew, keptOutside_none, h.ending, fun told htold => ?_⟩
  rcases List.mem_append.mp htold with hold | hnew
  · exact h.results told hold
  · rw [List.mem_singleton.mp hnew]
    exact hwords

theorem connect (h : r.FaultsOutside) : r.connect.FaultsOutside := by
  have hire : ∀ connected stage,
      ({ r with connected, control := .hire r.cards, stage } : Run).FaultsOutside := fun _ _ =>
    ⟨h.crew, keptOutside_none, h.ending, h.results⟩
  unfold Run.connect
  split
  · exact hire _ _
  · rw [Stage.issue_eq]
    split
    case h_1 => exact hire _ _
    case h_2 source target _ _ e stage hrefused =>
      have he := toldOutside_verdict r.stage.backend (.connect source target)
      rw [(Prod.mk.inj hrefused).1] at he
      have hstage : ({ r with stage } : Run).FaultsOutside :=
        ⟨h.crew, h.control, h.ending, h.results⟩
      refine hstage.beginClose fun e' he' => ?_
      cases he'
      exact he e rfl

theorem afterCollect (h : r.FaultsOutside) {duty : Duty} {first : Option Error}
    (hfirst : keptOutside first) : (r.afterCollect duty first).FaultsOutside := by
  have hcontrol : ∀ control stage, keptOutside control.first? →
      ({ r with control, stage } : Run).FaultsOutside := fun _ _ hkept =>
    ⟨h.crew, hkept, h.ending, h.results⟩
  cases duty with
  | configure =>
    cases first with
    | none => exact (hcontrol .ready _ keptOutside_none).tell toldOutside_ok
    | some e => exact h.beginClose hfirst
  | stream => exact (hcontrol .ready _ keptOutside_none).tell (toldOutside_asReport hfirst)
  | close => exact hcontrol (.join 0 first) _ hfirst

theorem collect (h : r.FaultsOutside) {duty : Duty} {index : Nat} {first : Option Error}
    (hfirst : keptOutside first) (next : r.collect duty index first = some r') :
    r'.FaultsOutside := by
  unfold Run.collect at next
  split at next
  · cases next
    exact h.afterCollect hfirst
  case h_2 w hw =>
    have hworker := h.crew w (List.mem_of_getElem? hw)
    split at next
    case h_1 report rest ho =>
      cases next
      have hrest := hworker.outbox
      rw [ho] at hrest
      refine ⟨fun v hv => ?_, keptOutside_keepFirst hfirst (hrest report List.mem_cons_self),
        h.ending, h.results⟩
      rcases List.mem_or_eq_of_mem_set hv with hold | rfl
      · exact h.crew v hold
      · exact ⟨hworker.phase, fun told htold => hrest told (List.mem_cons_of_mem _ htold)⟩
    · split at next
      · cases next
        exact ⟨h.crew, keptOutside_keepFirst hfirst (toldOutside_error rfl), h.ending, h.results⟩
      · cases next

theorem controllerStep (h : r.FaultsOutside) (next : r.controllerStep = some r') :
    r'.FaultsOutside := by
  have hkept := h.control
  cases hc : r.control with
  | connect =>
    simp only [Run.controllerStep, hc, Option.some.injEq] at next
    exact next ▸ h.connect
  | hire waiting =>
    simp only [Run.controllerStep, hc, Option.some.injEq] at next
    subst next
    cases waiting with
    | nil => exact ⟨h.crew, keptOutside_none, h.ending, h.results⟩
    | cons card waiting =>
      refine ⟨fun w hw => ?_, keptOutside_none, h.ending, h.results⟩
      rcases List.mem_append.mp hw with hold | hnew
      · exact h.crew w hold
      · rw [List.mem_singleton.mp hnew]
        exact ⟨by simp [newWorker, Phase.reports], by simp [newWorker]⟩
  | collect duty index first =>
    simp only [Run.controllerStep, hc] at next
    rw [hc] at hkept
    exact h.collect hkept next
  | ready =>
    simp only [Run.controllerStep, hc, serve] at next
    have hscript : ∀ script, ({ r with script } : Run).FaultsOutside := fun _ =>
      ⟨h.crew, h.control, h.ending, h.results⟩
    split at next
    · cases next
    · cases next
      exact ⟨h.crew, keptOutside_none, h.ending, h.results⟩
    · cases next
      exact (hscript _).beginClose keptOutside_none
    · cases next
      exact (hscript _).beginClose keptOutside_none
  | join index first =>
    rw [hc] at hkept
    simp only [Run.controllerStep, hc, join] at next
    split at next
    · cases next
      exact ⟨h.crew, hkept, h.ending, h.results⟩
    · split at next
      · cases next
        exact ⟨h.crew, hkept, h.ending, h.results⟩
      · cases next
        exact ⟨h.crew, keptOutside_keepFirst hkept (toldOutside_error rfl), h.ending, h.results⟩
      · cases next
  | disconnect first =>
    have hfirst : keptOutside first := by simpa only [hc, Control.first?] using hkept
    simp only [Run.controllerStep, Option.some.injEq, disconnect, Stage.issue_eq, hc] at next
    subst next
    split
    · apply farewell _ (keptOutside_keepFirst hfirst (toldOutside_verdict _ _))
      exact ⟨h.crew, hfirst, h.ending, h.results⟩
    · exact h.farewell hfirst
  | «over» => simp [Run.controllerStep, hc] at next

theorem step (h : r.FaultsOutside) {a : Actor} (next : r.step a = some r') : r'.FaultsOutside := by
  cases a with
  | controller => exact h.controllerStep next
  | worker index =>
    obtain ⟨w, w', s', hw, hstep, rfl⟩ := Run.workerStep_eq next
    refine ⟨fun v hv => ?_, h.control, h.ending, h.results⟩
    rcases List.mem_or_eq_of_mem_set hv with hold | rfl
    · exact h.crew v hold
    · exact (h.crew w (List.mem_of_getElem? hw)).step hstep

theorem settle (h : r.FaultsOutside) : r.settle.FaultsOutside := by
  have hfor : ∀ n (r : Run), r.FaultsOutside → (settleFor n r).FaultsOutside := by
    -- Each round is a step of whatever actor can go on first.
    intro n
    induction n with
    | zero => exact fun _ h => h
    | succ n ih =>
      intro r h
      unfold settleFor
      split
      case h_1 r' hadvance =>
        obtain ⟨a, -, next⟩ := List.exists_of_findSome?_eq_some hadvance
        exact ih r' (h.step next)
      case h_2 => exact h
  exact hfor _ r h

/-- The last thing that the owner was told. -/
theorem last (h : r.FaultsOutside) : toldOutside (r.results.getLast?.getD (.ok ())) := by
  cases hlast : r.results.getLast? with
  | none => exact toldOutside_ok
  | some told => exact h.results told (List.mem_of_getLast? hlast)

end FaultsOutside

end Run

end Sequencer
