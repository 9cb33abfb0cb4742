import Sequencer.Proofs.Run.Sequential
import Sequencer.Proofs.Run.StartOrder

namespace Sequencer

/-- One step of whatever actor. -/
def Run.Next (later earlier : Run) : Prop := ∃ a, earlier.step a = some later

/-- Whether a worker can go on does not depend on the other workers. -/
theorem Run.worker_isSome {r : Run} {i : Nat} {w : Worker} (hw : r.crew[i]? = some w) :
    (r.step (.worker i)).isSome = (w.step r.stage).isSome := by
  cases hstep : w.step r.stage <;> simp [Run.step, Run.workerStep, hw, hstep]

namespace Plan

variable {p : Plan} {script : List Request} {past : List Round} {now : Round} {events : List Event}
  {r : Run}

/-- What the actors of a run wait for, and that they do not wait in vain. -/
structure Responsive (r : Run) : Prop where
  /-- A worker that listens goes on when a command was posted that it has not seen. -/
  listens : ∀ i w, r.crew[i]? = some w → w.phase = .listen →
    ((r.step (.worker i)).isSome ↔ w.viewed < r.stage.bulletin.posted)
  /-- The card held back goes on when its start latch was counted down to zero. -/
  gates : ∀ i w q l, r.crew[i]? = some w → w.phase = .gate q l →
    l < r.stage.latches.length ∧
      ((r.step (.worker i)).isSome ↔ (r.stage.latch l).remaining = 0)
  /-- The controller goes on when the worker it collects from has reported. -/
  collects : ∀ duty i first w, r.control = .collect duty i first → r.crew[i]? = some w →
    ((r.step .controller).isSome ↔ w.outbox ≠ [])
  /-- The controller goes on when the worker it joins has ended. -/
  joins : ∀ i first w, r.control = .join i first → r.crew[i]? = some w →
    ((r.step .controller).isSome ↔ w.phase = .ended)
  /-- No worker falls behind, so that a command would be lost to it. -/
  informed : ∀ w ∈ r.crew, r.stage.bulletin.read w.viewed ≠ .missed
  /-- A worker that has not reported is there to do so. -/
  answers : ∀ duty i first w, r.control = .collect duty i first → r.crew[i]? = some w →
    w.outbox = [] → w.isOver = false
  /-- Reports are sent to a controller that collects them. -/
  heard : ∀ w ∈ r.crew, w.heard = true

theorem Responsive.of_nobody (h : r.crew = []) : Responsive r := by
  constructor <;> simp [h]

namespace Inv

variable {i : Nat} {w : Worker}

theorem listens (h : p.Inv script past now r) (hw : r.crew[i]? = some w)
    (hp : w.phase = .listen) :
    (r.step (.worker i)).isSome ↔ w.viewed < r.stage.bulletin.posted := by
  rw [Run.worker_isSome hw]
  simp only [Worker.step, hp, Worker.listen, Bulletin.read]
  rcases (h.workers i w hw).view with hview | ⟨-, hview⟩
  · simp [hview]
  · simp [← hview]

theorem gates (h : p.Inv script past now r) (hw : r.crew[i]? = some w) {q : Bool} {l : Nat}
    (hp : w.phase = .gate q l) : l < r.stage.latches.length ∧
      ((r.step (.worker i)).isSome ↔ (r.stage.latch l).remaining = 0) := by
  have hfits := (h.workers i w hw).phase
  simp only [PhaseFits, hp] at hfits
  refine ⟨by omega, ?_⟩
  rw [Run.worker_isSome hw]
  by_cases hopen : (r.stage.latch l).remaining = 0 <;>
    simp [Worker.step, hp, Worker.passGate, Latch.isOpen, hopen]

theorem employs_collected (h : p.Inv script past now r) {duty : Duty} {first : Option Error}
    (hc : r.control = .collect duty i first) (hw : r.crew[i]? = some w) :
    p.Employs now.task now.events r.stage false w := by
  simpa [Run.collected, hc] using h.workers i w hw

theorem collects (h : p.Inv script past now r) {duty : Duty} {first : Option Error}
    (hc : r.control = .collect duty i first) (hw : r.crew[i]? = some w) :
    (r.step .controller).isSome ↔ w.outbox ≠ [] := by
  simp only [Run.step, Run.controllerStep, hc, Run.collect, hw]
  cases ho : w.outbox with
  | cons report rest => simp
  | nil => simp [(h.employs_collected hc hw).not_over ho]

theorem joins (h : p.Inv script past now r) {first : Option Error}
    (hc : r.control = .join i first) (hw : r.crew[i]? = some w) :
    (r.step .controller).isSome ↔ w.phase = .ended := by
  have hfits := (h.workers i w hw).phase
  simp only [Run.step, Run.controllerStep, hc, Run.join, hw]
  cases hp : w.phase with
  | died => simp [PhaseFits, hp] at hfits
  | _ => simp

theorem informed (h : p.Inv script past now r) (hw : r.crew[i]? = some w) :
    r.stage.bulletin.read w.viewed ≠ .missed := by
  unfold Bulletin.read
  rcases (h.workers i w hw).view with hview | ⟨-, hview⟩
  · simp [hview]
  · simp [← hview]

theorem responsive (h : p.Inv script past now r) : Responsive r where
  listens _ _ hw hp := h.listens hw hp
  gates _ _ _ _ hw hp := h.gates hw hp
  collects _ _ _ _ hc hw := h.collects hc hw
  joins _ _ _ hc hw := h.joins hc hw
  informed w hw := by
    obtain ⟨i, hi⟩ := List.mem_iff_getElem?.mp hw
    exact h.informed hi
  answers _ _ _ _ hc hw := (h.employs_collected hc hw).not_over
  heard w hw := by
    obtain ⟨i, hi⟩ := List.mem_iff_getElem?.mp hw
    exact (h.workers i w hi).heard

end Inv

theorem responsive (h : (p.start script).Leads events r) : Responsive r := by
  cases reached h with
  | start state _ => exact .of_nobody (by rw [state]; rfl)
  | running _ past now inv _ => exact inv.responsive
  | aborted e state => exact .of_nobody state.crew

/-- There is no way to go on forever. -/
theorem next_acc {events : List Event} {r : Run} (h : (p.start script).Leads events r) :
    Acc Run.Next r := by
  constructor
  rintro r' ⟨a, next⟩
  have hlt := weight_lt h next
  exact next_acc (h.step a next)
termination_by r.weight

theorem ended_of_over (h : (p.start script).Leads events r) (hover : r.control = .over) :
    ∀ w ∈ r.crew, w.phase = .ended := by
  cases reached h with
  | start state _ =>
    rw [state] at hover
    cases hover
  | running _ past now inv _ =>
    intro w hw
    obtain ⟨i, hi⟩ := List.mem_iff_getElem?.mp hw
    exact inv.all_ended hover hi
  | aborted e state => simp [state.crew]

/-- A run that is not over can go on, every step brings it closer to its end, and when no step is
left it is over and all its workers have ended. -/
theorem runs_to_end {repetitions : List Bool} {dropped : Bool}
    (h : (p.start (Plan.script repetitions dropped)).Leads events r) :
    (r.control ≠ .over → ∃ a, (r.step a).isSome) ∧
      (∀ a r', r.step a = some r' → r'.weight < r.weight) ∧ Acc Run.Next r ∧
      (r.AtRest → r.control = .over ∧ ∀ w ∈ r.crew, w.phase = .ended) ∧ Responsive r := by
  refine ⟨fun hgoes => ?_, fun a r' next => weight_lt h next, next_acc h, fun rest => ?_,
    responsive h⟩
  · obtain ⟨a, ha⟩ := Classical.not_forall.mp fun rest : r.AtRest => hgoes (over_of_rest h rest)
    exact ⟨a, Option.isSome_iff_ne_none.mpr ha⟩
  · have hover := over_of_rest h rest
    exact ⟨hover, ended_of_over h hover⟩

/-- The card held back waits at the start latch for the other, which has not seen the command. -/
def waitingRun : Run :=
  ((samplePlan.start (Plan.script [true] false)).follow (sampleSchedule.take 13)).2

theorem waitingRun_goes_on : (waitingRun.step (.worker 0)).isNone ∧
    (∃ a, (waitingRun.step a).isSome) ∧ Acc Run.Next waitingRun ∧ Responsive waitingRun := by
  obtain ⟨hgoes, -, hends, -, hresponsive⟩ := runs_to_end
    (Run.leads_follow (sampleSchedule.take 13) (samplePlan.start (Plan.script [true] false)))
  exact ⟨rfl, hgoes Control.noConfusion, hends, hresponsive⟩

end Plan

end Sequencer
