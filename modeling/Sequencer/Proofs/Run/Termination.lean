import Sequencer.Proofs.Run.Reach
import Sequencer.Run.Schedule

namespace Sequencer

namespace Worker

theorem weight_le_of_post (posted : Nat) (w : Worker) :
    w.weight (posted + 1) ≤ w.weight posted + 7 := by
  unfold weight
  split
  · omega
  · omega

theorem afterStart_weight (calcNext : Bool) (started : Report) :
    (afterStart calcNext started).weight ≤ 3 := by
  cases started <;> simp [afterStart, Phase.weight]

theorem weight_lt {w w' : Worker} {posted : Nat} (hgoes : w.isOver = false)
    (hviewed : w'.viewed = w.viewed) (hphase : w'.phase.weight < w.phase.weight) :
    w'.weight posted < w.weight posted := by
  simp only [weight, hgoes, hviewed, Bool.false_eq_true, ↓reduceIte]
  split <;> omega

/-- Seeing a command costs a step, and sets the work on it ahead. -/
theorem take_weight {w : Worker} {posted : Nat} (c : Command) (hp : w.phase = .listen)
    (hposted : posted = w.viewed + 1) : (w.take c).weight posted < w.weight posted := by
  cases c with
  | stream q l =>
    cases hb : w.heldBack <;> simp [weight, isOver, take, hp, hb, Phase.weight, hposted]
  | close => simp [weight, isOver, take, hp, Phase.weight, hposted]

/-- A worker that goes on comes closer to listening in vain. -/
theorem step_weight {w w' : Worker} {s s' : Stage} (next : w.step s = some (w', s')) :
    s'.bulletin = s.bulletin ∧ w'.weight s.bulletin.posted < w.weight s.bulletin.posted := by
  cases hp : w.phase with
  | configure =>
    simp only [step, hp, Stage.issue_eq, Option.some.injEq, Prod.mk.injEq] at next
    obtain ⟨rfl, rfl⟩ := next
    exact ⟨rfl, weight_lt (by simp [isOver, hp]) rfl (by simp [hp, Phase.weight])⟩
  | listen =>
    simp only [step, hp, listen, Bulletin.read] at next
    by_cases hnone : s.bulletin.posted = w.viewed
    · simp [hnone] at next
    · by_cases hnews : s.bulletin.posted = w.viewed + 1
      · rw [if_neg hnone, if_pos hnews] at next
        simp only [Option.some.injEq, Prod.mk.injEq] at next
        obtain ⟨rfl, rfl⟩ := next
        exact ⟨rfl, take_weight _ hp hnews⟩
      · simp only [hnone, hnews, ↓reduceIte, stop, Option.some.injEq, Prod.mk.injEq] at next
        obtain ⟨rfl, rfl⟩ := next
        exact ⟨rfl, weight_lt (by simp [isOver, hp]) rfl (by simp [hp, Phase.weight])⟩
  | gate q l =>
    simp only [step, hp, passGate] at next
    split at next
    · simp only [Option.some.injEq, Prod.mk.injEq] at next
      obtain ⟨rfl, rfl⟩ := next
      refine ⟨rfl, weight_lt (by simp [isOver, hp]) rfl ?_⟩
      rw [hp]
      split <;> simp [Phase.weight]
    · cases next
  | start q latch =>
    simp only [step, hp, callStart, Stage.issue_eq, Option.some.injEq, Prod.mk.injEq] at next
    obtain ⟨rfl, rfl⟩ := next
    refine ⟨rfl, weight_lt (by simp [isOver, hp]) rfl ?_⟩
    rw [hp]
    cases latch with
    | some l => exact Nat.lt_succ_self 4
    | none => exact Nat.lt_of_le_of_lt (afterStart_weight q _) (by simp [Phase.weight])
  | countDown q l started =>
    simp only [step, hp, Option.some.injEq, Prod.mk.injEq] at next
    obtain ⟨rfl, rfl⟩ := next
    refine ⟨rfl, weight_lt (by simp [isOver, hp]) rfl ?_⟩
    rw [hp]
    exact Nat.lt_of_le_of_lt (afterStart_weight q _) (by simp [Phase.weight])
  | stream q =>
    simp only [step, hp, callStream] at next
    split at next
    · simp only [Option.some.injEq, Prod.mk.injEq] at next
      obtain ⟨rfl, rfl⟩ := next
      exact ⟨rfl, weight_lt (by simp [isOver, hp]) rfl (by simp [hp, Phase.weight])⟩
    · simp only [Stage.issue_eq, Option.some.injEq, Prod.mk.injEq] at next
      obtain ⟨rfl, rfl⟩ := next
      exact ⟨rfl, weight_lt (by simp [isOver, hp]) rfl (by simp [hp, Phase.weight])⟩
  | close =>
    simp only [step, hp, Stage.issue_eq, Option.some.injEq, Prod.mk.injEq] at next
    obtain ⟨rfl, rfl⟩ := next
    exact ⟨rfl, weight_lt (by simp [isOver, hp]) rfl (by simp [hp, Phase.weight])⟩
  | report r last =>
    have hnoted : (w.noteFailure r s).bulletin = s.bulletin := by cases r <;> rfl
    simp only [step, hp, send, Option.some.injEq] at next
    split at next
    · simp only [Prod.mk.injEq] at next
      obtain ⟨rfl, rfl⟩ := next
      refine ⟨hnoted, weight_lt (by simp [isOver, hp]) rfl ?_⟩
      rw [hp]
      cases last <;> simp [Phase.weight]
    · simp only [stop, Prod.mk.injEq] at next
      obtain ⟨rfl, rfl⟩ := next
      exact ⟨hnoted, weight_lt (by simp [isOver, hp]) rfl (by simp [hp, Phase.weight])⟩
  | ended => simp [step, hp] at next
  | died => simp [step, hp] at next

end Worker

namespace Run

theorem crewWeight_append (posted : Nat) (before after : List Worker) :
    crewWeight posted (before ++ after) = crewWeight posted before + crewWeight posted after := by
  induction before with
  | nil => simp [crewWeight]
  | cons w before ih =>
    simp only [List.cons_append, crewWeight, ih]
    omega

theorem weight_eq (r : Run) : r.weight =
    controlWeight r.size r.script r.control + crewWeight r.stage.bulletin.posted r.crew := rfl

theorem crewWeight_set (posted : Nat) {i : Nat} {crew : List Worker} {w : Worker} (w' : Worker)
    (hw : crew[i]? = some w) : crewWeight posted (crew.set i w') + w.weight posted =
      crewWeight posted crew + w'.weight posted := by
  obtain ⟨before, after, rfl, hset⟩ := exists_split hw
  rw [hset]
  simp only [crewWeight_append, crewWeight]
  omega

theorem crewWeight_post (posted : Nat) (crew : List Worker) :
    crewWeight (posted + 1) crew ≤ crewWeight posted crew + 7 * crew.length := by
  induction crew with
  | nil => simp [crewWeight]
  | cons w crew ih =>
    have hw := Worker.weight_le_of_post posted w
    simp only [crewWeight, List.length_cons]
    omega

theorem beginClose_weight (r : Run) (ending : Ending) :
    (r.beginClose ending).weight <
      closeWeight r.crew.length + crewWeight r.stage.bulletin.posted r.crew := by
  have hpost := crewWeight_post r.stage.bulletin.posted r.crew
  cases hcrew : r.crew.isEmpty with
  | true =>
    simp only [beginClose, hcrew, ↓reduceIte, weight_eq, controlWeight, size, Nat.sub_zero,
      closeWeight]
    omega
  | false =>
    simp only [beginClose, hcrew, Bool.false_eq_true, ↓reduceIte, Stage.post, Bulletin.post,
      weight_eq, controlWeight, size, Nat.sub_zero, closeWeight]
    omega

theorem connect_weight {r : Run} (hc : r.control = .connect) (hcrew : r.crew = []) :
    r.connect.weight < r.weight := by
  unfold connect
  split
  · simp [weight_eq, size, controlWeight, crewWeight, hc, hcrew]
  · split
    · simp [weight_eq, size, controlWeight, crewWeight, hc, hcrew]
    · simp only [beginClose, hcrew, List.isEmpty_nil, ↓reduceIte, weight_eq, controlWeight, size,
        List.length_nil, crewWeight, hc, closeWeight]
      omega

theorem hire_weight {r : Run} {waiting : List String} (hc : r.control = .hire waiting) :
    (r.hire waiting).weight < r.weight := by
  cases waiting with
  | nil => simp [hire, weight_eq, size, controlWeight, hc]
  | cons card waiting =>
    have hnew : (r.newWorker card).weight r.stage.bulletin.posted = 3 := by
      simp [newWorker, Worker.weight, Worker.isOver, Phase.weight]
    have hsize : r.crew.length + 1 + waiting.length = r.crew.length + (waiting.length + 1) := by
      omega
    simp only [hire, weight_eq, controlWeight, size, List.length_append, List.length_cons,
      List.length_nil, Nat.zero_add, hsize, crewWeight_append, crewWeight, hnew, hc]
    omega

theorem afterCollect_weight {r : Run} {duty : Duty} {index : Nat} {first : Option Error}
    (hc : r.control = .collect duty index first) :
    (r.afterCollect duty first).weight < r.weight := by
  cases duty with
  | stream => simp [afterCollect, tell, weight_eq, size, controlWeight, hc]
  | close =>
    simp only [afterCollect, weight_eq, controlWeight, size, hc]
    omega
  | configure =>
    cases first with
    | none =>
      simp only [afterCollect, tell, weight_eq, size, controlWeight, hc, Stage.note]
      omega
    | some e =>
      have hclose := r.beginClose_weight (.dropped (some e))
      simp only [afterCollect, r.weight_eq, size, controlWeight, hc]
      omega

theorem collect_weight {r r' : Run} {duty : Duty} {index : Nat} {first : Option Error}
    (hc : r.control = .collect duty index first) (next : r.collect duty index first = some r') :
    r'.weight < r.weight := by
  cases hw : r.crew[index]? with
  | none =>
    simp only [collect, hw, Option.some.injEq] at next
    subst next
    exact afterCollect_weight hc
  | some w =>
    have hlt : index < r.crew.length := (List.getElem?_eq_some_iff.mp hw).1
    cases ho : w.outbox with
    | cons report rest =>
      simp only [collect, hw, ho, Option.some.injEq] at next
      subst next
      have hsame : ({ w with outbox := rest } : Worker).weight r.stage.bulletin.posted =
          w.weight r.stage.bulletin.posted := rfl
      have hset := crewWeight_set r.stage.bulletin.posted { w with outbox := rest } hw
      cases duty <;> simp only [weight_eq, size, controlWeight, hc, List.length_set] <;> omega
    | nil =>
      simp only [collect, hw, ho] at next
      split at next
      · simp only [Option.some.injEq] at next
        subst next
        cases duty <;> simp only [weight_eq, size, controlWeight, hc] <;> omega
      · cases next

theorem serve_weight {r r' : Run} (hc : r.control = .ready) (next : r.serve = some r') :
    r'.weight < r.weight := by
  cases hs : r.script with
  | nil => simp [serve, hs] at next
  | cons request left =>
    have hbefore : r.weight = scriptWeight r.crew.length left + (closeWeight r.crew.length + 1) +
        crewWeight r.stage.bulletin.posted r.crew := by
      simp [weight_eq, size, controlWeight, hc, hs, scriptWeight, Nat.succ_mul]
    cases request with
    | stream q =>
      simp only [serve, hs, Option.some.injEq] at next
      subst next
      have hpost := crewWeight_post r.stage.bulletin.posted r.crew
      rw [hbefore]
      simp only [beginStream, weight_eq, size, controlWeight, closeWeight, Stage.post,
        Stage.addLatch, Bulletin.post]
      omega
    | close =>
      simp only [serve, hs, Option.some.injEq] at next
      subst next
      have hclose := beginClose_weight { r with script := left } .closed
      simp only at hclose
      omega
    | drop =>
      simp only [serve, hs, Option.some.injEq] at next
      subst next
      have hclose := beginClose_weight { r with script := left } (.dropped none)
      simp only at hclose
      omega

theorem join_weight {r r' : Run} {index : Nat} {first : Option Error}
    (hc : r.control = .join index first) (next : r.join index first = some r') :
    r'.weight < r.weight := by
  cases hw : r.crew[index]? with
  | none =>
    simp only [join, hw, Option.some.injEq] at next
    subst next
    simp [weight_eq, size, controlWeight, hc]
  | some w =>
    have hlt : index < r.crew.length := (List.getElem?_eq_some_iff.mp hw).1
    simp only [join, hw] at next
    split at next
    · simp only [Option.some.injEq] at next
      subst next
      simp only [weight_eq, size, controlWeight, hc]
      omega
    · simp only [Option.some.injEq] at next
      subst next
      simp only [weight_eq, size, controlWeight, hc]
      omega
    · cases next

theorem farewell_weight (r : Run) (first : Option Error) : (r.farewell first).weight =
    crewWeight r.stage.bulletin.posted r.crew := by
  obtain ⟨log, hr⟩ := Plan.farewell_eq r first
  rw [hr]
  simp [weight_eq, controlWeight]

theorem disconnect_weight {r : Run} {first : Option Error} (hc : r.control = .disconnect first) :
    (r.disconnect first).weight < r.weight := by
  have hbefore : r.weight = 1 + crewWeight r.stage.bulletin.posted r.crew := by
    simp only [weight_eq, controlWeight, hc]
  unfold disconnect
  split
  · simp only [Stage.issue_eq, farewell_weight]
    omega
  · rw [farewell_weight]
    omega

/-- No run goes on forever. -/
theorem step_weight {r r' : Run} {a : Actor} (hopen : r.control = .connect → r.crew = [])
    (next : r.step a = some r') : r'.weight < r.weight := by
  cases a with
  | controller =>
    have next : r.controllerStep = some r' := next
    cases hc : r.control with
    | connect =>
      simp only [controllerStep, hc, Option.some.injEq] at next
      subst next
      exact connect_weight hc (hopen hc)
    | hire waiting =>
      simp only [controllerStep, hc, Option.some.injEq] at next
      subst next
      exact hire_weight hc
    | collect duty index first =>
      simp only [controllerStep, hc] at next
      exact collect_weight hc next
    | ready =>
      simp only [controllerStep, hc] at next
      exact serve_weight hc next
    | join index first =>
      simp only [controllerStep, hc] at next
      exact join_weight hc next
    | disconnect first =>
      simp only [controllerStep, hc, Option.some.injEq] at next
      subst next
      exact disconnect_weight hc
    | _ => simp [controllerStep, hc] at next
  | worker index =>
    obtain ⟨w, w', s', hw, hstep, rfl⟩ := workerStep_eq next
    obtain ⟨hb, hlt⟩ := Worker.step_weight hstep
    have hset := crewWeight_set r.stage.bulletin.posted w' hw
    simp only [weight_eq, size, List.length_set, hb]
    omega

theorem stuck_worker {r : Run} {i : Nat} {w : Worker} (stuck : r.step (.worker i) = none)
    (hw : r.crew[i]? = some w) : w.step r.stage = none := by
  cases hstep : w.step r.stage with
  | none => rfl
  | some ws => simp [step, workerStep, hw, hstep] at stuck

end Run

namespace Plan

variable {p : Plan} {script : List Request} {past : List Round} {now : Round} {events : List Event}
  {r : Run}

/-- While the start latch is closed somebody is still to count it down. -/
theorem Inv.gate_closed (h : p.Inv script past now r) {i : Nat} {w : Worker}
    (hw : r.crew[i]? = some w) {q : Bool} {l : Nat} (hp : w.phase = .gate q l)
    (hclosed : (r.stage.latch l).isOpen = false) :
    ∃ (j : Nat) (v : Worker), r.crew[j]? = some v ∧ pending r.stage.bulletin.posted v = true := by
  have hfits := (h.workers i w hw).phase
  simp only [PhaseFits, hp] at hfits
  obtain ⟨htask, -, hl⟩ := hfits
  obtain ⟨l', -, hl', hlatch⟩ := h.board.latch q htask
  obtain rfl : l' = l := by omega
  have hcount : r.crew.countP (pending r.stage.bulletin.posted) ≠ 0 := by
    simpa [Latch.isOpen, Stage.latch, hlatch] using hclosed
  obtain ⟨v, hv, hpend⟩ := List.countP_pos_iff.mp (Nat.pos_of_ne_zero hcount)
  obtain ⟨j, hj⟩ := List.mem_iff_getElem?.mp hv
  exact ⟨j, v, hj, hpend⟩

/-- When no worker can go on, all have done their part. -/
theorem Inv.all_done (h : p.Inv script past now r) (stuck : ∀ i, r.step (.worker i) = none)
    {i : Nat} {w : Worker} (hw : r.crew[i]? = some w) : p.ahead r.stage.bulletin w = [] := by
  rcases (h.workers i w hw).blocked (Run.stuck_worker (stuck i) hw) with hdone | ⟨q, l, hp, hclosed⟩
  · exact hdone
  · obtain ⟨j, v, hv, hpend⟩ := h.gate_closed hw hp hclosed
    exact absurd (Run.stuck_worker (stuck j) hv) ((h.workers j v hv).pending_steps hpend)

/-- When all workers have done their part, the controller goes on or waits for its owner. -/
theorem Inv.controller_at_rest (h : p.Inv script past now r)
    (hdone : ∀ (i : Nat) (w : Worker), r.crew[i]? = some w → p.ahead r.stage.bulletin w = [])
    (hstuck : r.controllerStep = none) :
    r.control = .over ∨ r.control = .ready ∧ r.script = [] := by
  have hcontrol := h.course.control
  cases hc : r.control with
  | connect => simp [ControlFits, hc] at hcontrol
  | hire waiting => simp [Run.controllerStep, hc] at hstuck
  | collect duty i first =>
    simp only [Run.controllerStep, hc] at hstuck
    cases hw : r.crew[i]? with
    | none => simp [Run.collect, hw] at hstuck
    | some w =>
      have hemp : p.Employs now.task now.events r.stage false w := by
        simpa [Run.collected, hc] using h.workers i w hw
      cases ho : w.outbox with
      | nil => exact absurd ho (hemp.outbox_ne_nil (hdone i w hw))
      | cons report rest => simp [Run.collect, hw, ho] at hstuck
  | ready =>
    refine .inr ⟨rfl, ?_⟩
    simp only [Run.controllerStep, hc] at hstuck
    cases hs : r.script with
    | nil => rfl
    | cons request left => cases request <;> simp [Run.serve, hs] at hstuck
  | join i first =>
    simp only [Run.controllerStep, hc] at hstuck
    simp only [ControlFits, hc] at hcontrol
    cases hw : r.crew[i]? with
    | none => simp [Run.join, hw] at hstuck
    | some w =>
      have hemp := h.workers i w hw
      rw [hcontrol.1] at hemp
      simp [Run.join, hw, hemp.ended (hdone i w hw)] at hstuck
  | disconnect first => simp [Run.controllerStep, hc] at hstuck
  | _ => exact .inl rfl

theorem Aborted.at_rest {e : Error} (h : p.Aborted e events r) (rest : r.AtRest) :
    r.control = .over := by
  have hstuck : r.controllerStep = none := rest .controller
  rcases h.control with ⟨-, -, hc | hc | hc⟩ | ⟨-, -, hc⟩
  · simp [Run.controllerStep, hc, Run.collect, h.crew] at hstuck
  · simp [Run.controllerStep, hc, Run.join, h.crew] at hstuck
  · simp [Run.controllerStep, hc] at hstuck
  · exact hc

theorem Inv.weight_lt {r' : Run} {a : Actor} (h : p.Inv script past now r)
    (next : r.step a = some r') : r'.weight < r.weight := by
  refine Run.step_weight (fun hc => ?_) next
  have hcontrol := h.course.control
  simp [ControlFits, hc] at hcontrol

/-- Each step of a run brings it closer to its end. -/
theorem weight_lt {r' : Run} {a : Actor} (h : (p.start script).Leads events r)
    (next : r.step a = some r') : r'.weight < r.weight := by
  cases reached h with
  | start state _ => exact Run.step_weight (fun _ => by rw [state]; rfl) next
  | running _ past now inv _ => exact inv.weight_lt next
  | aborted e state => exact Run.step_weight (fun _ => state.crew) next

/-- Whatever happened so far, the run comes to rest. -/
theorem comes_to_rest {events : List Event} {r : Run} (h : (p.start script).Leads events r) :
    ∃ more r', r.Leads more r' ∧ r'.AtRest := by
  by_cases rest : r.AtRest
  · exact ⟨[], r, .start, rest⟩
  · obtain ⟨a, ha⟩ := Classical.not_forall.mp rest
    obtain ⟨r', next⟩ := Option.ne_none_iff_exists'.mp ha
    have hlt := weight_lt h next
    obtain ⟨more, r'', hleads, hrest⟩ := comes_to_rest (h.step a next)
    exact ⟨_, r'', (Run.Leads.step a .start next).trans hleads, hrest⟩
termination_by r.weight

end Plan

end Sequencer
