import Sequencer.Proofs.Run.Sequential

namespace Sequencer

namespace Worker

/-- The only thing a worker does to the backend in a step is to make a call. -/
theorem step_backend {w w' : Worker} {s s' : Stage} (next : w.step s = some (w', s')) :
    s'.backend = s.backend ∨ ∃ c, s'.backend = (s.backend.issue c).2 := by
  have hnoted : ∀ r, (w.noteFailure r s).backend = s.backend := by
    intro r
    cases r <;> rfl
  cases hp : w.phase with
  | configure =>
    simp only [step, hp, Stage.issue_eq, Option.some.injEq, Prod.mk.injEq] at next
    exact .inr ⟨_, by rw [← next.2]⟩
  | listen =>
    simp only [step, hp, listen] at next
    split at next
    · cases next
    · cases next
      exact .inl rfl
    · cases next
      exact .inl rfl
  | gate q l =>
    simp only [step, hp, passGate] at next
    split at next
    · cases next
      exact .inl rfl
    · cases next
  | start q latch =>
    simp only [step, hp, callStart, Stage.issue_eq, Option.some.injEq, Prod.mk.injEq] at next
    exact .inr ⟨_, by rw [← next.2]⟩
  | countDown q l started =>
    simp only [step, hp, Option.some.injEq, Prod.mk.injEq] at next
    exact .inl (by rw [← next.2]; rfl)
  | stream q =>
    simp only [step, hp, callStream, Stage.issue_eq] at next
    split at next
    · cases next
      exact .inl rfl
    · cases next
      exact .inr ⟨_, rfl⟩
  | close =>
    simp only [step, hp, Stage.issue_eq, Option.some.injEq, Prod.mk.injEq] at next
    exact .inr ⟨_, by rw [← next.2]⟩
  | report r last =>
    simp only [step, hp, send, Option.some.injEq] at next
    split at next
    · cases next
      exact .inl (hnoted r)
    · cases next
      exact .inl (hnoted r)
  | ended => simp [step, hp] at next
  | died => simp [step, hp] at next

end Worker

namespace Run

variable {r r' : Run}

theorem beginClose_backend (r : Run) (ending : Ending) :
    (r.beginClose ending).stage.backend = r.stage.backend := by
  unfold beginClose
  split <;> rfl

theorem farewell_backend (r : Run) (first : Option Error) :
    (r.farewell first).stage.backend = r.stage.backend := by
  obtain ⟨log, hr⟩ := Plan.farewell_eq r first
  rw [hr]

theorem disconnect_connected {first : Option Error} {source target : String}
    (connected : r.connected = true) (exports : r.refClock = some (source, target)) :
    (r.disconnect first).stage.backend = (r.stage.backend.issue (.disconnect source target)).2 := by
  simp only [disconnect, connected, exports, farewell_backend, Stage.issue_eq]

theorem disconnect_backend (r : Run) (first : Option Error) :
    (r.disconnect first).stage.backend = r.stage.backend ∨
      ∃ c, (r.disconnect first).stage.backend = (r.stage.backend.issue c).2 := by
  unfold disconnect
  split
  case h_1 source target connected exports =>
    exact .inr ⟨_, by rw [farewell_backend, Stage.issue_eq]⟩
  case h_2 => exact .inl (farewell_backend ..)

/-- The connection taken back is gone. -/
theorem disconnect_forgets {first : Option Error} {source target : String}
    (connected : r.connected = true) (exports : r.refClock = some (source, target))
    (accepted : r.stage.backend.accepts (.disconnect source target) = true) :
    (source, target) ∉ (r.disconnect first).stage.backend.connections := by
  rw [disconnect_connected connected exports]
  simp [Backend.issue, accepted, Backend.connectionsAfter]

/-- The run is over when the connection is taken back, and not before. Every step of the controller
makes at most one call. -/
theorem controllerStep_cases (next : r.controllerStep = some r') :
    (∃ first, r.control = .disconnect first ∧ r' = r.disconnect first) ∨
      r'.control ≠ .over ∧ (r'.stage.backend = r.stage.backend ∨
        ∃ c, r'.stage.backend = (r.stage.backend.issue c).2) := by
  cases hc : r.control with
  | connect =>
    simp only [controllerStep, hc, Option.some.injEq, connect] at next
    subst next
    cases hclock : r.refClock with
    | none => exact .inr ⟨Control.noConfusion, .inl rfl⟩
    | some connection =>
      obtain ⟨source, target⟩ := connection
      simp only [Stage.issue_eq]
      cases r.stage.backend.verdict (.connect source target) with
      | ok => exact .inr ⟨Control.noConfusion, .inr ⟨.connect source target, rfl⟩⟩
      | error e =>
        exact .inr ⟨Control.noConfusion, .inr ⟨.connect source target, beginClose_backend ..⟩⟩
  | hire waiting =>
    simp only [controllerStep, hc, Option.some.injEq] at next
    subst next
    cases waiting <;> exact .inr ⟨Control.noConfusion, .inl rfl⟩
  | collect duty index first =>
    simp only [controllerStep, hc, collect] at next
    split at next
    · cases next
      cases duty with
      | configure =>
        cases first with
        | none => exact .inr ⟨Control.noConfusion, .inl rfl⟩
        | some e => exact .inr ⟨Control.noConfusion, .inl (beginClose_backend ..)⟩
      | stream => exact .inr ⟨Control.noConfusion, .inl rfl⟩
      | close => exact .inr ⟨Control.noConfusion, .inl rfl⟩
    · split at next
      · cases next
        exact .inr ⟨Control.noConfusion, .inl rfl⟩
      · split at next
        · cases next
          exact .inr ⟨Control.noConfusion, .inl rfl⟩
        · cases next
  | ready =>
    simp only [controllerStep, hc, serve] at next
    split at next
    · cases next
    · cases next
      exact .inr ⟨Control.noConfusion, .inl rfl⟩
    · cases next
      exact .inr ⟨Control.noConfusion, .inl (beginClose_backend ..)⟩
    · cases next
      exact .inr ⟨Control.noConfusion, .inl (beginClose_backend ..)⟩
  | join index first =>
    simp only [controllerStep, hc, join] at next
    split at next
    · cases next
      exact .inr ⟨Control.noConfusion, .inl rfl⟩
    · split at next
      · cases next
        exact .inr ⟨Control.noConfusion, .inl rfl⟩
      · cases next
        exact .inr ⟨Control.noConfusion, .inl rfl⟩
      · cases next
  | disconnect first =>
    simp only [controllerStep, hc, Option.some.injEq] at next
    exact .inl ⟨first, rfl, next.symm⟩
  | «over» => simp [controllerStep, hc] at next

theorem step_backend {a : Actor} (next : r.step a = some r') :
    r'.stage.backend = r.stage.backend ∨
      ∃ c, r'.stage.backend = (r.stage.backend.issue c).2 := by
  cases a with
  | controller =>
    rcases controllerStep_cases next with ⟨first, -, rfl⟩ | ⟨-, hbackend⟩
    · exact r.disconnect_backend first
    · exact hbackend
  | worker index =>
    obtain ⟨w, w', s', -, hstep, rfl⟩ := workerStep_eq next
    exact Worker.step_backend hstep

/-- What is seen of a step are the calls that it adds to the log. -/
theorem shown_calls {a : Actor} {calls : List Call}
    (hc : r'.stage.backend.calls = r.stage.backend.calls ++ calls) :
    Event.calls (r.shown a r') = calls := by
  have hnone : ∀ {α : Type} (f : α → Event) (xs : List α), (∀ x, (f x).call? = none) →
      Event.calls (xs.map f) = [] := by
    intro α f xs hf
    simp [Event.calls, hf]
  have htold := hnone .told (r'.results.drop r.results.length) fun _ => rfl
  have hreported : ∀ index, Event.calls (reported index r r') = [] := by
    intro index
    unfold reported
    split
    · exact hnone _ _ fun _ => rfl
    · rfl
  have hbegun : Event.calls (if r.stage.bulletin.posted < r'.stage.bulletin.posted then
      [.begun (.ofCommand r'.stage.bulletin.latest)] else []) = [] := by
    split <;> rfl
  cases a <;> simp only [shown, hc, List.drop_left, Event.calls_append, Event.calls_map_call, hbegun,
    htold, hreported, List.nil_append, List.append_nil]

/-- The log of the backend holds the calls that were seen, and those from before the run. -/
theorem Leads.calls {start : Run} {events : List Event} (h : start.Leads events r) :
    r.stage.backend.calls = start.stage.backend.calls ++ Event.calls events := by
  induction h with
  | start => simp
  | @step events r r' a _ next ih =>
    obtain ⟨calls, hcalls⟩ : ∃ calls, r'.stage.backend.calls = r.stage.backend.calls ++ calls := by
      rcases step_backend next with hsame | ⟨c, hissued⟩
      · exact ⟨[], by rw [hsame, List.append_nil]⟩
      · exact ⟨[c], by rw [hissued, Backend.issue_calls]⟩
    rw [Event.calls_append, shown_calls hcalls, hcalls, ih, List.append_assoc]

end Run

namespace Plan

variable {p : Plan} {script : List Request} {past : List Round} {now : Round} {events : List Event}
  {r : Run}

/-- No worker outlives its run. -/
theorem over_at_rest (h : (p.start script).Leads events r) (hover : r.control = .over) :
    r.AtRest := by
  cases reached h with
  | start state _ =>
    rw [state] at hover
    cases hover
  | running _ past now inv _ => exact inv.over_at_rest hover
  | aborted e state =>
    intro a
    cases a with
    | controller => simp [Run.step, Run.controllerStep, hover]
    | worker i => simp [Run.step, Run.workerStep, state.crew]

/-- A run that is over took back the connection in its last step. -/
theorem last_step (h : (p.start script).Leads events r) (hover : r.control = .over) :
    ∃ before r₀ first, (p.start script).Leads before r₀ ∧ r₀.control = .disconnect first ∧
      r = r₀.disconnect first ∧ events = before ++ r₀.shown .controller r := by
  cases h with
  | start => cases hover
  | @step before r₀ _ a hbefore next =>
    cases a with
    | worker index =>
      obtain ⟨w, w', s', -, -, rfl⟩ := Run.workerStep_eq next
      rw [over_at_rest hbefore hover] at next
      cases next
    | controller =>
      rcases Run.controllerStep_cases next with ⟨first, hc, hr⟩ | ⟨hgoes, -⟩
      · exact ⟨before, r₀, first, hbefore, hc, hr, rfl⟩
      · exact absurd hover hgoes

/-- In a completed round without calls of the controller, each card makes the calls that the plan
has for it. -/
theorem Inv.round_perm (h : p.Inv script past now r) (hnone : p.undone r = []) {round : Round}
    (hround : round ∈ past ++ [now]) (hdone : p.Complete round) :
    (Event.calls round.events).Perm (p.round round.task) := by
  apply perm_of_filter Call.maker?
  intro maker
  cases maker with
  | some c =>
    have hcalls := h.complete_calls hround hdone c
    rw [← Event.calls_own, ← p.madeBy_round] at hcalls
    exact hcalls
  | none =>
    have hexternal := h.external
    rw [hnone] at hexternal
    have hcalls : Call.madeBy none (Event.calls round.events) = [] := by
      apply Call.madeBy_eq_nil
      intro c hc hmaker
      have hmem : c ∈ Plan.external (past ++ [now]) :=
        List.mem_filter.mpr ⟨List.mem_flatMap.mpr ⟨round, hround, hc⟩, by simp [hmaker]⟩
      rw [hexternal] at hmem
      cases hmem
    exact hcalls.trans (p.madeBy_none_round round.task).symm

/-- Before the connection is taken back, the calls are those of all tasks, one after another. -/
theorem Inv.calls_of_tasks (h : p.Inv script past now r) {first : Option Error}
    (hc : r.control = .disconnect first) :
    ∃ parts, Event.calls (p.trace (past ++ [now])) = p.connectCalls ++ parts.flatten ∧
      List.Forall₂ (fun t calls => calls.Perm (p.round t)) (p.agenda script) parts := by
  have hdone : p.Complete now := h.complete (by simp [Run.waiting, hc]) fun i w _ => by
    simp [Run.collected, hc]
  have htasks := h.course.tasks
  simp only [tasksAhead, hc] at htasks
  have hagenda : p.agenda script = (past ++ [now]).map Round.task := by simp [← htasks]
  refine ⟨(past ++ [now]).map fun round => Event.calls round.events, ?_, ?_⟩
  · rw [calls_trace, List.flatMap_def]
  · rw [hagenda, List.forall₂_map_left_iff, List.forall₂_map_right_iff, List.forall₂_same]
    intro round hround
    apply h.round_perm (by simp only [undone, hc]) hround
    rcases List.mem_append.mp hround with hpast | hnow
    · exact h.history.complete round hpast
    · rw [List.mem_singleton.mp hnow]
      exact hdone

theorem round_configure (p : Plan) :
    (p.round .configure).Perm (p.cards.map (.configureRun · p.bufferMs)) := by
  have hround : p.round .configure = p.inTurn.map (.configureRun · p.bufferMs) :=
    List.map_eq_flatMap.symm
  rw [hround]
  exact p.inTurn_perm.map _

theorem round_close (p : Plan) : (p.round .close).Perm (p.cards.map .closeRun) := by
  have hround : p.round .close = p.inTurn.map .closeRun := List.map_eq_flatMap.symm
  rw [hround]
  exact p.inTurn_perm.map _

/-- The connection is made, if there is one to make. -/
def Connects (p : Plan) : Prop :=
  ∀ source target, p.refClock = some (source, target) →
    p.backend.accepts (.connect source target) = true

/-- Every card is configured. -/
def Configures (p : Plan) : Prop :=
  ∀ c ∈ p.cards, p.backend.accepts (.configureRun c p.bufferMs) = true

/-- The phases of all calls of a run, by what went wrong before the first repetition. -/
inductive Phased (p : Plan) (repetitions : List Bool) : List Call → Prop
  | refused {source target : String} (exports : p.refClock = some (source, target))
      (refused : p.backend.accepts (.connect source target) = false) :
      Phased p repetitions [.connect source target]
  | unconfigured {configured closed : List Call} (connects : p.Connects)
      (fails : ¬ p.Configures)
      (configuring : configured.Perm (p.cards.map (.configureRun · p.bufferMs)))
      (closing : closed.Perm (p.cards.map .closeRun)) :
      Phased p repetitions (p.connectCalls ++ configured ++ closed ++ p.disconnectCalls)
  | played {configured closed : List Call} {rounds : List (List Call)} (connects : p.Connects)
      (configures : p.Configures)
      (configuring : configured.Perm (p.cards.map (.configureRun · p.bufferMs)))
      (playing : List.Forall₂ (fun calcNext calls => calls.Perm (p.round (.stream calcNext)))
        repetitions rounds)
      (closing : closed.Perm (p.cards.map .closeRun)) :
      Phased p repetitions
        (p.connectCalls ++ configured ++ rounds.flatten ++ closed ++ p.disconnectCalls)

theorem connects_iff (p : Plan) : p.Connects ↔ p.verdictOn p.connectCalls = .ok () := by
  unfold Connects connectCalls
  cases p.refClock with
  | none => simp [verdictOn]
  | some connection =>
    obtain ⟨source, target⟩ := connection
    cases ha : p.backend.accepts (.connect source target) <;>
      simp_all [verdictOn, Backend.verdict]

theorem keepFirst_foldl_eq_none (first : Option Error) (rs : List Report) :
    rs.foldl Run.keepFirst first = none ↔ first = none ∧ ∀ r ∈ rs, r = .ok () := by
  induction rs generalizing first with
  | nil => simp
  | cons r rs ih =>
    rw [List.foldl_cons, ih, List.forall_mem_cons, ← and_assoc]
    refine and_congr_left fun _ => ?_
    cases first <;> cases r <;> simp [Run.keepFirst]

theorem configures_iff (p : Plan) :
    p.Configures ↔ p.firstError p.cards .configure = none := by
  rw [firstError, keepFirst_foldl_eq_none, List.forall_mem_map]
  simp only [true_and]
  refine forall₂_congr fun c _ => ?_
  cases ha : p.backend.accepts (.configureRun c p.bufferMs) <;> simp [turn, Backend.verdict, ha]

/-- The calls of all tasks of a run are those of its phases. -/
theorem phased_of_parts {repetitions : List Bool} {dropped : Bool} {parts : List (List Call)}
    (connects : p.Connects) (h : List.Forall₂ (fun t calls => calls.Perm (p.round t))
      (p.agenda (Plan.script repetitions dropped)) parts) :
    p.Phased repetitions (p.connectCalls ++ parts.flatten ++ p.disconnectCalls) := by
  cases hfirst : p.firstError p.cards .configure with
  | some e =>
    simp only [agenda, hfirst] at h
    obtain ⟨configured, _, hconfigured, hlater, rfl⟩ := List.forall₂_cons_left_iff.mp h
    obtain ⟨closed, _, hclosed, hnone, rfl⟩ := List.forall₂_cons_left_iff.mp hlater
    cases hnone
    have hphased : p.Phased repetitions _ := .unconfigured connects
      (fun hall => by simp [p.configures_iff.mp hall] at hfirst)
      (hconfigured.trans p.round_configure) (hclosed.trans p.round_close)
    simpa using hphased
  | none =>
    simp only [agenda, hfirst, tasks_script] at h
    obtain ⟨configured, _, hconfigured, hlater, rfl⟩ := List.forall₂_cons_left_iff.mp h
    obtain ⟨rounds, _, hrounds, hlast, rfl⟩ := forall₂_split hlater
    obtain ⟨closed, _, hclosed, hnone, rfl⟩ := List.forall₂_cons_left_iff.mp hlast
    cases hnone
    have hphased := Phased.played connects (p.configures_iff.mpr hfirst)
      (hconfigured.trans p.round_configure) (List.forall₂_map_left_iff.mp hrounds)
      (hclosed.trans p.round_close)
    simpa using hphased

/-- However a run goes on, it comes to its end, and then its calls came in phases: the connection,
the configuration of every card, one repetition after another, the closing of every card, and the
end of the connection, which is gone unless the backend refused to take it back. -/
theorem calls_phased {repetitions : List Bool} {dropped : Bool}
    (h : (p.start (Plan.script repetitions dropped)).Leads events r) :
    (∃ more r', r.Leads more r' ∧ r'.AtRest) ∧
      (∀ a r', r.step a = some r' → r'.weight < r.weight) ∧
      (r.AtRest → ∃ calls, r.stage.backend.calls = p.backend.calls ++ calls ∧
        p.Phased repetitions calls ∧
        ∀ source target, p.refClock = some (source, target) →
          p.backend.accepts (.connect source target) = true →
          p.backend.accepts (.disconnect source target) = true →
          (source, target) ∉ r.stage.backend.connections) := by
  refine ⟨comes_to_rest h, fun a r' next => weight_lt h next,
    fun rest => ⟨Event.calls events, h.calls, ?_⟩⟩
  have hover := over_of_rest h rest
  cases reached h with
  | start state _ =>
    rw [state] at hover
    cases hover
  | aborted e state =>
    obtain ⟨-, hcalls, -⟩ := aborted_sequential state repetitions dropped
    have hnot : ¬ p.Connects := fun hall => by
      rw [connects_iff, state.refused] at hall
      cases hall
    obtain ⟨source, target, hclock, hrefused⟩ : ∃ source target,
        p.refClock = some (source, target) ∧
          p.backend.accepts (.connect source target) = false := by
      simpa [Connects] using hnot
    have hconnect : p.connectCalls = [.connect source target] := by simp [connectCalls, hclock]
    rw [hcalls, hconnect]
    refine ⟨.refused hclock hrefused, fun s t hst accepted => ?_⟩
    rw [hclock] at hst
    cases hst
    rw [hrefused] at accepted
    cases accepted
  | running accepted past now inv history =>
    obtain ⟨before, r₀, first, h₀, hc, rfl, rfl⟩ := last_step h hover
    cases reached h₀ with
    | start state _ =>
      rw [state] at hc
      cases hc
    | aborted e state =>
      rw [state.refused] at accepted
      cases accepted
    | running _ past₀ now₀ inv₀ history₀ =>
      have hconnected := inv₀.course.connected (by simp [hc])
      have hfirst := inv₀.course.control
      simp only [ControlFits, hc] at hfirst
      obtain ⟨connected, stage, heq, -, -, -, -, hcalls⟩ := disconnect_eq inv₀.setting.refClock
        hconnected inv₀.setting.failing hfirst.2
      obtain ⟨parts, hparts, hphases⟩ := inv₀.calls_of_tasks hc
      constructor
      · rw [Event.calls_append, history₀, hparts, Run.shown_calls (by rw [heq]; exact hcalls)]
        exact phased_of_parts (p.connects_iff.mpr accepted) hphases
      · intro source target hclock _ haccepts
        apply Run.disconnect_forgets (hconnected.trans (by rw [hclock]; rfl))
          (inv₀.setting.refClock.trans hclock)
        simpa only [Backend.accepts, inv₀.setting.failing] using haccepts

/-- Two cards and an exported clock. The second card does not start, the first does not close. -/
def exportPlan : Plan where
  cards := ["clock", "other"]
  bufferMs := 50
  refClock := some ("/clock/10MHzRefClock", "/other/PFI0")
  backend := { failing := [.start "other", .closeRun "clock"] }
  some_card := by decide
  distinct := by decide

/-- Everybody steps in turn. -/
def turns (n : Nat) : List Actor :=
  (List.replicate n [.worker 1, .controller, .worker 0]).flatten

def exportRun : Run := ((exportPlan.start (Plan.script [true, false] true)).follow (turns 40)).2

theorem exportRun_phased : exportRun.AtRest ∧
    ∃ calls, exportRun.stage.backend.calls = exportPlan.backend.calls ++ calls ∧
      exportPlan.Phased [true, false] calls ∧
      ("/clock/10MHzRefClock", "/other/PFI0") ∉ exportRun.stage.backend.connections := by
  have h := Run.leads_follow (turns 40) (exportPlan.start (Plan.script [true, false] true))
  have rest : exportRun.AtRest := over_at_rest h rfl
  obtain ⟨-, -, hphased⟩ := calls_phased h
  obtain ⟨calls, hcalls, hphases, hgone⟩ := hphased rest
  exact ⟨rest, calls, hcalls, hphases, hgone _ _ rfl rfl rfl⟩

end Plan

end Sequencer
