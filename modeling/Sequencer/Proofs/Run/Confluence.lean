import Sequencer.Proofs.Run.Termination

namespace Sequencer

namespace Event

theorem calls_own (c : String) (es : List Event) :
    Call.madeBy (some c) (calls es) = calls (own c es) := by
  induction es with
  | nil => rfl
  | cons e es ih =>
    have htail : own c (e :: es) = if isOf c e then e :: own c es else own c es :=
      List.filter_cons
    cases e with
    | call made =>
      have hiff : isOf c (.call made) = (made.maker? == some c) := rfl
      rw [calls_call, Call.madeBy, List.filter_cons, ← Call.madeBy, ih, htail, hiff]
      split <;> rfl
    | report card r =>
      rw [calls_report, ih, htail]
      split <;> rfl
    | begun t => exact ih
    | told r => exact ih

end Event

theorem Round.calls_trace (r : Round) : Event.calls r.trace = Event.calls r.events := by
  unfold Round.trace
  split
  · rfl
  · exact Event.calls_begun ..

namespace Plan

variable {p : Plan} {script : List Request} {past : List Round} {now : Round} {r : Run}

/-- The calls of a task that one worker makes. -/
def part (p : Plan) (c : String) (t : Task) : List Call :=
  if c ∈ p.cards then (p.turn c t).1 else []

theorem madeBy_turn (p : Plan) (c card : String) (t : Task) :
    Call.madeBy (some c) (p.turn card t).1 = if card = c then (p.turn card t).1 else [] := by
  split
  case isTrue heq => exact Call.madeBy_eq_self fun made hmade => by rw [turn_maker hmade, heq]
  case isFalse hne =>
    exact Call.madeBy_eq_nil fun made hmade => by simpa [turn_maker hmade] using hne

theorem inTurn_perm (p : Plan) : p.inTurn.Perm p.cards := by
  simpa [inTurn] using List.filter_append_perm (!p.isHeld ·) p.cards

theorem madeBy_round (p : Plan) (c : String) (t : Task) :
    Call.madeBy (some c) (p.round t) = p.part c t := by
  have hturn : ∀ cards : List String, cards.Nodup →
      Call.madeBy (some c) (cards.flatMap fun card => (p.turn card t).1) =
        if c ∈ cards then (p.turn c t).1 else [] := by
    intro cards hnodup
    induction cards with
    | nil => rfl
    | cons card cards ih =>
      obtain ⟨hnew, hrest⟩ := List.nodup_cons.mp hnodup
      rw [List.flatMap_cons, Call.madeBy_append, madeBy_turn, ih hrest]
      by_cases heq : card = c
      · subst heq
        simp [hnew]
      · simp [heq, Ne.symm heq]
  rw [round, hturn _ (p.inTurn_perm.nodup_iff.mpr p.distinct), part]
  simp only [p.inTurn_perm.mem_iff]

theorem madeBy_none_round (p : Plan) (t : Task) : Call.madeBy none (p.round t) = [] := by
  apply Call.madeBy_eq_nil
  intro made hmade
  obtain ⟨card, -, hturn⟩ := List.mem_flatMap.mp hmade
  simp [turn_maker hturn]

theorem connect_maker {c : Call} (hc : c ∈ p.connectCalls) : c.maker? = none := by
  unfold connectCalls at hc
  split at hc
  · rw [List.mem_singleton.mp hc]
    rfl
  · cases hc

theorem calls_trace (p : Plan) (rounds : List Round) : Event.calls (p.trace rounds) =
    p.connectCalls ++ rounds.flatMap fun round => Event.calls round.events := by
  rw [trace, Event.calls_append, Event.calls_map_call]
  congr 1
  induction rounds with
  | nil => rfl
  | cons round rounds ih =>
    rw [List.flatMap_cons, List.flatMap_cons, Event.calls_append, round.calls_trace, ih]

theorem calls_acts (p : Plan) {c : String} (hc : c ∈ p.cards) (t : Task) :
    Event.calls (p.acts c t) = p.part c t := by
  rw [acts, calls_events, part, if_pos hc]

/-- Only the workers of the run are seen. -/
theorem Inv.own_stranger (h : p.Inv script past now r) {round : Round}
    (hround : round ∈ past ++ [now]) {c : String} (hc : c ∉ p.cards) :
    Event.own c round.events = [] := by
  refine Event.own_eq_nil fun e he heq => hc ?_
  obtain ⟨before, after, hsplit⟩ := List.append_of_mem he
  exact (h.history.orderly round hround before e after hsplit).1 c heq

theorem Inv.complete_calls (h : p.Inv script past now r) {round : Round}
    (hround : round ∈ past ++ [now]) (hdone : p.Complete round) (c : String) :
    Event.calls (Event.own c round.events) = p.part c round.task := by
  by_cases hc : c ∈ p.cards
  · rw [hdone c hc, p.calls_acts hc]
  · rw [h.own_stranger hround hc, part, if_neg hc]
    rfl

/-- A worker has shown the first of what the plan has for it. -/
theorem Inv.own_prefix (h : p.Inv script past now r) {c : String} (hc : c ∈ p.cards) :
    Event.own c now.events <+: p.acts c now.task := by
  rw [← h.crew] at hc
  rcases List.mem_append.mp hc with hcrew | hwaiting
  · obtain ⟨w, hw, rfl⟩ := List.mem_map.mp hcrew
    obtain ⟨i, hi⟩ := List.mem_iff_getElem?.mp hw
    exact ⟨_, (h.workers i w hi).history⟩
  · rw [h.unhired c hwaiting]
    exact List.nil_prefix

theorem Inv.own_calls (h : p.Inv script past now r) (c : String) :
    Event.calls (Event.own c now.events) <+: p.part c now.task := by
  by_cases hc : c ∈ p.cards
  · rw [← p.calls_acts hc]
    exact (h.own_prefix hc).filterMap _
  · rw [h.own_stranger (by simp) hc]
    exact List.nil_prefix

theorem Inv.calls_of_card (h : p.Inv script past now r) (c : String) :
    Call.madeBy (some c) (Event.calls (p.trace (past ++ [now]))) =
      (past.map (·.task)).flatMap (p.part c) ++ Event.calls (Event.own c now.events) := by
  have hconnect : Call.madeBy (some c) p.connectCalls = [] :=
    Call.madeBy_eq_nil fun made hmade => by simp [connect_maker hmade]
  have hpast : ∀ rounds : List Round, (∀ round ∈ rounds, round ∈ past) →
      Call.madeBy (some c) (rounds.flatMap fun round => Event.calls round.events) =
        (rounds.map (·.task)).flatMap (p.part c) := by
    intro rounds hsub
    induction rounds with
    | nil => rfl
    | cons round rounds ih =>
      have hround := hsub round List.mem_cons_self
      rw [List.flatMap_cons, Call.madeBy_append, Event.calls_own,
        h.complete_calls (List.mem_append_left _ hround) (h.history.complete round hround),
        ih fun other hother => hsub other (List.mem_cons_of_mem _ hother)]
      rfl
  rw [calls_trace, Call.madeBy_append, hconnect, List.nil_append, List.flatMap_append,
    Call.madeBy_append, hpast past fun _ hround => hround]
  simp [Event.calls_own]

theorem Inv.calls_of_controller (h : p.Inv script past now r) :
    Call.madeBy none (Event.calls (p.trace (past ++ [now]))) = p.connectCalls ++ p.undone r := by
  rw [calls_trace, Call.madeBy_append, Call.madeBy_eq_self fun c hc => connect_maker hc]
  exact congrArg _ h.external

/-- All calls of a run whose connection was accepted, one task after another. -/
def allCalls (p : Plan) (script : List Request) : List Call :=
  p.connectCalls ++ (p.agenda script).flatMap p.round ++ p.disconnectCalls

theorem madeBy_allCalls (p : Plan) (script : List Request) (c : String) :
    Call.madeBy (some c) (p.allCalls script) = (p.agenda script).flatMap (p.part c) := by
  have hconnect : Call.madeBy (some c) p.connectCalls = [] :=
    Call.madeBy_eq_nil fun made hmade => by simp [connect_maker hmade]
  have hdisconnect : Call.madeBy (some c) p.disconnectCalls = [] :=
    Call.madeBy_eq_nil fun made hmade => by simp [disconnect_maker hmade]
  have hrounds : ∀ tasks : List Task, Call.madeBy (some c) (tasks.flatMap p.round) =
      tasks.flatMap (p.part c) := by
    intro tasks
    induction tasks with
    | nil => rfl
    | cons t tasks ih => rw [List.flatMap_cons, Call.madeBy_append, madeBy_round, ih]; rfl
  rw [allCalls, Call.madeBy_append, Call.madeBy_append, hconnect, hdisconnect, hrounds]
  simp

theorem madeBy_none_allCalls (p : Plan) (script : List Request) :
    Call.madeBy none (p.allCalls script) = p.connectCalls ++ p.disconnectCalls := by
  have hrounds : ∀ tasks : List Task, Call.madeBy none (tasks.flatMap p.round) = [] := by
    intro tasks
    induction tasks with
    | nil => rfl
    | cons t tasks ih => rw [List.flatMap_cons, Call.madeBy_append, madeBy_none_round, ih]; rfl
  rw [allCalls, Call.madeBy_append, Call.madeBy_append, hrounds, List.append_nil,
    Call.madeBy_eq_self fun c hc => connect_maker hc,
    Call.madeBy_eq_self fun c hc => disconnect_maker hc]

theorem tasks_script (repetitions : List Bool) (dropped : Bool) :
    Request.tasks (Plan.script repetitions dropped) = repetitions.map .stream ++ [.close] := by
  induction repetitions with
  | nil => cases dropped <;> rfl
  | cons q repetitions ih => exact congrArg (Task.stream q :: ·) ih

theorem answers_script (p : Plan) (repetitions : List Bool) (dropped : Bool) :
    p.answers (Plan.script repetitions dropped) =
      repetitions.map (fun q => p.result (.stream q)) ++
        [if dropped then .ok () else Run.asReport p.closeError] := by
  induction repetitions with
  | nil => cases dropped <;> rfl
  | cons q repetitions ih => exact congrArg (p.result (.stream q) :: ·) ih

/-- The run of one thread has the same agenda. -/
theorem sequential_eq (p : Plan) (repetitions : List Bool) (dropped : Bool)
    (accepted : p.verdictOn p.connectCalls = .ok ()) : p.sequential repetitions dropped =
      ⟨p.outcome (Plan.script repetitions dropped),
        p.allCalls (Plan.script repetitions dropped)⟩ := by
  rw [sequential, accepted, outcome, allCalls, agenda]
  cases p.firstError p.cards .configure with
  | none => simp [tasks_script, answers_script, List.flatMap_map]
  | some e => simp

/-- The last task of a run is to close. -/
theorem agenda_last (p : Plan) (repetitions : List Bool) (dropped : Bool) :
    ∃ tasks, p.agenda (Plan.script repetitions dropped) = tasks ++ [.close] := by
  unfold agenda
  split
  · exact ⟨.configure :: repetitions.map .stream, by rw [tasks_script]; rfl⟩
  · exact ⟨[.configure], rfl⟩

theorem Inv.calls_prefix (h : p.Inv script past now r) (maker : Option String) :
    Call.madeBy maker (Event.calls (p.trace (past ++ [now]))) <+:
      Call.madeBy maker (p.allCalls script) := by
  cases maker with
  | none =>
    rw [h.calls_of_controller, madeBy_none_allCalls]
    cases hc : r.control <;> simp [undone, hc]
  | some c =>
    rw [h.calls_of_card, madeBy_allCalls, ← h.course.tasks, List.flatMap_append, List.flatMap_cons]
    apply (List.prefix_append_right_inj _).mpr
    exact (h.own_calls c).trans (List.prefix_append _ _)

theorem Inv.calls_of_over (h : p.Inv script past now r) (hc : r.control = .over)
    (maker : Option String) : Call.madeBy maker (Event.calls (p.trace (past ++ [now]))) =
      Call.madeBy maker (p.allCalls script) := by
  cases maker with
  | none =>
    rw [h.calls_of_controller, madeBy_none_allCalls]
    simp [undone, hc]
  | some c =>
    have htasks := h.course.tasks
    simp only [tasksAhead, hc] at htasks
    have hdone : p.Complete now := h.complete (by simp [Run.waiting, hc]) fun i w _ => by
      simp [Run.collected, hc]
    rw [h.calls_of_card, madeBy_allCalls, ← htasks, h.complete_calls (by simp) hdone]
    simp

/-- A run whose owner asks for its end does not wait for the owner forever. -/
theorem Inv.asked_for_end {repetitions : List Bool} {dropped : Bool}
    (h : p.Inv (Plan.script repetitions dropped) past now r) (hready : r.control = .ready) :
    r.script ≠ [] := by
  intro hscript
  obtain ⟨tasks, hlast⟩ := p.agenda_last repetitions dropped
  have htasks := h.course.tasks
  have ht := h.course.control
  simp only [tasksAhead, hready, hscript, Request.tasks, ControlFits] at htasks ht
  rw [hlast] at htasks
  exact absurd (List.cons.inj (List.append_inj' htasks rfl).2).1 ht

theorem Inv.over_of_idle {repetitions : List Bool} {dropped : Bool}
    (h : p.Inv (Plan.script repetitions dropped) past now r)
    (hdone : ∀ (i : Nat) (w : Worker), r.crew[i]? = some w → p.ahead r.stage.bulletin w = [])
    (hstuck : r.controllerStep = none) : r.control = .over := by
  rcases h.controller_at_rest hdone hstuck with hover | ⟨hready, hscript⟩
  · exact hover
  · exact absurd hscript (h.asked_for_end hready)

theorem aborted_sequential {e : Error} {events : List Event} (h : p.Aborted e events r)
    (repetitions : List Bool) (dropped : Bool) :
    p.sequential repetitions dropped = ⟨[.error e], p.connectCalls⟩ ∧
      Event.calls events = p.connectCalls ∧ r.results <+: [.error e] ∧
      (r.control = .over → r.results = [.error e]) := by
  refine ⟨by rw [sequential, h.refused], ?_⟩
  rcases h.control with ⟨rfl, hresults, hc⟩ | ⟨rfl, hresults, hc⟩
  · refine ⟨Event.calls_map_call _, by rw [hresults]; exact List.nil_prefix, fun hover => ?_⟩
    rcases hc with hc | hc | hc <;> rw [hc] at hover <;> cases hover
  · exact ⟨by simp, ⟨[], by rw [hresults, List.append_nil]⟩, fun _ => hresults⟩

/-- At any time the owner was told the first results that the run of one thread has, and each
worker, and the controller, made the first calls that it makes there. -/
theorem follows_sequential {repetitions : List Bool} {dropped : Bool} {events : List Event}
    (h : (p.start (Plan.script repetitions dropped)).Leads events r) :
    r.results <+: (p.sequential repetitions dropped).results ∧
      ∀ maker, Call.madeBy maker (Event.calls events) <+:
        Call.madeBy maker (p.sequential repetitions dropped).calls := by
  cases reached h with
  | start state silent =>
    rw [state, silent]
    exact ⟨List.nil_prefix, fun _ => List.nil_prefix⟩
  | running accepted past now inv history =>
    rw [history, sequential_eq p repetitions dropped accepted]
    exact ⟨⟨_, inv.course.results⟩, inv.calls_prefix⟩
  | aborted e state =>
    obtain ⟨hseq, hcalls, hresults, -⟩ := aborted_sequential state repetitions dropped
    rw [hseq, hcalls]
    exact ⟨hresults, fun _ => List.prefix_rfl⟩

/-- A run that no actor can go on with is over. -/
theorem over_of_rest {repetitions : List Bool} {dropped : Bool} {events : List Event}
    (h : (p.start (Plan.script repetitions dropped)).Leads events r) (rest : r.AtRest) :
    r.control = .over := by
  have hstuck : r.controllerStep = none := rest .controller
  cases reached h with
  | start state _ =>
    rw [state] at hstuck
    cases hstuck
  | running _ past now inv _ =>
    exact inv.over_of_idle (fun _ _ hw => inv.all_done (fun j => rest (.worker j)) hw) hstuck
  | aborted e state => exact state.at_rest rest

theorem ends_as_sequential {repetitions : List Bool} {dropped : Bool} {events : List Event}
    (h : (p.start (Plan.script repetitions dropped)).Leads events r) (rest : r.AtRest) :
    r.results = (p.sequential repetitions dropped).results ∧
      ∀ maker, Call.madeBy maker (Event.calls events) =
        Call.madeBy maker (p.sequential repetitions dropped).calls := by
  have hover := over_of_rest h rest
  cases reached h with
  | start state _ =>
    rw [state] at hover
    cases hover
  | running accepted past now inv history =>
    have hresults := inv.course.results
    simp only [resultsAhead, hover, List.append_nil] at hresults
    rw [history, sequential_eq p repetitions dropped accepted]
    exact ⟨hresults, inv.calls_of_over hover⟩
  | aborted e state =>
    obtain ⟨hseq, hcalls, -, hresults⟩ := aborted_sequential state repetitions dropped
    rw [hseq, hcalls]
    exact ⟨hresults hover, fun _ => rfl⟩

end Plan

end Sequencer
