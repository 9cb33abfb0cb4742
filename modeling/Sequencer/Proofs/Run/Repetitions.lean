import Sequencer.Proofs.Run.Token

namespace Sequencer

/-- The streaming calls of a device are made by its worker. -/
theorem Call.streams_madeBy (device : String) (cs : List Call) :
    streams device (madeBy (some device) cs) = streams device cs := by
  induction cs with
  | nil => rfl
  | cons c cs ih =>
    have hhead : streams device (madeBy (some device) [c]) = streams device [c] := by
      cases c with
      | streamRun d q => by_cases hd : d = device <;> simp [madeBy, streams, maker?, lifecycle?, hd]
      | _ => simp [madeBy, streams, List.filter_cons, maker?, lifecycle?]
    rw [← List.singleton_append, madeBy_append, streams_append, streams_append, hhead, ih]

namespace Run

variable {first : Option Error}

theorem asReport_eq_ok_iff : asReport first = .ok () ↔ first = none := by
  cases first <;> simp [asReport]

theorem asReport_eq_error_iff {e : Error} : asReport first = .error e ↔ first = some e := by
  cases first <;> simp [asReport]

end Run

namespace Plan

variable {p : Plan} {past : List Round} {now : Round} {events : List Event} {r : Run}
  {repetitions : List Bool} {q : Bool}

theorem tasks_stream (repetitions : List Bool) :
    Request.tasks (repetitions.map .stream) = repetitions.map .stream := by
  induction repetitions with
  | nil => rfl
  | cons q repetitions ih => exact congrArg (Task.stream q :: ·) ih

theorem answers_stream (p : Plan) (repetitions : List Bool) :
    p.answers (repetitions.map .stream) = repetitions.map fun q => p.result (.stream q) := by
  induction repetitions with
  | nil => rfl
  | cons q repetitions ih => exact congrArg (p.result (.stream q) :: ·) ih

/-- A configured run that was not asked for its end waits for its owner. -/
theorem Inv.waits (h : p.Inv (repetitions.map .stream) past now r) (rest : r.AtRest)
    (configures : p.firstError p.cards .configure = none) :
    r.control = .ready ∧ r.script = [] ∧
      r.results = .ok () :: repetitions.map (fun q => p.result (.stream q)) ∧
      ∀ c, Call.madeBy (some c) (Event.calls (p.trace (past ++ [now]))) =
        (Task.configure :: repetitions.map .stream).flatMap (p.part c) := by
  have hdone := fun i w (hw : r.crew[i]? = some w) => h.all_done (fun j => rest (.worker j)) hw
  have htasks := h.course.tasks
  have hresults := h.course.results
  have hcontrol := h.course.control
  rw [agenda, configures, tasks_stream] at htasks
  rw [outcome, configures, answers_stream] at hresults
  rcases h.controller_at_rest hdone (rest .controller) with hover | ⟨hready, hscript⟩
  · simp only [tasksAhead, hover, ControlFits] at htasks hcontrol
    have hclose : Task.close ∈ Task.configure :: repetitions.map .stream := by
      rw [← htasks, hcontrol]
      simp
    simp at hclose
  · simp only [tasksAhead, resultsAhead, hready, hscript, Request.tasks, answers,
      List.append_nil] at htasks hresults
    refine ⟨hready, hscript, hresults, fun c => ?_⟩
    have hcomplete : p.Complete now := h.complete (by simp [Run.waiting, hready]) fun i w _ => by
      simp [Run.collected, hready]
    rw [h.calls_of_card, h.complete_calls (by simp) hcomplete, ← htasks]
    simp

/-- A run that was not asked for its end and can not go on waits for its owner, or could not be
configured and is over. -/
theorem waits (h : (p.start (repetitions.map .stream)).Leads events r) (rest : r.AtRest) :
    ((p.Connects ∧ p.Configures) ∧ r.control = .ready ∧ r.script = [] ∧
      r.results = .ok () :: repetitions.map (fun q => p.result (.stream q)) ∧
      ∀ c, Call.madeBy (some c) (Event.calls events) =
        (Task.configure :: repetitions.map .stream).flatMap (p.part c)) ∨
    ¬(p.Connects ∧ p.Configures) ∧ ∃ e, r.results = [.error e] := by
  cases reached h with
  | start state _ =>
    have hstuck : r.controllerStep = none := rest .controller
    rw [state] at hstuck
    cases hstuck
  | aborted e state =>
    refine .inr ⟨fun hall => ?_, e, ?_⟩
    · have hrefused := state.refused
      rw [(connects_iff p).mp hall.1] at hrefused
      cases hrefused
    · exact (aborted_sequential state [] true).2.2.2 (state.at_rest rest)
  | running accepted past now inv history =>
    have connects := (connects_iff p).mpr accepted
    cases hfirst : p.firstError p.cards .configure with
    | none =>
      rw [history]
      exact .inl ⟨⟨connects, (configures_iff p).mpr hfirst⟩, inv.waits rest hfirst⟩
    | some e =>
      refine .inr ⟨fun hall => ?_, e, ?_⟩
      · rw [(configures_iff p).mp hall.2] at hfirst
        cases hfirst
      · have hdone := fun i w (hw : r.crew[i]? = some w) =>
          inv.all_done (fun j => rest (.worker j)) hw
        have hresults := inv.course.results
        rw [outcome, hfirst] at hresults
        rcases inv.controller_at_rest hdone (rest .controller) with hover | ⟨hready, hscript⟩
        · simpa [resultsAhead, hover] using hresults
        · simpa [resultsAhead, hready, hscript, answers] using hresults

/-- Once the run was asked for its end, its calls come in phases. -/
theorem phased_at_rest {dropped : Bool}
    (h : (p.start (Plan.script repetitions dropped)).Leads events r) (rest : r.AtRest)
    (connects : p.Connects) : p.Phased repetitions (Event.calls events) := by
  have accepted := (connects_iff p).mp connects
  obtain ⟨before, r₀, first, h₀, hc, rfl, rfl⟩ := last_step h (over_of_rest h rest)
  cases reached h₀ with
  | start state _ =>
    rw [state] at hc
    cases hc
  | aborted e state =>
    rw [state.refused] at accepted
    cases accepted
  | running _ past now inv history =>
    have hfirst := inv.course.control
    simp only [ControlFits, hc] at hfirst
    obtain ⟨connected, stage, heq, -, -, -, -, hcalls⟩ := disconnect_eq inv.setting.refClock
      (inv.course.connected (by simp [hc])) inv.setting.failing hfirst.2
    obtain ⟨parts, hparts, hphases⟩ := inv.calls_of_tasks hc
    rw [Event.calls_append, history, hparts, Run.shown_calls (by rw [heq]; exact hcalls)]
    exact phased_of_parts connects hphases

/-- What the owner of a configured run is told of its end. -/
theorem told_at_rest (h : (p.start (Plan.script repetitions false)).Leads events r)
    (rest : r.AtRest) (connects : p.Connects) (configures : p.Configures) :
    r.results.getLast? = some (Run.asReport p.closeError) := by
  rw [(ends_as_sequential h rest).1, sequential, (connects_iff p).mp connects]
  simp only [(configures_iff p).mp configures]
  exact List.getLast?_concat

theorem result_eq_ok_iff {t : Task} :
    p.result t = .ok () ↔ ∀ c ∈ p.cards, (p.turn c t).2 = .ok () := by
  rw [result, Run.asReport_eq_ok_iff, firstError, keepFirst_foldl_eq_none, List.forall_mem_map]
  simp

/-- In a repetition that succeeds, every card streams once. -/
theorem streams_part {q : Bool} (h : p.result (.stream q) = .ok ()) (c : String) :
    Call.streams c (p.part c (.stream q)) = if c ∈ p.cards then 1 else 0 := by
  unfold part
  split
  case isTrue hc =>
    have hturn := result_eq_ok_iff.mp h c hc
    simp only [turn] at hturn ⊢
    split at hturn
    · simp at hturn
    · rename_i hplays
      simp only [hplays, perform] at hturn ⊢
      split at hturn
      · rename_i hstarts
        simp [hstarts, Call.streams]
      · simp at hturn
  case isFalse => rfl

theorem streams_rounds (h : ∀ q ∈ repetitions, p.result (.stream q) = .ok ()) (c : String) :
    Call.streams c ((Task.configure :: repetitions.map .stream).flatMap (p.part c)) =
      if c ∈ p.cards then repetitions.length else 0 := by
  have hconfigure : Call.streams c (p.part c .configure) = 0 := by
    unfold part
    split <;> rfl
  rw [List.flatMap_cons, Call.streams_append, hconfigure, Nat.zero_add]
  induction repetitions with
  | nil => simp [Call.streams]
  | cons q repetitions ih =>
    rw [List.map_cons, List.flatMap_cons, Call.streams_append,
      streams_part (h q List.mem_cons_self), ih fun q hq => h q (List.mem_cons_of_mem _ hq)]
    split <;> simp [Nat.add_comm]

/-- Without repetitions no card is started. -/
theorem idle_sequential (p : Plan) {c : Call} (hc : c ∈ (p.sequential [] true).calls) :
    (∀ d, c ≠ .start d) ∧ ∀ d q, c ≠ .streamRun d q := by
  have hconnect : ∀ c ∈ p.connectCalls ++ p.disconnectCalls,
      (∀ d, c ≠ .start d) ∧ ∀ d q, c ≠ .streamRun d q := by
    unfold connectCalls disconnectCalls
    cases p.refClock <;> simp
  have hround : ∀ c ∈ p.round .configure ++ p.round .close,
      (∀ d, c ≠ .start d) ∧ ∀ d q, c ≠ .streamRun d q := by
    intro c hc
    rw [List.mem_append, p.round_configure.mem_iff, p.round_close.mem_iff, List.mem_map,
      List.mem_map] at hc
    rcases hc with ⟨card, -, rfl⟩ | ⟨card, -, rfl⟩ <;> simp
  have hmem : c ∈ p.connectCalls ++ p.disconnectCalls ∨
      c ∈ p.round .configure ++ p.round .close := by
    unfold sequential at hc
    simp only [List.mem_append]
    split at hc
    · exact .inl (.inl hc)
    · split at hc <;> simp only [List.mem_append, List.flatMap_nil, List.append_nil] at hc <;> tauto
  exact hmem.elim (hconnect c) (hround c)

/-- Whether the token is set once `count` repetitions were played: from the beginning, or since one
of the first `count` streaming calls of a card of the run. -/
def tokenSet (p : Plan) (t : Token) (count : Nat) : Bool :=
  t.cancelled || t.incidents.any fun i => i.effect == .cancel &&
    decide (i.device ∈ p.cards ∧ 1 ≤ i.countdown ∧ i.countdown ≤ count)

/-- A run that came to rest after it was asked for these things. Its token was `t` at first. -/
structure Rested (p : Plan) (t : Token) (asked : List Request) (events : List Event) (r : Run) :
    Prop where
  alike : ∃ u, (p.start asked).Leads events u ∧ u.AtRest ∧ r.quiet = u.quiet
  token : r.stage.token = t.after (Event.calls events)

variable {t : Token} {asked : List Request}

theorem start_harmless (p : Plan) (asked : List Request) : (p.start asked).stage.Harmless := by
  simp [Stage.Harmless, start]

/-- From wherever a run has got to, whatever its surroundings are, it settles at rest. -/
theorem rested_settle (harmless : ∀ i ∈ t.incidents, i.effect = .cancel) {u : Run}
    (h : (p.start asked).Leads events u) (same : r.quiet = u.quiet)
    (token : r.stage.token = t.after (Event.calls events)) :
    ∃ more, p.Rested t asked (events ++ more) r.settle := by
  have hr : r.stage.Harmless := by
    intro i hi
    have hi : i ∈ r.stage.token.incidents := hi
    rw [token] at hi
    obtain ⟨j, hj, rfl⟩ := List.mem_map.mp hi
    exact harmless j hj
  have hu := (h.token (p.start_harmless asked)).2
  obtain ⟨more, hsettle⟩ := r.leads_settle
  obtain ⟨v, hv, hquiet⟩ := hsettle.alike same hr hu
  have rest : r.settle.AtRest := by
    refine Run.settle_atRest fun es x a y hx next => ?_
    obtain ⟨x', hx', hsame⟩ := hx.alike same hr hu
    have halike := Run.step_alike a hsame (hx.token hr).2 (hx'.token hu).2
    rw [next, Option.map_some] at halike
    obtain ⟨y', hnext, hy⟩ := Option.map_eq_some_iff.mp halike.symm
    have hlighter := weight_lt (h.trans hx') hnext
    have hx : x.weight = x'.weight := show x.quiet.weight = x'.quiet.weight by rw [hsame]
    have hy : y'.weight = y.weight := show y'.quiet.weight = y.quiet.weight by rw [hy]
    omega
  have hsettled := hsettle.token hr
  refine ⟨more, ⟨v, h.trans hv, rest.alike hquiet hsettled.2 (hv.token hu).2, hquiet⟩, ?_⟩
  rw [hsettled.1, token, Token.after_append, Event.calls_append]

namespace Rested

/-- The backend has logged what was seen. -/
theorem calls (h : p.Rested t asked events r) :
    r.stage.backend.calls = p.backend.calls ++ Event.calls events := by
  obtain ⟨u, hu, -, hquiet⟩ := h.alike
  have hbackend := (Stage.quiet_eq_iff.mp (congrArg (·.stage) hquiet)).1
  rw [hbackend]
  exact hu.calls

/-- How a run stands that was not asked for its end. -/
theorem waits (h : p.Rested t (repetitions.map .stream) events r) :
    ((p.Connects ∧ p.Configures) ∧ r.control = .ready ∧ r.script = [] ∧
      r.results = .ok () :: repetitions.map (fun q => p.result (.stream q)) ∧
      ((∀ q ∈ repetitions, p.result (.stream q) = .ok ()) →
        r.stage.cancelled = p.tokenSet t repetitions.length)) ∨
    ¬(p.Connects ∧ p.Configures) ∧ ∃ e, r.results = [.error e] := by
  obtain ⟨u, hu, rest, hquiet⟩ := h.alike
  have hcontrol : r.control = u.control := show r.quiet.control = u.quiet.control by rw [hquiet]
  have hresults : r.results = u.results := show r.quiet.results = u.quiet.results by rw [hquiet]
  have hscript : r.script = u.script := show r.quiet.script = u.quiet.script by rw [hquiet]
  rw [hcontrol, hresults, hscript]
  rcases Plan.waits hu rest with ⟨hconfigured, hready, hnone, htold, hcalls⟩ | hfailed
  · refine .inl ⟨hconfigured, hready, hnone, htold, fun hall => ?_⟩
    have hcancels : ∀ i : Incident, i.cancels (Event.calls events) = (i.effect == .cancel &&
        decide (i.device ∈ p.cards ∧ 1 ≤ i.countdown ∧ i.countdown ≤ repetitions.length)) := by
      intro i
      rw [Incident.cancels, ← Call.streams_madeBy, hcalls, streams_rounds hall]
      split
      case isTrue hd => simp [hd]
      case isFalse hd =>
        simp only [hd, false_and]
        congr 2
        exact propext ⟨fun hcount => by omega, False.elim⟩
    change r.stage.token.cancelled = _
    rw [h.token]
    simp only [Token.after, tokenSet, hcancels]
  · exact .inr hfailed

/-- A run that waits for its owner takes the next request. -/
theorem request (h : p.Rested t asked events r) (harmless : ∀ i ∈ t.incidents, i.effect = .cancel)
    (hscript : r.script = []) (q : Request) (log : List Notice) :
    ∃ more, p.Rested t (asked ++ [q]) (events ++ more)
      ({ r with script := [q], stage := { r.stage with log } } : Run).settle := by
  obtain ⟨u, hu, -, hquiet⟩ := h.alike
  have hnone : u.script = [] := by
    rw [← hscript]
    exact show u.quiet.script = r.quiet.script by rw [hquiet]
  have hsame : { r.quiet with script := [q] } = { u.quiet with script := u.script ++ [q] } := by
    rw [hquiet, hnone]
    rfl
  exact rested_settle harmless (hu.ask [q]) hsame h.token

/-- The owner hears of a repetition once it was played. -/
theorem told (h : p.Rested t ((repetitions ++ [q]).map .stream) events r) (connects : p.Connects)
    (configures : p.Configures) : r.results.getLast? = some (p.result (.stream q)) := by
  rcases h.waits with ⟨-, -, -, htold, -⟩ | ⟨hfailed, -⟩
  · rw [htold, List.map_append, ← List.cons_append]
    exact List.getLast?_concat
  · exact absurd ⟨connects, configures⟩ hfailed

/-- How a run stands that was asked for its end. -/
theorem closed (h : p.Rested t (Plan.script repetitions false) events r) (connects : p.Connects)
    (configures : p.Configures) : r.results.getLast? = some (Run.asReport p.closeError) ∧
      p.Phased repetitions (Event.calls events) := by
  obtain ⟨u, hu, rest, hquiet⟩ := h.alike
  have hresults : r.results = u.results := show r.quiet.results = u.quiet.results by rw [hquiet]
  rw [hresults]
  exact ⟨told_at_rest hu rest connects configures, phased_at_rest hu rest connects⟩

/-- A run that was only configured did not start anything. -/
theorem idle (h : p.Rested t [] events r) {c : Call} (hc : c ∈ Event.calls events) :
    (∀ d, c ≠ .start d) ∧ ∀ d q, c ≠ .streamRun d q := by
  obtain ⟨u, hu, -, -⟩ := h.alike
  have hmem : c ∈ (p.sequential [] true).calls := by
    have hmade : c ∈ Call.madeBy c.maker? (Event.calls events) :=
      List.mem_filter.mpr ⟨hc, by simp⟩
    have hdropped : (p.start (Plan.script [] true)).Leads events _ := hu.ask [.drop]
    exact (List.mem_filter.mp (((follows_sequential hdropped).2 c.maker?).subset hmade)).1
  exact p.idle_sequential hmem

end Rested

end Plan

end Sequencer
