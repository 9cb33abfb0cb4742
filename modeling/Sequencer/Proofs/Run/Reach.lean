import Sequencer.Proofs.Run.Conduct

namespace Sequencer.Plan

/-- Without the connection nobody is hired, and the run is closed at once. -/
structure Aborted (p : Plan) (e : Error) (events : List Event) (r : Run) : Prop where
  refused : p.verdictOn p.connectCalls = .error e
  crew : r.crew = []
  connected : r.connected = false
  ending : r.ending = .dropped (some e)
  control : events = p.connectCalls.map .call ∧ r.results = [] ∧
      (r.control = .collect .close 0 none ∨ r.control = .join 0 none ∨
        r.control = .disconnect none) ∨
    events = p.connectCalls.map .call ++ [.told (.error e)] ∧ r.results = [.error e] ∧
      r.control = .over

/-- What is known of a run that has shown `events`. -/
inductive Reached (p : Plan) (script : List Request) (events : List Event) (r : Run) : Prop
  | start (state : r = p.start script) (silent : events = [])
  | running (accepted : p.verdictOn p.connectCalls = .ok ()) (past : List Round) (now : Round)
      (inv : p.Inv script past now r)
      (history : events = p.trace (past ++ [now]))
  | aborted (e : Error) (state : p.Aborted e events r)

variable {p : Plan} {script : List Request} {events : List Event} {r r' : Run}

/-- The first round begins when the connection was made or is not asked for. -/
theorem Inv.initial {connected : Bool} {stage : Stage} (hr : r = p.start script)
    (hconnected : connected = p.refClock.isSome)
    (hf : stage.backend.failing = p.backend.failing) (hb : stage.bulletin = {})
    (hi : stage.incidents = []) :
    p.Inv script [] ⟨.configure, []⟩ { r with connected, stage, control := .hire r.cards } := by
  subst hr
  constructor
  case setting => exact ⟨rfl, rfl, rfl, rfl, hf, hi⟩
  case history =>
    refine ⟨by simp, by simp, fun round hr => ?_⟩
    rw [List.mem_singleton.mp hr]
    exact Orderly.nil p _
  case board => exact ⟨by rw [hb]; rfl, fun hne => absurd rfl hne, fun q hq => by cases hq⟩
  case course =>
    refine ⟨?_, by simp [resultsAhead, start], fun _ => hconnected, rfl⟩
    simp only [tasksAhead, agenda, start, List.map_nil, List.nil_append]
    split <;> rfl
  case crew => rfl
  case workers => simp [start]
  case unhired => simp [Event.own]
  case external => simp [Plan.external, Call.madeBy, undone]

/-- The first step makes the connection that is asked for, if any. -/
theorem Inv.connected_first (hr : r = p.start script)
    (accepted : p.verdictOn p.connectCalls = .ok ()) :
    p.Inv script [] ⟨.configure, []⟩ r.connect ∧ r.connect.control = .hire p.cards ∧
      r.shown .controller r.connect = p.connectCalls.map .call := by
  have hcards : r.cards = p.cards := by rw [hr]; rfl
  have hclock : r.refClock = p.refClock := by rw [hr]; rfl
  have hstage : r.stage.backend = p.backend := by rw [hr]; rfl
  have hbulletin : r.stage.bulletin = {} := by rw [hr]; rfl
  have hincidents : r.stage.incidents = [] := by rw [hr]; rfl
  cases hp : p.refClock with
  | none =>
    have hnext : r.connect = { r with connected := false, control := .hire r.cards } := by
      rw [hr]
      simp [Run.connect, Plan.start, hp]
    have hinv := Inv.initial hr (by simp [hp] : false = p.refClock.isSome) (by rw [hstage])
      hbulletin hincidents
    rw [hnext]
    refine ⟨hinv, congrArg _ hcards, ?_⟩
    simp only [connectCalls, hp]
    exact Run.shown_silent rfl rfl rfl
  | some connection =>
    obtain ⟨source, target⟩ := connection
    rw [hp] at hclock
    have hcalls : p.connectCalls = [.connect source target] := by simp [connectCalls, hp]
    have hv : p.backend.verdict (.connect source target) = .ok () := by
      simpa [hcalls, verdictOn] using accepted
    have hlog := Backend.issue_calls r.stage.backend (.connect source target)
    have hnext : r.connect = { r with
        connected := true
        stage := ({ r.stage with
          backend := (r.stage.backend.issue (.connect source target)).2 }).note
            (.exporting source target)
        control := .hire r.cards } := by
      simp [Run.connect, Stage.issue_eq, hclock, hstage, hv]
    rw [hnext, hcalls]
    refine ⟨Inv.initial hr (by simp [hp]) ?_ hbulletin hincidents, congrArg _ hcards,
      Run.shown_called rfl hlog rfl⟩
    rw [← hstage]
    exact Backend.issue_failing ..

theorem Aborted.first {e : Error} (hr : r = p.start script)
    (refused : p.verdictOn p.connectCalls = .error e) :
    p.Aborted e (r.shown .controller r.connect) r.connect := by
  have hclock : r.refClock = p.refClock := by rw [hr]; rfl
  have hstage : r.stage.backend = p.backend := by rw [hr]; rfl
  have hcrew : r.crew = [] := by rw [hr]; rfl
  cases hp : p.refClock with
  | none => simp [connectCalls, hp, verdictOn] at refused
  | some connection =>
    obtain ⟨source, target⟩ := connection
    rw [hp] at hclock
    have hcalls : p.connectCalls = [.connect source target] := by simp [connectCalls, hp]
    have hv : p.backend.verdict (.connect source target) = .error e := by
      simpa [hcalls, verdictOn] using refused
    have hlog := Backend.issue_calls r.stage.backend (.connect source target)
    have hnext : r.connect = { r with
        stage := { r.stage with
          backend := (r.stage.backend.issue (.connect source target)).2 }
        ending := .dropped (some e)
        control := .collect .close 0 none } := by
      simp [Run.connect, Stage.issue_eq, hclock, hstage, hv, Run.beginClose, hcrew]
    have hshown : r.shown .controller r.connect = [.call (.connect source target)] := by
      rw [hnext]
      exact Run.shown_called rfl hlog rfl
    rw [hshown, hnext]
    exact ⟨refused, hcrew, by rw [hr]; rfl, rfl,
      .inl ⟨by simp [hcalls], by rw [hr]; rfl, .inl rfl⟩⟩

theorem Aborted.step {e : Error} (h : p.Aborted e events r) {a : Actor}
    (next : r.step a = some r') : p.Aborted e (events ++ r.shown a r') r' := by
  cases a with
  | worker index => simp [Run.step, Run.workerStep, h.crew] at next
  | controller =>
    have next : r.controllerStep = some r' := next
    rcases h.control with ⟨rfl, hresults, hc⟩ | ⟨-, -, hc⟩
    · rcases hc with hc | hc | hc
      · obtain rfl : r.afterCollect .close none = r' := by
          simpa [Run.controllerStep, hc, Run.collect, h.crew] using next
        have hshown : r.shown .controller (r.afterCollect .close none) = [] :=
          Run.shown_silent rfl rfl rfl
        rw [hshown, List.append_nil]
        exact ⟨h.refused, h.crew, h.connected, h.ending, .inl ⟨rfl, hresults, .inr (.inl rfl)⟩⟩
      · obtain rfl : { r with control := .disconnect none } = r' := by
          simpa [Run.controllerStep, hc, Run.join, h.crew] using next
        have hshown : r.shown .controller { r with control := .disconnect none } = [] :=
          Run.shown_silent rfl rfl rfl
        rw [hshown, List.append_nil]
        exact ⟨h.refused, h.crew, h.connected, h.ending, .inl ⟨rfl, hresults, .inr (.inr rfl)⟩⟩
      · obtain ⟨log, hfarewell⟩ := farewell_eq r none
        have hnext : r' = { r with
            control := .over, stage := { r.stage with log },
            results := r.results ++ [.error e] } := by
          simpa [Run.controllerStep, hc, Run.disconnect, h.connected, hfarewell, h.ending,
            Ending.lastWords, Run.asReport] using next.symm
        have hshown : r.shown .controller r' = [.told (.error e)] :=
          Run.shown_told (by rw [hnext]) (by rw [hnext]) (by rw [hnext])
        rw [hshown, hnext]
        exact ⟨h.refused, h.crew, h.connected, h.ending, .inr ⟨rfl, by simp [hresults], rfl⟩⟩
    · simp [Run.controllerStep, hc] at next

/-- Whatever a run does, it gets nowhere else. -/
theorem reached (h : (p.start script).Leads events r) : p.Reached script events r := by
  induction h with
  | start => exact .start rfl rfl
  | step a before next ih =>
    cases ih with
    | start state silent =>
      subst state silent
      cases a with
      | worker index => simp [Run.step, Run.workerStep, Plan.start] at next
      | controller =>
        have hnext : (p.start script).connect = _ := Option.some.inj next
        rw [← hnext]
        cases hv : p.verdictOn p.connectCalls with
        | ok =>
          obtain ⟨inv, -, hshown⟩ := Inv.connected_first rfl hv
          refine .running hv [] _ inv ?_
          simp [hshown, trace, Round.trace]
        | error e => exact .aborted e (Aborted.first rfl hv)
    | running accepted past now inv history =>
      rcases inv.step next with inv' | ⟨t, ht, hshown, inv'⟩
      · exact .running accepted past _ inv' (by rw [trace_extend, history])
      · exact .running accepted (past ++ [now]) _ inv' (by rw [trace_begin p _ ht, history, hshown])
    | aborted e state => exact .aborted e (state.step next)

end Sequencer.Plan
