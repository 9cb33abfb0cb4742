import Sequencer.Proofs.Run.Invariant

namespace Sequencer.Plan

variable {p : Plan} {script : List Request} {past : List Round} {now : Round} {r r' : Run}
  {i : Nat} {w : Worker}

theorem pending_outbox (posted : Nat) (w : Worker) (outbox : List Report) :
    pending posted { w with outbox } = pending posted w := rfl

theorem balked_outbox (p : Plan) (posted : Nat) (w : Worker) (outbox : List Report) :
    p.balked posted { w with outbox } = p.balked posted w := rfl

namespace Employs

variable {t : Task} {es : List Event} {s s' : Stage} {collected : Bool}

theorem hired {card : String} (hb : r.bufferMs = p.bufferMs) (hh : r.heldBack = p.heldBack)
    (hnew : Event.own card es = []) : p.Employs .configure es r.stage false (r.newWorker card) where
  buffer := hb
  held := by simp [Run.newWorker, Run.isHeldBack, isHeld, hh]
  heard := rfl
  view := .inl rfl
  phase := by simp [PhaseFits, Run.newWorker]
  history := by
    rw [show (r.newWorker card).card = card from rfl, hnew]
    rfl
  outbox := by
    rw [show (r.newWorker card).card = card from rfl, hnew]
    rfl
  finished := by simp

theorem collect (h : p.Employs t es s false w) {report : Report} {rest : List Report}
    (sent : w.outbox = report :: rest) : p.Employs t es s true { w with outbox := rest } where
  buffer := h.buffer
  held := h.held
  heard := h.heard
  view := h.view
  phase := h.phase
  history := h.history
  outbox := (h.of_outbox sent).2.1
  finished := fun _ => (h.of_outbox sent).2.2

/-- A worker that is over and not collected has its report in the outbox all the same. -/
theorem not_over (h : p.Employs t es s false w) (hnone : w.outbox = []) :
    w.isOver = false := by
  cases hover : w.isOver with
  | false => rfl
  | true => exact absurd hnone (h.outbox_ne_nil (done_of_isOver hover))

/-- A worker that is done is not behind, so that it will see the next command. -/
theorem recalled {c : Command} (h : p.Employs t es s true w) (ht : t ≠ .close)
    (hb : s'.bulletin = s.bulletin.post c) : p.Employs (.ofCommand c) [] s' false w := by
  obtain ⟨hphase, hview⟩ := h.listening (h.finished rfl) ht
  constructor
  case buffer => exact h.buffer
  case held => exact h.held
  case heard => exact h.heard
  case view => exact .inr ⟨hphase, by rw [hb, hview]; rfl⟩
  case phase => simp [PhaseFits, hphase, hb, hview, Bulletin.post]
  case history => simp [Event.own, ahead, hphase, hb, hview, Bulletin.post]
  case outbox => simpa [Event.own, Event.reports] using h.outbox
  case finished => simp

end Employs

/-- The run goes on to show `es`, in the round that is going on or by beginning the next one. -/
def GoesOn (p : Plan) (script : List Request) (past : List Round) (now : Round) (es : List Event)
    (r : Run) : Prop :=
  p.Inv script past ⟨now.task, now.events ++ es⟩ r ∨
    ∃ t, t ≠ .configure ∧ es = [.begun t] ∧ p.Inv script (past ++ [now]) ⟨t, []⟩ r

namespace Inv

/-- A step of the controller that begins no task and leaves the workers alone. -/
theorem moved {es : List Event} (h : p.Inv script past now r) (setting : p.Setting r')
    (hes : ∀ e ∈ es, e.card? = none) (history : p.History past ⟨now.task, now.events ++ es⟩)
    (hb : r'.stage.bulletin = r.stage.bulletin) (hl : r'.stage.latches = r.stage.latches)
    (hcrew : r'.crew = r.crew) (hwaiting : r'.waiting = r.waiting)
    (hcollected : ∀ i w, r.crew[i]? = some w → r'.collected i = r.collected i)
    (hundone : p.undone r' = p.undone r ++ Call.madeBy none (Event.calls es))
    (course : p.Course script (past.map (·.task)) now.task r') :
    p.Inv script past ⟨now.task, now.events ++ es⟩ r' := by
  have hother : ∀ c, ∀ e ∈ es, e.card? ≠ some c := fun c e he => by simp [hes e he]
  constructor
  case setting => exact setting
  case history => exact history
  case board =>
    refine ⟨by rw [hb]; exact h.board.posted, by rw [hb]; exact h.board.latest, fun q hq => ?_⟩
    rw [hb, hl, hcrew]
    exact h.board.latch q hq
  case course => exact course
  case crew =>
    rw [hcrew, hwaiting]
    exact h.crew
  case workers =>
    intro i w hw
    rw [hcrew] at hw
    rw [hcollected i w hw]
    exact (h.workers i w hw).elsewhere (hother w.card) hb (congrArg List.length hl)
  case unhired =>
    intro c hc
    rw [hwaiting] at hc
    rw [Event.own_append, h.unhired c hc, Event.own_eq_nil (hother c), List.append_nil]
  case external => rw [external_extend, h.external, hundone]

/-- Workers that were all collected have done their part. -/
theorem complete (h : p.Inv script past now r) (hnone : r.waiting = [])
    (hall : ∀ i w, r.crew[i]? = some w → r.collected i = true) : p.Complete now := by
  intro c hc
  obtain ⟨i, w, hw, rfl⟩ := h.worker_of_card hnone hc
  have hemp := h.workers i w hw
  exact hemp.own_eq_acts (hemp.finished (hall i w hw))

theorem moved_silently (h : p.Inv script past now r) (setting : p.Setting r')
    (hb : r'.stage.bulletin = r.stage.bulletin) (hl : r'.stage.latches = r.stage.latches)
    (hcrew : r'.crew = r.crew) (hwaiting : r'.waiting = r.waiting)
    (hcollected : ∀ i w, r.crew[i]? = some w → r'.collected i = r.collected i)
    (hundone : p.undone r' = p.undone r)
    (course : p.Course script (past.map (·.task)) now.task r') : p.Inv script past now r' := by
  have hes : ∀ e ∈ ([] : List Event), e.card? = none := by simp
  simpa using h.moved setting hes (by simpa using h.history) hb hl hcrew hwaiting hcollected
    (by simp [hundone, Call.madeBy]) course

theorem goesOn_silently (h : p.Inv script past now r') (hshown : r.shown .controller r' = []) :
    p.GoesOn script past now (r.shown .controller r') r' := by
  rw [hshown]
  exact .inl (by simpa using h)

theorem hire_none (h : p.Inv script past now r) (hc : r.control = .hire []) :
    p.Inv script past now (r.hire []) := by
  obtain ⟨htasks, hresults, hconnected, hcontrol⟩ := h.course
  simp only [tasksAhead, resultsAhead, ControlFits, hc] at htasks hresults hcontrol
  refine h.moved_silently (h.setting.moved rfl rfl) rfl rfl rfl ?waiting ?collected ?undone ?course
  case waiting => simp [Run.waiting, Run.hire, hc]
  case collected => simp [Run.collected, Run.hire, hc]
  case undone => simp [undone, Run.hire, hc]
  case course =>
    refine ⟨htasks, hresults, fun _ => hconnected (by simp [hc]), ?_⟩
    simp [ControlFits, Run.hire, hcontrol, Task.duty, firstError]

theorem hire_next {card : String} {waiting : List String} (h : p.Inv script past now r)
    (hc : r.control = .hire (card :: waiting)) :
    p.Inv script past now (r.hire (card :: waiting)) := by
  obtain ⟨htasks, hresults, hconnected, hcontrol⟩ := h.course
  simp only [tasksAhead, resultsAhead, ControlFits, hc] at htasks hresults hcontrol
  have hcrew := h.crew
  have hunhired := h.unhired
  simp only [Run.waiting, hc] at hcrew hunhired
  constructor
  case setting => exact h.setting.moved rfl rfl
  case history => exact h.history
  case board =>
    refine ⟨h.board.posted, h.board.latest, fun q hq => ?_⟩
    rw [hcontrol] at hq
    cases hq
  case course => exact ⟨htasks, hresults, fun _ => hconnected (by simp [hc]), hcontrol⟩
  case crew => simpa [Run.hire, Run.newWorker, Run.waiting] using hcrew
  case workers =>
    intro j v hv
    have hv : (r.crew ++ [r.newWorker card])[j]? = some v := hv
    rw [List.getElem?_append] at hv
    split at hv
    · have hemp := h.workers j v hv
      simpa [Run.collected, Run.hire, hc] using hemp
    · have hnew := Employs.hired (p := p) h.setting.bufferMs h.setting.heldBack
        (hunhired card List.mem_cons_self)
      rw [List.mem_singleton.mp (List.mem_of_getElem? hv), hcontrol]
      simpa [Run.collected, Run.hire] using hnew
  case unhired => exact fun c hc' => hunhired c (List.mem_cons_of_mem _ hc')
  case external => simpa [undone, hc, Run.hire] using h.external

theorem hire_step {waiting : List String} (h : p.Inv script past now r)
    (hc : r.control = .hire waiting) : p.Inv script past now (r.hire waiting) ∧
      r.shown .controller (r.hire waiting) = [] := by
  cases waiting with
  | nil => exact ⟨h.hire_none hc, Run.shown_silent rfl rfl rfl⟩
  | cons card waiting => exact ⟨h.hire_next hc, Run.shown_silent rfl rfl rfl⟩

/-- The controller takes the report of the next worker. -/
theorem collect_report {duty : Duty} {first : Option Error} {report : Report} {rest : List Report}
    (h : p.Inv script past now r) (hc : r.control = .collect duty i first)
    (hw : r.crew[i]? = some w) (sent : w.outbox = report :: rest)
    (hr : r' = { r with
      crew := r.crew.set i { w with outbox := rest }
      control := .collect duty (i + 1) (Run.keepFirst first report) }) :
    p.GoesOn script past now (r.shown .controller r') r' := by
  obtain ⟨htasks, hresults, hconnected, hcontrol⟩ := h.course
  simp only [tasksAhead, resultsAhead, ControlFits, hc] at htasks hresults hcontrol
  obtain ⟨hduty, -, hfirst⟩ := hcontrol
  have hnobody : r.waiting = [] := by simp [Run.waiting, hc]
  have hemp : p.Employs now.task now.events r.stage false w := by
    simpa [Run.collected, hc] using h.workers i w hw
  have hcard : p.cards[i]? = some w.card := by simp [← h.crew_cards hnobody, hw]
  have hlt : i < r.crew.length := (List.getElem?_eq_some_iff.mp hw).1
  have hshown : r.shown .controller r' = [] :=
    Run.shown_silent (by rw [hr]) (by rw [hr]) (by rw [hr])
  subst hr
  refine goesOn_silently ?_ hshown
  constructor
  case setting => exact h.setting.moved rfl rfl
  case history => exact h.history
  case board =>
    refine ⟨h.board.posted, h.board.latest, fun q hq => ?_⟩
    have hcounts := counts_set (p := p) hw (pending_outbox r.stage.bulletin.posted w rest)
      (balked_outbox p r.stage.bulletin.posted w rest)
    simpa only [hcounts] using h.board.latch q hq
  case course =>
    refine ⟨by cases duty <;> exact htasks, by cases duty <;> exact hresults,
      fun _ => hconnected (by simp [hc]), hduty, ?_, ?_⟩
    · exact (List.getElem?_eq_some_iff.mp hcard).1
    · rw [firstError_take_succ p now.task hcard, ← (hemp.of_outbox sent).1, hfirst]
  case crew =>
    obtain ⟨before, after, hcrew, hset⟩ := exists_split hw
    have hcards := h.crew
    simp only [Run.waiting, hc] at hcards
    rw [← hcards, hset, hcrew]
    simp [Run.waiting]
  case workers =>
    intro j v hv
    by_cases hij : j = i
    · subst hij
      obtain rfl : { w with outbox := rest } = v := by simpa [hlt] using hv
      simpa [Run.collected] using hemp.collect sent
    · have hv' : r.crew[j]? = some v := by simpa [List.getElem?_set_ne (Ne.symm hij)] using hv
      have hsame : j < i + 1 ↔ j < i := by omega
      simpa [Run.collected, hc, hsame] using h.workers j v hv'
  case unhired => simp [Run.waiting]
  case external => simpa [undone, hc] using h.external

/-- When the controller finds no further worker to collect from, the task is done. -/
theorem collected_all {duty : Duty} {first : Option Error} (h : p.Inv script past now r)
    (hc : r.control = .collect duty i first) (hend : r.crew[i]? = none) :
    (∀ j w, r.crew[j]? = some w → r.collected j = true) ∧
      first = p.firstError p.cards now.task ∧ p.Complete now := by
  have hcontrol := h.course.control
  simp only [ControlFits, hc] at hcontrol
  obtain ⟨-, hle, hfirst⟩ := hcontrol
  have hnobody : r.waiting = [] := by simp [Run.waiting, hc]
  have hlen : r.crew.length = p.cards.length := by
    rw [← h.crew_cards hnobody, List.length_map]
  have hi : r.crew.length ≤ i := List.getElem?_eq_none_iff.mp hend
  have hall : ∀ j w, r.crew[j]? = some w → r.collected j = true := by
    intro j w hw
    have hlt : j < r.crew.length := (List.getElem?_eq_some_iff.mp hw).1
    simp only [Run.collected, hc, decide_eq_true_eq]
    omega
  refine ⟨hall, ?_, h.complete hnobody hall⟩
  rw [hfirst, List.take_of_length_le (by omega)]

theorem allows_told (hdone : p.Complete now) (result : Report) :
    p.Allows now.task now.events (.told result) :=
  ⟨fun c hc => by simp [Event.card?] at hc, hdone⟩

/-- The owner hears of a task that all workers are done with. -/
theorem told_step {duty : Duty} {first : Option Error} {log : List Notice} {result : Report}
    (h : p.Inv script past now r) (hc : r.control = .collect duty i first)
    (hend : r.crew[i]? = none)
    (hr : r' = { r with
      control := .ready, stage := { r.stage with log }, results := r.results ++ [result] })
    (course : p.Course script (past.map (·.task)) now.task r') :
    p.GoesOn script past now (r.shown .controller r') r' := by
  obtain ⟨hall, -, hdone⟩ := h.collected_all hc hend
  have hshown : r.shown .controller r' = [.told result] :=
    Run.shown_told (by rw [hr]) (by rw [hr]) (by rw [hr])
  rw [hshown]
  subst hr
  refine .inl (h.moved (h.setting.moved rfl rfl) (by simp [Event.card?])
    (h.history.concat (allows_told hdone _)) rfl rfl rfl ?waiting ?collected ?undone course)
  case waiting => simp [Run.waiting, hc]
  case collected =>
    intro j w hw
    rw [hall j w hw]
    rfl
  case undone => simp [undone, hc, Call.madeBy]

/-- All workers are configured, and the owner hears of it. -/
theorem configured (h : p.Inv script past now r) (hc : r.control = .collect .configure i none)
    (hend : r.crew[i]? = none) : p.GoesOn script past now
      (r.shown .controller (r.afterCollect .configure none)) (r.afterCollect .configure none) := by
  obtain ⟨-, hfirst, -⟩ := h.collected_all hc hend
  obtain ⟨htasks, hresults, hconnected, hcontrol⟩ := h.course
  simp only [tasksAhead, resultsAhead, ControlFits, hc] at htasks hresults hcontrol
  have ht : now.task = .configure := by cases ht : now.task <;> simp_all [Task.duty]
  rw [ht] at hfirst
  apply h.told_step hc hend rfl
  refine ⟨?_, ?_, fun _ => hconnected (by simp [hc]), ?_⟩
  · simpa [agenda, ← hfirst, tasksAhead] using htasks
  · simpa [outcome, ← hfirst, resultsAhead] using hresults
  · simp [ControlFits, ht]

/-- The owner hears of a repetition. -/
theorem repeated {first : Option Error} (h : p.Inv script past now r)
    (hc : r.control = .collect .stream i first) (hend : r.crew[i]? = none) :
    p.GoesOn script past now (r.shown .controller (r.afterCollect .stream first))
      (r.afterCollect .stream first) := by
  obtain ⟨-, hfirst, -⟩ := h.collected_all hc hend
  obtain ⟨htasks, hresults, hconnected, hcontrol⟩ := h.course
  simp only [tasksAhead, resultsAhead, ControlFits, hc] at htasks hresults hcontrol
  have ht : now.task ≠ .close := by
    intro ht
    simp [ht, Task.duty] at hcontrol
  apply h.told_step hc hend rfl
  refine ⟨htasks, ?_, fun _ => hconnected (by simp [hc]), ht⟩
  simpa [hfirst, result, resultsAhead] using hresults

theorem closed {first : Option Error} (h : p.Inv script past now r)
    (hc : r.control = .collect .close i first) (hend : r.crew[i]? = none) :
    p.GoesOn script past now (r.shown .controller (r.afterCollect .close first))
      (r.afterCollect .close first) := by
  obtain ⟨hall, hfirst, -⟩ := h.collected_all hc hend
  obtain ⟨htasks, hresults, hconnected, hcontrol⟩ := h.course
  simp only [tasksAhead, resultsAhead, ControlFits, hc] at htasks hresults hcontrol
  have ht : now.task = .close := by cases ht : now.task <;> simp_all [Task.duty]
  have hshown : r.shown .controller (r.afterCollect .close first) = [] :=
    Run.shown_silent rfl rfl rfl
  refine goesOn_silently (h.moved_silently (h.setting.moved rfl rfl) rfl rfl rfl
    ?waiting ?collected ?undone ?course) hshown
  case waiting => simp [Run.waiting, Run.afterCollect, hc]
  case collected =>
    intro j w hw
    rw [hall j w hw]
    rfl
  case undone => simp [undone, Run.afterCollect, hc]
  case course => exact ⟨htasks, hresults, fun _ => hconnected (by simp [hc]), ht, ht ▸ hfirst⟩

/-- A command begins a task for workers that are all done with the last one. A latch for it counts
those that are not held back. -/
theorem begin_step {c : Command} (h : p.Inv script past now r) (hnobody : r.waiting = [])
    (hall : ∀ j w, r.crew[j]? = some w → r.collected j = true) (ht : now.task ≠ .close)
    (setting : p.Setting r') (hb : r'.stage.bulletin = r.stage.bulletin.post c)
    (hcrew : r'.crew = r.crew) (hwaiting : r'.waiting = [])
    (hcollected : ∀ j, r'.collected j = false)
    (latch : ∀ q, Task.ofCommand c = .stream q → ∃ l, c = .stream q l ∧
      l + 1 = r'.stage.latches.length ∧
      r'.stage.latches[l]? = some ⟨r.crew.countP (!·.heldBack), false⟩)
    (hundone : p.undone r' = p.undone r)
    (course : p.Course script ((past ++ [now]).map (·.task)) (Task.ofCommand c) r') :
    p.GoesOn script past now [.begun (Task.ofCommand c)] r' := by
  have hne : Task.ofCommand c ≠ .configure := by cases c <;> exact Task.noConfusion
  have hidle : ∀ w ∈ r.crew, w.phase = .listen ∧ w.viewed = r.stage.bulletin.posted := by
    intro w hw
    obtain ⟨j, hj⟩ := List.mem_iff_getElem?.mp hw
    have hemp := h.workers j w hj
    exact hemp.listening (hemp.finished (hall j w hj)) ht
  have hpending : ∀ w ∈ r.crew, pending r'.stage.bulletin.posted w = !w.heldBack := by
    intro w hw
    simp [pending, hidle w hw, hb, Bulletin.post]
  refine .inr ⟨Task.ofCommand c, hne, rfl, ?_⟩
  constructor
  case setting => exact setting
  case history =>
    refine ⟨by simp [hne], fun round hr => ?_, fun round hr => ?_⟩
    · rcases List.mem_append.mp hr with hpast | hnow
      · exact h.history.complete round hpast
      · rw [List.mem_singleton.mp hnow]
        exact h.complete hnobody hall
    · rcases List.mem_append.mp hr with hpast | hnow
      · exact h.history.orderly round hpast
      · rw [List.mem_singleton.mp hnow]
        exact Orderly.nil p _
  case board =>
    refine ⟨?_, fun _ => by rw [hb]; rfl, fun q hq => ?_⟩
    · rw [hb, List.length_append, ← h.board.posted]
      rfl
    · obtain ⟨l, hc, hlen, hlatch⟩ := latch q hq
      refine ⟨l, by rw [hb, ← hc]; rfl, hlen, ?_⟩
      have hcount : r.crew.countP (pending r'.stage.bulletin.posted) =
          r.crew.countP (!·.heldBack) :=
        List.countP_congr fun w hw => by rw [hpending w hw]
      have hany : r.crew.any (p.balked r'.stage.bulletin.posted) = false := by
        rw [List.any_eq_false]
        intro w hw
        cases hh : w.heldBack <;> simp [balked, hpending w hw, hh]
      rw [hcrew, hcount, hany, hlatch]
  case course => exact course
  case crew => rw [hcrew, h.crew_cards hnobody, hwaiting, List.append_nil]
  case workers =>
    intro j w hw
    rw [hcrew] at hw
    rw [hcollected]
    have hemp := h.workers j w hw
    rw [hall j w hw] at hemp
    exact hemp.recalled ht hb
  case unhired => simp [hwaiting]
  case external => rw [external_begin, h.external, hundone]

theorem undone_nil (hopen : r.control ≠ .over) : p.undone r = [] := by
  cases hc : r.control <;> simp_all [undone]

theorem close_step {left : List Request} {ending : Ending} (h : p.Inv script past now r)
    (hnobody : r.waiting = []) (hall : ∀ j w, r.crew[j]? = some w → r.collected j = true)
    (ht : now.task ≠ .close) (hopen : r.control ≠ .over)
    (htasks : past.map (·.task) ++ [now.task, .close] = p.agenda script)
    (hresults : r.results ++ [ending.lastWords p.closeError] = p.outcome script)
    (hr : r' = { r with script := left }.beginClose ending) :
    p.GoesOn script past now (r.shown .controller r') r' := by
  have hsome : r.crew.isEmpty = false := by
    cases hcrew : r.crew with
    | nil => exact absurd (by simpa [hcrew] using (h.crew_cards hnobody).symm) p.some_card
    | cons w crew => rfl
  have hr : r' = { r with
      script := left, ending, control := .collect .close 0 none,
      stage := r.stage.post .close } := by
    simpa [Run.beginClose, hsome] using hr
  have hshown : r.shown .controller r' = [.begun (.ofCommand .close)] :=
    Run.shown_post (by rw [hr]; rfl) (by rw [hr]; rfl) (by rw [hr])
  rw [hshown]
  subst hr
  refine h.begin_step hnobody hall ht (h.setting.moved rfl rfl) rfl rfl rfl (fun j => ?_)
    (fun q hq => by cases hq) ?_ ?course
  · simp [Run.collected]
  · rw [undone_nil hopen]
    rfl
  case course =>
    refine ⟨?_, hresults, fun _ => h.course.connected hopen, rfl, Nat.zero_le _, rfl⟩
    simpa [tasksAhead, Task.ofCommand] using htasks

theorem stream_step {q : Bool} {left : List Request} (h : p.Inv script past now r)
    (hc : r.control = .ready) (hleft : r.script = .stream q :: left)
    (hr : r' = { r with script := left }.beginStream q) :
    p.GoesOn script past now (r.shown .controller r') r' := by
  obtain ⟨htasks, hresults, hconnected, ht⟩ := h.course
  simp only [tasksAhead, resultsAhead, ControlFits, hc, hleft, Request.tasks,
    answers] at htasks hresults ht
  have hcount : Run.startCount { r with script := left } = r.crew.countP (!·.heldBack) := by
    apply List.countP_congr
    intro w hw
    obtain ⟨j, hj⟩ := List.mem_iff_getElem?.mp hw
    rw [(h.workers j w hj).held, isHeld, ← h.setting.heldBack]
    rfl
  have hshown : r.shown .controller r' = [.begun (.ofCommand (.stream q r.stage.latches.length))] :=
    Run.shown_post (by rw [hr]; rfl) (by rw [hr]; rfl) (by rw [hr]; rfl)
  rw [hshown]
  subst hr
  refine h.begin_step ?nobody ?all ht (h.setting.moved rfl rfl) rfl rfl rfl (fun j => ?_) ?latch
    ?_ ?course
  case nobody => simp [Run.waiting, hc]
  case all => simp [Run.collected, hc]
  case latch =>
    intro q' hq
    cases hq
    refine ⟨_, rfl, ?_, ?_⟩
    · simp [Run.beginStream, Stage.post, Stage.addLatch]
    · simp [Run.beginStream, Stage.post, Stage.addLatch, hcount]
  · simp [Run.collected, Run.beginStream]
  · simp [undone, Run.beginStream, hc]
  case course =>
    refine ⟨?_, hresults, fun _ => hconnected (by simp [hc]), rfl, Nat.zero_le _, rfl⟩
    simpa [tasksAhead, Task.ofCommand, Run.beginStream] using htasks

theorem serve_step (h : p.Inv script past now r) (hc : r.control = .ready)
    (next : r.serve = some r') : p.GoesOn script past now (r.shown .controller r') r' := by
  have hnobody : r.waiting = [] := by simp [Run.waiting, hc]
  have hall : ∀ j w, r.crew[j]? = some w → r.collected j = true := fun j w _ => by
    simp [Run.collected, hc]
  have hopen : r.control ≠ .over := by simp [hc]
  obtain ⟨htasks, hresults, -, ht⟩ := h.course
  simp only [tasksAhead, resultsAhead, ControlFits, hc] at htasks hresults ht
  cases hs : r.script with
  | nil => simp [Run.serve, hs] at next
  | cons request left =>
    rw [hs] at htasks hresults
    cases request with
    | stream q =>
      simp only [Run.serve, hs, Option.some.injEq] at next
      exact h.stream_step hc hs next.symm
    | close =>
      simp only [Run.serve, hs, Option.some.injEq] at next
      have hlast : r.results ++ [Ending.closed.lastWords p.closeError] = p.outcome script :=
        hresults
      exact h.close_step hnobody hall ht hopen htasks hlast next.symm
    | drop =>
      simp only [Run.serve, hs, Option.some.injEq] at next
      have hlast : r.results ++ [(Ending.dropped none).lastWords p.closeError] =
          p.outcome script := hresults
      exact h.close_step hnobody hall ht hopen htasks hlast next.symm

theorem collect_step {duty : Duty} {first : Option Error} (h : p.Inv script past now r)
    (hc : r.control = .collect duty i first) (next : r.collect duty i first = some r') :
    p.GoesOn script past now (r.shown .controller r') r' := by
  cases hw : r.crew[i]? with
  | some w =>
    have hemp : p.Employs now.task now.events r.stage false w := by
      simpa [Run.collected, hc] using h.workers i w hw
    cases ho : w.outbox with
    | cons report rest =>
      simp only [Run.collect, hw, ho, Option.some.injEq] at next
      exact h.collect_report hc hw ho next.symm
    | nil => simp [Run.collect, hw, ho, hemp.not_over ho] at next
  | none =>
    simp only [Run.collect, hw, Option.some.injEq] at next
    subst next
    cases duty with
    | stream => exact h.repeated hc hw
    | close => exact h.closed hc hw
    | configure =>
      cases first with
      | none => exact h.configured hc hw
      | some e =>
        obtain ⟨hall, hfirst, -⟩ := h.collected_all hc hw
        obtain ⟨htasks, hresults, -, hcontrol⟩ := h.course
        simp only [tasksAhead, resultsAhead, ControlFits, hc] at htasks hresults hcontrol
        have ht : now.task = .configure := by cases ht : now.task <;> simp_all [Task.duty]
        rw [ht] at hfirst htasks
        refine h.close_step (by simp [Run.waiting, hc]) hall (by simp [ht]) (by simp [hc]) ?_ ?_ rfl
        · rw [ht]
          simpa [agenda, ← hfirst] using htasks
        · simpa [outcome, ← hfirst, Ending.lastWords, Run.asReport] using hresults

theorem join_step {first : Option Error} (h : p.Inv script past now r)
    (hc : r.control = .join i first) (next : r.join i first = some r') :
    p.GoesOn script past now (r.shown .controller r') r' := by
  obtain ⟨htasks, hresults, hconnected, hcontrol⟩ := h.course
  simp only [tasksAhead, resultsAhead, ControlFits, hc] at htasks hresults hcontrol
  have hconnected := hconnected (by simp [hc])
  have hr : r' = { r with control := .disconnect first } ∨
      r' = { r with control := .join (i + 1) first } := by
    cases hw : r.crew[i]? with
    | none =>
      refine .inl ?_
      simpa [Run.join, hw] using next.symm
    | some w =>
      have hemp := h.workers i w hw
      simp only [Run.collected, hc, hcontrol.1] at hemp
      have hended := hemp.ended (hemp.finished rfl)
      refine .inr ?_
      simpa [Run.join, hw, hended] using next.symm
  have hshown : r.shown .controller r' = [] := by
    rcases hr with rfl | rfl <;> exact Run.shown_silent rfl rfl rfl
  refine goesOn_silently ?_ hshown
  rcases hr with rfl | rfl
  · refine h.moved_silently (h.setting.moved rfl rfl) rfl rfl rfl ?_ ?_ ?_
      ⟨htasks, hresults, fun _ => hconnected, hcontrol⟩
    · simp [Run.waiting, hc]
    · simp [Run.collected, hc]
    · simp [undone, hc]
  · refine h.moved_silently (h.setting.moved rfl rfl) rfl rfl rfl ?_ ?_ ?_
      ⟨htasks, hresults, fun _ => hconnected, hcontrol⟩
    · simp [Run.waiting, hc]
    · simp [Run.collected, hc]
    · simp [undone, hc]

end Inv

theorem farewell_eq (r : Run) (first : Option Error) :
    ∃ log, r.farewell first = { r with
      control := .over, stage := { r.stage with log },
      results := r.results ++ [r.ending.lastWords first] } := by
  obtain ⟨_, _, _, _, _, _, _, _, _, ending, _⟩ := r
  cases ending with
  | closed => exact ⟨_, rfl⟩
  | dropped failure =>
    cases first with
    | none => exact ⟨_, rfl⟩
    | some e => exact ⟨_, rfl⟩

theorem keepFirst_ok (first : Option Error) : Run.keepFirst first (.ok ()) = first := by
  cases first <;> rfl

theorem disconnect_eq {first : Option Error} (hclock : r.refClock = p.refClock)
    (hconnected : r.connected = p.refClock.isSome)
    (hfailing : r.stage.backend.failing = p.backend.failing)
    (hfirst : first = p.firstError p.cards .close) :
    ∃ connected stage, r.disconnect first = { r with
        connected, stage, control := .over,
        results := r.results ++ [r.ending.lastWords p.closeError] } ∧
      stage.bulletin = r.stage.bulletin ∧ stage.latches = r.stage.latches ∧
      stage.incidents = r.stage.incidents ∧
      stage.backend.failing = r.stage.backend.failing ∧
      stage.backend.calls = r.stage.backend.calls ++ p.disconnectCalls := by
  cases hp : p.refClock with
  | none =>
    rw [hp] at hclock hconnected
    have hclose : p.closeError = first := by
      simp [closeError, disconnectCalls, hp, verdictOn, keepFirst_ok, hfirst]
    obtain ⟨log, hfarewell⟩ := farewell_eq r first
    refine ⟨r.connected, { r.stage with log }, ?_, rfl, rfl, rfl, rfl, ?_⟩
    · simpa [Run.disconnect, hclock, hclose] using hfarewell
    · simp [disconnectCalls, hp]
  | some connection =>
    obtain ⟨source, target⟩ := connection
    rw [hp] at hclock hconnected
    have hclose : p.closeError =
        Run.keepFirst first (r.stage.backend.verdict (.disconnect source target)) := by
      simp [closeError, disconnectCalls, hp, verdictOn, hfirst, Backend.verdict_congr hfailing]
    obtain ⟨log, hfarewell⟩ := farewell_eq { r with
      connected := false
      stage := { r.stage with backend := (r.stage.backend.issue (.disconnect source target)).2 } }
      (Run.keepFirst first (r.stage.backend.verdict (.disconnect source target)))
    refine ⟨false, { r.stage with
      log, backend := (r.stage.backend.issue (.disconnect source target)).2 }, ?_, rfl, rfl, rfl,
      Backend.issue_failing .., ?_⟩
    · simpa [Run.disconnect, hclock, hconnected, Stage.issue_eq, hclose] using hfarewell
    · rw [Backend.issue_calls]
      simp [disconnectCalls, hp]

theorem History.disconnected (h : p.History past now) (hdone : p.Complete now) :
    p.History past ⟨now.task, now.events ++ p.disconnectCalls.map .call⟩ ∧
      p.Complete ⟨now.task, now.events ++ p.disconnectCalls.map .call⟩ := by
  cases hp : p.refClock with
  | none => simpa [disconnectCalls, hp] using And.intro h hdone
  | some connection =>
    obtain ⟨source, target⟩ := connection
    have hnobody : ∀ c, (Event.call (.disconnect source target)).card? ≠ some c := by
      simp [Event.card?, Call.maker?, Call.lifecycle?]
    have hcalls : p.disconnectCalls = [.disconnect source target] := by simp [disconnectCalls, hp]
    rw [hcalls]
    refine ⟨h.concat ⟨fun c hc => absurd hc (hnobody c), trivial⟩, fun c hc => ?_⟩
    rw [Event.own_append, hdone c hc, Event.own_eq_nil fun e he => ?_, List.append_nil]
    rw [List.mem_singleton.mp he]
    exact hnobody c

theorem disconnect_maker {c : Call} (hc : c ∈ p.disconnectCalls) : c.maker? = none := by
  unfold disconnectCalls at hc
  split at hc
  · rw [List.mem_singleton.mp hc]
    rfl
  · cases hc

theorem disconnect_card {e : Event} (he : e ∈ p.disconnectCalls.map Event.call) :
    e.card? = none := by
  obtain ⟨c, hc, rfl⟩ := List.mem_map.mp he
  exact disconnect_maker hc

theorem calls_disconnected (p : Plan) (result : Report) :
    Call.madeBy none (Event.calls (p.disconnectCalls.map .call ++ [.told result])) =
      p.disconnectCalls := by
  rw [Event.calls_append, Event.calls_map_call, Event.calls_told, Event.calls_nil, List.append_nil]
  exact Call.madeBy_eq_self fun c hc => disconnect_maker hc

namespace Inv

theorem disconnect_step {first : Option Error} (h : p.Inv script past now r)
    (hc : r.control = .disconnect first) (hr : r' = r.disconnect first) :
    p.GoesOn script past now (r.shown .controller r') r' := by
  obtain ⟨htasks, hresults, hconnected, hcontrol⟩ := h.course
  simp only [tasksAhead, resultsAhead, ControlFits, hc] at htasks hresults hcontrol
  have hdone : p.Complete now :=
    h.complete (by simp [Run.waiting, hc]) fun j w _ => by simp [Run.collected, hc]
  obtain ⟨hhistory, hdone⟩ := h.history.disconnected hdone
  obtain ⟨connected, stage, heq, hb, hl, hi, hf, hcalls⟩ := disconnect_eq h.setting.refClock
    (hconnected (by simp [hc])) h.setting.failing hcontrol.2
  rw [heq] at hr
  subst hr
  rw [Run.shown_controller hb hcalls rfl]
  refine .inl (h.moved (h.setting.moved hf hi) ?cards ?history hb hl rfl ?waiting ?collected ?undone
    ?course)
  case cards =>
    intro e he
    rcases List.mem_append.mp he with hcall | htold
    · exact disconnect_card hcall
    · rw [List.mem_singleton.mp htold]
      rfl
  case history =>
    rw [← List.append_assoc]
    exact hhistory.concat (allows_told hdone _)
  case waiting => simp [Run.waiting, hc]
  case collected => simp [Run.collected, hc]
  case undone =>
    have hnone : p.undone r = [] := undone_nil (by simp [hc])
    rw [hnone, List.nil_append]
    exact (calls_disconnected p _).symm
  case course =>
    refine ⟨htasks, ?_, fun hopen => absurd rfl hopen, hcontrol.1⟩
    simpa [resultsAhead] using hresults

/-- The history of a run goes on with every step. -/
theorem step (h : p.Inv script past now r) {a : Actor} (next : r.step a = some r') :
    p.GoesOn script past now (r.shown a r') r' := by
  cases a with
  | worker index => exact .inl (h.worker_step next)
  | controller =>
    have next : r.controllerStep = some r' := next
    have hcontrol := h.course.control
    cases hc : r.control with
    | connect => simp [ControlFits, hc] at hcontrol
    | hire waiting =>
      simp only [Run.controllerStep, hc, Option.some.injEq] at next
      subst next
      obtain ⟨hinv, hshown⟩ := h.hire_step hc
      exact goesOn_silently hinv hshown
    | collect duty index first =>
      simp only [Run.controllerStep, hc] at next
      exact h.collect_step hc next
    | ready =>
      simp only [Run.controllerStep, hc] at next
      exact h.serve_step hc next
    | join index first =>
      simp only [Run.controllerStep, hc] at next
      exact h.join_step hc next
    | disconnect first =>
      simp only [Run.controllerStep, hc, Option.some.injEq] at next
      exact h.disconnect_step hc next.symm
    | _ => simp [Run.controllerStep, hc] at next

end Inv

end Sequencer.Plan
