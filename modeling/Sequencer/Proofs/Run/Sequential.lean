import Sequencer.Proofs.Run.Confluence

namespace Sequencer.Plan

variable {p : Plan} {script : List Request} {past : List Round} {now : Round} {r : Run}

theorem own_acts_ne (p : Plan) {c card : String} (h : card ≠ c) (t : Task) :
    Event.own c (p.acts card t) = [] :=
  Event.own_eq_nil fun _ he heq => h (Option.some.inj ((acts_card he).symm.trans heq))

theorem own_acts (p : Plan) (c : String) (t : Task) : Event.own c (p.acts c t) = p.acts c t :=
  Event.own_eq_self fun _ he => acts_card he

theorem own_flatMap_acts (p : Plan) {cards : List String} (hnodup : cards.Nodup) (c : String)
    (t : Task) :
    Event.own c (cards.flatMap (p.acts · t)) = if c ∈ cards then p.acts c t else [] := by
  induction cards with
  | nil => rfl
  | cons card cards ih =>
    obtain ⟨hnew, hrest⟩ := List.nodup_cons.mp hnodup
    rw [List.flatMap_cons, Event.own_append, ih hrest]
    by_cases heq : card = c
    · subst heq
      simp [hnew, own_acts]
    · simp [own_acts_ne p heq, Ne.symm heq]

/-- The workers of all cards that are not held back have done their part. -/
def OthersDone (p : Plan) (now : Round) : Prop :=
  ∀ c ∈ p.cards, p.isHeld c = false → Event.own c now.events = p.acts c now.task

theorem OthersDone.append {p : Plan} {now : Round} {es : List Event} {c : String}
    (h : p.OthersDone now) (hc : p.isHeld c = true) (hes : ∀ e ∈ es, e.card? = some c) :
    p.OthersDone ⟨now.task, now.events ++ es⟩ := by
  intro o ho hheld
  have hne : c ≠ o := by
    rintro rfl
    rw [hc] at hheld
    cases hheld
  have hnone : Event.own o es = [] :=
    Event.own_eq_nil fun e he heq => hne (Option.some.inj ((hes e he).symm.trans heq))
  rw [Event.own_append, h o ho hheld, hnone, List.append_nil]

/-- Nobody is stuck who plays when it is its turn. -/
theorem Inv.steps_in_turn (h : p.Inv script past now r) {i : Nat} {w : Worker}
    (hw : r.crew[i]? = some w) (turn : p.isHeld w.card = true → p.OthersDone now)
    (more : p.ahead r.stage.bulletin w ≠ []) : w.step r.stage ≠ none := by
  intro stuck
  rcases (h.workers i w hw).blocked stuck with hdone | ⟨q, l, hp, hclosed⟩
  · exact more hdone
  · have hfits := (h.workers i w hw).phase
    simp only [PhaseFits, hp] at hfits
    obtain ⟨j, v, hv, hpend⟩ := h.gate_closed hw hp hclosed
    have hemp := h.workers j v hv
    have hheld : p.isHeld v.card = false := by
      rw [← hemp.held]
      cases hb : v.heldBack <;> simp_all [pending]
    have hhistory := hemp.history
    rw [turn hfits.2.1 v.card (h.listed hv) hheld] at hhistory
    exact Employs.ahead_of_pending hpend (List.append_right_eq_self.mp hhistory)

/-- A worker plays its part to the end without the help of anybody, if it is not held back or the
others are done. -/
theorem Inv.solo {now : Round} {r : Run} (h : p.Inv script past now r) {i : Nat} {w : Worker}
    (hw : r.crew[i]? = some w) (turn : p.isHeld w.card = true → p.OthersDone now) :
    ∃ es r', r.Leads es r' ∧ p.Inv script past ⟨now.task, now.events ++ es⟩ r' ∧
      r'.control = r.control ∧ r'.weight ≤ r.weight ∧
      Event.own w.card now.events ++ es = p.acts w.card now.task := by
  have hemp := h.workers i w hw
  by_cases hdone : p.ahead r.stage.bulletin w = []
  · refine ⟨[], r, .start, by simpa using h, rfl, Nat.le_refl _, ?_⟩
    rw [List.append_nil, hemp.own_eq_acts hdone]
  · obtain ⟨⟨w', s'⟩, hstep⟩ := Option.ne_none_iff_exists'.mp (h.steps_in_turn hw turn hdone)
    obtain ⟨made, sent, a⟩ := h.advances hw hstep
    have hlt : i < r.crew.length := (List.getElem?_eq_some_iff.mp hw).1
    have next : r.step (.worker i) = some { r with stage := s', crew := r.crew.set i w' } := by
      simp [Run.step, Run.workerStep, hw, hstep]
    have hinv := h.worker_step next
    have hshown := Run.shown_worker hw a.bulletin a.calls a.outbox
    rw [hshown] at hinv
    have hlighter := h.weight_lt next
    have hw' : (r.crew.set i w')[i]? = some w' := by simp [hlt]
    obtain ⟨es, r', hleads, hinv', hcontrol, hle, hes⟩ := hinv.solo hw' (by
      rw [a.card]
      exact fun hheld => (turn hheld).append hheld fun e he => a.card_eq he)
    refine ⟨_, r', (Run.Leads.step _ .start next).trans hleads, ?_, hcontrol,
      Nat.le_trans hle (Nat.le_of_lt hlighter), ?_⟩
    · rw [hshown]
      simpa [List.append_assoc] using hinv'
    · rw [a.card, Event.own_append, Event.own_eq_self fun e he => a.card_eq he] at hes
      rw [hshown]
      simpa [List.append_assoc] using hes
termination_by r.weight

/-- Workers that have not begun play one after another. -/
theorem Inv.play {cards : List String} {now : Round} {r : Run} (h : p.Inv script past now r)
    (hnobody : r.waiting = []) (hnodup : cards.Nodup) (listed : ∀ c ∈ cards, c ∈ p.cards)
    (fresh : ∀ c ∈ cards, Event.own c now.events = [])
    (turn : ∀ c ∈ cards, p.isHeld c = true → p.OthersDone now) :
    ∃ r', r.Leads (cards.flatMap (p.acts · now.task)) r' ∧
      p.Inv script past ⟨now.task, now.events ++ cards.flatMap (p.acts · now.task)⟩ r' ∧
      r'.control = r.control ∧ r'.weight ≤ r.weight := by
  induction cards generalizing now r with
  | nil => exact ⟨r, .start, by simpa using h, rfl, Nat.le_refl _⟩
  | cons c cards ih =>
    obtain ⟨hnew, hrest⟩ := List.nodup_cons.mp hnodup
    obtain ⟨i, w, hw, rfl⟩ := h.worker_of_card hnobody (listed _ List.mem_cons_self)
    obtain ⟨es, r₁, hleads, hinv, hcontrol, hle, hes⟩ := h.solo hw (turn _ List.mem_cons_self)
    rw [fresh _ List.mem_cons_self, List.nil_append] at hes
    subst hes
    have hnobody₁ : r₁.waiting = [] := by
      rw [← hnobody]
      simp only [Run.waiting, hcontrol]
    have hfresh : ∀ c ∈ cards, Event.own c (now.events ++ p.acts w.card now.task) = [] := by
      intro c hc
      have hne : w.card ≠ c := by
        rintro rfl
        exact hnew hc
      rw [Event.own_append, fresh c (List.mem_cons_of_mem _ hc), own_acts_ne p hne]
      rfl
    have hturn : ∀ c ∈ cards, p.isHeld c = true →
        p.OthersDone ⟨now.task, now.events ++ p.acts w.card now.task⟩ := by
      intro c hc hheld o ho hother
      have hdone := turn c (List.mem_cons_of_mem _ hc) hheld o ho hother
      have hne : w.card ≠ o := by
        rintro rfl
        rw [fresh _ List.mem_cons_self] at hdone
        exact events_ne_nil _ _ hdone.symm
      rw [Event.own_append, hdone, own_acts_ne p hne, List.append_nil]
    obtain ⟨r', hleads', hinv', hcontrol', hle'⟩ := ih hinv hnobody₁ hrest
      (fun c hc => listed c (List.mem_cons_of_mem _ hc)) hfresh hturn
    refine ⟨r', ?_, ?_, hcontrol'.trans hcontrol, Nat.le_trans hle' hle⟩
    · rw [List.flatMap_cons]
      exact hleads.trans hleads'
    · rw [List.flatMap_cons, ← List.append_assoc]
      exact hinv'

/-- A whole round, the card held back last. -/
theorem Inv.play_round {t : Task} (h : p.Inv script past ⟨t, []⟩ r) (hnobody : r.waiting = []) :
    ∃ r', r.Leads (p.inTurn.flatMap (p.acts · t)) r' ∧
      p.Inv script past ⟨t, p.inTurn.flatMap (p.acts · t)⟩ r' ∧ r'.control = r.control ∧
      r'.weight ≤ r.weight := by
  have hothers : (p.cards.filter (!p.isHeld ·)).Nodup := p.distinct.filter _
  have hheld : (p.cards.filter (p.isHeld ·)).Nodup := p.distinct.filter _
  obtain ⟨r₁, hleads, hinv, hcontrol, hle⟩ := h.play hnobody hothers
    (fun c hc => (List.mem_filter.mp hc).1) (fun c _ => rfl)
    (fun c hc hback => by simp [hback] at hc)
  rw [List.nil_append] at hinv
  have hdone : p.OthersDone ⟨t, (p.cards.filter (!p.isHeld ·)).flatMap (p.acts · t)⟩ := by
    intro c hc hback
    have hmem : c ∈ p.cards.filter (!p.isHeld ·) := by simp [hc, hback]
    rw [own_flatMap_acts p hothers, if_pos hmem]
  have hnobody₁ : r₁.waiting = [] := by
    rw [← hnobody]
    simp only [Run.waiting, hcontrol]
  have hfresh : ∀ c ∈ p.cards.filter (p.isHeld ·),
      Event.own c ((p.cards.filter (!p.isHeld ·)).flatMap (p.acts · t)) = [] := by
    intro c hc
    have hback := (List.mem_filter.mp hc).2
    rw [own_flatMap_acts p hothers, if_neg (by simp [hback])]
  obtain ⟨r', hleads', hinv', hcontrol', hle'⟩ := hinv.play hnobody₁ hheld
    (fun c hc => (List.mem_filter.mp hc).1) hfresh (fun _ _ _ => hdone)
  refine ⟨r', ?_, ?_, hcontrol'.trans hcontrol, Nat.le_trans hle' hle⟩
  · rw [inTurn, List.flatMap_append]
    exact hleads.trans hleads'
  · rw [inTurn, List.flatMap_append]
    exact hinv'

theorem complete_round (p : Plan) (t : Task) :
    p.Complete ⟨t, p.inTurn.flatMap (p.acts · t)⟩ := by
  intro c hc
  rw [own_flatMap_acts p (p.inTurn_perm.nodup_iff.mpr p.distinct),
    if_pos (p.inTurn_perm.mem_iff.mpr hc)]

theorem calls_round (p : Plan) (t : Task) :
    Event.calls (p.inTurn.flatMap (p.acts · t)) = p.round t := by
  have hcalls : ∀ cards : List String, Event.calls (cards.flatMap (p.acts · t)) =
      cards.flatMap fun c => (p.turn c t).1 := by
    intro cards
    induction cards with
    | nil => rfl
    | cons c cards ih => rw [List.flatMap_cons, Event.calls_append, acts, calls_events, ih]; rfl
  exact hcalls p.inTurn

/-- Once all workers have played, everything more in the round comes from the controller. -/
theorem Inv.after_complete {es : List Event} (h : p.Inv script past now r) {r' : Run}
    (hdone : p.Complete now) (h' : p.Inv script past ⟨now.task, now.events ++ es⟩ r') :
    r'.waiting = [] ∧ p.Complete ⟨now.task, now.events ++ es⟩ ∧
      p.undone r' = p.undone r ++ Event.calls es := by
  have hcrew : ∀ c ∈ p.cards, Event.own c es = [] := by
    intro c hc
    obtain ⟨tail, hall⟩ := h'.own_prefix hc
    rw [Event.own_append, hdone c hc, List.append_assoc] at hall
    exact (List.append_eq_nil_iff.mp (List.append_right_eq_self.mp hall)).1
  have hnone : ∀ c, Event.own c es = [] := by
    intro c
    by_cases hc : c ∈ p.cards
    · exact hcrew c hc
    · have hstranger := h'.own_stranger (List.mem_append_right _ (List.mem_singleton.mpr rfl)) hc
      rw [Event.own_append] at hstranger
      exact (List.append_eq_nil_iff.mp hstranger).2
  refine ⟨?_, fun c hc => by rw [Event.own_append, hdone c hc, hnone c, List.append_nil], ?_⟩
  · apply List.eq_nil_iff_forall_not_mem.mpr
    intro c hc
    have hmem : c ∈ p.cards := h'.crew ▸ List.mem_append_right _ hc
    have hunseen := h'.unhired c hc
    rw [Event.own_append, hdone c hmem] at hunseen
    exact events_ne_nil _ _ (List.append_eq_nil_iff.mp hunseen).1
  · have hmade : Call.madeBy none (Event.calls es) = Event.calls es := by
      apply Call.madeBy_eq_self
      intro made hcall
      cases hm : made.maker? with
      | none => rfl
      | some c =>
        have hown : made ∈ Call.madeBy (some c) (Event.calls es) := by
          simp [Call.madeBy, hcall, hm]
        rw [Event.calls_own, hnone c] at hown
        cases hown
    rw [← h'.external, external_extend, h.external, hmade]

/-- Hiring goes on without the help of anybody. -/
theorem Inv.hire_all {waiting : List String} {r : Run} (h : p.Inv script past now r)
    (hc : r.control = .hire waiting) :
    ∃ r', r.Leads [] r' ∧ p.Inv script past now r' ∧ r'.waiting = [] := by
  have hfirst : ∀ {waiting : List String} {r : Run}, p.Inv script past now r →
      r.control = .hire waiting → r.Leads [] (r.hire waiting) := by
    intro waiting r h hc
    have next : r.step .controller = some (r.hire waiting) := by
      simp [Run.step, Run.controllerStep, hc]
    have hleads := Run.Leads.step .controller .start next
    rwa [(h.hire_step hc).2] at hleads
  induction waiting generalizing r with
  | nil => exact ⟨_, hfirst h hc, (h.hire_step hc).1, rfl⟩
  | cons card waiting ih =>
    obtain ⟨r', hleads, hinv, hnobody⟩ := ih (h.hire_step hc).1 rfl
    exact ⟨r', (hfirst h hc).trans hleads, hinv, hnobody⟩

theorem Inv.all_ended (h : p.Inv script past now r) (hc : r.control = .over) {i : Nat} {w : Worker}
    (hw : r.crew[i]? = some w) : w.phase = .ended := by
  have hemp := h.workers i w hw
  have ht := h.course.control
  simp only [ControlFits, Run.collected, hc] at ht hemp
  rw [ht] at hemp
  exact hemp.ended (hemp.finished rfl)

theorem Inv.over_at_rest (h : p.Inv script past now r) (hc : r.control = .over) : r.AtRest := by
  intro a
  cases a with
  | controller => simp [Run.step, Run.controllerStep, hc]
  | worker i =>
    cases hw : r.crew[i]? with
    | none => simp [Run.step, Run.workerStep, hw]
    | some w => simp [Run.step, Run.workerStep, hw, Worker.step, h.all_ended hc hw]

theorem Inv.all_done_of_complete (h : p.Inv script past now r) (hdone : p.Complete now) {i : Nat}
    {w : Worker} (hw : r.crew[i]? = some w) : p.ahead r.stage.bulletin w = [] := by
  have hhistory := (h.workers i w hw).history
  rw [hdone w.card (h.listed hw)] at hhistory
  exact List.append_right_eq_self.mp hhistory

/-- From a completed round on, the run can be carried out one round after another. -/
theorem Inv.finish {repetitions : List Bool} {dropped : Bool} {past : List Round} {now : Round}
    {r : Run} (h : p.Inv (Plan.script repetitions dropped) past now r) (hdone : p.Complete now) :
    ∃ es r', r.Leads es r' ∧ r'.AtRest ∧
      p.undone r ++ Event.calls es = (p.tasksAhead r).flatMap p.round ++ p.disconnectCalls := by
  cases hstep : r.controllerStep with
  | none =>
    have hover := h.over_of_idle (fun i w hw => h.all_done_of_complete hdone hw) hstep
    refine ⟨[], r, .start, h.over_at_rest hover, ?_⟩
    simp [undone, tasksAhead, hover]
  | some r₁ =>
    have next : r.step .controller = some r₁ := hstep
    have hlighter := h.weight_lt next
    have hfirst := Run.Leads.step .controller .start next
    rcases h.step next with hinv | ⟨t, ht, hshown, hinv⟩
    · obtain ⟨-, hdone₁, hundone⟩ := h.after_complete hdone hinv
      obtain ⟨es, r', hleads, hrest, hcalls⟩ := hinv.finish hdone₁
      have hahead : p.tasksAhead r = p.tasksAhead r₁ :=
        (List.cons.inj (List.append_cancel_left (h.course.tasks.trans hinv.course.tasks.symm))).2
      refine ⟨_, r', hfirst.trans hleads, hrest, ?_⟩
      rw [List.nil_append, Event.calls_append, ← List.append_assoc, ← hundone, hcalls, hahead]
    · obtain ⟨r₂, hround, hinv₂, hcontrol, hle⟩ := hinv.play_round (hinv.nobody_waits ht)
      obtain ⟨es, r', hleads, hrest, hcalls⟩ := hinv₂.finish (p.complete_round t)
      have hahead : p.tasksAhead r = t :: p.tasksAhead r₂ := by
        have htasks := h.course.tasks.trans hinv₂.course.tasks.symm
        rw [List.map_append, List.append_assoc] at htasks
        exact (List.cons.inj (List.append_cancel_left htasks)).2
      have hnone : p.undone r = [] := undone_nil fun hover => by
        simp [Run.controllerStep, hover] at hstep
      have hnone₁ : p.undone r₁ = [] := by
        rw [← hinv.external, external_begin, h.external, hnone]
      have hnone₂ : p.undone r₂ = [] := by
        rw [← hnone₁]
        simp only [undone, hcontrol]
      rw [hnone₂, List.nil_append] at hcalls
      refine ⟨_, r', (hfirst.trans hround).trans hleads, hrest, ?_⟩
      rw [hnone, hshown, hahead, List.nil_append, List.nil_append, List.cons_append,
        List.nil_append, List.cons_append, Event.calls_begun, Event.calls_append, calls_round, hcalls,
        List.flatMap_cons, List.append_assoc]
termination_by r.weight

/-- The calls of the run of one thread are those of an execution. -/
theorem sequential_runs (p : Plan) (repetitions : List Bool) (dropped : Bool) :
    ∃ events r, (p.start (Plan.script repetitions dropped)).Leads events r ∧ r.AtRest ∧
      Event.calls events = (p.sequential repetitions dropped).calls := by
  have next : (p.start (Plan.script repetitions dropped)).step .controller =
      some (p.start (Plan.script repetitions dropped)).connect := rfl
  have hfirst := Run.Leads.step .controller .start next
  cases hv : p.verdictOn p.connectCalls with
  | error e =>
    obtain ⟨more, r, hleads, hrest⟩ := comes_to_rest hfirst
    have hall := hfirst.trans hleads
    refine ⟨_, r, hall, hrest, ?_⟩
    cases reached hall with
    | start state _ =>
      rw [state] at hrest
      exact absurd (hrest .controller) (by rw [next]; exact Option.some_ne_none _)
    | running accepted => rw [hv] at accepted; cases accepted
    | aborted e state =>
      obtain ⟨hseq, hcalls, -⟩ := aborted_sequential state repetitions dropped
      rw [hseq, hcalls]
  | ok =>
    obtain ⟨hinv, hcontrol, hshown⟩ :=
      Inv.connected_first (r := p.start (Plan.script repetitions dropped)) rfl hv
    obtain ⟨r₁, hhire, hinv₁, hnobody⟩ := hinv.hire_all hcontrol
    obtain ⟨r₂, hround, hinv₂, hcontrol₂, -⟩ := hinv₁.play_round hnobody
    obtain ⟨es, r', hleads, hrest, hcalls⟩ := hinv₂.finish (p.complete_round .configure)
    refine ⟨_, r', ((hfirst.trans hhire).trans hround).trans hleads, hrest, ?_⟩
    have htasks := hinv₂.course.tasks
    have hnone : p.undone r₁ = [] := hinv₁.external.symm
    have hnone₂ : p.undone r₂ = [] := by
      rw [← hnone]
      simp only [undone, hcontrol₂]
    rw [hnone₂, List.nil_append] at hcalls
    rw [sequential_eq p repetitions dropped hv, allCalls, ← htasks, hshown]
    simp [calls_round, hcalls]

/-- The outcome of a run does not depend on how its actors are scheduled. The run of one thread,
card after card in each round and the one held back last, is one of its executions; and at any time
of any execution the owner was told the first results of that run, and each worker, and the
controller, made the first calls that it makes there. Every step brings an execution closer to its
end, where results and calls are those of the run of one thread. -/
theorem schedule_independent (p : Plan) (repetitions : List Bool) (dropped : Bool) :
    (∃ events r, (p.start (Plan.script repetitions dropped)).Leads events r ∧ r.AtRest ∧
      Event.calls events = (p.sequential repetitions dropped).calls) ∧
    ∀ events r, (p.start (Plan.script repetitions dropped)).Leads events r →
      r.results <+: (p.sequential repetitions dropped).results ∧
      (∀ maker, Call.madeBy maker (Event.calls events) <+:
        Call.madeBy maker (p.sequential repetitions dropped).calls) ∧
      (∀ a r', r.step a = some r' → r'.weight < r.weight) ∧
      (r.AtRest → r.results = (p.sequential repetitions dropped).results ∧
        ∀ maker, Call.madeBy maker (Event.calls events) =
          Call.madeBy maker (p.sequential repetitions dropped).calls) := by
  refine ⟨p.sequential_runs repetitions dropped, fun events r h => ?_⟩
  obtain ⟨hresults, hcalls⟩ := follows_sequential h
  exact ⟨hresults, hcalls, fun a r' next => weight_lt h next, ends_as_sequential h⟩

end Sequencer.Plan
