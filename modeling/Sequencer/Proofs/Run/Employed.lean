import Sequencer.Proofs.Run.Worker

namespace Sequencer.Plan

theorem calls_events (card : String) (part : List Call × Report) :
    Event.calls (events card part) = part.1 := by
  simp [events]

theorem reports_events (card : String) (part : List Call × Report) :
    Event.reports (events card part) = [part.2] := by
  simp [events, Event.reports, Event.report?, List.filterMap_map, Function.comp_def]

@[simp] theorem reports_acts (p : Plan) (card : String) (t : Task) :
    Event.reports (p.acts card t) = [(p.turn card t).2] := reports_events ..

theorem events_ne_nil (card : String) (part : List Call × Report) : events card part ≠ [] := by
  simp [events]

/-- A worker with something to show will report. -/
theorem reports_ahead {p : Plan} {b : Bulletin} {w : Worker} (h : p.ahead b w ≠ []) :
    ∃ r, Event.reports (p.ahead b w) = [r] := by
  unfold ahead at h ⊢
  split at h
  · split at h
    case isTrue behind => exact ⟨_, by rw [if_pos behind, reports_acts]⟩
    case isFalse => exact absurd rfl h
  · cases hp : w.phase with
    | countDown q l started =>
      cases started with
      | ok => exact ⟨_, reports_events ..⟩
      | error e => exact ⟨.error e, rfl⟩
    | report r last => exact ⟨r, rfl⟩
    | _ => simp_all [following, reports_events]

theorem perform_maker {p : Plan} {card : String} {calcNext : Bool} {c : Call}
    (h : c ∈ (p.perform card calcNext).1) : c.maker? = some card := by
  unfold perform at h
  split at h <;> simp at h <;> rcases h with rfl | rfl <;> rfl

theorem turn_maker {p : Plan} {card : String} {t : Task} {c : Call}
    (h : c ∈ (p.turn card t).1) : c.maker? = some card := by
  cases t with
  | configure => rw [List.mem_singleton.mp h]; rfl
  | close => rw [List.mem_singleton.mp h]; rfl
  | stream q =>
    simp only [turn] at h
    split at h
    · cases h
    · exact perform_maker h

theorem events_card {card : String} {part : List Call × Report} {e : Event}
    (h : ∀ c ∈ part.1, c.maker? = some card) (he : e ∈ events card part) :
    e.card? = some card := by
  rcases List.mem_append.mp he with hcall | hreport
  · obtain ⟨c, hc, rfl⟩ := List.mem_map.mp hcall
    exact h c hc
  · rw [List.mem_singleton.mp hreport]
    rfl

theorem acts_card {p : Plan} {card : String} {t : Task} {e : Event} (h : e ∈ p.acts card t) :
    e.card? = some card := events_card (fun _ => turn_maker) h

theorem ahead_card {p : Plan} {b : Bulletin} {w : Worker} {e : Event} (h : e ∈ p.ahead b w) :
    e.card? = some w.card := by
  unfold ahead at h
  split at h
  · split at h
    · exact acts_card h
    · cases h
  · have hstream : ∀ q, ∀ c ∈ [Call.streamRun w.card q], c.maker? = some w.card := fun q c hc => by
      rw [List.mem_singleton.mp hc]
      rfl
    cases hp : w.phase with
    | configure => rw [hp] at h; exact acts_card h
    | gate q l => rw [hp] at h; exact acts_card h
    | start q l => rw [hp] at h; exact events_card (fun _ => perform_maker) h
    | countDown q l started =>
      rw [hp] at h
      cases started with
      | ok => exact events_card (hstream q) h
      | error e => rw [List.mem_singleton.mp h]; rfl
    | stream q => rw [hp] at h; exact events_card (hstream q) h
    | close => rw [hp] at h; exact acts_card h
    | report r last => rw [hp] at h; rw [List.mem_singleton.mp h]; rfl
    | _ => rw [hp] at h; cases h

theorem PhaseFits.append {p : Plan} {t : Task} {now : List Event} {latches posted : Nat}
    {w : Worker} (h : p.PhaseFits t now latches posted w) (es : List Event) :
    p.PhaseFits t (now ++ es) latches posted w := by
  cases hp : w.phase with
  | start q latch =>
    cases latch with
    | none =>
      simp only [PhaseFits, hp] at h ⊢
      exact ⟨h.1, h.2.1, fun c hc hh => List.mem_append_left _ (h.2.2 c hc hh)⟩
    | some l => simpa [PhaseFits, hp] using h
  | died => simp [PhaseFits, hp] at h
  | _ => simpa [PhaseFits, hp] using h

namespace Advances

variable {p : Plan} {t : Task} {now : List Event} {s s' : Stage} {w w' : Worker}
  {made : List Call} {sent : List Report}

theorem latches_length (a : p.Advances t now s w s' w' made sent) :
    s'.latches.length = s.latches.length := by
  rcases a.latch with ⟨h, _⟩ | ⟨_, _, h⟩
  · rw [h]
  · rw [h, List.length_modify]

/-- A worker shows nothing but events of its own. -/
theorem card_eq (a : p.Advances t now s w s' w' made sent) {e : Event}
    (he : e ∈ made.map .call ++ sent.map (.report w.card)) : e.card? = some w.card := by
  apply ahead_card (p := p) (b := s.bulletin)
  rw [a.ahead]
  exact List.mem_append_left _ he

/-- The controller has no part in what a worker shows. -/
theorem no_external (a : p.Advances t now s w s' w' made sent) :
    Call.madeBy none (Event.calls (made.map .call ++ sent.map (.report w.card))) = [] := by
  apply Call.madeBy_eq_nil
  intro c hc
  obtain ⟨e, he, hce⟩ := List.mem_filterMap.mp hc
  cases e with
  | call c' =>
    obtain rfl : c' = c := by simpa [Event.call?] using hce
    have hmaker : c'.maker? = some w.card := a.card_eq he
    simp [hmaker]
  | _ => simp [Event.call?] at hce

end Advances

namespace Employs

variable {p : Plan} {t : Task} {now : List Event} {s : Stage} {collected : Bool} {w : Worker}

theorem own_eq_acts (h : p.Employs t now s collected w) (done : p.ahead s.bulletin w = []) :
    Event.own w.card now = p.acts w.card t := by
  simpa [done] using h.history

theorem own_reports (h : p.Employs t now s collected w) :
    Event.reports (Event.own w.card now) =
      if p.ahead s.bulletin w = [] then [(p.turn w.card t).2] else [] := by
  have hall := congrArg Event.reports h.history
  rw [Event.reports_append, reports_acts] at hall
  split
  case isTrue done => simpa [done, Event.reports] using hall
  case isFalse more =>
    obtain ⟨r, hr⟩ := reports_ahead more
    rw [hr] at hall
    exact (List.append_eq_singleton_iff.mp hall).elim (·.1) (fun ⟨_, h⟩ => by cases h)

/-- The report in the outbox is the one that the plan has for the card, and the last thing to come
from it. -/
theorem of_outbox (h : p.Employs t now s collected w) {r : Report} {rest : List Report}
    (sent : w.outbox = r :: rest) :
    r = (p.turn w.card t).2 ∧ rest = [] ∧ p.ahead s.bulletin w = [] := by
  have hout := h.outbox
  rw [sent, h.own_reports] at hout
  split at hout
  · cases hout
  · split at hout
    case isTrue done => exact ⟨(List.cons.inj hout).1, (List.cons.inj hout).2, done⟩
    case isFalse => cases hout

theorem done_of_isOver (hover : w.isOver = true) : p.ahead s.bulletin w = [] := by
  cases hp : w.phase <;> simp_all [Worker.isOver, ahead, following]

/-- A worker that is done and not yet collected has its report in the outbox. -/
theorem outbox_ne_nil (h : p.Employs t now s false w) (done : p.ahead s.bulletin w = []) :
    w.outbox ≠ [] := by
  rw [h.outbox, h.own_reports]
  simp [done]

/-- After a task, a worker waits for the next one. -/
theorem listening (h : p.Employs t now s collected w) (done : p.ahead s.bulletin w = [])
    (ht : t ≠ .close) : w.phase = .listen ∧ w.viewed = s.bulletin.posted := by
  have hfits := h.phase
  have hview := h.view
  cases hp : w.phase with
  | listen =>
    refine ⟨rfl, ?_⟩
    rcases hview with hview | ⟨_, hview⟩
    · exact hview
    · have hlt : w.viewed < s.bulletin.posted := by omega
      simp [ahead, hp, hlt, acts, events_ne_nil] at done
  | ended => simp [PhaseFits, hp, ht] at hfits
  | died => simp [PhaseFits, hp] at hfits
  | countDown q l started => cases started <;> simp [ahead, hp, following, events_ne_nil] at done
  | _ => simp [ahead, hp, following, acts, events_ne_nil] at done

theorem ended (h : p.Employs .close now s collected w) (done : p.ahead s.bulletin w = []) :
    w.phase = .ended := by
  have hfits := h.phase
  have hview := h.view
  cases hp : w.phase with
  | listen =>
    simp only [PhaseFits, hp, ne_eq, not_true_eq_false] at hfits
    have hlt : w.viewed < s.bulletin.posted := by
      rcases hview with hview | ⟨_, hview⟩
      · exact absurd hview hfits
      · omega
    simp [ahead, hp, hlt, acts, events_ne_nil] at done
  | ended => rfl
  | died => simp [PhaseFits, hp] at hfits
  | countDown q l started => cases started <;> simp [ahead, hp, following, events_ne_nil] at done
  | _ => simp [ahead, hp, following, acts, events_ne_nil] at done

/-- A worker that is not done can go on, unless it waits at the start latch. -/
theorem blocked (h : p.Employs t now s collected w) (stuck : w.step s = none) :
    p.ahead s.bulletin w = [] ∨
      ∃ q l, w.phase = .gate q l ∧ (s.latch l).isOpen = false := by
  have hview := h.view
  cases hp : w.phase with
  | listen =>
    refine .inl ?_
    rcases hview with hview | ⟨_, hview⟩
    · simp [ahead, hp, hview]
    · simp [Worker.step, hp, Worker.listen, Bulletin.read, ← hview] at stuck
  | gate q l =>
    refine .inr ⟨q, l, rfl, ?_⟩
    simp only [Worker.step, hp, Worker.passGate] at stuck
    split at stuck
    · cases stuck
    · simp_all
  | ended => simp [ahead, hp, following]
  | died => simp [ahead, hp, following]
  | _ => simp [Worker.step, hp] at stuck

theorem ahead_of_pending (hpend : pending s.bulletin.posted w = true) :
    p.ahead s.bulletin w ≠ [] := by
  cases hp : w.phase with
  | listen => simp_all [pending, ahead, acts, events_ne_nil]
  | start q l => simp [ahead, hp, following, events_ne_nil]
  | countDown q l started => cases started <;> simp [ahead, hp, following, events_ne_nil]
  | _ => simp_all [pending]

/-- Nobody waits before having counted down. -/
theorem pending_steps (h : p.Employs t now s collected w)
    (hpend : pending s.bulletin.posted w = true) : w.step s ≠ none := by
  intro stuck
  rcases h.blocked stuck with done | ⟨q, l, hp, _⟩
  · exact ahead_of_pending hpend done
  · simp [pending, hp] at hpend

/-- A card that has counted down made its start call. -/
theorem start_called {q : Bool} (h : p.Employs (.stream q) now s collected w)
    (hheld : p.isHeld w.card = false) (hpend : pending s.bulletin.posted w = false) :
    .call (.start w.card) ∈ now := by
  have hfits := h.phase
  have hback := h.held
  have hhist := h.history
  have hacts : .call (.start w.card) ∈ p.acts w.card (.stream q) := by
    simp only [acts, turn, hheld, Bool.false_and, Bool.false_eq_true, ↓reduceIte, perform]
    split <;> simp [events]
  rw [← hhist, List.mem_append] at hacts
  rcases hacts with hown | hahead
  · exact (Event.mem_own.mp hown).1
  · apply absurd hahead
    cases hp : w.phase with
    | listen =>
      have hseen : ¬ w.viewed < s.bulletin.posted := by
        simpa [pending, hp, hback, hheld] using hpend
      simp [ahead, hp, hseen]
    | countDown q l started => simp_all [pending]
    | start q l => simp_all [pending]
    | stream q' => simp [ahead, hp, following, events]
    | report r last => simp [ahead, hp, following]
    | ended => simp [ahead, hp, following]
    | died => simp [ahead, hp, following]
    | _ => simp_all [PhaseFits]

/-- What another worker or the controller does does not matter to a worker. -/
theorem elsewhere {s' : Stage} {es : List Event} (h : p.Employs t now s collected w)
    (other : ∀ e ∈ es, e.card? ≠ some w.card) (hb : s'.bulletin = s.bulletin)
    (hl : s'.latches.length = s.latches.length) : p.Employs t (now ++ es) s' collected w := by
  have hown : Event.own w.card (now ++ es) = Event.own w.card now := by
    rw [Event.own_append, Event.own_eq_nil other, List.append_nil]
  constructor
  case phase => rw [hb, hl]; exact h.phase.append es
  case history => rw [hown, hb]; exact h.history
  case outbox => rw [hown]; exact h.outbox
  case view => rw [hb]; exact h.view
  case finished => rw [hb]; exact h.finished
  case buffer => exact h.buffer
  case held => exact h.held
  case heard => exact h.heard

/-- What a worker shows in a step moves from what is ahead of it to what is behind. -/
theorem stepped {s' : Stage} {w' : Worker} {made : List Call} {sent : List Report}
    (h : p.Employs t now s collected w) (a : p.Advances t now s w s' w' made sent) :
    p.Employs t (now ++ (made.map .call ++ sent.map (.report w.card))) s' collected w' := by
  have hnew : Event.own w.card (made.map .call ++ sent.map (.report w.card)) =
      made.map .call ++ sent.map (.report w.card) :=
    Event.own_eq_self fun e he => a.card_eq he
  have hreports : Event.reports (made.map .call ++ sent.map (.report w.card)) = sent := by
    simp [Event.reports, Event.report?, List.filterMap_map, Function.comp_def]
  constructor
  case buffer => rw [a.buffer]; exact h.buffer
  case held => rw [a.held, a.card]; exact h.held
  case heard => rw [a.heard]; exact h.heard
  case view => rw [a.bulletin]; exact .inl a.view
  case phase =>
    rw [a.bulletin, a.latches_length]
    exact a.phase.append _
  case history =>
    rw [a.card, a.bulletin, Event.own_append, hnew, List.append_assoc, ← a.ahead]
    exact h.history
  case outbox =>
    rw [a.outbox, a.card, Event.own_append, hnew, Event.reports_append, hreports, h.outbox]
    cases collected with
    | false => simp
    | true =>
      have hnone := a.ahead.symm.trans (h.finished rfl)
      simp_all
  case finished =>
    intro hc
    rw [a.bulletin]
    exact (List.append_eq_nil_iff.mp (a.ahead.symm.trans (h.finished hc))).2

end Employs

end Sequencer.Plan
