import Sequencer.Proofs.Lists
import Sequencer.Proofs.Run.Employed

namespace Sequencer

/-- A task and all that was seen of it. -/
structure Round where
  task : Task
  events : List Event

/-- A round begins with a command, but for the configuration, which workers begin when hired. -/
def Round.trace (r : Round) : List Event :=
  match r.task with
  | .configure => r.events
  | t => .begun t :: r.events

def Request.tasks : List Request → List Task
  | [] => []
  | .stream q :: rest => .stream q :: tasks rest
  | .close :: _ | .drop :: _ => [.close]

/-- What the owner is told last, by the first error of closing. -/
def Ending.lastWords (first : Option Error) : Ending → Report
  | .closed => Run.asReport first
  | .dropped failure => Run.asReport failure

namespace Run

/-- The cards that have no worker yet. -/
def waiting (r : Run) : List String :=
  match r.control with
  | .hire waiting => waiting
  | _ => []

/-- The controller has the report of this worker on the task. -/
def collected (index : Nat) (r : Run) : Bool :=
  match r.control with
  | .connect | .hire _ => false
  | .collect _ next _ => index < next
  | .ready | .join .. | .disconnect _ | .over => true

end Run

namespace Plan

/-- Every event was allowed when it came. -/
def Orderly (p : Plan) (round : Round) : Prop :=
  ∀ before e after, round.events = before ++ e :: after → p.Allows round.task before e

def Complete (p : Plan) (round : Round) : Prop :=
  ∀ c ∈ p.cards, Event.own c round.events = p.acts c round.task

def trace (p : Plan) (rounds : List Round) : List Event :=
  p.connectCalls.map .call ++ rounds.flatMap Round.trace

/-- All tasks of a run that is asked for `script`. -/
def agenda (p : Plan) (script : List Request) : List Task :=
  match p.firstError p.cards .configure with
  | none => .configure :: Request.tasks script
  | some _ => [.configure, .close]

/-- The tasks that are still to be begun. -/
def tasksAhead (p : Plan) (r : Run) : List Task :=
  match r.control with
  | .connect | .hire _ | .collect .configure _ _ => (p.agenda r.script).tail
  | .collect .stream _ _ | .ready => Request.tasks r.script
  | .collect .close _ _ | .join .. | .disconnect _ | .over => []

/-- What the owner is told from a configured run on. -/
def answers (p : Plan) : List Request → List Report
  | [] => []
  | .stream q :: rest => p.result (.stream q) :: answers p rest
  | .close :: _ => [Run.asReport p.closeError]
  | .drop :: _ => [.ok ()]

/-- All that the owner of a run is told that is asked for `script`. -/
def outcome (p : Plan) (script : List Request) : List Report :=
  match p.firstError p.cards .configure with
  | none => .ok () :: p.answers script
  | some e => [.error e]

/-- What the owner is still to be told. -/
def resultsAhead (p : Plan) (t : Task) (r : Run) : List Report :=
  match r.control with
  | .connect | .hire _ | .collect .configure _ _ => p.outcome r.script
  | .collect .stream _ _ => p.result t :: p.answers r.script
  | .ready => p.answers r.script
  | .collect .close _ _ | .join .. | .disconnect _ => [r.ending.lastWords p.closeError]
  | .over => []

/-- What the controller does fits the task, and the error it kept is the first of those collected.
-/
def ControlFits (p : Plan) (t : Task) (r : Run) : Prop :=
  match r.control with
  | .connect => False
  | .hire _ => t = .configure
  | .collect duty i first =>
    t.duty = duty ∧ i ≤ p.cards.length ∧ first = p.firstError (p.cards.take i) t
  | .ready => t ≠ .close
  | .join _ first | .disconnect first => t = .close ∧ first = p.firstError p.cards .close
  | .over => t = .close

/-- The calls of the controller after the connection was made. -/
def external (rounds : List Round) : List Call :=
  Call.madeBy none (rounds.flatMap fun round => Event.calls round.events)

/-- The connection is taken back last. -/
def undone (p : Plan) (r : Run) : List Call :=
  match r.control with
  | .over => p.disconnectCalls
  | _ => []

/-- What no step changes. -/
structure Setting (p : Plan) (r : Run) : Prop where
  cards : r.cards = p.cards
  bufferMs : r.bufferMs = p.bufferMs
  heldBack : r.heldBack = p.heldBack
  refClock : r.refClock = p.refClock
  failing : r.stage.backend.failing = p.backend.failing
  calm : r.stage.incidents = []

theorem Setting.moved {p : Plan} {r : Run} (h : p.Setting r) {connected : Bool}
    {crew : List Worker} {stage : Stage} {control : Control} {script : List Request}
    {ending : Ending} {results : List Report}
    (failing : stage.backend.failing = r.stage.backend.failing)
    (incidents : stage.incidents = r.stage.incidents) :
    p.Setting { r with connected, crew, stage, control, script, ending, results } :=
  ⟨h.cards, h.bufferMs, h.heldBack, h.refClock, failing.trans h.failing, incidents.trans h.calm⟩

structure History (p : Plan) (past : List Round) (now : Round) : Prop where
  opening : past = [] ↔ now.task = .configure
  complete : ∀ round ∈ past, p.Complete round
  orderly : ∀ round ∈ past ++ [now], p.Orderly round

/-- The latch of a repetition has counted every worker that is past its start call. -/
structure Board (p : Plan) (past : List Round) (now : Round) (r : Run) : Prop where
  posted : r.stage.bulletin.posted = past.length
  latest : past ≠ [] → Task.ofCommand r.stage.bulletin.latest = now.task
  latch : ∀ q, now.task = .stream q → ∃ l, r.stage.bulletin.latest = .stream q l ∧
    l + 1 = r.stage.latches.length ∧
    r.stage.latches[l]? = some ⟨r.crew.countP (pending r.stage.bulletin.posted),
      r.crew.any (p.balked r.stage.bulletin.posted)⟩

/-- How far the run has come with what it was asked for. -/
structure Course (p : Plan) (script : List Request) (past : List Task) (t : Task) (r : Run) :
    Prop where
  tasks : past ++ t :: p.tasksAhead r = p.agenda script
  results : r.results ++ p.resultsAhead t r = p.outcome script
  connected : r.control ≠ .over → r.connected = p.refClock.isSome
  control : p.ControlFits t r

structure Inv (p : Plan) (script : List Request) (past : List Round) (now : Round) (r : Run) :
    Prop where
  setting : p.Setting r
  history : p.History past now
  board : p.Board past now r
  course : p.Course script (past.map (·.task)) now.task r
  crew : r.crew.map (·.card) ++ r.waiting = p.cards
  workers : ∀ i w, r.crew[i]? = some w →
    p.Employs now.task now.events r.stage (r.collected i) w
  unhired : ∀ c ∈ r.waiting, Event.own c now.events = []
  external : external (past ++ [now]) = p.undone r

theorem trace_extend (p : Plan) (past : List Round) (now : Round) (es : List Event) :
    p.trace (past ++ [⟨now.task, now.events ++ es⟩]) = p.trace (past ++ [now]) ++ es := by
  cases h : now.task <;> simp [trace, Round.trace, h]

theorem trace_begin (p : Plan) (rounds : List Round) {t : Task} (h : t ≠ .configure) :
    p.trace (rounds ++ [⟨t, []⟩]) = p.trace rounds ++ [.begun t] := by
  cases t with
  | configure => exact absurd rfl h
  | stream q => simp [trace, Round.trace]
  | close => simp [trace, Round.trace]

theorem Orderly.nil (p : Plan) (t : Task) : p.Orderly ⟨t, []⟩ := by
  intro before e after h
  simp at h

theorem Orderly.concat {p : Plan} {t : Task} {es : List Event} {e : Event}
    (h : p.Orderly ⟨t, es⟩) (he : p.Allows t es e) : p.Orderly ⟨t, es ++ [e]⟩ := by
  intro before e' after heq
  rcases List.eq_nil_or_concat after with rfl | ⟨init, last, rfl⟩
  · obtain ⟨rfl, hlast⟩ := List.append_inj' heq rfl
    rw [← (List.cons.inj hlast).1]
    exact he
  · rw [List.concat_eq_append, ← List.cons_append, ← List.append_assoc] at heq
    exact h before e' init (List.append_inj' heq rfl).1

theorem History.concat {p : Plan} {past : List Round} {now : Round} {e : Event}
    (h : p.History past now) (he : p.Allows now.task now.events e) :
    p.History past ⟨now.task, now.events ++ [e]⟩ := by
  refine ⟨h.opening, h.complete, fun round hr => ?_⟩
  rcases List.mem_append.mp hr with hpast | hnow
  · exact h.orderly round (List.mem_append_left _ hpast)
  · rw [List.mem_singleton.mp hnow]
    exact (h.orderly now (by simp)).concat he

theorem external_extend (past : List Round) (now : Round) (es : List Event) :
    external (past ++ [⟨now.task, now.events ++ es⟩]) =
      external (past ++ [now]) ++ Call.madeBy none (Event.calls es) := by
  simp [external]

theorem external_begin (rounds : List Round) (t : Task) :
    external (rounds ++ [⟨t, []⟩]) = external rounds := by
  simp [external]

theorem firstError_take_succ (p : Plan) {cards : List String} {i : Nat} {c : String} (t : Task)
    (h : cards[i]? = some c) : p.firstError (cards.take (i + 1)) t =
      Run.keepFirst (p.firstError (cards.take i) t) (p.turn c t).2 := by
  simp [firstError, List.take_add_one, h]

namespace Inv

variable {p : Plan} {script : List Request} {past : List Round} {now : Round} {r : Run}
  {i : Nat} {w : Worker}

theorem listed (h : p.Inv script past now r) (hw : r.crew[i]? = some w) : w.card ∈ p.cards := by
  rw [← h.crew]
  exact List.mem_append_left _ (List.mem_map_of_mem (List.mem_of_getElem? hw))

theorem card_ne (h : p.Inv script past now r) {j : Nat} {v : Worker} (hw : r.crew[i]? = some w)
    (hv : r.crew[j]? = some v) (hij : j ≠ i) : v.card ≠ w.card := by
  have hnodup : (r.crew.map (·.card)).Nodup :=
    (List.nodup_append.mp (h.crew ▸ p.distinct)).1
  intro heq
  have hi : (r.crew.map (·.card))[i]? = some w.card := by simp [hw]
  have hj : (r.crew.map (·.card))[j]? = some w.card := by simp [hv, heq]
  have hlt := (List.getElem?_eq_some_iff.mp hj).1
  exact hij ((List.getElem?_inj hlt hnodup).mp (hj.trans hi.symm))

theorem not_waiting (h : p.Inv script past now r) (hw : r.crew[i]? = some w) {c : String}
    (hc : c ∈ r.waiting) : c ≠ w.card := by
  have hnodup := List.nodup_append.mp (h.crew ▸ p.distinct)
  exact fun heq => hnodup.2.2 w.card (List.mem_map_of_mem (List.mem_of_getElem? hw)) c hc heq.symm

/-- Only during the configuration are there cards without a worker. -/
theorem nobody_waits (h : p.Inv script past now r) (ht : now.task ≠ .configure) :
    r.waiting = [] := by
  have hfits := h.course.control
  cases hc : r.control with
  | hire waiting => exact absurd (by simpa [ControlFits, hc] using hfits) ht
  | _ => simp [Run.waiting, hc]

theorem crew_cards (h : p.Inv script past now r) (hnone : r.waiting = []) :
    r.crew.map (·.card) = p.cards := by
  simpa [hnone] using h.crew

theorem worker_of_card (h : p.Inv script past now r) (hnone : r.waiting = []) {c : String}
    (hc : c ∈ p.cards) : ∃ (i : Nat) (w : Worker), r.crew[i]? = some w ∧ w.card = c := by
  rw [← h.crew_cards hnone] at hc
  obtain ⟨w, hw, hcard⟩ := List.mem_map.mp hc
  obtain ⟨i, hi⟩ := List.mem_iff_getElem?.mp hw
  exact ⟨i, w, hi, hcard⟩

/-- When the card held back passes the latch, all others made their start calls, and it hears
whether these were accepted. -/
theorem gate_open (h : p.Inv script past now r) (hw : r.crew[i]? = some w) {q : Bool} {l : Nat}
    (hp : w.phase = .gate q l) (hopen : (r.stage.latch l).isOpen = true) :
    p.OthersCalled now.events ∧ (r.stage.latch l).allStarted = p.othersStart := by
  have hfits := (h.workers i w hw).phase
  simp only [PhaseFits, hp] at hfits
  obtain ⟨htask, -, hl⟩ := hfits
  have hnobody : r.waiting = [] := h.nobody_waits (by rw [htask]; exact Task.noConfusion)
  obtain ⟨l', -, hl', hlatch⟩ := h.board.latch q htask
  obtain rfl : l' = l := by omega
  have hval : r.stage.latch l' = ⟨r.crew.countP (pending r.stage.bulletin.posted),
      r.crew.any (p.balked r.stage.bulletin.posted)⟩ := by
    simp [Stage.latch, hlatch]
  rw [hval] at hopen ⊢
  have hnone : ∀ v ∈ r.crew, pending r.stage.bulletin.posted v = false := by
    simpa [Latch.isOpen, List.countP_eq_zero] using hopen
  refine ⟨fun c hc hheld => ?_, ?_⟩
  · obtain ⟨j, v, hv, rfl⟩ := h.worker_of_card hnobody hc
    have hemp := h.workers j v hv
    rw [htask] at hemp
    exact hemp.start_called hheld (hnone v (List.mem_of_getElem? hv))
  · have hbalked : ∀ v ∈ r.crew, p.balked r.stage.bulletin.posted v =
        !(p.isHeld v.card || p.backend.accepts (.start v.card)) := by
      intro v hv
      obtain ⟨j, hj⟩ := List.mem_iff_getElem?.mp hv
      simp [balked, hnone v hv, (h.workers j v hj).held]
    have hany : r.crew.any (p.balked r.stage.bulletin.posted) =
        r.crew.any fun v => !(p.isHeld v.card || p.backend.accepts (.start v.card)) := by
      rw [Bool.eq_iff_iff, List.any_eq_true, List.any_eq_true]
      exact exists_congr fun v => and_congr_right fun hv => by rw [hbalked v hv]
    rw [othersStart, ← h.crew_cards hnobody, List.all_map, Latch.allStarted, hany,
      List.not_any_eq_all_not]
    simp [Function.comp_def]

theorem advances (h : p.Inv script past now r) (hw : r.crew[i]? = some w) {w' : Worker}
    {s' : Stage} (hstep : w.step r.stage = some (w', s')) :
    ∃ made sent, p.Advances now.task now.events r.stage w s' w' made sent := by
  refine (h.workers i w hw).advances (h.listed hw) h.setting.calm h.setting.failing ?_
    (fun q l hp hopen => h.gate_open hw hp hopen) hstep
  intro behind
  have hpast : past ≠ [] := by
    rintro rfl
    rw [h.board.posted] at behind
    exact Nat.not_lt_zero _ behind
  have hlatest := h.board.latest hpast
  refine ⟨hlatest, fun q l hq => ?_⟩
  rw [hq] at hlatest
  obtain ⟨l', hl', hlen, -⟩ := h.board.latch q hlatest.symm
  rw [hq] at hl'
  cases hl'
  exact hlen

end Inv

theorem counts_set {p : Plan} {crew : List Worker} {posted i : Nat} {w w' : Worker}
    (hw : crew[i]? = some w) (hpend : pending posted w' = pending posted w)
    (hbalk : p.balked posted w' = p.balked posted w) :
    (crew.set i w').countP (pending posted) = crew.countP (pending posted) ∧
      (crew.set i w').any (p.balked posted) = crew.any (p.balked posted) := by
  obtain ⟨before, after, rfl, hset⟩ := exists_split hw
  rw [hset]
  simp [List.countP_append, List.countP_cons, hpend, hbalk]

/-- A worker that counts down is no longer pending, and no other step changes what is pending. -/
theorem Advances.counts {p : Plan} {t : Task} {now : List Event} {s s' : Stage} {w w' : Worker}
    {made : List Call} {sent : List Report} (a : p.Advances t now s w s' w' made sent)
    (ht : t ≠ .close) {crew : List Worker} {i l : Nat} (hw : crew[i]? = some w)
    (hl : l + 1 = s.latches.length)
    (hlatch : s.latches[l]? = some ⟨crew.countP (pending s.bulletin.posted),
      crew.any (p.balked s.bulletin.posted)⟩) :
    s'.latches[l]? = some ⟨(crew.set i w').countP (pending s.bulletin.posted),
      (crew.set i w').any (p.balked s.bulletin.posted)⟩ := by
  rcases a.latch with ⟨hsame, hpend⟩ | ⟨hpend, hpend', hmod⟩
  · have hbalk : p.balked s.bulletin.posted w' = p.balked s.bulletin.posted w := by
      simp [balked, a.held, a.card, hpend ht]
    obtain ⟨hcount, hany⟩ := counts_set hw (hpend ht) hbalk
    rw [hsame, hlatch, hcount, hany]
  · obtain ⟨before, after, hcrew, hset⟩ := exists_split hw
    rw [hcrew] at hlatch
    rw [hset]
    have hheld : w.heldBack = false := by
      cases hh : w.heldBack <;> simp_all [pending]
    have hbalk : p.balked s.bulletin.posted w = false := by simp [balked, hpend]
    have hbalk' : p.balked s.bulletin.posted w' = !p.backend.accepts (.start w.card) := by
      simp [balked, a.held, a.card, hheld, hpend']
    have hlast : s.latches.length - 1 = l := by omega
    rw [hmod, hlast, List.getElem?_modify_eq, hlatch]
    simp [Latch.countDown, List.countP_append, hpend, hpend', hbalk, hbalk', Bool.or_comm,
      Bool.or_left_comm]

/-- A step of a worker shows at most one event. -/
theorem Advances.history {p : Plan} {past : List Round} {now : Round} {s s' : Stage}
    {w w' : Worker} {made : List Call} {sent : List Report}
    (a : p.Advances now.task now.events s w s' w' made sent) (h : p.History past now) :
    p.History past
      ⟨now.task, now.events ++ (made.map .call ++ sent.map (.report w.card))⟩ := by
  rcases a.allowed with ⟨rfl, rfl⟩ | ⟨e, he, hallow⟩
  · simpa using h
  · rw [he]
    exact h.concat hallow

theorem Advances.board {p : Plan} {past : List Round} {now : Round} {r : Run} {s' : Stage}
    {w w' : Worker} {made : List Call} {sent : List Report} {i : Nat}
    (a : p.Advances now.task now.events r.stage w s' w' made sent) (h : p.Board past now r)
    (hw : r.crew[i]? = some w) (es : List Event) :
    p.Board past ⟨now.task, es⟩ { r with stage := s', crew := r.crew.set i w' } := by
  refine ⟨?_, ?_, fun q hq => ?_⟩
  · simpa only [a.bulletin] using h.posted
  · simpa only [a.bulletin] using h.latest
  · obtain ⟨l, hlatest, hl, hlatch⟩ := h.latch q hq
    have ht : now.task ≠ .close := by
      change now.task = _ at hq
      rw [hq]
      exact Task.noConfusion
    refine ⟨l, ?_, ?_, ?_⟩
    · simpa only [a.bulletin] using hlatest
    · simpa only [a.latches_length] using hl
    · simpa only [a.bulletin] using a.counts ht hw hl hlatch

namespace Inv

variable {p : Plan} {script : List Request} {past : List Round} {now : Round} {r r' : Run}
  {i : Nat}

/-- A step of a worker adds what it shows to the round that is going on. -/
theorem worker_step (h : p.Inv script past now r) (next : r.workerStep i = some r') :
    p.Inv script past ⟨now.task, now.events ++ r.shown (.worker i) r'⟩ r' := by
  obtain ⟨w, w', s', hw, hstep, rfl⟩ := Run.workerStep_eq next
  obtain ⟨made, sent, a⟩ := h.advances hw hstep
  rw [Run.shown_worker hw a.bulletin a.calls a.outbox]
  have hcards : (r.crew.set i w').map (·.card) = r.crew.map (·.card) := by
    obtain ⟨before, after, hcrew, hset⟩ := exists_split hw
    rw [hset, hcrew]
    simp [a.card]
  constructor
  case setting => exact h.setting.moved a.failing a.incidents
  case history => exact a.history h.history
  case board => exact a.board h.board hw _
  case course => exact ⟨h.course.tasks, h.course.results, h.course.connected, h.course.control⟩
  case crew =>
    rw [hcards]
    exact h.crew
  case workers =>
    intro j v hv
    by_cases hij : j = i
    · subst hij
      have hlt : j < r.crew.length := (List.getElem?_eq_some_iff.mp hw).1
      obtain rfl : w' = v := by simpa [hlt] using hv
      exact (h.workers j w hw).stepped a
    · have hv' : r.crew[j]? = some v := by
        simpa [List.getElem?_set_ne (Ne.symm hij)] using hv
      refine (h.workers j v hv').elsewhere (fun e he heq => ?_) a.bulletin a.latches_length
      rw [a.card_eq he] at heq
      exact h.card_ne hw hv' hij (Option.some.inj heq).symm
  case unhired =>
    intro c hc
    rw [Event.own_append, h.unhired c hc, List.nil_append]
    refine Event.own_eq_nil fun e he heq => h.not_waiting hw hc ?_
    rw [a.card_eq he] at heq
    exact (Option.some.inj heq).symm
  case external =>
    rw [external_extend, a.no_external, List.append_nil]
    exact h.external

end Inv

end Plan

end Sequencer
