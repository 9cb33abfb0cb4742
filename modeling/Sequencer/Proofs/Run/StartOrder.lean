import Sequencer.Proofs.Run.Confluence

namespace Sequencer

/-- These events come before the next command, if there is one. -/
def Event.Within (es : List Event) : Prop := ∀ t, .begun t ∉ es

/-- The events after a command up to the next one, or all of them if no step is left. -/
def Event.Whole (r : Run) (after : List Event) : Prop :=
  (∃ t rest, after = .begun t :: rest) ∨ after = [] ∧ r.AtRest

/-- All rounds but the configuration begin with their command. -/
theorem Round.trace_eq {round : Round} (h : round.task ≠ .configure) :
    round.trace = .begun round.task :: round.events := by
  unfold trace
  split
  · exact absurd ‹_› h
  · rfl

namespace Plan

variable {p : Plan} {script : List Request} {past : List Round} {now : Round} {r : Run}

/-- What may be seen of one repetition, up to any time, when `held` is the card held back. -/
structure InOrder (p : Plan) (held : String) (calcNext : Bool) (rep : List Event) : Prop where
  /-- A card makes at most one start call, and then at most one streaming call. -/
  once : ∀ c, Call.madeBy (some c) (Event.calls rep) <+: [.start c, .streamRun c calcNext]
  /-- A card that streams was started. -/
  started : ∀ c q, .streamRun c q ∈ Event.calls rep → p.backend.accepts (.start c) = true
  /-- All other start calls come before that of the card held back, and were accepted. -/
  last : ∀ before after, Event.calls rep = before ++ .start held :: after →
    ∀ c ∈ p.cards, c ≠ held → .start c ∈ before ∧ p.backend.accepts (.start c) = true
  /-- If another card fails to start, the one held back makes no call, and can only report this. -/
  refrains : ∀ c ∈ p.cards, c ≠ held → p.backend.accepts (.start c) = false →
    Call.madeBy (some held) (Event.calls rep) = [] ∧
      ∀ result, .report held result ∈ rep → result = .error (.worker held .otherFailed)

theorem Orderly.no_command {round : Round} (h : p.Orderly round) : Event.Within round.events := by
  intro t ht
  obtain ⟨before, after, hsplit⟩ := List.append_of_mem ht
  exact (h before (.begun t) after hsplit).2

theorem Within.command_after {es tail before rest : List Event} {t : Task} (hes : Event.Within es)
    (h : es ++ tail = before ++ .begun t :: rest) :
    ∃ before', tail = before' ++ .begun t :: rest := by
  rcases List.append_eq_append_iff.mp h with ⟨middle, -, htail⟩ | ⟨middle, hsplit, hrest⟩
  · exact ⟨middle, htail⟩
  · cases middle with
    | nil => exact ⟨[], hrest.symm⟩
    | cons e middle =>
      refine absurd ?_ (hes t)
      rw [hsplit, (List.cons.inj hrest).1]
      exact List.mem_append_right _ List.mem_cons_self

/-- A command in a trace is the beginning of a round. -/
theorem command_begins_round {rounds : List Round} (orderly : ∀ round ∈ rounds, p.Orderly round)
    {before rest : List Event} {t : Task}
    (h : rounds.flatMap Round.trace = before ++ .begun t :: rest) :
    ∃ done round ahead, rounds = done ++ round :: ahead ∧ round.task = t ∧
      rest = round.events ++ ahead.flatMap Round.trace := by
  induction rounds generalizing before with
  | nil => simp at h
  | cons first rounds ih =>
    have later : (∃ before', rounds.flatMap Round.trace = before' ++ .begun t :: rest) →
        ∃ done round ahead, first :: rounds = done ++ round :: ahead ∧ round.task = t ∧
          rest = round.events ++ ahead.flatMap Round.trace := by
      rintro ⟨before', hlater⟩
      obtain ⟨done, round, ahead, hrounds, ht, hrest⟩ :=
        ih (fun round hr => orderly round (List.mem_cons_of_mem _ hr)) hlater
      exact ⟨first :: done, round, ahead, by rw [hrounds]; rfl, ht, hrest⟩
    have hwithin := (orderly first List.mem_cons_self).no_command
    rw [List.flatMap_cons] at h
    by_cases hfirst : first.task = .configure
    · rw [Round.trace, hfirst] at h
      exact later (Within.command_after hwithin h)
    · rw [Round.trace_eq hfirst, List.cons_append] at h
      rcases List.cons_eq_append_iff.mp h with ⟨-, hnow⟩ | ⟨before', -, hlater⟩
      · obtain ⟨ht, hrest⟩ := List.cons.inj hnow
        exact ⟨[], first, rounds, rfl, (Event.begun.inj ht).symm, hrest⟩
      · exact later (Within.command_after hwithin hlater)

theorem tasks_ne_configure {script : List Request} {t : Task} (h : t ∈ Request.tasks script) :
    t ≠ .configure := by
  induction script with
  | nil => cases h
  | cons request script ih =>
    cases request with
    | stream q =>
      rcases List.mem_cons.mp h with rfl | hlater
      · exact Task.noConfusion
      · exact ih hlater
    | close => rw [List.mem_singleton.mp h]; exact Task.noConfusion
    | drop => rw [List.mem_singleton.mp h]; exact Task.noConfusion

/-- Only the first round is the configuration. -/
theorem Inv.later_task (h : p.Inv script past now r) {done ahead : List Round} {round later : Round}
    (hrounds : past ++ [now] = done ++ round :: ahead) (hlater : later ∈ ahead) :
    later.task ≠ .configure := by
  have hagenda : ∃ tasks, p.agenda script = .configure :: tasks ∧ ∀ t ∈ tasks, t ≠ .configure := by
    unfold agenda
    split
    · exact ⟨_, rfl, fun t ht => tasks_ne_configure ht⟩
    · exact ⟨[.close], rfl, by simp⟩
  obtain ⟨tasks, hall, hne⟩ := hagenda
  have htasks :
      (done ++ round :: ahead).map Round.task ++ p.tasksAhead r = .configure :: tasks := by
    rw [← hrounds, ← hall, ← h.course.tasks]
    simp
  have hmem : later.task ∈ ahead.map Round.task := List.mem_map_of_mem hlater
  apply hne _
  cases done with
  | nil =>
    rw [← (List.cons.inj htasks).2]
    exact List.mem_append_left _ hmem
  | cons first done =>
    rw [List.cons_append, List.map_cons, List.map_append, List.map_cons] at htasks
    rw [← (List.cons.inj htasks).2]
    exact List.mem_append_left _ (List.mem_append_right _ (List.mem_cons_of_mem _ hmem))

/-- What is seen of a repetition before the next command belongs to its round, and is all of it when
that command was seen or no step is left. -/
theorem within_round {ahead : List Round} {events rep after : List Event}
    (later : ∀ round ∈ ahead, round.task ≠ .configure) (hwithin : Event.Within events)
    (hrep : Event.Within rep) (h : rep ++ after = events ++ ahead.flatMap Round.trace) :
    rep <+: events ∧ (Event.Whole r after → rep = events ∧ (ahead = [] → r.AtRest)) := by
  have hhead : ∀ e tail, ahead.flatMap Round.trace = e :: tail → ∃ t, e = .begun t := by
    intro e tail htail
    cases ahead with
    | nil => cases htail
    | cons round ahead =>
      rw [List.flatMap_cons, Round.trace_eq (later round List.mem_cons_self)] at htail
      exact ⟨_, (List.cons.inj htail).1.symm⟩
  rcases List.append_eq_append_iff.mp h with ⟨middle, hevents, hafter⟩ | ⟨middle, hsplit, htail⟩
  · refine ⟨⟨middle, hevents.symm⟩, fun hwhole => ?_⟩
    have hmiddle : middle = [] := by
      cases middle with
      | nil => rfl
      | cons e middle =>
        rcases hwhole with ⟨t, rest, rfl⟩ | ⟨rfl, -⟩
        · refine absurd ?_ (hwithin t)
          rw [hevents, ← (List.cons.inj hafter).1]
          exact List.mem_append_right _ List.mem_cons_self
        · cases hafter
    rw [hmiddle, List.append_nil] at hevents
    refine ⟨hevents.symm, fun hnone => ?_⟩
    rcases hwhole with ⟨t, rest, rfl⟩ | ⟨-, hrest⟩
    · rw [hmiddle, hnone] at hafter
      cases hafter
    · exact hrest
  · have hmiddle : middle = [] := by
      cases middle with
      | nil => rfl
      | cons e middle =>
        obtain ⟨t, rfl⟩ := hhead e (middle ++ after) htail
        refine absurd ?_ (hrep t)
        rw [hsplit]
        exact List.mem_append_right _ List.mem_cons_self
    rw [hmiddle, List.append_nil] at hsplit
    rw [hmiddle, List.nil_append] at htail
    refine ⟨⟨[], by rw [hsplit, List.append_nil]⟩, fun hwhole => ⟨hsplit, fun hnone => ?_⟩⟩
    rcases hwhole with ⟨t, rest, rfl⟩ | ⟨-, hrest⟩
    · rw [hnone] at htail
      cases htail
    · exact hrest

theorem Inv.round_prefix (h : p.Inv script past now r) {round : Round}
    (hround : round ∈ past ++ [now]) {c : String} (hc : c ∈ p.cards) :
    Event.own c round.events <+: p.acts c round.task := by
  rcases List.mem_append.mp hround with hpast | hnow
  · exact ⟨[], by rw [List.append_nil, h.history.complete round hpast c hc]⟩
  · rw [List.mem_singleton.mp hnow]
    exact h.own_prefix hc

theorem Inv.round_calls (h : p.Inv script past now r) {round : Round}
    (hround : round ∈ past ++ [now]) (c : String) :
    Call.madeBy (some c) (Event.calls round.events) <+: p.part c round.task := by
  rw [Event.calls_own]
  by_cases hc : c ∈ p.cards
  · rw [← p.calls_acts hc]
    exact (h.round_prefix hround hc).filterMap _
  · rw [h.own_stranger hround hc]
    exact List.nil_prefix

theorem part_stream (p : Plan) (c : String) (q : Bool) :
    p.part c (.stream q) = [] ∨ p.part c (.stream q) = [.start c] ∨
      p.part c (.stream q) = [.start c, .streamRun c q] ∧ p.backend.accepts (.start c) = true := by
  simp only [part, turn, perform]
  repeat' split
  all_goals simp_all

/-- The card held back does its part only if all others started. -/
theorem part_held (p : Plan) {held : String} (hheld : p.isHeld held = true) (q : Bool) :
    p.part held (.stream q) = [] ∨ p.othersStart = true := by
  cases ho : p.othersStart with
  | true => exact .inr rfl
  | false => exact .inl (by simp [part, turn, hheld, ho])

theorem othersStart_iff (p : Plan) {held : String} (back : p.heldBack = some held) :
    p.othersStart = true ↔
      ∀ c ∈ p.cards, c ≠ held → p.backend.accepts (.start c) = true := by
  simp only [othersStart, List.all_eq_true, Bool.or_eq_true, isHeld, back]
  apply forall₂_congr
  intro c _
  by_cases hc : held = c
  · simp [hc]
  · simp [hc, Ne.symm hc]

theorem turn_of_refused (p : Plan) {held : String} (back : p.heldBack = some held) (q : Bool)
    {c : String} (hc : c ∈ p.cards) (hne : c ≠ held)
    (hrefused : p.backend.accepts (.start c) = false) :
    p.turn held (.stream q) = ([], .error (.worker held .otherFailed)) := by
  have hfail : p.othersStart = false := by
    cases ho : p.othersStart with
    | false => rfl
    | true =>
      rw [(p.othersStart_iff back).mp ho c hc hne] at hrefused
      cases hrefused
  simp [turn, isHeld, back, hfail]

/-- A start call of the card held back was allowed. -/
theorem start_allowed {round : Round} (orderly : p.Orderly round) {rep : List Event}
    (hrep : rep <+: round.events) {held : String} (hheld : p.isHeld held = true)
    {before after : List Call} (h : Event.calls rep = before ++ .start held :: after) {c : String}
    (hc : c ∈ p.cards) (hother : p.isHeld c = false) : .start c ∈ before := by
  obtain ⟨es, fs, rfl, hbefore, htail⟩ := List.filterMap_eq_append_iff.mp h
  obtain ⟨quiet, e, rest, rfl, hquiet, he, -⟩ := List.filterMap_eq_cons_iff.mp htail
  obtain ⟨more, hround⟩ := hrep
  obtain rfl : e = .call (.start held) := by cases e <;> simp_all [Event.call?]
  have hsplit : round.events = (es ++ quiet) ++ .call (.start held) :: (rest ++ more) := by
    rw [← hround]
    simp
  have hmem := (orderly _ _ _ hsplit).2 hheld c hc hother
  rw [← hbefore]
  refine List.mem_filterMap.mpr ⟨.call (.start c), ?_, rfl⟩
  rcases List.mem_append.mp hmem with hes | hquiet'
  · exact hes
  · exact absurd (hquiet _ hquiet') (by simp [Event.call?])

/-- Every round of a run is played in order. -/
theorem Inv.round_in_order (h : p.Inv script past now r) {round : Round}
    (hround : round ∈ past ++ [now]) {q : Bool} (ht : round.task = .stream q) {rep : List Event}
    (hrep : rep <+: round.events) {held : String} (listed : held ∈ p.cards)
    (back : p.heldBack = some held) : p.InOrder held q rep := by
  have hheld : p.isHeld held = true := by simp [isHeld, back]
  have hcalls : ∀ c, Call.madeBy (some c) (Event.calls rep) <+: p.part c (.stream q) := by
    intro c
    rw [← ht]
    exact ((hrep.filterMap _).filter _).trans (h.round_calls hround c)
  have hmem : ∀ {made : Call} {c : String}, made ∈ Event.calls rep → made.maker? = some c →
      made ∈ p.part c (.stream q) := by
    intro made c hmade hmaker
    apply (hcalls c).subset
    simp [Call.madeBy, hmade, hmaker]
  have hothers := p.othersStart_iff back
  constructor
  case once =>
    intro c
    apply (hcalls c).trans
    rcases p.part_stream c q with hpart | hpart | ⟨hpart, -⟩
    · exact ⟨_, by rw [hpart]; rfl⟩
    · exact ⟨[.streamRun c q], by rw [hpart]; rfl⟩
    · exact ⟨[], by rw [hpart]; rfl⟩
  case started =>
    intro c q' hmade
    have hin := hmem hmade rfl
    rcases p.part_stream c q with hpart | hpart | ⟨-, haccepts⟩
    · rw [hpart] at hin
      cases hin
    · rw [hpart] at hin
      cases List.mem_singleton.mp hin
    · exact haccepts
  case last =>
    intro before after hsplit c hc hne
    have hother : p.isHeld c = false := by simp [isHeld, back, Ne.symm hne]
    refine ⟨start_allowed (h.history.orderly round hround) hrep hheld hsplit hc hother, ?_⟩
    have hin : Call.start held ∈ p.part held (.stream q) := by
      refine hmem ?_ rfl
      rw [hsplit]
      exact List.mem_append_right _ List.mem_cons_self
    rcases p.part_held hheld q with hpart | hstart
    · rw [hpart] at hin
      cases hin
    · exact hothers.mp hstart c hc hne
  case refrains =>
    intro c hc hne hrefused
    have hturn := p.turn_of_refused back q hc hne hrefused
    constructor
    · have hnone := hcalls held
      rw [part, if_pos listed, hturn] at hnone
      exact List.prefix_nil.mp hnone
    · intro result hresult
      have hown : Event.report held result ∈ Event.own held round.events :=
        Event.mem_own.mpr ⟨hrep.subset hresult, rfl⟩
      have hin := (h.round_prefix hround listed).subset hown
      rw [ht, acts, hturn] at hin
      exact (Event.report.inj (List.mem_singleton.mp hin)).2

/-- When a repetition is over, all of its round was seen. -/
theorem Inv.complete_whole (h : p.Inv script past now r) {done ahead : List Round} {round : Round}
    (hrounds : past ++ [now] = done ++ round :: ahead) (ht : round.task ≠ .configure)
    (hrest : ahead = [] → r.AtRest) : p.Complete round := by
  rcases List.eq_nil_or_concat ahead with rfl | ⟨init, last, rfl⟩
  · obtain ⟨rfl, hnow⟩ := List.append_inj' hrounds rfl
    obtain rfl : now = round := List.singleton_inj.mp hnow
    intro c hc
    obtain ⟨i, w, hw, rfl⟩ := h.worker_of_card (h.nobody_waits ht) hc
    exact (h.workers i w hw).own_eq_acts
      (h.all_done (fun j => hrest rfl (.worker j)) hw)
  · rw [List.concat_eq_append, ← List.cons_append, ← List.append_assoc] at hrounds
    obtain ⟨hpast, -⟩ := List.append_inj' hrounds rfl
    apply h.history.complete round
    rw [hpast]
    exact List.mem_append_right _ List.mem_cons_self

/-- In every repetition, however the workers are scheduled, the card held back starts after all
other cards were started, and only if each of them was; else it makes no call and reports an error.
Every card streams after it was started only, and makes at most one start and one streaming call. -/
theorem starts_in_order (p : Plan) (script : List Request) {held : String} (listed : held ∈ p.cards)
    (back : p.heldBack = some held) {events : List Event} {r : Run}
    (h : (p.start script).Leads events r) {before rep after : List Event} {calcNext : Bool}
    (split : events = before ++ .begun (.stream calcNext) :: (rep ++ after))
    (within : Event.Within rep) :
    p.InOrder held calcNext rep ∧
      (Event.Whole r after → ∀ c ∈ p.cards, c ≠ held → p.backend.accepts (.start c) = false →
        .report held (.error (.worker held .otherFailed)) ∈ rep) := by
  cases reached h with
  | start state silent =>
    rw [silent] at split
    simp at split
  | aborted e state =>
    have hquiet : Event.Within events := by
      intro t ht
      rcases state.control with ⟨rfl, -⟩ | ⟨rfl, -⟩ <;> simp at ht
    refine absurd ?_ (hquiet (.stream calcNext))
    rw [split]
    exact List.mem_append_right _ List.mem_cons_self
  | running accepted past now inv history =>
    have hconnect : Event.Within (p.connectCalls.map .call) := fun t ht => by simp at ht
    rw [history] at split
    obtain ⟨before', hrounds⟩ := Within.command_after hconnect split
    obtain ⟨done, round, ahead, hsplit, ht, hrest⟩ :=
      command_begins_round inv.history.orderly hrounds
    have hround : round ∈ past ++ [now] := by
      rw [hsplit]
      exact List.mem_append_right _ List.mem_cons_self
    have horderly := inv.history.orderly round hround
    obtain ⟨hseen, hwhole⟩ := within_round (r := r) (fun later hl => inv.later_task hsplit hl)
      horderly.no_command within hrest
    refine ⟨inv.round_in_order hround ht hseen listed back, fun whole c hc hne hrefused => ?_⟩
    obtain ⟨hall, hrest⟩ := hwhole whole
    have hdone := inv.complete_whole hsplit (by rw [ht]; exact Task.noConfusion) hrest held listed
    rw [ht, acts, p.turn_of_refused back calcNext hc hne hrefused] at hdone
    have hown : Event.report held (.error (.worker held .otherFailed)) ∈
        Event.own held round.events := by
      rw [hdone]
      exact List.mem_singleton.mpr rfl
    rw [hall]
    exact (Event.mem_own.mp hown).1

/-- Two cards, of which the first is held back and the other does not start. -/
def samplePlan : Plan where
  cards := ["master", "slave"]
  bufferMs := 50
  heldBack := some "master"
  backend := { failing := [.start "slave"] }
  some_card := by decide
  distinct := by decide

/-- Configure, post a repetition, and let the card held back wait for the other. -/
def sampleSchedule : List Actor :=
  List.replicate 4 .controller ++ List.replicate 2 (.worker 0) ++ List.replicate 2 (.worker 1) ++
    List.replicate 4 .controller ++ [.worker 0] ++ List.replicate 5 (.worker 1) ++
    List.replicate 3 (.worker 0) ++ List.replicate 5 .controller

/-- What is then seen of the repetition. -/
def sampleRepetition : List Event :=
  [.call (.start "slave"), .report "slave" (.error (.backend (.start "slave"))),
    .report "master" (.error (.worker "master" .otherFailed)),
    .told (.error (.worker "master" .otherFailed))]

theorem samplePlan_starts_in_order : samplePlan.InOrder "master" true sampleRepetition ∧
    .report "master" (.error (.worker "master" .otherFailed)) ∈ sampleRepetition := by
  have split : ((samplePlan.start [.stream true, .close]).follow sampleSchedule).1 =
      [.call (.configureRun "master" 50), .report "master" (.ok ()),
        .call (.configureRun "slave" 50), .report "slave" (.ok ()), .told (.ok ())] ++
      .begun (.stream true) :: (sampleRepetition ++ [.begun .close]) := rfl
  have within : Event.Within sampleRepetition := by
    intro t ht
    simp [sampleRepetition] at ht
  obtain ⟨horder, hreport⟩ := starts_in_order samplePlan [.stream true, .close] (by decide) rfl
    (Run.leads_follow sampleSchedule _) split within
  exact ⟨horder, hreport (.inl ⟨_, _, rfl⟩) "slave" (by decide) (by decide) (by decide)⟩

end Plan

end Sequencer
