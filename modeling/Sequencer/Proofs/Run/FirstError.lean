import Sequencer.Proofs.Run.Repetitions
import Sequencer.Proofs.Run.StartOrder

namespace Sequencer

namespace Run

variable {start r r' : Run} {events : List Event}

/-- Every event was shown by some step. -/
theorem Leads.step_of_event (h : start.Leads events r) {before after : List Event} {e : Event}
    (split : events = before ++ e :: after) :
    ∃ es r₁ a r₂ seen rest, start.Leads es r₁ ∧ r₁.step a = some r₂ ∧
      r₁.shown a r₂ = seen ++ e :: rest ∧ before = es ++ seen := by
  induction h generalizing after with
  | start => simp at split
  | @step es r₁ r₂ a hbefore next ih =>
    rcases List.append_eq_append_iff.mp split with ⟨seen, hseen, hshown⟩ | ⟨middle, hes, hrest⟩
    · exact ⟨es, r₁, a, r₂, seen, after, hbefore, next, hshown, hseen⟩
    · cases middle with
      | nil =>
        rw [List.append_nil] at hes
        exact ⟨es, r₁, a, r₂, [], after, hbefore, next, hrest.symm, by rw [hes, List.append_nil]⟩
      | cons e' middle =>
        rw [← (List.cons.inj hrest).1] at hes
        exact ih hes

theorem told_mem_shown {a : Actor} {result : Report} (h : .told result ∈ r.shown a r') :
    result ∈ r'.results.drop r.results.length := by
  have hreported : ∀ index, .told result ∉ reported index r r' := by
    intro index hmem
    unfold reported at hmem
    split at hmem
    · obtain ⟨_, -, hne⟩ := List.mem_map.mp hmem
      cases hne
    · cases hmem
  simp only [shown, List.mem_append] at h
  rcases h with ((hbegun | hcall) | hworker) | htold
  · split at hbegun <;> simp at hbegun
  · obtain ⟨_, -, hne⟩ := List.mem_map.mp hcall
    cases hne
  · cases a with
    | controller => cases hworker
    | worker index => exact absurd hworker (hreported index)
  · obtain ⟨_, hnew, heq⟩ := List.mem_map.mp htold
    rwa [← Event.told.inj heq]

theorem not_told {a : Actor} (hr : r'.results = r.results) (result : Report) :
    .told result ∉ r.shown a r' := by
  intro h
  have hnew := told_mem_shown h
  rw [hr, List.drop_length] at hnew
  cases hnew

theorem beginClose_results (r : Run) (ending : Ending) :
    (r.beginClose ending).results = r.results := by
  unfold beginClose
  split <;> rfl

theorem connect_results (r : Run) : r.connect.results = r.results := by
  unfold connect
  split
  · rfl
  · split
    · rfl
    · exact beginClose_results _ _

theorem serve_results (next : r.serve = some r') : r'.results = r.results := by
  unfold serve at next
  split at next <;> cases next
  · rfl
  · exact beginClose_results _ _
  · exact beginClose_results _ _

end Run

namespace Plan

variable {p : Plan} {script : List Request} {past : List Round} {now : Round} {events : List Event}
  {r r' : Run} {q : Bool} {held c : String} {e : Error}

/-- During a repetition the owner is told nothing but what came of it. -/
theorem Inv.told_result (h : p.Inv script past now r) {a : Actor} (next : r.step a = some r')
    (ht : now.task = .stream q) {result : Report} (told : .told result ∈ r.shown a r') :
    result = p.result (.stream q) := by
  cases a with
  | worker index =>
    obtain ⟨w, w', s', -, -, rfl⟩ := Run.workerStep_eq next
    exact absurd told (Run.not_told (by rfl) result)
  | controller =>
    have next : r.controllerStep = some r' := next
    have hcontrol := h.course.control
    cases hc : r.control with
    | ready =>
      simp only [Run.controllerStep, hc] at next
      exact absurd told (Run.not_told (Run.serve_results next) result)
    | collect duty i first =>
      simp only [Run.controllerStep, hc] at next
      simp only [ControlFits, hc, ht] at hcontrol
      obtain ⟨rfl, -, -⟩ := hcontrol
      cases hw : r.crew[i]? with
      | some w =>
        simp only [Run.collect, hw] at next
        split at next
        · cases next
          exact absurd told (Run.not_told (by rfl) result)
        · split at next <;> cases next
          exact absurd told (Run.not_told (by rfl) result)
      | none =>
        obtain ⟨-, hfirst, -⟩ := h.collected_all hc hw
        simp only [Run.collect, hw, Task.duty, Option.some.injEq] at next
        subst next
        have hnew := Run.told_mem_shown told
        rw [Plan.result, ← ht, ← hfirst]
        simpa [Run.afterCollect, Run.tell] using hnew
    | _ => simp_all [ControlFits]

theorem no_round_ahead {ahead : List Round} (later : ∀ round ∈ ahead, round.task ≠ .configure)
    (within : Event.Within (ahead.flatMap Round.trace)) : ahead = [] := by
  cases ahead with
  | nil => rfl
  | cons round ahead =>
    refine absurd ?_ (within round.task)
    rw [List.flatMap_cons, Round.trace_eq (later round List.mem_cons_self)]
    exact List.mem_cons_self

/-- What is told after the command of a repetition, and before another one, is told in its round, in
which every card has shown its part by then. -/
theorem Inv.told_in_round (h : p.Inv script past now r) {a : Actor} (next : r.step a = some r')
    {seen rest before rep : List Event} {result : Report}
    (shown : r.shown a r' = seen ++ .told result :: rest)
    (history : p.trace (past ++ [now]) ++ seen = before ++ .begun (.stream q) :: rep)
    (within : Event.Within rep) : now.task = .stream q ∧ p.Complete ⟨.stream q, rep⟩ := by
  rcases h.step next with inv' | ⟨t, -, hbegun, -⟩
  · have orderly := inv'.history.orderly
    have hwithin : Event.Within (rep ++ .told result :: rest) := by
      have hnone := (orderly ⟨now.task, now.events ++ r.shown a r'⟩ (by simp)).no_command
      intro t ht
      rcases List.mem_append.mp ht with hrep | hrest
      · exact within t hrep
      · exact hnone t (by simp_all)
    have hconnect : Event.Within (p.connectCalls.map .call) := fun t ht => by simp at ht
    have htrace : p.trace (past ++ [⟨now.task, now.events ++ r.shown a r'⟩]) =
        before ++ .begun (.stream q) :: (rep ++ .told result :: rest) := by
      rw [trace_extend, shown, ← List.append_assoc, history]
      simp
    obtain ⟨before', hrounds⟩ := Within.command_after hconnect htrace
    obtain ⟨done, round, ahead, hall, ht, hround⟩ := command_begins_round orderly hrounds
    -- The command is the last one, so that its round is the one that is going on.
    obtain rfl : ahead = [] := by
      refine no_round_ahead (fun later hl => inv'.later_task hall hl) fun t ht => hwithin t ?_
      rw [hround]
      exact List.mem_append_right _ ht
    obtain ⟨rfl, hlast⟩ := List.append_inj' hall rfl
    obtain rfl := List.singleton_inj.mp hlast
    rw [List.flatMap_nil, List.append_nil] at hround
    have hallows := (orderly _ (by simp)) rep (.told result) rest hround.symm
    rw [ht] at hallows
    exact ⟨ht, hallows.2⟩
  · rw [hbegun] at shown
    have htold : .told result ∈ [Event.begun t] := by simp [shown]
    cases List.mem_singleton.mp htold

/-- What the owner is told of a repetition is what the plan says of it, and by then every card has
shown its part. -/
theorem told_of_repetition (h : (p.start script).Leads events r) {before rep after : List Event}
    {result : Report}
    (split : events = before ++ .begun (.stream q) :: (rep ++ .told result :: after))
    (within : Event.Within rep) :
    result = p.result (.stream q) ∧ p.Complete ⟨.stream q, rep⟩ := by
  have hsplit : events = (before ++ .begun (.stream q) :: rep) ++ .told result :: after := by
    simpa using split
  obtain ⟨es, r₁, a, r₂, seen, rest, hes, next, hshown, hbefore⟩ := h.step_of_event hsplit
  have htold : .told result ∈ r₁.shown a r₂ := by simp [hshown]
  cases reached hes with
  | start state _ =>
    subst state
    cases a with
    | worker index => simp [Run.step, Run.workerStep, start] at next
    | controller =>
      obtain rfl : (p.start script).connect = r₂ := Option.some.inj next
      exact absurd htold (Run.not_told (Run.connect_results _) result)
  | aborted e state =>
    have hcommand : .begun (.stream q) ∈ es ++ r₁.shown a r₂ := by
      rw [hshown, ← List.append_assoc, ← hbefore]
      simp
    rcases (state.step next).control with ⟨hquiet, -⟩ | ⟨hquiet, -⟩ <;> simp [hquiet] at hcommand
  | running accepted past now inv history =>
    rw [history] at hbefore
    obtain ⟨ht, hdone⟩ := inv.told_in_round next hshown hbefore.symm within
    exact ⟨inv.told_result next ht htold, hdone⟩

theorem firstError_eq_findSome? (p : Plan) (cards : List String) (t : Task) :
    p.firstError cards t = cards.findSome? fun c => Run.keepFirst none (p.turn c t).2 := by
  have hkeeps : ∀ (e : Error) (rs : List Report), rs.foldl Run.keepFirst (some e) = some e := by
    intro e rs
    induction rs with
    | nil => rfl
    | cons r rs ih => exact ih
  induction cards with
  | nil => rfl
  | cons c cards ih =>
    rw [List.findSome?_cons, ← ih, firstError, List.map_cons, List.foldl_cons]
    cases (p.turn c t).2 with
    | ok => rfl
    | error e => exact hkeeps e _

/-- The cards listed before the one whose error is told have none. -/
theorem firstError_eq_some_iff {cards : List String} {t : Task} :
    p.firstError cards t = some e ↔ ∃ before c after, cards = before ++ c :: after ∧
      (p.turn c t).2 = .error e ∧ ∀ d ∈ before, (p.turn d t).2 = .ok () := by
  have hkept : ∀ r : Report, Run.keepFirst none r = some e ↔ r = .error e := by
    intro r
    cases r <;> simp [Run.keepFirst]
  have hnone : ∀ r : Report, Run.keepFirst none r = none ↔ r = .ok () := by
    intro r
    cases r <;> simp [Run.keepFirst]
  rw [firstError_eq_findSome?, List.findSome?_eq_some_iff]
  simp only [hkept, hnone]

/-- The backend takes both calls of a card in a repetition. -/
def Plays (p : Plan) (q : Bool) (c : String) : Prop :=
  p.backend.accepts (.start c) = true ∧ p.backend.accepts (.streamRun c q) = true

/-- The error of a card that does not start is hidden by the card held back: it does not start
either, and nothing is wrong with the cards listed before it. -/
structure Masked (p : Plan) (q : Bool) (held : String) : Prop where
  back : p.heldBack = some held
  listed : ∃ before after, p.cards = before ++ held :: after ∧ (∀ c ∈ before, p.Plays q c) ∧
    ∃ c ∈ after, p.backend.accepts (.start c) = false

/-- The error is that of a call which was made, and refused, in this repetition. -/
def Surfaces (p : Plan) (q : Bool) (rep : List Event) (e : Error) : Prop :=
  ∃ c ∈ p.cards, ∃ call ∈ Event.calls rep, (call = .start c ∨ call = .streamRun c q) ∧
    p.backend.accepts call = false ∧ e = .backend call

theorem perform_eq_ok_iff : (p.perform c q).2 = .ok () ↔ p.Plays q c := by
  simp only [perform, Plays, Backend.verdict]
  split
  · split <;> simp_all
  · simp_all

theorem perform_eq_error (h : (p.perform c q).2 = .error e) :
    ∃ call ∈ (p.perform c q).1, (call = .start c ∨ call = .streamRun c q) ∧
      p.backend.accepts call = false ∧ e = .backend call := by
  simp only [perform, Backend.verdict] at h ⊢
  split at h
  · split at h
    · simp at h
    · simp_all
  · simp_all

theorem turn_of_other (hc : p.isHeld c = false) : p.turn c (.stream q) = p.perform c q := by
  simp [turn, hc]

/-- Cards listed before or after the one held back are others. -/
theorem not_held {before after : List String} (back : p.heldBack = some held)
    (hcards : p.cards = before ++ held :: after) (hc : c ∈ before ∨ c ∈ after) :
    c ≠ held ∧ p.isHeld c = false := by
  have hdistinct := p.distinct
  rw [hcards, List.perm_middle.nodup_iff, List.nodup_cons, List.mem_append] at hdistinct
  have hne : c ≠ held := by
    rintro rfl
    exact hdistinct.1 hc
  exact ⟨hne, by simp [isHeld, back, Ne.symm hne]⟩

theorem Masked.firstError (h : p.Masked q held) :
    p.firstError p.cards (.stream q) = some (.worker held .otherFailed) := by
  obtain ⟨before, after, hcards, hplay, c, hc, hrefused⟩ := h.listed
  have hlisted : c ∈ p.cards := by simp [hcards, hc]
  refine firstError_eq_some_iff.mpr ⟨before, held, after, hcards, ?_, fun d hd => ?_⟩
  · rw [p.turn_of_refused h.back q hlisted (not_held h.back hcards (.inr hc)).1 hrefused]
  · rw [turn_of_other (not_held h.back hcards (.inl hd)).2, perform_eq_ok_iff]
    exact hplay d hd

/-- When the card held back is the first to report an error, for another card, this one is listed
after it. -/
theorem masked_of_first {before after : List String} (hcards : p.cards = before ++ held :: after)
    (hheld : p.isHeld held = true) (hstart : p.othersStart = false)
    (hfine : ∀ d ∈ before, (p.turn d (.stream q)).2 = .ok ()) : p.Masked q held := by
  have back : p.heldBack = some held := by simpa [isHeld] using hheld
  have hplay : ∀ d ∈ before, p.Plays q d := fun d hd => by
    have hturn := hfine d hd
    rwa [turn_of_other (not_held back hcards (.inl hd)).2, perform_eq_ok_iff] at hturn
  refine ⟨back, before, after, hcards, hplay, ?_⟩
  obtain ⟨c, hc, hother, hrefused⟩ : ∃ c ∈ p.cards, p.isHeld c = false ∧
      p.backend.accepts (.start c) = false := by
    simpa [othersStart] using hstart
  rw [hcards, List.mem_append, List.mem_cons] at hc
  -- It is not among the cards before the one held back, since these do well.
  rcases hc with hbefore | rfl | hafter
  · rw [(hplay c hbefore).1] at hrefused
    cases hrefused
  · rw [hheld] at hother
    cases hother
  · exact ⟨c, hafter, hrefused⟩

/-- The first error of a repetition is hidden, or it is that of a call in some card's part. -/
theorem firstError_cases (h : p.firstError p.cards (.stream q) = some e) :
    (∃ held, p.Masked q held ∧ e = .worker held .otherFailed) ∨
      ∃ c ∈ p.cards, ∃ call ∈ (p.turn c (.stream q)).1,
        (call = .start c ∨ call = .streamRun c q) ∧ p.backend.accepts call = false ∧
          e = .backend call := by
  obtain ⟨before, c, after, hcards, herror, hfine⟩ := firstError_eq_some_iff.mp h
  have hc : c ∈ p.cards := by simp [hcards]
  cases hwaits : p.isHeld c && !p.othersStart with
  | true =>
    obtain ⟨hheld, hstart⟩ := Bool.and_eq_true_iff.mp hwaits
    refine .inl ⟨c, masked_of_first hcards hheld (by simpa using hstart) hfine, ?_⟩
    simpa [turn, hwaits] using herror.symm
  | false =>
    have hturn : p.turn c (.stream q) = p.perform c q := by simp [turn, hwaits]
    rw [hturn] at herror
    exact .inr ⟨c, hc, by rw [hturn]; exact perform_eq_error herror⟩

theorem Complete.call_mem {rep : List Event} {t : Task} (h : p.Complete ⟨t, rep⟩)
    (hc : c ∈ p.cards) {call : Call} (hcall : call ∈ (p.turn c t).1) :
    call ∈ Event.calls rep := by
  have hown : call ∈ Call.madeBy (some c) (Event.calls rep) := by
    rw [Event.calls_own, h c hc, p.calls_acts hc, part, if_pos hc]
    exact hcall
  exact (List.mem_filter.mp hown).1

/-- An error that the owner is told of a repetition is that of a start or streaming call refused in
it, unless this is hidden by the card held back; then the owner is told of that card only. -/
theorem told_error_surfaces_iff (h : (p.start script).Leads events r)
    {before rep after : List Event}
    (split : events = before ++ .begun (.stream q) :: (rep ++ .told (.error e) :: after))
    (within : Event.Within rep) :
    (p.Surfaces q rep e ↔ ∀ held, ¬ p.Masked q held) ∧
      ∀ held, p.Masked q held → e = .worker held .otherFailed := by
  obtain ⟨hresult, hdone⟩ := told_of_repetition h split within
  have hfirst := Run.asReport_eq_error_iff.mp hresult.symm
  have hhidden : ∀ held, p.Masked q held → e = .worker held .otherFailed := fun held hmasked =>
    Option.some.inj (hfirst.symm.trans hmasked.firstError)
  refine ⟨⟨?_, fun hnone => ?_⟩, hhidden⟩
  · rintro ⟨c, -, call, -, -, -, herror⟩ held hmasked
    rw [hhidden held hmasked] at herror
    cases herror
  · rcases firstError_cases hfirst with ⟨held, hmasked, -⟩ | ⟨c, hc, call, hcall, hcard, hrefused⟩
    · exact absurd hmasked (hnone held)
    · exact ⟨c, hc, call, hdone.call_mem hc hcall, hcard, hrefused⟩

/-- What is seen until both cards of the sample are configured. -/
def configured : List Event :=
  [.call (.configureRun "master" 50), .report "master" (.ok ()),
    .call (.configureRun "slave" 50), .report "slave" (.ok ()), .told (.ok ())]

/-- What is seen of a repetition before its end, when the slave does not start. -/
def refusedStart : List Event :=
  [.call (.start "slave"), .report "slave" (.error (.backend (.start "slave"))),
    .report "master" (.error (.worker "master" .otherFailed))]

theorem refusedStart_within : Event.Within refusedStart := by
  intro t ht
  simp [refusedStart] at ht

/-- The two cards of the sample, but with the one held back listed last. -/
def latePlan : Plan where
  cards := ["slave", "master"]
  bufferMs := 50
  heldBack := some "master"
  backend := { failing := [.start "slave"] }
  some_card := by decide
  distinct := by decide

/-- The schedule of the sample, for the same cards. -/
def lateSchedule : List Actor :=
  sampleSchedule.map fun
    | .controller => .controller
    | .worker index => .worker (1 - index)

theorem latePlan_surfaces :
    latePlan.Surfaces true refusedStart (.backend (.start "slave")) := by
  have h := Run.leads_follow lateSchedule (latePlan.start [.stream true, .close])
  have split : ((latePlan.start [.stream true, .close]).follow lateSchedule).1 =
      configured ++ .begun (.stream true) ::
        (refusedStart ++ .told (.error (.backend (.start "slave"))) :: [.begun .close]) := rfl
  refine (told_error_surfaces_iff h split refusedStart_within).1.mpr fun held hmasked => ?_
  have hfirst : latePlan.firstError latePlan.cards (.stream true) =
      some (.backend (.start "slave")) := rfl
  rw [hmasked.firstError] at hfirst
  cases hfirst

/-- Listed first, the card held back hides why it was not started. -/
theorem samplePlan_masks :
    (∃ r, (samplePlan.start [.stream true, .close]).Leads (configured ++ .begun (.stream true) ::
      (refusedStart ++ .told (.error (.worker "master" .otherFailed)) :: [.begun .close])) r) ∧
    Event.Within refusedStart ∧ samplePlan.backend.accepts (.start "slave") = false ∧
    ¬ samplePlan.Surfaces true refusedStart (.worker "master" .otherFailed) := by
  refine ⟨⟨_, Run.leads_follow sampleSchedule _⟩, refusedStart_within, by decide, ?_⟩
  rintro ⟨c, -, call, -, -, -, herror⟩
  cases herror

end Plan

end Sequencer
