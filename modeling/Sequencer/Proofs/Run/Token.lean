import Sequencer.Proofs.Run.Resume
import Sequencer.Proofs.Run.Teardown

namespace Sequencer

/-- The cancel token, and the incidents that may still set it. -/
structure Token where
  incidents : List Incident
  cancelled : Bool

def Stage.token (s : Stage) : Token := ⟨s.incidents, s.cancelled⟩

/-- The streaming calls of a device. -/
def Call.streams (device : String) (cs : List Call) : Nat :=
  cs.countP fun
    | .streamRun d _ => d == device
    | _ => false

namespace Incident

/-- An incident once these calls were made. -/
def after (cs : List Call) (i : Incident) : Incident :=
  { i with countdown := i.countdown - Call.streams i.device cs }

/-- The token was set inside one of these calls. -/
def cancels (cs : List Call) (i : Incident) : Bool :=
  i.effect == .cancel && decide (1 ≤ i.countdown ∧ i.countdown ≤ Call.streams i.device cs)

theorem cancels_iff {cs : List Call} {i : Incident} : i.cancels cs = true ↔
    i.effect = .cancel ∧ 1 ≤ i.countdown ∧ i.countdown ≤ Call.streams i.device cs := by
  simp [cancels]

end Incident

/-- The token once these calls were made. -/
def Token.after (cs : List Call) (t : Token) : Token :=
  ⟨t.incidents.map (·.after cs), t.cancelled || t.incidents.any (·.cancels cs)⟩

theorem Call.streams_append (device : String) (cs ds : List Call) :
    streams device (cs ++ ds) = streams device cs + streams device ds := List.countP_append ..

namespace Token

open Incident (cancels_iff)

variable {t : Token}

theorem after_of_none {cs : List Call} (h : ∀ device, Call.streams device cs = 0) :
    t.after cs = t := by
  have hafter : ∀ i : Incident, i.after cs = i := fun i => by simp [Incident.after, h]
  have hcancels : ∀ i : Incident, i.cancels cs = false := fun i => by
    simp only [Incident.cancels, h, Bool.and_eq_false_iff, decide_eq_false_iff_not]
    omega
  have hnone : t.incidents.any (·.cancels cs) = false :=
    List.any_eq_false.mpr fun i _ => by simp [hcancels i]
  simp [after, hafter, hnone]

theorem after_append (t : Token) (cs ds : List Call) :
    (t.after cs).after ds = t.after (cs ++ ds) := by
  have hafter : ∀ i : Incident, (i.after cs).after ds = i.after (cs ++ ds) := fun i => by
    simp [Incident.after, Call.streams_append, Nat.sub_sub]
  have hcancels : ∀ i : Incident,
      (i.cancels cs || (i.after cs).cancels ds) = i.cancels (cs ++ ds) := fun i => by
    rw [Bool.eq_iff_iff, Bool.or_eq_true, cancels_iff, cancels_iff, cancels_iff,
      Call.streams_append]
    simp only [Incident.after]
    rw [← and_or_left]
    exact and_congr_right fun _ => by omega
  have hany : (t.incidents.any (·.cancels cs) || t.incidents.any fun i => (i.after cs).cancels ds) =
      t.incidents.any (·.cancels (cs ++ ds)) := by
    simp only [← hcancels]
    induction t.incidents with
    | nil => rfl
    | cons i is ih => simp only [List.any_cons, ← ih, Bool.or_assoc, Bool.or_left_comm]
  simp only [after, List.map_map, List.any_map, Function.comp_def, hafter, Bool.or_assoc, hany]

/-- A streaming call lets the incidents of its device happen. -/
theorem after_stream (s : Stage) (device : String) (q : Bool) :
    s.token.after [.streamRun device q] = (s.enterStream device).token := by
  have hafter : ∀ i : Incident, i.after [.streamRun device q] = i.advance device := fun i => by
    by_cases hd : device = i.device
    · simp [Incident.after, Call.streams, Incident.advance, hd]
    · simp [Incident.after, Call.streams, Incident.advance, hd, Ne.symm hd]
  have hcancels : ∀ i : Incident,
      i.cancels [.streamRun device q] = (i.strikes device && i.effect == .cancel) := fun i => by
    have hcount : Call.streams i.device [.streamRun device q] =
        if device = i.device then 1 else 0 := by
      simp [Call.streams, List.countP_cons]
    rw [Bool.eq_iff_iff, cancels_iff, hcount, Incident.strikes]
    simp only [Bool.and_eq_true, beq_iff_eq, eq_comm (a := device)]
    rw [and_comm]
    refine and_congr_left fun _ => ?_
    split
    case isTrue hd => simpa [hd] using by omega
    case isFalse hd => simpa [hd] using by omega
  simp [after, Stage.token, Stage.enterStream, hafter, hcancels]

theorem after_call (t : Token) {c : Call} (hc : ∀ device q, c ≠ .streamRun device q) :
    t.after [c] = t :=
  after_of_none fun device => by
    cases c with
    | streamRun d q => exact absurd rfl (hc d q)
    | _ => rfl

end Token

namespace Worker

/-- A worker makes a streaming call only when it streams. -/
theorem step_calls {w w' : Worker} {s s' : Stage} (hp : ∀ q, w.phase ≠ .stream q)
    (next : w.step s = some (w', s')) : s'.backend.calls = s.backend.calls ∨
      ∃ c, s'.backend.calls = s.backend.calls ++ [c] ∧ ∀ device q, c ≠ .streamRun device q := by
  cases h : w.phase with
  | stream q => exact absurd h (hp q)
  | configure | close =>
    simp only [step, h, Stage.issue_eq, Option.some.injEq, Prod.mk.injEq] at next
    obtain ⟨-, rfl⟩ := next
    exact .inr ⟨_, Backend.issue_calls .., fun _ _ => Call.noConfusion⟩
  | start q latch =>
    simp only [step, h, callStart, Stage.issue_eq, Option.some.injEq, Prod.mk.injEq] at next
    obtain ⟨-, rfl⟩ := next
    exact .inr ⟨_, Backend.issue_calls .., fun _ _ => Call.noConfusion⟩
  | listen =>
    simp only [step, h, listen] at next
    split at next
    · cases next
    · cases next
      exact .inl rfl
    · cases next
      exact .inl rfl
  | gate q l =>
    simp only [step, h, passGate] at next
    split at next
    · cases next
      exact .inl rfl
    · cases next
  | countDown q l started =>
    simp only [step, h, Option.some.injEq, Prod.mk.injEq] at next
    obtain ⟨-, rfl⟩ := next
    exact .inl rfl
  | report r last =>
    simp only [step, h, send, Option.some.injEq] at next
    cases r <;> split at next <;> cases next <;> exact .inl rfl
  | ended | died => simp [step, h] at next

/-- The streaming calls that a worker makes let its incidents happen. -/
theorem step_token {w w' : Worker} {s s' : Stage} (h : s.Harmless)
    (next : w.step s = some (w', s')) :
    ∃ calls, s'.backend.calls = s.backend.calls ++ calls ∧ s'.token = s.token.after calls := by
  by_cases hp : ∃ q, w.phase = .stream q
  · obtain ⟨q, hp⟩ := hp
    rw [step_stream hp h, Option.some.injEq, Prod.mk.injEq] at next
    obtain ⟨-, rfl⟩ := next
    exact ⟨_, Backend.issue_calls .., (Token.after_stream s w.card q).symm⟩
  · have hp : ∀ q, w.phase ≠ .stream q := fun q hq => hp ⟨q, hq⟩
    have htoken : s'.token = s.token := by
      have hdress := step_dress hp s { s.surroundings with log := [] }
      have hself : s.dress { s.surroundings with log := [] } = s := by
        simp [Stage.dress, Stage.surroundings]
      rw [hself, next, Option.map_some, Option.some.injEq, Prod.mk.injEq] at hdress
      rw [hdress.2]
      rfl
    rcases step_calls hp next with hcalls | ⟨c, hcalls, hc⟩
    · exact ⟨[], by rw [hcalls, List.append_nil], by rw [htoken, Token.after_of_none fun _ => rfl]⟩
    · exact ⟨[c], hcalls, by rw [htoken, Token.after_call _ hc]⟩

end Worker

namespace Run

variable {r r' u start : Run} {events : List Event}

/-- The controller makes and takes back the connection, and makes no other calls. -/
theorem controllerStep_calls (next : r.controllerStep = some r') :
    r'.stage.backend = r.stage.backend ∨ ∃ source target,
      r'.stage.backend = (r.stage.backend.issue (.connect source target)).2 ∨
        r'.stage.backend = (r.stage.backend.issue (.disconnect source target)).2 := by
  cases hc : r.control with
  | connect =>
    simp only [controllerStep, hc, Option.some.injEq, connect] at next
    subst next
    split
    case h_1 => exact .inl rfl
    case h_2 source target _ =>
      refine .inr ⟨source, target, .inl ?_⟩
      simp only [Stage.issue_eq]
      cases r.stage.backend.verdict (.connect source target) with
      | ok => rfl
      | error e => exact beginClose_backend ..
  | hire waiting =>
    simp only [controllerStep, hc, Option.some.injEq] at next
    subst next
    cases waiting <;> exact .inl rfl
  | collect duty index first =>
    simp only [controllerStep, hc, collect] at next
    split at next
    · cases next
      cases duty with
      | configure =>
        cases first with
        | none => exact .inl rfl
        | some e => exact .inl (beginClose_backend ..)
      | stream => exact .inl rfl
      | close => exact .inl rfl
    · split at next
      · cases next
        exact .inl rfl
      · split at next <;> cases next
        exact .inl rfl
  | ready =>
    simp only [controllerStep, hc, serve] at next
    split at next <;> cases next
    · exact .inl rfl
    · exact .inl (beginClose_backend ..)
    · exact .inl (beginClose_backend ..)
  | join index first =>
    simp only [controllerStep, hc, join] at next
    split at next
    · cases next
      exact .inl rfl
    · split at next <;> cases next <;> exact .inl rfl
  | disconnect first =>
    simp only [controllerStep, hc, Option.some.injEq, disconnect] at next
    subst next
    split
    case h_1 source target _ _ =>
      exact .inr ⟨source, target, .inr (by rw [farewell_backend, Stage.issue_eq])⟩
    case h_2 => exact .inl (farewell_backend ..)
  | «over» => simp [controllerStep, hc] at next

theorem step_token {a : Actor} (h : r.stage.Harmless) (next : r.step a = some r') :
    ∃ calls, r'.stage.backend.calls = r.stage.backend.calls ++ calls ∧
      r'.stage.token = r.stage.token.after calls := by
  cases a with
  | controller =>
    obtain ⟨hincidents, hcancelled⟩ := controllerStep_token next
    have htoken : r'.stage.token = r.stage.token := by
      rw [Stage.token, hincidents, hcancelled]
      rfl
    rcases controllerStep_calls next with hsame | ⟨source, target, hissued | hissued⟩
    · exact ⟨[], by rw [hsame, List.append_nil], by rw [htoken, Token.after_of_none fun _ => rfl]⟩
    · exact ⟨[.connect source target], by rw [hissued, Backend.issue_calls],
        by rw [htoken, Token.after_call _ fun _ _ => Call.noConfusion]⟩
    · exact ⟨[.disconnect source target], by rw [hissued, Backend.issue_calls],
        by rw [htoken, Token.after_call _ fun _ _ => Call.noConfusion]⟩
  | worker index =>
    obtain ⟨w, w', s', -, hstep, rfl⟩ := workerStep_eq next
    exact Worker.step_token h hstep

/-- What was seen of a run tells how its token stands. -/
theorem Leads.token (h : start.Leads events r) (harmless : start.stage.Harmless) :
    r.stage.token = start.stage.token.after (Event.calls events) ∧ r.stage.Harmless := by
  induction h with
  | start => exact ⟨(Token.after_of_none fun _ => rfl).symm, harmless⟩
  | @step events r r' a _ next ih =>
    obtain ⟨htoken, hr⟩ := ih
    obtain ⟨calls, hcalls, hstep⟩ := step_token hr next
    have hafter : r'.stage.token =
        start.stage.token.after (Event.calls (events ++ r.shown a r')) := by
      rw [hstep, htoken, Token.after_append, Event.calls_append, shown_calls hcalls]
    refine ⟨hafter, fun i hi => ?_⟩
    have hi : i ∈ r'.stage.token.incidents := hi
    rw [hafter] at hi
    obtain ⟨j, hj, rfl⟩ := List.mem_map.mp hi
    exact harmless j hj

/-- Whatever the surroundings of a run are, it is seen to do the same, as long as no worker dies. -/
theorem Leads.alike (h : start.Leads events r) {start' : Run} (same : start.quiet = start'.quiet)
    (harmless : start.stage.Harmless) (harmless' : start'.stage.Harmless) :
    ∃ u, start'.Leads events u ∧ r.quiet = u.quiet := by
  induction h with
  | start => exact ⟨start', .start, same⟩
  | @step events r r' a before next ih =>
    obtain ⟨u, hu, hquiet⟩ := ih
    have halike := step_alike a hquiet (before.token harmless).2 (hu.token harmless').2
    rw [next, Option.map_some] at halike
    obtain ⟨u', hnext, hsame⟩ := Option.map_eq_some_iff.mp halike.symm
    refine ⟨u', ?_, hsame.symm⟩
    have hshown : r.shown a r' = u.shown a u' := by
      change r.quiet.shown a r'.quiet = u.quiet.shown a u'.quiet
      rw [hquiet, hsame]
    rw [hshown]
    exact .step a hu hnext

theorem AtRest.alike (h : r.AtRest) {u : Run} (same : r.quiet = u.quiet)
    (hr : r.stage.Harmless) (hu : u.stage.Harmless) : u.AtRest := by
  intro a
  have halike := step_alike a same hr hu
  rw [h a, Option.map_none] at halike
  exact Option.map_eq_none_iff.mp halike.symm

end Run

end Sequencer
