import Sequencer.Proofs.Card.Numbering
import Sequencer.Proofs.Session.Effects

namespace Sequencer

namespace Registry

/-- A registry without insertion numbers, marks of freshness and program. -/
def unnumbered (r : Registry) : Registry :=
  { r with cards := r.cards.map (·.unnumbered), program := none }

/-- On no channel does a booking reach into another. -/
def Apart (r : Registry) : Prop :=
  ∀ e ∈ r.cards.entries, ∀ f ∈ e.2.channels.entries, f.2.Apart

variable {r r' : Registry}

theorem unnumbered_of_unmarked (h : r'.unmarked = r.unmarked) : r'.unnumbered = r.unnumbered := by
  have hmarks : ∀ r : Registry, r.unmarked.unnumbered = r.unnumbered := by
    intro r
    simp only [unnumbered, unmarked, Table.map, List.map_map, Function.comp_def,
      Card.unnumbered_unmarked]
  rw [← hmarks r', h, hmarks r]

theorem apart_unnumbered : r.unnumbered.Apart ↔ r.Apart := by
  simp only [Apart, unnumbered, Card.unnumbered, Table.map, List.forall_mem_map,
    Timeline.apart_unnumbered]

theorem lastTime_unnumbered (r : Registry) : r.unnumbered.lastTime = r.lastTime := by
  have hcard : ∀ c : Card, c.unnumbered.lastTime = c.lastTime := by
    intro c
    simp only [Card.lastTime, Card.lastTick_unnumbered]
    rfl
  simp only [lastTime, unnumbered, Table.values, Table.map, List.map_map, List.foldl_map,
    Function.comp_apply, hcard]

theorem edited_unnumbered (r : Registry) : r.unnumbered.edited = r.edited := by
  simp only [edited, unnumbered, Table.any, Table.map, List.any_map, Function.comp_def,
    Card.edited_unnumbered]

theorem outcome_unnumbered (apart : r.Apart) (b : Backend) (asked : Option Float) :
    r.unnumbered.outcome b asked = r.outcome b asked := by
  have hstop : Session.stopTime r.unnumbered asked = Session.stopTime r asked := by
    unfold Session.stopTime
    rw [lastTime_unnumbered, edited_unnumbered]
  have hcards : ∀ stop, (r.unnumbered.cards.traverse (Card.compile stop)).2 =
      (r.cards.traverse (Card.compile stop)).2 := by
    intro stop
    have hs := Table.traverseEntries_map_results (Card.compile stop) Card.unnumbered
      r.cards.entries fun e he => Card.compile_unnumbered (apart e he) stop
    simp only [Table.traverse, unnumbered, Table.map, hs]
  simp only [outcome, hstop, hcards]

end Registry

namespace Session

open Job

/-- Sessions that differ in insertion numbers and marks of freshness at most, over backends that
refuse the same calls. -/
structure Alike (s s' : Session) : Prop where
  apart : s.registry.Apart
  same : s'.registry.unnumbered = s.registry.unnumbered
  failing : s'.backend.failing = s.backend.failing

theorem compile_frame (s : Session) (asked : Option Float) :
    ((compile asked).run.run s).2.registry.unnumbered = s.registry.unnumbered ∧
      ((compile asked).run.run s).2.backend.failing = s.backend.failing := by
  have hend := compile_spec asked s (.start s)
  rcases hrun : (compile asked).run.run s with ⟨result, s'⟩
  rw [hrun] at hend
  cases result with
  | ok t =>
    obtain ⟨p, -, -, -, hsame, htold⟩ := hend
    exact ⟨Registry.unnumbered_of_unmarked hsame, htold.1⟩
  | error e =>
    obtain ⟨-, ⟨-, hsame⟩, htold⟩ := hend
    exact ⟨Registry.unnumbered_of_unmarked hsame, htold.1⟩

theorem Alike.outcome {s s' : Session} (h : s.Alike s') (asked : Option Float) :
    s'.registry.outcome s'.backend asked = s.registry.outcome s.backend asked := by
  have hapart : s'.registry.Apart :=
    Registry.apart_unnumbered.mp (h.same ▸ Registry.apart_unnumbered.mpr h.apart)
  calc s'.registry.outcome s'.backend asked
    _ = s'.registry.unnumbered.outcome s'.backend asked :=
      (Registry.outcome_unnumbered hapart _ _).symm
    _ = s.registry.unnumbered.outcome s'.backend asked := by rw [h.same]
    _ = s.registry.outcome s'.backend asked := Registry.outcome_unnumbered h.apart _ _
    _ = s.registry.outcome s.backend asked := by
      simp only [Registry.outcome, Backend.accepts_congr h.failing]

/-- Compiling sessions that are alike gives the same program, and leaves them alike. -/
theorem Alike.compiled {s s' : Session} (h : s.Alike s') (asked : Option Float) :
    ((compile asked).run.run s').1 = ((compile asked).run.run s).1 ∧
      ((compile asked).run.run s').2.registry.program =
        ((compile asked).run.run s).2.registry.program ∧
      ((compile asked).run.run s).2.Alike ((compile asked).run.run s').2 := by
  obtain ⟨hsame, hfailing⟩ := compile_frame s asked
  obtain ⟨hsame', hfailing'⟩ := compile_frame s' asked
  have halike : ((compile asked).run.run s).2.Alike ((compile asked).run.run s').2 :=
    ⟨Registry.apart_unnumbered.mp (hsame ▸ Registry.apart_unnumbered.mpr h.apart),
      hsame'.trans (h.same.trans hsame.symm), hfailing'.trans (h.failing.trans hfailing.symm)⟩
  have hsame := h.outcome asked
  have hend := compile_spec asked s (.start s)
  have hend' := compile_spec asked s' (.start s')
  rcases hrun : (compile asked).run.run s with ⟨result, t⟩
  rcases hrun' : (compile asked).run.run s' with ⟨result', t'⟩
  rw [hrun, hrun'] at halike
  rw [hrun] at hend
  rw [hrun'] at hend'
  cases result with
  | ok stop =>
    obtain ⟨p, hp, rfl, hprogram, -⟩ := hend
    cases result' with
    | ok stop' =>
      obtain ⟨p', hp', rfl, hprogram', -⟩ := hend'
      obtain rfl : p' = p := Except.ok.inj (hp'.symm.trans (hsame.trans hp))
      exact ⟨rfl, hprogram'.trans hprogram.symm, halike⟩
    | error e' => cases hp.symm.trans (hsame.symm.trans hend'.1)
  | error e =>
    obtain ⟨he, ⟨hprogram, -⟩, -⟩ := hend
    cases result' with
    | ok stop' =>
      obtain ⟨p', hp', -⟩ := hend'
      cases he.symm.trans (hsame.symm.trans hp')
    | error e' =>
      obtain ⟨he', ⟨hprogram', -⟩, -⟩ := hend'
      obtain rfl : e' = e := Except.error.inj (he'.symm.trans (hsame.trans he))
      exact ⟨rfl, hprogram'.trans hprogram.symm, halike⟩

theorem Alike.compiles {s s' : Session} (h : s.Alike s') (asks : List (Option Float)) :
    (s.operate (asks.map .compile)).Alike (s'.operate (asks.map .compile)) := by
  have hrun : ∀ (s : Session) asked,
      ((Operation.compile asked).run.run.run s).2 = ((compile asked).run.run s).2 := by
    intro s asked
    rw [Operation.run, run_bind]
    rcases (compile asked).run.run s with ⟨result, s'⟩
    cases result <;> rfl
  induction asks generalizing s s' with
  | nil => exact h
  | cons asked asks ih =>
    apply ih
    have hnext := (h.compiled asked).2.2
    rwa [← hrun, ← hrun] at hnext

end Session

end Sequencer
