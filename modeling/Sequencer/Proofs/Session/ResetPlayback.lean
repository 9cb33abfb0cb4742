import Sequencer.Proofs.Card.Outline
import Sequencer.Proofs.Session.ResetSpec

namespace Sequencer

/-- A part of a program in which the channels of a card rest from the tick of this time on. -/
def CardProgram.RestsFrom (q : CardProgram) (c : Card) (time : Float) : Prop :=
  ∃ tick, tickAt? time c.rate = some tick ∧ q.rate = c.rate ∧
    List.Forall₂ (fun f g => g.1 = f.1 ∧ f.2.RestsFrom tick q.samples g.2)
      c.channels.entries q.signals.entries

/-- A program in which every channel follows its timeline up to the tick of this time on the clock
of its card, and rests from then on. -/
def Program.RestsFrom (p : Program) (r : Registry) (time : Float) : Prop :=
  List.Forall₂ (fun e q => q.1 = e.1 ∧ q.2.RestsFrom e.2 time) r.cards.entries p.cards.entries

/-- A card that got its resets comes to rest in what it compiles to. -/
theorem Card.ResetAt.rests {c c' : Card} {time stop : Float} {q : CardProgram}
    (h : c.ResetAt time c') (sound : c.Sound) (compiled : (c'.compile stop).2 = .ok q) :
    q.RestsFrom c time := by
  obtain ⟨tick, es, htick, rfl, hes⟩ := h
  obtain ⟨samples, -, hrate, rfl, hsignals⟩ := compile_ok compiled
  refine ⟨tick, htick, hrate, ?_⟩
  have hchannels := (List.forall₂_and_left _ _).mpr ⟨fun f hf => sound.channels f hf, hes⟩
  refine (forall₂_comp hchannels hsignals).imp ?_
  rintro f g ⟨f', ⟨hsound, hname, hreset⟩, hsame, hcompiled⟩
  have hordered := hreset.ordered hsound.tidy
  have hsignal : f'.2.signal q.samples = .ok g.2 := by
    rwa [compileChannel, Timeline.validate_of_apart hordered.apart, Timeline.compile_snd]
      at hcompiled
  exact ⟨hsame.trans hname, hreset.rests hordered hsignal⟩

/-- The parts of a program are what the cards compile to. -/
theorem Registry.parts_of_outcome {r : Registry} {b : Backend} {asked : Option Float} {p : Program}
    (h : r.outcome b asked = .ok p) :
    List.Forall₂ (fun e q => q.1 = e.1 ∧ (e.2.compile p.stopTime).2 = .ok q.2)
      r.cards.entries p.cards.entries := by
  obtain ⟨stop, -, h⟩ := exists_of_bind_ok h
  obtain ⟨parts, hparts, h⟩ := exists_of_bind_ok h
  split at h
  case isFalse => cases h
  case isTrue =>
    cases h
    unfold Table.traverse at hparts
    cases hentries : (Table.traverseEntries (Card.compile stop) r.cards.entries).2 with
    | error e => simp [hentries, Except.map] at hparts
    | ok qs =>
      obtain rfl : ⟨qs⟩ = parts := by simpa [hentries, Except.map] using hparts
      exact (Table.traverseEntries_ok _ hentries).2

namespace Session

open Job Triple

/-- Compiled with the content that a reset left, a session has a program that comes to rest. -/
theorem compile_rests {r r' : Registry} {time : Float} (sound : r.Sound) (reset : r.ResetAt time r')
    {later done : Session}
    (same : later.registry.cards.map Card.content = r'.cards.map Card.content)
    {asked : Option Float} {stop : Float}
    (hrun : (compile asked).run.run later = (.ok stop, done)) :
    ∃ p, done.registry.program = some p ∧ p.stopTime = stop ∧ p.RestsFrom r time := by
  have hcompiled := compile_spec asked later (.start later)
  rw [hrun] at hcompiled
  obtain ⟨p, houtcome, hstop, hprogram, -⟩ := hcompiled
  refine ⟨p, hprogram, hstop.symm, ?_⟩
  obtain ⟨es, rfl, hes⟩ := reset
  have hsame := forall₂_of_map_eq (congrArg Table.entries same)
  have hsound := (List.forall₂_and_left _ _).mpr ⟨fun e he => sound.whole e he, hes⟩
  -- From a card before the reset, over that after it and the one compiled later, to its part.
  have hparts := forall₂_comp (forall₂_comp hsound hsame) (Registry.parts_of_outcome houtcome)
  refine hparts.imp ?_
  rintro e q ⟨d, ⟨c, ⟨hwhole, hname, hcard⟩, heq⟩, hpart, hq⟩
  obtain ⟨hdname, hdcontent⟩ := Prod.mk.inj heq
  rw [Card.compile_of_content hdcontent] at hq
  exact ⟨hpart.trans (hdname.trans hname), hcard.rests hwhole hq⟩

/-- Takes every channel to its idle level, or changes nothing. When it is done, every channel of
every card has gained a reset on the tick of its clock for the time given, behind all of its
bookings, and nothing else has changed but that the program is gone. As long as the content of the
cards stays the same, whatever is compiled later follows the timelines as they were before up to
that tick, where an instruction without duration goes on, and rests at the idle levels from there
to the end of the run. -/
theorem addReset_rests {s : Session} (reached : s.registry.Reached) (asked : Option Float) :
    (∀ t s', (addReset asked).run.run s = (.ok t, s') →
      t = asked.getD s.registry.lastTime ∧ s.registry.ResetAt t s'.registry ∧
      ∀ later : Session,
        later.registry.cards.map Card.content = s'.registry.cards.map Card.content →
      ∀ stopAsked stop done, (compile stopAsked).run.run later = (.ok stop, done) →
        ∃ p, done.registry.program = some p ∧ p.stopTime = stop ∧ p.RestsFrom s.registry t) ∧
    ∀ e s', (addReset asked).run.run s = (.error e, s') → s'.registry = s.registry := by
  rcases addReset_cases reached asked with ⟨t, s', hrun, hdone⟩ | ⟨e, s', hrun, hfailed⟩
  · obtain ⟨ht, -, -, _, hreset, rfl, -⟩ := hdone
    constructor
    · intro t' s'' hrun'
      cases hrun.symm.trans hrun'
      exact ⟨ht, hreset, fun later hcontent stopAsked stop done hcompile =>
        compile_rests reached.sound hreset hcontent hcompile⟩
    · intro e s'' hrun'
      cases hrun.symm.trans hrun'
  · constructor
    · intro t s'' hrun'
      cases hrun.symm.trans hrun'
    · intro e' s'' hrun'
      cases hrun.symm.trans hrun'
      rcases hfailed with ⟨-, hs⟩ | ⟨-, sent, c, rest, -, -, -, -, hs⟩ <;> exact hs.1

/-- A level that goes on, and a pulse on a card with a slower clock. -/
def unresting : Session :=
  Session.operate {}
    [.addCard "Dev1" .analog 1000, .addAnalogChannel "Dev1" 0 (-1),
      .addInstruction "Dev1" "ao0" (.holding 0.5 (.constant 2)),
      .addCard "Dev2" .digital 10, .addDigitalChannel "Dev2" 0 0 true false,
      .addInstruction "Dev2" "port0/line0" (.lasting 0 0.5 false .low)]

/-- Too early a reset is refused, a later one brings both channels to rest. -/
theorem unresting_rests :
    unresting.registry.Reached ∧
    (∃ t s', (addReset (some 0.75)).run.run unresting = (.ok t, s') ∧
      t = 0.75 ∧ unresting.registry.ResetAt t s'.registry ∧
      ∃ stop done, (compile none).run.run s' = (.ok stop, done) ∧
        ∃ p, done.registry.program = some p ∧ p.stopTime = stop ∧
          p.RestsFrom unresting.registry t) ∧
    ∃ e s', (addReset (some 0.25)).run.run unresting = (.error e, s') ∧
      s'.registry = unresting.registry := by
  have hreached : unresting.registry.Reached := Registry.Reached.empty.operate _
  have hok : ((addReset (some 0.75)).run.run unresting).1.isOk = true := by decide +kernel
  have hearly : ((addReset (some 0.25)).run.run unresting).1.isOk = false := by decide +kernel
  have hcompiles : ((compile none).run.run
      ((addReset (some 0.75)).run.run unresting).2).1.isOk = true := by decide +kernel
  refine ⟨hreached, ?_, ?_⟩
  · rcases hrun : (addReset (some 0.75)).run.run unresting with ⟨t | t, s'⟩
    · rw [hrun] at hok
      cases hok
    · obtain ⟨ht, hreset, hlater⟩ := (addReset_rests hreached (some 0.75)).1 t s' hrun
      rw [hrun] at hcompiles
      rcases hcompile : (compile none).run.run s' with ⟨stop | stop, done⟩
      · rw [hcompile] at hcompiles
        cases hcompiles
      · exact ⟨t, s', rfl, ht, hreset, stop, done, hcompile,
          hlater s' rfl none stop done hcompile⟩
  · rcases hrun : (addReset (some 0.25)).run.run unresting with ⟨e | t, s'⟩
    · exact ⟨e, s', rfl, (addReset_rests hreached (some 0.25)).2 e s' hrun⟩
    · rw [hrun] at hearly
      cases hearly

end Session

end Sequencer
