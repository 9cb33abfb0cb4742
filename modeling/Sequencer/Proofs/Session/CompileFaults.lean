import Sequencer.Proofs.Session.Effects
import Sequencer.Proofs.Timeline.Playback

namespace Sequencer

namespace Timeline.Sound

variable {kind : CardKind} {rate : Float} {t : Timeline}

theorem placed (h : t.Sound kind rate) : t.Placed where
  extent := h.tidy.extent
  sorted := h.tidy.increasing.imp fun hab => by simp [Booking.before, Booking.order_eq_lt hab]
  apart := h.tidy.apart
  playable := h.playable

/-- A timeline compiles against every stop that is not before its end. -/
theorem compiles (h : t.Sound kind rate) {stop : Nat} (hstop : t.lastTick ≤ stop) :
    ∃ s, (Card.compileChannel stop t).2 = .ok s := by
  obtain ⟨ss, hss, -⟩ := h.placed.segments_eq hstop
  have hsignal : ∃ s, t.signal stop = .ok s := by simp [signal, hss, Except.map]
  rw [Card.compileChannel, h.tidy.validate]
  change ∃ s, (t.compile stop).2 = .ok s
  rwa [compile_snd]

end Timeline.Sound

namespace Card

variable {c : Card} {stop : Float}

/-- What can be wrong with the time at which a card is to stop. -/
inductive StopFault (c : Card) (stop : Float) : RangeFault → Prop
  | offGrid (off : tickAt? stop c.rate = none) : StopFault c stop (.stopOffGrid c.name stop)
  | tooEarly {tick : Nat} (on : tickAt? stop c.rate = some tick) (early : tick < c.lastTick) :
    StopFault c stop (.stopTooEarly c.name stop tick c.lastTick)
  | noClosingTick {tick : Nat} (on : tickAt? stop c.rate = some tick)
    (ends : c.endsAt tick = true) (full : tickLimit ≤ tick + 1) :
    StopFault c stop (.noClosingTick c.name tick)

theorem stopTick_spec (c : Card) (stop : Float) :
    (∃ tick, c.stopTick stop = .ok tick ∧ c.lastTick ≤ tick) ∨
      ∃ f, c.stopTick stop = .error (.range f) ∧ c.StopFault stop f := by
  rw [stopTick_eq]
  cases htick : tickAt? stop c.rate with
  | none => exact .inr ⟨_, rfl, .offGrid htick⟩
  | some tick =>
    dsimp only
    split
    case isTrue hearly => exact .inr ⟨_, rfl, .tooEarly htick hearly⟩
    case isFalse hdone =>
      split
      case isFalse => exact .inl ⟨tick, rfl, Nat.not_lt.mp hdone⟩
      case isTrue hends =>
        split
        case isTrue => exact .inl ⟨tick + 1, rfl, by omega⟩
        case isFalse hfull => exact .inr ⟨_, rfl, .noClosingTick htick hends (Nat.not_lt.mp hfull)⟩

/-- Only the stop time can keep a card from being compiled. -/
theorem Sound.compile_error (h : c.Sound) {e : Error} (he : (c.compile stop).2 = .error e) :
    ∃ f, e = .range f ∧ c.StopFault stop f := by
  unfold compile at he
  rcases c.stopTick_spec stop with ⟨tick, htick, hlast⟩ | ⟨f, hf, hfault⟩
  case inl =>
    simp only [htick] at he
    have hchannels := map_eq_error_iff.mp he
    obtain ⟨ch, hch, herr⟩ := Table.traverse_error _ hchannels
    obtain ⟨s, hs⟩ := (h.channels ch hch).compiles (Nat.le_trans (lastTick_le hch) hlast)
    cases hs.symm.trans herr
  case inr =>
    simp only [hf, Except.error.injEq] at he
    exact ⟨f, he.symm, hfault⟩

end Card

namespace Session

open Job Triple

variable {r : Registry} {b : Backend}

/-- What compiling can be refused for, with a stop time asked for or left open. -/
inductive CompileFault (r : Registry) (b : Backend) (asked : Option Float) : Error → Prop
  /-- The stop time is not finite, or negative. -/
  | stopTime {t : Float} (asks : asked = some t) (bad : t.isFinite = false ∨ t < 0) :
    CompileFault r b asked (.range (.stopTime t))
  | noInstructions (asks : asked = none)
    (bare : ∀ c ∈ r.cards.values, ∀ t ∈ c.channels.values, t.bookings = []) :
    CompileFault r b asked (.notCompiled .noInstructions)
  | stopTick {stop : Float} {c : Card} {f : RangeFault}
    (chosen : Session.stopTime r asked = .ok stop)
    (registered : c ∈ r.cards.values) (fault : c.StopFault stop f) :
    CompileFault r b asked (.range f)
  | refused {stop : Float} (chosen : Session.stopTime r asked = .ok stop)
    (refuses : b.accepts (.compile (some stop)) = false) :
    CompileFault r b asked (.backend (.compile (some stop)))

theorem stopTime_error {asked : Option Float} {e : Error} (h : stopTime r asked = .error e) :
    CompileFault r b asked e := by
  unfold stopTime at h
  cases asked with
  | some t =>
    dsimp only at h
    split at h
    case isTrue hbad =>
      cases h
      exact .stopTime rfl (by simpa [Instruction.isSpan, Bool.and_eq_false_iff] using hbad)
    case isFalse => split at h <;> cases h
  | none =>
    dsimp only at h
    split at h
    · cases h
    case isFalse hbare =>
      cases h
      refine .noInstructions rfl fun c hc t ht => ?_
      obtain ⟨e, he, rfl⟩ := List.mem_map.mp hc
      obtain ⟨f, hf, rfl⟩ := List.mem_map.mp ht
      have hnone : ∀ e ∈ r.cards.entries, ∀ f ∈ e.2.channels.entries, f.2.bookings = [] := by
        simpa [Registry.edited, Table.any, Card.edited, Timeline.edited] using hbare
      exact hnone e he f hf

/-- Where every channel belongs to its card, it takes a wrong stop time or the backend. -/
theorem outcome_fault (sound : r.Sound) {asked : Option Float} {e : Error}
    (h : r.outcome b asked = .error e) : CompileFault r b asked e := by
  cases hstop : stopTime r asked with
  | error fault =>
    obtain rfl : fault = e := Except.error.inj ((Registry.outcome_error hstop).symm.trans h)
    exact stopTime_error hstop
  | ok stop =>
    rw [Registry.outcome_eq hstop] at h
    cases hparts : (r.cards.traverse (Card.compile stop)).2 with
    | error fault =>
      rw [hparts] at h
      obtain rfl : fault = e := Except.error.inj h
      obtain ⟨c, hc, herr⟩ := Table.traverse_error _ hparts
      obtain ⟨f, rfl, hfault⟩ := (sound.whole c hc).compile_error herr
      exact .stopTick hstop (List.mem_map_of_mem hc) hfault
    | ok parts =>
      rw [hparts] at h
      simp only [Except.bind] at h
      split at h
      · cases h
      case isFalse hrefused =>
        cases h
        exact .refused hstop (Bool.eq_false_iff.mpr hrefused)

/-- Timelines never make compiling fail. In every registry that operations lead to, done or failed,
each channel is kept under its own name, is of the kind and runs at the rate of its card, and
carries only instructions that it can follow and that stay out of each other's way. So whatever
stop time is asked for, compiling is only refused for the stop time or by the backend. -/
theorem compile_fails_only {s : Session} (reached : s.registry.Reached) (asked : Option Float) :
    s.registry.Sound ∧ ∀ e s', (compile asked).run.run s = (.error e, s') →
      CompileFault s.registry s.backend asked e ∧
        (∀ channel new existing, e ≠ .overlap channel new existing) ∧
        (∀ channel action, e ≠ .range (.cannotGenerate channel action)) ∧
        ∀ channel stop last, e ≠ .range (.stopBeforeEnd channel stop last) := by
  refine ⟨reached.sound, fun e s' hfails => ?_⟩
  have hdenied := (compile_spec asked).fault_of_run (.start s) hfails
  have hfault := outcome_fault reached.sound hdenied.1
  refine ⟨hfault, ?_, ?_, ?_⟩
  · rintro channel new existing rfl
    cases hfault
  · rintro channel action rfl
    cases hfault with
    | stopTick _ _ fault => cases fault
  · rintro channel stop last rfl
    cases hfault with
    | stopTick _ _ fault => cases fault

/-- A level on one channel, an overlapping one that is refused, and a backend that does not take
over the program. -/
def refusedProgram : Session :=
  Session.operate { backend := { failing := [.compile (some 1)] } }
    [.addCard "Dev1" .analog 1000, .addAnalogChannel "Dev1" 0 0,
      .addInstruction "Dev1" "ao0" (.lasting 0 0.5 false (.constant 1)),
      .addInstruction "Dev1" "ao0" (.lasting 0.25 0.5 false (.constant 2))]

theorem refusedProgram_fails_only :
    refusedProgram.registry.Sound ∧
      ∃ e s', (compile (some 1)).run.run refusedProgram = (.error e, s') ∧
        CompileFault refusedProgram.registry refusedProgram.backend (some 1) e := by
  have hreached : refusedProgram.registry.Reached := Registry.Reached.empty.operate _
  have hfails : ((compile (some 1)).run.run refusedProgram).1.isOk = false := by decide +kernel
  obtain ⟨hsound, honly⟩ := compile_fails_only hreached (some 1)
  refine ⟨hsound, ?_⟩
  rcases hrun : (compile (some 1)).run.run refusedProgram with ⟨result, s'⟩
  cases result with
  | ok t =>
    rw [hrun] at hfails
    cases hfails
  | error e => exact ⟨e, s', rfl, (honly e s' hrun).1⟩

end Session

end Sequencer
