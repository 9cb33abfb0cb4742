import Mathlib.Data.List.Forall2
import Sequencer.Proofs.Card.Outline

namespace Sequencer

/-- Constant waves on opposite levels. -/
def Waveform.Complement (w v : Waveform) : Prop :=
  ∃ on, w = .const (Line.level on) ∧ v = .const (Line.level !on)

theorem Waveform.Complement.beq {w w' v v' : Waveform} (h : w.Complement v)
    (h' : w'.Complement v') : (v == v') = (w == w') := by
  obtain ⟨on, rfl, rfl⟩ := h
  obtain ⟨on', rfl, rfl⟩ := h'
  cases on <;> cases on' <;> rfl

/-- What plain and inverted lines do for the same logical state. -/
inductive Action.Mirrors : Action → Action → Prop
  | switch (on lasting : Bool) :
    Mirrors (Line.digital.switch on lasting) (Line.inverted.switch on lasting)
  | reset : Mirrors .reset .reset

/-- Bookings of the same ticks that bring out the same logical state. -/
structure Booking.Mirrors (b b' : Booking) : Prop where
  same : b' = { b with instr := { b.instr with action := b'.instr.action } }
  action : b.instr.action.Mirrors b'.instr.action

namespace Booking.Mirrors

variable {b b' : Booking}

theorem start (h : b.Mirrors b') : b'.start = b.start := by rw [h.same]

theorem stop (h : b.Mirrors b') : b'.stop = b.stop := by rw [h.same]

theorem duration (h : b.Mirrors b') : b'.instr.duration = b.instr.duration := by rw [h.same]

theorem keep (h : b.Mirrors b') : b'.instr.keep = b.instr.keep := by rw [h.same]

theorem stop? (h : b.Mirrors b') : b'.instr.stop? = b.instr.stop? := by
  rw [h.same]
  rfl

end Booking.Mirrors

/-- A plain line and an inverted one with the same logical states. -/
structure Timeline.Mirrors (t t' : Timeline) : Prop where
  plain : t.line = .digital
  inverted : t'.line = .inverted
  registered : t'.registered = t.registered
  bookings : List.Forall₂ Booking.Mirrors t.bookings t'.bookings

/-- Segments up to the same tick on opposite levels. -/
def Segment.Complement (s s' : Segment) : Prop := s'.stop = s.stop ∧ s.wave.Complement s'.wave

/-- Both lines can follow the instruction, on opposite levels. -/
theorem Action.Mirrors.wave? {i i' : Instruction} (h : i.action.Mirrors i'.action) (on : Bool) :
    ∃ w w', Line.digital.wave? i (Line.level on) = some w ∧
      Line.inverted.wave? i' (Line.level !on) = some w' ∧ w.Complement w' := by
  obtain ⟨start, duration, keep, action⟩ := i
  obtain ⟨start', duration', keep', action'⟩ := i'
  cases h with
  | switch state lasting =>
    refine ⟨.const (Line.level state), .const (Line.level !state), ?_, ?_, state, rfl, rfl⟩
    · cases state <;> cases lasting <;> rfl
    · cases state <;> cases lasting <;> rfl
  | reset => exact ⟨_, _, rfl, rfl, on, rfl, rfl⟩

namespace Timeline

variable {t t' : Timeline}

namespace Mirrors

theorem idle (h : t.Mirrors t') :
    t.idle = Line.level (t.registered != 0) ∧ t'.idle = Line.level !(t.registered != 0) := by
  refine ⟨by rw [Timeline.idle, h.plain]; rfl, ?_⟩
  rw [Timeline.idle, h.inverted, h.registered]
  simp [Line.idle, bne]

theorem lastTick (h : t.Mirrors t') : t'.lastTick = t.lastTick := by
  have hstops : t'.bookings.map (·.stop) = t.bookings.map (·.stop) := by
    refine ((congrFun₂ List.forall₂_eq_eq_eq _ _).mp ?_).symm
    exact List.forall₂_map_left_iff.mpr (List.forall₂_map_right_iff.mpr
      (h.bookings.imp fun _ _ hb => hb.stop.symm))
  have hlast : ∀ t : Timeline, t.lastTick = (t.bookings.map (·.stop)).getLast?.getD 0 := by
    intro t
    rw [List.getLast?_map, Timeline.lastTick]
    cases t.bookings.getLast? <;> rfl
  rw [hlast, hlast, hstops]

end Mirrors

theorem padding_complement (held : Bool) (last start : Nat) : List.Forall₂ Segment.Complement
    (padding (Line.level held) last start) (padding (Line.level !held) last start) := by
  unfold padding
  split
  · exact .cons ⟨rfl, held, rfl, rfl⟩ .nil
  · exact .nil

/-- The levels once a booking is over are opposite if they were before it. -/
theorem heldAfter_complement {b b' : Booking} (h : b.Mirrors b') {w w' : Waveform}
    (hw : w.Complement w') (idle held : Bool) :
    ∃ after, heldAfter (Line.level idle) (Line.level held) b w = Line.level after ∧
      heldAfter (Line.level !idle) (Line.level !held) b' w' = Line.level !after := by
  obtain ⟨on, rfl, rfl⟩ := hw
  unfold heldAfter
  rw [h.keep, h.stop?]
  cases b.instr.stop? with
  | none => exact ⟨held, rfl, rfl⟩
  | some t =>
    dsimp only
    split
    · exact ⟨on, rfl, rfl⟩
    · exact ⟨idle, rfl, rfl⟩

theorem segmentStop_mirrors {b b' : Booking} {bs bs' : List Booking} (h : b.Mirrors b')
    (hbs : List.Forall₂ Booking.Mirrors bs bs') (stop : Nat) :
    segmentStop stop b' bs' = segmentStop stop b bs := by
  unfold segmentStop Instruction.holds
  rw [h.duration, h.stop]
  cases hbs with
  | nil => rfl
  | cons hnext _ =>
    rw [List.head?_cons, List.head?_cons, Option.map_some, Option.map_some, hnext.start]

/-- From opposite levels on, the segments of both lines are on opposite levels. -/
theorem Mirrors.segmentsFrom (h : t.Mirrors t') (stop : Nat) {bs bs' : List Booking}
    (hbs : List.Forall₂ Booking.Mirrors bs bs') (held : Bool) (last : Nat) (bare : Bool) :
    ∃ ss ss', t.segmentsFrom stop (Line.level held) last bare bs = .ok ss ∧
      t'.segmentsFrom stop (Line.level !held) last bare bs' = .ok ss' ∧
      List.Forall₂ Segment.Complement ss ss' := by
  induction hbs generalizing held last bare with
  | nil =>
    unfold Timeline.segmentsFrom
    split
    · exact ⟨_, _, rfl, rfl, .cons ⟨rfl, held, rfl, rfl⟩ .nil⟩
    · exact ⟨_, _, rfl, rfl, .nil⟩
  | @cons b b' bs bs' hb hbs ih =>
    obtain ⟨hidle, hidle'⟩ := h.idle
    obtain ⟨w, w', hw, hw', hcomplement⟩ := hb.action.wave? (t.registered != 0)
    obtain ⟨after, hafter, hafter'⟩ := heldAfter_complement hb hcomplement (t.registered != 0) held
    obtain ⟨ss, ss', hss, hss', hrest⟩ := ih after (segmentStop stop b bs) false
    refine ⟨padding (Line.level held) last b.start ++ ⟨segmentStop stop b bs, w⟩ :: ss,
      padding (Line.level !held) last b'.start ++ ⟨segmentStop stop b bs, w'⟩ :: ss', ?_, ?_, ?_⟩
    · simp only [Timeline.segmentsFrom, h.plain, hidle, hw, hafter, hss]
      rfl
    · simp only [Timeline.segmentsFrom, h.inverted, hidle', hw', hafter',
        segmentStop_mirrors hb hbs, hss']
      rfl
    · rw [hb.start]
      exact List.rel_append (padding_complement held last b.start) (.cons ⟨rfl, hcomplement⟩ hrest)

theorem mergeFrom_complement {s s' : Segment} {ss ss' : List Segment} (hs : s.Complement s')
    (h : List.Forall₂ Segment.Complement ss ss') :
    List.Forall₂ Segment.Complement (mergeFrom s ss) (mergeFrom s' ss') := by
  induction h generalizing s s' with
  | nil => exact .cons hs .nil
  | cons hnext hrest ih =>
    unfold mergeFrom
    rw [hs.2.beq hnext.2]
    split
    · exact ih ⟨hnext.1, hs.2⟩
    · exact .cons hs (ih hnext)

theorem merge_complement {ss ss' : List Segment} (h : List.Forall₂ Segment.Complement ss ss') :
    List.Forall₂ Segment.Complement (merge ss) (merge ss') := by
  cases h with
  | nil => exact .nil
  | cons hs hrest => exact mergeFrom_complement hs hrest

/-- Wherever the run stops, both lines are compiled, to segments that end together on opposite
levels. -/
theorem Mirrors.compile (h : t.Mirrors t') {stop : Nat} (hstop : t.lastTick ≤ stop) :
    ∃ s s' : Signal, (t.compile stop).2 = .ok s ∧ (t'.compile stop).2 = .ok s' ∧
      s'.ends = s.ends ∧ List.Forall₂ Waveform.Complement s.waves s'.waves := by
  obtain ⟨hidle, hidle'⟩ := h.idle
  obtain ⟨ss, ss', hss, hss', hcomplement⟩ :=
    h.segmentsFrom stop h.bookings (t.registered != 0) 0 true
  rw [← hidle] at hss
  rw [← hidle'] at hss'
  have hmerged := merge_complement hcomplement
  have hends : (merge ss').map (·.stop) = (merge ss).map (·.stop) := by
    refine ((congrFun₂ List.forall₂_eq_eq_eq _ _).mp ?_).symm
    exact List.forall₂_map_left_iff.mpr (List.forall₂_map_right_iff.mpr
      (hmerged.imp fun _ _ hs => hs.1.symm))
  have hwaves : List.Forall₂ Waveform.Complement ((merge ss).map (·.wave))
      ((merge ss').map (·.wave)) :=
    List.forall₂_map_left_iff.mpr (List.forall₂_map_right_iff.mpr (hmerged.imp fun _ _ hs => hs.2))
  have hsignal : ∀ (t : Timeline) (ss : List Segment), t.lastTick ≤ stop →
      t.segmentsFrom stop t.idle 0 true t.bookings = .ok ss → (t.compile stop).2 =
        .ok ⟨t.rate, (merge ss).map (·.stop), (merge ss).map (·.wave), t.edited, t.lastTime⟩ := by
    intro t ss hle hss
    rw [compile_snd, signal, segments, if_neg (Nat.not_lt.mpr hle), hss]
    rfl
  exact ⟨_, _, hsignal t ss hstop hss, hsignal t' ss' (h.lastTick ▸ hstop) hss', hends, hwaves⟩

end Timeline

end Sequencer
