import Sequencer.Proofs.Card.Content
import Sequencer.Proofs.Timeline.Acceptance

namespace Sequencer

namespace Timeline

/-- Bookings that take up at least a tick each, in order and without overlaps. -/
structure Ordered (t : Timeline) : Prop where
  extent : ∀ b ∈ t.bookings, b.start < b.stop
  sorted : t.bookings.Pairwise fun a b => a.before b = true
  apart : t.bookings.Pairwise fun a b => a.overlaps b = false

/-- Segments exist only where every booking is within the means of the channel. -/
theorem playable_of_segmentsFrom {t : Timeline} {stop last : Nat} {held : Float} {bare : Bool}
    {bs : List Booking} {ss : List Segment} (h : t.segmentsFrom stop held last bare bs = .ok ss) :
    ∀ b ∈ bs, (t.line.wave? b.instr t.idle).isSome = true := by
  induction bs generalizing held last bare ss with
  | nil => simp
  | cons b rest ih =>
    unfold segmentsFrom at h
    cases hw : t.line.wave? b.instr t.idle with
    | none => simp [hw] at h
    | some w =>
      simp only [hw] at h
      cases hmore : t.segmentsFrom stop (heldAfter t.idle held b w) (segmentStop stop b rest) false
          rest with
      | error e => simp [hmore, bind, Except.bind] at h
      | ok more =>
        intro c hc
        rcases List.mem_cons.mp hc with rfl | hc
        · rw [hw, Option.isSome_some]
        · exact ih hmore c hc

/-- A timeline that compiled was not over before the stop, and could be played. -/
theorem of_signal_ok {t : Timeline} {stop : Nat} {s : Signal} (h : t.signal stop = .ok s) :
    t.lastTick ≤ stop ∧ (∀ b ∈ t.bookings, (t.line.wave? b.instr t.idle).isSome = true) ∧
      ∃ ss, t.segments stop = .ok ss ∧ s.ends = ss.map (·.stop) ∧ s.waves = ss.map (·.wave) := by
  unfold signal at h
  cases hss : t.segments stop with
  | error e => simp [hss, Except.map] at h
  | ok ss =>
    simp only [hss, Except.map, Except.ok.injEq] at h
    subst s
    unfold segments at hss
    split at hss
    · cases hss
    · rename_i hlast
      refine ⟨Nat.not_lt.mp hlast, ?_, ss, rfl, rfl, rfl⟩
      cases hfrom : t.segmentsFrom stop t.idle 0 true t.bookings with
      | error e => simp [hfrom, Except.map] at hss
      | ok us => exact playable_of_segmentsFrom hfrom

/-- What a channel puts out right after `b`, an instruction with a duration: the instruction that
follows at once, or else the level that `b` leaves behind. -/
inductive Following (t : Timeline) (b : Booking) : Waveform → Prop
  | next {n : Booking} {w : Waveform} (mem : n ∈ t.bookings) (begins : n.start = b.stop)
    (plays : t.line.wave? n.instr t.idle = some w) : Following t b w
  | padding {w : Waveform} (free : ∀ n ∈ t.bookings, n.start ≠ b.stop)
    (plays : t.line.wave? b.instr t.idle = some w) :
    Following t b (.const (heldAfter t.idle t.idle b w))

/-- The booking that governs a tick is the last one to have begun. -/
theorem governing?_latest {k : Nat} {bs : List Booking} {g : Booking}
    (hsorted : bs.Pairwise fun a b => a.start ≤ b.start) (hg : governing? k bs = some g) :
    g ∈ bs ∧ g.start ≤ k ∧ ∀ c ∈ bs, c.start ≤ k → c.start ≤ g.start := by
  unfold governing? at hg
  have hmem := List.mem_of_getLast? hg
  obtain ⟨front, he⟩ := List.getLast?_eq_some_iff.mp hg
  have hfiltered := hsorted.filter fun b => b.start ≤ k
  rw [he] at hfiltered
  have hfront := (List.pairwise_append.mp hfiltered).2.2
  refine ⟨(List.mem_filter.mp hmem).1, by simpa using (List.mem_filter.mp hmem).2, ?_⟩
  intro c hc hk
  have hin : c ∈ front ++ [g] := he ▸ List.mem_filter.mpr ⟨hc, by simpa using hk⟩
  rcases List.mem_append.mp hin with hin | hin
  · exact hfront c hin g List.mem_cons_self
  · rw [List.mem_singleton.mp hin]

namespace Ordered

variable {t : Timeline} {b : Booking}

theorem separate (h : t.Ordered) : t.bookings.Pairwise fun a b => a.stop ≤ b.start :=
  Booking.separate_of_apart h.extent (h.sorted.imp Booking.start_le_of_before) h.apart

theorem starts_ascend (h : t.Ordered) : t.bookings.Pairwise fun a b => a.start ≤ b.start :=
  h.sorted.imp Booking.start_le_of_before

theorem separate_of_ne (h : t.Ordered) {c : Booking} (hb : b ∈ t.bookings) (hc : c ∈ t.bookings)
    (hne : b ≠ c) : b.stop ≤ c.start ∨ c.stop ≤ b.start := by
  have : Std.Symm fun a b : Booking => a.stop ≤ b.start ∨ b.stop ≤ a.start :=
    ⟨fun _ _ => Or.symm⟩
  have hapart : t.bookings.Pairwise fun a b => a.stop ≤ b.start ∨ b.stop ≤ a.start :=
    h.separate.imp .inl
  exact hapart.forall hb hc hne

/-- A booking that ends with the timeline is its last one. -/
theorem getLast?_of_stop (h : t.Ordered) (hb : b ∈ t.bookings) (hstop : b.stop = t.lastTick) :
    t.bookings.getLast? = some b := by
  obtain ⟨front, rest, he⟩ := List.append_of_mem hb
  have hsep := h.separate
  rw [he] at hsep
  have hrest := (List.pairwise_cons.mp (List.pairwise_append.mp hsep).2.1).1
  have hnil : rest = [] := List.eq_nil_iff_forall_not_mem.mpr fun n hn => by
    have hmem : n ∈ t.bookings := by simp [he, hn]
    have hlate := stop_le_lastTick h.extent h.separate n hmem
    have hroom := h.extent n hmem
    have hafter := hrest n hn
    omega
  simp [he, hnil]

/-- The last instruction of a channel tells whether any of them lasts until `tick`. -/
theorem endsAt_iff (h : t.Ordered) {tick : Nat} (hlast : t.lastTick ≤ tick) :
    t.endsAt tick = true ↔ ∃ b ∈ t.bookings, b.instr.holds = false ∧ b.stop = tick := by
  constructor
  · intro hends
    unfold endsAt at hends
    split at hends
    · rename_i b hb
      simp only [Bool.and_eq_true, Bool.not_eq_true', beq_iff_eq] at hends
      exact ⟨b, List.mem_of_getLast? hb, hends⟩
    · cases hends
  · rintro ⟨b, hb, hlasts, rfl⟩
    have hstop := stop_le_lastTick h.extent h.separate b hb
    have hend := h.getLast?_of_stop hb (by omega)
    simp [endsAt, hend, hlasts]

/-- The tick after an instruction with a duration has its meaning from what follows. -/
theorem following (h : t.Ordered) (hb : b ∈ t.bookings) (hlasts : b.instr.holds = false)
    {v : Waveform} (hv : t.waveAt? b.stop = some v) : t.Following b v := by
  have hroom := h.extent b hb
  obtain ⟨g, hg⟩ := Option.ne_none_iff_exists'.mp (governing?_isSome hb (Nat.le_of_lt hroom))
  obtain ⟨hmem, hbegun, hlatest⟩ := governing?_latest h.starts_ascend hg
  unfold waveAt? waveFrom? at hv
  rw [hg] at hv
  obtain ⟨w, hw, rfl⟩ := Option.map_eq_some_iff.mp hv
  by_cases hnext : g.start = b.stop
  · have hin : b.stop < g.stop := hnext ▸ h.extent g hmem
    have hwave : g.waveAt t.idle b.stop w = w := by
      unfold Booking.waveAt
      cases g.instr.stop? <;> simp [hin]
    rw [hwave]
    exact .next hmem hnext hw
  · -- Nothing else has begun since `b`, and nothing begins as it ends.
    have hafter := hlatest b hb (Nat.le_of_lt hroom)
    obtain rfl : g = b := by
      by_contra hne
      rcases h.separate_of_ne hmem hb hne with hgb | hbg
      · have := h.extent g hmem
        omega
      · omega
    obtain ⟨d, hd⟩ := Option.isSome_iff_exists.mp (Option.isNone_eq_false_iff.mp hlasts)
    have hwave : g.waveAt t.idle g.stop w = .const (heldAfter t.idle t.idle g w) := by
      simp [Booking.waveAt, heldAfter, Instruction.stop?, hd]
    rw [hwave]
    refine .padding (fun n hn hstart => ?_) hw
    have := hlatest n hn (Nat.le_of_eq hstart)
    omega

/-- What a timeline compiled to ends at the stop, and puts out on every tick before it what the
timeline means there. -/
theorem signal_plays (h : t.Ordered) {stop : Nat} {s : Signal} (hs : t.signal stop = .ok s) :
    s.ends.getLast? = some stop ∧ t.lastTick ≤ stop ∧ ∀ k < stop, (∃ i, s.Covers i k) ∧
      ∀ i, s.Covers i k → ∃ w v, s.waves[i]? = some w ∧ t.waveAt? k = some v ∧ w.Agrees v := by
  obtain ⟨hlast, hplay, ss, hss, hends, hwaves⟩ := of_signal_ok hs
  have placed : t.Placed := ⟨h.extent, h.sorted, h.apart, hplay⟩
  obtain ⟨us, hus, hplays⟩ := placed.segments_eq hlast
  obtain rfl : merge us = ss := by simpa [hss] using hus.symm
  rcases hplays with ⟨rfl, rfl⟩ | ⟨hpos, hplays⟩
  · exact ⟨by simp [hends, merge, mergeFrom], hlast, by simp⟩
  · have hmerged : Plays (fun k w => ∃ v, t.waveAt? k = some v ∧ w.Agrees v) stop 0 (merge us) :=
      merge_plays hplays fun k w v hv hw => ⟨v, hv, hw⟩
    refine ⟨hends ▸ hmerged.last_stop hpos, hlast, fun k hk => ⟨?_, ?_⟩⟩
    · obtain ⟨i, u, hi, hlo, hhi⟩ := hmerged.exists_segment (Nat.zero_le k) hk
      exact ⟨i, hends ▸ hlo, by simpa [hends, hi] using hhi⟩
    · rintro i ⟨hlo, hhi⟩
      rw [hends] at hlo hhi
      cases hi : (merge us)[i]? with
      | none => simp [hi] at hhi
      | some u =>
        obtain ⟨v, hv, hw⟩ := hmerged.wave_at hi hlo (by simpa [hi] using hhi)
        exact ⟨u.wave, v, by simp [hwaves, hi], hv, hw⟩

/-- A compiled channel ends with the card, plays all of its instructions to the end, and puts out
what comes after each instruction with a duration unless that reaches the end of the signal. -/
theorem compiled (h : t.Ordered) {stop : Nat} {s : Signal} (hs : t.signal stop = .ok s) :
    s.ends.getLast? = some stop ∧ (∀ b ∈ t.bookings, b.stop ≤ stop) ∧
      ∀ b ∈ t.bookings, b.instr.holds = false → b.stop < stop →
        ∃ i w v, s.Covers i b.stop ∧ s.waves[i]? = some w ∧ t.Following b v ∧ w.Agrees v := by
  obtain ⟨hend, hlast, hplays⟩ := h.signal_plays hs
  refine ⟨hend, fun b hb => ?_, fun b hb hlasts hlt => ?_⟩
  · exact Nat.le_trans (stop_le_lastTick h.extent h.separate b hb) hlast
  · obtain ⟨⟨i, hcovers⟩, hwaves⟩ := hplays b.stop hlt
    obtain ⟨w, v, hw, hv, hagrees⟩ := hwaves i hcovers
    exact ⟨i, w, v, hcovers, hw, h.following hb hlasts hv, hagrees⟩

end Ordered

end Timeline

namespace Card

variable {c : Card}

/-- One look at the last instruction of each channel tells whether any instruction on the card lasts
until `tick`. -/
theorem endsAt_iff (h : ∀ e ∈ c.channels.entries, e.2.Ordered) {tick : Nat}
    (hlast : c.lastTick ≤ tick) : c.endsAt tick = true ↔
      ∃ e ∈ c.channels.entries, ∃ b ∈ e.2.bookings, b.instr.holds = false ∧ b.stop = tick := by
  unfold endsAt Table.any
  rw [List.any_eq_true]
  refine exists_congr fun e => and_congr_right fun he => ?_
  exact (h e he).endsAt_iff (Nat.le_trans (lastTick_le he) hlast)

/-- What a card compiles to in samples: its stop tick, and one more if an instruction lasts until
then. -/
theorem samples_of_stopTick (h : ∀ e ∈ c.channels.entries, e.2.Ordered) {stop : Float}
    {samples : Nat} (hs : c.stopTick stop = .ok samples) :
    ∃ tick, tickAt? stop c.rate = some tick ∧ c.lastTick ≤ tick ∧
      ((∃ e ∈ c.channels.entries, ∃ b ∈ e.2.bookings, b.instr.holds = false ∧ b.stop = tick) ∧
          samples = tick + 1 ∨
        (¬∃ e ∈ c.channels.entries, ∃ b ∈ e.2.bookings, b.instr.holds = false ∧ b.stop = tick) ∧
          samples = tick) := by
  rw [stopTick_eq] at hs
  cases htick : tickAt? stop c.rate with
  | none => simp [htick] at hs
  | some tick =>
    simp only [htick] at hs
    split at hs
    case isTrue => cases hs
    case isFalse hearly =>
      have hlast := Nat.not_lt.mp hearly
      refine ⟨tick, rfl, hlast, ?_⟩
      rw [← endsAt_iff h hlast]
      split at hs
      case isTrue hends =>
        split at hs
        case isTrue => exact .inl ⟨hends, (Except.ok.inj hs).symm⟩
        case isFalse => cases hs
      case isFalse hends => exact .inr ⟨hends, (Except.ok.inj hs).symm⟩

/-- A compiled card stops on the tick nearest to the stop time, or on the one after it if some
instruction with a duration on some channel ends exactly there. All channels, the empty ones
included, end with the card. None of their instructions is cut short, and after every instruction
with a duration there is a tick left that the following instruction or the level left behind
takes up. -/
theorem compile_closes_edges (c : Card) (stop : Float) (q : CardProgram)
    (ordered : ∀ e ∈ c.channels.entries, e.2.Ordered) (h : (c.compile stop).2 = .ok q) :
    ∃ tick, tickAt? stop c.rate = some tick ∧
      ((∃ e ∈ c.channels.entries, ∃ b ∈ e.2.bookings, b.instr.holds = false ∧ b.stop = tick) ∧
          q.samples = tick + 1 ∨
        (¬∃ e ∈ c.channels.entries, ∃ b ∈ e.2.bookings, b.instr.holds = false ∧ b.stop = tick) ∧
          q.samples = tick) ∧
      List.Forall₂ (fun e r => r.1 = e.1 ∧ r.2.ends.getLast? = some q.samples ∧
        (∀ b ∈ e.2.bookings, b.stop ≤ q.samples) ∧
        ∀ b ∈ e.2.bookings, b.instr.holds = false → b.stop < q.samples ∧
          ∃ i w v, r.2.Covers i b.stop ∧ r.2.waves[i]? = some w ∧ e.2.Following b v ∧ w.Agrees v)
        c.channels.entries q.signals.entries := by
  obtain ⟨samples, hsamples, -, rfl, hchannels⟩ := compile_ok h
  obtain ⟨tick, htick, hlast, hcount⟩ := samples_of_stopTick ordered hsamples
  refine ⟨tick, htick, hcount, ?_⟩
  have hentries := (List.forall₂_and_left _ _).mpr ⟨fun e he => he, hchannels⟩
  refine hentries.imp fun e r ⟨he, hname, hcompiled⟩ => ?_
  have hsignal : e.2.signal q.samples = .ok r.2 := by
    rwa [compileChannel, Timeline.validate_of_apart (ordered e he).apart,
      Timeline.compile_snd] at hcompiled
  obtain ⟨hend, hstops, hfollowing⟩ := (ordered e he).compiled hsignal
  refine ⟨hname, hend, hstops, fun b hb hlasts => ?_⟩
  have hroom : b.stop < q.samples := by
    have hbooked := Timeline.stop_le_lastTick (ordered e he).extent (ordered e he).separate b hb
    have hcard := lastTick_le he
    rcases hcount with ⟨-, hmore⟩ | ⟨hnone, hsame⟩
    · omega
    · have hne : b.stop ≠ tick := fun heq => hnone ⟨e, he, b, hb, hlasts, heq⟩
      omega
  exact ⟨hroom, hfollowing b hb hlasts hroom⟩

/-- A pulse from 1 s to 2 s on one line of a card, and nothing on another. -/
def pulseCard : Card :=
  { name := "Dev1", kind := .digital, rate := 10,
    channels := ⟨[
      ("port0/line0",
        { name := "port0/line0", line := .digital, rate := 10, registered := 0,
          bookings := [⟨10, 20, 0, .lasting 1 1 false .high⟩], nextSeq := 1, fresh := false }),
      ("port0/line1", { name := "port0/line1", line := .digital, rate := 10, registered := 0 })]⟩ }

/-- Stopped with the pulse, the card plays one tick more, on both of its lines. -/
def pulseProgram : CardProgram :=
  ⟨10, 21, ⟨[("port0/line0", ⟨10, [10, 20, 21], [.const 0, .const 1, .const 0], true, 2⟩),
    ("port0/line1", ⟨10, [21], [.const 0], false, 0⟩)]⟩⟩

theorem pulseCard_closes_edges :
    (∀ e ∈ pulseCard.channels.entries, e.2.Ordered) ∧
    (pulseCard.compile 2).2 = .ok pulseProgram ∧
    ∃ tick, tickAt? 2 pulseCard.rate = some tick ∧
      ((∃ e ∈ pulseCard.channels.entries, ∃ b ∈ e.2.bookings,
            b.instr.holds = false ∧ b.stop = tick) ∧ pulseProgram.samples = tick + 1 ∨
        (¬∃ e ∈ pulseCard.channels.entries, ∃ b ∈ e.2.bookings,
            b.instr.holds = false ∧ b.stop = tick) ∧ pulseProgram.samples = tick) ∧
      List.Forall₂ (fun e r => r.1 = e.1 ∧ r.2.ends.getLast? = some pulseProgram.samples ∧
        (∀ b ∈ e.2.bookings, b.stop ≤ pulseProgram.samples) ∧
        ∀ b ∈ e.2.bookings, b.instr.holds = false → b.stop < pulseProgram.samples ∧
          ∃ i w v, r.2.Covers i b.stop ∧ r.2.waves[i]? = some w ∧ e.2.Following b v ∧ w.Agrees v)
        pulseCard.channels.entries pulseProgram.signals.entries := by
  have ordered : ∀ e ∈ pulseCard.channels.entries, e.2.Ordered := by
    intro e he
    simp only [pulseCard, List.mem_cons, List.not_mem_nil, or_false] at he
    rcases he with rfl | rfl
    · exact ⟨by decide, by decide, by decide⟩
    · exact ⟨by decide, by decide, by decide⟩
  have compiles : (pulseCard.compile 2).2 = .ok pulseProgram := by rfl
  exact ⟨ordered, compiles, compile_closes_edges pulseCard 2 pulseProgram ordered compiles⟩

end Card

end Sequencer
