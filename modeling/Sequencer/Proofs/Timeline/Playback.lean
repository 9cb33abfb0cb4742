import Sequencer.Proofs.Timeline.Segments

namespace Sequencer

namespace Booking

theorem start_le_of_before {a b : Booking} (h : a.before b = true) : a.start ≤ b.start := by
  simp only [before, order, beq_iff_eq, Ordering.then_eq_lt, Nat.compare_eq_lt,
    Nat.compare_eq_eq] at h
  omega

theorem overlaps_eq_false {a b : Booking} :
    a.overlaps b = false ↔ b.stop ≤ a.start ∨ a.stop ≤ b.start := by
  simp only [overlaps, Bool.and_eq_false_iff, decide_eq_false_iff_not]
  omega

/-- Bookings in order that do not overlap follow one another. -/
theorem separate_of_apart {bs : List Booking} (hext : ∀ b ∈ bs, b.start < b.stop)
    (hsorted : bs.Pairwise fun a b => a.start ≤ b.start)
    (hapart : bs.Pairwise fun a b => a.overlaps b = false) :
    bs.Pairwise fun a b => a.stop ≤ b.start := by
  apply (hsorted.and hapart).imp_of_mem
  intro a b _ hb hab
  have hroom := hext b hb
  rcases overlaps_eq_false.mp hab.2 with hba | hab
  · omega
  · exact hab

/-- What a channel puts out on tick `k` when `b`, of waveform `w`, is the last booking to have
begun. -/
def waveAt (idle : Float) (k : Nat) (w : Waveform) (b : Booking) : Waveform :=
  match b.instr.stop? with
  | none => w
  | some t => if k < b.stop then w else .const (if b.instr.keep then w.eval t else idle)

end Booking

namespace Timeline

/-- The last booking that has begun by tick `k`. -/
def governing? (k : Nat) (bs : List Booking) : Option Booking :=
  (bs.filter fun b => b.start ≤ k).getLast?

/-- The tick-by-tick meaning of bookings on a channel that is at level `held` before the first. -/
def waveFrom? (t : Timeline) (held : Float) (bs : List Booking) (k : Nat) : Option Waveform :=
  match governing? k bs with
  | none => some (.const held)
  | some b => (t.line.wave? b.instr t.idle).map fun w => b.waveAt t.idle k w

/-- The tick-by-tick meaning of a timeline. -/
def waveAt? (t : Timeline) (k : Nat) : Option Waveform := t.waveFrom? t.idle t.bookings k

/-- Bookings that take up at least a tick each, in order and without overlaps, all of them within
the means of the channel. -/
structure Placed (t : Timeline) : Prop where
  extent : ∀ b ∈ t.bookings, b.start < b.stop
  sorted : t.bookings.Pairwise fun a b => a.before b = true
  apart : t.bookings.Pairwise fun a b => a.overlaps b = false
  playable : ∀ b ∈ t.bookings, (t.line.wave? b.instr t.idle).isSome = true

theorem Placed.separate {t : Timeline} (h : t.Placed) :
    t.bookings.Pairwise fun a b => a.stop ≤ b.start :=
  Booking.separate_of_apart h.extent (h.sorted.imp Booking.start_le_of_before) h.apart

/-- The end of a sorted timeline is the end of its last booking, and no booking is over later. -/
theorem stop_le_lastTick {t : Timeline} (hext : ∀ b ∈ t.bookings, b.start < b.stop)
    (hsep : t.bookings.Pairwise fun a b => a.stop ≤ b.start) :
    ∀ b ∈ t.bookings, b.stop ≤ t.lastTick := by
  intro b hb
  obtain ⟨front, last, he⟩ : ∃ front last, t.bookings = front ++ [last] :=
    ⟨_, _, (List.dropLast_append_getLast (List.ne_nil_of_mem hb)).symm⟩
  have hlast : t.lastTick = last.stop := by simp [lastTick, he]
  have hroom := hext last (by simp [he])
  rw [he] at hb hsep
  rw [hlast]
  rcases List.mem_append.mp hb with hb | hb
  · have hstop := (List.pairwise_append.mp hsep).2.2 b hb last (by simp)
    omega
  · exact Nat.le_of_eq (congrArg Booking.stop (List.mem_singleton.mp hb))

theorem governing?_eq_none {k : Nat} {bs : List Booking} (h : ∀ b ∈ bs, k < b.start) :
    governing? k bs = none := by
  have hf : (bs.filter fun b => b.start ≤ k) = [] :=
    List.filter_eq_nil_iff.mpr fun b hb => by simpa using h b hb
  simp [governing?, hf]

theorem governing?_cons {k : Nat} {b : Booking} {rest : List Booking} (h : b.start ≤ k) :
    governing? k (b :: rest) = some ((governing? k rest).getD b) := by
  simp [governing?, h, List.getLast?_cons]

theorem governing?_isSome {k : Nat} {b : Booking} {bs : List Booking} (hb : b ∈ bs)
    (hk : b.start ≤ k) : governing? k bs ≠ none := by
  intro hn
  have he := List.getLast?_eq_none_iff.mp hn
  have hm : b ∈ bs.filter fun b => b.start ≤ k := List.mem_filter.mpr ⟨hb, by simpa using hk⟩
  rw [he] at hm
  simp at hm

/-- Where the segment of a booking ends: after its start, and before the next booking begins. The
segment of an instruction without duration leaves no gap behind. -/
theorem segmentStop_bounds {stop : Nat} {b : Booking} {rest : List Booking}
    (hext : b.start < b.stop) (hsep : ∀ c ∈ rest, b.stop ≤ c.start)
    (hsorted : rest.Pairwise fun a c => a.start ≤ c.start) (hstop : b.stop ≤ stop)
    (hrest : ∀ c ∈ rest, c.start ≤ stop) :
    b.start < segmentStop stop b rest ∧ segmentStop stop b rest ≤ stop ∧
      (∀ c ∈ rest, segmentStop stop b rest ≤ c.start) ∧
      (b.instr.holds = true → segmentStop stop b rest < stop →
        ∃ c ∈ rest, c.start = segmentStop stop b rest) := by
  unfold segmentStop
  cases hh : b.instr.holds with
  | false => simpa using ⟨hext, hstop, hsep⟩
  | true =>
    cases rest with
    | nil => simpa using Nat.lt_of_lt_of_le hext hstop
    | cons c more =>
      have hc := hsep c List.mem_cons_self
      have hfirst := (List.pairwise_cons.mp hsorted).1
      simp only [↓reduceIte, List.head?_cons, Option.map_some, Option.getD_some]
      refine ⟨by omega, hrest c List.mem_cons_self, ?_, fun _ _ => ⟨c, List.mem_cons_self, rfl⟩⟩
      intro d hd
      rcases List.mem_cons.mp hd with rfl | hd
      · exact Nat.le_refl _
      · exact hfirst d hd

/-- Once a booking with a duration is over, its channel is at the level that it left behind. After
one without, the level held is never looked at: the next booking follows at once. -/
theorem waveFrom?_tail {t : Timeline} {stop k : Nat} {held : Float} {b : Booking}
    {rest : List Booking} {w : Waveform} (hw : t.line.wave? b.instr t.idle = some w)
    (hstart : b.start ≤ k) (hlo : segmentStop stop b rest ≤ k) (hhi : k < stop)
    (hholds : b.instr.holds = true → segmentStop stop b rest < stop →
      ∃ c ∈ rest, c.start = segmentStop stop b rest) :
    t.waveFrom? (heldAfter t.idle held b w) rest k = t.waveFrom? held (b :: rest) k := by
  simp only [waveFrom?, governing?_cons hstart]
  cases hg : governing? k rest with
  | some c => rfl
  | none =>
    cases hd : b.instr.duration with
    | none =>
      have hh : b.instr.holds = true := by simp [Instruction.holds, hd]
      obtain ⟨c, hc, he⟩ := hholds hh (by omega)
      exact absurd hg (governing?_isSome hc (by omega))
    | some d =>
      have hover : ¬ k < b.stop := by
        simp only [segmentStop, Instruction.holds, hd, Option.isNone_some] at hlo
        simpa using hlo
      simp [hw, heldAfter, Booking.waveAt, Instruction.stop?, hd, hover]

/-- What the segments play from tick `last` on is the meaning of the bookings still to come. -/
theorem segmentsFrom_plays (t : Timeline) (stop : Nat) (bs : List Booking) (held : Float)
    (last : Nat) (bare : Bool) (hext : ∀ b ∈ bs, b.start < b.stop)
    (hsep : bs.Pairwise fun a b => a.stop ≤ b.start)
    (hplay : ∀ b ∈ bs, (t.line.wave? b.instr t.idle).isSome = true)
    (hstop : ∀ b ∈ bs, b.stop ≤ stop) (hlast : ∀ b ∈ bs, last ≤ b.start) (hle : last ≤ stop)
    (hbare : bare = true → bs = [] → last < stop) :
    ∃ ss, t.segmentsFrom stop held last bare bs = .ok ss ∧
      Plays (fun k w => t.waveFrom? held bs k = some w) stop last ss := by
  induction bs generalizing held last bare with
  | nil =>
    refine ⟨_, rfl, ?_⟩
    by_cases hroom : last < stop
    · simp only [hroom, decide_true, Bool.true_or, ↓reduceIte]
      exact .segment hroom (fun k _ _ => rfl) .done
    · have hb : bare = false := by
        cases bare with
        | false => rfl
        | true => exact absurd (hbare rfl rfl) hroom
      have he : last = stop := by omega
      simpa [hroom, hb] using he ▸ Plays.done
  | cons b rest ih =>
    obtain ⟨w, hw⟩ := Option.isSome_iff_exists.mp (hplay b List.mem_cons_self)
    have hb := hext b List.mem_cons_self
    obtain ⟨hbrest, hseprest⟩ := List.pairwise_cons.mp hsep
    have hextrest : ∀ c ∈ rest, c.start < c.stop := fun c hc => hext c (List.mem_cons_of_mem _ hc)
    have hsorted : rest.Pairwise fun a c => a.start ≤ c.start :=
      hseprest.imp_of_mem fun ha _ hac => Nat.le_trans (Nat.le_of_lt (hextrest _ ha)) hac
    have hstarts : ∀ c ∈ rest, c.start ≤ stop := fun c hc =>
      Nat.le_trans (Nat.le_of_lt (hextrest c hc)) (hstop c (List.mem_cons_of_mem _ hc))
    obtain ⟨hroom, htill, hnext, hholds⟩ :=
      segmentStop_bounds hb hbrest hsorted (hstop b List.mem_cons_self) hstarts
    obtain ⟨ss, hss, hplays⟩ := ih (heldAfter t.idle held b w) (segmentStop stop b rest) false
      hextrest hseprest (fun c hc => hplay c (List.mem_cons_of_mem _ hc))
      (fun c hc => hstop c (List.mem_cons_of_mem _ hc)) hnext htill (by simp)
    refine ⟨padding held last b.start ++ ⟨segmentStop stop b rest, w⟩ :: ss, ?_, ?_⟩
    · simp [segmentsFrom, hw, hss, bind, Except.bind, pure, Except.pure]
    · refine .pad (hlast b List.mem_cons_self) (fun k _ hk => ?_)
        (.segment hroom (fun k hlo hhi => ?_) (hplays.mono fun k v hlo hhi hv => ?_))
      · have hnone : governing? k (b :: rest) = none := governing?_eq_none fun c hc => by
          rcases List.mem_cons.mp hc with rfl | hc
          · exact hk
          · have := hbrest c hc
            omega
        simp [waveFrom?, hnone]
      · have hnone : governing? k rest = none := governing?_eq_none fun c hc =>
          Nat.lt_of_lt_of_le hhi (hnext c hc)
        simp only [waveFrom?, governing?_cons hlo, hnone, Option.getD_none, hw, Option.map_some]
        cases hd : b.instr.duration with
        | none => simp [Booking.waveAt, Instruction.stop?, hd]
        | some d =>
          have hin : k < b.stop := by
            simpa [segmentStop, Instruction.holds, hd] using hhi
          simp [Booking.waveAt, Instruction.stop?, hd, hin]
      · exact (waveFrom?_tail hw (by omega) hlo hhi hholds).symm.trans hv

/-- Without a tick to play there is still a segment. -/
theorem Placed.segments_eq {t : Timeline} {stop : Nat} (h : t.Placed) (hstop : t.lastTick ≤ stop) :
    ∃ ss, t.segments stop = .ok (merge ss) ∧
      (stop = 0 ∧ ss = [⟨0, .const t.idle⟩] ∨
        0 < stop ∧ Plays (fun k w => t.waveAt? k = some w) stop 0 ss) := by
  have hguard : ¬ stop < t.lastTick := by omega
  have hstops : ∀ b ∈ t.bookings, b.stop ≤ stop := fun b hb =>
    Nat.le_trans (stop_le_lastTick h.extent h.separate b hb) hstop
  rcases Nat.eq_zero_or_pos stop with rfl | hpos
  · have hempty : t.bookings = [] := List.eq_nil_iff_forall_not_mem.mpr fun b hb => by
      have := h.extent b hb
      have := hstops b hb
      omega
    exact ⟨_, by simp [segments, hguard, hempty, segmentsFrom, Except.map], .inl ⟨rfl, rfl⟩⟩
  · obtain ⟨ss, hss, hplays⟩ := segmentsFrom_plays t stop t.bookings t.idle 0 true h.extent
      h.separate h.playable hstops (fun _ _ => Nat.zero_le _) (Nat.zero_le _) (fun _ _ => hpos)
    exact ⟨ss, by simp [segments, hguard, hss, Except.map], .inr ⟨hpos, hplays⟩⟩

end Timeline

/-- Tick `k` lies in segment `i`, which begins where the one before it ends. -/
def Signal.Covers (s : Signal) (i k : Nat) : Prop :=
  (0 :: s.ends).getD i 0 ≤ k ∧ k < s.ends.getD i 0

namespace Timeline

/-- A placed timeline compiles against every stop at or after its end. On each tick the signal
follows what the last booking to have begun puts out, a go-instruction until the next one begins;
once an instruction with a duration is over, the channel holds the value reached or goes back to its
idle level. The segments leave no gap, none is empty, and no two neighbours are equal. -/
theorem compile_plays_waveAt (t : Timeline) (stop : Nat) (h : t.Placed)
    (hstop : t.lastTick ≤ stop) :
    ∃ s : Signal, t.compile stop = ({ t with fresh := true }, .ok s) ∧
      (∀ k < stop, (∃ i, s.Covers i k) ∧ ∀ i, s.Covers i k →
        ∃ w v, s.waves[i]? = some w ∧ t.waveAt? k = some v ∧ w.Agrees v) ∧
      s.ends.length = s.waves.length ∧ s.ends ≠ [] ∧ s.ends.getLast? = some stop ∧
      s.ends.Pairwise (· < ·) ∧ (stop ≠ 0 → ∀ e ∈ s.ends, 0 < e) ∧
      s.waves.IsChain fun v w => (v == w) = false := by
  obtain ⟨ss, hss, hplays⟩ := h.segments_eq hstop
  refine ⟨⟨t.rate, (merge ss).map (·.stop), (merge ss).map (·.wave), t.edited, t.lastTime⟩,
    by simp [compile, signal, hss, Except.map], ?_⟩
  have hchain : ((merge ss).map (·.wave)).IsChain fun v w => (v == w) = false :=
    (List.isChain_map _).mpr (merge_chain ss)
  rcases hplays with ⟨rfl, rfl⟩ | ⟨hpos, hplays⟩
  · exact ⟨by simp, by simp, by simp [merge, mergeFrom], by simp [merge, mergeFrom],
      by simp [merge, mergeFrom], by simp, hchain⟩
  · have hmerged : Plays (fun k w => ∃ v, t.waveAt? k = some v ∧ w.Agrees v) stop 0 (merge ss) :=
      merge_plays hplays fun k w v hv hw => ⟨v, hv, hw⟩
    have hlast := hmerged.last_stop hpos
    obtain ⟨hends, hincrease⟩ := List.pairwise_cons.mp hmerged.stops_increase
    refine ⟨fun k hk => ⟨?_, ?_⟩, by simp, ?_, hlast, hincrease, fun _ => hends, hchain⟩
    · obtain ⟨i, s, hi, hlo, hhi⟩ := hmerged.exists_segment (Nat.zero_le k) hk
      exact ⟨i, hlo, by simpa [hi] using hhi⟩
    · rintro i ⟨hlo, hhi⟩
      cases hi : (merge ss)[i]? with
      | none => simp [hi] at hhi
      | some s =>
        obtain ⟨v, hv, hw⟩ := hmerged.wave_at hi hlo (by simpa [hi] using hhi)
        exact ⟨s.wave, v, by simp [hi], hv, hw⟩
    · intro (hnil : (merge ss).map (·.stop) = [])
      rw [hnil] at hlast
      cases hlast

/-- A level for ten ticks, a ramp right after it whose last value is kept, and a level for good. -/
def sampleTimeline : Timeline :=
  { name := "ao0", line := .analog, rate := 10, registered := -1,
    bookings := [⟨10, 20, 0, .lasting 1 1 false (.constant 2)⟩,
      ⟨20, 30, 1, .lasting 2 1 true (.ramp ⟨0, 4⟩)⟩, ⟨40, 41, 2, .holding 4 (.constant 1)⟩] }

theorem sampleTimeline_plays :
    sampleTimeline.Placed ∧ sampleTimeline.lastTick ≤ 50 ∧
    ∃ s : Signal, sampleTimeline.compile 50 = ({ sampleTimeline with fresh := true }, .ok s) ∧
      (∀ k < 50, (∃ i, s.Covers i k) ∧ ∀ i, s.Covers i k →
        ∃ w v, s.waves[i]? = some w ∧ sampleTimeline.waveAt? k = some v ∧ w.Agrees v) ∧
      s.ends.length = s.waves.length ∧ s.ends ≠ [] ∧ s.ends.getLast? = some 50 ∧
      s.ends.Pairwise (· < ·) ∧ (50 ≠ 0 → ∀ e ∈ s.ends, 0 < e) ∧
      s.waves.IsChain fun v w => (v == w) = false := by
  have placed : sampleTimeline.Placed := ⟨by decide, by decide, by decide, by decide⟩
  have hstop : sampleTimeline.lastTick ≤ 50 := by decide
  exact ⟨placed, hstop, compile_plays_waveAt sampleTimeline 50 placed hstop⟩

end Timeline

end Sequencer
