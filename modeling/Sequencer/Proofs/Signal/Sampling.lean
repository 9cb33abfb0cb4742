import Sequencer.Proofs.Card.ClosingEdge
import Sequencer.Proofs.Signal.Sweep
import Sequencer.Proofs.Timeline.Playback

namespace Sequencer

namespace Timeline

/-- Segments that were compiled are there to be swept: whatever follows the end of one begins there,
and none is empty, apart from the only one of a signal without ticks. -/
theorem regular_of_compile {t : Timeline} {stop : Nat} {s : Signal} (h : t.Ordered)
    (hrate : 0 < t.rate) (hstop : stop < tickLimit) (hs : (t.compile stop).2 = .ok s) :
    s.Regular := by
  have hsignal : t.signal stop = .ok s := (compile_snd t stop).symm.trans hs
  obtain ⟨hlast, hplay, -⟩ := of_signal_ok hsignal
  have placed : t.Placed := ⟨h.extent, h.sorted, h.apart, hplay⟩
  obtain ⟨ss, hss, hplays⟩ := placed.segments_eq hlast
  obtain rfl : (⟨t.rate, (merge ss).map (·.stop), (merge ss).map (·.wave), t.edited,
      t.lastTime⟩ : Signal) = s := by simpa [signal, hss, Except.map] using hsignal
  rcases hplays with ⟨rfl, rfl⟩ | ⟨hpos, hplays⟩
  · exact ⟨hrate, by simp, by simp [merge, mergeFrom], by simp [merge, mergeFrom],
      by simpa [merge, mergeFrom] using hstop⟩
  · have hmerged : Plays (fun k w => ∃ v, t.waveAt? k = some v ∧ w.Agrees v) stop 0 (merge ss) :=
      merge_plays hplays fun k w v hv hw => ⟨v, hv, hw⟩
    have hend := hmerged.last_stop hpos
    have hincrease := (List.pairwise_cons.mp hmerged.stops_increase).2
    refine ⟨hrate, by simp, ?_, hincrease, fun e he => ?_⟩
    · intro (hnil : (merge ss).map (·.stop) = [])
      rw [hnil] at hend
      cases hend
    · obtain ⟨segment, hsegment, rfl⟩ := List.mem_map.mp he
      exact Nat.lt_of_le_of_lt (hmerged.stop_le segment hsegment) hstop

theorem rate_of_compile {t : Timeline} {stop : Nat} {s : Signal}
    (hs : (t.compile stop).2 = .ok s) : s.rate = t.rate := by
  rw [compile_snd, signal] at hs
  cases hss : t.segments stop with
  | error e => simp [hss, Except.map] at hs
  | ok ss =>
    rw [hss] at hs
    exact (congrArg Signal.rate (Except.ok.inj hs)).symm

end Timeline

namespace Signal

variable {s : Signal}

open Binary64 (valueOf)

/-- The distance between two samples is a finite time. -/
theorem step_spec {start stop : Float} {n : Nat} (hstart : start.isFinite = true)
    (hstop : stop.isFinite = true) (hlow : 0 ≤ valueOf start)
    (hle : valueOf start ≤ valueOf stop) (hn : n < tickLimit) :
    ((stop - start) / ticks (max n 1)).isFinite = true ∧
      0 ≤ valueOf ((stop - start) / ticks (max n 1)) := by
  have hcount : max n 1 < tickLimit := max_lt hn (by decide)
  have hticks := Binary64.one_le_ticks (by omega) hcount
  have hmax := (Binary64.isFinite_iff (Binary64.isNaN_of_isFinite hstop)).mp hstop
  have hlimit := Binary64.limit_pos
  -- Neither the difference nor the quotient is larger than the end of the interval.
  obtain ⟨hdiffnumber, hdiff⟩ := Binary64.sub_finite hstop hstart
  have hdifflow : 0 ≤ valueOf (stop - start) := by
    rw [hdiff]
    exact Binary64.rounded_nonneg (by linarith)
  have hdiffhigh : valueOf (stop - start) ≤ valueOf stop := by
    rw [hdiff, ← Binary64.rounded_valueOf hstop]
    exact Binary64.rounded_mono (by rw [Binary64.rounded_valueOf hstop]; linarith)
  have hdifffinite : (stop - start).isFinite = true :=
    (Binary64.isFinite_iff hdiffnumber).mpr ⟨by linarith, by linarith⟩
  obtain ⟨hstepnumber, hstep⟩ := Binary64.div_finite hdifffinite
    (Binary64.ticks_isFinite hcount) (by linarith)
  have hsteplow : 0 ≤ valueOf ((stop - start) / ticks (max n 1)) := by
    rw [hstep]
    exact Binary64.rounded_nonneg (by positivity)
  have hstephigh : valueOf ((stop - start) / ticks (max n 1)) ≤ valueOf (stop - start) := by
    rw [hstep, ← Binary64.rounded_valueOf hdifffinite]
    apply Binary64.rounded_mono
    rw [Binary64.rounded_valueOf hdifffinite]
    exact div_le_self hdifflow hticks
  exact ⟨(Binary64.isFinite_iff hstepnumber).mpr ⟨by linarith, by linarith⟩, hsteplow⟩

/-- Positions keep the order of times. -/
theorem position_mono (hrate : 0 < s.rate) (hfinite : s.rate.isFinite = true) {t u : Float}
    (h : t ≤ u) : t * s.rate ≤ u * s.rate := by
  have hpos : 0 < valueOf s.rate := by
    rw [← Binary64.valueOf_zero]
    exact (Binary64.lt_iff rfl (Binary64.isNaN_of_isFinite hfinite)).mp hrate
  exact Binary64.mul_mono hfinite hpos h

/-- Evenly spaced times are in order. -/
theorem sampleTimes_ascending {start stop : Float} {n : Nat} (hrate : 0 < s.rate)
    (hfinite : s.rate.isFinite = true) (hstart : start.isFinite = true)
    (hstop : stop.isFinite = true) (hlow : 0 ≤ valueOf start)
    (hle : valueOf start ≤ valueOf stop) (hn : n < tickLimit) :
    s.Ascending (sampleTimes start stop n) := by
  obtain ⟨hstep, hpos⟩ := step_spec hstart hstop hlow hle hn
  intro i j hij hj
  have hj' : j < n := by simpa [sampleTimes] using hj
  simp only [sampleTimes, List.getElem_map, List.getElem_range]
  generalize (stop - start) / ticks (max n 1) = step at hstep hpos ⊢
  have hi := Binary64.mul_finite (Binary64.ticks_isFinite (by omega : i < tickLimit)) hstep
  have hj := Binary64.mul_finite (Binary64.ticks_isFinite (by omega : j < tickLimit)) hstep
  have hticks : valueOf (ticks i) ≤ valueOf (ticks j) :=
    (Binary64.le_iff (Binary64.ticks_spec (by omega)).1 (Binary64.ticks_spec (by omega)).1).mp
      (Binary64.ticks_mono hij (by omega))
  have hoffset : ticks i * step ≤ ticks j * step := by
    rw [Binary64.le_iff hi.1 hj.1, hi.2, hj.2]
    exact Binary64.rounded_mono (mul_le_mul_of_nonneg_right hticks hpos)
  have htime : start + ticks i * step ≤ start + ticks j * step := by
    rw [Binary64.add_comm start, Binary64.add_comm start]
    exact Binary64.add_mono hstart hoffset
  exact position_mono hrate hfinite htime

/-- With a finite rate the position of a number is a number. -/
theorem ascending_of_finite {ts : List Float} (hrate : 0 < s.rate)
    (hfinite : s.rate.isFinite = true) (hnumbers : ∀ t ∈ ts, t.isNaN = false)
    (hsorted : (ts.map (· * s.rate)).Pairwise (· ≤ ·)) : s.Ascending ts := by
  intro i j hij hj
  rcases Nat.eq_or_lt_of_le hij with rfl | hlt
  · exact position_mono hrate hfinite (Binary64.le_refl (hnumbers _ (List.getElem_mem hj)))
  · have hpositions := List.pairwise_iff_getElem.mp hsorted i j (by simpa using by omega)
      (by simpa using hj) hlt
    simpa using hpositions

/-- Sampling is refused for an interval that is not finite, begins before zero, ends before it begins
or ends after the last tick, and for nothing else. -/
theorem sample_eq_ok_iff {start stop : Float} {n : Nat} {xs : List Float} :
    s.sample start stop n = .ok xs ↔
      start.isFinite = true ∧ stop.isFinite = true ∧ ¬ start < 0 ∧ ¬ stop < start ∧
        ¬ ticks s.lastTick + slack < stop * s.rate ∧ s.fill (sampleTimes start stop n) = xs := by
  unfold sample
  split
  case isTrue h =>
    refine iff_of_false nofun fun ⟨hstart, hstop, hzero, hle, _⟩ => ?_
    simp [hstart, hstop, hzero, hle] at h
  case isFalse h =>
    obtain ⟨⟨⟨hstart, hstop⟩, hzero⟩, hle⟩ :
        ((start.isFinite = true ∧ stop.isFinite = true) ∧ ¬ start < 0) ∧ ¬ stop < start := by
      simpa using h
    split
    case isTrue hpast => exact iff_of_false nofun fun ⟨_, _, _, _, hwithin, _⟩ => hwithin hpast
    case isFalse hpast => simp [hstart, hstop, hzero, hle, hpast]

/-- A sampled interval does not begin before zero and does not end before it begins. -/
theorem of_sample_ok {start stop : Float} {n : Nat} {xs : List Float}
    (h : s.sample start stop n = .ok xs) :
    start.isFinite = true ∧ stop.isFinite = true ∧ 0 ≤ valueOf start ∧
      valueOf start ≤ valueOf stop ∧ s.fill (sampleTimes start stop n) = xs := by
  obtain ⟨hstart, hstop, hzero, hle, -, hxs⟩ := sample_eq_ok_iff.mp h
  have hstart' := Binary64.isNaN_of_isFinite hstart
  rw [Binary64.lt_iff hstart' rfl, Binary64.valueOf_zero, not_lt] at hzero
  rw [Binary64.lt_iff (Binary64.isNaN_of_isFinite hstop) hstart', not_lt] at hle
  exact ⟨hstart, hstop, hzero, hle, hxs⟩

/-- Compiling a timeline whose bookings are in order and apart makes segments that follow one another
and end at ticks that can be counted. With such segments one pass over times at ascending positions
asks only for segments that are there, and replaces each time by what the search for it finds: a
segment that is there too, and before it just those that have ended by then. Numbers at positions in
order ascend when the rate is finite; an infinite one has no position for time zero. In particular a
sampled interval yields as many samples as were asked for, each of them the signal at its time, which
is a multiple of the rounded step away from the start. -/
theorem fill_follows_eval :
    (∀ (t : Timeline) (stop : Nat) (s : Signal), t.Ordered → 0 < t.rate → stop < tickLimit →
      (t.compile stop).2 = .ok s → s.Regular ∧ s.rate = t.rate) ∧
    (∀ (s : Signal) (ts : List Float), s.Regular → s.Ascending ts →
      s.fill? ts = some (ts.map s.eval) ∧ s.fill ts = ts.map s.eval ∧
      ∀ t ∈ ts, s.segmentAt (t * s.rate) < s.waves.length ∧
        ∀ i, i + 1 < s.waves.length →
          (i < s.segmentAt (t * s.rate) ↔ s.endsBy (t * s.rate) i = true)) ∧
    (∀ (s : Signal) (ts : List Float), s.Regular → s.rate.isFinite = true →
      (∀ t ∈ ts, t.isNaN = false) → (ts.map (· * s.rate)).Pairwise (· ≤ ·) → s.Ascending ts) ∧
    (∀ (s : Signal) (start stop : Float) (n : Nat) (xs : List Float), s.Regular →
      s.rate.isFinite = true → n < tickLimit → s.sample start stop n = .ok xs →
      xs.length = n ∧ ∀ i (hi : i < xs.length),
        xs[i] = s.eval (start + ticks i * ((stop - start) / ticks (max n 1)))) := by
  refine ⟨fun t stop s h hrate hstop hs => ?_, fun s ts h hts => ?_, fun s ts h => ?_,
    fun s start stop n xs h hfinite hn hxs => ?_⟩
  · exact ⟨Timeline.regular_of_compile h hrate hstop hs, Timeline.rate_of_compile hs⟩
  · exact ⟨h.fill?_eq hts, fill_eq_of_fill? (h.fill?_eq hts), fun t _ =>
      ⟨h.segmentAt_lt _, fun i hi => h.lt_segmentAt_iff _ hi⟩⟩
  · exact ascending_of_finite h.rate
  · obtain ⟨hstart, hstop, hlow, hle, rfl⟩ := of_sample_ok hxs
    have hascending := sampleTimes_ascending h.rate hfinite hstart hstop hlow hle hn
    rw [fill_eq_of_fill? (h.fill?_eq hascending)]
    exact ⟨by simp [sampleTimes], fun i hi => by simp [sampleTimes]⟩

/-- A level on a clock without a finite rate. Nothing can be placed on it, only committed. -/
def boundlessTimeline : Timeline :=
  ({ name := "ao0", line := .analog, rate := 1 / 0, registered := 0 } : Timeline).insert
    ⟨0, 10, 0, .lasting 0 1 false (.constant 1)⟩

def boundlessSignal : Signal :=
  { rate := 1 / 0, ends := [10, 20], waves := [.const 1, .const 0], active := true, lastEnd := 0 }

/-- A level committed on top of a longer one. -/
def crossedTimeline : Timeline :=
  (({ name := "ao0", line := .analog, rate := 10, registered := 0 } : Timeline).insert
    ⟨0, 10, 0, .lasting 0 1 false (.constant 1)⟩).insert
      ⟨5, 7, 1, .lasting 0.5 0.2 false (.constant 2)⟩

def crossedSignal : Signal :=
  { rate := 10, ends := [10, 7], waves := [.const 1, .const 2], active := true, lastEnd := 0.7 }

/-- A ramp committed with its end before its start. -/
def reversedTimeline : Timeline :=
  ({ name := "ao0", line := .analog, rate := 10, registered := 0 } : Timeline).insert
    ⟨5, 3, 0, .lasting 0.5 (-0.2) true (.ramp ⟨1, 2⟩)⟩

def reversedSignal : Signal :=
  { rate := 10, ends := [5, 3, 10],
    waves := [.const 0, .ramp ⟨1, 2⟩ 0.5 (0.5 + -0.2), .const 2], active := true, lastEnd := 0.3 }

/-- The time itself, for one second. -/
def risingSignal : Signal :=
  { rate := 10, ends := [10], waves := [.ramp ⟨0, 1⟩ 0 1], active := true, lastEnd := 1 }

/-- Where the pass and the search part. At an infinite rate time zero has no position: the search
stays in the first segment, and the pass hands the time on to the last one. Bookings that were
committed unchecked leave segments out of order, in which halving skips what the pass does not.
And a sample is taken at a multiple of the rounded step, not at a fraction of the interval. -/
theorem fill_departs_from_eval :
    (boundlessTimeline.Ordered ∧ (boundlessTimeline.compile 20).2 = .ok boundlessSignal ∧
      boundlessSignal.Regular ∧ boundlessSignal.fill [0] ≠ [boundlessSignal.eval 0] ∧
      ∃ xs, boundlessSignal.sample 0 0 1 = .ok xs ∧ xs[0]? ≠ some (boundlessSignal.eval 0)) ∧
    ((crossedTimeline.compile 7).2 = .ok crossedSignal ∧
      ([0.5, 0.8].map (· * crossedSignal.rate)).Pairwise (· ≤ ·) ∧
      crossedSignal.fill [0.5, 0.8] ≠ [crossedSignal.eval 0.5, crossedSignal.eval 0.8]) ∧
    ((reversedTimeline.compile 10).2 = .ok reversedSignal ∧
      ([0.2, 0.4].map (· * reversedSignal.rate)).Pairwise (· ≤ ·) ∧
      reversedSignal.fill [0.2, 0.4] ≠ [reversedSignal.eval 0.2, reversedSignal.eval 0.4]) ∧
    (risingSignal.Regular ∧ risingSignal.rate.isFinite = true ∧
      ∃ xs, risingSignal.sample 0 1 10 = .ok xs ∧
        xs[3]? ≠ some (risingSignal.eval (0 + ticks 3 * (1 - 0) / ticks (max 10 1)))) := by
  refine ⟨?boundless, ?crossed, ?reversed, ?rising⟩
  case boundless =>
    have hregular : boundlessSignal.Regular :=
      ⟨by decide +kernel, rfl, by decide, by decide, by decide⟩
    have hsample : boundlessSignal.sample 0 0 1 = .ok _ := sample_eq_ok_iff.mpr
      ⟨rfl, rfl, by decide +kernel, by decide +kernel, by decide +kernel, rfl⟩
    exact ⟨⟨by decide, by decide, by decide⟩, rfl, hregular, by decide +kernel, _, hsample,
      by decide +kernel⟩
  case crossed => exact ⟨rfl, by decide +kernel, by decide +kernel⟩
  case reversed => exact ⟨rfl, by decide +kernel, by decide +kernel⟩
  case rising =>
    have hregular : risingSignal.Regular :=
      ⟨by decide +kernel, rfl, by decide, by decide, by decide⟩
    have hsample : risingSignal.sample 0 1 10 = .ok _ := sample_eq_ok_iff.mpr
      ⟨rfl, rfl, by decide +kernel, by decide +kernel, by decide +kernel, rfl⟩
    exact ⟨hregular, by decide +kernel, _, hsample, by decide +kernel⟩

/-- A level, a ramp and a level again. -/
def steppedSignal : Signal :=
  { rate := 10, ends := [10, 20, 30], waves := [.const 1, .ramp ⟨0, 10⟩ 1 2, .const (-1)],
    active := true, lastEnd := 2 }

theorem steppedSignal_sampled :
    (∃ s, (Timeline.sampleTimeline.compile 50).2 = .ok s ∧ s.Regular ∧ s.rate = 10) ∧
    steppedSignal.fill? [0.3, 1.5, 2.5] = some ([0.3, 1.5, 2.5].map steppedSignal.eval) ∧
    ∃ xs, steppedSignal.sample 1.5 2.5 4 = .ok xs ∧ xs.length = 4 ∧
      ∀ i (hi : i < xs.length),
        xs[i] = steppedSignal.eval (1.5 + ticks i * ((2.5 - 1.5) / ticks (max 4 1))) := by
  obtain ⟨compiled, filled, ascending, sampled⟩ := fill_follows_eval
  have hregular : steppedSignal.Regular :=
    ⟨by decide +kernel, rfl, by decide, by decide, by decide⟩
  have hfinite : steppedSignal.rate.isFinite = true := by decide +kernel
  refine ⟨?_, ?_, ?_⟩
  · have hok : (Timeline.sampleTimeline.compile 50).2.toBool = true := by decide +kernel
    cases hs : (Timeline.sampleTimeline.compile 50).2 with
    | error e => rw [hs] at hok; cases hok
    | ok s =>
      exact ⟨s, rfl, compiled Timeline.sampleTimeline 50 s ⟨by decide, by decide, by decide⟩
        (by decide +kernel) (by decide) hs⟩
  · exact (filled steppedSignal [0.3, 1.5, 2.5] hregular
      (ascending steppedSignal _ hregular hfinite (by decide +kernel) (by decide +kernel))).1
  · have hsample : steppedSignal.sample 1.5 2.5 4 = .ok _ := sample_eq_ok_iff.mpr
      ⟨rfl, rfl, by decide +kernel, by decide +kernel, by decide +kernel, rfl⟩
    exact ⟨_, hsample, sampled steppedSignal 1.5 2.5 4 _ hregular hfinite (by decide) hsample⟩

end Signal

end Sequencer
