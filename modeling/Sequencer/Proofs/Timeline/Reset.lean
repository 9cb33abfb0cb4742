import Sequencer.Proofs.Card.ClosingEdge

namespace Sequencer.Timeline

/-- The timeline has gained a reset that begins on `tick`, behind all other bookings. Nothing else
has changed. -/
structure ResetAt (time : Float) (tick : Nat) (t t' : Timeline) : Prop where
  behind : ∀ b ∈ t.bookings, b.stop ≤ tick
  gained : t' = { t with
    bookings := t.bookings ++ [⟨tick, tick + 1, t.nextSeq, .holding time .reset⟩]
    nextSeq := t.nextSeq + 1
    fresh := false }

/-- A signal of `stop` ticks that follows the timeline up to `tick`, where an instruction without
duration that is the last one goes on, and stays at the idle level of the channel from there. -/
structure RestsFrom (t : Timeline) (tick stop : Nat) (s : Signal) : Prop where
  ends : s.ends.getLast? = some stop
  room : tick < stop
  covered : ∀ k < stop, ∃ i, s.Covers i k
  follows : ∀ k < tick, ∀ i, s.Covers i k →
    ∃ w v, s.waves[i]? = some w ∧ t.waveAt? k = some v ∧ w.Agrees v
  holds : ∀ b, t.bookings.getLast? = some b → b.instr.holds = true →
    ∀ k, b.start ≤ k → k < tick → ∀ i, s.Covers i k →
      ∃ w v, s.waves[i]? = some w ∧ t.line.wave? b.instr t.idle = some v ∧ w.Agrees v
  idle : ∀ k, tick ≤ k → k < stop → ∀ i, s.Covers i k →
    ∃ w, s.waves[i]? = some w ∧ w.Agrees (.const t.idle)

theorem governing?_append (k : Nat) (bs : List Booking) (n : Booking) :
    governing? k (bs ++ [n]) = if n.start ≤ k then some n else governing? k bs := by
  by_cases hn : n.start ≤ k <;> simp [governing?, List.filter_append, hn]

/-- An instruction without duration that nothing follows holds for good. -/
theorem waveAt?_holding {t : Timeline} {b : Booking} {k : Nat}
    (hlast : t.bookings.getLast? = some b) (hholds : b.instr.holds = true) (hk : b.start ≤ k) :
    t.waveAt? k = t.line.wave? b.instr t.idle := by
  obtain ⟨front, he⟩ := List.getLast?_eq_some_iff.mp hlast
  have hstop : b.instr.stop? = none := by
    simpa [Instruction.holds, Instruction.stop?] using hholds
  have hwave : ∀ w, b.waveAt t.idle k w = w := fun w => by simp [Booking.waveAt, hstop]
  simp [waveAt?, waveFrom?, he, governing?_append, hk, hwave]

namespace ResetAt

variable {time : Float} {tick : Nat} {t t' : Timeline}

theorem idle_eq (h : t.ResetAt time tick t') : t'.idle = t.idle := by
  rw [h.gained]
  rfl

/-- Before the reset nothing has changed. -/
theorem waveAt?_before (h : t.ResetAt time tick t') {k : Nat} (hk : k < tick) :
    t'.waveAt? k = t.waveAt? k := by
  have hgoverning : governing? k t'.bookings = governing? k t.bookings := by
    rw [h.gained, governing?_append, if_neg (Nat.not_le.mpr hk)]
  unfold waveAt? waveFrom?
  rw [hgoverning, h.gained]
  rfl

/-- From the reset on the channel is at its idle level. -/
theorem waveAt?_after (h : t.ResetAt time tick t') {k : Nat} (hk : tick ≤ k) :
    t'.waveAt? k = some (.const t.idle) := by
  have hlast : t'.bookings.getLast? =
      some ⟨tick, tick + 1, t.nextSeq, .holding time .reset⟩ := by
    rw [h.gained, List.getLast?_concat]
  have hwave : t'.line.wave? (.holding time .reset) t'.idle = some (.const t'.idle) := by
    cases t'.line <;> rfl
  rw [waveAt?_holding hlast rfl hk, hwave, h.idle_eq]

theorem ordered (h : t.ResetAt time tick t') (tidy : t.Tidy) : t'.Ordered := by
  have hbegun : ∀ b ∈ t.bookings, b.start < tick := fun b hb =>
    Nat.lt_of_lt_of_le (tidy.extent b hb) (h.behind b hb)
  rw [h.gained]
  constructor
  case extent => simpa [or_imp, forall_and] using tidy.extent
  case sorted =>
    have hold : t.bookings.Pairwise fun a b => a.before b = true :=
      tidy.increasing.imp fun hab => by simp [Booking.before, Booking.order_eq_lt hab]
    refine List.pairwise_append.mpr ⟨hold, List.pairwise_singleton _ _, fun b hb n hn => ?_⟩
    rw [List.mem_singleton.mp hn, Booking.before, beq_iff_eq]
    exact Booking.order_eq_lt (hbegun b hb)
  case apart =>
    refine List.pairwise_append.mpr ⟨tidy.apart, List.pairwise_singleton _ _, fun b hb n hn => ?_⟩
    rw [List.mem_singleton.mp hn]
    exact Booking.overlaps_eq_false.mpr (.inr (h.behind b hb))

/-- The signal of a timeline with a reset at its end comes to rest there. -/
theorem rests (h : t.ResetAt time tick t') (ordered : t'.Ordered) {stop : Nat} {s : Signal}
    (hs : t'.signal stop = .ok s) : t.RestsFrom tick stop s := by
  obtain ⟨hends, hlast, hplays⟩ := ordered.signal_plays hs
  have hend : t'.lastTick = tick + 1 := by
    rw [h.gained, lastTick, List.getLast?_concat]
  have hroom : tick < stop := by omega
  have hbefore : ∀ k < tick, ∀ i, s.Covers i k →
      ∃ w v, s.waves[i]? = some w ∧ t.waveAt? k = some v ∧ w.Agrees v := by
    intro k hk i hi
    obtain ⟨w, v, hw, hv, hagrees⟩ := (hplays k (by omega)).2 i hi
    exact ⟨w, v, hw, h.waveAt?_before hk ▸ hv, hagrees⟩
  refine ⟨hends, hroom, fun k hk => (hplays k hk).1, hbefore, ?_, ?_⟩
  · intro b hb hholds k hstart hk i hi
    obtain ⟨w, v, hw, hv, hagrees⟩ := hbefore k hk i hi
    exact ⟨w, v, hw, waveAt?_holding hb hholds hstart ▸ hv, hagrees⟩
  · intro k hk hstop i hi
    obtain ⟨w, v, hw, hv, hagrees⟩ := (hplays k hstop).2 i hi
    obtain rfl : .const t.idle = v := by simpa [h.waveAt?_after hk] using hv
    exact ⟨w, hw, hagrees⟩

end ResetAt

/-- A reset that was placed goes behind the other bookings where those are over by then. -/
theorem Tidy.resetAt_insert {time : Float} {tick : Nat} {t : Timeline} {b : Booking} (h : t.Tidy)
    (htick : tickAt? time t.rate = some tick) (hover : t.lastTick ≤ tick)
    (placed : t.place (.holding time .reset) = .ok b) : t.ResetAt time tick (t.insert b) := by
  obtain ⟨first, stop, hocc, rfl, -⟩ := place_eq_ok_iff.mp placed
  obtain rfl : first = tick := Option.some.inj (hocc.begins.symm.trans htick)
  obtain rfl : stop = first + 1 := by
    have hends : (if first + 1 < tickLimit then some (first + 1) else none) = some stop :=
      hocc.ends
    split at hends <;> simp_all
  refine ⟨fun b hb => ?_, h.insert_last rfl hover⟩
  exact Nat.le_trans (stop_le_lastTick h.extent h.separate b hb) hover

end Sequencer.Timeline
