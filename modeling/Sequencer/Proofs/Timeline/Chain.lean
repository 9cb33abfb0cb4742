import Sequencer.Proofs.Timeline.Reset

namespace Sequencer

/-- An instruction with a duration, whenever it may start: a given one, or the one that brings out a
logical state. -/
inductive Link where
  | lasting (duration : Float) (keep : Bool) (action : Action)
  | switched (on : Bool) (duration : Float)

namespace Link

/-- The instruction on a channel of this kind. -/
def starting (line : Line) (t : Float) : Link → Instruction
  | lasting duration keep action => .lasting t duration keep action
  | switched on duration => .lasting t duration false (line.switch on true)

/-- The instructions of a chain that starts at `t`. -/
def chain (line : Line) (t : Float) : List Link → List Instruction
  | [] => []
  | l :: ls => l.starting line t :: chain line (l.starting line t).next ls

@[simp]
theorem start_starting (line : Line) (t : Float) (l : Link) : (l.starting line t).start = t := by
  cases l <;> rfl

theorem stop?_starting (line : Line) (t : Float) (l : Link) :
    (l.starting line t).stop? = some (l.starting line t).next := by
  cases l <;> rfl

end Link

namespace Booking

/-- Bookings side by side, from tick `first` up to and without `last`: each of them begins where the
one before it ends. -/
inductive Adjoining (last : Nat) : Nat → List Booking → Prop
  | done : Adjoining last last []
  | next {b : Booking} {bs : List Booking} (room : b.start < b.stop)
      (more : Adjoining last b.stop bs) : Adjoining last b.start (b :: bs)

namespace Adjoining

variable {first last : Nat} {bs : List Booking}

theorem le (h : Adjoining last first bs) : first ≤ last := by
  induction h with
  | done => exact Nat.le_refl _
  | next room more ih => exact Nat.le_trans (Nat.le_of_lt room) ih

theorem within (h : Adjoining last first bs) :
    ∀ b ∈ bs, first ≤ b.start ∧ b.start < b.stop ∧ b.stop ≤ last := by
  induction h with
  | done => simp
  | next room more ih =>
    refine List.forall_mem_cons.mpr ⟨⟨Nat.le_refl _, room, more.le⟩, fun b hb => ?_⟩
    have hb := ih b hb
    omega

theorem separate (h : Adjoining last first bs) : bs.Pairwise fun a b => a.stop ≤ b.start := by
  induction h with
  | done => exact .nil
  | next room more ih => exact .cons (fun b hb => (more.within b hb).1) ih

/-- Between the first tick and the last there is always one that goes on. -/
theorem exists_covering (h : Adjoining last first bs) {k : Nat} (hfirst : first ≤ k)
    (hlast : k < last) : ∃ b ∈ bs, b.start ≤ k ∧ k < b.stop := by
  induction h with
  | done => omega
  | @next b bs room more ih =>
    by_cases hk : k < b.stop
    · exact ⟨b, List.mem_cons_self, hfirst, hk⟩
    · obtain ⟨c, hc, hcovers⟩ := ih (by omega)
      exact ⟨c, List.mem_cons_of_mem _ hc, hcovers⟩

end Adjoining

end Booking

namespace Timeline

/-- The timeline with these bookings behind its own. -/
def extend (t : Timeline) (bs : List Booking) : Timeline :=
  { t with
    bookings := t.bookings ++ bs
    nextSeq := t.nextSeq + bs.length
    fresh := t.fresh && bs.isEmpty }

theorem extend_nil (t : Timeline) : t.extend [] = t := by
  simp [extend]

theorem extend_cons (t : Timeline) (b : Booking) (bs : List Booking) :
    (t.extend [b]).extend bs = t.extend (b :: bs) := by
  simp [extend, Nat.add_assoc, Nat.add_comm 1]

/-- The grid stays the same. -/
theorem Occupies.of_extend {t : Timeline} {bs : List Booking} {i : Instruction} {first stop : Nat}
    (h : (t.extend bs).Occupies i first stop) : t.Occupies i first stop :=
  ⟨h.faultless, h.begins, h.ends, h.room⟩

namespace Tidy

variable {t : Timeline} {i : Instruction} {first stop : Nat}

/-- There is always room behind the last booking. -/
theorem place_last (h : t.Tidy) (occupies : t.Occupies i first stop) (ended : t.lastTick ≤ first) :
    t.place i = .ok ⟨first, stop, t.nextSeq, i⟩ := by
  refine place_eq_ok_iff.mpr ⟨first, stop, occupies, rfl, ?_⟩
  refine (h.neighbours_free_iff occupies.room rfl).mpr fun b hb => .inl ?_
  exact Nat.le_trans (stop_le_lastTick h.extent h.separate b hb) ended

/-- What is not placed there does not fit the grid. -/
theorem place_last_error (h : t.Tidy) (begins : tickAt? i.start t.rate = some first)
    (ended : t.lastTick ≤ first) {e : Error} (refused : t.place i = .error e) :
    ∃ fault, t.span i = .error fault ∧ e = .range fault := by
  cases hspan : t.span i with
  | error fault =>
    rw [place_eq, hspan] at refused
    cases refused
    exact ⟨fault, rfl, rfl⟩
  | ok ticks =>
    obtain ⟨first', stop⟩ := ticks
    have hocc := span_eq_ok_iff.mp hspan
    obtain rfl : first' = first := Option.some.inj (hocc.begins.symm.trans begins)
    cases refused.symm.trans (h.place_last hocc ended)

theorem insert_extends (h : t.Tidy) (ended : t.lastTick ≤ first) :
    t.insert ⟨first, stop, t.nextSeq, i⟩ = t.extend [⟨first, stop, t.nextSeq, i⟩] := by
  rw [h.insert_last rfl ended]
  simp [extend]

/-- The timeline is over with the booking that came last. -/
theorem extend_one (h : t.Tidy) (ended : t.lastTick ≤ first) (room : first < stop) :
    (t.extend [⟨first, stop, t.nextSeq, i⟩]).Tidy ∧
      (t.extend [⟨first, stop, t.nextSeq, i⟩]).lastTick = stop := by
  constructor
  · rw [← h.insert_extends ended]
    refine h.insert room rfl fun b hb => .inl ?_
    exact Nat.le_trans (stop_le_lastTick h.extent h.separate b hb) ended
  · simp [extend, lastTick]

end Tidy

/-- Where one instruction of a chain is over, the next one begins. -/
theorem Occupies.next_begins {t : Timeline} {line : Line} {l : Link} {time : Float}
    {first stop : Nat} (h : t.Occupies (l.starting line time) first stop) :
    tickAt? (l.starting line time).next t.rate = some stop := by
  have hends := h.ends
  rwa [stopTick?, l.stop?_starting] at hends

namespace Ordered

variable {t : Timeline} {b : Booking}

/-- While an instruction goes on, it is the last one to have begun. -/
theorem governing?_eq (h : t.Ordered) (hb : b ∈ t.bookings) {k : Nat} (hlo : b.start ≤ k)
    (hhi : k < b.stop) : governing? k t.bookings = some b := by
  obtain ⟨g, hg⟩ := Option.ne_none_iff_exists'.mp (governing?_isSome hb hlo)
  obtain ⟨hmem, hbegun, hlatest⟩ := governing?_latest h.starts_ascend hg
  by_cases hsame : g = b
  · rw [hg, hsame]
  · have hlate := hlatest b hb hlo
    have hroom := h.extent b hb
    rcases h.separate_of_ne hmem hb hsame with hgb | hbg
    · have := h.extent g hmem
      omega
    · omega

theorem waveAt?_during (h : t.Ordered) (hb : b ∈ t.bookings) {k : Nat} (hlo : b.start ≤ k)
    (hhi : k < b.stop) : t.waveAt? k = t.line.wave? b.instr t.idle := by
  have hwave : ∀ w, b.waveAt t.idle k w = w := fun w => by
    unfold Booking.waveAt
    cases b.instr.stop? <;> simp [hhi]
  simp [waveAt?, waveFrom?, h.governing?_eq hb hlo hhi, hwave]

end Ordered

section Extended

variable {t : Timeline} {first last : Nat} {bs : List Booking}

/-- Bookings side by side, behind all others, are in nobody's way. -/
theorem Tidy.placed_extend (h : t.Tidy) (ended : t.lastTick ≤ first)
    (adjoining : Booking.Adjoining last first bs)
    (playable : ∀ b ∈ t.bookings ++ bs, (t.line.wave? b.instr t.idle).isSome = true) :
    (t.extend bs).Placed := by
  have hext : ∀ b ∈ t.bookings ++ bs, b.start < b.stop := by
    intro b hb
    rcases List.mem_append.mp hb with hb | hb
    · exact h.extent b hb
    · exact (adjoining.within b hb).2.1
  have hsep : (t.bookings ++ bs).Pairwise fun a b => a.stop ≤ b.start := by
    refine List.pairwise_append.mpr ⟨h.separate, adjoining.separate, fun a ha b hb => ?_⟩
    calc a.stop
      _ ≤ t.lastTick := stop_le_lastTick h.extent h.separate a ha
      _ ≤ first := ended
      _ ≤ b.start := (adjoining.within b hb).1
  refine ⟨hext, hsep.imp_of_mem fun ha _ hab => ?_, hsep.imp fun hab => ?_, playable⟩
  · have hlt := Nat.lt_of_lt_of_le (hext _ ha) hab
    simp [Booking.before, Booking.order_eq_lt hlt]
  · exact Booking.overlaps_eq_false.mpr (.inr hab)

theorem lastTick_extend_le (ended : t.lastTick ≤ first)
    (adjoining : Booking.Adjoining last first bs) {stop : Nat} (hstop : last ≤ stop) :
    (t.extend bs).lastTick ≤ stop := by
  rcases List.eq_nil_or_concat bs with rfl | ⟨init, b, rfl⟩
  · rw [extend_nil]
    exact Nat.le_trans ended (Nat.le_trans adjoining.le hstop)
  · have hb := (adjoining.within b (by simp)).2.2
    have hend : (t.extend (init.concat b)).lastTick = b.stop := by simp [extend, lastTick]
    omega

/-- On each tick of a chain its channel follows the instruction of the chain that goes on then. -/
theorem Tidy.extend_plays (h : t.Tidy) (ended : t.lastTick ≤ first)
    (adjoining : Booking.Adjoining last first bs)
    (playable : ∀ b ∈ t.bookings ++ bs, (t.line.wave? b.instr t.idle).isSome = true)
    {stop : Nat} (hstop : last ≤ stop) :
    ∃ s : Signal, (t.extend bs).compile stop = ({ t.extend bs with fresh := true }, .ok s) ∧
      ∀ k, first ≤ k → k < last → (∃ i, s.Covers i k) ∧
        ∃ b ∈ bs, b.start ≤ k ∧ k < b.stop ∧ ∀ i, s.Covers i k →
          ∃ w v, s.waves[i]? = some w ∧ t.line.wave? b.instr t.idle = some v ∧ w.Agrees v := by
  have hplaced := h.placed_extend ended adjoining playable
  have hordered : (t.extend bs).Ordered := ⟨hplaced.extent, hplaced.sorted, hplaced.apart⟩
  obtain ⟨ss, hss, -⟩ := hplaced.segments_eq (lastTick_extend_le ended adjoining hstop)
  have hsignal : ∃ s, (t.extend bs).signal stop = .ok s := ⟨_, by rw [signal, hss]; rfl⟩
  obtain ⟨s, hs⟩ := hsignal
  obtain ⟨-, -, hplays⟩ := hordered.signal_plays hs
  refine ⟨s, by rw [Timeline.compile, hs], fun k hlo hhi => ?_⟩
  obtain ⟨b, hb, hbegun, hgoes⟩ := adjoining.exists_covering hlo hhi
  obtain ⟨hcovered, hwaves⟩ := hplays k (Nat.lt_of_lt_of_le hhi hstop)
  refine ⟨hcovered, b, hb, hbegun, hgoes, fun i hi => ?_⟩
  obtain ⟨w, v, hw, hv, hagrees⟩ := hwaves i hi
  rw [hordered.waveAt?_during (List.mem_append_right _ hb) hbegun hgoes] at hv
  exact ⟨w, v, hw, hv, hagrees⟩

end Extended

end Timeline

end Sequencer
