import Sequencer.Proofs.Timeline.Playback

namespace Sequencer

namespace Booking

/-- The later of two insertions goes behind an earlier one at the same tick. -/
theorem before_iff {a b : Booking} (h : a.seq < b.seq) : a.before b = true ↔ a.start ≤ b.start := by
  simp only [before, order, beq_iff_eq, Ordering.then_eq_lt, Nat.compare_eq_lt, Nat.compare_eq_eq]
  omega

theorem order_eq_lt {a b : Booking} (h : a.start < b.start) : a.order b = .lt := by
  simp [order, Nat.compare_eq_lt.mpr h]

theorem order_eq_gt {a b : Booking} (hstart : b.start ≤ a.start) (hseq : b.seq < a.seq) :
    a.order b = .gt := by
  simp only [order, Ordering.then_eq_gt, Nat.compare_eq_gt, Nat.compare_eq_eq]
  omega

/-- A newcomer goes behind all bookings that begin no later than itself. -/
theorem insert_between {n : Booking} {front back : List Booking}
    (hfront : ∀ b ∈ front, b.start ≤ n.start ∧ b.seq < n.seq)
    (hback : ∀ b ∈ back, n.start < b.start) :
    n.insert (front ++ back) = front ++ n :: back := by
  induction front with
  | nil =>
    cases back with
    | nil => rfl
    | cons b back => simp [insert, order_eq_lt (hback b List.mem_cons_self)]
  | cons b front ih =>
    obtain ⟨hstart, hseq⟩ := hfront b List.mem_cons_self
    simp [insert, order_eq_gt hstart hseq, ih fun c hc => hfront c (List.mem_cons_of_mem _ hc)]

/-- Nothing in front of a newcomer reaches into it if the last booking there does not. -/
theorem clear_front {n : Booking} {front : List Booking} (hn : n.start < n.stop)
    (hsep : front.Pairwise fun a b => a.stop ≤ b.start)
    (hext : ∀ b ∈ front, b.start < b.stop) (hstart : ∀ b ∈ front, b.start ≤ n.start)
    (hlast : ∀ b, front.getLast? = some b → b.overlaps n = false) :
    ∀ b ∈ front, b.stop ≤ n.start := by
  rcases List.eq_nil_or_concat front with rfl | ⟨init, last, rfl⟩
  · intro b hb
    cases hb
  · rw [List.concat_eq_append] at *
    have hfree : last.stop ≤ n.start := by
      have hle := hstart last (by simp)
      rcases overlaps_eq_false.mp (hlast last (by simp)) with h | h
      · omega
      · exact h
    intro b hb
    rcases List.mem_append.mp hb with hinit | hb
    · have hbefore := (List.pairwise_append.mp hsep).2.2 b hinit last (by simp)
      have hroom := hext last (by simp)
      omega
    · rw [List.mem_singleton.mp hb]
      exact hfree

/-- A newcomer reaches into nothing behind it if it does not reach into the first booking there. -/
theorem clear_back {n : Booking} {back : List Booking}
    (hsorted : back.Pairwise fun a b => a.start < b.start)
    (hext : ∀ b ∈ back, b.start < b.stop) (hstart : ∀ b ∈ back, n.start < b.start)
    (hhead : ∀ b, back.head? = some b → b.overlaps n = false) :
    ∀ b ∈ back, n.stop ≤ b.start := by
  cases back with
  | nil =>
    intro b hb
    cases hb
  | cons first rest =>
    have hfree : n.stop ≤ first.start := by
      have hlt := hstart first List.mem_cons_self
      have hroom := hext first List.mem_cons_self
      rcases overlaps_eq_false.mp (hhead first rfl) with h | h
      · exact h
      · omega
    intro b hb
    rcases List.mem_cons.mp hb with rfl | hrest
    · exact hfree
    · have hlater := (List.pairwise_cons.mp hsorted).1 b hrest
      omega

end Booking

namespace Timeline

/-- What the owner of a timeline does to it. -/
inductive Edit where
  | add (i : Instruction)
  | clear
  | compile (stop : Nat)

/-- The timeline after an edit, accepted or refused. -/
def Edit.run (e : Edit) (t : Timeline) : Timeline × Except Error Unit :=
  match e with
  | add i =>
    match t.add i with
    | .ok t' => (t', .ok ())
    | .error fault => (t, .error fault)
  | clear => (t.clear, .ok ())
  | compile stop => ((t.compile stop).1, (t.compile stop).2.map fun _ => ())

theorem Edit.run_add (i : Instruction) (t : Timeline) : (add i).run t =
    match t.add i with
    | .ok t' => (t', .ok ())
    | .error fault => (t, .error fault) := by
  unfold run
  rfl

def after (t : Timeline) (es : List Edit) : Timeline := es.foldl (fun t e => (e.run t).1) t

/-- The tick before which an instruction that begins on tick `first` is over. -/
def stopTick? (t : Timeline) (i : Instruction) (first : Nat) : Option Nat :=
  match i.stop? with
  | some time => tickAt? time t.rate
  | none => if first + 1 < tickLimit then some (first + 1) else none

/-- An instruction without a fault that takes up these ticks on the grid of the timeline, at least
one of them. -/
structure Occupies (t : Timeline) (i : Instruction) (first stop : Nat) : Prop where
  faultless : i.fault? = none
  begins : tickAt? i.start t.rate = some first
  ends : t.stopTick? i first = some stop
  room : first < stop

/-- Bookings in the order of their starts, none of which reaches into another. Their insertion
numbers are used up, and the timeline is over with the one that ends last. -/
structure Tidy (t : Timeline) : Prop where
  extent : ∀ b ∈ t.bookings, b.start < b.stop
  increasing : t.bookings.Pairwise fun a b => a.start < b.start
  apart : t.bookings.Pairwise fun a b => a.overlaps b = false
  numbered : ∀ b ∈ t.bookings, b.seq < t.nextSeq
  last : t.lastTick = (t.bookings.map (·.stop)).max?.getD 0

theorem span_eq (t : Timeline) (i : Instruction) : t.span i =
    match i.fault?, tickAt? i.start t.rate with
    | some fault, _ => .error (.instruction t.name i fault)
    | none, none => .error (.offGrid t.name i t.rate)
    | none, some first =>
      match t.stopTick? i first with
      | none => .error (.offGrid t.name i t.rate)
      | some stop =>
        if stop ≤ first then .error (.noTicks t.name i t.rate) else .ok (first, stop) := by
  unfold span
  cases i.fault? with
  | some fault => rfl
  | none =>
    cases tickAt? i.start t.rate with
    | none => rfl
    | some first =>
      unfold stopTick?
      cases i.stop? with
      | some time =>
        dsimp only
        cases tickAt? time t.rate with
        | none => rfl
        | some stop => by_cases hroom : stop ≤ first <;> simp only [hroom, ↓reduceIte] <;> rfl
      | none =>
        have hroom : ¬ first + 1 ≤ first := by omega
        by_cases hlimit : first + 1 < tickLimit <;> simp only [hlimit, hroom, ↓reduceIte] <;> rfl

theorem span_eq_ok_iff {t : Timeline} {i : Instruction} {first stop : Nat} :
    t.span i = .ok (first, stop) ↔ t.Occupies i first stop := by
  rw [span_eq]
  constructor
  · intro h
    cases hf : i.fault? with
    | some fault => simp [hf] at h
    | none =>
      cases hs : tickAt? i.start t.rate with
      | none => simp [hf, hs] at h
      | some first' =>
        cases he : t.stopTick? i first' with
        | none => simp [hf, hs, he] at h
        | some stop' =>
          by_cases hr : stop' ≤ first'
          · simp [hf, hs, he, hr] at h
          · obtain ⟨rfl, rfl⟩ : first' = first ∧ stop' = stop := by
              simpa [hf, hs, he, hr] using h
            exact ⟨hf, hs, he, by omega⟩
  · rintro ⟨hf, hs, he, hr⟩
    simp [hf, hs, he, Nat.not_le.mpr hr]

theorem place_eq (t : Timeline) (i : Instruction) : t.place i =
    match t.span i with
    | .error fault => .error (.range fault)
    | .ok (first, stop) =>
      match (t.neighbours ⟨first, stop, t.nextSeq, i⟩).find?
        (·.overlaps ⟨first, stop, t.nextSeq, i⟩) with
      | some other => .error (.overlap t.name ⟨first, stop, t.nextSeq, i⟩ other)
      | none => .ok ⟨first, stop, t.nextSeq, i⟩ := by
  unfold place
  rcases t.span i with fault | ⟨first, stop⟩ <;> rfl

/-- What is placed has the next insertion number, and its neighbours do not reach into it. -/
theorem place_eq_ok_iff {t : Timeline} {i : Instruction} {n : Booking} :
    t.place i = .ok n ↔ ∃ first stop, t.Occupies i first stop ∧
      n = ⟨first, stop, t.nextSeq, i⟩ ∧ ∀ b ∈ t.neighbours n, b.overlaps n = false := by
  rw [place_eq]
  constructor
  · intro h
    cases hspan : t.span i with
    | error fault => simp [hspan] at h
    | ok ticks =>
      obtain ⟨first, stop⟩ := ticks
      refine ⟨first, stop, span_eq_ok_iff.mp hspan, ?_⟩
      simp only [hspan] at h
      split at h
      · cases h
      case h_2 hfree =>
        cases h
        exact ⟨rfl, by simpa using hfree⟩
  · rintro ⟨first, stop, hocc, rfl, hfree⟩
    have hnone : (t.neighbours ⟨first, stop, t.nextSeq, i⟩).find?
        (·.overlaps ⟨first, stop, t.nextSeq, i⟩) = none := by
      simpa using hfree
    simp [span_eq_ok_iff.mpr hocc, hnone]

/-- Where a booking that begins on tick `k` goes among sorted ones. -/
theorem exists_cut (k : Nat) {bs : List Booking} (h : bs.Pairwise fun a b => a.start < b.start) :
    ∃ front back, bs = front ++ back ∧ (∀ b ∈ front, b.start ≤ k) ∧ ∀ b ∈ back, k < b.start := by
  induction bs with
  | nil => exact ⟨[], [], by simp⟩
  | cons b bs ih =>
    obtain ⟨hfirst, hrest⟩ := List.pairwise_cons.mp h
    obtain ⟨front, back, rfl, hfront, hback⟩ := ih hrest
    by_cases hb : b.start ≤ k
    · exact ⟨b :: front, back, rfl, List.forall_mem_cons.mpr ⟨hb, hfront⟩, hback⟩
    · refine ⟨[], b :: (front ++ back), rfl, by simp, List.forall_mem_cons.mpr ⟨by omega, ?_⟩⟩
      intro c hc
      have hlt := hfirst c hc
      omega

theorem neighbours_eq {t : Timeline} {n : Booking} {front back : List Booking}
    (h : t.bookings = front ++ back) (hfront : ∀ b ∈ front, b.before n = true)
    (hback : ∀ b ∈ back, b.before n = false) :
    t.neighbours n = front.getLast?.toList ++ back.head?.toList := by
  have hprev : t.bookings.filter (·.before n) = front := by
    rw [h, List.filter_append, List.filter_eq_self.mpr hfront,
      List.filter_eq_nil_iff.mpr fun b hb => by simp [hback b hb], List.append_nil]
  have hnext : t.bookings.find? (!·.before n) = back.head? := by
    have hnone : front.find? (!·.before n) = none :=
      List.find?_eq_none.mpr fun b hb => by simp [hfront b hb]
    rw [h, List.find?_append, hnone, Option.none_or]
    cases back with
    | nil => rfl
    | cons b back => simp [hback b List.mem_cons_self]
  rw [neighbours, hprev, hnext]

/-- The order of starts and the distance between bookings make up a tidy timeline. -/
theorem Tidy.of_separate {t : Timeline} (hext : ∀ b ∈ t.bookings, b.start < b.stop)
    (hsep : t.bookings.Pairwise fun a b => a.stop ≤ b.start)
    (hnum : ∀ b ∈ t.bookings, b.seq < t.nextSeq) : t.Tidy where
  extent := hext
  increasing := hsep.imp_of_mem fun ha _ hab => Nat.lt_of_lt_of_le (hext _ ha) hab
  apart := hsep.imp fun hab => Booking.overlaps_eq_false.mpr (.inr hab)
  numbered := hnum
  last := by
    cases he : t.bookings.getLast? with
    | none => simp [lastTick, List.getLast?_eq_none_iff.mp he]
    | some b =>
      have hb := List.mem_of_getLast? he
      have hlast : t.lastTick = b.stop := by simp [lastTick, he]
      have hmax : (t.bookings.map (·.stop)).max? = some b.stop :=
        List.max?_eq_some_iff.mpr ⟨List.mem_map_of_mem hb, List.forall_mem_map.mpr fun c hc =>
          hlast ▸ stop_le_lastTick hext hsep c hc⟩
      rw [hlast, hmax, Option.getD_some]

theorem Tidy.of_empty {t : Timeline} (h : t.bookings = []) : t.Tidy :=
  .of_separate (by simp [h]) (by simp [h]) (by simp [h])

theorem clash?_eq_none_iff {bs : List Booking} :
    clash? bs = none ↔ bs.IsChain fun a b => a.overlaps b = false := by
  induction bs with
  | nil => simp [clash?]
  | cons a bs ih =>
    cases bs with
    | nil => simp [clash?]
    | cons b bs =>
      rw [clash?, List.isChain_cons_cons, ← ih]
      cases a.overlaps b <;> simp

/-- The check looks at neighbours only. -/
theorem validate_eq_ok_iff {t : Timeline} :
    t.validate = .ok () ↔ t.bookings.IsChain fun a b => a.overlaps b = false := by
  rw [← clash?_eq_none_iff, validate]
  cases clash? t.bookings <;> simp

/-- There is nothing to find where no booking reaches into another. -/
theorem validate_of_apart {t : Timeline}
    (apart : t.bookings.Pairwise fun a b => a.overlaps b = false) : t.validate = .ok () :=
  validate_eq_ok_iff.mpr apart.isChain

namespace Tidy

variable {t : Timeline} {n : Booking}

theorem separate (h : t.Tidy) : t.bookings.Pairwise fun a b => a.stop ≤ b.start :=
  Booking.separate_of_apart h.extent (h.increasing.imp Nat.le_of_lt) h.apart

/-- The two neighbours speak for all bookings. -/
theorem neighbours_free_iff (h : t.Tidy) (hroom : n.start < n.stop) (hseq : n.seq = t.nextSeq) :
    (∀ b ∈ t.neighbours n, b.overlaps n = false) ↔
      ∀ b ∈ t.bookings, b.stop ≤ n.start ∨ n.stop ≤ b.start := by
  obtain ⟨front, back, hcut, hfront, hback⟩ := exists_cut n.start h.increasing
  have hext := h.extent
  have hsep := h.separate
  have hsorted := h.increasing
  have hnum := h.numbered
  rw [hcut] at hext hsep hsorted hnum
  have hbefore : ∀ b ∈ front ++ back, b.before n = true ↔ b.start ≤ n.start := fun b hb =>
    Booking.before_iff (by rw [hseq]; exact hnum b hb)
  have hn := neighbours_eq hcut
    (fun b hb => (hbefore b (List.mem_append_left _ hb)).mpr (hfront b hb))
    (fun b hb => by
      rw [← Bool.not_eq_true, hbefore b (List.mem_append_right _ hb)]
      exact Nat.not_le.mpr (hback b hb))
  rw [hn, hcut]
  constructor
  · intro hfree b hb
    rcases List.mem_append.mp hb with hb | hb
    · exact .inl (Booking.clear_front hroom (List.pairwise_append.mp hsep).1
        (fun c hc => hext c (List.mem_append_left _ hc)) hfront
        (fun c hc => hfree c (List.mem_append_left _ (by simp [hc]))) b hb)
    · exact .inr (Booking.clear_back (List.pairwise_append.mp hsorted).2.1
        (fun c hc => hext c (List.mem_append_right _ hc)) hback
        (fun c hc => hfree c (List.mem_append_right _ (by simp [hc]))) b hb)
  · intro hfree b hb
    have hmem : b ∈ front ++ back := by
      rcases List.mem_append.mp hb with hb | hb
      · exact List.mem_append_left _ (List.mem_of_getLast? (by simpa using hb))
      · exact List.mem_append_right _ (List.mem_of_head? (by simpa using hb))
    exact Booking.overlaps_eq_false.mpr (hfree b hmem).symm

/-- A newcomer with room to itself comes in between, and nothing else changes. -/
theorem insert_eq (h : t.Tidy) (hseq : n.seq = t.nextSeq) :
    ∃ front back, t.bookings = front ++ back ∧ (∀ b ∈ front, b.start ≤ n.start) ∧
      (∀ b ∈ back, n.start < b.start) ∧
      t.insert n = { t with
        bookings := front ++ n :: back, nextSeq := t.nextSeq + 1, fresh := false } := by
  obtain ⟨front, back, hcut, hfront, hback⟩ := exists_cut n.start h.increasing
  have hnum := h.numbered
  rw [hcut] at hnum
  refine ⟨front, back, hcut, hfront, hback, ?_⟩
  have hinsert : n.insert t.bookings = front ++ n :: back := by
    rw [hcut]
    exact Booking.insert_between
      (fun b hb => ⟨hfront b hb, by rw [hseq]; exact hnum b (List.mem_append_left _ hb)⟩) hback
  rw [insert, hinsert, hseq, Nat.max_self]

/-- The newcomer joins the bookings that are there. -/
theorem insert_perm (h : t.Tidy) (hseq : n.seq = t.nextSeq) :
    (t.insert n).bookings.Perm (n :: t.bookings) := by
  obtain ⟨front, back, hcut, -, -, hinsert⟩ := h.insert_eq hseq
  rw [hinsert, hcut]
  exact List.perm_middle

/-- A newcomer that begins when all the others are over goes behind them. -/
theorem insert_last (h : t.Tidy) (hseq : n.seq = t.nextSeq) (hover : t.lastTick ≤ n.start) :
    t.insert n = { t with
      bookings := t.bookings ++ [n], nextSeq := t.nextSeq + 1, fresh := false } := by
  obtain ⟨front, back, hcut, -, hback, hinsert⟩ := h.insert_eq hseq
  obtain rfl : back = [] := List.eq_nil_iff_forall_not_mem.mpr fun b hb => by
    have hmem : b ∈ t.bookings := by simp [hcut, hb]
    have hlate := hback b hb
    have hroom := h.extent b hmem
    have hstop := stop_le_lastTick h.extent h.separate b hmem
    omega
  rw [hinsert, hcut, List.append_nil]

/-- No booking begins together with one that has its ticks to itself. -/
theorem start_ne (h : t.Tidy) (hroom : n.start < n.stop)
    (hfree : ∀ b ∈ t.bookings, b.stop ≤ n.start ∨ n.stop ≤ b.start) :
    ∀ b ∈ t.bookings, b.start ≠ n.start := by
  intro b hb heq
  have hlong := h.extent b hb
  rcases hfree b hb with hle | hle <;> omega

theorem insert (h : t.Tidy) (hroom : n.start < n.stop) (hseq : n.seq = t.nextSeq)
    (hfree : ∀ b ∈ t.bookings, b.stop ≤ n.start ∨ n.stop ≤ b.start) : (t.insert n).Tidy := by
  obtain ⟨front, back, hcut, hfront, hback, hinsert⟩ := h.insert_eq hseq
  have hext := h.extent
  have hsep := h.separate
  have hnum := h.numbered
  rw [hcut] at hext hsep hnum hfree
  obtain ⟨hsepfront, hsepback, hacross⟩ := List.pairwise_append.mp hsep
  rw [hinsert]
  refine .of_separate ?_ ?_ ?_
  · intro b hb
    rcases List.mem_append.mp hb with hb | hb
    · exact hext b (List.mem_append_left _ hb)
    · rcases List.mem_cons.mp hb with rfl | hb
      · exact hroom
      · exact hext b (List.mem_append_right _ hb)
  · refine List.pairwise_append.mpr ⟨hsepfront, List.pairwise_cons.mpr ⟨?_, hsepback⟩, ?_⟩
    · intro b hb
      have hlt := hback b hb
      have hlong := hext b (List.mem_append_right _ hb)
      rcases hfree b (List.mem_append_right _ hb) with hle | hle
      · omega
      · exact hle
    · intro b hb c hc
      rcases List.mem_cons.mp hc with rfl | hc
      · have hle := hfront b hb
        rcases hfree b (List.mem_append_left _ hb) with hstop | hstop
        · exact hstop
        · omega
      · exact hacross b hb c hc
  · intro b hb
    rcases List.mem_append.mp hb with hb | hb
    · exact Nat.lt_succ_of_lt (hnum b (List.mem_append_left _ hb))
    · rcases List.mem_cons.mp hb with rfl | hb
      · exact hseq ▸ Nat.lt_succ_self t.nextSeq
      · exact Nat.lt_succ_of_lt (hnum b (List.mem_append_right _ hb))

/-- What is accepted has room to itself, and there is room for what is not refused. -/
theorem add_eq_ok_iff (h : t.Tidy) {i : Instruction} {t' : Timeline} :
    t.add i = .ok t' ↔ ∃ first stop, t.Occupies i first stop ∧
      (∀ b ∈ t.bookings, b.stop ≤ first ∨ stop ≤ b.start) ∧
      t' = t.insert ⟨first, stop, t.nextSeq, i⟩ := by
  have hadd : t.add i = .ok t' ↔ ∃ n, t.place i = .ok n ∧ t' = t.insert n := by
    unfold add
    cases t.place i <;> simp [Except.map, eq_comm]
  rw [hadd]
  constructor
  · rintro ⟨n, hplace, rfl⟩
    obtain ⟨first, stop, hocc, rfl, hfree⟩ := place_eq_ok_iff.mp hplace
    exact ⟨first, stop, hocc, (h.neighbours_free_iff hocc.room rfl).mp hfree, rfl⟩
  · rintro ⟨first, stop, hocc, hfree, rfl⟩
    exact ⟨_, place_eq_ok_iff.mpr
      ⟨first, stop, hocc, rfl, (h.neighbours_free_iff hocc.room rfl).mpr hfree⟩, rfl⟩

theorem clear (h : t.Tidy) : t.clear.Tidy := by
  unfold Timeline.clear
  split
  · exact h
  · exact .of_empty rfl

/-- What is not about bookings does not matter. -/
theorem of_bookings {u : Timeline} (h : t.Tidy) (bookings : u.bookings = t.bookings)
    (counted : u.nextSeq = t.nextSeq) : u.Tidy :=
  .of_separate (bookings ▸ h.extent) (bookings ▸ h.separate)
    (by rw [bookings, counted]; exact h.numbered)

theorem compile (h : t.Tidy) (stop : Nat) : (t.compile stop).1.Tidy := by
  unfold Timeline.compile
  cases t.signal stop with
  | error fault => exact h
  | ok s => exact h.of_bookings rfl rfl

theorem add (h : t.Tidy) {i : Instruction} {t' : Timeline} (added : t.add i = .ok t') :
    t'.Tidy := by
  obtain ⟨first, stop, hocc, hfree, rfl⟩ := h.add_eq_ok_iff.mp added
  exact h.insert hocc.room rfl hfree

theorem run (h : t.Tidy) (e : Edit) : (e.run t).1.Tidy := by
  cases e with
  | add i =>
    rw [Edit.run_add]
    cases hadd : t.add i with
    | error fault => exact h
    | ok t' => exact h.add hadd
  | clear => exact h.clear
  | compile stop => exact h.compile stop

theorem validate (h : t.Tidy) : t.validate = .ok () := validate_of_apart h.apart

end Tidy

/-- Whatever is done to a new timeline, its bookings stay sorted and apart, so that there is nothing
for `validate` to find. An instruction that fits the grid is accepted exactly if no booking reaches
into its ticks, and is then the one booking that comes in; a refusal changes nothing. -/
theorem tidy_accepts_iff_free (name : String) (line : Line) (rate registered : Float)
    (es : List Edit) :
    let t := ({ name, line, rate, registered } : Timeline).after es
    t.Tidy ∧ t.validate = .ok () ∧
    (∀ i first stop, t.Occupies i first stop →
      ((∃ t', t.add i = .ok t') ↔ ∀ b ∈ t.bookings, b.stop ≤ first ∨ stop ≤ b.start)) ∧
    (∀ i t', t.add i = .ok t' → ∃ first stop front back, t.Occupies i first stop ∧
      t.bookings = front ++ back ∧ t' = { t with
        bookings := front ++ ⟨first, stop, t.nextSeq, i⟩ :: back
        nextSeq := t.nextSeq + 1
        fresh := false }) ∧
    ∀ i fault, t.add i = .error fault → (Edit.add i).run t = (t, .error fault) := by
  intro t
  have tidy : t.Tidy := by
    have hafter : ∀ u : Timeline, u.Tidy → (u.after es).Tidy := by
      induction es with
      | nil => exact fun u hu => hu
      | cons e es ih => exact fun u hu => ih _ (hu.run e)
    exact hafter _ (.of_separate (by simp) (by simp) (by simp))
  refine ⟨tidy, tidy.validate, fun i first stop hocc => ?_, fun i t' hadd => ?_,
    fun i fault hadd => by simp [Edit.run_add, hadd]⟩
  · constructor
    · rintro ⟨t', hadd⟩
      obtain ⟨first', stop', hocc', hfree, -⟩ := tidy.add_eq_ok_iff.mp hadd
      have hsame := (span_eq_ok_iff.mpr hocc').symm.trans (span_eq_ok_iff.mpr hocc)
      cases hsame
      exact hfree
    · intro hfree
      exact ⟨_, tidy.add_eq_ok_iff.mpr ⟨first, stop, hocc, hfree, rfl⟩⟩
  · obtain ⟨first, stop, hocc, -, rfl⟩ := tidy.add_eq_ok_iff.mp hadd
    obtain ⟨front, back, hcut, -, -, hinsert⟩ :=
      tidy.insert_eq (n := ⟨first, stop, t.nextSeq, i⟩) rfl
    exact ⟨first, stop, front, back, hocc, hcut, hinsert⟩

/-- Levels of a second each, added in any order; what would begin in one of them is refused. -/
example :
    (({ name := "ao0", line := .analog, rate := 1000, registered := 0 } : Timeline).after
      [.add (.lasting 2 1 false (.constant 3)), .add (.lasting 0 1 false (.constant 1)),
        .add (.holding 0.5 .reset), .add (.lasting 1 1 false (.constant 2))]).bookings.map
      (fun b => (b.start, b.stop, b.seq)) = [(0, 1000, 1), (1000, 2000, 2), (2000, 3000, 0)] := by
  decide +kernel

end Timeline

end Sequencer
