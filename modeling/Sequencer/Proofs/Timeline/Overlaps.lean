import Sequencer.Proofs.Sorted
import Sequencer.Proofs.Timeline.Acceptance

namespace Sequencer

namespace Booking

theorem order_eq_lt_iff {a b : Booking} :
    a.order b = .lt ↔ a.start < b.start ∨ a.start = b.start ∧ a.seq < b.seq := by
  simp only [order, Ordering.then_eq_lt, Nat.compare_eq_lt, Nat.compare_eq_eq]

theorem order_eq_eq_iff {a b : Booking} :
    a.order b = .eq ↔ a.start = b.start ∧ a.seq = b.seq := by
  simp only [order, Ordering.then_eq_eq, Nat.compare_eq_eq]

instance : Std.TransCmp order :=
  inferInstanceAs (Std.TransCmp (compareLex (compareOn Booking.start) (compareOn Booking.seq)))

theorem insert_sorted (b : Booking) (bs : List Booking) :
    b.insert bs = Sorted.insert order b bs := by
  induction bs with
  | nil => rfl
  | cons c bs ih =>
    cases horder : b.order c <;> simp only [insert, Sorted.insert, horder, ih]

/-- Among bookings in the order of their starts, those that do not reach into the next one reach
into none. -/
theorem apart_of_neighbours {bs : List Booking} (hext : ∀ b ∈ bs, b.start < b.stop)
    (hsorted : bs.Pairwise fun a b => a.start ≤ b.start)
    (hnext : bs.IsChain fun a b => a.overlaps b = false) :
    bs.Pairwise fun a b => a.overlaps b = false := by
  induction bs with
  | nil => exact .nil
  | cons a bs ih =>
    obtain ⟨hfirst, hrest⟩ := List.pairwise_cons.mp hsorted
    have hapart := ih (fun b hb => hext b (List.mem_cons_of_mem _ hb)) hrest hnext.tail
    refine List.pairwise_cons.mpr ⟨fun c hc => ?_, hapart⟩
    cases bs with
    | nil => cases hc
    | cons b bs =>
      -- `a` is over when the next one begins, and that one begins first of those behind `a`.
      have hover : a.stop ≤ b.start := by
        have hroom := hext b (by simp)
        have hle := hfirst b List.mem_cons_self
        rcases overlaps_eq_false.mp (List.isChain_cons_cons.mp hnext).1 with h | h
        · omega
        · exact h
      have hbc : b.start ≤ c.start := by
        rcases List.mem_cons.mp hc with rfl | hc
        · exact Nat.le_refl _
        · exact (List.pairwise_cons.mp hrest).1 c hc
      exact overlaps_eq_false.mpr (.inr (Nat.le_trans hover hbc))

end Booking

namespace Timeline

theorem clash?_eq_some {bs : List Booking} {a b : Booking} (h : clash? bs = some (a, b)) :
    [a, b] <:+: bs ∧ a.overlaps b = true := by
  induction bs with
  | nil => cases h
  | cons c bs ih =>
    cases bs with
    | nil => cases h
    | cons d bs =>
      rw [clash?] at h
      split at h
      case isTrue hover =>
        cases h
        exact ⟨⟨[], bs, rfl⟩, hover⟩
      case isFalse =>
        obtain ⟨hpair, hover⟩ := ih h
        exact ⟨hpair.trans (List.suffix_cons c (d :: bs)).isInfix, hover⟩

/-- An error is about two neighbours, of which the later one counts as new. -/
theorem validate_eq_error {t : Timeline} {e : Error} (h : t.validate = .error e) :
    ∃ a b, [a, b] <:+: t.bookings ∧ a.overlaps b = true ∧ e = .overlap t.name b a := by
  unfold validate at h
  cases hclash : clash? t.bookings with
  | none => simp [hclash] at h
  | some pair =>
    obtain ⟨a, b⟩ := pair
    obtain ⟨hpair, hover⟩ := clash?_eq_some hclash
    refine ⟨a, b, hpair, hover, ?_⟩
    simpa [hclash] using h.symm

/-- The timeline after these bookings were committed as they are, one after the other. -/
def commitAll (bs : List Booking) (t : Timeline) : Timeline := bs.foldl (fun t b => t.insert b) t

theorem name_commitAll (bs : List Booking) (t : Timeline) : (t.commitAll bs).name = t.name := by
  induction bs generalizing t with
  | nil => rfl
  | cons b bs ih => exact ih (t.insert b)

theorem bookings_commitAll {t : Timeline} (h : t.bookings = []) (bs : List Booking) :
    (t.commitAll bs).bookings = Sorted.insertAll Booking.order bs := by
  induction bs using List.reverseRecOn with
  | nil => exact h
  | append_singleton bs b ih =>
    rw [Sorted.insertAll_concat, ← ih, ← Booking.insert_sorted]
    simp [commitAll, insert]

/-- Whatever bookings a timeline was made of, it is sorted, and of those with the same key it keeps
the first. Its check of neighbours passes exactly if no two bookings overlap, and an error names two
of them that do. -/
theorem validate_finds_overlaps (name : String) (line : Line) (rate registered : Float)
    (bs : List Booking) (extent : ∀ b ∈ bs, b.start < b.stop) :
    let t := ({ name, line, rate, registered } : Timeline).commitAll bs
    t.bookings.Pairwise (fun a b => a.start < b.start ∨ a.start = b.start ∧ a.seq < b.seq) ∧
    (∀ b, b ∈ t.bookings ↔ bs.find? (fun c => b.start == c.start && b.seq == c.seq) = some b) ∧
    (t.validate = .ok () ↔ t.bookings.Pairwise fun a b => a.overlaps b = false) ∧
    ∀ e, t.validate = .error e → ∃ a b, [a, b].Sublist t.bookings ∧ a.overlaps b = true ∧
      e = .overlap name b a ∧ e.message = "channel " ++ name ++ ": instruction " ++ b.text ++
        " overlaps with existing instruction " ++ a.text := by
  intro t
  have hbookings : t.bookings = Sorted.insertAll Booking.order bs := bookings_commitAll rfl bs
  have hsorted : Sorted.Strictly Booking.order t.bookings :=
    hbookings ▸ Sorted.strictly_insertAll bs
  have hkey : ∀ b c : Booking,
      (b.order c == .eq) = (b.start == c.start && b.seq == c.seq) := fun b c => by
    rw [Bool.eq_iff_iff]
    simp [Booking.order_eq_eq_iff]
  have hmem : ∀ b, b ∈ t.bookings ↔
      bs.find? (fun c => b.start == c.start && b.seq == c.seq) = some b := fun b => by
    simp only [hbookings, Sorted.mem_insertAll, hkey]
  have hext : ∀ b ∈ t.bookings, b.start < b.stop := fun b hb =>
    extent b (List.mem_of_find?_eq_some ((hmem b).mp hb))
  refine ⟨hsorted.imp Booking.order_eq_lt_iff.mp, hmem, ⟨fun hok => ?_, validate_of_apart⟩,
    fun e herror => ?_⟩
  · have hstart : t.bookings.Pairwise fun a b => a.start ≤ b.start :=
      hsorted.imp fun h => Booking.start_le_of_before (by simp [Booking.before, h])
    exact Booking.apart_of_neighbours hext hstart (validate_eq_ok_iff.mp hok)
  · obtain ⟨a, b, hpair, hover, rfl⟩ := validate_eq_error herror
    have hname : t.name = name := name_commitAll bs _
    exact ⟨a, b, hpair.sublist, hover, by rw [hname], by rw [hname]; rfl⟩

/-- A long level, shorter ones on top of it of which two begin together, and one whose key is
taken. -/
def stackedBookings : List Booking :=
  [⟨10, 12, 1, .lasting 1 0.2 false (.constant 1)⟩, ⟨0, 30, 0, .lasting 0 3 false (.constant 2)⟩,
    ⟨10, 11, 2, .holding 1 .reset⟩, ⟨10, 40, 1, .lasting 1 3 false (.constant 3)⟩,
    ⟨20, 25, 3, .lasting 2 0.5 true (.constant 4)⟩]

theorem stackedBookings_overlap :
    (∀ b ∈ stackedBookings, b.start < b.stop) ∧
    let t := ({ name := "ao0", line := .analog, rate := 10, registered := 0 } : Timeline).commitAll
      stackedBookings
    t.bookings.map (fun b => (b.start, b.stop, b.seq)) =
      [(0, 30, 0), (10, 12, 1), (10, 11, 2), (20, 25, 3)] ∧
    ¬ t.bookings.Pairwise fun a b => a.overlaps b = false := by
  have extent : ∀ b ∈ stackedBookings, b.start < b.stop := by decide
  refine ⟨extent, rfl, fun apart => ?_⟩
  have hok := (validate_finds_overlaps "ao0" .analog 10 0 stackedBookings extent).2.2.1.mpr apart
  cases hok

end Timeline

end Sequencer
