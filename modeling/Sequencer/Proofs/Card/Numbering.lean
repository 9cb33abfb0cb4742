import Sequencer.Proofs.Card.Content
import Sequencer.Proofs.Timeline.Acceptance

namespace Sequencer

namespace Booking

/-- A booking without its insertion number. -/
def unnumbered (b : Booking) : Booking := { b with seq := 0 }

theorem order_of_start_ne {a b : Booking} (h : a.start ≠ b.start) :
    a.order b = compare a.start b.start := by
  rcases Nat.lt_or_gt_of_ne h with hlt | hgt
  · simp [order, Nat.compare_eq_lt.mpr hlt]
  · simp [order, Nat.compare_eq_gt.mpr hgt]

theorem insert_unnumbered {b : Booking} {bs : List Booking} (h : ∀ c ∈ bs, c.start ≠ b.start) :
    (b.insert bs).map unnumbered = b.unnumbered.insert (bs.map unnumbered) := by
  induction bs with
  | nil => rfl
  | cons c bs ih =>
    have hne : b.start ≠ c.start := (h c List.mem_cons_self).symm
    have horder : b.unnumbered.order c.unnumbered = b.order c := by
      rw [order_of_start_ne hne]
      exact order_of_start_ne hne
    have htail := ih fun d hd => h d (List.mem_cons_of_mem _ hd)
    simp only [insert, List.map_cons, horder]
    cases b.order c with
    | lt => rfl
    | eq => rfl
    | gt => rw [List.map_cons, htail]

theorem start_le_of_order {a b : Booking} (h : a.order b ≠ .gt) : a.start ≤ b.start := by
  simp only [order, ne_eq, Ordering.then_eq_gt, Nat.compare_eq_gt] at h
  omega

/-- Bookings that begin at different ticks come in the same way in either order. -/
theorem insert_comm {a b : Booking} (h : a.start < b.start) (bs : List Booking) :
    a.insert (b.insert bs) = b.insert (a.insert bs) := by
  have hab : a.order b = .lt := order_eq_lt h
  have hba : b.order a = .gt := by
    rw [order_of_start_ne h.ne']
    exact Nat.compare_eq_gt.mpr h
  induction bs with
  | nil => simp [insert, hab, hba]
  | cons c bs ih =>
    -- What comes in before `c` with `b`, comes in before `c` with `a`.
    have hfirst : b.order c ≠ .gt → a.order c = .lt := fun hb =>
      order_eq_lt (Nat.lt_of_lt_of_le h (start_le_of_order hb))
    cases hb : b.order c with
    | lt => simp [insert, hab, hba, hb, hfirst (by simp [hb])]
    | eq => simp [insert, hba, hb, hfirst (by simp [hb])]
    | gt =>
      cases ha : a.order c with
      | lt => simp [insert, ha, hb, hba]
      | eq => simp [insert, ha, hb]
      | gt => simp [insert, ha, hb, ih]

end Booking

namespace Timeline

/-- A timeline without insertion numbers and without its mark of freshness. -/
def unnumbered (t : Timeline) : Timeline :=
  { t with bookings := t.bookings.map (·.unnumbered), nextSeq := 0, fresh := true }

/-- Nothing but the booking comes in. -/
def enter (b : Booking) (t : Timeline) : Timeline := { t with bookings := b.insert t.bookings }

theorem insert_unnumbered {t : Timeline} {b : Booking} (h : ∀ c ∈ t.bookings, c.start ≠ b.start) :
    (t.insert b).unnumbered = t.unnumbered.enter b.unnumbered := by
  simp only [unnumbered, insert, enter, Booking.insert_unnumbered h]

/-- No booking reaches into another. -/
def Apart (t : Timeline) : Prop := t.bookings.Pairwise fun a b => a.overlaps b = false

theorem apart_unnumbered {t : Timeline} : t.unnumbered.Apart ↔ t.Apart := List.pairwise_map

theorem bookings_unnumbered (t : Timeline) :
    t.unnumbered.bookings = t.bookings.map Booking.unnumbered := rfl

theorem lastTick_unnumbered (t : Timeline) : t.unnumbered.lastTick = t.lastTick :=
  lastTick_of_map (bookings_unnumbered t) fun _ => rfl

theorem edited_unnumbered (t : Timeline) : t.unnumbered.edited = t.edited :=
  edited_of_map (bookings_unnumbered t)

theorem endsAt_unnumbered (t : Timeline) (tick : Nat) :
    t.unnumbered.endsAt tick = t.endsAt tick :=
  endsAt_of_map (bookings_unnumbered t) (fun _ => rfl) (fun _ => rfl) tick

theorem segmentsFrom_unnumbered (t : Timeline) (stop : Nat) (bs : List Booking) (held : Float)
    (last : Nat) (bare : Bool) :
    t.unnumbered.segmentsFrom stop held last bare (bs.map (·.unnumbered)) =
      t.segmentsFrom stop held last bare bs := by
  induction bs generalizing held last bare with
  | nil => rfl
  | cons b bs ih =>
    have htill : segmentStop stop b.unnumbered (bs.map (·.unnumbered)) = segmentStop stop b bs := by
      unfold segmentStop
      rw [List.head?_map, Option.map_map]
      rfl
    simp only [List.map_cons, segmentsFrom, htill, ih]
    rfl

theorem signal_unnumbered (t : Timeline) (stop : Nat) :
    t.unnumbered.signal stop = t.signal stop := by
  have hlast : t.unnumbered.lastTime = t.lastTime := by
    simp only [lastTime, lastTick_unnumbered]
    rfl
  unfold signal segments
  rw [lastTick_unnumbered, edited_unnumbered, hlast]
  have hsegments := t.segmentsFrom_unnumbered stop t.bookings t.idle 0 true
  change (if stop < t.lastTick then _ else (t.unnumbered.segmentsFrom stop t.idle 0 true
    (t.bookings.map (·.unnumbered))).map merge).map _ = _
  rw [hsegments]
  rfl

end Timeline

namespace Card

/-- A card whose channels are without insertion numbers and marks of freshness. -/
def unnumbered (c : Card) : Card := { c with channels := c.channels.map (·.unnumbered) }

theorem unnumbered_unmarked (c : Card) : c.unmarked.unnumbered = c.unnumbered := by
  simp only [unnumbered, unmarked, Table.map, List.map_map]
  rfl

theorem channels_unnumbered (c : Card) :
    c.unnumbered.channels = c.channels.map Timeline.unnumbered := rfl

theorem lastTick_unnumbered (c : Card) : c.unnumbered.lastTick = c.lastTick :=
  lastTick_of_map (channels_unnumbered c) Timeline.lastTick_unnumbered

theorem edited_unnumbered (c : Card) : c.unnumbered.edited = c.edited :=
  edited_of_map (channels_unnumbered c) Timeline.edited_unnumbered

theorem stopTick_unnumbered (c : Card) (stop : Float) :
    c.unnumbered.stopTick stop = c.stopTick stop :=
  stopTick_of_map (channels_unnumbered c) rfl rfl Timeline.lastTick_unnumbered
    Timeline.endsAt_unnumbered stop

theorem compileChannel_unnumbered {t : Timeline} (apart : t.Apart) (stop : Nat) :
    (compileChannel stop t.unnumbered).2 = (compileChannel stop t).2 := by
  have hvalid : t.unnumbered.validate = .ok () :=
    Timeline.validate_of_apart (Timeline.apart_unnumbered.mpr apart)
  rw [compileChannel, compileChannel, hvalid, Timeline.validate_of_apart apart]
  change (t.unnumbered.compile stop).2 = (t.compile stop).2
  rw [Timeline.compile_snd, Timeline.compile_snd, Timeline.signal_unnumbered]

/-- Insertion numbers are nothing to what a card compiles to. -/
theorem compile_unnumbered {c : Card} (apart : ∀ e ∈ c.channels.entries, e.2.Apart) (stop : Float) :
    (c.unnumbered.compile stop).2 = (c.compile stop).2 := by
  unfold compile
  rw [stopTick_unnumbered]
  cases c.stopTick stop with
  | error e => rfl
  | ok tick =>
    have hs := Table.traverseEntries_map_results (compileChannel tick) Timeline.unnumbered
      c.channels.entries fun e he => compileChannel_unnumbered (apart e he) tick
    simp only [Table.traverse, unnumbered, Table.map, hs]

end Card

end Sequencer
