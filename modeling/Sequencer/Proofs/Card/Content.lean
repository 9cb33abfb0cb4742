import Sequencer.Card.Compile
import Sequencer.Proofs.Table

namespace Sequencer

namespace Timeline

/-- A timeline without its mark of freshness. -/
def unmarked (t : Timeline) : Timeline := { t with fresh := true }

/-- A timeline without what only its owner reads: the nickname, the insertion count and the mark of
freshness. -/
def content (t : Timeline) : Timeline := { t with nickname := none, nextSeq := 0, fresh := true }

theorem segmentsFrom_content (t : Timeline) (stop : Nat) (bs : List Booking) (held : Float)
    (last : Nat) (bare : Bool) :
    t.content.segmentsFrom stop held last bare bs = t.segmentsFrom stop held last bare bs := by
  induction bs generalizing held last bare with
  | nil => rfl
  | cons b bs ih =>
    unfold segmentsFrom
    simp only [ih]
    rfl

theorem signal_content (t : Timeline) (stop : Nat) : t.content.signal stop = t.signal stop := by
  unfold signal segments
  rw [segmentsFrom_content]
  rfl

theorem compile_snd (t : Timeline) (stop : Nat) : (t.compile stop).2 = t.signal stop := by
  unfold compile
  cases t.signal stop <;> rfl

theorem compile_fst_unmarked (t : Timeline) (stop : Nat) :
    (t.compile stop).1.unmarked = t.unmarked := by
  unfold compile
  cases t.signal stop <;> rfl

section OfMap

variable {t u : Timeline} {g : Booking → Booking} (h : u.bookings = t.bookings.map g)
include h

/-- Bookings changed one by one are still as many. -/
theorem edited_of_map : u.edited = t.edited := by
  simp [edited, h]

theorem lastTick_of_map (hstop : ∀ b, (g b).stop = b.stop) : u.lastTick = t.lastTick := by
  simp only [lastTick, h, List.getLast?_map]
  cases t.bookings.getLast? with
  | none => rfl
  | some b => exact hstop b

theorem endsAt_of_map (hstop : ∀ b, (g b).stop = b.stop)
    (hholds : ∀ b, (g b).instr.holds = b.instr.holds) (tick : Nat) :
    u.endsAt tick = t.endsAt tick := by
  simp only [endsAt, h, List.getLast?_map]
  cases t.bookings.getLast? with
  | none => rfl
  | some b => simp only [Option.map_some, hstop, hholds]

end OfMap

/-- A signal is active when the timeline it was compiled from carries an instruction. -/
theorem signal_active {t : Timeline} {stop : Nat} {s : Signal} (h : t.signal stop = .ok s) :
    s.active = t.edited := by
  unfold signal at h
  cases hs : t.segments stop with
  | error e => simp [hs, Except.map] at h
  | ok ss =>
    simp only [hs, Except.map, Except.ok.injEq] at h
    subst s
    rfl

end Timeline

namespace Card

def unmarked (c : Card) : Card := { c with channels := c.channels.map (·.unmarked) }

/-- A card without its nickname and its ties, each timeline reduced to its content. -/
def content (c : Card) : Card :=
  { c with nickname := none, sync := {}, channels := c.channels.map (·.content) }

theorem compileChannel_content (stop : Nat) (t : Timeline) :
    (compileChannel stop t.content).2 = (compileChannel stop t).2 := by
  unfold compileChannel
  rw [show t.content.validate = t.validate from rfl]
  cases t.validate with
  | error e => rfl
  | ok u =>
    change (t.content.compile stop).2 = (t.compile stop).2
    rw [Timeline.compile_snd, Timeline.compile_snd, Timeline.signal_content]

theorem compileChannel_fst_unmarked (stop : Nat) (t : Timeline) :
    (compileChannel stop t).1.unmarked = t.unmarked := by
  unfold compileChannel
  cases t.validate with
  | error e => rfl
  | ok u => exact t.compile_fst_unmarked stop

theorem compileChannel_active {stop : Nat} {t : Timeline} {s : Signal}
    (h : (compileChannel stop t).2 = .ok s) : s.active = t.edited := by
  unfold compileChannel at h
  cases hv : t.validate with
  | error e => simp [hv] at h
  | ok u =>
    simp only [hv, Timeline.compile_snd] at h
    exact Timeline.signal_active h

section OfMap

variable {c d : Card} {f : Timeline → Timeline} (h : d.channels = c.channels.map f)
include h

theorem lastTick_of_map (hlast : ∀ t, (f t).lastTick = t.lastTick) : d.lastTick = c.lastTick := by
  simp only [lastTick, h, Table.values, Table.map, List.map_map, List.foldl_map,
    Function.comp_apply, hlast]

theorem edited_of_map (hedited : ∀ t, (f t).edited = t.edited) : d.edited = c.edited := by
  simp only [edited, h, Table.any, Table.map, List.any_map, Function.comp_def, hedited]

/-- When a card stops is decided by its name, its clock and the ends of its channels. -/
theorem stopTick_of_map (hname : d.name = c.name) (hrate : d.rate = c.rate)
    (hlast : ∀ t, (f t).lastTick = t.lastTick)
    (hends : ∀ t tick, (f t).endsAt tick = t.endsAt tick) (stop : Float) :
    d.stopTick stop = c.stopTick stop := by
  have hcard : ∀ tick, d.endsAt tick = c.endsAt tick := fun tick => by
    simp only [endsAt, h, Table.any, Table.map, List.any_map, Function.comp_def, hends]
  unfold stopTick
  simp only [hname, hrate, lastTick_of_map h hlast, hcard]

end OfMap

theorem stopTick_content (c : Card) (stop : Float) : c.content.stopTick stop = c.stopTick stop :=
  have hchannels : c.content.channels = c.channels.map Timeline.content := rfl
  stopTick_of_map hchannels rfl rfl (fun _ => rfl) (fun _ _ => rfl) stop

/-- What a card compiles to is decided by its content. -/
theorem compile_content (c : Card) (stop : Float) :
    (c.content.compile stop).2 = (c.compile stop).2 := by
  unfold compile
  rw [stopTick_content]
  cases c.stopTick stop with
  | error e => rfl
  | ok tick =>
    have hs := Table.traverseEntries_map_results (compileChannel tick) Timeline.content
      c.channels.entries fun e _ => compileChannel_content tick e.2
    simp only [Table.traverse, content, Table.map, hs]

theorem compile_of_content {c d : Card} (h : d.content = c.content) (stop : Float) :
    (d.compile stop).2 = (c.compile stop).2 := by
  rw [← compile_content d, h, compile_content]

/-- Compiling marks channels as fresh and changes nothing else, whether it succeeds or fails. -/
theorem compile_fst_unmarked (c : Card) (stop : Float) :
    (c.compile stop).1.unmarked = c.unmarked := by
  unfold compile
  cases c.stopTick stop with
  | error e => rfl
  | ok tick =>
    have he := Table.traverseEntries_map_entries (compileChannel tick) Timeline.unmarked
      (compileChannel_fst_unmarked tick) c.channels.entries
    simp only [Table.traverse, unmarked, Table.map, he]

theorem content_unmarked (c : Card) : c.unmarked.content = c.content := by
  simp only [content, unmarked, Table.map, List.map_map]
  rfl

theorem compile_fst_content (c : Card) (stop : Float) :
    (c.compile stop).1.content = c.content := by
  rw [← content_unmarked, compile_fst_unmarked, content_unmarked]

/-- No channel goes on after the card. -/
theorem lastTick_le {c : Card} {e : String × Timeline} (he : e ∈ c.channels.entries) :
    e.2.lastTick ≤ c.lastTick := by
  have hfold : ∀ (ts : List Timeline) (n : Nat), n ≤ ts.foldl (fun n t => max n t.lastTick) n ∧
      ∀ t ∈ ts, t.lastTick ≤ ts.foldl (fun n t => max n t.lastTick) n := by
    intro ts
    induction ts with
    | nil => simp
    | cons u ts ih =>
      intro n
      obtain ⟨hle, hall⟩ := ih (max n u.lastTick)
      refine ⟨Nat.le_trans (Nat.le_max_left _ _) hle, fun t ht => ?_⟩
      rcases List.mem_cons.mp ht with rfl | ht
      · exact Nat.le_trans (Nat.le_max_right _ _) hle
      · exact hall t ht
  exact (hfold c.channels.values 0).2 e.2 (List.mem_map_of_mem he)

theorem stopTick_eq (c : Card) (stop : Float) : c.stopTick stop =
    match tickAt? stop c.rate with
    | none => .error (.range (.stopOffGrid c.name stop))
    | some tick =>
      if tick < c.lastTick then .error (.range (.stopTooEarly c.name stop tick c.lastTick))
      else if c.endsAt tick then
        if tick + 1 < tickLimit then .ok (tick + 1)
        else .error (.range (.noClosingTick c.name tick))
      else .ok tick := by
  unfold stopTick
  cases tickAt? stop c.rate with
  | none => rfl
  | some tick =>
    dsimp only
    split <;> rfl

theorem compile_ok {c : Card} {stop : Float} {q : CardProgram} (h : (c.compile stop).2 = .ok q) :
    ∃ tick, c.stopTick stop = .ok tick ∧ q.rate = c.rate ∧ q.samples = tick ∧
      List.Forall₂ (fun e r => r.1 = e.1 ∧ (compileChannel tick e.2).2 = .ok r.2)
        c.channels.entries q.signals.entries := by
  unfold compile at h
  cases hs : c.stopTick stop with
  | error e => simp [hs] at h
  | ok tick =>
    simp only [hs, Table.traverse] at h
    cases hr : (Table.traverseEntries (compileChannel tick) c.channels.entries).2 with
    | error e => simp [hr, Except.map] at h
    | ok rs =>
      simp only [hr, Except.map, Except.ok.injEq] at h
      subst q
      exact ⟨tick, rfl, rfl, rfl, (Table.traverseEntries_ok _ hr).2⟩

/-- A compiled card has the channels of the card. -/
theorem compile_names {c : Card} {stop : Float} {q : CardProgram}
    (h : (c.compile stop).2 = .ok q) : q.signals.names = c.channels.names := by
  obtain ⟨tick, -, -, -, hrs⟩ := compile_ok h
  unfold Table.names
  generalize c.channels.entries = es, q.signals.entries = rs at hrs ⊢
  induction hrs with
  | nil => rfl
  | cons hr _ ih => rw [List.map_cons, List.map_cons, hr.1, ih]

/-- A compiled card is active when the card carries an instruction. -/
theorem compile_active {c : Card} {stop : Float} {q : CardProgram}
    (h : (c.compile stop).2 = .ok q) : q.active = c.edited := by
  obtain ⟨tick, -, -, -, hrs⟩ := compile_ok h
  unfold CardProgram.active edited Table.any
  generalize c.channels.entries = es, q.signals.entries = rs at hrs ⊢
  induction hrs with
  | nil => rfl
  | cons hr _ ih => simp only [List.any_cons, compileChannel_active hr.2, ih]

end Card

end Sequencer
