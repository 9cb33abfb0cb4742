import Sequencer.Proofs.Card.Numbering

namespace Sequencer

/-- Any action of a digital line stands for all of them, but for a reset. -/
def Action.outline : Action → Action
  | .high | .low | .goHigh | .goLow => .goHigh
  | a => a

def Line.outline : Line → Line
  | .inverted => .digital
  | l => l

def Instruction.outline (i : Instruction) : Instruction := { i with action := i.action.outline }

def Booking.outline (b : Booking) : Booking := { b with instr := b.instr.outline }

theorem Line.switch_outline (on lasting : Bool) (l : Line) :
    (l.switch on lasting).outline = .goHigh := by
  unfold switch
  split <;> split <;> rfl

theorem Line.isDigital_outline (l : Line) : l.outline.isDigital = l.isDigital := by
  cases l <;> rfl

/-- Whether an instruction can be followed does not depend on levels. -/
theorem Line.wave?_outline (i : Instruction) (idle idle' : Float) (l : Line) :
    (l.outline.wave? i.outline idle').isSome = (l.wave? i idle).isSome := by
  unfold wave?
  rw [isDigital_outline]
  cases l.isDigital <;> cases h : i.action <;> simp [Instruction.outline, Action.outline, h]

theorem Instruction.fault?_outline (i : Instruction) : i.outline.fault? = i.fault? := by
  have hparameters : i.outline.action.parameters = i.action.parameters := by
    cases h : i.action <;> simp [outline, Action.outline, Action.parameters, h]
  unfold fault?
  rw [hparameters]
  rfl

namespace Timeline

/-- A timeline of which only this much is known. -/
def outline (t : Timeline) : Timeline :=
  { t with line := t.line.outline, bookings := t.bookings.map (·.outline), fresh := true }

variable {t t' : Timeline} {i i' : Instruction}

theorem bookings_outline (t : Timeline) : t.outline.bookings = t.bookings.map Booking.outline := rfl

theorem lastTick_outline (t : Timeline) : t.outline.lastTick = t.lastTick :=
  lastTick_of_map (bookings_outline t) fun _ => rfl

theorem edited_outline (t : Timeline) : t.outline.edited = t.edited :=
  edited_of_map (bookings_outline t)

theorem endsAt_outline (t : Timeline) (tick : Nat) : t.outline.endsAt tick = t.endsAt tick :=
  endsAt_of_map (bookings_outline t) (fun _ => rfl) (fun _ => rfl) tick

theorem clear_outline (t : Timeline) : t.clear.outline = { t.outline with bookings := [] } := by
  unfold clear outline
  cases h : t.bookings <;> simp [h]

theorem neighbours_outline (t : Timeline) (b : Booking) :
    t.outline.neighbours b.outline = (t.neighbours b).map (·.outline) := by
  have hbefore : ((·.before b.outline) ∘ Booking.outline) = (·.before b) := rfl
  have hnot : ((fun c => !c.before b.outline) ∘ Booking.outline) = fun c => !c.before b := rfl
  simp only [neighbours, outline, List.filter_map, List.find?_map, hbefore, hnot, List.getLast?_map,
    List.map_append]
  cases (t.bookings.filter (·.before b)).getLast? <;>
    cases t.bookings.find? (fun c => !c.before b) <;> rfl

theorem occupies_outline {first stop : Nat} :
    t.outline.Occupies i.outline first stop ↔ t.Occupies i first stop := by
  have hends : t.outline.stopTick? i.outline first = t.stopTick? i first := rfl
  constructor
  · rintro ⟨hfault, hbegins, hstop, hroom⟩
    exact ⟨i.fault?_outline ▸ hfault, hbegins, hends ▸ hstop, hroom⟩
  · rintro ⟨hfault, hbegins, hstop, hroom⟩
    exact ⟨i.fault?_outline ▸ hfault, hbegins, hends ▸ hstop, hroom⟩

/-- Where an instruction can be placed is seen from outlines. -/
theorem place_outline {b : Booking} : t.outline.place i.outline = .ok b ↔
    ∃ c, t.place i = .ok c ∧ b = c.outline := by
  simp only [place_eq_ok_iff, occupies_outline]
  constructor
  · rintro ⟨first, stop, hocc, rfl, hfree⟩
    refine ⟨⟨first, stop, t.nextSeq, i⟩, ⟨first, stop, hocc, rfl, fun c hc => ?_⟩, rfl⟩
    have hneighbours := t.neighbours_outline ⟨first, stop, t.nextSeq, i⟩
    exact hfree c.outline (hneighbours ▸ List.mem_map_of_mem hc)
  · rintro ⟨_, ⟨first, stop, hocc, rfl, hfree⟩, rfl⟩
    refine ⟨first, stop, hocc, rfl, fun c hc => ?_⟩
    obtain ⟨d, hd, rfl⟩ := List.mem_map.mp (t.neighbours_outline ⟨first, stop, t.nextSeq, i⟩ ▸ hc)
    exact hfree d hd

theorem place_instr {b : Booking} (h : t.place i = .ok b) : b.instr = i := by
  obtain ⟨_, _, -, rfl, -⟩ := place_eq_ok_iff.mp h
  rfl

/-- Instructions alike are placed alike. -/
theorem place_agree (h : t'.outline = t.outline) (hi : i'.outline = i.outline) :
    Agree (fun b b' => b.instr = i ∧ b' = { b with instr := i' }) (t.place i) (t'.place i') := by
  have hsame : t'.outline.place i'.outline = t.outline.place i.outline := by rw [h, hi]
  cases hb : t.place i with
  | ok b =>
    obtain ⟨b', hb', heq⟩ := place_outline.mp (hsame.trans (place_outline.mpr ⟨b, hb, rfl⟩))
    rw [hb']
    refine .ok ⟨place_instr hb, ?_⟩
    obtain ⟨hstart, hstop, hseq, -⟩ := Booking.mk.inj heq
    have hinstr : b'.instr = i' := place_instr hb'
    rw [← hinstr, hstart, hstop, hseq]
  | error e =>
    cases hb' : t'.place i' with
    | ok b' =>
      obtain ⟨b, hplaced, -⟩ :=
        place_outline.mp (hsame.symm.trans (place_outline.mpr ⟨b', hb', rfl⟩))
      cases hb.symm.trans hplaced
    | error e' => exact .error e e'

theorem clash?_outline (bs : List Booking) : clash? (bs.map (·.outline)) =
    (clash? bs).map fun c => (c.1.outline, c.2.outline) := by
  induction bs with
  | nil => rfl
  | cons b bs ih =>
    cases bs with
    | nil => rfl
    | cons c bs =>
      simp only [List.map_cons, clash?] at ih ⊢
      rw [ih]
      change (if b.overlaps c = true then _ else _) = _
      split <;> rfl

theorem segmentsFrom_agree (hline : t'.line.outline = t.line.outline) (stop : Nat)
    {bs bs' : List Booking} (h : List.Forall₂ (fun b b' => b'.outline = b.outline) bs bs')
    (held held' : Float) (last last' : Nat) (bare bare' : Bool) :
    Agree (fun _ _ => True) (t.segmentsFrom stop held last bare bs)
      (t'.segmentsFrom stop held' last' bare' bs') := by
  induction h generalizing held held' last last' bare bare' with
  | nil => exact .ok trivial
  | @cons b b' bs bs' hb _ ih =>
    have hwave : (t'.line.wave? b'.instr t'.idle).isSome =
        (t.line.wave? b.instr t.idle).isSome := by
      rw [← Line.wave?_outline b.instr t.idle 0, ← Line.wave?_outline b'.instr t'.idle 0, hline,
        show b'.instr.outline = b.instr.outline from congrArg Booking.instr hb]
    unfold segmentsFrom
    cases hw : t.line.wave? b.instr t.idle <;> cases hw' : t'.line.wave? b'.instr t'.idle
    · exact .error _ _
    · simp [hw, hw'] at hwave
    · simp [hw, hw'] at hwave
    · exact (ih ..).bind fun _ _ _ => .ok trivial

theorem signal_agree (h : t'.outline = t.outline) (stop : Nat) :
    Agree (fun _ _ => True) (t.signal stop) (t'.signal stop) := by
  have hlast : t'.lastTick = t.lastTick := by rw [← lastTick_outline t', h, lastTick_outline]
  have hbookings := forall₂_of_map_eq (congrArg Timeline.bookings h)
  unfold signal segments
  rw [hlast]
  refine Agree.map (R := fun _ _ => True) ?_ fun _ _ _ => trivial
  split
  · exact .error _ _
  · exact (segmentsFrom_agree (congrArg Timeline.line h) stop hbookings ..).map fun _ _ _ => trivial

end Timeline

namespace Card

def outline (c : Card) : Card := { c with channels := c.channels.map (·.outline) }

variable {c c' : Card}

theorem outline_unmarked (c : Card) : c.unmarked.outline = c.outline := by
  simp only [outline, unmarked, Table.map, List.map_map]
  rfl

theorem channels_of_outline (h : c'.outline = c.outline) :
    List.Forall₂ (fun e e' => e'.1 = e.1 ∧ e'.2.outline = e.2.outline)
      c.channels.entries c'.channels.entries := by
  have hentries : c'.channels.entries.map (fun e => (e.1, e.2.outline)) =
      c.channels.entries.map fun e => (e.1, e.2.outline) :=
    congrArg (fun c : Card => c.channels.entries) h
  exact (forall₂_of_map_eq hentries).imp fun _ _ heq => Prod.mk.inj heq

theorem channels_outline (c : Card) : c.outline.channels = c.channels.map Timeline.outline := rfl

theorem lastTick_outline (c : Card) : c.outline.lastTick = c.lastTick :=
  lastTick_of_map (channels_outline c) Timeline.lastTick_outline

theorem edited_outline (c : Card) : c.outline.edited = c.edited :=
  edited_of_map (channels_outline c) Timeline.edited_outline

theorem stopTick_outline (c : Card) (stop : Float) : c.outline.stopTick stop = c.stopTick stop :=
  stopTick_of_map (channels_outline c) rfl rfl Timeline.lastTick_outline
    Timeline.endsAt_outline stop

theorem clearEdits_outline (h : c'.outline = c.outline) :
    c'.clearEdits.outline = c.clearEdits.outline := by
  have hclear : ∀ c : Card, c.clearEdits.outline = { c.outline with
      channels := c.outline.channels.map fun t => { t with bookings := [] } } := by
    intro c
    simp only [clearEdits, outline, Table.map, List.map_map, Function.comp_def,
      Timeline.clear_outline]
  rw [hclear, hclear, h]

theorem reset_outline (h : c'.outline = c.outline) : c'.reset.outline = c.reset.outline :=
  show ({ c'.clearEdits.outline with sync := {} } : Card) = { c.clearEdits.outline with sync := {} }
    by rw [clearEdits_outline h]

theorem compileChannel_agree {t t' : Timeline} (h : t'.outline = t.outline) (stop : Nat) :
    Agree (fun _ _ => True) (compileChannel stop t).2 (compileChannel stop t').2 := by
  have hclash : (Timeline.clash? t'.bookings).map (fun c => (c.1.outline, c.2.outline)) =
      (Timeline.clash? t.bookings).map fun c => (c.1.outline, c.2.outline) := by
    rw [← Timeline.clash?_outline, ← Timeline.clash?_outline]
    exact congrArg (fun t => Timeline.clash? t.bookings) h
  unfold compileChannel Timeline.validate
  cases hc : Timeline.clash? t.bookings <;> cases hc' : Timeline.clash? t'.bookings
  · change Agree _ (t.compile stop).2 (t'.compile stop).2
    rw [Timeline.compile_snd, Timeline.compile_snd]
    exact Timeline.signal_agree h stop
  · simp [hc, hc'] at hclash
  · simp [hc, hc'] at hclash
  · exact .error _ _

/-- Whether a card can be compiled is seen from its outline. -/
theorem compile_agree (h : c'.outline = c.outline) (stop : Float) :
    Agree (fun _ _ => True) (c.compile stop).2 (c'.compile stop).2 := by
  unfold compile
  rw [← stopTick_outline c', h, stopTick_outline]
  cases c.stopTick stop with
  | error e => exact .error _ _
  | ok tick =>
    have hchannels : List.Forall₂ (fun e e' => Agree (fun _ _ => True)
        (compileChannel tick e.2).2 (compileChannel tick e'.2).2)
        c.channels.entries c'.channels.entries :=
      (channels_of_outline h).imp fun e e' he => compileChannel_agree he.2 tick
    exact (Table.traverse_agree hchannels).map fun _ _ _ => trivial

/-- The resets of a card are seen from its outline, since they bring out no level. -/
theorem placeReset_agree (h : c'.outline = c.outline) (t : Float) :
    Agree Eq (c.placeReset t) (c'.placeReset t) := by
  have hrate : c'.rate = c.rate := show c'.outline.rate = c.outline.rate by rw [h]
  have hlast : c'.lastTick = c.lastTick := by rw [← lastTick_outline c', h, lastTick_outline]
  have hplace : ∀ {ch ch' : Timeline}, ch'.outline = ch.outline →
      Agree Eq (do return (ch.name, ← ch.place (.holding t .reset)) : Except Error _)
        (do return (ch'.name, ← ch'.place (.holding t .reset))) := by
    intro ch ch' hch
    refine (Timeline.place_agree hch rfl).bind ?_
    rintro b b' ⟨hinstr, rfl⟩
    refine .ok (Prod.ext ?_ ?_)
    · exact (show ch'.outline.name = ch.outline.name by rw [hch]).symm
    · rw [← hinstr]
  have hchannels : List.Forall₂ (fun ch ch' : Timeline => ch'.outline = ch.outline)
      c.channels.values c'.channels.values :=
    List.forall₂_map_left_iff.mpr (List.forall₂_map_right_iff.mpr
      ((channels_of_outline h).imp fun _ _ he => he.2))
  have hresets := (Agree.mapM (hchannels.imp fun _ _ => hplace)).imp
    fun xs ys hxs => (congrFun₂ List.forall₂_eq_eq_eq xs ys).mp hxs
  unfold placeReset
  rw [hrate, hlast]
  cases tickAt? t c.rate with
  | none => exact .error _ _
  | some tick =>
    dsimp only
    split
    · exact .error _ _
    · exact hresets

end Card

end Sequencer
