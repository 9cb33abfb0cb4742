import Sequencer.Proofs.Session.Effects
import Sequencer.Proofs.Timeline.Chain

namespace Sequencer.Session

open Job Triple

def addLink (card channel : String) (t : Float) : Link → Job Float
  | .lasting duration keep action => addInstruction card channel (.lasting t duration keep action)
  | .switched on duration => switch card channel on t (some duration)

/-- Adds the instructions of a chain until one of them fails. Gives the time at which the last one
is over. -/
def addChain (card channel : String) (t : Float) : List Link → Job Float
  | [] => return t
  | l :: ls => do
    let next ← addLink card channel t l
    addChain card channel next ls

variable {r : Registry} {b : Backend} {cs : List Call} {card channel : String} {t : Timeline}

/-- When the backend takes it, an instruction that the channel can follow is added exactly if there
is a place for it. -/
theorem addInstruction_places {i : Instruction} (known : r.channel? card channel = .ok t)
    (playable : (t.line.wave? i t.idle).isSome = true)
    (accepted : b.accepts (.emit card channel i) = true) :
    Triple (Since r b cs) (addInstruction card channel i)
      (fun time s => time = i.next ∧ ∃ n, t.place i = .ok n ∧
        Since (r.modifyChannel card channel (·.insert n)).withoutProgram b
          (cs ++ [.emit card channel i]) s)
      (fun e _ => t.place i = .error e) := by
  have hplayable : ¬ (t.line.wave? i t.idle).isNone = true := by
    simpa [Option.isSome_iff_ne_none] using playable
  unfold addInstruction
  apply requireChannel_known known
  rw [if_neg hplayable]
  refine Triple.ofExcept_bind (fun _ _ he _ => he) fun n hn => ?_
  apply (issue_accepted accepted).bind
  intro _
  apply (adjustChannel_since known).bind
  intro _
  apply adjust_since.bind
  intro _
  exact Triple.pure fun _ hs => ⟨rfl, n, hn, hs⟩

theorem addLink_places {l : Link} {time : Float} (known : r.channel? card channel = .ok t)
    (playable : (t.line.wave? (l.starting t.line time) t.idle).isSome = true)
    (accepted : b.accepts (.emit card channel (l.starting t.line time)) = true) :
    Triple (Since r b cs) (addLink card channel time l)
      (fun next s => next = (l.starting t.line time).next ∧
        ∃ n, t.place (l.starting t.line time) = .ok n ∧
          Since (r.modifyChannel card channel (·.insert n)).withoutProgram b
            (cs ++ [.emit card channel (l.starting t.line time)]) s)
      (fun e _ => t.place (l.starting t.line time) = .error e) := by
  cases l with
  | lasting duration keep action => exact addInstruction_places known playable accepted
  | switched on duration =>
    exact requireChannel_known known (addInstruction_places known playable accepted)

/-- An instruction that starts where everything else on the channel is over comes in as its last
one, or does not fit the grid. -/
theorem addLink_extends {l : Link} {time : Float} {first : Nat}
    (known : r.channel? card channel = .ok t) (tidy : t.Tidy)
    (begins : tickAt? time t.rate = some first) (ended : t.lastTick ≤ first)
    (playable : (t.line.wave? (l.starting t.line time) t.idle).isSome = true)
    (accepted : b.accepts (.emit card channel (l.starting t.line time)) = true) :
    Triple (Since r b cs) (addLink card channel time l)
      (fun next s => next = (l.starting t.line time).next ∧
        ∃ stop, t.Occupies (l.starting t.line time) first stop ∧
          s.registry.channel? card channel =
            .ok (t.extend [⟨first, stop, t.nextSeq, l.starting t.line time⟩]) ∧
          Since s.registry b (cs ++ [.emit card channel (l.starting t.line time)]) s)
      (fun e _ => ∃ fault, t.span (l.starting t.line time) = .error fault ∧ e = .range fault) := by
  rw [← l.start_starting t.line time] at begins
  refine (addLink_places known playable accepted).weaken (fun _ hs => hs) ?_ ?_
  · rintro _ s ⟨rfl, n, hn, hs⟩
    obtain ⟨first', stop, hocc, rfl, -⟩ := Timeline.place_eq_ok_iff.mp hn
    obtain rfl : first' = first := Option.some.inj (hocc.begins.symm.trans begins)
    refine ⟨rfl, stop, hocc, ?_, rfl, hs.2⟩
    rw [hs.1, ← tidy.insert_extends ended]
    exact Registry.channel?_modifyChannel_self (·.insert _) known
  · exact fun e s he => tidy.place_last_error begins ended he

/-- Bookings for these instructions side by side, each of them on the ticks that it takes up. -/
structure Chained (t : Timeline) (first last : Nat) (is : List Instruction) (bs : List Booking) :
    Prop where
  instrs : bs.map (·.instr) = is
  occupies : ∀ b ∈ bs, t.Occupies b.instr b.start b.stop
  adjoining : Booking.Adjoining last first bs

/-- A chain comes in instruction by instruction, up to one that does not fit the grid. -/
theorem addChain_extends {start : Float} {first : Nat} {ls : List Link}
    (known : r.channel? card channel = .ok t) (tidy : t.Tidy)
    (begins : tickAt? start t.rate = some first) (ended : t.lastTick ≤ first)
    (playable : ∀ i ∈ Link.chain t.line start ls, (t.line.wave? i t.idle).isSome = true)
    (accepted : ∀ i ∈ Link.chain t.line start ls, b.accepts (.emit card channel i) = true) :
    Triple (Since r b cs) (addChain card channel start ls)
      (fun _ s => ∃ bs last, s.registry.channel? card channel = .ok (t.extend bs) ∧
        Chained t first last (Link.chain t.line start ls) bs)
      (fun e _ => ∃ i ∈ Link.chain t.line start ls, ∃ fault,
        t.span i = .error fault ∧ e = .range fault) := by
  -- over the instructions to come: the channel is over on the tick at which the next one begins
  induction ls generalizing r cs t start first with
  | nil =>
    refine Triple.pure fun s hs => ⟨[], first, ?_, rfl, by simp, .done⟩
    rw [hs.1, known, t.extend_nil]
  | cons l ls ih =>
    obtain ⟨hplayable, hplayables⟩ := List.forall_mem_cons.mp playable
    obtain ⟨haccepted, haccepteds⟩ := List.forall_mem_cons.mp accepted
    have hfirst : Triple (Since r b cs) (addLink card channel start l) _ _ :=
      addLink_extends known tidy begins ended hplayable haccepted
    refine (hfirst.weaken (fun _ hs => hs) (fun _ _ hs => hs) ?_).bind fun next => ?_
    · rintro e s ⟨fault, hspan, he⟩
      exact ⟨_, List.mem_cons_self, fault, hspan, he⟩
    · rintro s ⟨rfl, stop, hocc, hknown, hs⟩
      obtain ⟨htidy, hlast⟩ := tidy.extend_one (i := l.starting t.line start) ended hocc.room
      have hrest := @ih s.registry (cs ++ [.emit card channel (l.starting t.line start)]) _ _ _
        hknown htidy hocc.next_begins (Nat.le_of_eq hlast) hplayables haccepteds
      refine hrest.weaken (fun _ hs => hs) ?_ ?_ s hs
      · rintro _ s ⟨bs, last, hknown, hinstrs, hoccs, hadjoining⟩
        rw [t.extend_cons] at hknown
        refine ⟨_, last, hknown, congrArg (l.starting t.line start :: ·) hinstrs, ?_, ?_⟩
        · exact List.forall_mem_cons.mpr ⟨hocc, fun b hb => (hoccs b hb).of_extend⟩
        · exact .next (b := ⟨first, stop, t.nextSeq, l.starting t.line start⟩) hocc.room hadjoining
      · rintro e s ⟨i, hi, fault, hspan, he⟩
        exact ⟨i, List.mem_cons_of_mem _ hi, fault, hspan, he⟩

/-- A chain of instructions never collides with itself. Take a channel, instructions with durations
that it can follow, each to start at the time at which the one before it is over, and the first one
on a tick on which everything else on the channel is over, with a backend that takes them all. None
of them is refused for an overlap. If each of them takes up ticks of the grid, all are added, one
right after the other. Compiled against any stop at or after its end, the channel follows on every
tick of the chain the instruction that goes on then: there is no padding in between. -/
theorem chain_never_collides {s : Session} (reached : s.registry.Reached)
    (known : s.registry.channel? card channel = .ok t) {start : Float} {first : Nat}
    (begins : tickAt? start t.rate = some first) (ended : t.lastTick ≤ first) {ls : List Link}
    (playable : ∀ i ∈ Link.chain t.line start ls, (t.line.wave? i t.idle).isSome = true)
    (accepted : ∀ i ∈ Link.chain t.line start ls, s.backend.accepts (.emit card channel i) = true) :
    let done := (addChain card channel start ls).run.run s
    (∀ e, done.1 = .error e → ∀ name new old, e ≠ .overlap name new old) ∧
    ((∀ i ∈ Link.chain t.line start ls, ∃ first stop, t.Occupies i first stop) →
      done.1.isOk = true ∧ ∃ bs last,
        done.2.registry.channel? card channel = .ok (t.extend bs) ∧
        Chained t first last (Link.chain t.line start ls) bs ∧
        ∀ stop, last ≤ stop → ∃ signal : Signal,
          (t.extend bs).compile stop = ({ t.extend bs with fresh := true }, .ok signal) ∧
          ∀ k, first ≤ k → k < last → (∃ i, signal.Covers i k) ∧
            ∃ b ∈ bs, b.start ≤ k ∧ k < b.stop ∧ ∀ i, signal.Covers i k → ∃ w v,
              signal.waves[i]? = some w ∧ t.line.wave? b.instr t.idle = some v ∧ w.Agrees v) := by
  intro done
  obtain ⟨c, hc, hchannel⟩ := Registry.channel?_eq_ok_iff.mp known
  have hsound := (reached.sound.whole _ (Table.get?_mem hc)).channels _ (Table.get?_mem hchannel)
  have hend := addChain_extends known hsound.tidy begins ended playable accepted s (.start s)
  rcases hrun : done with ⟨e | time, s'⟩
  · have hrun' : (addChain card channel start ls).run.run s = (.error e, s') := hrun
    rw [hrun'] at hend
    obtain ⟨i, hi, fault, hspan, rfl⟩ := hend
    refine ⟨?_, fun hocc => ?_⟩
    · rintro _ ⟨⟩ name new old ⟨⟩
    · obtain ⟨first', stop, hocc⟩ := hocc i hi
      cases hspan.symm.trans (Timeline.span_eq_ok_iff.mpr hocc)
  · have hrun' : (addChain card channel start ls).run.run s = (.ok time, s') := hrun
    rw [hrun'] at hend
    obtain ⟨bs, last, hknown, hchained⟩ := hend
    have hok : ∀ e, (Except.ok time : Except Error Float) ≠ .error e := fun e h => by cases h
    refine ⟨fun e he => absurd he (hok e), fun _ => ⟨rfl, bs, last, hknown, hchained, ?_⟩⟩
    intro stop hstop
    refine hsound.tidy.extend_plays ended hchained.adjoining (fun b hb => ?_) hstop
    rcases List.mem_append.mp hb with hold | hnew
    · exact hsound.playable b hold
    · exact playable _ (hchained.instrs ▸ List.mem_map_of_mem hnew)

/-- An inverted line that is on for the first tenth of a second. -/
def pulsedSession : Session :=
  Session.operate {}
    [.addCard "Dev1" .digital 1000, .addDigitalChannel "Dev1" 0 0 false true,
      .addInstruction "Dev1" "port0/line0" (.lasting 0 0.1 false .low)]

/-- Off, on and off again, for times that are not exact in binary. -/
def sampleChain : List Link := [.switched false 0.2, .lasting 0.1 false .low, .switched false 0.3]

theorem sampleChain_never_collides :
    pulsedSession.registry.Reached ∧
    ∃ t, pulsedSession.registry.channel? "Dev1" "port0/line0" = .ok t ∧ t.lastTick ≤ 100 ∧
      tickAt? 0.1 t.rate = some 100 ∧
      (∀ i ∈ Link.chain t.line 0.1 sampleChain, ∃ first stop, t.Occupies i first stop) ∧
      let done := (addChain "Dev1" "port0/line0" 0.1 sampleChain).run.run pulsedSession
      done.1.isOk = true ∧ ∃ bs last,
        done.2.registry.channel? "Dev1" "port0/line0" = .ok (t.extend bs) ∧
        Chained t 100 last (Link.chain t.line 0.1 sampleChain) bs ∧
        ∀ stop, last ≤ stop → ∃ signal : Signal,
          (t.extend bs).compile stop = ({ t.extend bs with fresh := true }, .ok signal) ∧
          ∀ k, 100 ≤ k → k < last → (∃ i, signal.Covers i k) ∧
            ∃ b ∈ bs, b.start ≤ k ∧ k < b.stop ∧ ∀ i, signal.Covers i k → ∃ w v,
              signal.waves[i]? = some w ∧ t.line.wave? b.instr t.idle = some v ∧ w.Agrees v := by
  have hreached : pulsedSession.registry.Reached := Registry.Reached.empty.operate (s := {}) _
  have hready : (pulsedSession.registry.channel? "Dev1" "port0/line0").toOption.any (fun t =>
      decide (t.lastTick ≤ 100) && tickAt? 0.1 t.rate == some 100 &&
        (Link.chain t.line 0.1 sampleChain).all fun i =>
          (t.line.wave? i t.idle).isSome && (t.span i).isOk) = true := by
    decide +kernel
  cases hknown : pulsedSession.registry.channel? "Dev1" "port0/line0" with
  | error e =>
    rw [hknown] at hready
    cases hready
  | ok t =>
    rw [hknown] at hready
    simp only [Except.toOption, Option.any_some, Bool.and_eq_true, decide_eq_true_eq, beq_iff_eq,
      List.all_eq_true] at hready
    obtain ⟨⟨hover, hbegins⟩, hchain⟩ := hready
    have hocc : ∀ i ∈ Link.chain t.line 0.1 sampleChain, ∃ first stop, t.Occupies i first stop := by
      intro i hi
      cases hspan : t.span i with
      | error fault =>
        have hfits := (hchain i hi).2
        rw [hspan] at hfits
        cases hfits
      | ok ticks => exact ⟨ticks.1, ticks.2, Timeline.span_eq_ok_iff.mp hspan⟩
    have hwilling : pulsedSession.backend.failing.isEmpty = true := by decide +kernel
    have hend := chain_never_collides hreached hknown hbegins hover (fun i hi => (hchain i hi).1)
      fun i _ => by rw [Backend.accepts, List.isEmpty_iff.mp hwilling]; rfl
    exact ⟨hreached, t, rfl, hover, hbegins, hocc, hend.2 hocc⟩

end Sequencer.Session
