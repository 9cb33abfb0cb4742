import Sequencer.Proofs.Session.Twins
import Sequencer.Proofs.Session.Effects
import Sequencer.Proofs.Timeline.Complement

namespace Sequencer

/-- Logical states of a line, and resets of all channels. -/
def Operation.Logical (card channel : String) : Operation → Prop
  | .switch c number _ _ _ => c = card ∧ number = channel
  | .addReset _ => True
  | _ => False

/-- What a session comes to when a line is added to it, and then other things are done. -/
def Session.withLine (s : Session) (card : String) (port number : Nat) (on inverted : Bool)
    (after : List Operation) : Session :=
  s.operate (.addDigitalChannel card port number on inverted :: after)

theorem Booking.Mirrors.insert {b b' : Booking} (h : b.Mirrors b') {bs bs' : List Booking}
    (hbs : List.Forall₂ Booking.Mirrors bs bs') :
    List.Forall₂ Booking.Mirrors (b.insert bs) (b'.insert bs') := by
  induction hbs with
  | nil => exact .cons h .nil
  | @cons c c' cs cs' hc hcs ih =>
    have horder : b'.order c' = b.order c := by
      rw [h.same, hc.same]
      rfl
    simp only [Booking.insert, horder]
    cases b.order c with
    | lt => exact .cons h (.cons hc hcs)
    | eq => exact .cons hc hcs
    | gt => exact .cons hc ih

theorem Timeline.Mirrors.insert {t t' : Timeline} (h : t.Mirrors t') {b b' : Booking}
    (hb : b.Mirrors b') : (t.insert b).Mirrors (t'.insert b') :=
  ⟨h.plain, h.inverted, h.registered, hb.insert h.bookings⟩

namespace Registry

/-- Registries with the same outline and a line in the same logical states, which is plain in the
one and inverted in the other. -/
structure Mirrors (card channel : String) (r r' : Registry) : Prop where
  outline : r'.outline = r.outline
  line : ∃ t t', r.channel? card channel = .ok t ∧ r'.channel? card channel = .ok t' ∧ t.Mirrors t'

variable {card channel : String} {r r' : Registry}

theorem Mirrors.likeness (card channel : String) : Likeness (Mirrors card channel) :=
  ⟨fun h => h.outline, fun h => ⟨h.outline, h.line⟩⟩

theorem Mirrors.insert (h : r.Mirrors card channel r') (name number : String) {b b' : Booking}
    (hout : b'.outline = b.outline) (hb : (card, channel) = (name, number) → b.Mirrors b') :
    (r.modifyChannel name number (·.insert b)).Mirrors card channel
      (r'.modifyChannel name number (·.insert b')) := by
  obtain ⟨houtline, t, t', ht, ht', hmirrors⟩ := h
  refine ⟨modifyChannel_outline houtline name number
    fun _ _ hu => Timeline.insert_outline hu hout, ?_⟩
  by_cases hsame : (card, channel) = (name, number)
  · obtain ⟨rfl, rfl⟩ := Prod.mk.inj hsame
    exact ⟨_, _, channel?_modifyChannel_self (·.insert b) ht,
      channel?_modifyChannel_self (·.insert b') ht', hmirrors.insert (hb rfl)⟩
  · exact ⟨t, t', channel?_modifyChannel _ hsame ht, channel?_modifyChannel _ hsame ht', hmirrors⟩

/-- A line that nothing was booked on yet is in the same logical states on both sides. -/
theorem Twins.mirrors (h : r.Twins .digital .inverted card channel r')
    (unused : ∀ t, r.channel? card channel = .ok t → t.bookings = []) :
    r.Mirrors card channel r' := by
  obtain ⟨houtline, ⟨c, hc, t, ht, hplain⟩, c', hc', t', ht', hinverted⟩ := h
  have hfirst : r.channel? card channel = .ok t := channel?_eq_ok_iff.mpr ⟨c, hc, ht⟩
  have hsecond : r'.channel? card channel = .ok t' := channel?_eq_ok_iff.mpr ⟨c', hc', ht'⟩
  have hagree := channel?_agree houtline card channel
  rw [hfirst, hsecond] at hagree
  cases hagree with
  | ok hout =>
    have hregistered : t'.registered = t.registered :=
      show t'.outline.registered = t.outline.registered by rw [hout]
    have hbookings : t'.outline.bookings = t.outline.bookings := by rw [hout]
    have hnone := unused t hfirst
    simp only [Timeline.outline, hnone, List.map_nil, List.map_eq_nil_iff] at hbookings
    refine ⟨houtline, t, t', hfirst, hsecond, hplain, hinverted, hregistered, ?_⟩
    rw [hnone, hbookings]
    exact .nil

end Registry

namespace Session

open Job Registry

variable {card channel : String}

theorem switch_mirrors (on : Bool) (t : Float) (duration : Option Float) :
    Parallel (Mirrors card channel) Eq (switch card channel on t duration)
      (switch card channel on t duration) := by
  refine switch_parallel (Mirrors.likeness ..) on t duration
    fun r r' u u' hr hu hu' s s' b hs hb => ?_
  obtain ⟨t₁, t₂, ht₁, ht₂, hmirrors⟩ := hr.line
  obtain rfl : t₁ = u := Except.ok.inj (ht₁.symm.trans hu)
  obtain rfl : t₂ = u' := Except.ok.inj (ht₂.symm.trans hu')
  refine hs.insert card channel ?_ fun _ => ⟨?_, ?_⟩
  · simp only [Booking.outline, hb, Instruction.outline, Line.switch_outline]
  · rw [hb]
  · rw [hb, hmirrors.plain, hmirrors.inverted]
    exact .switch on duration.isSome

theorem addReset_mirrors (time : Option Float) :
    Parallel (Mirrors card channel) Eq (addReset time) (addReset time) := by
  refine addReset_parallel (Mirrors.likeness ..) (fun r r' name number b hr hb => ?_) time
  refine hr.insert name number rfl fun _ => ⟨rfl, ?_⟩
  rw [hb]
  exact .reset

theorem Together.operate {rel : Registry → Registry → Prop} {s s' : Session}
    (h : Together rel s s') {ops : List Operation}
    (hops : ∀ op ∈ ops, Parallel rel Eq op.run op.run) :
    Together rel (s.operate ops) (s'.operate ops) := by
  induction ops generalizing s s' with
  | nil => exact h
  | cons op ops ih =>
    exact ih (hops op List.mem_cons_self s s' h).2 fun op hop =>
      hops op (List.mem_cons_of_mem _ hop)

end Session

open Session Job in
theorem Operation.run_mirrors {card channel : String} {op : Operation}
    (h : op.Logical card channel) :
    Parallel (Registry.Mirrors card channel) Eq op.run op.run := by
  cases op with
  | switch c number on t duration =>
    obtain ⟨rfl, rfl⟩ := h
    exact (switch_mirrors on t duration).bind fun _ _ ht => Parallel.pure (congrArg _ ht)
  | addReset time => exact (addReset_mirrors time).bind fun _ _ ht => Parallel.pure (congrArg _ ht)
  | _ => exact h.elim

namespace Session

open Job Registry

/-- A card that takes the line. -/
structure Admits (r : Registry) (card name : String) (c : Card) : Prop where
  known : r.card? card = .ok c
  digital : c.kind = .digital
  free : c.checkName name = .ok ()

variable {card : String} {port number : Nat} {on inverted : Bool}

theorem admits_of_added {s : Session}
    (h : ((addDigitalChannel card port number on inverted).run.run s).1.isOk = true) :
    ∃ c, Admits s.registry card (Naming.digitalName port number) c := by
  have hspec : Triple (Since s.registry s.backend [])
      (addDigitalChannel card port number on inverted)
      (fun _ _ => ∃ c, Admits s.registry card (Naming.digitalName port number) c)
      (fun _ _ => True) := by
    refine Triple.requireCard_since (fun _ _ _ => trivial) fun c hc => ?_
    refine Triple.guard (fun _ _ => trivial) fun hkind => ?_
    refine Triple.ofExcept_bind (fun _ _ _ _ => trivial) fun _ hname => ?_
    exact Triple.always (fun _ _ => ⟨c, hc, by simpa using hkind, hname⟩) fun _ _ => trivial
  have hend := hspec s (.start s)
  rcases hrun : (addDigitalChannel card port number on inverted).run.run s with ⟨result, s'⟩
  rw [hrun] at h hend
  cases result with
  | ok name => exact hend
  | error e => cases h

/-- A line that a card takes is added, whether it is plain or inverted. -/
theorem addDigitalChannel_adds {s : Session} {c : Card}
    (h : Admits s.registry card (Naming.digitalName port number) c)
    (accepting : ∀ c, s.backend.accepts c = true) (on inverted : Bool) :
    ∃ c', c.addChannel (Naming.digitalName port number)
        (if inverted then .inverted else .digital) (Line.level on) = .ok c' ∧
      (s.withLine card port number on inverted []).registry =
        (s.registry.modifyCard card fun _ => c').withoutProgram ∧
      (s.withLine card port number on inverted []).backend.failing = s.backend.failing := by
  have hkind : (if inverted then Line.inverted else .digital).isDigital = (c.kind == .digital) := by
    rw [h.digital]
    cases inverted <;> rfl
  obtain ⟨c', hadd⟩ := addChannel_ok (Line.level on) hkind h.free
  have hspec : Triple (Since s.registry s.backend [])
      (Operation.addDigitalChannel card port number on inverted).run
      (fun _ s' => s'.registry = (s.registry.modifyCard card fun _ => c').withoutProgram ∧
        s'.backend.failing = s.backend.failing) (fun _ _ => False) := by
    refine Triple.bind ?_ fun _ => Triple.pure fun s hs => hs
    apply Triple.requireCard_known h.known
    rw [if_neg (by simp [h.digital]), h.free]
    apply (Triple.issue_accepted (accepting _)).bind
    intro _
    exact (commitChannel_since h.known hadd).bind fun _ =>
      Triple.pure fun s' hs => ⟨hs.1, hs.2.1⟩
  refine ⟨c', hadd, ?_⟩
  have hend := hspec s (.start s)
  have hlast : s.withLine card port number on inverted [] =
      ((Operation.addDigitalChannel card port number on inverted).run.run.run s).2 := rfl
  rw [hlast]
  rcases hrun : (Operation.addDigitalChannel card port number on inverted).run.run.run s with
    ⟨result, s'⟩
  rw [hrun] at hend
  cases result with
  | ok a => exact hend
  | error e => exact hend.elim

/-- Where the line is added once as a plain one and once as an inverted one, twins come about. -/
theorem twins_of_added {s : Session} (accepting : ∀ c, s.backend.accepts c = true)
    (added : ((addDigitalChannel card port number on false).run.run s).1.isOk = true) :
    Together (Twins .digital .inverted card (Naming.digitalName port number))
      (s.withLine card port number on false []) (s.withLine card port number on true []) := by
  obtain ⟨c, hadmits⟩ := admits_of_added added
  obtain ⟨d, hd, hregistry, hfailing⟩ := addDigitalChannel_adds hadmits accepting on false
  obtain ⟨d', hd', hregistry', hfailing'⟩ := addDigitalChannel_adds hadmits accepting on true
  have hd : c.addChannel _ .digital _ = .ok d := hd
  have hd' : c.addChannel _ .inverted _ = .ok d' := hd'
  have hline : Line.inverted.outline = Line.digital.outline := rfl
  have hagree := Card.addChannel_agree (rfl : c.outline = c.outline)
    (Naming.digitalName port number) hline (Line.level on)
  rw [hd, hd'] at hagree
  refine ⟨Backend.accepts_congr hfailing ▸ accepting,
    Backend.accepts_congr hfailing' ▸ accepting, ?_⟩
  rw [hregistry, hregistry']
  cases hagree with
  | ok hout =>
    exact ⟨modifyCard_outline rfl card fun _ _ _ => hout, Hosts.of_added hadmits.known hd,
      Hosts.of_added hadmits.known hd'⟩

/-- Take two sessions that were built by the same operations on a backend that accepts every call,
but for one line, which was added as a plain one to the first and as an inverted one to the second.
Nothing is booked on the line yet. Then the same logical states of the line and the same resets are
done in both or fail in both, with the same time. Afterwards the line is compiled in both, for every
stop tick after its last instruction, to segments that end together, on opposite constant levels. -/
theorem inverted_line_complements (s : Session) (card : String) (port number : Nat) (on : Bool)
    (after ops : List Operation) (accepting : ∀ c, s.backend.accepts c = true)
    (added : ((addDigitalChannel card port number on false).run.run s).1.isOk = true)
    (kept : ∀ op ∈ after, op ≠ .removeCard card)
    (unused : ∀ t, (s.withLine card port number on false after).registry.channel? card
      (Naming.digitalName port number) = .ok t → t.bookings = [])
    (logical : ∀ op ∈ ops, op.Logical card (Naming.digitalName port number)) :
    let plain := (s.withLine card port number on false after).operate ops
    let inverted := (s.withLine card port number on true after).operate ops
    (∀ op : Operation, op.Logical card (Naming.digitalName port number) →
      (op.run.run.run inverted).1.toOption = (op.run.run.run plain).1.toOption) ∧
    ∃ t t', plain.registry.channel? card (Naming.digitalName port number) = .ok t ∧
      inverted.registry.channel? card (Naming.digitalName port number) = .ok t' ∧
      t'.lastTick = t.lastTick ∧ ∀ stop, t.lastTick ≤ stop →
        ∃ u u' : Signal, (t.compile stop).2 = .ok u ∧ (t'.compile stop).2 = .ok u' ∧
          u'.ends = u.ends ∧ List.Forall₂ Waveform.Complement u.waves u'.waves := by
  intro plain inverted
  have htwins : Together (Twins .digital .inverted card (Naming.digitalName port number))
      (s.withLine card port number on false after) (s.withLine card port number on true after) :=
    (twins_of_added accepting added).operate fun op hop => op.run_twins (kept op hop)
  have hbuilt : Together (Mirrors card (Naming.digitalName port number)) _ _ :=
    ⟨htwins.accepts, htwins.accepts', htwins.related.mirrors unused⟩
  have hdone : Together (Mirrors card (Naming.digitalName port number)) plain inverted :=
    hbuilt.operate fun op hop => Operation.run_mirrors (logical op hop)
  obtain ⟨t, t', ht, ht', hmirrors⟩ := hdone.related.line
  refine ⟨fun op hop => ?_, t, t', ht, ht', hmirrors.lastTick, fun stop hstop => ?_⟩
  · exact (Operation.run_mirrors hop plain inverted hdone).1.toOption_eq
  · exact hmirrors.compile hstop

/-- A digital card without lines. -/
def bareCard : Session := Session.operate {} [.addCard "Dev1" .digital 1000]

/-- A pulse and then a reset. -/
def pulseAndReset : List Operation :=
  [.switch "Dev1" "port0/line0" true 0.25 (some 0.5), .addReset (some 1)]

theorem pulse_complements : ∃ (t t' : Timeline) (u u' : Signal),
    ((bareCard.withLine "Dev1" 0 0 false false []).operate pulseAndReset).registry.channel? "Dev1"
      "port0/line0" = .ok t ∧
    ((bareCard.withLine "Dev1" 0 0 false true []).operate pulseAndReset).registry.channel? "Dev1"
      "port0/line0" = .ok t' ∧
    (t.compile 2000).2 = .ok u ∧ (t'.compile 2000).2 = .ok u' ∧ u'.ends = u.ends ∧
      List.Forall₂ Waveform.Complement u.waves u'.waves := by
  have hfailing : bareCard.backend.failing = [] := List.isEmpty_iff.mp (by decide +kernel)
  have hnone : ((bareCard.withLine "Dev1" 0 0 false false []).registry.channel? "Dev1"
      (Naming.digitalName 0 0)).toOption.map (·.bookings.isEmpty) = some true := by decide +kernel
  have hlast : (((bareCard.withLine "Dev1" 0 0 false false []).operate
      pulseAndReset).registry.channel? "Dev1" (Naming.digitalName 0 0)).toOption.map
      (·.lastTick) = some 1001 := by decide +kernel
  have hunused : ∀ t, (bareCard.withLine "Dev1" 0 0 false false []).registry.channel? "Dev1"
      (Naming.digitalName 0 0) = .ok t → t.bookings = [] := by
    intro t ht
    rw [ht] at hnone
    exact List.isEmpty_iff.mp (Option.some.inj hnone)
  have hlogical : ∀ op ∈ pulseAndReset, op.Logical "Dev1" (Naming.digitalName 0 0) := by
    have hname : Naming.digitalName 0 0 = "port0/line0" := by decide +kernel
    simp [pulseAndReset, Operation.Logical, hname]
  obtain ⟨-, t, t', ht, ht', -, hcompiles⟩ := inverted_line_complements bareCard "Dev1" 0 0 false []
    pulseAndReset (fun c => by simp [Backend.accepts, hfailing]) (by decide +kernel) (by simp)
    hunused hlogical
  rw [ht] at hlast
  have hstop : t.lastTick ≤ 2000 := Nat.le_trans (Option.some.inj hlast).le (by decide)
  obtain ⟨u, u', hu, hu', hends, hwaves⟩ := hcompiles 2000 hstop
  exact ⟨t, t', u, u', ht, ht', hu, hu', hends, hwaves⟩

end Session

end Sequencer
