import Sequencer.Operation
import Sequencer.Proofs.Results
import Sequencer.Proofs.Session.Atomic

namespace Sequencer

/-- The operation commits card by card. -/
def Operation.inSteps : Operation → Bool
  | .compile _ | .resetAll => true
  | _ => false

namespace Session

open Job Triple

variable {r : Registry} {b : Backend}

theorem addCard_atomic (name : String) (kind : CardKind) (rate : Float) :
    Atomic (addCard name kind rate) := by
  intro r b hr
  unfold addCard
  apply readRegistry_bind fun _ hs => hs.1
  refine Triple.guard (fun _ hs => hs.refused _) fun hnew => ?_
  refine Triple.guard (fun _ hs => hs.refused _) fun _ => ?_
  apply of_idle
  apply issue_at.bind
  intro _
  apply note_at.bind
  intro _
  have hfree : r.cards.contains name = false := by simpa using hnew
  have hnamed := hr.addCard hfree (c := ⟨name, kind, rate, none, {}, {}⟩) rfl (by simp)
  exact adjust_at.weaken (fun _ hs => hs) (fun _ _ hs => hs ▸ hnamed.of_shape rfl) fun _ _ hs => hs

/-- Once the card is gone nothing can fail. -/
theorem removeCard_atomic (name : String) : Atomic (removeCard name) := by
  intro r b hr
  unfold removeCard
  apply requireCard_idle
  intro c hc
  apply of_idle
  apply adjust_at.bind
  intro _
  apply of_at
  refine Triple.named ?_ (hr.removeCard name)
  apply Triple.readAny.bind
  intro now
  extract_lets dropped rest
  have hrest : Triple (Shaped { r with cards := r.cards.erase name }) (rest ())
      (fun _ => Shaped { r with cards := r.cards.erase name }) (Refused r b) := by
    apply Triple.readAny.bind
    intro now
    split
    · exact note_shaped.bind fun _ => Triple.bind (adjust_shaped fun _ => rfl) fun _ => drop_shaped
    · exact drop_shaped
  split
  · exact note_shaped.bind fun _ => Triple.bind (adjust_shaped fun _ => rfl) fun _ => hrest
  · exact hrest

theorem nameCard_atomic (name : String) (nickname : Option String) :
    Atomic (nameCard name nickname) := by
  intro r b hr
  unfold nameCard adjustCard
  apply requireCard_idle
  intro c hc
  apply of_idle
  refine (of_at (adjust_shaped fun r => r.shape_modifyCard name ?_)).named hr
  exact fun _ => rfl

theorem nameChannel_atomic (card channel : String) (nickname : Option String) :
    Atomic (nameChannel card channel nickname) := by
  intro r b hr
  unfold nameChannel adjustChannel
  apply requireChannel_idle
  intro t ht
  apply of_idle
  refine (of_at (adjust_shaped fun r => r.shape_modifyChannel card channel ?_)).named hr
  exact fun _ => rfl

/-- A channel whose kind and name were checked can be added. -/
theorem addChannel_ok {c : Card} {name : String} {line : Line} (registered : Float)
    (hkind : line.isDigital = (c.kind == .digital)) (hname : c.checkName name = .ok ()) :
    ∃ c', c.addChannel name line registered = .ok c' := by
  simp [Card.addChannel, hkind, hname, Except.map]

theorem commitChannel_named {card name : String} {line : Line} {registered : Float} {c : Card}
    {fault : Error → Session → Prop} (hr : r.Named) (hc : r.card? card = .ok c)
    (hkind : line.isDigital = (c.kind == .digital)) (hname : c.checkName name = .ok ()) :
    Triple (At r) (commitChannel card name line registered) (fun _ s => s.registry.Named)
      fault := by
  obtain ⟨c', hadd⟩ := addChannel_ok registered hkind hname
  unfold commitChannel
  apply requireCard_at hc
  rw [hadd]
  change Triple (At r) (edit (·.modifyCard card fun _ => c')) _ fault
  exact Triple.adjust fun _ hs => hs ▸ (hr.addChannel hc hadd).of_shape rfl

theorem addAnalogChannel_atomic (card : String) (id : Nat) (level : Float) :
    Atomic (addAnalogChannel card id level) := by
  intro r b hr
  unfold addAnalogChannel
  apply requireCard_idle
  intro c hc
  refine Triple.guard (fun _ hs => hs.refused _) fun hkind => ?_
  refine Triple.guard (fun _ hs => hs.refused _) fun _ => ?_
  refine Triple.ofExcept_bind (fun e _ _ hs => hs.refused e) fun _ hname => ?_
  apply of_idle
  apply issue_at.bind
  intro _
  refine (commitChannel_named hr hc ?_ hname).bind fun _ => Triple.pure fun _ hs => hs
  cases hk : c.kind <;> simp_all [Line.isDigital]

theorem addDigitalChannel_atomic (card : String) (port line : Nat) (on inverted : Bool) :
    Atomic (addDigitalChannel card port line on inverted) := by
  intro r b hr
  unfold addDigitalChannel
  apply requireCard_idle
  intro c hc
  refine Triple.guard (fun _ hs => hs.refused _) fun hkind => ?_
  refine Triple.ofExcept_bind (fun e _ _ hs => hs.refused e) fun _ hname => ?_
  apply of_idle
  apply issue_at.bind
  intro _
  refine (commitChannel_named hr hc ?_ hname).bind fun _ => Triple.pure fun _ hs => hs
  cases hk : c.kind <;> cases inverted <;> simp_all [Line.isDigital]

theorem addFlatChannel_atomic (card : String) (index linesPerPort : Nat) (on inverted : Bool) :
    Atomic (addFlatChannel card index linesPerPort on inverted) := by
  unfold addFlatChannel
  split
  · exact addDigitalChannel_atomic card _ _ on inverted
  · exact fun r b _ => Triple.throw fun _ hs => hs.refused _

theorem addInstruction_atomic (card channel : String) (i : Instruction) :
    Atomic (addInstruction card channel i) := by
  intro r b hr
  unfold addInstruction
  apply requireChannel_idle
  intro t ht
  refine Triple.guard (fun _ hs => hs.refused _) fun _ => ?_
  refine Triple.ofExcept_bind (fun e _ _ hs => hs.refused e) fun booking _ => ?_
  apply of_idle
  apply issue_at.bind
  intro _
  apply of_at
  refine Triple.named ?_ hr
  have hinsert : Triple (Shaped r) (adjustChannel card channel (·.insert booking))
      (fun _ => Shaped r) (Refused r b) :=
    adjustChannel_shaped ht fun _ => rfl
  exact hinsert.bind fun _ => drop_shaped.bind fun _ => Triple.pure fun _ hs => hs

theorem switch_atomic (card channel : String) (on : Bool) (t : Float) (duration : Option Float) :
    Atomic (switch card channel on t duration) := by
  intro r b hr
  unfold switch
  exact requireChannel_idle fun ch _ => addInstruction_atomic card channel _ r b hr

/-- A card places one reset for each of its channels. -/
theorem placeReset_channels {c : Card} {t : Float} {placed : List (String × Booking)}
    (h : c.placeReset t = .ok placed) : List.Forall₂ (fun ch x => x.1 = ch.name ∧
      ch.place (.holding t .reset) = .ok x.2) c.channels.values placed := by
  unfold Card.placeReset at h
  split at h
  case h_1 tick _ =>
    dsimp only at h
    split at h
    · cases h
    · apply (forall₂_of_mapM_ok h).imp
      intro ch x hx
      obtain ⟨b, hb, heq⟩ := exists_of_bind_ok hx
      cases heq
      exact ⟨rfl, hb⟩
  case h_2 => cases h

/-- Whatever is placed is placed on a channel that is there. -/
theorem placeResets_mem (hr : r.Named) {t : Float} {resets : List (String × String × Booking)}
    (h : placeResets r t = .ok resets) {x : String × String × Booking} (hx : x ∈ resets) :
    ∃ u, r.channel? x.1 x.2.1 = .ok u := by
  obtain ⟨perCard, hcards, heq⟩ := exists_of_bind_ok h
  cases heq
  obtain ⟨ofCard, hofCard, hx⟩ := List.mem_flatten.mp hx
  obtain ⟨c, hc, hplace⟩ := exists_of_forall₂ (forall₂_of_mapM_ok hcards) hofCard
  obtain ⟨placed, hplaced, heq⟩ := exists_of_bind_ok hplace
  cases heq
  obtain ⟨y, hy, rfl⟩ := List.mem_map.mp hx
  obtain ⟨ch, hch, hname, -⟩ := exists_of_forall₂ (placeReset_channels hplaced) hy
  obtain ⟨e, he, rfl⟩ := List.mem_map.mp hc
  obtain ⟨f, hf, rfl⟩ := List.mem_map.mp hch
  rw [hname]
  exact hr.exists_channel he hf

/-- All resets are sent before the first one is committed. -/
theorem addReset_atomic (time : Option Float) : Atomic (addReset time) := by
  intro r b hr
  unfold addReset
  apply readRegistry_bind fun _ hs => hs.1
  extract_lets last t rest
  have hrest : Triple (Idle r b) (rest ()) (fun _ s => s.registry.Named) (Refused r b) := by
    refine Triple.ofExcept_bind (fun e _ _ hs => hs.refused e) fun resets hresets => ?_
    apply of_idle
    apply (Triple.forM fun _ _ => issue_at).bind
    intro _
    apply of_at
    refine Triple.named ?_ hr
    -- Each commit looks its channel up again, among names that the commits before it kept.
    have hinsert : ∀ x ∈ resets, Triple (Shaped r) (adjustChannel x.1 x.2.1 (·.insert x.2.2))
        (fun _ => Shaped r) (Refused r b) := by
      intro x hx
      obtain ⟨u, hu⟩ := placeResets_mem hr hresets hx
      exact adjustChannel_shaped hu fun _ => rfl
    apply (Triple.forM hinsert).bind
    intro _
    exact drop_shaped.bind fun _ => Triple.pure fun _ hs => hs
  split
  · exact Triple.guard (fun _ hs => hs.refused _) fun _ => hrest
  · exact hrest

theorem configureStartTrig_atomic (card terminal : String) (exported : Bool) :
    Atomic (configureStartTrig card terminal exported) := by
  intro r b hr
  unfold configureStartTrig
  apply requireCard_idle
  intro c hc
  apply of_idle
  apply issue_at.bind
  intro _
  apply issue_at.bind
  intro _
  exact (of_at (editSync_shaped hc)).named hr

theorem configureSampleClockIn_atomic (card : String) (terminal : Option String) :
    Atomic (configureSampleClockIn card terminal) := by
  intro r b hr
  unfold configureSampleClockIn
  apply requireCard_idle
  intro c hc
  apply of_idle
  exact issue_at.bind fun _ => (of_at (editSync_shaped hc)).named hr

theorem configureSampleClockOut_atomic (card : String) (terminal : Option String) :
    Atomic (configureSampleClockOut card terminal) := by
  intro r b hr
  unfold configureSampleClockOut
  apply requireCard_idle
  intro c hc
  apply of_idle
  exact issue_at.bind fun _ => (of_at (editSync_shaped hc)).named hr

/-- At most one card loses its rate. -/
theorem release_cases (next : Option String) (r : Registry) : release next r = r ∨
    ∃ card, release next r = r.modifySync card fun s => { s with refClockRate := none } := by
  unfold release
  split
  · split
    · exact .inl rfl
    · exact .inr ⟨_, rfl⟩
  · exact .inl rfl

theorem handOver_shape (provider : Option (String × String)) (r : Registry) :
    (handOver provider r).shape = r.shape := by
  have hrelease : (release (provider.map (·.1)) r).shape = r.shape := by
    rcases release_cases (provider.map (·.1)) r with heq | ⟨card, heq⟩ <;> rw [heq]
    exact r.shape_modifySync _ _
  exact hrelease

/-- A provider that may not take over is refused before anything is done. -/
theorem setProvider_shaped (provider : Option (String × String)) :
    Triple (Idle r b) (setProvider provider) (fun _ => Shaped r) (Refused r b) := by
  have hhandOver : Triple (Idle r b) (adjust (handOver provider)) (fun _ => Shaped r)
      (Refused r b) :=
    of_idle (of_at (adjust_shaped (handOver_shape provider)))
  unfold setProvider
  cases provider with
  | none => exact hhandOver
  | some p =>
    apply readRegistry_bind fun _ hs => hs.1
    exact Triple.ofExcept_bind (fun e _ _ hs => hs.refused e) fun _ _ => hhandOver

theorem setProvider_atomic (provider : Option (String × String)) : Atomic (setProvider provider) :=
  fun _ _ hr => (setProvider_shaped provider).named hr

theorem configureRefClock_atomic (card terminal : String) (rate : Float) (exported : Bool) :
    Atomic (configureRefClock card terminal rate exported) := by
  intro r b hr
  unfold configureRefClock
  apply requireCard_idle
  intro c hc
  split
  case isTrue =>
    -- The card before may be another one, and it loses its rate only after this one was checked.
    unfold exportRefClock
    refine Triple.guard (fun _ hs => hs.refused _) fun _ => ?_
    exact ((setProvider_shaped _).bind fun _ => editSync_shaped hc).named hr
  case isFalse =>
    unfold importRefClock
    refine Triple.guard (fun _ hs => hs.refused _) fun _ => ?_
    apply readRegistry_bind fun _ hs => hs.1
    refine Triple.guard (fun _ hs => hs.refused _) fun _ => ?_
    apply of_idle
    exact issue_at.bind fun _ => (of_at (editSync_shaped hc)).named hr

theorem clearRefClockIn_atomic (card : String) : Atomic (clearRefClockIn card) := by
  intro r b hr
  unfold clearRefClockIn
  apply requireCard_idle
  intro c hc
  apply of_idle
  exact issue_at.bind fun _ => (of_at (adjustSync_shaped hc)).named hr

theorem setWriteTimeout_atomic (card : String) (timeout : Option Float) :
    Atomic (setWriteTimeout card timeout) := by
  intro r b hr
  unfold setWriteTimeout
  apply requireCard_idle
  intro c hc
  extract_lets rest
  have hrest : Triple (Idle r b) (rest ()) (fun _ s => s.registry.Named) (Refused r b) :=
    of_idle (issue_at.bind fun _ => (of_at (adjustSync_shaped hc)).named hr)
  split
  · exact Triple.guard (fun _ hs => hs.refused _) fun _ => hrest
  · exact hrest

theorem setStartsLast_atomic (card : Option String) : Atomic (setStartsLast card) := by
  intro r b hr
  unfold setStartsLast
  apply readRegistry_bind fun _ hs => hs.1
  extract_lets rest
  have hrest : Triple (Idle r b) (rest ()) (fun _ s => s.registry.Named) (Refused r b) := by
    refine of_idle ((of_at (adjust_shaped ?_)).named hr)
    exact fun _ => rfl
  split
  · exact Triple.guard (fun _ hs => hs.refused _) fun _ => hrest
  · exact hrest

/-- A card that is there is reset unless the backend refuses. -/
theorem resetCard_at {name : String} {c : Card} (hc : r.card? name = .ok c) :
    Triple (At r) (resetCard name) (fun _ => Shaped r)
      (fun e s => At r s ∧ e.fromOutside = true) := by
  have htell : Triple (At r) (issue (.resetDevice name)) (fun _ => At r)
      (fun e s => At r s ∧ e.fromOutside = true) :=
    Triple.issue (fun _ hs _ => hs) fun _ hs _ => ⟨hs, rfl⟩
  unfold resetCard
  apply requireCard_at hc
  apply htell.bind
  intro _
  apply of_at
  apply (adjustCard_shaped hc Card.shape_reset).bind
  intro _
  apply Triple.readAny.bind
  intro now
  split
  · exact Triple.bind (adjust_shaped fun _ => rfl) fun _ => drop_shaped
  · exact drop_shaped

theorem resetCard_atomic (name : String) : Atomic (resetCard name) := by
  intro r b hr
  cases hc : r.card? name with
  | ok c =>
    exact ((resetCard_at hc).weaken (fun _ hs => hs.1) (fun _ _ hs => hs)
      fun _ _ hs => ⟨hs.1, .inl hs.2⟩).named hr
  | error e =>
    unfold resetCard
    apply requireCard_idle
    intro c hfound
    rw [hc] at hfound
    cases hfound

theorem clearEdits_atomic : Atomic clearEdits := by
  intro r b hr
  unfold clearEdits
  apply of_idle
  refine issue_at.bind fun _ => (of_at (adjust_shaped fun r => ?_)).named hr
  exact Table.map_map_of Card.shape_clearEdits r.cards

theorem clearProgram_atomic : Atomic clearProgram :=
  fun _ _ hr => of_idle ((of_at drop_shaped).named hr)

end Session

theorem Operation.run_atomic {op : Operation} (h : op.inSteps = false) : Job.Atomic op.run := by
  cases op with
  | addCard n k rate => exact (Session.addCard_atomic n k rate).answer _
  | removeCard n => exact (Session.removeCard_atomic n).answer _
  | nameCard n k => exact (Session.nameCard_atomic n k).answer _
  | nameChannel c ch k => exact (Session.nameChannel_atomic c ch k).answer _
  | addAnalogChannel c i v => exact (Session.addAnalogChannel_atomic c i v).answer _
  | addDigitalChannel c p l on inv => exact (Session.addDigitalChannel_atomic c p l on inv).answer _
  | addFlatChannel c i n on inv => exact (Session.addFlatChannel_atomic c i n on inv).answer _
  | addInstruction c ch i => exact (Session.addInstruction_atomic c ch i).answer _
  | switch c ch on t d => exact (Session.switch_atomic c ch on t d).answer _
  | addReset t => exact (Session.addReset_atomic t).answer _
  | configureStartTrig c t e => exact (Session.configureStartTrig_atomic c t e).answer _
  | configureSampleClockIn c t => exact (Session.configureSampleClockIn_atomic c t).answer _
  | configureSampleClockOut c t => exact (Session.configureSampleClockOut_atomic c t).answer _
  | configureRefClock c t rate e => exact (Session.configureRefClock_atomic c t rate e).answer _
  | clearRefClockIn c => exact (Session.clearRefClockIn_atomic c).answer _
  | setWriteTimeout c t => exact (Session.setWriteTimeout_atomic c t).answer _
  | setStartsLast c => exact (Session.setStartsLast_atomic c).answer _
  | setProvider p => exact (Session.setProvider_atomic p).answer _
  | resetCard n => exact (Session.resetCard_atomic n).answer _
  | clearEdits => exact Session.clearEdits_atomic.answer _
  | clearProgram => exact Session.clearProgram_atomic.answer _
  | resetAll | compile => cases h

end Sequencer
