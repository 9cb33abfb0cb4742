import Sequencer.Proofs.Session.Outcome
import Sequencer.Proofs.Session.Resets

namespace Sequencer

/-- The operation makes several calls before it changes the registry, and can fail in between. -/
def Operation.callsAhead : Operation → Bool
  | .configureStartTrig .. | .addReset _ => true
  | _ => false

namespace Session

open Job Triple Registry

theorem addCard_effects (name : String) (kind : CardKind) (rate : Float) :
    Effects (addCard name kind rate) := by
  intro r b
  unfold addCard
  apply readRegistry_bind fun _ hs => hs.1
  refine Triple.guard (fun _ hs => hs.unchanged) fun hnew => ?_
  refine Triple.guard (fun _ hs => hs.unchanged) fun _ => ?_
  apply Triple.tell
  apply note_since.bind
  intro _
  have hfree : r.cards.contains name = false := by simpa using hnew
  exact commit (.addCard hfree) adjust_since

theorem removeCard_effects (name : String) : Effects (removeCard name) := by
  intro r b
  -- the two roles are given up one after the other, each only if the card has it
  have hdrop : ∀ last provider, last = (r.roles.without name).startsLast →
      provider = (r.roles.without name).provider →
      Triple (Since ⟨r.cards.erase name, ⟨last, provider⟩, r.program⟩ b []) dropProgram
        (fun _ => Changed r b) fun _ => Changed r b := by
    rintro last provider rfl rfl
    exact commit (.removeCard name) adjust_since
  unfold removeCard
  refine requireCard_since (fun _ _ hs => hs.unchanged) fun c _ => ?_
  apply adjust_since.bind
  intro _
  apply readRegistry_bind fun _ hs => hs.1
  extract_lets dropped rest
  have hrest : ∀ last, last = (r.roles.without name).startsLast →
      Triple (Since ⟨r.cards.erase name, ⟨last, r.roles.provider⟩, r.program⟩ b []) (rest ())
        (fun _ => Changed r b) fun _ => Changed r b := by
    intro last hlast
    apply readRegistry_bind fun _ hs => hs.1
    split
    case isTrue h =>
      have hprovider : none = (r.roles.without name).provider := (if_pos h).symm
      exact note_since.bind fun _ => adjust_since.bind fun _ => hdrop last none hlast hprovider
    case isFalse h =>
      have hprovider : r.roles.provider = (r.roles.without name).provider := (if_neg h).symm
      exact hdrop last r.roles.provider hlast hprovider
  split
  case isTrue h =>
    have hlast : none = (r.roles.without name).startsLast := (if_pos h).symm
    exact note_since.bind fun _ => adjust_since.bind fun _ => hrest none hlast
  case isFalse h =>
    have hlast : r.roles.startsLast = (r.roles.without name).startsLast := (if_neg h).symm
    exact hrest r.roles.startsLast hlast

theorem nameCard_effects (name : String) (nickname : Option String) :
    Effects (nameCard name nickname) := by
  intro r b
  refine requireCard_since (fun _ _ hs => hs.unchanged) fun c _ => ?_
  exact commit (.nameCard name nickname) adjust_since

theorem nameChannel_effects (card channel : String) (nickname : Option String) :
    Effects (nameChannel card channel nickname) := by
  intro r b
  refine requireChannel_since (fun _ _ hs => hs.unchanged) fun t _ => ?_
  exact commit (.nameChannel card channel nickname) adjust_since

theorem commitChannel_since {r : Registry} {b : Backend} {cs : List Call} {card name : String}
    {line : Line} {registered : Float} {c c' : Card} {fault : Error → Session → Prop}
    (hc : r.card? card = .ok c) (hadd : c.addChannel name line registered = .ok c') :
    Triple (Since r b cs) (commitChannel card name line registered)
      (fun _ => Since (r.modifyCard card fun _ => c').withoutProgram b cs) fault := by
  unfold commitChannel
  apply requireCard_known hc
  rw [hadd]
  change Triple (Since r b cs) (edit (·.modifyCard card fun _ => c')) _ fault
  exact adjust_since

theorem addAnalogChannel_effects (card : String) (id : Nat) (level : Float) :
    Effects (addAnalogChannel card id level) := by
  intro r b
  unfold addAnalogChannel
  refine requireCard_since (fun _ _ hs => hs.unchanged) fun c hc => ?_
  refine Triple.guard (fun _ hs => hs.unchanged) fun hkind => ?_
  refine Triple.guard (fun _ hs => hs.unchanged) fun _ => ?_
  refine Triple.ofExcept_bind (fun _ _ _ hs => hs.unchanged) fun _ hname => ?_
  have hline : Line.analog.isDigital = (c.kind == .digital) := by
    cases hk : c.kind <;> simp_all [Line.isDigital]
  obtain ⟨c', hadd⟩ := addChannel_ok level hline hname
  apply Triple.tell
  apply (commit (.addAnalogChannel hc hadd) (commitChannel_since hc hadd)).bind
  intro _
  exact Triple.pure fun _ hs => hs

theorem addDigitalChannel_effects (card : String) (port line : Nat) (on inverted : Bool) :
    Effects (addDigitalChannel card port line on inverted) := by
  intro r b
  unfold addDigitalChannel
  refine requireCard_since (fun _ _ hs => hs.unchanged) fun c hc => ?_
  refine Triple.guard (fun _ hs => hs.unchanged) fun hkind => ?_
  refine Triple.ofExcept_bind (fun _ _ _ hs => hs.unchanged) fun _ hname => ?_
  extract_lets kind registered
  have hdigital : kind.isDigital = true := by cases inverted <;> rfl
  have hline : kind.isDigital = (c.kind == .digital) := by
    cases hk : c.kind <;> simp_all
  obtain ⟨c', hadd⟩ := addChannel_ok registered hline hname
  apply Triple.tell
  apply (commit (.addDigitalChannel hc hdigital hadd) (commitChannel_since hc hadd)).bind
  intro _
  exact Triple.pure fun _ hs => hs

theorem addFlatChannel_effects (card : String) (index linesPerPort : Nat) (on inverted : Bool) :
    Effects (addFlatChannel card index linesPerPort on inverted) := by
  unfold addFlatChannel
  split
  · exact addDigitalChannel_effects card _ _ on inverted
  · exact fun r b => Triple.throw fun _ hs => hs.unchanged

theorem addInstruction_effects (card channel : String) (i : Instruction) :
    Effects (addInstruction card channel i) := by
  intro r b
  unfold addInstruction
  refine requireChannel_since (fun _ _ hs => hs.unchanged) fun t ht => ?_
  refine Triple.guard (fun _ hs => hs.unchanged) fun hplayable => ?_
  refine Triple.ofExcept_bind (fun _ _ _ hs => hs.unchanged) fun booking hplaced => ?_
  have hinstr : booking.instr = i := by
    obtain ⟨first, stop, -, rfl, -⟩ := Timeline.place_eq_ok_iff.mp hplaced
    rfl
  subst i
  have hsome : (t.line.wave? booking.instr t.idle).isSome = true := by
    simpa [Option.isSome_iff_ne_none] using hplayable
  apply Triple.tell
  apply (adjustChannel_since ht).bind
  intro _
  apply (commit (.addInstruction ht hsome hplaced) adjust_since).bind
  intro _
  exact Triple.pure fun _ hs => hs

theorem switch_effects (card channel : String) (on : Bool) (t : Float) (duration : Option Float) :
    Effects (switch card channel on t duration) := by
  intro r b
  refine requireChannel_since (fun _ _ hs => hs.unchanged) fun ch _ => ?_
  exact addInstruction_effects card channel _ r b

theorem commit_since {r : Registry} {b : Backend} {cs : List Call}
    {placed : List (String × String × Booking)} {fault : Error → Session → Prop}
    (known : ∀ x ∈ placed, ∃ t, r.channel? x.1 x.2.1 = .ok t) :
    Triple (Since r b cs) (placed.forM fun x => adjustChannel x.1 x.2.1 (·.insert x.2.2))
      (fun _ => Since (r.commit placed) b cs) fault := by
  induction placed generalizing r with
  | nil => exact Triple.pure fun _ hs => hs
  | cons x placed ih =>
    obtain ⟨t, ht⟩ := known x List.mem_cons_self
    have hshape := r.shape_modifyChannel x.1 x.2.1 (f := (·.insert x.2.2)) fun _ => rfl
    apply (adjustChannel_since ht).bind
    intro _
    apply ih
    intro y hy
    obtain ⟨u, hu⟩ := known y (List.mem_cons_of_mem _ hy)
    exact channel?_of_shape hshape hu

/-- The resets are committed when the backend accepted all of them. -/
theorem addReset_ahead {r : Registry} {b : Backend} (sound : r.Sound) (time : Option Float) :
    Triple (Since r b []) (addReset time) (fun _ => Changed r b) (fun _ => Ahead r b) := by
  unfold addReset
  apply readRegistry_bind fun _ hs => hs.1
  extract_lets last t rest
  have hrest : Triple (Since r b []) (rest ()) (fun _ => Changed r b) (fun _ => Ahead r b) := by
    refine Triple.ofExcept_bind (fun _ _ _ hs => ⟨[], hs⟩) fun resets hresets => ?_
    obtain ⟨hfits, hdistinct⟩ := sound.placeResets_fits hresets
    have hdrop : r.Change [] r.withoutProgram := .compile (by simp) rfl
    have hchanges := hdrop.changes.trans (changes_commit hfits hdistinct)
    apply Triple.forM_issue.bind
    intro _
    apply (commit_since fun x hx => (hfits x hx).imp fun t ht => ht.known).bind
    intro _
    apply adjust_since.bind
    intro _
    exact Triple.pure fun _ hs => ⟨_, _, hchanges, hs⟩
  split
  · exact Triple.guard (fun _ hs => ⟨[], hs⟩) fun _ => hrest
  · exact hrest

/-- The first call may be accepted and the second one refused. -/
theorem configureStartTrig_ahead {r : Registry} {b : Backend} (card terminal : String)
    (exported : Bool) : Triple (Since r b []) (configureStartTrig card terminal exported)
      (fun _ => Changed r b) (fun _ => Ahead r b) := by
  unfold configureStartTrig
  refine requireCard_since (fun _ _ hs => ⟨[], hs⟩) fun c hc => ?_
  extract_lets trigIn trigOut
  have honeWay : trigIn = none ∨ trigOut = none := by cases exported <;> simp [trigIn, trigOut]
  apply (issue_since fun _ hs => ⟨[], hs⟩).bind
  intro _
  apply (issue_since fun _ hs => ⟨_, hs⟩).bind
  intro _
  exact commit (.configureStartTrig honeWay) (editSync_since hc)

theorem configureSampleClockIn_effects (card : String) (terminal : Option String) :
    Effects (configureSampleClockIn card terminal) := by
  intro r b
  refine requireCard_since (fun _ _ hs => hs.unchanged) fun c hc => ?_
  apply Triple.tell
  exact commit (.configureSampleClockIn card terminal) (editSync_since hc)

theorem configureSampleClockOut_effects (card : String) (terminal : Option String) :
    Effects (configureSampleClockOut card terminal) := by
  intro r b
  refine requireCard_since (fun _ _ hs => hs.unchanged) fun c hc => ?_
  apply Triple.tell
  exact commit (.configureSampleClockOut card terminal) (editSync_since hc)

/-- Who may not provide the clock is refused before anything is done. -/
theorem setProvider_since {r : Registry} {b : Backend} (provider : Option (String × String)) :
    Triple (Since r b []) (setProvider provider)
      (fun _ s => (∀ p, provider = some p → checkNewProvider r p.1 = .ok ()) ∧
        Since (handOver provider r) b [] s)
      (fun _ s => Changed r b s) := by
  unfold setProvider
  cases provider with
  | none =>
    exact adjust_since.weaken (fun _ hs => hs) (fun _ _ hs => ⟨by simp, hs⟩) fun _ _ hs => hs
  | some p =>
    apply readRegistry_bind fun _ hs => hs.1
    refine Triple.ofExcept_bind (fun _ _ _ hs => hs.unchanged) fun _ hfree => ?_
    have hp : ∀ q, some p = some q → checkNewProvider r q.1 = .ok () := by
      rintro _ ⟨⟩
      exact hfree
    exact adjust_since.weaken (fun _ hs => hs) (fun _ _ hs => ⟨hp, hs⟩) fun _ _ hs => hs

theorem setProvider_effects (provider : Option (String × String)) :
    Effects (setProvider provider) := fun _ _ =>
  (setProvider_since provider).weaken (fun _ hs => hs)
    (fun _ _ hs => hs.2.changed (.setProvider hs.1)) fun _ _ hs => hs

theorem configureRefClock_effects (card terminal : String) (rate : Float) (exported : Bool) :
    Effects (configureRefClock card terminal rate exported) := by
  intro r b
  unfold configureRefClock
  refine requireCard_since (fun _ _ hs => hs.unchanged) fun c hc => ?_
  split
  case isTrue =>
    unfold exportRefClock
    refine Triple.guard (fun _ hs => hs.unchanged) fun hrate => ?_
    apply (setProvider_since _).bind
    rintro _ s ⟨hfree, hs⟩
    obtain ⟨c', hc', -⟩ := card?_of_shape (handOver_shape (some (card, terminal)) r) hc
    have hacknowledged : (rate == exportRate) = true := by simpa [bne] using hrate
    exact commit (.exportRefClock hacknowledged (hfree _ rfl)) (editSync_since hc') s hs
  case isFalse =>
    unfold importRefClock
    refine Triple.guard (fun _ hs => hs.unchanged) fun _ => ?_
    apply readRegistry_bind fun _ hs => hs.1
    refine Triple.guard (fun _ hs => hs.unchanged) fun hprovider => ?_
    apply Triple.tell
    exact commit (.importRefClock rate (by simpa using hprovider)) (editSync_since hc)

theorem clearRefClockIn_effects (card : String) : Effects (clearRefClockIn card) := by
  intro r b
  refine requireCard_since (fun _ _ hs => hs.unchanged) fun c hc => ?_
  apply Triple.tell
  exact commit (.clearRefClockIn card) (adjustCard_since hc)

theorem setWriteTimeout_effects (card : String) (timeout : Option Float) :
    Effects (setWriteTimeout card timeout) := by
  intro r b
  unfold setWriteTimeout
  refine requireCard_since (fun _ _ hs => hs.unchanged) fun c hc => ?_
  extract_lets rest
  have hrest : Triple (Since r b []) (rest ()) (fun _ => Changed r b) fun _ => Changed r b := by
    apply Triple.tell
    exact commit (.setWriteTimeout card timeout) (adjustCard_since hc)
  split
  · exact Triple.guard (fun _ hs => hs.unchanged) fun _ => hrest
  · exact hrest

theorem setStartsLast_effects (card : Option String) : Effects (setStartsLast card) := by
  intro r b
  unfold setStartsLast
  apply readRegistry_bind fun _ hs => hs.1
  extract_lets rest
  have hrest : (∀ name, card = some name → r.cards.contains name = true) →
      Triple (Since r b []) (rest ()) (fun _ => Changed r b) fun _ => Changed r b :=
    fun known => commit (.setStartsLast known) adjust_since
  split
  case h_1 name =>
    refine Triple.guard (fun _ hs => hs.unchanged) fun hknown => hrest ?_
    rintro _ ⟨⟩
    simpa using hknown
  case h_2 hnone => exact hrest fun name heq => (hnone name heq).elim

/-- What is left of a reset once the backend took it. -/
theorem finishReset_since {r : Registry} {b : Backend} {cs : List Call} {name : String} {c : Card}
    {fault : Error → Session → Prop} (hc : r.card? name = .ok c) :
    Triple (Since r b cs)
      (do adjustCard name (·.reset)
          if (← readRegistry).roles.isProvider name then
            adjust fun r => { r with roles := { r.roles with provider := none } }
          dropProgram)
      (fun _ => Since { r.modifyCard name (·.reset) with
        roles := { r.roles with provider := (r.roles.without name).provider }
        program := none } b cs) fault := by
  have hdrop : ∀ provider, provider = (r.roles.without name).provider →
      Triple (Since { r.modifyCard name (·.reset) with roles := { r.roles with provider } } b cs)
        dropProgram (fun _ => Since { r.modifyCard name (·.reset) with
          roles := { r.roles with provider := (r.roles.without name).provider }
          program := none } b cs) fault := by
    rintro provider rfl
    exact adjust_since
  apply (adjustCard_since hc).bind
  intro _
  apply readRegistry_bind fun _ hs => hs.1
  split
  case isTrue h => exact adjust_since.bind fun _ => hdrop none (if_pos h).symm
  case isFalse h => exact hdrop r.roles.provider (if_neg h).symm

theorem resetCard_effects (name : String) : Effects (resetCard name) := by
  intro r b
  unfold resetCard
  refine requireCard_since (fun _ _ hs => hs.unchanged) fun c hc => ?_
  apply Triple.tell
  exact commit (.resetCard name) (finishReset_since hc)

theorem resetAll_effects : Effects resetAll := by
  intro r b
  unfold resetAll
  apply readRegistry_bind fun _ hs => hs.1
  have hall : Triple (Changed r b) (r.cards.names.forM resetCard) (fun _ => Changed r b)
      fun _ => Changed r b :=
    Triple.forM fun name _ => (resetCard_effects name).after
  exact hall.weaken (fun _ hs => hs.unchanged) (fun _ _ hs => hs) fun _ _ hs => hs

theorem compile_effects (asked : Option Float) : Effects (compile asked) := by
  intro r b
  refine (compile_spec asked).weaken (fun _ hs => hs) ?_ ?_
  · rintro t s ⟨p, -, -, -, hsame, htold⟩
    exact ⟨_, s.registry, (Change.compile (by simp) hsame).changes, rfl, htold⟩
  · rintro e s ⟨-, ⟨-, hsame⟩, htold⟩
    exact ⟨_, s.registry, (Change.compile (by simp) hsame).changes, rfl, htold⟩

theorem clearEdits_effects : Effects clearEdits := by
  intro r b
  apply Triple.tell
  exact commit .clearEdits adjust_since

theorem clearProgram_effects : Effects clearProgram := by
  intro r b
  have hdrop : r.Change [] r.withoutProgram := .compile (by simp) rfl
  exact commit hdrop adjust_since

end Session

theorem Job.Effects.answer {α : Type} {j : Job α} (h : Job.Effects j) (f : α → Answer) :
    Job.Effects (do return f (← j)) :=
  fun r b => (h r b).bind fun _ => Job.Triple.pure fun _ hs => hs

theorem Operation.run_effects {op : Operation} (h : op.callsAhead = false) :
    Job.Effects op.run := by
  cases op with
  | addCard n k rate => exact (Session.addCard_effects n k rate).answer _
  | removeCard n => exact (Session.removeCard_effects n).answer _
  | nameCard n k => exact (Session.nameCard_effects n k).answer _
  | nameChannel c ch k => exact (Session.nameChannel_effects c ch k).answer _
  | addAnalogChannel c i v => exact (Session.addAnalogChannel_effects c i v).answer _
  | addDigitalChannel c p l on inv =>
    exact (Session.addDigitalChannel_effects c p l on inv).answer _
  | addFlatChannel c i n on inv => exact (Session.addFlatChannel_effects c i n on inv).answer _
  | addInstruction c ch i => exact (Session.addInstruction_effects c ch i).answer _
  | switch c ch on t d => exact (Session.switch_effects c ch on t d).answer _
  | configureSampleClockIn c t => exact (Session.configureSampleClockIn_effects c t).answer _
  | configureSampleClockOut c t => exact (Session.configureSampleClockOut_effects c t).answer _
  | configureRefClock c t rate e => exact (Session.configureRefClock_effects c t rate e).answer _
  | clearRefClockIn c => exact (Session.clearRefClockIn_effects c).answer _
  | setWriteTimeout c t => exact (Session.setWriteTimeout_effects c t).answer _
  | setStartsLast c => exact (Session.setStartsLast_effects c).answer _
  | setProvider p => exact (Session.setProvider_effects p).answer _
  | resetCard n => exact (Session.resetCard_effects n).answer _
  | resetAll => exact Session.resetAll_effects.answer _
  | compile t => exact (Session.compile_effects t).answer _
  | clearEdits => exact Session.clearEdits_effects.answer _
  | clearProgram => exact Session.clearProgram_effects.answer _
  | addReset | configureStartTrig => cases h

/-- Whatever an operation did, it was a chain of changes, unless it failed between calls that it
makes ahead of its only change. -/
theorem Operation.run_changes {r : Registry} {b : Backend} (sound : r.Sound) (op : Operation) :
    Job.Triple (Job.Since r b []) op.run (fun _ => Job.Changed r b)
      (fun _ s => Job.Changed r b s ∨ op.callsAhead = true ∧ Job.Ahead r b s) := by
  cases hcalls : op.callsAhead with
  | false =>
    exact (op.run_effects hcalls r b).weaken (fun _ hs => hs) (fun _ _ hs => hs)
      fun _ _ hs => .inl hs
  | true =>
    have hahead : Job.Triple (Job.Since r b []) op.run (fun _ => Job.Changed r b)
        (fun _ => Job.Ahead r b) := by
      cases op with
      | addReset t =>
        exact (Session.addReset_ahead sound t).bind fun _ => Job.Triple.pure fun _ hs => hs
      | configureStartTrig c t e =>
        exact (Session.configureStartTrig_ahead c t e).bind fun _ => Job.Triple.pure fun _ hs => hs
      | _ => cases hcalls
    exact hahead.weaken (fun _ hs => hs) (fun _ _ hs => hs) fun _ _ hs => .inr ⟨rfl, hs⟩

namespace Registry

variable {r : Registry}

/-- What every change keeps holds of every registry that operations lead to. -/
theorem Reached.keep (inv : Registry → Prop) (h : r.Reached) (empty : inv {})
    (change : ∀ r cs r', r.Sound → r.Change cs r' → inv r → inv r') : r.Sound ∧ inv r := by
  induction h with
  | empty => exact ⟨.empty, empty⟩
  | step op s before ih =>
    -- soundness goes along, since adding resets is known to be changes for sound registries only
    have hchanges : ∀ cs r', s.registry.Changes cs r' → r'.Sound ∧ inv r' := by
      intro cs r' hchanges
      refine hchanges.keep (fun r => r.Sound ∧ inv r) (fun r cs r' hchange hr => ?_) ih
      exact ⟨hr.1.change hchange, change r cs r' hr.1 hchange hr.2⟩
    have hend := op.run_changes (b := s.backend) ih.1 s (.start s)
    rcases hrun : op.run.run.run s with ⟨result, s'⟩
    rw [hrun] at hend
    cases result with
    | ok a =>
      obtain ⟨cs, r', hcs, rfl, -⟩ := hend
      exact hchanges _ _ hcs
    | error e =>
      obtain ⟨cs, r', hcs, rfl, -⟩ | ⟨-, cs, hsame, -⟩ := hend
      · exact hchanges _ _ hcs
      · exact hsame ▸ ih

theorem Reached.sound (h : r.Reached) : r.Sound :=
  (h.keep (fun _ => True) trivial fun _ _ _ _ _ _ => trivial).1

end Registry

/-- The session after operations one after another, done or failed. -/
def Session.operate (s : Session) (ops : List Operation) : Session :=
  ops.foldl (fun s op => (op.run.run.run s).2) s

theorem Registry.Reached.operate {s : Session} (h : s.registry.Reached) (ops : List Operation) :
    (s.operate ops).registry.Reached := by
  induction ops generalizing s with
  | nil => exact h
  | cons op ops ih => exact ih (.step op s h)

end Sequencer
