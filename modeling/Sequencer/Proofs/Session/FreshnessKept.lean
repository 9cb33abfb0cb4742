import Sequencer.Operation
import Sequencer.Proofs.Session.Freshness
import Sequencer.Proofs.Session.Triple

namespace Sequencer

namespace Session

open Job Registry

theorem keeps_edit (f : Registry → Registry) : Keeps Backs (edit f) :=
  Keeps.edit fun r _ => (f r).backs_withoutProgram

theorem keeps_drop : Keeps Backs dropProgram := Keeps.adjust fun r _ => r.backs_withoutProgram

/-- Ties to other cards are not compiled. -/
theorem keeps_sync (card : String) (f : SyncSettings → SyncSettings) :
    Keeps Backs (adjustSync card f) :=
  Keeps.adjustCard fun _ h => h.modifySync card f

theorem keeps_insert (card channel : String) (b : Booking) :
    Keeps Backs (adjustChannel card channel (·.insert b)) :=
  Keeps.adjustChannel fun _ h => h.modifyChannel card channel fun t => t.follows_insert b

theorem addCard_keeps (name : String) (kind : CardKind) (rate : Float) :
    Keeps Backs (addCard name kind rate) := by
  unfold addCard
  apply Keeps.readRegistry.bind
  intro r
  apply Keeps.guard
  apply Keeps.guard
  apply (Keeps.issue _).bind
  intro _
  exact (Keeps.note _).bind fun _ => keeps_edit _

/-- Without its card the program no longer fits, but nothing can fail until it is dropped too. -/
theorem removeCard_keeps (name : String) : Keeps Backs (removeCard name) := by
  have hfree : ∀ f : Registry → Registry, Triple (fun _ => True) (adjust f) (fun _ _ => True)
      (fun _ s => s.registry.Backs) :=
    fun _ => Triple.adjust fun _ _ => trivial
  have hnote : ∀ n : Notice, Triple (fun _ => True) (note n) (fun _ _ => True)
      (fun _ s => s.registry.Backs) :=
    fun _ => Triple.note fun _ _ => trivial
  have hdrop : Triple (fun _ => True) dropProgram (fun _ s => s.registry.Backs)
      (fun _ s => s.registry.Backs) :=
    Triple.adjust fun s _ => s.registry.backs_withoutProgram
  have hprovider : Triple (fun _ => True) (do
      if (← readRegistry).roles.isProvider name then
        note (.providerRemoved name)
        adjust fun r => { r with roles := { r.roles with provider := none } }
      dropProgram) (fun _ s => s.registry.Backs) (fun _ s => s.registry.Backs) := by
    apply Triple.readAny.bind
    intro r
    split
    · exact (hnote _).bind fun _ => (hfree _).bind fun _ => hdrop
    · exact hdrop
  unfold removeCard
  apply (Keeps.requireCard name).bind
  intro _
  apply ((hfree _).weaken (fun _ _ => trivial) (fun _ _ h => h) fun _ _ h => h).bind
  intro _
  apply Triple.readAny.bind
  intro r
  split
  · exact (hnote _).bind fun _ => (hfree _).bind fun _ => hprovider
  · exact hprovider

theorem nameCard_keeps (name : String) (nickname : Option String) :
    Keeps Backs (nameCard name nickname) :=
  Keeps.adjustCard fun _ h => h.modifyCard name fun c => c.follows_nickname nickname

theorem nameChannel_keeps (card channel : String) (nickname : Option String) :
    Keeps Backs (nameChannel card channel nickname) :=
  Keeps.adjustChannel fun _ h => h.modifyChannel card channel fun t => t.follows_nickname nickname

theorem commitChannel_keeps (card name : String) (line : Line) (registered : Float) :
    Keeps Backs (commitChannel card name line registered) := by
  unfold commitChannel
  apply (Keeps.requireCard card).bind
  intro _
  exact (Keeps.ofExcept _).bind fun _ => keeps_edit _

theorem addAnalogChannel_keeps (card : String) (id : Nat) (level : Float) :
    Keeps Backs (addAnalogChannel card id level) := by
  unfold addAnalogChannel
  apply (Keeps.requireCard card).bind
  intro _
  apply Keeps.guard
  apply Keeps.guard
  apply (Keeps.ofExcept _).bind
  intro _
  apply (Keeps.issue _).bind
  intro _
  exact (commitChannel_keeps card _ _ level).bind fun _ => Keeps.pure _

theorem addDigitalChannel_keeps (card : String) (port line : Nat) (on inverted : Bool) :
    Keeps Backs (addDigitalChannel card port line on inverted) := by
  unfold addDigitalChannel
  apply (Keeps.requireCard card).bind
  intro _
  apply Keeps.guard
  apply (Keeps.ofExcept _).bind
  intro _
  apply (Keeps.issue _).bind
  intro _
  exact (commitChannel_keeps card _ _ _).bind fun _ => Keeps.pure _

theorem addFlatChannel_keeps (card : String) (index linesPerPort : Nat) (on inverted : Bool) :
    Keeps Backs (addFlatChannel card index linesPerPort on inverted) := by
  unfold addFlatChannel
  split
  · exact addDigitalChannel_keeps card _ _ on inverted
  · exact Keeps.throw _

theorem addInstruction_keeps (card channel : String) (i : Instruction) :
    Keeps Backs (addInstruction card channel i) := by
  unfold addInstruction
  apply (Keeps.requireChannel card channel).bind
  intro t
  apply Keeps.guard
  apply (Keeps.ofExcept _).bind
  intro b
  apply (Keeps.issue _).bind
  intro _
  apply (keeps_insert card channel b).bind
  intro _
  exact keeps_drop.bind fun _ => Keeps.pure _

theorem switch_keeps (card channel : String) (on : Bool) (t : Float) (duration : Option Float) :
    Keeps Backs (switch card channel on t duration) := by
  unfold switch
  exact (Keeps.requireChannel card channel).bind fun ch => addInstruction_keeps card channel _

theorem addReset_keeps (time : Option Float) : Keeps Backs (addReset time) := by
  unfold addReset
  apply Keeps.readRegistry.bind
  intro r
  extract_lets last t rest
  have hrest : Keeps Backs (rest ()) := by
    apply (Keeps.ofExcept _).bind
    intro resets
    apply (Keeps.forM fun _ => Keeps.issue _).bind
    intro _
    apply (Keeps.forM fun _ => keeps_insert _ _ _).bind
    intro _
    exact keeps_drop.bind fun _ => Keeps.pure _
  split
  · exact Keeps.guard hrest
  · exact hrest

theorem configureStartTrig_keeps (card terminal : String) (exported : Bool) :
    Keeps Backs (configureStartTrig card terminal exported) := by
  unfold configureStartTrig
  apply (Keeps.requireCard card).bind
  intro _
  apply (Keeps.issue _).bind
  intro _
  exact (Keeps.issue _).bind fun _ => (keeps_sync card _).bind fun _ => keeps_drop

theorem configureSampleClockIn_keeps (card : String) (terminal : Option String) :
    Keeps Backs (configureSampleClockIn card terminal) := by
  unfold configureSampleClockIn
  apply (Keeps.requireCard card).bind
  intro _
  exact (Keeps.issue _).bind fun _ => (keeps_sync card _).bind fun _ => keeps_drop

theorem configureSampleClockOut_keeps (card : String) (terminal : Option String) :
    Keeps Backs (configureSampleClockOut card terminal) := by
  unfold configureSampleClockOut
  apply (Keeps.requireCard card).bind
  intro _
  exact (Keeps.issue _).bind fun _ => (keeps_sync card _).bind fun _ => keeps_drop

/-- The old exporter's rate and the roles change, and neither is compiled. -/
theorem handOver_backs {r : Registry} (h : r.Backs) (provider : Option (String × String)) :
    (handOver provider r).Backs := by
  have hrelease : (release (provider.map (·.1)) r).Backs := by
    unfold release
    split
    · split
      · exact h
      · exact h.modifySync _ _
    · exact h
  exact hrelease.roles _

theorem setProvider_keeps (provider : Option (String × String)) :
    Keeps Backs (setProvider provider) := by
  have hset : Keeps Backs (adjust (handOver provider)) :=
    Keeps.adjust fun r h => handOver_backs h provider
  unfold setProvider
  cases provider with
  | none => exact hset
  | some p =>
    apply Keeps.readRegistry.bind
    intro r
    exact (Keeps.ofExcept _).bind fun _ => hset

theorem configureRefClock_keeps (card terminal : String) (rate : Float) (exported : Bool) :
    Keeps Backs (configureRefClock card terminal rate exported) := by
  unfold configureRefClock
  apply (Keeps.requireCard card).bind
  intro _
  split
  · unfold exportRefClock
    apply Keeps.guard
    apply (setProvider_keeps _).bind
    intro _
    exact (keeps_sync card _).bind fun _ => keeps_drop
  · unfold importRefClock
    apply Keeps.guard
    apply Keeps.readRegistry.bind
    intro r
    apply Keeps.guard
    apply (Keeps.issue _).bind
    intro _
    exact (keeps_sync card _).bind fun _ => keeps_drop

theorem clearRefClockIn_keeps (card : String) : Keeps Backs (clearRefClockIn card) := by
  unfold clearRefClockIn
  apply (Keeps.requireCard card).bind
  intro _
  exact (Keeps.issue _).bind fun _ => keeps_sync card _

theorem setWriteTimeout_keeps (card : String) (timeout : Option Float) :
    Keeps Backs (setWriteTimeout card timeout) := by
  unfold setWriteTimeout
  apply (Keeps.requireCard card).bind
  intro _
  extract_lets rest
  have hrest : Keeps Backs (rest ()) := (Keeps.issue _).bind fun _ => keeps_sync card _
  split
  · exact Keeps.guard hrest
  · exact hrest

theorem setStartsLast_keeps (card : Option String) : Keeps Backs (setStartsLast card) := by
  unfold setStartsLast
  apply Keeps.readRegistry.bind
  intro r
  extract_lets rest
  have hrest : Keeps Backs (rest ()) := Keeps.adjust fun r h => h.roles _
  split
  · exact Keeps.guard hrest
  · exact hrest

theorem resetCard_keeps (name : String) : Keeps Backs (resetCard name) := by
  unfold resetCard
  apply (Keeps.requireCard name).bind
  intro _
  apply (Keeps.issue _).bind
  intro _
  apply (Keeps.adjustCard fun r h => h.modifyCard name fun c => c.follows_reset).bind
  intro _
  apply Keeps.readRegistry.bind
  intro r
  split
  · exact (Keeps.adjust fun r h => h.roles _).bind fun _ => keeps_drop
  · exact keeps_drop

theorem resetAll_keeps : Keeps Backs resetAll := by
  unfold resetAll
  exact Keeps.readRegistry.bind fun r => Keeps.forM resetCard_keeps

/-- Compiling leaves cards that back the new program, and none when it fails. -/
theorem compileCards_backs (stop : Float) :
    Triple (fun s => s.registry.program = none) (compileCards stop)
      (fun parts s => s.registry.program = none ∧ s.registry.BacksParts stop parts)
      (fun _ s => s.registry.program = none) := by
  unfold compileCards
  apply Triple.readRegistry.bind
  intro r
  rcases ht : r.cards.traverse (Card.compile stop) with ⟨cards, programs⟩
  have hset : Triple (fun s => s.registry.program = none ∧ r = s.registry)
      (adjust fun r => { r with cards }) (fun _ s => s.registry.program = none ∧
        s.registry.cards = cards) (fun _ s => s.registry.program = none) :=
    Triple.adjust fun s hs => ⟨hs.1, rfl⟩
  refine hset.bind fun _ => Triple.ofExcept ?_ fun _ _ _ h => h.1
  intro parts s hparts hs
  refine ⟨hs.1, ?_⟩
  unfold BacksParts
  rw [hs.2]
  unfold Table.traverse at ht
  simp only [Prod.mk.injEq] at ht
  obtain ⟨rfl, rfl⟩ := ht
  cases hqs : (Table.traverseEntries (Card.compile stop) r.cards.entries).2 with
  | error e => simp [hqs, Except.map] at hparts
  | ok qs =>
    simp only [hqs, Except.map, Except.ok.injEq] at hparts
    subst parts
    exact Card.backs_traverse stop hqs

theorem compile_keeps (asked : Option Float) : Keeps Backs (compile asked) := by
  have hdrop : Triple (fun s => s.registry.Backs) dropProgram
      (fun _ s => s.registry.program = none) (fun _ s => s.registry.Backs) :=
    Triple.adjust fun _ _ => rfl
  have hnone : ∀ s : Session, s.registry.program = none → s.registry.Backs :=
    fun s h => s.registry.backs_of_none h
  unfold compile
  apply hdrop.bind
  intro _
  apply Triple.readAny.bind
  intro r
  have hstop : Triple (fun s => s.registry.program = none) (ofExcept (stopTime r asked))
      (fun _ s => s.registry.program = none) (fun _ s => s.registry.Backs) :=
    Triple.ofExcept (fun _ _ _ h => h) fun _ s _ h => hnone s h
  apply hstop.bind
  intro stop
  extract_lets rest
  have hrest : Triple (fun s => s.registry.program = none) (rest ())
      (fun _ s => s.registry.Backs) (fun _ s => s.registry.Backs) := by
    have hcards := (compileCards_backs stop).weaken (fun _ h => h) (fun _ _ h => h)
      fun _ s h => hnone s h
    apply hcards.bind
    intro parts
    have hissue : Triple
        (fun s => s.registry.program = none ∧ s.registry.BacksParts stop parts)
        (issue (.compile (some stop))) (fun _ s => s.registry.BacksParts stop parts)
        (fun _ s => s.registry.Backs) :=
      Triple.issue (fun s h _ => h.2) fun s h _ => hnone s h.1
    have hnote : ∀ n : Notice, Triple (fun s => s.registry.BacksParts stop parts) (note n)
        (fun _ s => s.registry.BacksParts stop parts) (fun _ s => s.registry.Backs) :=
      fun _ => Triple.note fun _ h => h
    have hset : Triple (fun s => s.registry.BacksParts stop parts)
        (adjust fun r => { r with program := some ⟨parts, stop⟩ })
        (fun _ s => s.registry.Backs) (fun _ s => s.registry.Backs) := by
      apply Triple.adjust
      intro s h p hp
      cases hp
      exact h
    apply hissue.bind
    intro _
    apply (hnote _).bind
    intro _
    exact hset.bind fun _ => Triple.pure fun _ h => h
  split
  · exact (Triple.note fun _ h => h).bind fun _ => hrest
  · exact hrest

theorem clearEdits_keeps : Keeps Backs clearEdits := by
  unfold clearEdits
  exact (Keeps.issue _).bind fun _ => keeps_edit _

theorem clearProgram_keeps : Keeps Backs clearProgram := keeps_drop

end Session

open Session Job in
/-- Whatever an operation does, the cards go on to back the program. -/
theorem Operation.run_keeps (op : Operation) : Keeps Registry.Backs op.run := by
  cases op with
  | addCard n k r => exact (addCard_keeps n k r).bind fun _ => Keeps.pure _
  | removeCard n => exact (removeCard_keeps n).bind fun _ => Keeps.pure _
  | nameCard n k => exact (nameCard_keeps n k).bind fun _ => Keeps.pure _
  | nameChannel c ch k => exact (nameChannel_keeps c ch k).bind fun _ => Keeps.pure _
  | addAnalogChannel c i v => exact (addAnalogChannel_keeps c i v).bind fun _ => Keeps.pure _
  | addDigitalChannel c p l on inv =>
    exact (addDigitalChannel_keeps c p l on inv).bind fun _ => Keeps.pure _
  | addFlatChannel c i n on inv =>
    exact (addFlatChannel_keeps c i n on inv).bind fun _ => Keeps.pure _
  | addInstruction c ch i => exact (addInstruction_keeps c ch i).bind fun _ => Keeps.pure _
  | switch c ch on t d => exact (switch_keeps c ch on t d).bind fun _ => Keeps.pure _
  | addReset t => exact (addReset_keeps t).bind fun _ => Keeps.pure _
  | configureStartTrig c t e => exact (configureStartTrig_keeps c t e).bind fun _ => Keeps.pure _
  | configureSampleClockIn c t =>
    exact (configureSampleClockIn_keeps c t).bind fun _ => Keeps.pure _
  | configureSampleClockOut c t =>
    exact (configureSampleClockOut_keeps c t).bind fun _ => Keeps.pure _
  | configureRefClock c t r e => exact (configureRefClock_keeps c t r e).bind fun _ => Keeps.pure _
  | clearRefClockIn c => exact (clearRefClockIn_keeps c).bind fun _ => Keeps.pure _
  | setWriteTimeout c t => exact (setWriteTimeout_keeps c t).bind fun _ => Keeps.pure _
  | setStartsLast c => exact (setStartsLast_keeps c).bind fun _ => Keeps.pure _
  | setProvider p => exact (setProvider_keeps p).bind fun _ => Keeps.pure _
  | resetCard n => exact (resetCard_keeps n).bind fun _ => Keeps.pure _
  | resetAll => exact resetAll_keeps.bind fun _ => Keeps.pure _
  | compile t => exact (compile_keeps t).bind fun _ => Keeps.pure _
  | clearEdits => exact clearEdits_keeps.bind fun _ => Keeps.pure _
  | clearProgram => exact clearProgram_keeps.bind fun _ => Keeps.pure _

end Sequencer
