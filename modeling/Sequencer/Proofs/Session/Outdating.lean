import Sequencer.Proofs.Session.Effects
import Sequencer.Proofs.Session.History

namespace Sequencer

namespace Job

variable {α β : Type}

/-- A job that is done has dropped the program, and one that fails has left it in place. -/
def Drops (j : Job α) : Prop :=
  ∀ p, Triple (fun s => s.registry.program = p) j (fun _ s => s.registry.program = none)
    fun _ s => s.registry.program = p

/-- The program stays in place. -/
def Spares (j : Job α) : Prop := ∀ p, Keeps (fun r => r.program = p) j

namespace Drops

theorem last {j : Job β} {k : β → Job α} (hj : Spares j) (hk : ∀ b, Drops (k b)) :
    Drops (j >>= k) :=
  fun p => Triple.bind (hj p) fun b => hk b p

theorem answer {j : Job β} (h : Drops j) (f : β → α) : Drops (do return f (← j)) :=
  fun p => (h p).bind fun _ => Triple.pure fun _ hs => hs

theorem throw (e : Error) : Drops (MonadExcept.throw e : Job α) :=
  fun _ => Triple.throw fun _ h => h

theorem edit (f : Registry → Registry) : Drops (Job.edit f) := fun _ => Triple.adjust fun _ _ => rfl

theorem dropProgram : Drops Job.dropProgram := fun _ => Triple.adjust fun _ _ => rfl

theorem guard {c : Prop} [Decidable c] {e : Error} {k : Unit → Job α} (hk : Drops (k ())) :
    Drops (if c then (MonadExcept.throw e : Job Unit) >>= k else k ()) :=
  fun p => Triple.guard (fun _ h => h) fun _ => hk p

/-- Where there is no program, there is none afterwards. -/
theorem keeps_none {j : Job α} (h : Drops j) : Keeps (fun r => r.program = none) j := h none

end Drops

end Job

namespace Session

open Job

theorem requireCard_spares (name : String) : Spares (requireCard name) :=
  fun _ => Keeps.requireCard name

theorem requireChannel_spares (card channel : String) : Spares (requireChannel card channel) :=
  fun _ => Keeps.requireChannel card channel

theorem issue_spares (c : Call) : Spares (issue c) := fun _ => Keeps.issue c

theorem note_spares (n : Notice) : Spares (note n) := fun _ => Keeps.note n

theorem readRegistry_spares : Spares readRegistry := fun _ => Keeps.readRegistry

theorem ofExcept_spares {α : Type} (x : Except Error α) : Spares (ofExcept x : Job α) :=
  fun _ => Keeps.ofExcept x

theorem adjust_spares {f : Registry → Registry} (h : ∀ r, (f r).program = r.program) :
    Spares (adjust f) :=
  fun _ => Keeps.adjust fun r hr => (h r).trans hr

theorem adjustCard_spares (name : String) (f : Card → Card) : Spares (adjustCard name f) :=
  fun _ => Keeps.adjustCard fun _ h => h

theorem adjustChannel_spares (card channel : String) (f : Timeline → Timeline) :
    Spares (adjustChannel card channel f) :=
  fun _ => Keeps.adjustChannel fun _ h => h

theorem editSync_drops (card : String) (f : SyncSettings → SyncSettings) :
    Drops (do adjustSync card f; dropProgram) :=
  .last (adjustCard_spares card _) fun _ => .dropProgram

theorem addCard_drops (name : String) (kind : CardKind) (rate : Float) :
    Drops (addCard name kind rate) := by
  unfold addCard
  apply Drops.last readRegistry_spares
  intro r
  apply Drops.guard
  apply Drops.guard
  apply Drops.last (issue_spares _)
  intro _
  exact .last (note_spares _) fun _ => .edit _

theorem removeCard_drops (name : String) : Drops (removeCard name) := by
  have hleave : ∀ {n : Notice} {f : Registry → Registry} {k : Unit → Job Unit},
      (∀ r, (f r).program = r.program) → Drops (k ()) → Drops (do note n; k (← adjust f)) :=
    fun hf hk => .last (note_spares _) fun _ => .last (adjust_spares hf) fun _ => hk
  unfold removeCard
  apply Drops.last (requireCard_spares name)
  intro _
  refine Drops.last (adjust_spares ?_) fun _ => Drops.last readRegistry_spares fun r => ?_
  · exact fun _ => rfl
  extract_lets dropped rest
  have hrest : Drops (rest ()) := by
    refine .last readRegistry_spares fun r => ?_
    split
    · exact hleave (fun _ => rfl) Drops.dropProgram
    · exact .dropProgram
  split
  · exact hleave (fun _ => rfl) hrest
  · exact hrest

theorem commitChannel_drops (card name : String) (line : Line) (registered : Float) :
    Drops (commitChannel card name line registered) := by
  unfold commitChannel
  apply Drops.last (requireCard_spares card)
  intro c
  exact .last (ofExcept_spares _) fun _ => .edit _

theorem addAnalogChannel_drops (card : String) (id : Nat) (level : Float) :
    Drops (addAnalogChannel card id level) := by
  unfold addAnalogChannel
  apply Drops.last (requireCard_spares card)
  intro c
  apply Drops.guard
  apply Drops.guard
  apply Drops.last (ofExcept_spares _)
  intro _
  apply Drops.last (issue_spares _)
  intro _
  exact (commitChannel_drops card _ .analog level).answer _

theorem addDigitalChannel_drops (card : String) (port line : Nat) (on inverted : Bool) :
    Drops (addDigitalChannel card port line on inverted) := by
  unfold addDigitalChannel
  apply Drops.last (requireCard_spares card)
  intro c
  apply Drops.guard
  apply Drops.last (ofExcept_spares _)
  intro _
  apply Drops.last (issue_spares _)
  intro _
  exact (commitChannel_drops card _ _ _).answer _

theorem addFlatChannel_drops (card : String) (index linesPerPort : Nat) (on inverted : Bool) :
    Drops (addFlatChannel card index linesPerPort on inverted) := by
  unfold addFlatChannel
  split
  · exact addDigitalChannel_drops card _ _ on inverted
  · exact .throw _

theorem addInstruction_drops (card channel : String) (i : Instruction) :
    Drops (addInstruction card channel i) := by
  unfold addInstruction
  apply Drops.last (requireChannel_spares card channel)
  intro t
  apply Drops.guard
  apply Drops.last (ofExcept_spares _)
  intro b
  apply Drops.last (issue_spares _)
  intro _
  apply Drops.last (adjustChannel_spares card channel _)
  intro _
  exact Drops.dropProgram.answer _

theorem switch_drops (card channel : String) (on : Bool) (t : Float) (duration : Option Float) :
    Drops (switch card channel on t duration) :=
  .last (requireChannel_spares card channel) fun _ => addInstruction_drops card channel _

theorem addReset_drops (time : Option Float) : Drops (addReset time) := by
  unfold addReset
  apply Drops.last readRegistry_spares
  intro r
  extract_lets last t rest
  have hrest : Drops (rest ()) := by
    apply Drops.last (ofExcept_spares _)
    intro resets
    refine Drops.last (fun _ => Keeps.forM fun _ => Keeps.issue _) fun _ => ?_
    refine Drops.last (fun p => Keeps.forM fun x => adjustChannel_spares _ _ _ p) fun _ => ?_
    exact Drops.dropProgram.answer _
  split
  · exact .guard hrest
  · exact hrest

theorem configureStartTrig_drops (card terminal : String) (exported : Bool) :
    Drops (configureStartTrig card terminal exported) := by
  unfold configureStartTrig
  apply Drops.last (requireCard_spares card)
  intro _
  apply Drops.last (issue_spares _)
  intro _
  exact .last (issue_spares _) fun _ => editSync_drops card _

theorem configureSampleClockIn_drops (card : String) (terminal : Option String) :
    Drops (configureSampleClockIn card terminal) :=
  .last (requireCard_spares card) fun _ => .last (issue_spares _) fun _ => editSync_drops card _

theorem configureSampleClockOut_drops (card : String) (terminal : Option String) :
    Drops (configureSampleClockOut card terminal) :=
  .last (requireCard_spares card) fun _ => .last (issue_spares _) fun _ => editSync_drops card _

theorem handOver_program (provider : Option (String × String)) (r : Registry) :
    (handOver provider r).program = r.program := by
  change (release (provider.map (·.1)) r).program = r.program
  rcases release_cases (provider.map (·.1)) r with heq | ⟨card, heq⟩ <;> rw [heq]
  rfl

theorem setProvider_spares (provider : Option (String × String)) :
    Spares (setProvider provider) := by
  have hset := adjust_spares (handOver_program provider)
  intro p
  unfold setProvider
  cases provider with
  | none => exact hset p
  | some q =>
    apply Keeps.readRegistry.bind
    intro r
    exact (Keeps.ofExcept _).bind fun _ => hset p

theorem configureRefClock_drops (card terminal : String) (rate : Float) (exported : Bool) :
    Drops (configureRefClock card terminal rate exported) := by
  unfold configureRefClock
  apply Drops.last (requireCard_spares card)
  intro _
  split
  · unfold exportRefClock
    apply Drops.guard
    exact .last (setProvider_spares _) fun _ => editSync_drops card _
  · unfold importRefClock
    apply Drops.guard
    apply Drops.last readRegistry_spares
    intro r
    apply Drops.guard
    exact .last (issue_spares _) fun _ => editSync_drops card _

theorem clearRefClockIn_spares (card : String) : Spares (clearRefClockIn card) := by
  intro p
  unfold clearRefClockIn
  apply (Keeps.requireCard card).bind
  intro _
  exact (Keeps.issue _).bind fun _ => adjustCard_spares card _ p

theorem setWriteTimeout_spares (card : String) (timeout : Option Float) :
    Spares (setWriteTimeout card timeout) := by
  intro p
  unfold setWriteTimeout
  apply (Keeps.requireCard card).bind
  intro _
  extract_lets rest
  have hrest : Keeps (fun r => r.program = p) (rest ()) :=
    (Keeps.issue _).bind fun _ => adjustCard_spares card _ p
  split
  · exact Keeps.guard hrest
  · exact hrest

theorem setStartsLast_spares (card : Option String) : Spares (setStartsLast card) := by
  intro p
  unfold setStartsLast
  apply Keeps.readRegistry.bind
  intro r
  extract_lets rest
  have hrest : Keeps (fun r => r.program = p) (rest ()) := Keeps.adjust fun _ h => h
  split
  · exact Keeps.guard hrest
  · exact hrest

theorem resetCard_drops (name : String) : Drops (resetCard name) := by
  unfold resetCard
  apply Drops.last (requireCard_spares name)
  intro _
  apply Drops.last (issue_spares _)
  intro _
  apply Drops.last (adjustCard_spares name _)
  intro _
  apply Drops.last readRegistry_spares
  intro r
  split
  · refine Drops.last (adjust_spares ?_) fun _ => .dropProgram
    exact fun _ => rfl
  · exact .dropProgram

/-- Without cards there is nothing to reset. -/
theorem resetAll_program (r : Registry) :
    Triple (At r) resetAll (fun _ s => s.registry = r ∨ s.registry.program = none)
      fun _ _ => True := by
  unfold resetAll
  apply Triple.readRegistry_bind fun _ hs => hs
  cases r.cards.names with
  | nil => exact Triple.pure fun _ hs => .inl hs
  | cons name names =>
    have hfirst : Triple (At r) (resetCard name) (fun _ s => s.registry.program = none)
        fun _ _ => True :=
      (resetCard_drops name r.program).weaken (fun _ hs => congrArg Registry.program hs)
        (fun _ _ hs => hs) fun _ _ _ => trivial
    have hothers : Keeps (fun r => r.program = none) (names.forM resetCard) :=
      Keeps.forM fun other => (resetCard_drops other).keeps_none
    exact hfirst.bind fun _ => hothers.weaken (fun _ hs => hs) (fun _ _ hs => .inr hs)
      fun _ _ _ => trivial

theorem clearEdits_drops : Drops clearEdits := .last (issue_spares _) fun _ => .edit _

end Session

namespace Operation

open Session Job

/-- The operation leaves the compiled program in place. -/
def keepsProgram : Operation → Bool
  | nameCard .. | nameChannel .. | clearRefClockIn .. | setWriteTimeout .. | setStartsLast ..
  | setProvider .. => true
  | _ => false

/-- Every other operation drops the program once it is done. Going from card to card, it may also
find no card to reset, or compile anew. -/
theorem run_drops {op : Operation} (h : op.keepsProgram = false) (whole : op.inSteps = false) :
    Drops op.run := by
  cases op with
  | addCard n k r => exact (addCard_drops n k r).answer _
  | removeCard n => exact (removeCard_drops n).answer _
  | addAnalogChannel c i v => exact (addAnalogChannel_drops c i v).answer _
  | addDigitalChannel c p l on inv => exact (addDigitalChannel_drops c p l on inv).answer _
  | addFlatChannel c i n on inv => exact (addFlatChannel_drops c i n on inv).answer _
  | addInstruction c ch i => exact (addInstruction_drops c ch i).answer _
  | switch c ch on t d => exact (switch_drops c ch on t d).answer _
  | addReset t => exact (addReset_drops t).answer _
  | configureStartTrig c t e => exact (configureStartTrig_drops c t e).answer _
  | configureSampleClockIn c t => exact (configureSampleClockIn_drops c t).answer _
  | configureSampleClockOut c t => exact (configureSampleClockOut_drops c t).answer _
  | configureRefClock c t r e => exact (configureRefClock_drops c t r e).answer _
  | resetCard n => exact (resetCard_drops n).answer _
  | clearEdits => exact clearEdits_drops.answer _
  | clearProgram => exact Drops.dropProgram.answer _
  | resetAll | compile => cases whole
  | nameCard | nameChannel | clearRefClockIn | setWriteTimeout | setStartsLast | setProvider =>
    cases h

theorem run_spares {op : Operation} (h : op.keepsProgram = true) : Spares op.run := by
  intro p
  cases op with
  | nameCard n k => exact (adjustCard_spares n _ p).bind fun _ => Keeps.pure _
  | nameChannel c ch k => exact (adjustChannel_spares c ch _ p).bind fun _ => Keeps.pure _
  | clearRefClockIn c => exact (clearRefClockIn_spares c p).bind fun _ => Keeps.pure _
  | setWriteTimeout c t => exact (setWriteTimeout_spares c t p).bind fun _ => Keeps.pure _
  | setStartsLast c => exact (setStartsLast_spares c p).bind fun _ => Keeps.pure _
  | setProvider q => exact (setProvider_spares q p).bind fun _ => Keeps.pure _
  | _ => cases h

/-- How the program comes out of an operation that is done: as it was, dropped, or compiled anew,
when nothing else but marks of freshness changes. -/
theorem run_program (op : Operation) (r : Registry) (b : Backend) :
    Triple (Idle r b) op.run
      (fun _ s => s.registry.program = (if op.keepsProgram then r.program else none) ∨
        s.registry.cards.map Card.unmarked = r.cards.map Card.unmarked)
      fun _ _ => True := by
  cases hkeeps : op.keepsProgram with
  | true =>
    exact (op.run_spares hkeeps r.program).weaken (fun _ hs => congrArg Registry.program hs.1)
      (fun _ _ hs => .inl hs) fun _ _ _ => trivial
  | false =>
    cases hsteps : op.inSteps with
    | false =>
      exact (op.run_drops hkeeps hsteps r.program).weaken
        (fun _ hs => congrArg Registry.program hs.1) (fun _ _ hs => .inl hs) fun _ _ _ => trivial
    | true =>
      cases op with
      | compile asked =>
        have hcompile : Triple (Idle r b) (Session.compile asked)
            (fun _ s => s.registry.cards.map Card.unmarked = r.cards.map Card.unmarked)
            fun _ _ => True :=
          (compile_uncompiled asked).weaken (fun _ hs => hs)
            (fun _ _ hs => congrArg Registry.cards hs) fun _ _ _ => trivial
        exact hcompile.bind fun _ => Triple.pure fun _ hs => .inr hs
      | resetAll =>
        have hreset : Triple (Idle r b) Session.resetAll
            (fun _ s => s.registry = r ∨ s.registry.program = none) fun _ _ => True :=
          (resetAll_program r).weaken (fun _ hs => hs.1) (fun _ _ hs => hs) fun _ _ _ => trivial
        exact hreset.bind fun _ => Triple.pure fun s hs =>
          hs.elim (fun hsame => .inr (hsame ▸ rfl)) .inl
      | _ => cases hsteps

/-- Without a program there is still none, unless the operation compiles one. -/
theorem run_none {op : Operation} {s : Session} (none : s.registry.program = none)
    (uncompiled : ∀ asked, op = .compile asked → ∃ e, (op.run.run.run s).1 = .error e) :
    (op.run.run.run s).2.registry.program = Option.none := by
  cases hkeeps : op.keepsProgram with
  | true => exact (op.run_spares hkeeps Option.none).registry none
  | false =>
    cases hsteps : op.inSteps with
    | false => exact (op.run_drops hkeeps hsteps).keeps_none.registry none
    | true =>
      cases op with
      | compile asked =>
        obtain ⟨e, he⟩ := uncompiled asked rfl
        have hcompile : Triple (Idle s.registry s.backend) (Operation.compile asked).run
            (fun _ _ => True) fun _ s => s.registry.program = Option.none :=
          ((compile_uncompiled asked).weaken (fun _ hs => hs) (fun _ _ _ => trivial)
            fun _ _ hs => hs.1.1).bind fun _ => Triple.pure fun _ _ => trivial
        exact hcompile.fault_of_run ⟨rfl, rfl⟩ (Prod.ext he rfl)
      | resetAll =>
        have hreset : Keeps (fun r => r.program = Option.none) Session.resetAll :=
          Keeps.readRegistry.bind fun r => Keeps.forM fun name => (resetCard_drops name).keeps_none
        exact (hreset.bind fun _ => Keeps.pure _).registry none
      | _ => cases hsteps

end Operation

namespace Session

open Job

theorem apply_operate (op : Operation) (s : Session) :
    (Move.operate op).apply s = (op.run.run.run s).2 := by
  unfold Move.apply Move.job
  rw [run_bind]
  rcases op.run.run.run s with ⟨e | a, s'⟩ <;> rfl

/-- No move but compiling brings a program about. -/
theorem apply_none {m : Move} {s : Session} (none : s.registry.program = none)
    (uncompiled : ∀ asked, m = .operate (.compile asked) →
      ∃ e, ((Operation.compile asked).run.run.run s).1 = .error e) :
    (m.apply s).registry.program = Option.none := by
  cases m with
  | operate op =>
    rw [apply_operate]
    refine op.run_none none fun asked heq => ?_
    subst heq
    exact uncompiled asked rfl
  | add card channel i =>
    have hadd : Keeps (fun r => r.program = Option.none) (Move.add card channel i).job :=
      (Keeps.requireChannel card channel).bind fun _ => (Keeps.ofExcept _).bind fun _ =>
        Keeps.adjust fun _ h => h
    exact hadd.registry none
  | insert card channel booking => exact (adjustChannel_spares card channel _ _).registry none
  | clear card channel => exact (adjustChannel_spares card channel _ _).registry none
  | backend b => exact none

/-- Once dropped, the program is gone until compiling succeeds. -/
theorem after_none {s : Session} (none : s.registry.program = none) {later : List Move}
    (uncompiled : ∀ before asked rest, later = before ++ .operate (.compile asked) :: rest →
      ∃ e, ((Operation.compile asked).run.run.run (s.after before)).1 = .error e) :
    (s.after later).registry.program = Option.none := by
  induction later generalizing s with
  | nil => exact none
  | cons m later ih =>
    have hfirst : (m.apply s).registry.program = Option.none :=
      apply_none none fun asked heq => uncompiled [] asked later (congrArg (· :: later) heq)
    refine ih hfirst fun before asked rest heq => ?_
    exact uncompiled (m :: before) asked rest (congrArg (m :: ·) heq)

/-- What becomes of the program in an operation that is done and leaves any card or channel, any
timeline or any setting other than it was. Most operations drop it, and then none is served before
compiling succeeds, whatever else happens. But the program stays, if there is one, when a nickname
is given, when a card no longer imports the reference clock, when its write timeout is set, and when
another card, or none, is to provide the clock. -/
theorem program_after_edit {s s' : Session} {op : Operation} {a : Answer}
    (done : op.run.run.run s = (.ok a, s'))
    (edited : s'.registry.cards.map Card.unmarked ≠ s.registry.cards.map Card.unmarked) :
    s'.registry.program = (if op.keepsProgram then s.registry.program else none) ∧
    (op.keepsProgram = false → ∀ later : List Move,
      (∀ before asked rest, later = before ++ .operate (.compile asked) :: rest →
        ∃ e, ((Operation.compile asked).run.run.run (s'.after before)).1 = .error e) →
      (s'.after later).registry.current? = .error (.notCompiled .edited)) := by
  have hend := op.run_program s.registry s.backend s ⟨rfl, rfl⟩
  rw [done] at hend
  have hprogram := hend.resolve_right edited
  refine ⟨hprogram, fun hdrops later uncompiled => ?_⟩
  rw [hdrops] at hprogram
  have hnone := after_none hprogram uncompiled
  unfold Registry.current?
  rw [hnone]

/-- A card that imports the reference clock, compiled. -/
def importingSession : Session :=
  .operate {} [.addCard "Dev1" .analog 1000, .configureRefClock "Dev1" "PFI0" 1e7 false,
    .compile (some 1)]

/-- The clock is imported from another terminal, and there is no stop time before zero. -/
theorem importingAnew_outdates :
    let ended := (Operation.configureRefClock "Dev1" "PFI1" 1e7 false).run.run.run importingSession
    importingSession.registry.program.isSome = true ∧ ended.1.isOk = true ∧
      ended.2.registry.program = none ∧
      (ended.2.after [.operate (.compile (some (-1)))]).registry.current? =
        .error (.notCompiled .edited) := by
  have hcompiled : importingSession.registry.program.isSome = true := by decide +kernel
  intro ended
  have hok : ended.1.isOk = true := by decide +kernel
  have hsettings : (ended.2.registry.cards.map Card.unmarked).entries.map (·.2.sync.refClockIn) ≠
      (importingSession.registry.cards.map Card.unmarked).entries.map (·.2.sync.refClockIn) := by
    decide +kernel
  have hrefused : ((Operation.compile (some (-1))).run.run.run ended.2).1.isOk = false := by
    decide +kernel
  rcases hrun : ended with ⟨e | a, s'⟩
  · rw [hrun] at hok
    cases hok
  · have hedited : s'.registry.cards.map Card.unmarked ≠
        importingSession.registry.cards.map Card.unmarked := by
      intro heq
      rw [hrun, heq] at hsettings
      exact hsettings rfl
    obtain ⟨hprogram, hgone⟩ := program_after_edit hrun hedited
    refine ⟨hcompiled, rfl, hprogram, hgone rfl _ fun before asked rest heq => ?_⟩
    obtain ⟨rfl, rfl, rfl⟩ : before = [] ∧ asked = some (-1) ∧ rest = [] := by
      simpa [List.singleton_eq_append_iff] using heq
    rw [hrun] at hrefused
    cases hresult : ((Operation.compile (some (-1))).run.run.run s').1 with
    | ok t =>
      rw [hresult] at hrefused
      cases hrefused
    | error e => exact ⟨e, hresult⟩

/-- The card no longer imports the clock, but the program of the card that did is still served. -/
theorem importEnded_stays_compiled :
    let ended := (Operation.clearRefClockIn "Dev1").run.run.run importingSession
    importingSession.registry.Reached ∧ ended.1.isOk = true ∧
      ended.2.registry.cards.entries.map (·.2.sync.refClockIn) ≠
        importingSession.registry.cards.entries.map (·.2.sync.refClockIn) ∧
      ended.2.registry.current?.isOk = true := by
  refine ⟨Registry.Reached.empty.operate (s := {}) _, ?_, ?_, ?_⟩ <;> decide +kernel

end Session

end Sequencer
