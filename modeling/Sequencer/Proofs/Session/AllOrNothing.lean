import Sequencer.Proofs.Session.OperationsAtomic
import Sequencer.Session.Streaming

namespace Sequencer

theorem Card.shape_unmarked (c : Card) : c.unmarked.shape = c.shape :=
  congrArg (c.name, ·) (Table.map_map_of (f := Timeline.unmarked) (fun _ => rfl) c.channels)

namespace Registry

/-- A registry without what compiling brings about: the program and the marks of freshness. -/
def unmarked (r : Registry) : Registry :=
  { r with cards := r.cards.map (·.unmarked), program := none }

theorem shape_of_unmarked {r r' : Registry} (h : r'.unmarked = r.unmarked) :
    r'.shape = r.shape := by
  have hshape : ∀ r : Registry, r.unmarked.shape = r.shape :=
    fun r => Table.map_map_of Card.shape_unmarked r.cards
  rw [← hshape r', h, hshape r]

theorem unmarked_traverse (r : Registry) (stop : Float) :
    { r with cards := (r.cards.traverse (Card.compile stop)).1 }.unmarked = r.unmarked := by
  have he := Table.traverseEntries_map_entries (Card.compile stop) Card.unmarked
    (fun c => c.compile_fst_unmarked stop) r.cards.entries
  simp only [unmarked, Table.traverse, Table.map, he]

/-- Every registry that operations lead to, done or failed, on a backend that refuses whatever it
likes. -/
inductive Reached : Registry → Prop
  | empty : Reached {}
  | step (op : Operation) (s : Session) (before : Reached s.registry) :
    Reached (op.run.run.run s).2.registry

end Registry

namespace Session

open Job Triple

variable {r : Registry} {b : Backend}

/-- Nothing but marks of freshness was changed, and no program is left. -/
def Uncompiled (r : Registry) (s : Session) : Prop :=
  s.registry.program = none ∧ s.registry.unmarked = r.unmarked

theorem compileCards_uncompiled (stop : Float) :
    Triple (fun s => Uncompiled r s ∧ s.backend = b) (compileCards stop)
      (fun _ s => Uncompiled r s) (fun e s => Uncompiled r s ∧ Untold b e s) := by
  unfold compileCards
  apply Triple.readRegistry.bind
  intro now
  rcases ht : now.cards.traverse (Card.compile stop) with ⟨cards, programs⟩
  have hset : Triple (fun s => (Uncompiled r s ∧ s.backend = b) ∧ now = s.registry)
      (adjust fun r => { r with cards }) (fun _ s => Uncompiled r s ∧ s.backend = b)
      (fun e s => Uncompiled r s ∧ Untold b e s) := by
    refine Triple.adjust fun s hs => ?_
    obtain ⟨⟨⟨hprogram, hunmarked⟩, hbackend⟩, rfl⟩ := hs
    have hmarks := s.registry.unmarked_traverse stop
    rw [ht] at hmarks
    exact ⟨⟨hprogram, hmarks.trans hunmarked⟩, hbackend⟩
  exact hset.bind fun _ =>
    Triple.ofExcept (fun _ _ _ hs => hs.1) fun _ _ _ hs => ⟨hs.1, .inr hs.2⟩

/-- Compiling that fails leaves no program, and no other change than marks of freshness. -/
theorem compile_uncompiled (asked : Option Float) :
    Triple (Idle r b) (compile asked) (fun _ s => s.registry.unmarked = r.unmarked)
      (fun e s => Uncompiled r s ∧ Untold b e s) := by
  have hdrop : Triple (Idle r b) dropProgram (fun _ s => Uncompiled r s ∧ s.backend = b)
      (fun e s => Uncompiled r s ∧ Untold b e s) :=
    Triple.adjust fun _ hs => ⟨⟨rfl, hs.1 ▸ rfl⟩, hs.2⟩
  have hissue : ∀ c : Call, Triple (Uncompiled r) (issue c) (fun _ => Uncompiled r)
      (fun e s => Uncompiled r s ∧ Untold b e s) :=
    fun _ => Triple.issue (fun _ hs _ => hs) fun _ hs _ => ⟨hs, .inl rfl⟩
  have hnote : ∀ n : Notice, Triple (Uncompiled r) (note n) (fun _ => Uncompiled r)
      (fun e s => Uncompiled r s ∧ Untold b e s) :=
    fun _ => Triple.note fun _ hs => hs
  have hset : ∀ p : Program, Triple (Uncompiled r) (adjust fun r => { r with program := some p })
      (fun _ s => s.registry.unmarked = r.unmarked) (fun e s => Uncompiled r s ∧ Untold b e s) :=
    fun _ => Triple.adjust fun _ hs => hs.2
  unfold compile
  apply hdrop.bind
  intro _
  apply Triple.readAny.bind
  intro now
  refine Triple.ofExcept_bind (fun _ _ _ hs => ⟨hs.1, .inr hs.2⟩) fun stop _ => ?_
  extract_lets rest
  have hrest : Triple (fun s => Uncompiled r s ∧ s.backend = b) (rest ())
      (fun _ s => s.registry.unmarked = r.unmarked)
      (fun e s => Uncompiled r s ∧ Untold b e s) := by
    apply (compileCards_uncompiled stop).bind
    intro parts
    apply (hissue _).bind
    intro _
    apply (hnote _).bind
    intro _
    exact (hset _).bind fun _ => Triple.pure fun _ hs => hs
  split
  · exact (Triple.note fun _ hs => hs).bind fun _ => hrest
  · exact hrest

/-- All cards that are there are found when it is their turn, so only the backend can refuse. -/
theorem resetAll_at :
    Triple (At r) resetAll (fun _ => Shaped r) (fun e s => Shaped r s ∧ Untold b e s) := by
  unfold resetAll
  apply readRegistry_bind fun _ hs => hs
  apply of_at
  apply Triple.forM
  intro name hname s hs
  -- The resets before this one kept the names, so that the card is still there.
  obtain ⟨e, he, rfl⟩ := List.mem_map.mp hname
  obtain ⟨c, hget⟩ := Table.exists_get? he
  have hc : r.card? e.1 = .ok c := by simp [Registry.card?, hget]
  obtain ⟨c', hc', -⟩ := Registry.card?_of_shape hs hc
  have hreset : Triple (At s.registry) (resetCard e.1) (fun _ => Shaped r)
      (fun e s => Shaped r s ∧ Untold b e s) :=
    (resetCard_at hc').weaken (fun _ h => h) (fun _ _ h => h.trans hs)
      fun _ _ h => ⟨(congrArg Registry.shape h.1).trans hs, .inl h.2⟩
  exact hreset s rfl

end Session

/-- What holds of any operation: the names stay in order, and when it fails with an error that is
not from outside, the backend was told nothing. -/
theorem Operation.run_named {r : Registry} {b : Backend} (hr : r.Named) (op : Operation) :
    Job.Triple (Job.Idle r b) op.run (fun _ s => s.registry.Named)
      (fun e s => s.registry.Named ∧ Job.Untold b e s) := by
  cases hsteps : op.inSteps with
  | false =>
    exact (op.run_atomic hsteps r b hr).weaken (fun _ hs => hs) (fun _ _ hs => hs)
      fun _ _ hs => ⟨hs.1 ▸ hr, hs.2⟩
  | true =>
    cases op with
    | compile asked =>
      have hunmarked : ∀ s : Session, s.registry.unmarked = r.unmarked → s.registry.Named :=
        fun _ hs => hr.of_shape (Registry.shape_of_unmarked hs)
      have hcompile : Job.Triple (Job.Idle r b) (Session.compile asked)
          (fun _ s => s.registry.Named) (fun e s => s.registry.Named ∧ Job.Untold b e s) :=
        (Session.compile_uncompiled asked).weaken (fun _ hs => hs) (fun _ s hs => hunmarked s hs)
          fun _ s hs => ⟨hunmarked s hs.1.2, hs.2⟩
      exact hcompile.bind fun _ => Job.Triple.pure fun _ hs => hs
    | resetAll =>
      have hreset : Job.Triple (Job.Idle r b) Session.resetAll
          (fun _ s => s.registry.Named) (fun e s => s.registry.Named ∧ Job.Untold b e s) :=
        Session.resetAll_at.weaken (fun _ hs => hs.1) (fun _ _ hs => hr.of_shape hs)
          fun _ _ hs => ⟨hr.of_shape hs.1, hs.2⟩
      exact hreset.bind fun _ => Job.Triple.pure fun _ hs => hs
    | _ => cases hsteps

theorem Registry.Reached.named {r : Registry} (h : r.Reached) : r.Named := by
  induction h with
  | empty => exact Named.empty {} none
  | step op s before ih =>
    have hend := op.run_named ih s ⟨rfl, rfl⟩
    rcases hrun : op.run.run.run s with ⟨result, s'⟩
    rw [hrun] at hend
    cases result with
    | ok a => exact hend
    | error e => exact hend.1

namespace Session

open Job Triple

variable {r : Registry} {b : Backend} {fault : Error → Session → Prop}

/-- A run that is played to rest tells nothing but faults from outside. -/
theorem lend_at {run : Run} (h : run.FaultsOutside) :
    Triple (At r) (lend run) (fun p s => (p.1.FaultsOutside ∧ toldOutside p.2) ∧ At r s)
      fault := by
  intro s hs
  have hstaged : ({ run with
      stage := { run.stage with backend := s.backend, log := s.log } } : Run).FaultsOutside :=
    ⟨h.crew, h.control, h.ending, h.results⟩
  exact ⟨⟨hstaged.settle, hstaged.settle.last⟩, hs⟩

theorem request_at {run : Run} (h : run.FaultsOutside) (q : Request) :
    Triple (At r) (request q run) (fun p s => (p.1.FaultsOutside ∧ toldOutside p.2) ∧ At r s)
      fault :=
  lend_at ⟨h.crew, h.control, h.ending, h.results⟩

theorem configureRun_at (bufferMs : Float) (incidents : List Incident) (cancelled : Bool) :
    Triple (Idle r b) (configureRun bufferMs incidents cancelled)
      (fun run s => run.FaultsOutside ∧ At r s) (Refused r b) := by
  unfold configureRun
  apply readRegistry_bind fun _ hs => hs.1
  refine Triple.ofExcept_bind (fun e _ _ hs => hs.refused e) fun cards _ => ?_
  apply of_idle
  extract_lets stage rest
  have hrest : Triple (At r) (rest ()) (fun run s => run.FaultsOutside ∧ At r s)
      (Refused r b) := by
    refine Triple.bind (lend_at ⟨by simp, keptOutside_none, keptOutside_none, by simp⟩) ?_
    rintro ⟨run, told⟩
    refine Triple.ofExcept_bind (fun e _ he hs => ⟨hs.2, .inl (hs.1.2 e he)⟩) fun _ _ => ?_
    exact Triple.pure fun _ hs => ⟨hs.1.1, hs.2⟩
  split
  · exact note_at.bind fun _ => hrest
  · exact hrest

theorem repeatStream_at {run : Run} (h : run.FaultsOutside) (planned done left : Nat) :
    Triple (At r) (repeatStream planned done left run)
      (fun p s => (p.1.FaultsOutside ∧ toldOutside p.2.2) ∧ At r s) fault := by
  induction left generalizing done run with
  | zero => exact Triple.pure fun _ hs => ⟨⟨h, toldOutside_ok⟩, hs⟩
  | succ left ih =>
    unfold repeatStream
    split
    case isTrue => exact note_at.bind fun _ => Triple.pure fun _ hs => ⟨⟨h, toldOutside_ok⟩, hs⟩
    case isFalse =>
      apply (request_at h _).bind
      rintro ⟨run', told⟩ s ⟨⟨hrun, htold⟩, hs⟩
      cases told with
      | ok u => exact ih hrun (done + 1) s hs
      | error e => exact ⟨⟨hrun, htold⟩, hs⟩

theorem stream_at (settings : RunSettings) (incidents : List Incident) (cancelled : Bool) :
    Triple (Idle r b) (stream settings incidents cancelled) (fun _ => At r) (Refused r b) := by
  unfold stream
  apply (configureRun_at settings.bufferMs incidents cancelled).bind
  rintro run s ⟨hrun, hs⟩
  refine Triple.bind (repeatStream_at hrun settings.repetitions 0 settings.repetitions) ?_ s hs
  rintro ⟨run', summary, streamed⟩ s' ⟨⟨hrun', hstreamed⟩, hs'⟩
  refine Triple.bind (request_at hrun' .close) ?_ s' hs'
  rintro ⟨_, closed⟩ s'' ⟨⟨-, hclosed⟩, hs''⟩
  have hfinish : Triple (At r) (do
      ofExcept streamed
      ofExcept closed
      note (.finished summary)
      return summary) (fun _ => At r) (Refused r b) := by
    refine Triple.ofExcept_bind (fun e _ he hs => ⟨hs, .inl (hstreamed e he)⟩) fun _ _ => ?_
    refine Triple.ofExcept_bind (fun e _ he hs => ⟨hs, .inl (hclosed e he)⟩) fun _ _ => ?_
    exact note_at.bind fun _ => Triple.pure fun _ hs => hs
  exact hfinish s'' hs''

/-- Without a program none is served. -/
theorem current?_ne_ok {r : Registry} (h : r.program = none) (p : Program) :
    r.current? ≠ .ok p := by
  simp [Registry.current?, h]

/-- A job that is refused or done, but changes nothing in the registry. -/
theorem leaves_registry {α : Type} {j : Job α} {s : Session}
    (h : Triple (Idle r b) j (fun _ => At r) (Refused r b)) (hs : Idle r b s) :
    (j.run.run s).2.registry = r ∧
      ∀ e s', j.run.run s = (.error e, s') → Untold b e s' := by
  refine ⟨?_, fun e s' hfails => (h.fault_of_run hs hfails).2⟩
  have hend := h s hs
  rcases hrun : j.run.run s with ⟨result, s'⟩
  rw [hrun] at hend
  cases result with
  | ok a => exact hend
  | error e => exact hend.1

/-- All or nothing, for every operation on a registry that operations led to and for runs. An error
that is not from outside comes before any call to the backend. An operation that fails leaves the
registry as it was, unless it goes from card to card. Compiling that fails leaves no program to be
served, and otherwise changes marks of freshness at most. Neither setting up a run nor a whole run
ever changes the registry. -/
theorem all_or_nothing {s : Session} (reached : s.registry.Reached) :
    (∀ (op : Operation) e s', op.run.run.run s = (.error e, s') →
      Untold s.backend e s' ∧ (op.inSteps = false → s'.registry = s.registry)) ∧
    (∀ asked e s', (compile asked).run.run s = (.error e, s') →
      (∀ p, s'.registry.current? ≠ .ok p) ∧ s'.registry.unmarked = s.registry.unmarked) ∧
    (∀ bufferMs incidents cancelled,
      ((configureRun bufferMs incidents cancelled).run.run s).2.registry = s.registry ∧
      ∀ e s', (configureRun bufferMs incidents cancelled).run.run s = (.error e, s') →
        Untold s.backend e s') ∧
    ∀ settings incidents cancelled,
      ((stream settings incidents cancelled).run.run s).2.registry = s.registry ∧
      ∀ e s', (stream settings incidents cancelled).run.run s = (.error e, s') →
        Untold s.backend e s' := by
  have hidle : Idle s.registry s.backend s := ⟨rfl, rfl⟩
  refine ⟨fun op e s' hfails => ?operation, fun asked e s' hfails => ?compile,
    fun bufferMs incidents cancelled => ?configure, fun settings incidents cancelled => ?stream⟩
  case operation =>
    refine ⟨((op.run_named reached.named).fault_of_run hidle hfails).2, fun whole => ?_⟩
    exact ((op.run_atomic whole _ _ reached.named).fault_of_run hidle hfails).1
  case compile =>
    obtain ⟨⟨hprogram, hunmarked⟩, -⟩ := (compile_uncompiled asked).fault_of_run hidle hfails
    exact ⟨current?_ne_ok hprogram, hunmarked⟩
  case configure =>
    exact leaves_registry ((configureRun_at bufferMs incidents cancelled).weaken (fun _ hs => hs)
      (fun _ _ hs => hs.2) fun _ _ hs => hs) hidle
  case stream => exact leaves_registry (stream_at settings incidents cancelled) hidle

/-- One analog card, and a backend that refuses to take over its first channel. -/
def refusingSession : Session :=
  let registered := ((Operation.addCard "Dev1" .analog 1000).run.run.run {}).2
  { registered with backend := { failing := [.addAnalogChannel "Dev1" 0 0] } }

theorem refusingSession_unchanged :
    let failed := (Operation.addAnalogChannel "Dev1" 0 0).run.run.run refusingSession
    refusingSession.registry.cards.size = 1 ∧
      failed.1 = .error (.backend (.addAnalogChannel "Dev1" 0 0)) ∧
      failed.2.registry = refusingSession.registry := by
  have hreached : refusingSession.registry.Reached :=
    .step (.addCard "Dev1" .analog 1000) {} .empty
  have hsize : refusingSession.registry.cards.size = 1 := by decide +kernel
  have hfails : ((Operation.addAnalogChannel "Dev1" 0 0).run.run.run refusingSession).1 =
    .error (.backend (.addAnalogChannel "Dev1" 0 0)) := by rfl
  refine ⟨hsize, hfails, ?_⟩
  exact ((all_or_nothing hreached).1 _ _ _ (Prod.ext hfails rfl)).2 rfl

end Session

end Sequencer
