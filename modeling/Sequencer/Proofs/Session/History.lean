import Sequencer.Proofs.Session.FreshnessKept

namespace Sequencer

/-- What can happen to a session. Timelines can be edited without an operation, and the backend can
come to refuse other calls than before. -/
inductive Move where
  | operate (op : Operation)
  | add (card channel : String) (i : Instruction)
  | insert (card channel : String) (b : Booking)
  | clear (card channel : String)
  | backend (b : Backend)

namespace Move

open Job

def job : Move → Job Unit
  | operate op => do let _ ← op.run
  | add card channel i => do
    let t ← ofExcept ((← requireChannel card channel).add i)
    adjust (·.modifyChannel card channel fun _ => t)
  | insert card channel b => do
    let _ ← requireChannel card channel
    adjust (·.modifyChannel card channel (·.insert b))
  | clear card channel => do
    let _ ← requireChannel card channel
    adjust (·.modifyChannel card channel (·.clear))
  | backend b => modify fun s => { s with backend := b }

/-- The session afterwards, whether the move succeeded or failed. -/
def apply (m : Move) (s : Session) : Session := (m.job.run.run s).2

end Move

/-- The session after a history. -/
def Session.after (s : Session) (ms : List Move) : Session := ms.foldl (fun s m => m.apply s) s

/-- The program of the cards as they are: a part for each card, in the order of registration, with
the channels of the card and compiled from its instructions. The cards that carry instructions are
the active ones. -/
structure Program.Reflects (p : Program) (r : Registry) : Prop where
  cards : List.Forall₂
    (fun (e : String × Card) (q : String × CardProgram) =>
      q.1 = e.1 ∧ q.2.signals.names = e.2.channels.names ∧
        (e.2.compile p.stopTime).2 = .ok q.2)
    r.cards.entries p.cards.entries
  active : p.activeCards = (r.cards.entries.filter (·.2.edited)).map (·.1)

/-- A program made of what the cards compile to has their channels, and is active where they carry
instructions. -/
theorem Program.reflects_of_compiled {p : Program} {r : Registry}
    (h : List.Forall₂ (fun e q => q.1 = e.1 ∧ (e.2.compile p.stopTime).2 = .ok q.2)
      r.cards.entries p.cards.entries) : p.Reflects r := by
  refine ⟨h.imp fun _ _ he => ⟨he.1, Card.compile_names he.2, he.2⟩, ?_⟩
  unfold activeCards
  generalize r.cards.entries = es, p.cards.entries = qs at h
  induction h with
  | nil => rfl
  | cons he _ ih =>
    rw [List.filter_cons, List.filter_cons, Card.compile_active he.2]
    split
    · rw [List.map_cons, List.map_cons, he.1, ih]
    · exact ih

theorem Move.job_keeps (m : Move) : Job.Keeps Registry.Backs m.job := by
  cases m with
  | operate op => exact op.run_keeps.bind fun _ => .pure ()
  | add card channel i =>
    apply (Job.Keeps.requireChannel card channel).bind
    intro t
    apply Job.Keeps.ofExcept_bind
    intro t' ht
    exact .adjust fun r h => h.modifyChannel card channel fun u => u.follows_add ht
  | insert card channel b =>
    apply (Job.Keeps.requireChannel card channel).bind
    intro _
    exact .adjust fun r h => h.modifyChannel card channel fun t => t.follows_insert b
  | clear card channel =>
    apply (Job.Keeps.requireChannel card channel).bind
    intro _
    exact .adjust fun r h => h.modifyChannel card channel fun t => t.follows_clear
  | backend b => exact fun _ h => h

/-- The cards back the program throughout a history. -/
theorem Session.after_backs {s : Session} (h : s.registry.Backs) (ms : List Move) :
    (s.after ms).registry.Backs := by
  induction ms generalizing s with
  | nil => exact h
  | cons m ms ih =>
    apply ih
    exact m.job_keeps.registry h

/-- No stale program is ever served: whatever happened before, a program that a session without
cards came to serve is the one of the cards as they are now. -/
theorem Session.current_reflects (b : Backend) (log : List Notice) (ms : List Move) (p : Program)
    (h : (Session.after ⟨{}, b, log⟩ ms).registry.current? = .ok p) :
    p.Reflects (Session.after ⟨{}, b, log⟩ ms).registry := by
  have hbacks : (Session.after ⟨{}, b, log⟩ ms).registry.Backs :=
    after_backs (Registry.backs_of_none _ rfl) ms
  exact Program.reflects_of_compiled (hbacks.current h)

/-- A program is compiled, outdated by an edit past the operations, refused by the backend when it
is compiled anew, and compiled at last. -/
def sampleHistory : List Move :=
  [.operate (.addCard "Dev1" .analog 1000), .operate (.addAnalogChannel "Dev1" 0 0),
    .operate (.addCard "Dev2" .digital 1000),
    .operate (.addInstruction "Dev1" "ao0" (.lasting 0 0.5 false (.constant 1))),
    .operate (.compile none), .add "Dev1" "ao0" (.holding 1 (.constant 2)),
    .backend { failing := [.compile (some 2)] }, .operate (.compile (some 2)), .backend {},
    .operate (.compile (some 2))]

theorem sampleHistory_reflects :
    ∃ p, (Session.after {} sampleHistory).registry.current? = .ok p ∧
      p.Reflects (Session.after {} sampleHistory).registry := by
  have hok : (Session.after {} sampleHistory).registry.current?.isOk = true := by
    decide +kernel
  cases h : (Session.after {} sampleHistory).registry.current? with
  | error e =>
    rw [h] at hok
    cases hok
  | ok p => exact ⟨p, rfl, Session.current_reflects {} [] sampleHistory p h⟩

end Sequencer
