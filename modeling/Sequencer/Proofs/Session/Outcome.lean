import Sequencer.Proofs.Session.Changes

namespace Sequencer

/-- The program that compiling gives, or what it is refused for. -/
def Registry.outcome (r : Registry) (b : Backend) (asked : Option Float) :
    Except Error Program := do
  let stop ← Session.stopTime r asked
  let cards ← (r.cards.traverse (Card.compile stop)).2
  if b.accepts (.compile (some stop)) then .ok ⟨cards, stop⟩
  else .error (.backend (.compile (some stop)))

theorem Registry.outcome_eq {r : Registry} {b : Backend} {asked : Option Float} {stop : Float}
    (h : Session.stopTime r asked = .ok stop) : r.outcome b asked =
      ((r.cards.traverse (Card.compile stop)).2.bind fun cards =>
        if b.accepts (.compile (some stop)) then .ok ⟨cards, stop⟩
        else .error (.backend (.compile (some stop)))) := by
  rw [outcome, h]
  rfl

theorem Registry.outcome_error {r : Registry} {b : Backend} {asked : Option Float} {e : Error}
    (h : Session.stopTime r asked = .error e) : r.outcome b asked = .error e := by
  rw [outcome, h]
  rfl

namespace Session

open Job Triple

variable {r : Registry} {b : Backend} {cs : List Call}

/-- The cards are compiled, and there is no program yet. -/
def halfway (r : Registry) (stop : Float) : Registry :=
  { r with cards := (r.cards.traverse (Card.compile stop)).1, program := none }

theorem compileCards_since {α : Type} {post : α → Session → Prop}
    {fault : Error → Session → Prop} {stop : Float} {k : Table CardProgram → Job α}
    (herr : ∀ e s, (r.cards.traverse (Card.compile stop)).2 = .error e →
      Since (halfway r stop) b cs s → fault e s)
    (hk : ∀ parts, (r.cards.traverse (Card.compile stop)).2 = .ok parts →
      Triple (Since (halfway r stop) b cs) (k parts) post fault) :
    Triple (Since r.withoutProgram b cs) (compileCards stop >>= k) post fault := by
  have hcompile : Triple (Since r.withoutProgram b cs) (compileCards stop)
      (fun parts s => (r.cards.traverse (Card.compile stop)).2 = .ok parts ∧
        Since (halfway r stop) b cs s) fault := by
    unfold compileCards
    apply readRegistry_bind fun _ hs => hs.1
    apply adjust_since.bind
    intro _
    exact Triple.ofExcept (fun _ _ hparts hs => ⟨hparts, hs⟩) herr
  exact hcompile.bind fun parts s hparts => hk parts hparts.1 s hparts.2

/-- The program is there, and the backend took it over. Nothing else was changed but marks of
freshness. -/
def Compiled (r : Registry) (b : Backend) (asked : Option Float) (t : Float) (s : Session) : Prop :=
  ∃ p, r.outcome b asked = .ok p ∧ t = p.stopTime ∧ s.registry.program = some p ∧
    s.registry.unmarked = r.unmarked ∧ b.Told [.compile (some t)] s.backend

/-- There is no program, and the backend took nothing over. -/
def Denied (r : Registry) (b : Backend) (asked : Option Float) (e : Error) (s : Session) : Prop :=
  r.outcome b asked = .error e ∧ Uncompiled r s ∧ b.Told [] s.backend

/-- Compiling comes to its outcome, with a program exactly if it is done. -/
theorem compile_spec (asked : Option Float) :
    Triple (Since r b []) (compile asked) (Compiled r b asked) (Denied r b asked) := by
  unfold compile
  apply adjust_since.bind
  intro _
  apply readRegistry_bind fun _ hs => hs.1
  refine Triple.ofExcept_bind (fun e s he hs => ?_) fun stop hstop => ?_
  case refine_1 =>
    refine ⟨Registry.outcome_error he, ?_, hs.2⟩
    rw [Uncompiled, hs.1]
    exact ⟨rfl, rfl⟩
  have houtcome := Registry.outcome_eq (r := r) (b := b) hstop
  have hdenied : ∀ e s, r.outcome b asked = .error e → Since (halfway r stop) b [] s →
      Denied r b asked e s := by
    intro e s he hs
    refine ⟨he, ?_, hs.2⟩
    rw [Uncompiled, hs.1]
    exact ⟨rfl, r.unmarked_traverse stop⟩
  extract_lets rest
  have hrest : Triple (Since r.withoutProgram b []) (rest ()) (Compiled r b asked)
      (Denied r b asked) := by
    refine compileCards_since (fun e s he hs => hdenied e s ?_ hs) fun parts hparts => ?_
    case refine_1 =>
      rw [houtcome, he]
      rfl
    rw [hparts] at houtcome
    have hissue : Triple (Since (halfway r stop) b []) (issue (.compile (some stop)))
        (fun _ s => r.outcome b asked = .ok ⟨parts, stop⟩ ∧
          Since (halfway r stop) b [.compile (some stop)] s) (Denied r b asked) := by
      refine issue_spec.weaken (fun _ hs => hs) (fun _ s hs => ⟨?_, hs.2⟩) ?_
      · exact houtcome.trans (if_pos hs.1)
      · rintro _ s ⟨rfl, hrefused, hs⟩
        exact hdenied _ s (houtcome.trans (if_neg (by simp [hrefused]))) hs
    apply hissue.bind
    rintro _ s ⟨hp, hr, htold⟩
    have hmarks : s.registry.unmarked = r.unmarked := hr ▸ r.unmarked_traverse stop
    exact ⟨⟨parts, stop⟩, hp, rfl, rfl, hmarks, htold⟩
  split
  · exact note_since.bind fun _ => hrest
  · exact hrest

end Session

end Sequencer
