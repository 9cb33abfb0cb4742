import Sequencer.Proofs.Session.ResetSpec

namespace Sequencer

namespace Call

/-- The backend drops what it was told for the card. -/
def takesBack (card : String) : Call → Bool
  | clearEdits => true
  | resetDevice name => name == card
  | _ => false

/-- The instructions among accepted calls that no later one takes back. -/
def standing : List Call → List Call
  | [] => []
  | emit card channel i :: cs =>
    if cs.any (takesBack card) then standing cs else emit card channel i :: standing cs
  | _ :: cs => standing cs

/-- Instructions alone take nothing back. -/
theorem standing_of_emits {cs : List Call}
    (h : ∀ c ∈ cs, ∃ card channel i, c = .emit card channel i) : standing cs = cs := by
  induction cs with
  | nil => rfl
  | cons c cs ih =>
    obtain ⟨⟨card, channel, i, rfl⟩, hrest⟩ := List.forall_mem_cons.mp h
    have hnone : cs.any (takesBack card) = false := by
      refine List.any_eq_false.mpr fun d hd => ?_
      obtain ⟨card', channel', j, rfl⟩ := hrest d hd
      simp [takesBack]
    rw [standing, hnone, ih hrest]
    rfl

end Call

/-- Where there is a channel, a reset leaves its mark. -/
theorem Registry.not_resetAt_self {r : Registry} {time : Float}
    {x : String × String × Timeline} (hx : x ∈ r.listing) : ¬ r.ResetAt time r := by
  rintro ⟨es, hr, hes⟩
  obtain ⟨c, hc, ht⟩ := mem_listing.mp hx
  obtain rfl : r.cards.entries = es := congrArg (fun r => r.cards.entries) hr
  obtain ⟨-, tick, fs, -, hcard, hfs⟩ := List.forall₂_same.mp hes _ hc
  obtain rfl : c.channels.entries = fs := congrArg (fun c => c.channels.entries) hcard
  obtain ⟨-, hreset⟩ := List.forall₂_same.mp hfs _ ht
  have hlength := congrArg (fun t => t.bookings.length) hreset.gained
  simp at hlength

namespace Session

open Job Triple

/-- Adding resets leaves every channel with one, on both sides, or none. -/
def AllOrNone (s : Session) (asked : Option Float) : Prop :=
  let t := asked.getD s.registry.lastTime
  let s' := ((addReset asked).run.run s).2
  let accepted := s.backend.acceptedSince s'.backend
  (∀ c ∈ s.registry.resetCalls t, c ∈ accepted) ∧ s.registry.ResetAt t s'.registry ∨
    Call.standing accepted = [] ∧ s'.registry.cards = s.registry.cards

/-- The backend accepts the first reset and refuses a later one. -/
def splitsReset (s : Session) (asked : Option Float) : Bool :=
  s.registry.allowsReset asked &&
    match s.registry.resetCalls (asked.getD s.registry.lastTime) with
    | [] => false
    | c :: cs => s.backend.accepts c && cs.any fun d => !s.backend.accepts d

variable {s s' : Session} {asked : Option Float} {t : Float} {e : Error}

theorem mem_resetCalls {r : Registry} {c : Call} (hc : c ∈ r.resetCalls t) :
    ∃ x ∈ r.listing, c = .emit x.1 x.2.1 (.holding t .reset) := by
  obtain ⟨x, hx, rfl⟩ := List.mem_map.mp hc
  exact ⟨x, hx, rfl⟩

/-- Done, every channel has its reset on both sides. -/
theorem allOrNone_of_done (hrun : (addReset asked).run.run s = (.ok t, s'))
    (done : ResetDone s.registry s.backend asked t s') :
    s.AllOrNone asked ∧ s.splitsReset asked = false := by
  obtain ⟨rfl, -, haccepts, _, hreset, rfl, htold⟩ := done
  constructor
  · refine .inl ⟨fun c hc => ?_, ?_⟩
    · rw [hrun, htold.acceptedSince]
      exact hc
    · rw [hrun]
      exact hreset
  · unfold splitsReset
    split
    · exact Bool.and_false _
    case h_2 c cs hcalls =>
      have hnone : (cs.any fun d => !s.backend.accepts d) = false :=
        List.any_eq_false.mpr fun d hd => by
          simp [haccepts d (hcalls ▸ List.mem_cons_of_mem _ hd)]
      rw [hnone, Bool.and_false, Bool.and_false]

/-- Where the first reset was refused, or none was told, no channel has one. Otherwise the backend
has what it accepted before the one it refused. -/
theorem allOrNone_iff_of_failed (hrun : (addReset asked).run.run s = (.error e, s'))
    (failed : ResetFailed s.registry s.backend asked e s') :
    s.AllOrNone asked ↔ s.splitsReset asked = false := by
  have hnone : s'.registry = s.registry → s.backend.acceptedSince s'.backend = [] →
      s.AllOrNone asked := by
    intro hsame hnothing
    refine .inr ⟨?_, ?_⟩
    · rw [hrun, hnothing]
      rfl
    · rw [hrun, hsame]
  rcases failed with ⟨hallows, hs⟩ | ⟨hallows, sent, c, rest, hcalls, hsent, hrefused, -, hs⟩
  · have hsplits : s.splitsReset asked = false := by
      rw [splitsReset, hallows, Bool.false_and]
    exact iff_of_true (hnone hs.1 hs.2.acceptedSince) hsplits
  · cases sent with
    | nil =>
      have hsplits : s.splitsReset asked = false := by
        simp [splitsReset, hcalls, hrefused]
      exact iff_of_true (hnone hs.1 hs.2.acceptedSince) hsplits
    | cons d sent =>
      have hsplits : s.splitsReset asked = true := by
        simp [splitsReset, hallows, hcalls, hrefused, hsent d List.mem_cons_self]
      have hemits : ∀ c' ∈ d :: sent, ∃ x ∈ s.registry.listing,
          c' = .emit x.1 x.2.1 (.holding (asked.getD s.registry.lastTime) .reset) := fun c' hc' =>
        mem_resetCalls (hcalls ▸ List.mem_append_left _ hc')
      refine iff_of_false ?_ (by simp [hsplits])
      rintro (⟨-, hreset⟩ | ⟨hstanding, -⟩)
      · rw [hrun, hs.1] at hreset
        obtain ⟨x, hx, -⟩ := hemits d List.mem_cons_self
        exact Registry.not_resetAt_self hx hreset
      · have hall := Call.standing_of_emits fun c' hc' =>
          (hemits c' hc').elim fun x hx => ⟨_, _, _, hx.2⟩
        rw [hrun, hs.2.acceptedSince, hall] at hstanding
        cases hstanding

/-- Resets reach every channel or none, on both sides, unless the backend accepts the first one and
refuses one of the others. Then it keeps those that it accepted. -/
theorem addReset_all_or_none_iff (reached : s.registry.Reached) (asked : Option Float) :
    s.AllOrNone asked ↔ s.splitsReset asked = false := by
  rcases addReset_cases reached asked with ⟨t, s', hrun, hdone⟩ | ⟨e, s', hrun, hfailed⟩
  · obtain ⟨hall, hsplits⟩ := allOrNone_of_done hrun hdone
    exact iff_of_true hall hsplits
  · exact allOrNone_iff_of_failed hrun hfailed

/-- Two channels, and a backend that refuses the reset of this one. -/
def refusing (channel : String) : Session :=
  Session.operate { backend := { failing := [.emit "Dev1" channel (.holding 0 .reset)] } }
    [.addCard "Dev1" .analog 1000, .addAnalogChannel "Dev1" 0 0, .addAnalogChannel "Dev1" 1 0]

theorem refusing_reached (channel : String) : (refusing channel).registry.Reached :=
  Registry.Reached.empty.operate _

/-- Refused at once, no channel gets a reset. -/
theorem refusing_first :
    (refusing "ao0").registry.Reached ∧ (refusing "ao0").AllOrNone none :=
  ⟨refusing_reached "ao0",
    (addReset_all_or_none_iff (refusing_reached "ao0") none).mpr (by decide +kernel)⟩

/-- Refused for the second channel, the reset of the first one stays with the backend. -/
theorem refusing_second :
    (refusing "ao1").registry.Reached ∧ ¬ (refusing "ao1").AllOrNone none := by
  refine ⟨refusing_reached "ao1", ?_⟩
  have hfails : ((addReset none).run.run (refusing "ao1")).1.isOk = false := by decide +kernel
  have hsplits : (refusing "ao1").splitsReset none = true := by decide +kernel
  rcases addReset_cases (refusing_reached "ao1") none with
    ⟨t, s', hrun, -⟩ | ⟨e, s', hrun, hfailed⟩
  · rw [hrun] at hfails
    cases hfails
  · rw [allOrNone_iff_of_failed hrun hfailed, hsplits]
    simp

end Session

end Sequencer
