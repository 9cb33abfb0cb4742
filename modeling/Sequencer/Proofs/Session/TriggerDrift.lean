import Sequencer.Proofs.Session.ResetSpec
import Sequencer.Proofs.Session.StartTriggers

namespace Sequencer

/-- The answer from the one, the failure from the other. -/
theorem Job.Triple.both {α : Type} {j : Job α} {pre : Session → Prop}
    {post post' : α → Session → Prop} {fault fault' : Error → Session → Prop}
    (h : Triple pre j post fault) (h' : Triple pre j post' fault') :
    Triple pre j post fault' := by
  intro s hs
  have hpost := h s hs
  have hfault := h' s hs
  rcases hrun : j.run.run s with ⟨result, s'⟩
  rw [hrun] at hpost hfault
  cases result with
  | ok a => exact hpost
  | error e => exact hfault

namespace Session

open Job Triple Registry

variable {r : Registry} {b : Backend}

/-- The input that is asked for. -/
def askedIn (terminal : String) (exported : Bool) : Option String :=
  if exported then none else some terminal

/-- The output that is asked for. -/
def askedOut (terminal : String) (exported : Bool) : Option String :=
  if exported then some terminal else none

/-- Both calls were accepted, and the card has the start triggers that were asked for. -/
structure TriggerDone (b : Backend) (card terminal : String) (exported : Bool) (s : Session) :
    Prop where
  first : b.accepts (.setStartTrigIn card (askedIn terminal exported)) = true
  second : b.accepts (.setStartTrigOut card (askedOut terminal exported)) = true
  registry : s.registry.startTrigs? card =
    some (askedIn terminal exported, askedOut terminal exported)
  told : b.Told [.setStartTrigIn card (askedIn terminal exported),
    .setStartTrigOut card (askedOut terminal exported)] s.backend

/-- Nothing has changed: the first call was refused, or the second one, after the backend took over
the input. -/
inductive TriggerFailed (r : Registry) (b : Backend) (card terminal : String) (exported : Bool)
    (s : Session) : Prop
  | first (refused : b.accepts (.setStartTrigIn card (askedIn terminal exported)) = false)
    (since : Since r b [] s)
  | second (accepted : b.accepts (.setStartTrigIn card (askedIn terminal exported)) = true)
    (refused : b.accepts (.setStartTrigOut card (askedOut terminal exported)) = false)
    (since : Since r b [.setStartTrigIn card (askedIn terminal exported)] s)

theorem configureStartTrig_spec {card : String} {c : Card} (known : r.card? card = .ok c)
    (terminal : String) (exported : Bool) :
    Triple (Since r b []) (configureStartTrig card terminal exported)
      (fun _ s => TriggerDone b card terminal exported s)
      (fun _ s => TriggerFailed r b card terminal exported s) := by
  unfold configureStartTrig
  apply requireCard_known known
  extract_lets trigIn trigOut
  cases hin : b.accepts (.setStartTrigIn card trigIn) with
  | false => exact (issue_refused hin fun _ hs => .first hin hs).bind fun _ _ hs => hs.elim
  | true =>
    apply (issue_accepted hin).bind
    intro _
    cases hout : b.accepts (.setStartTrigOut card trigOut) with
    | false => exact (issue_refused hout fun _ hs => .second hin hout hs).bind fun _ _ hs => hs.elim
    | true =>
      apply (issue_accepted hout).bind
      intro _
      refine (editSync_since known).weaken (fun _ hs => hs) (fun _ s hs => ?_) fun _ _ hs => hs
      refine ⟨hin, hout, ?_, hs.2⟩
      rw [hs.1]
      simp only [startTrigs?, withoutProgram, modifySync, modifyCard, Table.get?_modify,
        card?_eq_ok_iff.mp known]
      rfl

/-- The registry changed together with the device of the card, or neither of the two did. -/
def InStep (r : Registry) (b : Backend) (card : String) (s : Session) : Prop :=
  Changed r b s ∨ ∃ ds, Call.Spares card ds ∧ Since r b ds s

theorem addReset_inStep (sound : r.Sound) (asked : Option Float) (card : String) :
    Triple (Since r b []) (addReset asked) (fun _ => Changed r b)
      (fun _ => InStep r b card) := by
  refine (addReset_ahead sound asked).both ((addReset_spec sound asked).weaken (fun _ hs => hs)
    (fun _ _ _ => trivial) fun e s hs => .inr ?_)
  rcases hs with ⟨-, hs⟩ | ⟨-, sent, c, rest, hcalls, -, -, -, hs⟩
  · exact ⟨[], fun _ => rfl, hs⟩
  · refine ⟨sent, Call.spares_of_emits (fun d hd => ?_) card, hs⟩
    obtain ⟨x, -, rfl⟩ := List.mem_map.mp (hcalls ▸ List.mem_append_left _ hd)
    exact ⟨_, _, _, rfl⟩

theorem configureStartTrig_inStep {card name : String}
    (other : ∀ c, r.card? name = .ok c → card ≠ name) (terminal : String) (exported : Bool) :
    Triple (Since r b []) (configureStartTrig name terminal exported)
      (fun _ => Changed r b) (fun _ => InStep r b card) := by
  cases hc : r.card? name with
  | error e =>
    refine requireCard_since (fun _ _ hs => .inl hs.unchanged) fun c known => ?_
    cases hc.symm.trans known
  | ok c =>
    refine (configureStartTrig_ahead name terminal exported).both
      ((configureStartTrig_spec hc terminal exported).weaken (fun _ hs => hs)
        (fun _ _ _ => trivial) fun e s hs => .inr ?_)
    cases hs with
    | first _ since => exact ⟨[], fun _ => rfl, since⟩
    | second _ _ since =>
      refine ⟨_, fun _ => ?_, since⟩
      exact if_neg (other c hc)

/-- Unless the start trigger of this very card is configured, an operation changes a card together
with its device. -/
theorem run_inStep (sound : r.Sound) (op : Operation) (card : String)
    (other : ∀ c, r.card? card = .ok c →
      ∀ terminal exported, op ≠ .configureStartTrig card terminal exported) :
    Triple (Since r b []) op.run (fun _ => Changed r b) (fun _ => InStep r b card) := by
  cases hcalls : op.callsAhead with
  | false =>
    exact (op.run_effects hcalls r b).weaken (fun _ hs => hs) (fun _ _ hs => hs)
      fun _ _ hs => .inl hs
  | true =>
    cases op with
    | addReset asked =>
      exact (addReset_inStep sound asked card).bind fun _ => Triple.pure fun _ hs => hs
    | configureStartTrig name terminal exported =>
      have hname : ∀ c, r.card? name = .ok c → card ≠ name := by
        rintro c hc rfl
        exact other c hc terminal exported rfl
      exact (configureStartTrig_inStep hname terminal exported).bind fun _ =>
        Triple.pure fun _ hs => hs
    | _ => cases hcalls

/-- What comes about from a session without cards, with all the calls that the backend accepted on
the way. -/
inductive Logged : Session → List Call → Prop
  | start (b : Backend) (log : List Notice) : Logged ⟨{}, b, log⟩ []
  /-- The backend comes to refuse other calls than before. -/
  | refuse {s : Session} {cs : List Call} (before : Logged s cs) (failing : List Call) :
    Logged { s with backend := { s.backend with failing } } cs
  | operate {s : Session} {cs : List Call} (before : Logged s cs) (op : Operation) :
    Logged (op.run.run.run s).2 (cs ++ s.backend.acceptedSince (op.run.run.run s).2.backend)

namespace Logged

variable {s : Session} {cs : List Call} {rel : StartTrigs → StartTrigs → Prop}

theorem reached (h : s.Logged cs) : s.registry.Reached := by
  induction h with
  | start b log => exact .empty
  | refuse before failing ih => exact ih
  | operate before op ih => exact .step op _ ih

/-- Other operations keep the start triggers of a card and its device together. -/
theorem keeps (h : s.Logged cs) (refl : ∀ ts, rel ts ts) {card : String}
    (related : s.registry.TrigsRelate rel card cs) (op : Operation)
    (other : ∀ c, s.registry.card? card = .ok c →
      ∀ terminal exported, op ≠ .configureStartTrig card terminal exported) :
    (op.run.run.run s).2.registry.TrigsRelate rel card
      (cs ++ s.backend.acceptedSince (op.run.run.run s).2.backend) := by
  have hchanged : ∀ s', Changed s.registry s.backend s' →
      s'.registry.TrigsRelate rel card (cs ++ s.backend.acceptedSince s'.backend) := by
    rintro s' ⟨ds, r', hchanges, rfl, htold⟩
    rw [htold.acceptedSince]
    exact related.changes refl hchanges
  have hend := run_inStep (b := s.backend) h.reached.sound op card other s (.start s)
  rcases hrun : op.run.run.run s with ⟨e | a, s'⟩ <;> rw [hrun] at hend
  · rcases hend with hs | ⟨ds, hspares, hregistry, htold⟩
    · exact hchanged s' hs
    · rw [htold.acceptedSince]
      exact related.spare (by rw [hregistry]) hspares
  · exact hchanged s' hend

end Logged

/-- How configuring the start trigger of a registered card ends. -/
theorem configureStartTrig_cases {s : Session} {card : String} {c : Card}
    (known : s.registry.card? card = .ok c) (terminal : String) (exported : Bool) :
    TriggerDone s.backend card terminal exported
        ((Operation.configureStartTrig card terminal exported).run.run.run s).2 ∨
      TriggerFailed s.registry s.backend card terminal exported
        ((Operation.configureStartTrig card terminal exported).run.run.run s).2 := by
  have hspec : Triple (Since s.registry s.backend [])
      (Operation.configureStartTrig card terminal exported).run
      (fun _ => TriggerDone s.backend card terminal exported)
      (fun _ => TriggerFailed s.registry s.backend card terminal exported) :=
    (configureStartTrig_spec known terminal exported).bind fun _ => Triple.pure fun _ hs => hs
  have hend := hspec s (.start s)
  rcases hrun : (Operation.configureStartTrig card terminal exported).run.run.run s with
    ⟨e | a, s'⟩ <;> rw [hrun] at hend
  · exact .inr hend
  · exact .inl hend

section Configured

variable {s s' : Session} {cs : List Call} {card terminal : String} {exported : Bool}

/-- Once both calls were accepted, the card and its device have what was asked for. -/
theorem TriggerDone.agrees (h : TriggerDone s.backend card terminal exported s') (cs : List Call) :
    s'.registry.TrigsAgree card (cs ++ s.backend.acceptedSince s'.backend) := by
  intro ts hts
  rw [h.registry] at hts
  obtain rfl := Option.some.inj hts
  rw [h.told.acceptedSince, Call.startTrigs_append]
  simp [Call.retrigger]

/-- Refused the first call, both are as before. Refused the second one, the device has the input
that was asked for, and the output that it had. -/
theorem TriggerFailed.startTrigs
    (h : TriggerFailed s.registry s.backend card terminal exported s') (cs : List Call) :
    s'.registry = s.registry ∧
      Call.startTrigs card (cs ++ s.backend.acceptedSince s'.backend) =
        if s.backend.accepts (.setStartTrigIn card (askedIn terminal exported)) then
          (askedIn terminal exported, (Call.startTrigs card cs).2)
        else Call.startTrigs card cs := by
  cases h with
  | first refused since =>
    rw [since.2.acceptedSince, List.append_nil, refused]
    exact ⟨since.1, rfl⟩
  | second accepted refused since =>
    rw [since.2.acceptedSince, Call.startTrigs_append, accepted]
    exact ⟨since.1, by simp [Call.retrigger]⟩

end Configured

namespace Logged

variable {s : Session} {cs : List Call}

/-- The output of a card never differs from that of its device. -/
theorem outputs_agree (h : s.Logged cs) (card : String) :
    s.registry.TrigsRelate (fun ts ts' => ts.2 = ts'.2) card cs := by
  induction h with
  | start b log =>
    intro ts hts
    cases hts
  | refuse before failing ih => exact ih
  | @operate s cs before op ih =>
    by_cases hconfigures : ∃ c terminal exported, s.registry.card? card = .ok c ∧
      op = .configureStartTrig card terminal exported
    · obtain ⟨c, terminal, exported, known, rfl⟩ := hconfigures
      rcases configureStartTrig_cases known terminal exported with hdone | hfailed
      · intro ts hts
        rw [hdone.agrees cs ts hts]
      · obtain ⟨hregistry, htrigs⟩ := hfailed.startTrigs cs
        unfold Registry.TrigsRelate
        rw [hregistry, htrigs]
        intro ts hts
        -- The call that sets the output is the one refused, or was not made.
        split
        · exact ih ts hts
        · exact ih ts hts
    · have hrefl : ∀ ts : StartTrigs, ts.2 = ts.2 := fun _ => rfl
      refine before.keeps hrefl ih op fun c known terminal exported heq => ?_
      exact hconfigures ⟨c, terminal, exported, known, heq⟩

/-- When a card and its device have the same start triggers, whatever the backend refused. After its
start trigger was configured they have them if the backend accepted both calls, or none and they had
them before, or only the first one but the card had that input already. Nothing else that is done
keeps them from it. -/
theorem startTrigs_agree_iff (h : s.Logged cs) (card : String) :
    (∀ c, s.registry.card? card = .ok c → ∀ terminal exported,
      let s' := ((Operation.configureStartTrig card terminal exported).run.run.run s).2
      s'.registry.TrigsAgree card (cs ++ s.backend.acceptedSince s'.backend) ↔
        if s.backend.accepts (.setStartTrigIn card (askedIn terminal exported)) then
          s.backend.accepts (.setStartTrigOut card (askedOut terminal exported)) = true ∨
            c.sync.startTrigIn = askedIn terminal exported
        else s.registry.TrigsAgree card cs) ∧
    ∀ op : Operation, (∀ terminal exported, op ≠ .configureStartTrig card terminal exported) →
      s.registry.TrigsAgree card cs →
      (op.run.run.run s).2.registry.TrigsAgree card
        (cs ++ s.backend.acceptedSince (op.run.run.run s).2.backend) := by
  constructor
  · intro c known terminal exported
    rcases configureStartTrig_cases known terminal exported with hdone | hfailed
    · rw [hdone.first, hdone.second]
      exact iff_of_true (hdone.agrees cs) (.inl rfl)
    · obtain ⟨hregistry, htrigs⟩ := hfailed.startTrigs cs
      have htrigs? : s.registry.startTrigs? card = some c.sync.startTrigs :=
        startTrigs?_eq_some_iff.mpr ⟨c, known, rfl⟩
      have hout : c.sync.startTrigOut = (Call.startTrigs card cs).2 :=
        h.outputs_agree card _ htrigs?
      dsimp only
      unfold Registry.TrigsAgree Registry.TrigsRelate
      rw [hregistry, htrigs, htrigs?]
      cases hfailed with
      | first refused => simp [refused]
      | second accepted refused =>
        simp [accepted, refused, SyncSettings.startTrigs, hout]
  · intro op other hagree
    exact h.keeps (fun _ => rfl) hagree op fun _ _ => other

end Logged

/-- One card, and a backend that refuses to take its output back. -/
def refusingOutput (ops : List Operation) : Session :=
  let s := Session.operate {} (.addCard "Dev1" .analog 1000 :: ops)
  { s with backend := { s.backend with failing := [.setStartTrigOut "Dev1" none] } }

/-- Imports the start trigger of that card. -/
def importTrigger : Operation := .configureStartTrig "Dev1" "PFI0" false

/-- The input is imported anew from where it came before. -/
theorem refusingOutput_repeated :
    let s := refusingOutput [importTrigger]
    let s' := (importTrigger.run.run.run s).2
    ∃ cs, s.Logged cs ∧
      s'.registry.TrigsAgree "Dev1" (cs ++ s.backend.acceptedSince s'.backend) := by
  have hlogged : (refusingOutput [importTrigger]).Logged _ :=
    (((Logged.start {} []).operate (.addCard "Dev1" .analog 1000)).operate importTrigger).refuse
      [.setStartTrigOut "Dev1" none]
  have htrigs : (refusingOutput [importTrigger]).registry.startTrigs? "Dev1" =
      some (some "PFI0", none) := by decide +kernel
  have haccepts : (refusingOutput [importTrigger]).backend.accepts
      (.setStartTrigIn "Dev1" (some "PFI0")) = true := by decide +kernel
  obtain ⟨c, known, hc⟩ := startTrigs?_eq_some_iff.mp htrigs
  refine ⟨_, hlogged, ((hlogged.startTrigs_agree_iff "Dev1").1 c known "PFI0" false).mpr ?_⟩
  exact (if_pos haccepts).mpr (.inr (congrArg Prod.fst hc))

/-- The input is imported from another terminal than before, that is, from one at all. -/
theorem refusingOutput_drifts :
    let s := refusingOutput []
    let s' := (importTrigger.run.run.run s).2
    ∃ cs, s.Logged cs ∧
      ¬ s'.registry.TrigsAgree "Dev1" (cs ++ s.backend.acceptedSince s'.backend) := by
  have hlogged : (refusingOutput []).Logged _ :=
    ((Logged.start {} []).operate (.addCard "Dev1" .analog 1000)).refuse
      [.setStartTrigOut "Dev1" none]
  refine ⟨_, hlogged, fun hagree => ?_⟩
  have hcard : (importTrigger.run.run.run (refusingOutput [])).2.registry.startTrigs? "Dev1" =
      some (none, none) := by decide +kernel
  have htold := hagree _ hcard
  revert htold
  decide +kernel

end Session

end Sequencer
