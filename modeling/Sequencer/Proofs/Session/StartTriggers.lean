import Sequencer.Proofs.Session.Effects

namespace Sequencer

/-- Where the start trigger comes from, and where it goes. -/
abbrev StartTrigs := Option String × Option String

def SyncSettings.startTrigs (s : SyncSettings) : StartTrigs := (s.startTrigIn, s.startTrigOut)

namespace Call

/-- What an accepted call makes of the start triggers of a device. Registered or reset, a device has
none. -/
def retrigger (card : String) (ts : StartTrigs) : Call → StartTrigs
  | addAnalogDevice name _ | addDigitalDevice name _ | resetDevice name =>
    if card = name then (none, none) else ts
  | setStartTrigIn name terminal => if card = name then (terminal, ts.2) else ts
  | setStartTrigOut name terminal => if card = name then (ts.1, terminal) else ts
  | _ => ts

/-- The start triggers of a device after these calls. -/
def startTrigs (card : String) (cs : List Call) : StartTrigs :=
  cs.foldl (retrigger card) (none, none)

theorem startTrigs_append (card : String) (cs ds : List Call) :
    startTrigs card (cs ++ ds) = ds.foldl (retrigger card) (startTrigs card cs) :=
  List.foldl_append

/-- Calls that leave the start triggers of the device alone. -/
def Spares (card : String) (cs : List Call) : Prop := ∀ ts, cs.foldl (retrigger card) ts = ts

theorem spares_of_emits {cs : List Call}
    (h : ∀ c ∈ cs, ∃ name channel i, c = .emit name channel i) (card : String) :
    Spares card cs := by
  intro ts
  induction cs with
  | nil => rfl
  | cons c cs ih =>
    obtain ⟨⟨name, channel, i, rfl⟩, hrest⟩ := List.forall_mem_cons.mp h
    exact ih hrest

theorem spares_of_compiles {cs : List Call} (h : ∀ c ∈ cs, ∃ stop, c = .compile stop)
    (card : String) : Spares card cs := by
  intro ts
  induction cs with
  | nil => rfl
  | cons c cs ih =>
    obtain ⟨⟨stop, rfl⟩, hrest⟩ := List.forall_mem_cons.mp h
    exact ih hrest

end Call

theorem Card.startTrigs_unmarked (c : Card) : c.unmarked.sync.startTrigs = c.sync.startTrigs := rfl

theorem Card.startTrigs_clearEdits (c : Card) : c.clearEdits.sync.startTrigs = c.sync.startTrigs :=
  rfl

namespace Registry

open Session

variable {r r' : Registry} {card : String} {cs : List Call}

/-- The start triggers of a card, if it is registered. -/
def startTrigs? (r : Registry) (card : String) : Option StartTrigs :=
  (r.cards.get? card).map (·.sync.startTrigs)

theorem startTrigs?_eq_some_iff {ts : StartTrigs} :
    r.startTrigs? card = some ts ↔ ∃ c, r.card? card = .ok c ∧ c.sync.startTrigs = ts := by
  simp only [startTrigs?, Option.map_eq_some_iff, card?_eq_ok_iff]

theorem startTrigs?_modifyCard (r : Registry) (name : String) {f : Card → Card}
    (hf : ∀ c, (f c).sync.startTrigs = c.sync.startTrigs) (card : String) :
    (r.modifyCard name f).startTrigs? card = r.startTrigs? card := by
  unfold startTrigs? modifyCard
  rw [Table.get?_modify]
  split
  · rw [Option.map_map]
    exact congrArg (Option.map · _) (funext hf)
  · rfl

theorem startTrigs?_map {f : Card → Card} (hcards : r'.cards = r.cards.map f)
    (hf : ∀ c, (f c).sync.startTrigs = c.sync.startTrigs) (card : String) :
    r'.startTrigs? card = r.startTrigs? card := by
  unfold startTrigs?
  rw [hcards, Table.get?_map, Option.map_map]
  exact congrArg (Option.map · _) (funext hf)

theorem startTrigs?_of_unmarked (h : r'.unmarked = r.unmarked) (card : String) :
    r'.startTrigs? card = r.startTrigs? card := by
  have hmarks : ∀ r : Registry, r.unmarked.startTrigs? card = r.startTrigs? card := fun r =>
    startTrigs?_map rfl Card.startTrigs_unmarked card
  rw [← hmarks r', h, hmarks r]

theorem startTrigs?_handOver (r : Registry) (provider : Option (String × String)) (card : String) :
    (handOver provider r).startTrigs? card = r.startTrigs? card := by
  change (release (provider.map (·.1)) r).startTrigs? card = _
  rcases release_cases (provider.map (·.1)) r with heq | ⟨name, heq⟩ <;> rw [heq]
  refine r.startTrigs?_modifyCard name ?_ card
  exact fun _ => rfl

/-- What a change does to the start triggers of a card, and its calls to those of the device. -/
inductive Retriggers (r r' : Registry) (card : String) (cs : List Call) : Prop
  | same (registry : r'.startTrigs? card = r.startTrigs? card) (calls : Call.Spares card cs)
  | set (both : ∀ ts, ∀ ts' ∈ r'.startTrigs? card, ts' = cs.foldl (Call.retrigger card) ts)

namespace Retriggers

theorem of_cards {r'' : Registry} (h : r.Retriggers r' card cs) (hcards : r''.cards = r'.cards) :
    r.Retriggers r'' card cs := by
  have hsame : r''.startTrigs? card = r'.startTrigs? card := by
    rw [startTrigs?, hcards, startTrigs?]
  cases h with
  | same registry calls => exact .same (hsame.trans registry) calls
  | set both => exact .set (hsame ▸ both)

theorem withoutProgram (h : r.Retriggers r' card cs) : r.Retriggers r'.withoutProgram card cs :=
  h.of_cards rfl

theorem modifyCard (name : String) {f : Card → Card}
    (hf : ∀ c, (f c).sync.startTrigs = c.sync.startTrigs) (calls : Call.Spares card cs) :
    r.Retriggers (r.modifyCard name f) card cs :=
  .same (r.startTrigs?_modifyCard name hf card) calls

/-- The card gets the start triggers that its device is told of. -/
theorem tie (new : StartTrigs) (name : String) {f : Card → Card}
    (hf : ∀ c, (f c).sync.startTrigs = new)
    (told : ∀ ts, cs.foldl (Call.retrigger card) ts = if card = name then new else ts) :
    r.Retriggers (r.modifyCard name f) card cs := by
  by_cases hname : card = name
  · refine .set fun ts ts' hts' => ?_
    rw [told, if_pos hname]
    simp only [startTrigs?, Registry.modifyCard, Table.get?_modify, if_pos hname, Option.map_map,
      Option.mem_def, Option.map_eq_some_iff, Function.comp_apply, hf] at hts'
    obtain ⟨c, -, rfl⟩ := hts'
    rfl
  · refine .same ?_ fun ts => by rw [told, if_neg hname]
    simp only [startTrigs?, Registry.modifyCard, Table.get?_modify, if_neg hname]

/-- A card is registered, and its device with it. -/
theorem addCard {name : String} {c : Card} (hc : c.sync.startTrigs = (none, none))
    (told : ∀ ts, cs.foldl (Call.retrigger card) ts = if card = name then (none, none) else ts) :
    r.Retriggers { r with cards := r.cards.put name c } card cs := by
  by_cases hname : card = name
  · refine .set fun ts ts' hts' => ?_
    rw [told, if_pos hname]
    simp only [startTrigs?, Table.get?_put, if_pos hname, Option.map_some, Option.mem_def,
      Option.some.injEq] at hts'
    exact hts'.symm.trans hc
  · refine .same ?_ fun ts => by rw [told, if_neg hname]
    simp only [startTrigs?, Table.get?_put, if_neg hname]

theorem removeCard (name : String) (roles : Roles) :
    r.Retriggers { cards := r.cards.erase name, roles } card [] := by
  by_cases hname : card = name
  · refine .set fun ts ts' hts' => ?_
    simp [startTrigs?, Table.get?_erase, hname] at hts'
  · refine .same ?_ fun _ => rfl
    simp only [startTrigs?, Table.get?_erase, if_neg hname]

/-- A card with one more channel is tied to others as before. -/
theorem addChannel {name channel : String} {line : Line} {registered : Float} {c c' : Card}
    (known : r.card? name = .ok c) (added : c.addChannel channel line registered = .ok c')
    (calls : Call.Spares card cs) : r.Retriggers (r.modifyCard name fun _ => c') card cs := by
  refine .same ?_ calls
  obtain ⟨-, -, rfl⟩ := Card.addChannel_eq_ok added
  unfold startTrigs? Registry.modifyCard
  rw [Table.get?_modify]
  split
  case isTrue hname =>
    rw [hname, card?_eq_ok_iff.mp known]
    rfl
  case isFalse => rfl

end Retriggers

/-- A change leaves the start triggers of a card and of its device alone, or makes them the same. -/
theorem Change.retriggers (h : r.Change cs r') (card : String) : r.Retriggers r' card cs := by
  cases h with
  | @addCard name kind rate free =>
    refine .withoutProgram (.addCard rfl fun ts => ?_)
    cases kind <;> rfl
  | removeCard name => exact .removeCard name _
  | nameCard | nameChannel | clearRefClockIn | setWriteTimeout =>
    refine .modifyCard _ ?_ fun _ => rfl
    exact fun _ => rfl
  | addInstruction | configureSampleClockIn | configureSampleClockOut | importRefClock =>
    refine .withoutProgram (.modifyCard _ ?_ fun _ => rfl)
    exact fun _ => rfl
  | addAnalogChannel known added | addDigitalChannel known _ added =>
    exact .withoutProgram (.addChannel known added fun _ => rfl)
  | @configureStartTrig name trigIn trigOut =>
    refine .withoutProgram (.tie (trigIn, trigOut) name ?_ fun ts => ?_)
    · exact fun _ => rfl
    · by_cases hname : card = name <;> simp [Call.retrigger, hname]
  | @exportRefClock name terminal =>
    refine .same (Eq.trans ?_ (r.startTrigs?_handOver (some (name, terminal)) card)) fun _ => rfl
    refine startTrigs?_modifyCard _ name ?_ card
    exact fun _ => rfl
  | setStartsLast => exact .same rfl fun _ => rfl
  | setProvider => exact .same (r.startTrigs?_handOver _ card) fun _ => rfl
  | resetCard name =>
    have hreset : r.Retriggers (r.modifyCard name Card.reset) card [.resetDevice name] :=
      .tie (none, none) name (fun _ => rfl) fun _ => rfl
    exact hreset.of_cards rfl
  | clearEdits => exact .same (startTrigs?_map rfl Card.startTrigs_clearEdits card) fun _ => rfl
  | compile calls same =>
    exact .same (startTrigs?_of_unmarked same card) (Call.spares_of_compiles calls card)

/-- The start triggers of the card are as its device was told, seen through `rel`. -/
def TrigsRelate (rel : StartTrigs → StartTrigs → Prop) (r : Registry) (card : String)
    (cs : List Call) : Prop :=
  ∀ ts ∈ r.startTrigs? card, rel ts (Call.startTrigs card cs)

/-- The start triggers of the card are those that its device was told of. -/
def TrigsAgree (r : Registry) (card : String) (cs : List Call) : Prop :=
  r.TrigsRelate (· = ·) card cs

variable {rel : StartTrigs → StartTrigs → Prop} {ds : List Call}

theorem TrigsRelate.spare (h : r.TrigsRelate rel card cs)
    (registry : r'.startTrigs? card = r.startTrigs? card) (calls : Call.Spares card ds) :
    r'.TrigsRelate rel card (cs ++ ds) := by
  unfold TrigsRelate
  rw [registry, Call.startTrigs_append, calls]
  exact h

theorem TrigsRelate.changes (refl : ∀ ts, rel ts ts) (h : r.TrigsRelate rel card cs)
    (hchanges : r.Changes ds r') : r'.TrigsRelate rel card (cs ++ ds) := by
  induction hchanges with
  | none => rwa [List.append_nil]
  | snoc before change ih =>
    rw [← List.append_assoc]
    cases change.retriggers card with
    | same registry calls => exact ih.spare registry calls
    | set both =>
      intro ts hts
      rw [Call.startTrigs_append, both _ ts hts]
      exact refl _

end Registry

end Sequencer
