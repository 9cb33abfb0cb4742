import Sequencer.Proofs.Card.Addresses
import Sequencer.Proofs.Card.Content
import Sequencer.Registry

namespace Sequencer

/-- The own name of a card, and those of its channels by the names they are kept under. -/
def Card.shape (c : Card) : String × Table String := (c.name, c.channels.map (·.name))

/-- Only a new channel of the kind of the card is added. -/
theorem Card.addChannel_eq_ok {c c' : Card} {name : String} {line : Line} {registered : Float}
    (h : c.addChannel name line registered = .ok c') :
    line.isDigital = (c.kind == .digital) ∧ c.channels.contains name = false ∧
      c' = { c with
        channels := c.channels.put name { name, line, rate := c.rate, registered } } := by
  obtain ⟨⟨hosted, -, free⟩, rfl⟩ := addChannel_eq_ok_iff.mp h
  exact ⟨hosted, free, rfl⟩

theorem Card.shape_modifyChannel (c : Card) (channel : String) {f : Timeline → Timeline}
    (h : ∀ t, (f t).name = t.name) : (c.modifyChannel channel f).shape = c.shape := by
  simp only [shape, modifyChannel, Table.map_modify h]

theorem Timeline.clear_name (t : Timeline) : t.clear.name = t.name := by
  unfold clear
  split <;> rfl

theorem Card.shape_clearEdits (c : Card) : c.clearEdits.shape = c.shape := by
  simp only [shape, clearEdits, Table.map_map_of Timeline.clear_name]

theorem Card.shape_reset (c : Card) : c.reset.shape = c.shape := c.shape_clearEdits

namespace Registry

def shape (r : Registry) : Table (String × Table String) := r.cards.map (·.shape)

variable {r r' : Registry}

theorem shape_modifyCard (r : Registry) (name : String) {f : Card → Card}
    (h : ∀ c, (f c).shape = c.shape) : (r.modifyCard name f).shape = r.shape :=
  Table.map_modify h name r.cards

theorem shape_modifySync (r : Registry) (name : String) (f : SyncSettings → SyncSettings) :
    (r.modifySync name f).shape = r.shape :=
  r.shape_modifyCard name fun _ => rfl

theorem shape_modifyChannel (r : Registry) (card channel : String) {f : Timeline → Timeline}
    (h : ∀ t, (f t).name = t.name) : (r.modifyChannel card channel f).shape = r.shape :=
  r.shape_modifyCard card fun c => c.shape_modifyChannel channel h

/-- Cards are found by the names alone. -/
theorem card?_of_shape (h : r'.shape = r.shape) {name : String} {c : Card}
    (hc : r.card? name = .ok c) : ∃ c', r'.card? name = .ok c' ∧ c'.shape = c.shape := by
  unfold card? at hc ⊢
  have hget := congrArg (·.get? name) h
  simp only [shape, Table.get?_map] at hget
  cases hold : r.cards.get? name with
  | none => simp [hold] at hc
  | some d =>
    obtain rfl : d = c := by simpa [hold] using hc
    rw [hold] at hget
    cases hnew : r'.cards.get? name with
    | none => simp [hnew] at hget
    | some c' =>
      rw [hnew] at hget
      exact ⟨c', rfl, Option.some.inj hget⟩

theorem channel?_of_shape (h : r'.shape = r.shape) {card channel : String} {t : Timeline}
    (ht : r.channel? card channel = .ok t) : ∃ t', r'.channel? card channel = .ok t' := by
  unfold channel? at ht ⊢
  cases hc : r.card? card with
  | error e => simp [hc, Except.bind] at ht
  | ok c =>
    obtain ⟨c', hc', hshape⟩ := card?_of_shape h hc
    have hget := congrArg (fun s : String × Table String => s.2.get? channel) hshape
    simp only [Card.shape, Table.get?_map] at hget
    simp only [hc, Except.bind, Card.channel?] at ht
    simp only [hc', Except.bind, Card.channel?]
    cases hnew : c'.channels.get? channel with
    | some t' => exact ⟨t', rfl⟩
    | none =>
      rw [hnew] at hget
      cases hold : c.channels.get? channel with
      | none => simp [hold] at ht
      | some t => simp [hold] at hget

theorem card?_eq_ok_iff {card : String} {c : Card} :
    r.card? card = .ok c ↔ r.cards.get? card = some c := by
  unfold card?
  cases r.cards.get? card <;> simp

theorem channel?_eq_ok_iff {card channel : String} {t : Timeline} :
    r.channel? card channel = .ok t ↔
      ∃ c, r.cards.get? card = some c ∧ c.channels.get? channel = some t := by
  unfold channel? card?
  cases r.cards.get? card with
  | none => simp [Except.bind]
  | some c => cases hget : c.channels.get? channel <;> simp [Except.bind, Card.channel?, hget]

/-- A channel that is listed is the one that is found. -/
theorem channel?_of_mem (distinct : r.cards.names.Nodup) {card channel : String} {c : Card}
    {t : Timeline} (names : c.channels.names.Nodup) (hc : (card, c) ∈ r.cards.entries)
    (ht : (channel, t) ∈ c.channels.entries) : r.channel? card channel = .ok t :=
  channel?_eq_ok_iff.mpr ⟨c, Table.get?_of_mem distinct hc, Table.get?_of_mem names ht⟩

/-- A change to one channel is none to another. -/
theorem channel?_modifyChannel {card channel card' channel' : String} (f : Timeline → Timeline)
    {t : Timeline} (hne : (card', channel') ≠ (card, channel))
    (ht : r.channel? card' channel' = .ok t) :
    (r.modifyChannel card channel f).channel? card' channel' = .ok t := by
  obtain ⟨c, hc, hchannel⟩ := channel?_eq_ok_iff.mp ht
  apply channel?_eq_ok_iff.mpr
  have hcard := r.cards.get?_modify card (·.modifyChannel channel f) card'
  by_cases h : card' = card
  · rw [if_pos h, hc] at hcard
    have hother : channel' ≠ channel := fun heq => hne (Prod.ext h heq)
    refine ⟨_, hcard, ?_⟩
    have hget := c.channels.get?_modify channel f channel'
    rwa [if_neg hother, hchannel] at hget
  · rw [if_neg h, hc] at hcard
    exact ⟨c, hcard, hchannel⟩

theorem channel?_modifyChannel_self {card channel : String} (f : Timeline → Timeline)
    {t : Timeline} (ht : r.channel? card channel = .ok t) :
    (r.modifyChannel card channel f).channel? card channel = .ok (f t) := by
  obtain ⟨c, hc, hchannel⟩ := channel?_eq_ok_iff.mp ht
  have hcard := r.cards.get?_modify card (·.modifyChannel channel f) card
  have hget := c.channels.get?_modify channel f channel
  rw [if_pos rfl, hc] at hcard
  rw [if_pos rfl, hchannel] at hget
  exact channel?_eq_ok_iff.mpr ⟨_, hcard, hget⟩

/-- Names are not shared, and nothing is kept under a name that is not its own. -/
structure Named (r : Registry) : Prop where
  distinct : r.cards.names.Nodup
  cards : ∀ e ∈ r.cards.entries, e.2.name = e.1
  channels : ∀ e ∈ r.cards.entries, ∀ f ∈ e.2.channels.entries, f.2.name = f.1

theorem Named.empty (roles : Roles) (program : Option Program) :
    ({ roles, program } : Registry).Named :=
  ⟨List.nodup_nil, by simp, by simp⟩

theorem Named.of_shape (h : r.Named) (hs : r'.shape = r.shape) : r'.Named := by
  have hsame : ∀ e ∈ r'.cards.entries, ∃ d ∈ r.cards.entries,
      d.1 = e.1 ∧ d.2.shape = e.2.shape := fun e => Table.exists_of_map_eq hs
  constructor
  case distinct =>
    have hnames := congrArg Table.names hs
    simp only [shape, Table.names_map] at hnames
    rw [hnames]
    exact h.distinct
  case cards =>
    intro e he
    obtain ⟨d, hd, hkey, hshape⟩ := hsame e he
    rw [← hkey, ← h.cards d hd]
    exact (congrArg Prod.fst hshape).symm
  case channels =>
    intro e he f hf
    obtain ⟨d, hd, -, hshape⟩ := hsame e he
    have htables : e.2.channels.map (·.name) = d.2.channels.map (·.name) :=
      (congrArg Prod.snd hshape).symm
    obtain ⟨g, hg, hkey, hname⟩ := Table.exists_of_map_eq htables hf
    rw [← hkey, ← hname]
    exact h.channels d hd g hg

theorem Named.addCard (h : r.Named) {name : String} (hnew : r.cards.contains name = false)
    {c : Card} (hname : c.name = name) (hchannels : ∀ f ∈ c.channels.entries, f.2.name = f.1) :
    ({ r with cards := r.cards.put name c } : Registry).Named := by
  constructor
  case distinct => exact Table.nodup_put h.distinct hnew c
  case cards =>
    intro e he
    rcases Table.mem_put he with hold | rfl
    · exact h.cards e hold
    · exact hname
  case channels =>
    intro e he
    rcases Table.mem_put he with hold | rfl
    · exact h.channels e hold
    · exact hchannels

theorem Named.removeCard (h : r.Named) (name : String) :
    ({ r with cards := r.cards.erase name } : Registry).Named := by
  have hsub : (r.cards.erase name).entries.Sublist r.cards.entries := List.filter_sublist
  exact ⟨h.distinct.sublist (hsub.map _), fun e he => h.cards e (hsub.subset he),
    fun e he => h.channels e (hsub.subset he)⟩

theorem Named.card_name (h : r.Named) {name : String} {c : Card} (hc : r.card? name = .ok c) :
    (name, c) ∈ r.cards.entries ∧ c.name = name := by
  unfold card? at hc
  cases hget : r.cards.get? name with
  | none => simp [hget] at hc
  | some d =>
    obtain rfl : d = c := by simpa [hget] using hc
    have hmem := Table.get?_mem hget
    exact ⟨hmem, h.cards _ hmem⟩

theorem Named.addChannel (h : r.Named) {card name : String} {c c' : Card} {line : Line}
    {registered : Float} (hc : r.card? card = .ok c)
    (hadd : c.addChannel name line registered = .ok c') :
    (r.modifyCard card fun _ => c').Named := by
  obtain ⟨hmem, hname⟩ := h.card_name hc
  have hc' : c'.name = c.name ∧ ∀ f ∈ c'.channels.entries, f.2.name = f.1 := by
    obtain ⟨-, -, rfl⟩ := Card.addChannel_eq_ok hadd
    refine ⟨rfl, fun f hf => ?_⟩
    rcases Table.mem_put hf with hold | rfl
    · exact h.channels _ hmem f hold
    · rfl
  constructor
  case distinct =>
    have hnames : (r.modifyCard card fun _ => c').cards.names = r.cards.names :=
      r.cards.names_modify card _
    rw [hnames]
    exact h.distinct
  case cards =>
    intro e he
    rcases Table.mem_modify he with hold | ⟨-, -, rfl⟩
    · exact h.cards e hold
    · exact hc'.1.trans hname
  case channels =>
    intro e he
    rcases Table.mem_modify he with hold | ⟨-, -, rfl⟩
    · exact h.channels e hold
    · exact hc'.2

/-- A channel that is listed is found by its name and that of its card. -/
theorem Named.exists_channel (h : r.Named) {e : String × Card} (he : e ∈ r.cards.entries)
    {f : String × Timeline} (hf : f ∈ e.2.channels.entries) :
    ∃ t, r.channel? e.2.name f.2.name = .ok t := by
  obtain ⟨t, ht⟩ := Table.exists_get? hf
  refine ⟨t, ?_⟩
  rw [h.cards e he, h.channels e he f hf]
  simp [channel?, card?, Table.get?_of_mem h.distinct he, Except.bind, Card.channel?, ht]

end Registry

end Sequencer
