import Sequencer.Proofs.Session.Changes
import Sequencer.Proofs.Timeline.Acceptance

namespace Sequencer

/-- A channel of a card of this kind and rate. -/
structure Timeline.Sound (kind : CardKind) (rate : Float) (t : Timeline) : Prop where
  hosted : t.line.isDigital = (kind == .digital)
  clocked : t.rate = rate
  tidy : t.Tidy
  playable : ∀ b ∈ t.bookings, (t.line.wave? b.instr t.idle).isSome = true

namespace Timeline.Sound

variable {kind : CardKind} {rate : Float} {t : Timeline}

theorem empty {name : String} {line : Line} {registered : Float}
    (hosted : line.isDigital = (kind == .digital)) :
    ({ name, line, rate, registered } : Timeline).Sound kind rate :=
  ⟨hosted, rfl, .of_empty rfl, by simp⟩

theorem rename (h : t.Sound kind rate) (nickname : Option String) :
    { t with nickname }.Sound kind rate :=
  ⟨h.hosted, h.clocked, h.tidy.of_bookings rfl rfl, h.playable⟩

theorem insert (h : t.Sound kind rate) {i : Instruction} {b : Booking}
    (placed : t.place i = .ok b) (playable : (t.line.wave? b.instr t.idle).isSome = true) :
    (t.insert b).Sound kind rate := by
  obtain ⟨first, stop, hocc, rfl, hfree⟩ := place_eq_ok_iff.mp placed
  have hroom := (h.tidy.neighbours_free_iff hocc.room rfl).mp hfree
  refine ⟨h.hosted, h.clocked, h.tidy.insert hocc.room rfl hroom, fun b hb => ?_⟩
  rcases List.mem_cons.mp ((h.tidy.insert_perm rfl).mem_iff.mp hb) with rfl | hold
  · exact playable
  · exact h.playable b hold

theorem clear (h : t.Sound kind rate) : t.clear.Sound kind rate := by
  have htidy := h.tidy.clear
  unfold Timeline.clear at htidy ⊢
  split
  · exact h
  case isFalse hedited =>
    rw [if_neg hedited] at htidy
    exact ⟨h.hosted, h.clocked, htidy, by simp⟩

theorem of_unmarked {u : Timeline} (h : t.Sound kind rate) (hu : u.unmarked = t.unmarked) :
    u.Sound kind rate := by
  obtain ⟨name, line, rate', registered, nickname, bookings, nextSeq, fresh⟩ := u
  obtain ⟨rfl, rfl, rfl, rfl, rfl, rfl, rfl⟩ := by
    simpa only [unmarked, Timeline.mk.injEq, and_true] using hu
  exact ⟨h.hosted, h.clocked, h.tidy.of_bookings rfl rfl, h.playable⟩

end Timeline.Sound

/-- The channels have names of their own and belong to the card. -/
structure Card.Sound (c : Card) : Prop where
  distinct : c.channels.names.Nodup
  channels : ∀ e ∈ c.channels.entries, e.2.Sound c.kind c.rate

namespace Card.Sound

variable {c : Card}

theorem modifyChannel (h : c.Sound) {channel : String} {f : Timeline → Timeline}
    (hf : ∀ t, (channel, t) ∈ c.channels.entries → t.Sound c.kind c.rate →
      (f t).Sound c.kind c.rate) : (c.modifyChannel channel f).Sound := by
  constructor
  case distinct =>
    have hnames := c.channels.names_modify channel f
    exact hnames ▸ h.distinct
  case channels =>
    intro e he
    rcases Table.mem_modify he with hold | ⟨t, ht, rfl⟩
    · exact h.channels e hold
    · exact hf t ht (h.channels _ ht)

theorem clearEdits (h : c.Sound) : c.clearEdits.Sound := by
  constructor
  case distinct => exact c.channels.names_map Timeline.clear ▸ h.distinct
  case channels =>
    intro e he
    obtain ⟨d, hd, rfl⟩ := List.mem_map.mp he
    exact (h.channels d hd).clear

theorem addChannel (h : c.Sound) {name : String} {line : Line} {registered : Float} {c' : Card}
    (added : c.addChannel name line registered = .ok c') : c'.Sound := by
  obtain ⟨hosted, hfree, rfl⟩ := addChannel_eq_ok added
  constructor
  case distinct => exact Table.nodup_put h.distinct hfree _
  case channels =>
    intro e he
    rcases Table.mem_put he with hold | rfl
    · exact h.channels e hold
    · exact .empty hosted

theorem of_unmarked {d : Card} (h : c.Sound) (hd : d.unmarked = c.unmarked) : d.Sound := by
  have hkind : d.unmarked.kind = c.unmarked.kind := congrArg Card.kind hd
  have hrate : d.unmarked.rate = c.unmarked.rate := congrArg Card.rate hd
  have hchannels : d.channels.map Timeline.unmarked = c.channels.map Timeline.unmarked :=
    congrArg Card.channels hd
  constructor
  case distinct =>
    rw [← d.channels.names_map Timeline.unmarked, hchannels, Table.names_map]
    exact h.distinct
  case channels =>
    intro e he
    obtain ⟨old, hold, -, hsame⟩ := Table.exists_of_map_eq hchannels he
    have hsound := (h.channels old hold).of_unmarked hsame.symm
    exact hkind.symm ▸ hrate.symm ▸ hsound

end Card.Sound

namespace Registry

open Session

/-- Names are in order, and so is every card. -/
structure Sound (r : Registry) : Prop extends r.Named where
  whole : ∀ e ∈ r.cards.entries, e.2.Sound

namespace Sound

variable {r r' : Registry}

theorem empty : ({} : Registry).Sound := ⟨Named.empty {} none, by simp⟩

theorem of_cards (h : r.Sound) (hcards : r'.cards = r.cards) : r'.Sound := by
  have hshape : r'.shape = r.shape := congrArg (·.map Card.shape) hcards
  exact ⟨h.toNamed.of_shape hshape, hcards ▸ h.whole⟩

theorem withoutProgram (h : r.Sound) : r.withoutProgram.Sound := h.of_cards rfl

theorem modifyCard (h : r.Sound) {name : String} {f : Card → Card}
    (hshape : ∀ c, (f c).shape = c.shape)
    (hf : ∀ c, (name, c) ∈ r.cards.entries → c.Sound → (f c).Sound) :
    (r.modifyCard name f).Sound := by
  refine ⟨h.toNamed.of_shape (r.shape_modifyCard name hshape), fun e he => ?_⟩
  rcases Table.mem_modify he with hold | ⟨c, hc, rfl⟩
  · exact h.whole e hold
  · exact hf c hc (h.whole _ hc)

theorem modifySync (h : r.Sound) (name : String) (f : SyncSettings → SyncSettings) :
    (r.modifySync name f).Sound :=
  h.modifyCard (fun _ => rfl) fun _ _ hc => ⟨hc.distinct, hc.channels⟩

theorem channel?_of_mem (h : r.Sound) {card channel : String} {c : Card} {t : Timeline}
    (hc : (card, c) ∈ r.cards.entries) (ht : (channel, t) ∈ c.channels.entries) :
    r.channel? card channel = .ok t :=
  Registry.channel?_of_mem h.distinct (h.whole _ hc).distinct hc ht

theorem modifyChannel (h : r.Sound) {card channel : String} {f : Timeline → Timeline}
    (hname : ∀ t, (f t).name = t.name)
    (hf : ∀ kind rate t, r.channel? card channel = .ok t → t.Sound kind rate →
      (f t).Sound kind rate) : (r.modifyChannel card channel f).Sound :=
  h.modifyCard (fun c => c.shape_modifyChannel channel hname) fun c hc hsound =>
    hsound.modifyChannel fun t ht hchannel => hf c.kind c.rate t (h.channel?_of_mem hc ht) hchannel

theorem addChannel (h : r.Sound) {card name : String} {line : Line} {registered : Float}
    {c c' : Card} (known : r.card? card = .ok c)
    (added : c.addChannel name line registered = .ok c') :
    (r.modifyCard card fun _ => c').Sound := by
  refine ⟨h.toNamed.addChannel known added, fun e he => ?_⟩
  rcases Table.mem_modify he with hold | ⟨-, -, rfl⟩
  · exact h.whole e hold
  · exact (h.whole _ (h.toNamed.card_name known).1).addChannel added

theorem handOver (h : r.Sound) (provider : Option (String × String)) :
    (handOver provider r).Sound := by
  have hrelease : (release (provider.map (·.1)) r).Sound := by
    rcases release_cases (provider.map (·.1)) r with heq | ⟨card, heq⟩ <;> rw [heq]
    · exact h
    · exact h.modifySync _ _
  exact hrelease.of_cards rfl

theorem of_unmarked (h : r.Sound) (hr : r'.unmarked = r.unmarked) : r'.Sound := by
  refine ⟨h.toNamed.of_shape (shape_of_unmarked hr), fun e he => ?_⟩
  have hcards : r'.cards.map Card.unmarked = r.cards.map Card.unmarked := congrArg cards hr
  obtain ⟨old, hold, -, hsame⟩ := Table.exists_of_map_eq hcards he
  exact (h.whole old hold).of_unmarked hsame.symm

/-- Every change leaves channels that belong to their cards. -/
theorem change {cs : List Call} (h : r.Sound) (hchange : r.Change cs r') : r'.Sound := by
  cases hchange with
  | @addCard name kind rate free =>
    have hnamed := h.toNamed.addCard free (c := { name, kind, rate }) rfl (by simp)
    refine ⟨hnamed.of_shape rfl, fun e he => ?_⟩
    rcases Table.mem_put he with hold | rfl
    · exact h.whole e hold
    · exact ⟨List.nodup_nil, by simp⟩
  | removeCard name =>
    have hsub : (r.cards.erase name).entries.Sublist r.cards.entries := List.filter_sublist
    exact ⟨(h.toNamed.removeCard name).of_shape rfl, fun e he => h.whole e (hsub.subset he)⟩
  | nameCard name nickname =>
    exact h.modifyCard (fun _ => rfl) fun _ _ hc => ⟨hc.distinct, hc.channels⟩
  | nameChannel card channel nickname =>
    exact h.modifyChannel (fun _ => rfl) fun _ _ _ _ ht => ht.rename nickname
  | addAnalogChannel known added => exact (h.addChannel known added).withoutProgram
  | addDigitalChannel known _ added => exact (h.addChannel known added).withoutProgram
  | @addInstruction card channel t b known playable placed =>
    apply withoutProgram
    refine h.modifyChannel (fun _ => rfl) fun kind rate u hu hsound => ?_
    obtain rfl : u = t := Except.ok.inj (hu.symm.trans known)
    exact hsound.insert placed playable
  | configureStartTrig | configureSampleClockIn | configureSampleClockOut | importRefClock =>
    exact (h.modifySync _ _).withoutProgram
  | exportRefClock => exact ((h.handOver _).modifySync _ _).withoutProgram
  | clearRefClockIn | setWriteTimeout => exact h.modifySync _ _
  | setStartsLast => exact h.of_cards rfl
  | setProvider => exact h.handOver _
  | resetCard name =>
    have hreset : (r.modifyCard name Card.reset).Sound :=
      h.modifyCard Card.shape_reset fun c _ hc =>
        ⟨hc.clearEdits.distinct, hc.clearEdits.channels⟩
    exact hreset.of_cards rfl
  | clearEdits =>
    have hshape : (r.cards.map Card.clearEdits).map Card.shape = r.shape :=
      Table.map_map_of Card.shape_clearEdits r.cards
    refine ⟨h.toNamed.of_shape hshape, fun e he => ?_⟩
    obtain ⟨d, hd, rfl⟩ := List.mem_map.mp he
    exact (h.whole d hd).clearEdits
  | compile _ same => exact h.of_unmarked same

end Sound

end Registry

end Sequencer
