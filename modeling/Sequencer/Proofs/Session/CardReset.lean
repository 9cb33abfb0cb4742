import Sequencer.Proofs.Card.Renewal
import Sequencer.Proofs.Session.Effects

namespace Sequencer

/-- The channels have names that the card accepts. -/
def Card.Fitting (c : Card) : Prop := ∀ name ∈ c.channels.names, c.kind.names name = true

namespace Card.Fitting

variable {c c' : Card}

theorem of_names (h : c.Fitting) (kind : c'.kind = c.kind)
    (names : c'.channels.names = c.channels.names) : c'.Fitting := by
  rwa [Fitting, kind, names]

theorem clearEdits (h : c.Fitting) : c.clearEdits.Fitting := h.of_names rfl (Table.names_map _ _)

theorem addChannel (h : c.Fitting) {name : String} {line : Line}
    {registered : Float} (added : c.addChannel name line registered = .ok c') : c'.Fitting := by
  obtain ⟨⟨-, fits, free⟩, rfl⟩ := addChannel_eq_ok_iff.mp added
  intro other hother
  rw [Card.host, Table.names_put free] at hother
  rcases List.mem_append.mp hother with hold | hnew
  · exact h other hold
  · exact List.mem_singleton.mp hnew ▸ fits

end Card.Fitting

namespace Registry

open Session

/-- On every card the channels have names that it accepts. -/
def Fitting (r : Registry) : Prop := ∀ e ∈ r.cards.entries, e.2.Fitting

namespace Fitting

variable {r r' : Registry}

theorem modifyCard (h : r.Fitting) (name : String) {f : Card → Card}
    (hf : ∀ c, c.Fitting → (f c).Fitting) : (r.modifyCard name f).Fitting := by
  intro e he
  rcases Table.mem_modify he with hold | ⟨c, hc, rfl⟩
  · exact h e hold
  · exact hf c (h _ hc)

theorem modifyChannel (h : r.Fitting) (card channel : String) (f : Timeline → Timeline) :
    (r.modifyChannel card channel f).Fitting :=
  h.modifyCard card fun c hc => hc.of_names rfl (c.channels.names_modify channel f)

theorem handOver (h : r.Fitting) (provider : Option (String × String)) :
    (handOver provider r).Fitting := by
  have hrelease : (release (provider.map (·.1)) r).Fitting := by
    rcases release_cases (provider.map (·.1)) r with heq | ⟨card, heq⟩ <;> rw [heq]
    · exact h
    · exact h.modifyCard card fun _ hc => hc
  exact hrelease

theorem of_unmarked (h : r.Fitting) (same : r'.unmarked = r.unmarked) : r'.Fitting := by
  intro e he
  have hcards : r'.cards.map Card.unmarked = r.cards.map Card.unmarked := congrArg cards same
  obtain ⟨old, hold, -, hsame⟩ := Table.exists_of_map_eq hcards he
  have hkind : old.2.unmarked.kind = e.2.unmarked.kind := by rw [hsame]
  have hnames : old.2.unmarked.channels.names = e.2.unmarked.channels.names := by rw [hsame]
  rw [Card.unmarked, Card.unmarked, Table.names_map, Table.names_map] at hnames
  exact (h old hold).of_names hkind.symm hnames.symm

/-- A channel comes in under a name that was checked. -/
theorem change {cs : List Call} (h : r.Fitting) (hchange : r.Change cs r') : r'.Fitting := by
  cases hchange with
  | addCard free =>
    intro e he
    rcases Table.mem_put he with hold | rfl
    · exact h e hold
    · exact fun _ hname => absurd hname List.not_mem_nil
  | removeCard name => exact fun e he => h e (Table.mem_erase.mp he).1
  | nameCard name nickname => exact h.modifyCard name fun _ hc => hc
  | nameChannel card channel nickname => exact h.modifyChannel card channel _
  | addAnalogChannel known added | addDigitalChannel known _ added =>
    have hc := h _ (Table.get?_mem (card?_eq_ok_iff.mp known))
    exact h.modifyCard _ fun _ _ => hc.addChannel added
  | addInstruction known playable placed => exact h.modifyChannel _ _ _
  | configureStartTrig | configureSampleClockIn | configureSampleClockOut | importRefClock
  | clearRefClockIn | setWriteTimeout =>
    exact h.modifyCard _ fun _ hc => hc
  | exportRefClock => exact (h.handOver _).modifyCard _ fun _ hc => hc
  | setStartsLast => exact h
  | setProvider => exact h.handOver _
  | resetCard name => exact h.modifyCard name fun _ hc => hc.clearEdits
  | clearEdits =>
    intro e he
    obtain ⟨d, hd, rfl⟩ := List.mem_map.mp he
    exact (h d hd).clearEdits
  | compile _ same => exact h.of_unmarked same

end Fitting

theorem Reached.fitting {r : Registry} (h : r.Reached) : r.Fitting :=
  (h.keep Fitting (by simp [Fitting]) fun _ _ _ _ hchange hr => hr.change hchange).2

/-- The registry after a card was reset. Only the role of the clock provider is given up. -/
def resetCard (name : String) (r : Registry) : Registry :=
  { r.modifyCard name (·.reset) with
    roles := { r.roles with provider := (r.roles.without name).provider }
    program := none }

section ResetCard

variable {r : Registry} {name : String} {c : Card}

theorem card?_resetCard (known : r.card? name = .ok c) :
    (r.resetCard name).card? name = .ok c.reset := by
  have hget := r.cards.get?_modify name (·.reset) name
  rw [if_pos rfl, card?_eq_ok_iff.mp known] at hget
  exact card?_eq_ok_iff.mpr hget

theorem provider_resetCard (r : Registry) (name : String) : (r.resetCard name).roles.provider =
    if r.roles.isProvider name then none else r.roles.provider := rfl

theorem isProvider_resetCard (r : Registry) (name : String) :
    (r.resetCard name).roles.isProvider name = false := by
  rw [Roles.isProvider, provider_resetCard]
  split
  · rfl
  case isFalse h => exact Bool.not_eq_true _ ▸ h

/-- There is nothing left for a second reset. -/
theorem resetCard_resetCard (r : Registry) (name : String) :
    (r.resetCard name).resetCard name = r.resetCard name := by
  have hcards : (r.cards.modify name Card.reset).modify name Card.reset =
      r.cards.modify name Card.reset := by
    have hreset : Card.reset ∘ Card.reset = Card.reset := funext Card.reset_reset
    rw [Table.modify_modify, hreset]
  have hprovider : ((r.resetCard name).roles.without name).provider =
      (r.resetCard name).roles.provider := if_neg (by simp [isProvider_resetCard])
  change Registry.mk ((r.cards.modify name Card.reset).modify name Card.reset)
    ⟨r.roles.startsLast, ((r.resetCard name).roles.without name).provider⟩ none = _
  rw [hcards, hprovider]
  rfl

end ResetCard

end Registry

namespace Session

open Job Triple

variable {r : Registry} {b : Backend} {cs : List Call} {name : String} {c : Card}

theorem resetCard_spec (known : r.card? name = .ok c)
    (accepted : b.accepts (.resetDevice name) = true) {fault : Error → Session → Prop} :
    Triple (Since r b cs) (resetCard name)
      (fun _ => Since (r.resetCard name) b (cs ++ [.resetDevice name])) fault := by
  unfold resetCard
  apply requireCard_known known
  exact (issue_accepted accepted).bind fun _ => finishReset_since known

theorem resetCard_run {s : Session} (known : s.registry.card? name = .ok c)
    (accepted : s.backend.accepts (.resetDevice name) = true) :
    let done := (resetCard name).run.run s
    done.1 = .ok () ∧ done.2.registry = s.registry.resetCard name ∧
      done.2.backend.accepts = s.backend.accepts := by
  intro done
  have hspec : Triple (Since s.registry s.backend []) (resetCard name) _ fun _ _ => False :=
    resetCard_spec known accepted
  have hend := hspec s (.start s)
  rcases hrun : done with ⟨e | ⟨⟩, s'⟩
  · rw [show (resetCard name).run.run s = _ from hrun] at hend
    exact hend.elim
  · rw [show (resetCard name).run.run s = _ from hrun] at hend
    exact ⟨rfl, hend.1, Backend.accepts_congr hend.2.1⟩

/-- The channels of a card that operations led to can be added to a new one. -/
theorem takes_of_reached (reached : r.Reached) (known : r.card? name = .ok c) :
    ∀ e ∈ c.channels.entries, Card.Takes c.kind c.rate e := by
  obtain ⟨hmem, -⟩ := reached.sound.toNamed.card_name known
  intro e he
  have hsound := (reached.sound.whole _ hmem).channels e he
  exact ⟨reached.sound.toNamed.channels _ hmem e he, hsound.clocked, hsound.hosted,
    reached.fitting _ hmem e.1 (List.mem_map_of_mem he)⟩

/-- Resetting a card that operations led to. A second reset is done as well and changes nothing
more. Other cards stay as they are, and so does the one that starts last, but the reference clock
loses its provider if it was this card. The card keeps its name, kind, rate, nicknames and channels.
It has default settings and no instructions, and whatever instructions are added to it and whenever
it is compiled from then on, it gives what a new card with the same channels gives. -/
theorem resetCard_renews {s : Session} (reached : s.registry.Reached)
    (known : s.registry.card? name = .ok c)
    (accepted : s.backend.accepts (.resetDevice name) = true) :
    let once := (resetCard name).run.run s
    let twice := (resetCard name).run.run once.2
    once.1 = .ok () ∧ twice.1 = .ok () ∧ twice.2.registry = once.2.registry ∧
    once.2.registry.cards.names = s.registry.cards.names ∧
    (∀ other, other ≠ name →
      once.2.registry.cards.get? other = s.registry.cards.get? other) ∧
    once.2.registry.roles.startsLast = s.registry.roles.startsLast ∧
    once.2.registry.roles.provider =
      (if s.registry.roles.isProvider name then none else s.registry.roles.provider) ∧
    ∃ c' d, once.2.registry.card? name = .ok c' ∧ c.Renewed c' ∧ c.rebuilt = .ok d ∧
      ∀ steps, (c'.outcomes steps).map Card.shown = (d.outcomes steps).map Card.shown := by
  intro once twice
  obtain ⟨hdone, hregistry, haccepts⟩ := resetCard_run known accepted
  have hknown : once.2.registry.card? name = .ok c.reset := by
    rw [hregistry]
    exact Registry.card?_resetCard known
  obtain ⟨hdone', hregistry', -⟩ := resetCard_run hknown (by rw [haccepts]; exact accepted)
  obtain ⟨hmem, -⟩ := reached.sound.toNamed.card_name known
  have hsound := reached.sound.whole _ hmem
  obtain ⟨d, hd, houtcomes⟩ := Card.outcomes_reset (fun e he => (hsound.channels e he).tidy)
    hsound.distinct (takes_of_reached reached known)
  refine ⟨hdone, hdone', ?_, ?_, ?_, ?_, ?_, c.reset, d, hknown, c.reset_renewed, hd, houtcomes⟩
  · rw [hregistry', hregistry, Registry.resetCard_resetCard]
  · rw [hregistry]
    exact Table.names_modify _ _ _
  · intro other hne
    rw [hregistry]
    exact (Table.get?_modify _ _ _ other).trans (if_neg hne)
  · rw [hregistry]
    rfl
  · rw [hregistry]
    rfl

/-- A card that provides the clock, starts last, and has an instruction that was compiled. -/
def playedCard : Session :=
  Session.operate {} [.addCard "Dev1" .analog 1000, .addCard "Dev2" .digital 1000,
    .addAnalogChannel "Dev1" 0 0, .addInstruction "Dev1" "ao0" (.lasting 0 1 false (.constant 1)),
    .configureRefClock "Dev1" "PXI_Trig7" 1e7 true, .setStartsLast (some "Dev1"), .compile none]

/-- It gives up its clock and nothing else, and then takes and refuses what a new card would. -/
theorem playedCard_renewed :
    let once := (resetCard "Dev1").run.run playedCard
    playedCard.registry.roles.provider = some ("Dev1", "PXI_Trig7") ∧
    once.2.registry.roles.provider = none ∧ once.2.registry.roles.startsLast = some "Dev1" ∧
    ((resetCard "Dev1").run.run once.2).2.registry = once.2.registry ∧
    ∃ c c' d, playedCard.registry.card? "Dev1" = .ok c ∧ c.edited = true ∧
      once.2.registry.card? "Dev1" = .ok c' ∧ c.rebuilt = .ok d ∧
      ∀ steps, (c'.outcomes steps).map Card.shown = (d.outcomes steps).map Card.shown := by
  have hreached : playedCard.registry.Reached := Registry.Reached.empty.operate (s := {}) _
  have hwilling : playedCard.backend.failing.isEmpty = true := by decide +kernel
  have hprovider : playedCard.registry.roles.provider = some ("Dev1", "PXI_Trig7") := by
    decide +kernel
  have hlast : playedCard.registry.roles.startsLast = some "Dev1" := by decide +kernel
  have hedited : (playedCard.registry.card? "Dev1").toOption.map (·.edited) = some true := by
    decide +kernel
  cases hc : playedCard.registry.card? "Dev1" with
  | error e =>
    rw [hc] at hedited
    cases hedited
  | ok c =>
    rw [hc] at hedited
    obtain ⟨-, -, hsame, -, -, hkept, hgone, c', d, hc', -, hd, houtcomes⟩ :=
      resetCard_renews hreached hc (by rw [Backend.accepts, List.isEmpty_iff.mp hwilling]; rfl)
    refine ⟨hprovider, hgone.trans (if_pos ?_), hkept.trans hlast, hsame, c, c', d, rfl,
      Option.some.inj hedited, hc', hd, houtcomes⟩
    rw [Roles.isProvider, hprovider]
    rfl

end Session

end Sequencer
