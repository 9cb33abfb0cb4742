import Sequencer.Proofs.Session.Effects

namespace Sequencer

/-- The settings of a card, which may be the one that provides the reference clock. -/
structure SyncSettings.Tied (provides : Bool) (s : SyncSettings) : Prop where
  /-- The provider does not import the clock. -/
  exclusive : provides = true → s.refClockIn = none
  oneWay : s.startTrigIn = none ∨ s.startTrigOut = none
  clocked : s.refClockIn.isSome = true → s.refClockRate.isSome = true
  /-- A rate is that of the imported clock, or acknowledges the one that is exported. -/
  rated : ∀ rate, s.refClockRate = some rate → s.refClockIn.isSome = true ∨
    provides = true ∧ (rate == Session.exportRate) = true

namespace SyncSettings.Tied

variable {provides : Bool} {s : SyncSettings}

theorem fresh (provides : Bool) : ({} : SyncSettings).Tied provides :=
  ⟨fun _ => rfl, .inl rfl, by simp, by simp⟩

/-- A card that no longer provides the clock has no rate. -/
theorem released (h : s.Tied true) : { s with refClockRate := none }.Tied false :=
  ⟨by simp, h.oneWay, by simp [h.exclusive rfl], by simp⟩

/-- What the settings ask for does not depend on the role, unless there is a rate to go with it. -/
theorem retold (h : s.Tied provides) {provides' : Bool}
    (importing : provides' = true → s.refClockIn = none)
    (keeps : provides = true → provides' = true) : s.Tied provides' :=
  ⟨importing, h.oneWay, h.clocked, fun rate hrate => (h.rated rate hrate).imp_right fun hown =>
    ⟨keeps hown.1, hown.2⟩⟩

end SyncSettings.Tied

namespace Roles

variable {roles : Roles} {card name : String}

theorem isProvider_iff : roles.isProvider name = true ↔
    ∃ terminal, roles.provider = some (name, terminal) := by
  cases h : roles.provider <;> simp [isProvider, h, Prod.ext_iff]

theorem without_isProvider : (roles.without card).isProvider name = true ↔
    roles.isProvider name = true ∧ name ≠ card := by
  simp only [isProvider_iff, without]
  split
  case isTrue h =>
    obtain ⟨terminal, hprovider⟩ := isProvider_iff.mp h
    simp [hprovider, eq_comm]
  case isFalse h =>
    have hother : ∀ terminal, roles.provider = some (name, terminal) → name ≠ card := by
      rintro terminal hprovider rfl
      exact h (isProvider_iff.mpr ⟨terminal, hprovider⟩)
    exact ⟨fun ⟨terminal, heq⟩ => ⟨⟨terminal, heq⟩, hother terminal heq⟩, And.left⟩

theorem isProvider_without (hne : name ≠ card) :
    (roles.without card).isProvider name = roles.isProvider name := by
  rw [Bool.eq_iff_iff, without_isProvider, and_iff_left hne]

theorem without_last : (roles.without card).startsLast = some name ↔
    roles.startsLast = some name ∧ name ≠ card := by
  unfold without
  split
  case isTrue h => simp [beq_iff_eq.mp h, eq_comm]
  case isFalse h =>
    have hother : roles.startsLast = some name → name ≠ card := by
      rintro hlast rfl
      simp [hlast] at h
    simpa using hother

end Roles

namespace Registry

open Session

/-- Roles go to cards that are registered, and the settings of every card agree with them. -/
structure Tied (r : Registry) : Prop where
  last : ∀ name, r.roles.startsLast = some name → name ∈ r.cards.names
  provider : ∀ name, r.roles.isProvider name = true → name ∈ r.cards.names
  cards : ∀ e ∈ r.cards.entries, e.2.sync.Tied (r.roles.isProvider e.1)

variable {r r' : Registry}

theorem checkNewProvider_eq_ok_iff {name : String} : checkNewProvider r name = .ok () ↔
    ∃ c, r.cards.get? name = some c ∧ c.sync.refClockIn = none := by
  unfold checkNewProvider
  cases r.cards.get? name with
  | none => simp
  | some c => cases hin : c.sync.refClockIn <;> simp [hin]

theorem release_roles (next : Option String) (r : Registry) :
    (release next r).roles = r.roles := by
  rcases release_cases next r with heq | ⟨card, heq⟩ <;> rw [heq]
  rfl

/-- Only a provider that does not go on is released. -/
theorem mem_release {next : Option String} {e : String × Card}
    (he : e ∈ (release next r).cards.entries) :
    (e ∈ r.cards.entries ∧ (r.roles.isProvider e.1 = true → next = some e.1)) ∨
      ∃ c, (e.1, c) ∈ r.cards.entries ∧ r.roles.isProvider e.1 = true ∧ next ≠ some e.1 ∧
        e.2.sync = { c.sync with refClockRate := none } := by
  unfold release at he
  split at he
  case h_1 old terminal hprovider =>
    have hold : ∀ name, r.roles.isProvider name = true ↔ old = name := by
      simp [Roles.isProvider, hprovider]
    split at he
    case isTrue hgoesOn =>
      refine .inl ⟨he, fun hprovides => ?_⟩
      rw [← (hold e.1).mp hprovides]
      exact beq_iff_eq.mp hgoesOn
    case isFalse hgone =>
      obtain ⟨d, hd, rfl⟩ := List.mem_map.mp he
      split
      case isTrue heq =>
        obtain rfl : d.1 = old := beq_iff_eq.mp heq
        exact .inr ⟨d.2, hd, (hold d.1).mpr rfl, by simpa using hgone, rfl⟩
      case isFalse hne =>
        exact .inl ⟨hd, fun hprovides => (hne (beq_iff_eq.mpr ((hold d.1).mp hprovides).symm)).elim⟩
  case h_2 hnone => exact .inl ⟨he, by simp [Roles.isProvider, hnone]⟩

namespace Tied

theorem empty : ({} : Registry).Tied := ⟨by simp, by simp [Roles.isProvider], by simp⟩

theorem withoutProgram (h : r.Tied) : r.withoutProgram.Tied := ⟨h.last, h.provider, h.cards⟩

theorem of_names (h : r.Tied) (roles : r'.roles = r.roles) (names : r'.cards.names = r.cards.names)
    (cards : ∀ e ∈ r'.cards.entries, e.2.sync.Tied (r.roles.isProvider e.1)) : r'.Tied := by
  constructor
  case last => simpa only [names, roles] using h.last
  case provider => simpa only [names, roles] using h.provider
  case cards => simpa only [roles] using cards

theorem modifyCard (h : r.Tied) {name : String} {f : Card → Card}
    (hf : ∀ c, (name, c) ∈ r.cards.entries → c.sync.Tied (r.roles.isProvider name) →
      (f c).sync.Tied (r.roles.isProvider name)) : (r.modifyCard name f).Tied := by
  refine h.of_names rfl (r.cards.names_modify name f) fun e he => ?_
  rcases Table.mem_modify he with hold | ⟨c, hc, rfl⟩
  · exact h.cards e hold
  · exact hf c hc (h.cards _ hc)

theorem of_unmarked (h : r.Tied) (hr : r'.unmarked = r.unmarked) : r'.Tied := by
  have hcards : r'.cards.map Card.unmarked = r.cards.map Card.unmarked := congrArg Registry.cards hr
  have hnames := congrArg Table.names hcards
  rw [Table.names_map, Table.names_map] at hnames
  have hroles : r'.roles = r.roles := (Registry.mk.inj hr).2.1
  refine h.of_names hroles hnames fun e he => ?_
  obtain ⟨old, hold, hkey, hsame⟩ := Table.exists_of_map_eq hcards he
  have hsync : old.2.unmarked.sync = e.2.unmarked.sync := congrArg Card.sync hsame
  change e.2.unmarked.sync.Tied _
  rw [← hsync, ← hkey]
  exact h.cards old hold

/-- Adding a channel leaves the settings of the card alone. -/
theorem addChannel (h : r.Tied) (sound : r.Sound) {card name : String} {line : Line}
    {registered : Float} {c c' : Card} (known : r.card? card = .ok c)
    (added : c.addChannel name line registered = .ok c') :
    (r.modifyCard card fun _ => c').Tied := by
  obtain ⟨-, -, rfl⟩ := Card.addChannel_eq_ok added
  exact h.modifyCard fun _ _ _ => h.cards _ (sound.card_name known).1

/-- The old provider loses its rate unless it goes on, and the new one does not import. -/
theorem handOver (h : r.Tied) (sound : r.Sound) {provider : Option (String × String)}
    (free : ∀ p, provider = some p → checkNewProvider r p.1 = .ok ()) :
    (Session.handOver provider r).Tied := by
  have hnames : (Session.handOver provider r).cards.names = r.cards.names := by
    have hshape := congrArg Table.names (handOver_shape provider r)
    rwa [shape, shape, Table.names_map, Table.names_map] at hshape
  have hnext : ∀ name, (Session.handOver provider r).roles.isProvider name = true ↔
      provider.map (·.1) = some name := fun name => beq_iff_eq
  constructor
  case last =>
    intro name hlast
    rw [hnames]
    exact h.last name (release_roles (provider.map (·.1)) r ▸ hlast)
  case provider =>
    intro name hname
    obtain ⟨p, rfl, rfl⟩ := Option.map_eq_some_iff.mp ((hnext name).mp hname)
    obtain ⟨c, hc, -⟩ := checkNewProvider_eq_ok_iff.mp (free p rfl)
    rw [hnames]
    exact List.mem_map_of_mem (Table.get?_mem hc)
  case cards =>
    intro e he
    rcases mem_release he with ⟨hold, hstays⟩ | ⟨c, hc, hprovides, hgone, heq⟩
    case inl =>
      refine (h.cards e hold).retold (fun hprovides => ?_) fun hprovides =>
        (hnext e.1).mpr (hstays hprovides)
      obtain ⟨p, rfl, hp⟩ := Option.map_eq_some_iff.mp ((hnext e.1).mp hprovides)
      obtain ⟨c, hc, himports⟩ := checkNewProvider_eq_ok_iff.mp (free p rfl)
      rw [hp, Table.get?_of_mem sound.distinct hold] at hc
      obtain rfl := Option.some.inj hc
      exact himports
    case inr =>
      -- the old provider: without a rate nothing ties it to the role
      have hreleased := h.cards _ hc
      rw [hprovides] at hreleased
      have hnot : (Session.handOver provider r).roles.isProvider e.1 = false :=
        Bool.eq_false_iff.mpr fun hprovides' => hgone ((hnext e.1).mp hprovides')
      rw [hnot, heq]
      exact hreleased.released

/-- Every change leaves the roles and the settings in agreement. -/
theorem change {cs : List Call} (h : r.Tied) (sound : r.Sound) (hchange : r.Change cs r') :
    r'.Tied := by
  cases hchange with
  | @addCard name kind rate free =>
    have hkept : ∀ n ∈ r.cards.names, n ∈ (r.cards.put name { name, kind, rate }).names := by
      intro n hn
      rw [Table.names_put free]
      exact List.mem_append_left _ hn
    refine ⟨fun n hn => hkept n (h.last n hn), fun n hn => hkept n (h.provider n hn), ?_⟩
    intro e he
    rcases Table.mem_put he with hold | rfl
    · exact h.cards e hold
    · exact .fresh _
  | removeCard name =>
    constructor
    case last =>
      intro n hn
      obtain ⟨hlast, hne⟩ := Roles.without_last.mp hn
      exact Table.mem_names_erase.mpr ⟨h.last n hlast, hne⟩
    case provider =>
      intro n hn
      obtain ⟨hprovides, hne⟩ := Roles.without_isProvider.mp hn
      exact Table.mem_names_erase.mpr ⟨h.provider n hprovides, hne⟩
    case cards =>
      intro e he
      obtain ⟨hold, hne⟩ := Table.mem_erase.mp he
      rw [Roles.isProvider_without hne]
      exact h.cards e hold
  | nameCard | nameChannel => exact h.modifyCard fun _ _ hc => hc
  | addInstruction => exact withoutProgram (h.modifyCard fun _ _ hc => hc)
  | addAnalogChannel known added => exact (h.addChannel sound known added).withoutProgram
  | addDigitalChannel known _ added => exact (h.addChannel sound known added).withoutProgram
  | configureStartTrig oneWay =>
    refine withoutProgram (h.modifyCard fun c _ hc => ?_)
    exact ⟨hc.exclusive, oneWay, hc.clocked, hc.rated⟩
  | configureSampleClockIn | configureSampleClockOut =>
    refine withoutProgram (h.modifyCard fun c _ hc => ?_)
    exact ⟨hc.exclusive, hc.oneWay, hc.clocked, hc.rated⟩
  | setWriteTimeout =>
    exact h.modifyCard fun c _ hc => ⟨hc.exclusive, hc.oneWay, hc.clocked, hc.rated⟩
  | @exportRefClock card terminal rate acknowledged free =>
    have hfree : ∀ p, some (card, terminal) = some p → checkNewProvider r p.1 = .ok () := by
      rintro _ ⟨⟩
      exact free
    have hprovides : (Session.handOver (some (card, terminal)) r).roles.isProvider card = true :=
      beq_self_eq_true _
    refine withoutProgram ((h.handOver sound hfree).modifyCard fun c _ hc => ?_)
    rw [hprovides] at hc ⊢
    refine ⟨hc.exclusive, hc.oneWay, fun _ => rfl, ?_⟩
    rintro _ ⟨⟩
    exact .inr ⟨rfl, acknowledged⟩
  | importRefClock rate free =>
    refine withoutProgram (h.modifyCard fun c _ hc => ?_)
    exact ⟨by simp [free], hc.oneWay, fun _ => rfl, fun _ _ => .inl rfl⟩
  | clearRefClockIn card =>
    refine h.modifyCard fun c _ hc => ?_
    exact ⟨fun _ => rfl, hc.oneWay, by simp, by simp⟩
  | @setStartsLast card known =>
    exact ⟨fun n hn => Table.contains_iff.mp (known n hn), h.provider, h.cards⟩
  | setProvider free => exact h.handOver sound free
  | resetCard name =>
    have hnames : (r.modifyCard name Card.reset).cards.names = r.cards.names :=
      r.cards.names_modify name _
    constructor
    case last => exact hnames ▸ h.last
    case provider =>
      intro n hn
      exact hnames ▸ h.provider n (Roles.without_isProvider.mp hn).1
    case cards =>
      intro e he
      obtain ⟨old, hold, rfl⟩ := List.mem_map.mp he
      split
      case isTrue => exact .fresh _
      case isFalse hne =>
        have hother : old.1 ≠ name := by simpa using hne
        have hrole : (r.roles.without name).isProvider old.1 = r.roles.isProvider old.1 :=
          Roles.isProvider_without hother
        exact hrole ▸ h.cards old hold
  | clearEdits =>
    refine withoutProgram (h.of_names rfl (r.cards.names_map _) fun e he => ?_)
    obtain ⟨d, hd, rfl⟩ := List.mem_map.mp he
    exact h.cards d hd
  | compile _ same => exact h.of_unmarked same

theorem checkLast (h : r.Tied) : r.checkLast = .ok () := by
  unfold Registry.checkLast
  cases hlast : r.roles.startsLast with
  | none => rfl
  | some name => exact if_pos (Table.contains_iff.mpr (h.last name hlast))

theorem checkProvider (h : r.Tied) : r.checkProvider = .ok () := by
  unfold Registry.checkProvider
  cases hprovider : r.roles.provider with
  | none => rfl
  | some p =>
    have hprovides : r.roles.isProvider p.1 = true := by simp [Roles.isProvider, hprovider]
    obtain ⟨e, he, hname⟩ := List.mem_map.mp (h.provider p.1 hprovides)
    obtain ⟨c, hc⟩ := Table.exists_get? he
    rw [hname] at hc
    have himports : c.sync.refClockIn = none :=
      (h.cards _ (Table.get?_mem hc)).exclusive hprovides
    simp [hc, himports]

theorem checkRoles (h : r.Tied) : r.checkRoles = .ok () := by
  rw [Registry.checkRoles, h.checkLast, h.checkProvider]
  rfl

end Tied

/-- In every registry that operations lead to, done or failed, roles go to cards that are
registered and agree with the settings of all cards. So checking the roles never fails. -/
theorem Reached.roles_tied (h : r.Reached) : r.Tied ∧ r.checkRoles = .ok () := by
  have htied : r.Tied :=
    (h.keep Tied .empty fun _ _ _ sound hchange ih => ih.change sound hchange).2
  exact ⟨htied, htied.checkRoles⟩

/-- The second card imports the clock of the first one, and takes over as the provider. It is
refused as long as it imports. -/
def clockHistory : List Operation :=
  [.addCard "Dev1" .analog 1000, .addCard "Dev2" .digital 1000, .setStartsLast (some "Dev1"),
    .configureRefClock "Dev1" "PFI1" 1e7 true, .configureRefClock "Dev2" "PFI1" 1e7 false,
    .setProvider (some ("Dev2", "PFI2")), .clearRefClockIn "Dev2",
    .configureRefClock "Dev2" "PFI2" 1e7 true]

theorem clockHistory_tied :
    let r := (Session.operate {} clockHistory).registry
    r.roles.provider = some ("Dev2", "PFI2") ∧ r.Tied ∧ r.checkRoles = .ok () :=
  ⟨by decide +kernel, Reached.roles_tied (Reached.empty.operate (s := {}) clockHistory)⟩

end Registry

end Sequencer
