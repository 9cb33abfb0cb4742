import Sequencer.Proofs.Session.Effects

namespace Sequencer

/-- An output of a device: its level at rest, and what it was told to play. -/
structure Output where
  idle : Float
  instrs : List Instruction := []

/-- A device as the calls leave it. No call tells it the rate of a reference clock. -/
structure Device where
  kind : CardKind
  rate : Float
  outputs : Table Output := {}
  sync : SyncSettings := {}

namespace Device

def addOutput (name : String) (idle : Float) (d : Device) : Device :=
  { d with outputs := d.outputs.put name { idle } }

def emit (output : String) (i : Instruction) (d : Device) : Device :=
  { d with outputs := d.outputs.modify output fun o => { o with instrs := o.instrs ++ [i] } }

def clear (d : Device) : Device :=
  { d with outputs := d.outputs.map fun o => { o with instrs := [] } }

def tie (f : SyncSettings → SyncSettings) (d : Device) : Device := { d with sync := f d.sync }

end Device

/-- What an accepted call does to the devices. -/
def Call.replay (ds : Table Device) : Call → Table Device
  | addAnalogDevice name rate => ds.put name { kind := .analog, rate }
  | addDigitalDevice name rate => ds.put name { kind := .digital, rate }
  | addAnalogChannel device id idle => ds.modify device (·.addOutput (Naming.analogName id) idle)
  | addDigitalChannel device port line idle =>
    ds.modify device (·.addOutput (Naming.digitalName port line) (Line.level idle))
  | emit device channel i => ds.modify device (·.emit channel i)
  | clearEdits => ds.map (·.clear)
  | setStartTrigIn device terminal =>
    ds.modify device (·.tie fun s => { s with startTrigIn := terminal })
  | setStartTrigOut device terminal =>
    ds.modify device (·.tie fun s => { s with startTrigOut := terminal })
  | setSampleClockIn device terminal =>
    ds.modify device (·.tie fun s => { s with sampleClockIn := terminal })
  | setSampleClockOut device terminal =>
    ds.modify device (·.tie fun s => { s with sampleClockOut := terminal })
  | setRefClockIn device terminal =>
    ds.modify device (·.tie fun s => { s with refClockIn := terminal })
  | setWriteTimeout device timeout =>
    ds.modify device (·.tie fun s => { s with writeTimeout := timeout })
  | resetDevice name => ds.modify name fun d => { d.clear with sync := {} }
  | compile _ => ds
  -- runs leave the devices as they are
  | connect .. | disconnect .. | configureRun .. | start _ | streamRun .. | closeRun _ => ds

/-- The devices after these calls. -/
def Device.after (cs : List Call) (ds : Table Device) : Table Device := cs.foldl Call.replay ds

/-- Compiling is nothing to the devices. -/
theorem Device.after_compile {cs : List Call} (h : ∀ c ∈ cs, ∃ stop, c = .compile stop)
    (ds : Table Device) : Device.after cs ds = ds := by
  induction cs with
  | nil => rfl
  | cons c cs ih =>
    obtain ⟨stop, rfl⟩ := h c List.mem_cons_self
    exact ih fun c hc => h c (List.mem_cons_of_mem _ hc)

/-- The level of a digital line is told as on or off. -/
theorem Line.level_idle {line : Line} (digital : line.isDigital = true) (registered : Float) :
    Line.level (line.idle registered != 0) = line.idle registered := by
  have hlevel : ∀ on, Line.level (Line.level on != 0) = Line.level on := by
    intro on
    cases on <;> rfl
  cases line with
  | analog => cases digital
  | digital | inverted => exact hlevel _

namespace Table

variable {α β γ δ : Type}

/-- The same names in the same order, with related entries. -/
def Agree (rel : α → β → Prop) (t : Table α) (u : Table β) : Prop :=
  List.Forall₂ (fun e f => f.1 = e.1 ∧ rel e.2 f.2) t.entries u.entries

variable {rel : α → β → Prop} {t : Table α} {u : Table β}

theorem Agree.names (h : t.Agree rel u) : u.names = t.names := by
  have hnames : List.Forall₂ (· = ·) (t.entries.map (·.1)) (u.entries.map (·.1)) := by
    apply List.forall₂_map_left_iff.mpr
    apply List.forall₂_map_right_iff.mpr
    exact h.imp fun e f he => he.1.symm
  exact ((congrFun₂ List.forall₂_eq_eq_eq _ _).mp hnames).symm

theorem Agree.map {rel' : γ → δ → Prop} {f : α → γ} {g : β → δ} (h : t.Agree rel u)
    (hfg : ∀ v w, rel v w → rel' (f v) (g w)) : (t.map f).Agree rel' (u.map g) := by
  apply List.forall₂_map_left_iff.mpr
  apply List.forall₂_map_right_iff.mpr
  exact h.imp fun e d he => ⟨he.1, hfg _ _ he.2⟩

theorem Agree.modify {name : String} {f : α → α} {g : β → β} (h : t.Agree rel u)
    (hfg : ∀ v w, (name, v) ∈ t.entries → rel v w → rel (f v) (g w)) :
    (t.modify name f).Agree rel (u.modify name g) := by
  apply List.forall₂_map_left_iff.mpr
  apply List.forall₂_map_right_iff.mpr
  have hlisted := (List.forall₂_and_left _ _).mpr ⟨fun e he => he, h⟩
  refine hlisted.imp fun e d ⟨he, hname, hrel⟩ => ?_
  rw [hname]
  split
  case isTrue heq =>
    obtain rfl : e.1 = name := beq_iff_eq.mp heq
    exact ⟨rfl, hfg _ _ he hrel⟩
  case isFalse => exact ⟨hname, hrel⟩

/-- A change on one side that the relation does not see. -/
theorem Agree.modifyLeft {name : String} {f : α → α} (h : t.Agree rel u)
    (hf : ∀ v w, rel v w → rel (f v) w) : (t.modify name f).Agree rel u := by
  apply List.forall₂_map_left_iff.mpr
  refine h.imp fun e d he => ?_
  split
  · exact ⟨he.1, hf _ _ he.2⟩
  · exact he

theorem Agree.put {name : String} {v : α} {w : β} (h : t.Agree rel u)
    (free : t.contains name = false) (hrel : rel v w) :
    (t.put name v).Agree rel (u.put name w) := by
  have hfree : u.contains name = false := by rwa [contains, h.names]
  have ht : (t.put name v).entries = t.entries ++ [(name, v)] := by simp [Table.put, free]
  have hu : (u.put name w).entries = u.entries ++ [(name, w)] := by simp [Table.put, hfree]
  rw [Agree, ht, hu]
  exact List.rel_append h (.cons ⟨rfl, hrel⟩ .nil)

end Table

/-- The output is at the idle level of the channel, and plays its instructions in some order. -/
structure Timeline.Played (t : Timeline) (o : Output) : Prop where
  idle : o.idle = t.idle
  instrs : o.instrs.Perm (t.bookings.map (·.instr))

namespace Timeline.Played

variable {t : Timeline} {o : Output}

theorem insert (h : t.Played o) (tidy : t.Tidy) {b : Booking} (placed : t.place b.instr = .ok b) :
    (t.insert b).Played { o with instrs := o.instrs ++ [b.instr] } := by
  obtain ⟨first, stop, -, hb, -⟩ := place_eq_ok_iff.mp placed
  have hseq : b.seq = t.nextSeq := congrArg Booking.seq hb
  have hnew : (o.instrs ++ [b.instr]).Perm ((b :: t.bookings).map (·.instr)) :=
    (List.perm_append_singleton _ _).trans (h.instrs.cons _)
  exact ⟨h.idle, hnew.trans ((tidy.insert_perm hseq).map _).symm⟩

theorem clear (h : t.Played o) : t.clear.Played { o with instrs := [] } := by
  unfold Timeline.clear
  split
  case isTrue hempty => exact ⟨h.idle, by simp [List.isEmpty_iff.mp hempty]⟩
  case isFalse => exact ⟨h.idle, by simp⟩

theorem unmarked_iff : t.unmarked.Played o ↔ t.Played o :=
  ⟨fun h => ⟨h.idle, h.instrs⟩, fun h => ⟨h.idle, h.instrs⟩⟩

end Timeline.Played

/-- The device has the channels of the card, and was told of all its ties. -/
structure Card.Mirrored (c : Card) (d : Device) : Prop where
  kind : d.kind = c.kind
  rate : d.rate = c.rate
  channels : c.channels.Agree Timeline.Played d.outputs
  sync : d.sync = { c.sync with refClockRate := none }

namespace Card.Mirrored

variable {c : Card} {d : Device}

theorem addChannel (h : c.Mirrored d) {name : String} {line : Line} {registered : Float} {c' : Card}
    (added : c.addChannel name line registered = .ok c') :
    c'.Mirrored (d.addOutput name (line.idle registered)) := by
  obtain ⟨-, hfree, rfl⟩ := addChannel_eq_ok added
  exact ⟨h.kind, h.rate, h.channels.put hfree ⟨rfl, .nil⟩, h.sync⟩

theorem clearEdits (h : c.Mirrored d) : c.clearEdits.Mirrored d.clear :=
  ⟨h.kind, h.rate, h.channels.map fun _ _ ht => ht.clear, h.sync⟩

theorem reset (h : c.Mirrored d) : c.reset.Mirrored { d.clear with sync := {} } :=
  ⟨h.kind, h.rate, h.clearEdits.channels, rfl⟩

theorem unmarked_iff : c.unmarked.Mirrored d ↔ c.Mirrored d := by
  have hchannels : (c.channels.map Timeline.unmarked).Agree Timeline.Played d.outputs ↔
      c.channels.Agree Timeline.Played d.outputs := by
    unfold Table.Agree Table.map
    simp only [List.forall₂_map_left_iff, Timeline.Played.unmarked_iff]
  exact ⟨fun h => ⟨h.kind, h.rate, hchannels.mp h.channels, h.sync⟩,
    fun h => ⟨h.kind, h.rate, hchannels.mpr h.channels, h.sync⟩⟩

end Card.Mirrored

namespace Registry

open Session

theorem modifySync_modifySync (r : Registry) (card : String) (f g : SyncSettings → SyncSettings) :
    (r.modifySync card f).modifySync card g = r.modifySync card (g ∘ f) :=
  congrArg (fun cards => { r with cards }) (r.cards.modify_modify card
    (fun c => { c with sync := f c.sync }) fun c => { c with sync := g c.sync })

/-- Every card has a device that mirrors it. There may be devices of cards that were removed. -/
def Mirrored (r : Registry) (ds : Table Device) : Prop :=
  ∀ e ∈ r.cards.entries, ∃ d, ds.get? e.1 = some d ∧ e.2.Mirrored d

namespace Mirrored

variable {r r' : Registry} {ds : Table Device}

theorem of_cards (h : r.Mirrored ds) (hcards : r'.cards = r.cards) : r'.Mirrored ds := by
  unfold Mirrored
  rwa [hcards]

theorem withoutProgram (h : r.Mirrored ds) : r.withoutProgram.Mirrored ds := h

/-- The card and its device change together. -/
theorem modify (h : r.Mirrored ds) {name : String} {f : Card → Card} {g : Device → Device}
    (hfg : ∀ c d, (name, c) ∈ r.cards.entries → c.Mirrored d → (f c).Mirrored (g d)) :
    (r.modifyCard name f).Mirrored (ds.modify name g) := by
  intro e he
  obtain ⟨old, hold, rfl⟩ := List.mem_map.mp he
  obtain ⟨d, hd, hmirrored⟩ := h old hold
  have hget := ds.get?_modify name g old.1
  split
  case isTrue heq =>
    obtain rfl : old.1 = name := beq_iff_eq.mp heq
    rw [if_pos rfl, hd] at hget
    exact ⟨g d, hget, hfg _ _ hold hmirrored⟩
  case isFalse hne =>
    rw [if_neg (by simpa using hne), hd] at hget
    exact ⟨d, hget, hmirrored⟩

/-- A change that devices do not see. -/
theorem modifyCard (h : r.Mirrored ds) {name : String} {f : Card → Card}
    (hf : ∀ c d, c.Mirrored d → (f c).Mirrored d) : (r.modifyCard name f).Mirrored ds := by
  intro e he
  obtain ⟨old, hold, rfl⟩ := List.mem_map.mp he
  obtain ⟨d, hd, hmirrored⟩ := h old hold
  split
  · exact ⟨d, hd, hf _ _ hmirrored⟩
  · exact ⟨d, hd, hmirrored⟩

theorem tie (h : r.Mirrored ds) (card : String) {f g : SyncSettings → SyncSettings}
    (hfg : ∀ s : SyncSettings,
      g { s with refClockRate := none } = { f s with refClockRate := none }) :
    (r.modifySync card f).Mirrored (ds.modify card (·.tie g)) :=
  h.modify fun c d _ hmirrored => ⟨hmirrored.kind, hmirrored.rate, hmirrored.channels, by
    rw [Device.tie, hmirrored.sync, hfg]⟩

theorem handOver (h : r.Mirrored ds) (provider : Option (String × String)) :
    (handOver provider r).Mirrored ds := by
  have hrelease : (release (provider.map (·.1)) r).Mirrored ds := by
    rcases release_cases (provider.map (·.1)) r with heq | ⟨card, heq⟩ <;> rw [heq]
    · exact h
    · exact h.modifyCard fun c d hmirrored =>
        ⟨hmirrored.kind, hmirrored.rate, hmirrored.channels, hmirrored.sync⟩
  exact hrelease.of_cards rfl

theorem of_unmarked (h : r.Mirrored ds) (hr : r'.unmarked = r.unmarked) : r'.Mirrored ds := by
  have hcards : r'.cards.map Card.unmarked = r.cards.map Card.unmarked := congrArg Registry.cards hr
  intro e he
  obtain ⟨old, hold, hkey, hsame⟩ := Table.exists_of_map_eq hcards he
  obtain ⟨d, hd, hmirrored⟩ := h old hold
  refine ⟨d, hkey ▸ hd, Card.Mirrored.unmarked_iff.mp ?_⟩
  rw [← hsame]
  exact Card.Mirrored.unmarked_iff.mpr hmirrored

theorem addCard (h : r.Mirrored ds) {name : String} (kind : CardKind) (rate : Float)
    (free : r.cards.contains name = false) :
    ({ r with cards := r.cards.put name { name, kind, rate } } : Registry).Mirrored
      (ds.put name { kind, rate }) := by
  intro e he
  have hget := ds.get?_put name { kind, rate } e.1
  rcases Table.mem_put he with hold | rfl
  · have hne : e.1 ≠ name := Table.ne_of_mem hold free
    obtain ⟨d, hd, hmirrored⟩ := h e hold
    rw [if_neg hne] at hget
    exact ⟨d, hget.trans hd, hmirrored⟩
  · rw [if_pos rfl] at hget
    exact ⟨_, hget, rfl, rfl, .nil, rfl⟩

theorem clearEdits (h : r.Mirrored ds) :
    ({ r with cards := r.cards.map Card.clearEdits } : Registry).Mirrored
      (ds.map Device.clear) := by
  intro e he
  obtain ⟨old, hold, rfl⟩ := List.mem_map.mp he
  obtain ⟨d, hd, hmirrored⟩ := h old hold
  exact ⟨d.clear, by rw [Table.get?_map, hd, Option.map_some], hmirrored.clearEdits⟩

/-- A registered channel is the same for the device, so that the instruction goes to both. -/
theorem addInstruction (h : r.Mirrored ds) (sound : r.Sound) {card channel : String} {t : Timeline}
    {b : Booking} (known : r.channel? card channel = .ok t) (placed : t.place b.instr = .ok b) :
    (r.modifyChannel card channel (·.insert b)).Mirrored
      (ds.modify card (·.emit channel b.instr)) := by
  refine h.modify fun c d hc hmirrored => ?_
  refine ⟨hmirrored.kind, hmirrored.rate, hmirrored.channels.modify fun u o hu hplayed => ?_,
    hmirrored.sync⟩
  obtain rfl : u = t := Except.ok.inj ((sound.channel?_of_mem hc hu).symm.trans known)
  exact hplayed.insert ((sound.whole _ hc).channels _ hu).tidy placed

theorem addChannel (h : r.Mirrored ds) (sound : r.Sound) {card name : String} {line : Line}
    {registered : Float} {c c' : Card} (known : r.card? card = .ok c)
    (added : c.addChannel name line registered = .ok c') :
    (r.modifyCard card fun _ => c').Mirrored
      (ds.modify card (·.addOutput name (line.idle registered))) := by
  refine h.modify fun u d hu hmirrored => ?_
  have hget := Table.get?_of_mem sound.distinct hu
  obtain rfl : u = c := by simpa [card?, hget] using known
  exact hmirrored.addChannel added

/-- The devices follow every change that the backend is told of. -/
theorem change {cs : List Call} (h : r.Mirrored ds) (sound : r.Sound) (hchange : r.Change cs r') :
    r'.Mirrored (Device.after cs ds) := by
  cases hchange with
  | @addCard name kind rate free =>
    cases kind with
    | analog => exact (h.addCard .analog rate free).withoutProgram
    | digital => exact (h.addCard .digital rate free).withoutProgram
  | removeCard name => exact fun e he => h e (Table.mem_erase.mp he).1
  | nameCard => exact h.modifyCard fun c d hc => ⟨hc.kind, hc.rate, hc.channels, hc.sync⟩
  | nameChannel =>
    exact h.modifyCard fun c d hc =>
      ⟨hc.kind, hc.rate, hc.channels.modifyLeft fun t o ht => ⟨ht.idle, ht.instrs⟩, hc.sync⟩
  | addAnalogChannel known added => exact (h.addChannel sound known added).withoutProgram
  | @addDigitalChannel card port number on line c c' known digital added =>
    have hadded := (h.addChannel sound known added).withoutProgram
    -- the level at rest, which the device is told as on or off
    rw [← Line.level_idle digital] at hadded
    exact hadded
  | addInstruction known playable placed =>
    exact (h.addInstruction sound known placed).withoutProgram
  | @configureStartTrig card trigIn trigOut oneWay =>
    have hin := h.tie card (f := fun s => { s with startTrigIn := trigIn })
      (g := fun s => { s with startTrigIn := trigIn }) fun _ => rfl
    have hout := hin.tie card (f := fun s => { s with startTrigOut := trigOut })
      (g := fun s => { s with startTrigOut := trigOut }) fun _ => rfl
    rw [modifySync_modifySync] at hout
    exact hout.withoutProgram
  | configureSampleClockIn | configureSampleClockOut | importRefClock =>
    exact withoutProgram (h.tie _ fun _ => rfl)
  | clearRefClockIn | setWriteTimeout => exact h.tie _ fun _ => rfl
  | exportRefClock =>
    refine withoutProgram ((h.handOver _).modifyCard fun c d hc => ?_)
    exact ⟨hc.kind, hc.rate, hc.channels, hc.sync⟩
  | setStartsLast => exact h.of_cards rfl
  | setProvider => exact h.handOver _
  | resetCard name =>
    have hreset : (r.modifyCard name Card.reset).Mirrored
        (ds.modify name fun d => { d.clear with sync := {} }) :=
      h.modify fun c d _ hc => hc.reset
    exact hreset.of_cards rfl
  | clearEdits => exact h.clearEdits.withoutProgram
  | compile calls same =>
    rw [Device.after_compile calls]
    exact h.of_unmarked same

end Mirrored

theorem Mirrored.changes {r r' : Registry} {ds : Table Device} {cs : List Call}
    (h : r.Mirrored ds) (sound : r.Sound) (hchanges : r.Changes cs r') :
    r'.Sound ∧ r'.Mirrored (Device.after cs ds) := by
  induction hchanges with
  | none => exact ⟨sound, h⟩
  | snoc before hchange ih =>
    rw [Device.after, List.foldl_append]
    exact ⟨ih.1.change hchange, ih.2.change ih.1 hchange⟩

end Registry

namespace Session

/-- What comes about from a session without cards, with all the calls that the backend accepted on
the way. -/
inductive Heard : Session → List Call → Prop
  | start (b : Backend) (log : List Notice) : Heard ⟨{}, b, log⟩ []
  /-- The backend comes to refuse other calls than before. -/
  | refuse {s : Session} {cs : List Call} (before : Heard s cs) (failing : List Call) :
    Heard { s with backend := { s.backend with failing } } cs
  /-- Operations that make several calls ahead of their change do not fail in between. -/
  | operate {s : Session} {cs : List Call} (before : Heard s cs) (op : Operation)
    (whole : op.callsAhead = true → (op.run.run.run s).1.isOk = false →
      s.backend.acceptedSince (op.run.run.run s).2.backend = []) :
    Heard (op.run.run.run s).2 (cs ++ s.backend.acceptedSince (op.run.run.run s).2.backend)

/-- The backend and the registry agree. At the end of any history, on a backend that refuses
whatever it likes, the calls that were accepted make up a device for every card: with the same
channels at the same levels at rest, on each of them the instructions of its timeline, and with the
same ties to other cards. Left out are configuring a start trigger and adding resets, when they fail
after one of their own calls was accepted. -/
theorem Heard.devices_agree {s : Session} {cs : List Call} (h : s.Heard cs) :
    s.registry.Sound ∧ s.registry.Mirrored (Device.after cs {}) := by
  induction h with
  | start b log => exact ⟨.empty, by simp [Registry.Mirrored]⟩
  | refuse before failing ih => exact ih
  | @operate s cs before op whole ih =>
    have hchanges : ∀ {ds r'}, s.registry.Changes ds r' →
        r'.Sound ∧ r'.Mirrored (Device.after (cs ++ ds) {}) := by
      intro ds r' hchanges
      rw [Device.after, List.foldl_append]
      exact ih.2.changes ih.1 hchanges
    have hend := op.run_changes (b := s.backend) ih.1 s (.start s)
    rcases hrun : op.run.run.run s with ⟨result, s'⟩
    rw [hrun] at hend whole
    cases result with
    | ok a =>
      obtain ⟨ds, r', hds, rfl, htold⟩ := hend
      rw [htold.acceptedSince]
      exact hchanges hds
    | error e =>
      obtain ⟨ds, r', hds, rfl, htold⟩ | ⟨hahead, ds, hsame, htold⟩ := hend
      · rw [htold.acceptedSince]
        exact hchanges hds
      · rw [whole hahead rfl, List.append_nil, hsame]
        exact ih

/-- A level is refused once, and a trigger is exported. -/
theorem exportedTrigger_agrees : ∃ (s : Session) (cs : List Call), s.Heard cs ∧
    s.registry.cards.names = ["Dev1"] ∧ cs.length = 5 ∧
    s.registry.Sound ∧ s.registry.Mirrored (Device.after cs {}) := by
  let level : Instruction := .lasting 0 0.5 false (.constant 1)
  have hcard := (Heard.start {} []).operate (.addCard "Dev1" .analog 1000) nofun
  have hchannel := hcard.operate (.addAnalogChannel "Dev1" 0 0) nofun
  have hrefused := (hchannel.refuse [.emit "Dev1" "ao0" level]).operate
    (.addInstruction "Dev1" "ao0" level) nofun
  have hlevel := (hrefused.refuse []).operate (.addInstruction "Dev1" "ao0" level) nofun
  have htrigger := hlevel.operate (.configureStartTrig "Dev1" "PFI0" true) (by decide +kernel)
  exact ⟨_, _, htrigger, by decide +kernel, by decide +kernel, htrigger.devices_agree⟩

end Session

end Sequencer
