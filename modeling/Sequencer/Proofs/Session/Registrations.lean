import Sequencer.Proofs.Card.Addresses
import Sequencer.Proofs.Session.Effects

namespace Sequencer

namespace Line

theorem level_beq_zero (on : Bool) : (level on == 0) = !on := by
  cases on <;> decide +kernel

theorem level_ne_zero (on : Bool) : (level on != 0) = on := by
  simp [bne, level_beq_zero]

theorem isFinite_level (on : Bool) : (level on).isFinite = true := by
  cases on <;> decide +kernel

/-- An inverted line rests at the other level. -/
theorem idle_level (on inverted : Bool) :
    (if inverted then Line.inverted else .digital).idle (level on) = level (on != inverted) := by
  cases inverted
  · simp [idle, level_ne_zero]
  · simp [idle, level_beq_zero]

end Line

/-- A call that registers a channel. -/
inductive Registration where
  | analog (card : String) (id : Nat) (level : Float)
  | digital (card : String) (port line : Nat) (on inverted : Bool)
  | flat (card : String) (index linesPerPort : Nat) (on inverted : Bool)

namespace Registration

def operation : Registration → Operation
  | analog card id level => .addAnalogChannel card id level
  | digital card port line on inverted => .addDigitalChannel card port line on inverted
  | flat card index linesPerPort on inverted => .addFlatChannel card index linesPerPort on inverted

def card : Registration → String
  | analog card .. | digital card .. | flat card .. => card

/-- The kind of card that hosts the channel. -/
def kind : Registration → CardKind
  | analog .. => .analog
  | digital .. | flat .. => .digital

/-- A flat index has an address only if there are lines on a port. -/
def address? : Registration → Option Address
  | analog _ id _ => some (.analog id)
  | digital _ port line .. => some (.digital port line)
  | flat _ index linesPerPort .. =>
    (portLine? index linesPerPort).map fun (port, line) => .digital port line

/-- The kind of channel that is asked for. -/
def line : Registration → Line
  | analog .. => .analog
  | digital _ _ _ _ inverted | flat _ _ _ _ inverted => if inverted then .inverted else .digital

/-- The physical level at rest that is asked for. -/
def rest : Registration → Float
  | analog _ _ level => level
  | digital _ _ _ on inverted | flat _ _ _ on inverted => Line.level (on != inverted)

/-- What the channel is registered with: the level, or the logical state as one. -/
def registered : Registration → Float
  | analog _ _ level => level
  | digital _ _ _ on _ | flat _ _ _ on _ => Line.level on

theorem address?_flat_iff {card : String} {index linesPerPort port line : Nat}
    {on inverted : Bool} :
    (flat card index linesPerPort on inverted).address? = some (.digital port line) ↔
      port * linesPerPort + line = index ∧ line < linesPerPort := by
  rw [← portLine?_eq_some_iff]
  simp [address?]

theorem kind_of_address {g : Registration} {a : Address} (h : g.address? = some a) :
    a.kind = g.kind := by
  cases g with
  | analog | digital => exact Option.some.inj h ▸ rfl
  | flat =>
    obtain ⟨⟨port, line⟩, -, rfl⟩ := Option.map_eq_some_iff.mp h
    rfl

theorem idle_registered (g : Registration) : g.line.idle g.registered = g.rest := by
  cases g with
  | analog => rfl
  | digital _ _ _ on inverted | flat _ _ _ on inverted => exact Line.idle_level on inverted

/-- What the backend is asked to take. -/
def call (g : Registration) : Address → Call
  | .analog id => .addAnalogChannel g.card id g.rest
  | .digital port line => .addDigitalChannel g.card port line (g.rest != 0)

/-- The card is there and of the right kind, an analog level at rest is finite, and the backend
takes the channel. -/
structure Admitted (s : Session) (g : Registration) : Prop where
  hosted : ∃ c, s.registry.card? g.card = .ok c ∧ c.kind = g.kind
  finite : g.rest.isFinite = true
  accepted : ∀ a, g.address? = some a → s.backend.accepts (g.call a) = true

/-- The call is done and gives the handle of this address. -/
def Registers (s : Session) (g : Registration) (card : String) (a : Address) : Prop :=
  g.card = card ∧ g.address? = some a ∧
    (g.operation.run.run.run s).1 = .ok (.channel card a.name)

end Registration

namespace Session

open Job Triple

/-- The session after calls one after another, done or failed. -/
def register (s : Session) (gs : List Registration) : Session := s.operate (gs.map (·.operation))

/-- One of the calls registered this address on the card. -/
def Registered (s : Session) (gs : List Registration) (card : String) (a : Address) : Prop :=
  ∃ before g after, gs = before ++ g :: after ∧ g.Registers (s.register before) card a

end Session

namespace Registry

/-- The channel is there. -/
def Knows (r : Registry) (card channel : String) : Prop := ∃ t, r.channel? card channel = .ok t

/-- Cards keep their names and kinds, and channels stay as they are. -/
structure Grown (r r' : Registry) : Prop where
  cards : ∀ card c, r.card? card = .ok c →
    ∃ c', r'.card? card = .ok c' ∧ c'.name = c.name ∧ c'.kind = c.kind
  channels : ∀ card channel t, r.channel? card channel = .ok t → r'.channel? card channel = .ok t

variable {r r' r'' : Registry}

theorem Grown.refl (r : Registry) : r.Grown r :=
  ⟨fun _ c hc => ⟨c, hc, rfl, rfl⟩, fun _ _ _ ht => ht⟩

theorem Grown.trans (h : r.Grown r') (h' : r'.Grown r'') : r.Grown r'' := by
  refine ⟨fun card c hc => ?_, fun card channel t ht => h'.channels _ _ _ (h.channels _ _ _ ht)⟩
  obtain ⟨c', hc', hname, hkind⟩ := h.cards card c hc
  obtain ⟨c'', hc'', hname', hkind'⟩ := h'.cards card c' hc'
  exact ⟨c'', hc'', hname'.trans hname, hkind'.trans hkind⟩

theorem Grown.withoutProgram (h : r.Grown r') : r.Grown r'.withoutProgram :=
  ⟨h.cards, h.channels⟩

section Host

variable {card name : String} {c : Card} {line : Line} {registered : Float}

/-- The new channel is found, and so is every other one. -/
theorem channel?_host (known : r.card? card = .ok c) (free : c.channels.contains name = false)
    {card' name' : String} {t : Timeline} :
    (r.modifyCard card fun _ => c.host name line registered).channel? card' name' = .ok t ↔
      r.channel? card' name' = .ok t ∨ (card' = card ∧ name' = name) ∧
        t = { name, line, rate := c.rate, registered } := by
  have hput := c.channels.get?_put name { name, line, rate := c.rate, registered } name'
  rw [channel?_eq_ok_iff, channel?_eq_ok_iff, modifyCard, Table.get?_modify]
  by_cases hcard : card' = card
  · rw [if_pos hcard, hcard, card?_eq_ok_iff.mp known]
    by_cases hname : name' = name
    · rw [if_pos hname] at hput
      simp [hname, Table.get?_eq_none_iff.mpr free, Card.host, hname ▸ hput, eq_comm]
    · rw [if_neg hname] at hput
      simp [hname, Card.host, hput]
  · simp [hcard]

theorem knows_host (known : r.card? card = .ok c) (free : c.channels.contains name = false)
    {card' name' : String} :
    (r.modifyCard card fun _ => c.host name line registered).Knows card' name' ↔
      r.Knows card' name' ∨ card' = card ∧ name' = name := by
  simp only [Knows, channel?_host known free, exists_or, exists_and_left, exists_eq, and_true]

theorem knows_iff_contains (known : r.card? card = .ok c) :
    r.Knows card name ↔ c.channels.contains name = true := by
  simp only [Knows, channel?_eq_ok_iff, card?_eq_ok_iff.mp known, Option.some.injEq,
    exists_eq_left', ← Option.isSome_iff_exists]
  rw [Option.isSome_iff_ne_none, ← Bool.not_eq_false, ne_eq, Table.get?_eq_none_iff]

theorem grown_host (known : r.card? card = .ok c) (free : c.channels.contains name = false) :
    r.Grown (r.modifyCard card fun _ => c.host name line registered) := by
  refine ⟨fun card' d hd => ?_, fun _ _ _ ht => (channel?_host known free).mpr (.inl ht)⟩
  have hget := r.cards.get?_modify card (fun _ => c.host name line registered) card'
  rw [card?_eq_ok_iff.mp hd] at hget
  by_cases hcard : card' = card
  · subst card'
    obtain rfl : d = c := Except.ok.inj (hd.symm.trans known)
    rw [if_pos rfl] at hget
    exact ⟨_, card?_eq_ok_iff.mpr hget, rfl, rfl⟩
  · rw [if_neg hcard] at hget
    exact ⟨d, card?_eq_ok_iff.mpr hget, rfl, rfl⟩

end Host

end Registry

/-- Nothing that is registered stands in the way of a call but what it registers itself. -/
theorem Registration.Admitted.after {s s' : Session} {g : Registration}
    (h : g.Admitted s) (grown : s.registry.Grown s'.registry)
    (failing : s'.backend.failing = s.backend.failing) : g.Admitted s' := by
  obtain ⟨⟨c, hc, hkind⟩, hfinite, haccepted⟩ := h
  obtain ⟨c', hc', -, hkind'⟩ := grown.cards g.card c hc
  refine ⟨⟨c', hc', hkind'.trans hkind⟩, hfinite, fun a ha => ?_⟩
  rw [Backend.accepts_congr failing]
  exact haccepted a ha

namespace Session

open Job Triple

variable {r : Registry} {b : Backend} {cs : List Call} {card name : String} {c : Card}

/-- What a channel goes through once the card is known to be of its kind. -/
theorem hostChannel_spec {line : Line} {registered : Float} {call : Call}
    (known : r.card? card = .ok c) (hosted : line.isDigital = (c.kind == .digital))
    (fits : c.kind.names name = true) (accepted : b.accepts call = true) :
    Triple (Since r b cs)
      (do ofExcept (c.checkName name); issue call; commitChannel card name line registered
          return name)
      (fun answer s => answer = name ∧ c.channels.contains name = false ∧
        Since (r.modifyCard card fun _ => c.host name line registered).withoutProgram b
          (cs ++ [call]) s)
      (fun e s => e = .duplicateChannel c.name name ∧ c.channels.contains name = true ∧
        Since r b cs s) := by
  rw [Card.checkName_eq fits]
  cases hfree : c.channels.contains name with
  | true => exact Triple.throw fun _ hs => ⟨rfl, rfl, hs⟩
  | false =>
    apply (issue_accepted accepted).bind
    intro _
    have hadd : c.addChannel name line registered = .ok (c.host name line registered) :=
      Card.addChannel_eq_ok_iff.mpr ⟨⟨hosted, fits, hfree⟩, rfl⟩
    apply (commitChannel_since known hadd).bind
    intro _
    exact Triple.pure fun _ hs => ⟨rfl, rfl, hs⟩

theorem addAnalogChannel_spec {id : Nat} {level : Float} (known : r.card? card = .ok c)
    (kind : c.kind = .analog) (finite : level.isFinite = true)
    (accepted : b.accepts (.addAnalogChannel card id level) = true) :
    Triple (Since r b cs) (addAnalogChannel card id level)
      (fun answer s => answer = Naming.analogName id ∧
        c.channels.contains (Naming.analogName id) = false ∧
        Since (r.modifyCard card fun _ =>
          c.host (Naming.analogName id) .analog level).withoutProgram b
          (cs ++ [.addAnalogChannel card id level]) s)
      (fun e s => e = .duplicateChannel c.name (Naming.analogName id) ∧
        c.channels.contains (Naming.analogName id) = true ∧ Since r b cs s) := by
  have hkind : ¬ (c.kind != .analog) = true := by simp [kind]
  have hfinite : ¬ (!level.isFinite) = true := by simp [finite]
  have hfits : c.kind.names (Naming.analogName id) = true :=
    kind ▸ Naming.isAnalog_analogName id
  unfold addAnalogChannel
  apply requireCard_known known
  rw [if_neg hkind, if_neg hfinite]
  exact hostChannel_spec known (by rw [kind]; rfl) hfits accepted

theorem addDigitalChannel_spec {port line : Nat} {on inverted : Bool}
    (known : r.card? card = .ok c) (kind : c.kind = .digital)
    (accepted : b.accepts
      (.addDigitalChannel card port line (Line.level (on != inverted) != 0)) = true) :
    Triple (Since r b cs) (addDigitalChannel card port line on inverted)
      (fun answer s => answer = Naming.digitalName port line ∧
        c.channels.contains (Naming.digitalName port line) = false ∧
        Since (r.modifyCard card fun _ => c.host (Naming.digitalName port line)
          (if inverted then .inverted else .digital) (Line.level on)).withoutProgram b
          (cs ++ [.addDigitalChannel card port line (Line.level (on != inverted) != 0)]) s)
      (fun e s => e = .duplicateChannel c.name (Naming.digitalName port line) ∧
        c.channels.contains (Naming.digitalName port line) = true ∧ Since r b cs s) := by
  have hkind : ¬ (c.kind != .digital) = true := by simp [kind]
  have hfits : c.kind.names (Naming.digitalName port line) = true :=
    kind ▸ Naming.isDigital_digitalName port line
  unfold addDigitalChannel
  apply requireCard_known known
  rw [if_neg hkind]
  rw [← Line.idle_level on inverted] at accepted ⊢
  exact hostChannel_spec known (by cases inverted <;> rw [kind] <;> rfl) hfits accepted

/-- A flat index is another way of saying port and line. -/
theorem addFlatChannel_eq {index linesPerPort port line : Nat}
    (split : portLine? index linesPerPort = some (port, line)) (card : String)
    (on inverted : Bool) :
    addFlatChannel card index linesPerPort on inverted =
      addDigitalChannel card port line on inverted := by
  rw [addFlatChannel, split]

/-- A call with an address registers its channel exactly if the name of the address is free. -/
theorem register_spec {g : Registration} {a : Address} (known : r.card? g.card = .ok c)
    (kind : c.kind = g.kind) (finite : g.rest.isFinite = true) (address : g.address? = some a)
    (accepted : b.accepts (g.call a) = true) :
    Triple (Since r b cs) g.operation.run
      (fun answer s => answer = .channel g.card a.name ∧ c.channels.contains a.name = false ∧
        Since (r.modifyCard g.card fun _ => c.host a.name g.line g.registered).withoutProgram b
          (cs ++ [g.call a]) s)
      (fun e s => e = .duplicateChannel c.name a.name ∧ c.channels.contains a.name = true ∧
        Since r b cs s) := by
  have hhandle : ∀ {j : Job String} {name : String} {s' : Session → Prop} {fault},
      Triple (Since r b cs) j (fun answer s => answer = name ∧ s' s) fault →
      Triple (Since r b cs) (do return Answer.channel g.card (← j))
        (fun answer s => answer = .channel g.card name ∧ s' s) fault := by
    intro j name s' fault h
    refine h.bind fun answer => Triple.pure ?_
    rintro s ⟨rfl, hs⟩
    exact ⟨rfl, hs⟩
  cases g with
  | analog card id level =>
    cases address
    exact hhandle (addAnalogChannel_spec known kind finite accepted)
  | digital card port line on inverted =>
    cases address
    exact hhandle (addDigitalChannel_spec known kind accepted)
  | flat card index linesPerPort on inverted =>
    obtain ⟨⟨port, line⟩, hsplit, rfl⟩ := Option.map_eq_some_iff.mp address
    have hspec : Triple (Since r b cs) _ _ _ :=
      hhandle (addDigitalChannel_spec known kind accepted)
    rwa [← addFlatChannel_eq hsplit] at hspec

/-- Without lines on a port there is nothing to register. -/
theorem register_none {g : Registration} (address : g.address? = none) (s : Session) :
    g.operation.run.run.run s = (.error (.range .linesPerPort), s) := by
  cases g with
  | analog | digital => cases address
  | flat card index linesPerPort on inverted =>
    have hsplit : portLine? index linesPerPort = none := Option.map_eq_none_iff.mp address
    have hthrow : addFlatChannel card index linesPerPort on inverted =
        MonadExcept.throw (.range .linesPerPort) := by
      rw [addFlatChannel, hsplit]
    simp only [Registration.operation, Operation.run, hthrow]
    rfl

/-- A call with an address leaves everything as it was, or lets its channel in. -/
theorem register_cases {s : Session} {g : Registration} {a : Address} (admitted : g.Admitted s)
    (known : s.registry.card? g.card = .ok c) (address : g.address? = some a) :
    let done := g.operation.run.run.run s
    done.2.backend.failing = s.backend.failing ∧
      (c.channels.contains a.name = true ∧ done.1 = .error (.duplicateChannel c.name a.name) ∧
          done.2.registry = s.registry ∨
        c.channels.contains a.name = false ∧ done.1 = .ok (.channel g.card a.name) ∧
          done.2.registry = (s.registry.modifyCard g.card fun _ =>
            c.host a.name g.line g.registered).withoutProgram) := by
  intro done
  obtain ⟨⟨c', hc', hkind⟩, hfinite, haccepted⟩ := admitted
  obtain rfl : c' = c := Except.ok.inj (hc'.symm.trans known)
  have hend := register_spec known hkind hfinite address (haccepted a address) s (.start s)
  rcases hrun : done with ⟨e | answer, s'⟩
  · rw [show g.operation.run.run.run s = _ from hrun] at hend
    obtain ⟨rfl, htaken, hregistry, htold⟩ := hend
    exact ⟨htold.1, .inl ⟨htaken, rfl, hregistry⟩⟩
  · rw [show g.operation.run.run.run s = _ from hrun] at hend
    obtain ⟨rfl, hfree, hregistry, htold⟩ := hend
    exact ⟨htold.1, .inr ⟨hfree, rfl, hregistry⟩⟩

/-- A call lets at most the channel of its address in. -/
theorem register_step {s : Session} {g : Registration} (admitted : g.Admitted s) :
    let done := g.operation.run.run.run s
    s.registry.Grown done.2.registry ∧ done.2.backend.failing = s.backend.failing ∧
      ∀ card a, done.2.registry.Knows card a.name ↔
        s.registry.Knows card a.name ∨ g.Registers s card a := by
  intro done
  cases ha : g.address? with
  | none =>
    have hrun : done = (.error (.range .linesPerPort), s) := register_none ha s
    rw [hrun]
    exact ⟨.refl _, rfl, fun card a => by simp [Registration.Registers, ha]⟩
  | some a =>
    obtain ⟨c, hc, -⟩ := admitted.hosted
    obtain ⟨hfailing, ⟨-, hresult, hregistry⟩ | ⟨hfree, hresult, hregistry⟩⟩ :=
      register_cases admitted hc ha
    · rw [hregistry]
      exact ⟨.refl _, hfailing, fun card a => by simp [Registration.Registers, hresult]⟩
    · have hregisters : ∀ card a', g.Registers s card a' ↔ card = g.card ∧ a'.name = a.name := by
        intro card a'
        constructor
        · rintro ⟨rfl, heq, -⟩
          exact ⟨rfl, congrArg Address.name (Option.some.inj (heq.symm.trans ha))⟩
        · rintro ⟨rfl, hname⟩
          obtain rfl := Address.name_injective hname
          exact ⟨rfl, ha, hresult⟩
      rw [hregistry]
      refine ⟨(Registry.grown_host hc hfree).withoutProgram, hfailing, fun card a' => ?_⟩
      rw [hregisters]
      exact Registry.knows_host hc hfree

theorem registered_cons {s : Session} {g : Registration} {gs : List Registration} {a : Address} :
    s.Registered (g :: gs) card a ↔
      g.Registers s card a ∨ Registered (g.operation.run.run.run s).2 gs card a := by
  constructor
  · rintro ⟨before, h, after, heq, hregisters⟩
    cases before with
    | nil =>
      obtain ⟨rfl, rfl⟩ := List.cons.inj heq
      exact .inl hregisters
    | cons _ before =>
      obtain ⟨rfl, rfl⟩ := List.cons.inj heq
      exact .inr ⟨before, h, after, rfl, hregisters⟩
  · rintro (hregisters | ⟨before, h, after, rfl, hregisters⟩)
    · exact ⟨[], g, gs, rfl, hregisters⟩
    · exact ⟨g :: before, h, after, rfl, hregisters⟩

/-- Whatever is on a card was there before, or was registered since. -/
theorem register_run {s : Session} {gs : List Registration} (admitted : ∀ g ∈ gs, g.Admitted s) :
    s.registry.Grown (s.register gs).registry ∧
      (s.register gs).backend.failing = s.backend.failing ∧
      ∀ card a, (s.register gs).registry.Knows card a.name ↔
        s.registry.Knows card a.name ∨ s.Registered gs card a := by
  induction gs generalizing s with
  | nil => exact ⟨.refl _, rfl, fun card a => by simp [Registered, register, operate]⟩
  | cons g gs ih =>
    obtain ⟨hadmitted, hadmitteds⟩ := List.forall_mem_cons.mp admitted
    obtain ⟨hgrown, hfailing, hknows⟩ := register_step hadmitted
    obtain ⟨hgrown', hfailing', hknows'⟩ := ih fun h hh => (hadmitteds h hh).after hgrown hfailing
    refine ⟨hgrown.trans hgrown', hfailing'.trans hfailing, fun card a => ?_⟩
    rw [registered_cons, ← or_assoc, ← hknows card a]
    exact hknows' card a

/-- Registering channels never takes one for another. Take cards without channels and any calls for
them, on cards of the right kind, with finite levels and a backend that accepts them. Whatever was
asked for before, the name that a call comes to has the form that its card expects. The call is
refused as a duplicate exactly if its address was registered on the card before, and is done
otherwise. Its handle leads to a channel of the kind and with the physical level at rest that were
asked for, then and after any later calls. A flat index stands for the one port and line that it is
made up of, so that no two of them share an address. -/
theorem registration_never_aliases {s : Session} (reached : s.registry.Reached)
    (blank : ∀ e ∈ s.registry.cards.entries, e.2.channels.entries = []) {gs : List Registration}
    {g : Registration} (admitted : ∀ h ∈ g :: gs, h.Admitted s) :
    let done := g.operation.run.run.run (s.register gs)
    (∀ a, g.address? = some a →
      (∃ c, (s.register gs).registry.card? g.card = .ok c ∧ c.kind.names a.name = true) ∧
      (done.1 = .error (.duplicateChannel g.card a.name) ↔ s.Registered gs g.card a) ∧
      (¬ s.Registered gs g.card a → done.1 = .ok (.channel g.card a.name))) ∧
    (∀ card name, done.1 = .ok (.channel card name) →
      ∃ t, t.line = g.line ∧ t.idle = g.rest ∧
        ∀ later : List Registration, (∀ h ∈ later, h.Admitted s) →
          (done.2.register later).registry.channel? card name = .ok t) ∧
    ∀ card index linesPerPort on inverted, 0 < linesPerPort →
      ∃ port line, (∀ port' line', port' * linesPerPort + line' = index ∧ line' < linesPerPort ↔
          port' = port ∧ line' = line) ∧
        (Registration.flat card index linesPerPort on inverted).operation.run =
          (Registration.digital card port line on inverted).operation.run ∧
        ∀ index', index' ≠ index →
          (Registration.flat card index' linesPerPort on inverted).address? ≠
            some (.digital port line) := by
  obtain ⟨hadmitted, hadmitteds⟩ := List.forall_mem_cons.mp admitted
  obtain ⟨hgrown, hfailing, hknows⟩ := register_run hadmitteds
  have hnow := hadmitted.after hgrown hfailing
  intro done
  refine ⟨fun a ha => ?_, fun card name hdone => ?_, ?_⟩
  · obtain ⟨c₀, hc₀, -⟩ := hadmitted.hosted
    obtain ⟨c, hc, hname, -⟩ := hgrown.cards g.card c₀ hc₀
    rw [(reached.sound.toNamed.card_name hc₀).2] at hname
    obtain ⟨c', hc', hkind⟩ := hnow.hosted
    obtain rfl : c' = c := Except.ok.inj (hc'.symm.trans hc)
    have hfits : c'.kind.names a.name = true := by
      rw [hkind, ← g.kind_of_address ha]
      exact a.names_name
    have hnone : ¬ s.registry.Knows g.card a.name := by
      rintro ⟨t, ht⟩
      obtain ⟨d, hd, hchannel⟩ := Registry.channel?_eq_ok_iff.mp ht
      have hmem := Table.get?_mem hchannel
      rw [blank _ (Table.get?_mem hd)] at hmem
      cases hmem
    have htaken : c'.channels.contains a.name = true ↔ s.Registered gs g.card a := by
      rw [← Registry.knows_iff_contains hc, hknows, or_iff_right hnone]
    rw [← htaken]
    refine ⟨⟨c', hc, hfits⟩, ?_⟩
    obtain ⟨-, ⟨hcontains, hresult, -⟩ | ⟨hfree, hresult, -⟩⟩ := register_cases hnow hc ha
    · rw [hname] at hresult
      exact ⟨iff_of_true hresult hcontains, fun h => absurd hcontains h⟩
    · have hdone : done.1 ≠ .error (.duplicateChannel g.card a.name) := by
        intro h
        cases h.symm.trans hresult
      exact ⟨iff_of_false hdone (by simp [hfree]), fun _ => hresult⟩
  · obtain ⟨c, hc, -⟩ := hnow.hosted
    cases ha : g.address? with
    | none =>
      have hrun : done = (.error (.range .linesPerPort), _) := register_none ha _
      rw [hrun] at hdone
      cases hdone
    | some a =>
      obtain ⟨hsame, ⟨-, hresult, -⟩ | ⟨hfree, hresult, hregistry⟩⟩ := register_cases hnow hc ha
      · cases hdone.symm.trans hresult
      · cases hdone.symm.trans hresult
        refine ⟨{ name := a.name, line := g.line, rate := c.rate, registered := g.registered },
          rfl, g.idle_registered, fun later hlater => ?_⟩
        obtain ⟨hgrown', -⟩ := register_step hnow
        have hkept := register_run fun h hh => (hlater h hh).after (hgrown.trans hgrown')
          (hsame.trans hfailing)
        apply hkept.1.channels
        rw [hregistry]
        exact (Registry.channel?_host hc hfree).mpr (.inr ⟨⟨rfl, rfl⟩, rfl⟩)
  · intro card index linesPerPort on inverted hlines
    have hsplit : portLine? index linesPerPort =
        some (index / linesPerPort, index % linesPerPort) := if_neg (Nat.ne_of_gt hlines)
    refine ⟨index / linesPerPort, index % linesPerPort, fun port' line' => ?_, ?_, ?_⟩
    · rw [← portLine?_eq_some_iff, hsplit, Option.some.injEq, Prod.mk.injEq, eq_comm,
        eq_comm (a := index % linesPerPort)]
    · simp only [Registration.operation, Operation.run, addFlatChannel_eq hsplit]
    · intro index' hne heq
      have hindex := (portLine?_eq_some_iff.mp hsplit).1
      have hindex' := (Registration.address?_flat_iff.mp heq).1
      exact hne (hindex'.symm.trans hindex)

def twoCards : Session :=
  Session.operate {} [.addCard "Dev1" .analog 1000, .addCard "Dev2" .digital 1000]

/-- Line 9 of a card with eight lines on each port, and line 1 of port 1. -/
def lineNine : Registration := .flat "Dev2" 9 8 true false

def lineOne : Registration := .digital "Dev2" 1 1 false true

/-- They are the same: it is registered once, as it was asked for first. -/
theorem lineNine_lineOne_alike :
    (lineNine.operation.run.run.run twoCards).1 = .ok (.channel "Dev2" "port1/line1") ∧
    (lineOne.operation.run.run.run (twoCards.register [lineNine])).1 =
      .error (.duplicateChannel "Dev2" "port1/line1") ∧
    ∃ t, t.line = .digital ∧ t.idle = Line.level true ∧
      (twoCards.register [lineNine, lineOne]).registry.channel? "Dev2" "port1/line1" = .ok t := by
  have hreached : twoCards.registry.Reached := Registry.Reached.empty.operate (s := {}) _
  have hblank : ∀ e ∈ twoCards.registry.cards.entries, e.2.channels.entries = [] := by
    have hcards : (twoCards.registry.cards.entries.all fun e => e.2.channels.entries.isEmpty) =
        true := by
      decide +kernel
    exact fun e he => List.isEmpty_iff.mp (List.all_eq_true.mp hcards e he)
  have hadmitted : ∀ g : Registration, g.card = "Dev2" → g.kind = .digital →
      g.rest.isFinite = true → g.Admitted twoCards := by
    intro g hcard hkind hfinite
    have hdigital : (twoCards.registry.card? "Dev2").toOption.map (·.kind) = some .digital := by
      decide +kernel
    have hwilling : twoCards.backend.failing.isEmpty = true := by decide +kernel
    refine ⟨?_, hfinite, fun a _ => by rw [Backend.accepts, List.isEmpty_iff.mp hwilling]; rfl⟩
    rw [hcard, hkind]
    cases hc : twoCards.registry.card? "Dev2" with
    | error e =>
      rw [hc] at hdigital
      cases hdigital
    | ok c =>
      rw [hc] at hdigital
      exact ⟨c, rfl, Option.some.inj hdigital⟩
  have hnine : lineNine.Admitted twoCards := hadmitted _ rfl rfl (Line.isFinite_level true)
  have hone : lineOne.Admitted twoCards := hadmitted _ rfl rfl (Line.isFinite_level true)
  have hboth : ∀ g ∈ [lineOne, lineNine], g.Admitted twoCards := by simpa using ⟨hone, hnine⟩
  have hfirst := registration_never_aliases hreached hblank (List.forall_mem_singleton.mpr hnine)
  have hsecond := registration_never_aliases hreached hblank hboth
  have hdone := (hfirst.1 (.digital 1 1) rfl).2.2 (by simp [Registered])
  have hregistered : twoCards.Registered [lineNine] "Dev2" (.digital 1 1) :=
    ⟨[], lineNine, [], rfl, rfl, rfl, hdone⟩
  obtain ⟨t, hline, hidle, hlater⟩ := hfirst.2.1 _ _ hdone
  exact ⟨hdone, ((hsecond.1 (.digital 1 1) rfl).2.1).mpr hregistered, t, hline, hidle,
    hlater [lineOne] (List.forall_mem_singleton.mpr hone)⟩

end Session

end Sequencer
