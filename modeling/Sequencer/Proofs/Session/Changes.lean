import Sequencer.Proofs.Session.AllOrNothing

namespace Sequencer

/-- Between `b` and `b'` the calls `cs` were accepted, and perhaps others refused. -/
def Backend.Told (b : Backend) (cs : List Call) (b' : Backend) : Prop :=
  b'.failing = b.failing ∧ ∃ more, b'.calls = b.calls ++ more ∧ more.filter b.accepts = cs

/-- The calls logged since `b` that were accepted. -/
def Backend.acceptedSince (b b' : Backend) : List Call :=
  (b'.calls.drop b.calls.length).filter b.accepts

namespace Backend

variable {a b b' : Backend} {cs ds : List Call}

theorem accepts_congr (h : b'.failing = b.failing) : b'.accepts = b.accepts := by
  funext c
  rw [accepts, accepts, h]

theorem issue_fst (b : Backend) (c : Call) : (b.issue c).1 = b.accepts c := by
  unfold issue
  cases b.accepts c <;> rfl

theorem Told.refl (b : Backend) : b.Told [] b := ⟨rfl, [], by simp, rfl⟩

theorem Told.trans (h : a.Told cs b) (h' : b.Told ds b') : a.Told (cs ++ ds) b' := by
  obtain ⟨hfailing, more, hcalls, rfl⟩ := h
  obtain ⟨hfailing', more', hcalls', rfl⟩ := h'
  refine ⟨hfailing'.trans hfailing, more ++ more', ?_, ?_⟩
  · rw [hcalls', hcalls, List.append_assoc]
  · rw [List.filter_append, accepts_congr hfailing]

theorem told_issue (b : Backend) (c : Call) :
    b.Told (if b.accepts c then [c] else []) (b.issue c).2 := by
  refine ⟨issue_failing b c, [c], issue_calls b c, ?_⟩
  cases h : b.accepts c <;> simp [h]

theorem Told.acceptedSince (h : b.Told cs b') : b.acceptedSince b' = cs := by
  obtain ⟨-, more, hcalls, rfl⟩ := h
  rw [Backend.acceptedSince, hcalls, List.drop_left]

end Backend

/-- The roles without a card. -/
def Roles.without (card : String) (r : Roles) : Roles where
  startsLast := if r.startsLast == some card then none else r.startsLast
  provider := if r.isProvider card then none else r.provider

namespace Registry

open Session

/-- What an operation does to a registry at once. The calls are those that the backend accepted. -/
inductive Change (r : Registry) : List Call → Registry → Prop
  | addCard {name : String} {kind : CardKind} {rate : Float}
    (free : r.cards.contains name = false) :
    Change r [deviceCall name rate kind]
      { r with cards := r.cards.put name { name, kind, rate } }.withoutProgram
  | removeCard (name : String) :
    Change r [] { cards := r.cards.erase name, roles := r.roles.without name }
  | nameCard (name : String) (nickname : Option String) :
    Change r [] (r.modifyCard name fun c => { c with nickname })
  | nameChannel (card channel : String) (nickname : Option String) :
    Change r [] (r.modifyChannel card channel fun t => { t with nickname })
  | addAnalogChannel {card : String} {id : Nat} {level : Float} {c c' : Card}
    (known : r.card? card = .ok c)
    (added : c.addChannel (Naming.analogName id) .analog level = .ok c') :
    Change r [.addAnalogChannel card id level] (r.modifyCard card fun _ => c').withoutProgram
  | addDigitalChannel {card : String} {port number : Nat} {on : Bool} {line : Line} {c c' : Card}
    (known : r.card? card = .ok c) (digital : line.isDigital = true)
    (added : c.addChannel (Naming.digitalName port number) line (Line.level on) = .ok c') :
    Change r [.addDigitalChannel card port number (line.idle (Line.level on) != 0)]
      (r.modifyCard card fun _ => c').withoutProgram
  | addInstruction {card channel : String} {t : Timeline} {b : Booking}
    (known : r.channel? card channel = .ok t)
    (playable : (t.line.wave? b.instr t.idle).isSome = true) (placed : t.place b.instr = .ok b) :
    Change r [.emit card channel b.instr] (r.modifyChannel card channel (·.insert b)).withoutProgram
  | configureStartTrig {card : String} {trigIn trigOut : Option String}
    (oneWay : trigIn = none ∨ trigOut = none) :
    Change r [.setStartTrigIn card trigIn, .setStartTrigOut card trigOut]
      (r.modifySync card fun s =>
        { s with startTrigIn := trigIn, startTrigOut := trigOut }).withoutProgram
  | configureSampleClockIn (card : String) (terminal : Option String) :
    Change r [.setSampleClockIn card terminal]
      (r.modifySync card fun s => { s with sampleClockIn := terminal }).withoutProgram
  | configureSampleClockOut (card : String) (terminal : Option String) :
    Change r [.setSampleClockOut card terminal]
      (r.modifySync card fun s => { s with sampleClockOut := terminal }).withoutProgram
  | exportRefClock {card terminal : String} {rate : Float}
    (acknowledged : (rate == exportRate) = true)
    (free : checkNewProvider r card = .ok ()) :
    Change r [] ((handOver (some (card, terminal)) r).modifySync card fun s =>
      { s with refClockRate := some rate }).withoutProgram
  | importRefClock {card terminal : String} (rate : Float)
    (free : r.roles.isProvider card = false) :
    Change r [.setRefClockIn card (some terminal)] (r.modifySync card fun s =>
      { s with refClockIn := some terminal, refClockRate := some rate }).withoutProgram
  | clearRefClockIn (card : String) :
    Change r [.setRefClockIn card none]
      (r.modifySync card fun s => { s with refClockIn := none, refClockRate := none })
  | setWriteTimeout (card : String) (timeout : Option Float) :
    Change r [.setWriteTimeout card timeout]
      (r.modifySync card fun s => { s with writeTimeout := timeout })
  | setStartsLast {card : Option String}
    (known : ∀ name, card = some name → r.cards.contains name = true) :
    Change r [] { r with roles := { r.roles with startsLast := card } }
  | setProvider {provider : Option (String × String)}
    (free : ∀ p, provider = some p → checkNewProvider r p.1 = .ok ()) :
    Change r [] (handOver provider r)
  | resetCard (name : String) :
    Change r [.resetDevice name] { r.modifyCard name (·.reset) with
      roles := { r.roles with provider := (r.roles.without name).provider }
      program := none }
  | clearEdits :
    Change r [.clearEdits] { r with cards := r.cards.map Card.clearEdits }.withoutProgram
  | compile {cs : List Call} {r' : Registry} (calls : ∀ c ∈ cs, ∃ stop, c = .compile stop)
    (same : r'.unmarked = r.unmarked) : Change r cs r'

/-- Changes one after another, with all the calls that were accepted. -/
inductive Changes (r : Registry) : List Call → Registry → Prop
  | none : Changes r [] r
  | snoc {cs ds : List Call} {r' r'' : Registry} (before : Changes r cs r')
    (change : Change r' ds r'') : Changes r (cs ++ ds) r''

variable {r r' r'' : Registry} {cs ds : List Call}

theorem Change.changes (h : Change r cs r') : Changes r cs r' := Changes.none.snoc h

theorem Changes.trans (h : Changes r cs r') (h' : Changes r' ds r'') :
    Changes r (cs ++ ds) r'' := by
  induction h' with
  | none => rwa [List.append_nil]
  | snoc before change ih =>
    rw [← List.append_assoc]
    exact ih.snoc change

/-- What every change keeps, a chain of them keeps. -/
theorem Changes.keep (inv : Registry → Prop) (h : Changes r cs r')
    (hkeep : ∀ r cs r', Change r cs r' → inv r → inv r') (hr : inv r) : inv r' := by
  induction h with
  | none => exact hr
  | snoc before change ih => exact hkeep _ _ _ change ih

end Registry

namespace Job

open Triple

variable {α : Type} {r r' : Registry} {b : Backend} {cs ds : List Call}

/-- The registry is this one, and since `b` the backend accepted these calls. -/
def Since (r : Registry) (b : Backend) (cs : List Call) (s : Session) : Prop :=
  s.registry = r ∧ b.Told cs s.backend

/-- The calls that were accepted since `b` come with the changes made to the registry. -/
def Changed (r : Registry) (b : Backend) (s : Session) : Prop :=
  ∃ cs r', r.Changes cs r' ∧ Since r' b cs s

/-- The registry is as it was, whatever calls were accepted. -/
def Ahead (r : Registry) (b : Backend) (s : Session) : Prop := ∃ cs, Since r b cs s

theorem Since.start (s : Session) : Since s.registry s.backend [] s := ⟨rfl, .refl _⟩

theorem Since.unchanged {s : Session} (h : Since r b [] s) : Changed r b s := ⟨[], r, .none, h⟩

theorem Since.changed {s : Session} (h : Since r' b cs s) (change : r.Change cs r') :
    Changed r b s :=
  ⟨cs, r', change.changes, h⟩

/-- Changes that were made in two parts. -/
theorem Changed.trans {s s' : Session} (h : Changed r b s)
    (h' : Changed s.registry s.backend s') : Changed r b s' := by
  obtain ⟨cs, r', hchanges, rfl, htold⟩ := h
  obtain ⟨ds, r'', hchanges', hr, htold'⟩ := h'
  exact ⟨cs ++ ds, r'', hchanges.trans hchanges', hr, htold.trans htold'⟩

namespace Triple

variable {post : α → Session → Prop} {fault : Error → Session → Prop}

theorem requireCard_since {name : String} {k : Card → Job α}
    (herr : ∀ e s, Since r b cs s → fault e s)
    (hk : ∀ c, r.card? name = .ok c → Triple (Since r b cs) (k c) post fault) :
    Triple (Since r b cs) (requireCard name >>= k) post fault := by
  have hrequire : Triple (Since r b cs) (requireCard name)
      (fun c s => r.card? name = .ok c ∧ Since r b cs s) fault :=
    readRegistry_bind (fun _ hs => hs.1) <|
      Triple.ofExcept (fun _ _ hc hs => ⟨hc, hs⟩) fun e s _ hs => herr e s hs
  exact hrequire.bind fun c s hc => hk c hc.1 s hc.2

theorem requireChannel_since {card channel : String} {k : Timeline → Job α}
    (herr : ∀ e s, Since r b cs s → fault e s)
    (hk : ∀ t, r.channel? card channel = .ok t → Triple (Since r b cs) (k t) post fault) :
    Triple (Since r b cs) (requireChannel card channel >>= k) post fault := by
  have hrequire : Triple (Since r b cs) (requireChannel card channel)
      (fun t s => r.channel? card channel = .ok t ∧ Since r b cs s) fault :=
    readRegistry_bind (fun _ hs => hs.1) <|
      Triple.ofExcept (fun _ _ ht hs => ⟨ht, hs⟩) fun e s _ hs => herr e s hs
  exact hrequire.bind fun t s ht => hk t ht.1 s ht.2

/-- The backend takes the call as it took calls before, and an accepted one is one more. -/
theorem issue_spec {c : Call} :
    Triple (Since r b cs) (Job.issue c)
      (fun _ s => b.accepts c = true ∧ Since r b (cs ++ [c]) s)
      (fun e s => e = .backend c ∧ b.accepts c = false ∧ Since r b cs s) := by
  have hverdict : ∀ s, Since r b cs s → (s.backend.issue c).1 = b.accepts c := fun s hs => by
    rw [Backend.issue_fst, Backend.accepts_congr hs.2.1]
  apply Triple.issue
  · intro s hs haccepted
    have hissue := s.backend.told_issue c
    rw [← Backend.issue_fst, haccepted] at hissue
    exact ⟨(hverdict s hs).symm.trans haccepted, hs.1, hs.2.trans hissue⟩
  · intro s hs hrefused
    have hissue := s.backend.told_issue c
    rw [← Backend.issue_fst, hrefused] at hissue
    refine ⟨rfl, (hverdict s hs).symm.trans hrefused, hs.1, ?_⟩
    simpa using hs.2.trans hissue

theorem issue_since {c : Call} (herr : ∀ s, Since r b cs s → fault (.backend c) s) :
    Triple (Since r b cs) (Job.issue c) (fun _ => Since r b (cs ++ [c])) fault := by
  refine issue_spec.weaken (fun _ hs => hs) (fun _ _ hs => hs.2) ?_
  rintro _ s ⟨rfl, -, hs⟩
  exact herr s hs

theorem issue_accepted {c : Call} (h : b.accepts c = true) :
    Triple (Since r b cs) (Job.issue c) (fun _ => Since r b (cs ++ [c])) fault := by
  refine issue_spec.weaken (fun _ hs => hs) (fun _ _ hs => hs.2) ?_
  rintro _ s ⟨-, hrefused, -⟩
  cases h.symm.trans hrefused

theorem issue_refused {c : Call} (h : b.accepts c = false)
    (herr : ∀ s, Since r b cs s → fault (.backend c) s) :
    Triple (Since r b cs) (Job.issue c) (fun _ _ => False) fault := by
  refine issue_spec.weaken (fun _ hs => hs) (fun _ _ hs => ?_) ?_
  · cases h.symm.trans hs.1
  · rintro _ s ⟨rfl, -, hs⟩
    exact herr s hs

theorem adjust_since {f : Registry → Registry} :
    Triple (Since r b cs) (Job.adjust f) (fun _ => Since (f r) b cs) fault :=
  Triple.adjust fun _ hs => ⟨congrArg f hs.1, hs.2⟩

theorem note_since {n : Notice} :
    Triple (Since r b cs) (Job.note n) (fun _ => Since r b cs) fault :=
  Triple.note fun _ hs => hs

/-- A card that is there is found again. -/
theorem requireCard_known {name : String} {c : Card} {k : Card → Job α}
    (hc : r.card? name = .ok c) (hk : Triple (Since r b cs) (k c) post fault) :
    Triple (Since r b cs) (requireCard name >>= k) post fault := by
  have hrequire : Triple (Since r b cs) (requireCard name) (fun d s => d = c ∧ Since r b cs s)
      fault := by
    apply readRegistry_bind fun _ hs => hs.1
    rw [hc]
    exact Triple.pure fun _ hs => ⟨rfl, hs⟩
  exact hrequire.bind fun d s hd => hd.1 ▸ hk s hd.2

/-- A channel that is there is found again. -/
theorem requireChannel_known {card channel : String} {t : Timeline} {k : Timeline → Job α}
    (ht : r.channel? card channel = .ok t) (hk : Triple (Since r b cs) (k t) post fault) :
    Triple (Since r b cs) (requireChannel card channel >>= k) post fault := by
  have hrequire : Triple (Since r b cs) (requireChannel card channel)
      (fun u s => u = t ∧ Since r b cs s) fault := by
    apply readRegistry_bind fun _ hs => hs.1
    rw [ht]
    exact Triple.pure fun _ hs => ⟨rfl, hs⟩
  exact hrequire.bind fun u s hu => hu.1 ▸ hk s hu.2

theorem adjustCard_since {name : String} {f : Card → Card} {c : Card}
    (hc : r.card? name = .ok c) :
    Triple (Since r b cs) (adjustCard name f) (fun _ => Since (r.modifyCard name f) b cs) fault :=
  requireCard_known hc adjust_since

theorem adjustChannel_since {card channel : String} {f : Timeline → Timeline} {t : Timeline}
    (ht : r.channel? card channel = .ok t) :
    Triple (Since r b cs) (adjustChannel card channel f)
      (fun _ => Since (r.modifyChannel card channel f) b cs) fault :=
  requireChannel_known ht adjust_since

theorem editSync_since {card : String} {f : SyncSettings → SyncSettings} {c : Card}
    (hc : r.card? card = .ok c) :
    Triple (Since r b cs) (do adjustSync card f; dropProgram)
      (fun _ => Since (r.modifySync card f).withoutProgram b cs) fault :=
  (adjustCard_since hc).bind fun _ => adjust_since

end Triple

/-- Calls made in a row, none of which changes the registry. The first one to be refused is the last
one to be made. -/
theorem Triple.forM_issue_spec {β : Type} {l : List β} {f : β → Call} :
    Triple (Since r b cs) (l.forM fun x => Job.issue (f x))
      (fun _ s => (∀ c ∈ l.map f, b.accepts c = true) ∧ Since r b (cs ++ l.map f) s)
      (fun e s => ∃ sent c rest, l.map f = sent ++ c :: rest ∧
        (∀ d ∈ sent, b.accepts d = true) ∧ b.accepts c = false ∧ e = .backend c ∧
        Since r b (cs ++ sent) s) := by
  induction l generalizing cs with
  | nil =>
    refine Triple.pure fun _ hs => ⟨by simp, ?_⟩
    rwa [List.map_nil, List.append_nil]
  | cons x l ih =>
    have hfirst : Triple (Since r b cs) (Job.issue (f x))
        (fun _ s => b.accepts (f x) = true ∧ Since r b (cs ++ [f x]) s)
        (fun e s => ∃ sent c rest, (x :: l).map f = sent ++ c :: rest ∧
          (∀ d ∈ sent, b.accepts d = true) ∧ b.accepts c = false ∧ e = .backend c ∧
          Since r b (cs ++ sent) s) := by
      refine issue_spec.weaken (fun _ hs => hs) (fun _ _ hs => hs) ?_
      rintro e s ⟨rfl, hrefused, hs⟩
      exact ⟨[], f x, l.map f, rfl, by simp, hrefused, rfl, by rwa [List.append_nil]⟩
    apply hfirst.bind
    rintro _ s ⟨haccepted, hs⟩
    refine (@ih (cs ++ [f x])).weaken (fun _ hs => hs) ?_ ?_ s hs
    · rintro _ s ⟨hrest, hs⟩
      exact ⟨List.forall_mem_cons.mpr ⟨haccepted, hrest⟩, by simpa using hs⟩
    · rintro e s ⟨sent, c, rest, hl, hsent, hrefused, he, hs⟩
      refine ⟨f x :: sent, c, rest, congrArg (f x :: ·) hl, ?_, hrefused, he, by simpa using hs⟩
      exact List.forall_mem_cons.mpr ⟨haccepted, hsent⟩

theorem Triple.forM_issue {β : Type} {l : List β} {f : β → Call} :
    Triple (Since r b cs) (l.forM fun x => Job.issue (f x)) (fun _ => Since r b (cs ++ l.map f))
      (fun _ => Ahead r b) := by
  refine forM_issue_spec.weaken (fun _ hs => hs) (fun _ _ hs => hs.2) ?_
  rintro e s ⟨sent, -, -, -, -, -, -, hs⟩
  exact ⟨_, hs⟩

/-- What the job does to a registry is a chain of changes, whether it is done or fails. -/
def Effects (j : Job α) : Prop :=
  ∀ r b, Triple (Since r b []) j (fun _ => Changed r b) fun _ => Changed r b

/-- Changes go on where others left off. -/
theorem Effects.after {j : Job α} (h : Effects j) :
    Triple (Changed r b) j (fun _ => Changed r b) fun _ => Changed r b := by
  intro s hs
  have hend := h s.registry s.backend s (.start s)
  rcases hr : j.run.run s with ⟨result, s'⟩
  rw [hr] at hend
  cases result with
  | ok a => exact hs.trans hend
  | error e => exact hs.trans hend

/-- A refused call leaves the registry as it was, and the job goes on after an accepted one. -/
theorem Triple.tell {c : Call} {k : Unit → Job α} {post : α → Session → Prop}
    (hk : Triple (Since r b [c]) (k ()) post fun _ => Changed r b) :
    Triple (Since r b []) (Job.issue c >>= k) post fun _ => Changed r b :=
  (issue_since fun _ hs => hs.unchanged).bind fun _ => hk

/-- What was done so far is a change. -/
theorem Triple.commit {j : Job α} {fault : Error → Session → Prop} (change : r.Change cs r')
    {pre : Session → Prop} (h : Triple pre j (fun _ => Since r' b cs) fault) :
    Triple pre j (fun _ => Changed r b) fault :=
  h.weaken (fun _ hs => hs) (fun _ _ hs => hs.changed change) fun _ _ hs => hs

end Job

end Sequencer
